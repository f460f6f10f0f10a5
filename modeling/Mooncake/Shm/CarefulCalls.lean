import Mooncake.Library.Runs
import Mooncake.Shm.Consistent

/-!
# Careful calls

The calls on shared memory have four careless ways: a failed registration leaves an empty
context or registered memory, a second allocator is refused after the memory was registered,
an unmap gives up at the first memory that it cannot unregister, and the memory of an
allocator is taken away alone.  Along a run every call does what is expected of it exactly when no call takes one
of these ways.
-/

namespace Mooncake.Shm

open Segment (UUID RegisterOutcome)
open Library.Runs

/-- What is expected of a call: registered memory is mapped and recorded, a failed map changes
nothing, an unmap leaves nothing behind that is not recorded, and allocators keep their
memory. -/
structure CallSound (maxMrSize : Nat) (state : ShmState) (call : ShmCall) : Prop where
  registered : ∀ region ∈ (state.after maxMrSize call).registered,
    region ∈ (state.after maxMrSize call).mapped ∧
      (state.after maxMrSize call).Records region
  failedMap : ∀ request answers error, call = .mapShm request answers →
    (call.run maxMrSize state).1 = .error error → state.after maxMrSize call = state
  unmapped : ∀ clientId unregister, call = .unmapShm clientId unregister →
    ∀ region, region ∈ (state.after maxMrSize call).registered ∨
        region ∈ (state.after maxMrSize call).mapped →
      region.client = clientId → (state.after maxMrSize call).Records region
  backed : (state.after maxMrSize call).Backed

/-- The call meets no careless way.  A map that gets memory is registered, or nothing is
registered and its client has a context; registered memory for an allocator finds none.  Every
memory of an unmap is unregistered.  Memory that is taken away alone is not that of the allocator. -/
def ShmCall.Careful (maxMrSize : Nat) (state : ShmState) : ShmCall → Prop
  | .mapShm request answers =>
    request.alreadyMapped state = false → 0 ≤ request.fd →
      ∀ placement, answers.mmap.place state.mapped request.shmSize = some placement →
        match (request.registration maxMrSize placement answers.register).1 with
        | .error _ =>
          (request.registration maxMrSize placement answers.register).2 = false ∧
            request.clientId ∈ state.shmContexts
        | .ok () => request.isLocalBuffer = true →
            (state.contextOf request.clientId).clientBufferAllocator = none
  | .unmapShm clientId unregister =>
    ∀ round < (state.contextOf clientId).mappedShms.length, unregister round = true
  | .unregisterShmBuffer dummyBaseAddr clientId unregister =>
    ∀ shm, (state.contextOf clientId).mappedShms.find?
        (fun shm => dummyBaseAddr = shm.dummyBaseAddr) = some shm →
      unregister = true →
        (state.contextOf clientId).clientBufferAllocator ≠ some ⟨shm.shmBuffer, shm.shmSize⟩

/-! ## Calls and runs -/

section Calls

variable {maxMrSize : Nat} {state : ShmState} {call : ShmCall}

/-- A call that ends in a consistent state is sound if it is not a failed map with effects. -/
theorem callSound_of_consistent (consistent : Consistent (state.after maxMrSize call))
    (failed : ∀ request answers error, call = .mapShm request answers →
      (call.run maxMrSize state).1 = .error error → state.after maxMrSize call = state) :
    CallSound maxMrSize state call := by
  refine ⟨fun region present => ?_, failed, fun _ _ _ region present _ => ?_, consistent.backed⟩
  · have recorded := (consistent.registered region).mp present
    exact ⟨(consistent.mapped region).mpr recorded, recorded⟩
  · rcases present with registered | mapped
    · exact (consistent.registered region).mp registered
    · exact (consistent.mapped region).mp mapped

/-- What a map does: nothing, or one of the three ways of `mapPlaced`. -/
theorem mapShmInternal_cases (request : MapRequest) (answers : MapAnswers) :
    (request.mapShmInternal maxMrSize answers state).2 = state ∧
        (request.alreadyMapped state = false → 0 ≤ request.fd →
          answers.mmap.place state.mapped request.shmSize = none) ∨
      request.alreadyMapped state = false ∧ 0 ≤ request.fd ∧
        ∃ placement, answers.mmap.place state.mapped request.shmSize = some placement ∧
          request.mapShmInternal maxMrSize answers state =
            request.mapPlaced maxMrSize answers.register placement state := by
  unfold MapRequest.mapShmInternal
  cases known : request.alreadyMapped state with
  | true => exact .inl ⟨rfl, fun new => by cases new⟩
  | false =>
    by_cases invalid : request.fd < 0
    · exact .inl ⟨by simp [invalid], fun _ valid => absurd valid (by omega)⟩
    · cases placed : answers.mmap.place state.mapped request.shmSize with
      | none => exact .inl ⟨by simp [invalid], fun _ _ => rfl⟩
      | some placement =>
        exact .inr ⟨rfl, by omega, placement, rfl, by simp [invalid]⟩

theorem map_careful (consistent : Consistent state) {request : MapRequest} {answers : MapAnswers}
    (careful : (ShmCall.mapShm request answers).Careful maxMrSize state) :
    Consistent (request.mapShmInternal maxMrSize answers state).2 ∧
      ∀ error, (request.mapShmInternal maxMrSize answers state).1 = .error error →
        (request.mapShmInternal maxMrSize answers state).2 = state := by
  rcases @mapShmInternal_cases maxMrSize state request answers with
    ⟨same, -⟩ | ⟨new, valid, placement, placed, ran⟩
  · rw [same]
    exact ⟨consistent, fun _ _ => rfl⟩
  · have fresh := answers.mmap.fresh _ _ _ placed
    have way := careful new valid placement placed
    rw [ran]
    cases registered : (request.registration maxMrSize placement answers.register).1 with
    | error error =>
      rw [registered] at way
      have kept : state.touch request.clientId = state := if_pos way.2
      rw [mapPlaced_of_refused fresh registered, way.1, kept]
      exact ⟨consistent, fun _ _ => rfl⟩
    | ok _ =>
      rw [registered] at way
      rw [mapPlaced_of_recorded registered way]
      exact ⟨consistent.record fresh, fun error failed => by cases failed⟩

theorem map_careless {request : MapRequest} {answers : MapAnswers}
    (sound : CallSound maxMrSize state (.mapShm request answers)) :
    (ShmCall.mapShm request answers).Careful maxMrSize state := by
  intro new valid placement placed
  have fresh := answers.mmap.fresh _ _ _ placed
  rcases @mapShmInternal_cases maxMrSize state request answers with
    ⟨-, refused⟩ | ⟨-, -, other, placed', ran⟩
  · rw [refused new valid] at placed
    cases placed
  · rw [placed] at placed'
    cases placed'
    have unchanged : ∀ error next, request.mapPlaced maxMrSize answers.register placement state =
        (.error error, next) → next = state := by
      intro error next made
      have result : (ShmCall.mapShm request answers).run maxMrSize state = (.error error, next) :=
        ran.trans made
      have same := sound.failedMap request answers error rfl (by rw [result])
      rwa [ShmState.after, result] at same
    cases registered : (request.registration maxMrSize placement answers.register).1 with
    | error error =>
      have same := unchanged error _ (mapPlaced_of_refused fresh registered)
      have left : (request.registration maxMrSize placement answers.register).2 = false := by
        by_contra leaves
        rw [if_pos (by simpa using leaves)] at same
        have touched : (state.touch request.clientId).registered = state.registered := by
          unfold ShmState.touch
          split <;> rfl
        have longer := congrArg ShmState.registered same
        rw [ShmState.register, touched] at longer
        exact List.cons_ne_self _ _ longer
      refine ⟨left, ?_⟩
      rw [left] at same
      by_contra absent
      have present : request.clientId ∈ (state.touch request.clientId).shmContexts := by
        rw [ShmState.touch, if_neg absent]
        exact (AList.mem_insert _).mpr (.inl rfl)
      exact absent (same ▸ present)
    | ok _ =>
      intro localBuffer
      by_contra held
      have second := unchanged _ _ (mapPlaced_of_second fresh registered localBuffer
        (Option.isSome_iff_ne_none.mpr held))
      exact List.cons_ne_self _ _ (congrArg ShmState.registered second)

/-- A careful call keeps the state consistent, and a failed map keeps the state. -/
theorem Consistent.step (consistent : Consistent state) (careful : call.Careful maxMrSize state) :
    Consistent (state.after maxMrSize call) ∧
      ∀ request answers error, call = .mapShm request answers →
        (call.run maxMrSize state).1 = .error error → state.after maxMrSize call = state := by
  cases call with
  | mapShm request answers =>
    obtain ⟨kept, unchanged⟩ := map_careful consistent careful
    refine ⟨kept, fun _ _ error same failed => ?_⟩
    cases same
    exact unchanged error failed
  | unmapShm clientId unregister =>
    exact ⟨consistent.unmap careful, fun _ _ _ same => by cases same⟩
  | unregisterShmBuffer dummyBaseAddr clientId unregister =>
    refine ⟨?_, fun _ _ _ same => by cases same⟩
    have ways := @unregisterShmBufferInternal_cases state clientId dummyBaseAddr consistent
      unregister
    rw [ShmState.after, ShmCall.run]
    rcases ways with ⟨same, -⟩ | ⟨shm, found, succeeded, dropped⟩
    · rw [same]
      exact consistent
    · rw [dropped]
      exact consistent.drop found (careful shm found succeeded)

/-- In a consistent state the sound calls are the careful ones. -/
theorem Consistent.callSound_iff (consistent : Consistent state) :
    CallSound maxMrSize state call ↔ call.Careful maxMrSize state := by
  constructor
  · intro sound
    cases call with
    | mapShm request answers => exact map_careless sound
    | unmapShm clientId unregister =>
      intro round inside
      by_contra failed
      obtain ⟨region, registered, forgotten⟩ :=
        consistent.unmap_failed ⟨round, inside, by simpa using failed⟩
      exact forgotten (sound.registered region registered).2
    | unregisterShmBuffer dummyBaseAddr clientId unregister =>
      intro shm found succeeded used
      have ways := @unregisterShmBufferInternal_cases state clientId dummyBaseAddr consistent
        unregister
      rcases ways with ⟨-, refused⟩ | ⟨other, found', -, dropped⟩
      · rw [refused shm found] at succeeded
        cases succeeded
      · rw [found] at found'
        cases found'
        have backed := sound.backed
        rw [ShmState.after, ShmCall.run, dropped] at backed
        have held := backed clientId ⟨shm.shmBuffer, shm.shmSize⟩ (by
          rw [contextOf_drop, if_pos rfl]
          exact used)
        exact ((consistent.holds_drop found).mp held).2 rfl
  · intro careful
    obtain ⟨kept, unchanged⟩ := consistent.step careful
    exact callSound_of_consistent kept unchanged

end Calls

/-- In a run of any calls of any clients every call is sound exactly when every call is
careful. -/
theorem shmContexts_consistent_iff (maxMrSize : Nat) (calls : List ShmCall) :
    Along (ShmState.after maxMrSize) (CallSound maxMrSize) {} calls ↔
      Along (ShmState.after maxMrSize) (fun state call => call.Careful maxMrSize state) {} calls :=
  along_iff (fun consistent => consistent.callSound_iff)
    (fun consistent careful => (consistent.step careful).1) consistent_start calls

/-! ## Careless calls -/

/-- `mmap` gives the address if nothing is mapped there. -/
def mmapAt (base : UInt64) : Mmap where
  place := fun mapped size =>
    if fine : (base ≠ 0 ∧ 0 < size ∧ base.toNat + size.toNat ≤ 2 ^ 64) ∧
        ∀ region ∈ mapped, region.base ≠ base then
      some ⟨base, fine.1.1, fine.1.2.1, fine.1.2.2⟩
    else none
  fresh := by
    intro mapped size placement placed
    split at placed
    · rename_i fine
      cases placed
      exact fine.2
    · cases placed

/-- A map of 64 bytes for one client, at the given places of both processes. -/
def mapAt (dummyBaseAddr base : UInt64) (isLocalBuffer : Bool) (outcome : RegisterOutcome) :
    ShmCall :=
  .mapShm ⟨3, dummyBaseAddr, 64, isLocalBuffer, (0, 1)⟩ ⟨mmapAt base, outcome⟩

def refuses (registers : Bool) : RegisterOutcome := ⟨.failed, registers, fun done => by cases done⟩

def stateAfter (calls : List ShmCall) : ShmState :=
  calls.foldl (ShmState.after 4096) {}

/-- A failed registration leaves an empty context, and registered memory that is not mapped if
the engine left it registered.  A second allocator is refused and leaves
registered memory that is not mapped, and so does an unmap that fails.  An allocator loses
its memory. -/
theorem carelessCalls_leave_inconsistent_state :
    (((mapAt 4096 8192 false (refuses false)).run 4096 {}).1 = .error .invalidParams ∧
      (stateAfter [mapAt 4096 8192 false (refuses false)]).shmContexts.keys = [(0, 1)]) ∧
    (((mapAt 4096 8192 false (refuses true)).run 4096 {}).1 = .error .invalidParams ∧
      (stateAfter [mapAt 4096 8192 false (refuses true)]).registered = [⟨(0, 1), 8192, 64⟩] ∧
      (stateAfter [mapAt 4096 8192 false (refuses true)]).mapped = []) ∧
    (((mapAt 8192 16384 true .success).run 4096 (stateAfter [mapAt 4096 8192 true .success])).1 =
        .error .objectAlreadyExists ∧
      ⟨(0, 1), 16384, 64⟩ ∈
        (stateAfter [mapAt 4096 8192 true .success, mapAt 8192 16384 true .success]).registered ∧
      ⟨(0, 1), 16384, 64⟩ ∉
        (stateAfter [mapAt 4096 8192 true .success, mapAt 8192 16384 true .success]).mapped) ∧
    (⟨(0, 1), 8192, 64⟩ ∈
        (stateAfter [mapAt 4096 8192 false .success, .unmapShm (0, 1) fun _ => false]).registered ∧
      (stateAfter [mapAt 4096 8192 false .success, .unmapShm (0, 1) fun _ => false]).mapped = []) ∧
    ((stateAfter [mapAt 4096 8192 true .success, .unregisterShmBuffer 4096 (0, 1) true]).contextOf
        (0, 1)).clientBufferAllocator = some ⟨8192, 64⟩ ∧
      ((stateAfter [mapAt 4096 8192 true .success, .unregisterShmBuffer 4096 (0, 1) true]).contextOf
        (0, 1)).mappedShms = [] := by
  decide

end Mooncake.Shm
