import Mooncake.Shm.Contexts

/-!
# Contexts, mappings and registrations agree

In a consistent state exactly the recorded memory is mapped and exactly the recorded memory
is registered.  New memory is recorded, the memories of a client are forgotten together, and
one memory is dropped alone; each of these changes keeps a state consistent, the last one if
the memory is not that of the allocator.
-/

namespace Mooncake.Shm

open List
open Segment (UUID RegisterOutcome)

def ShmContext.Holds (context : ShmContext) (base size : UInt64) : Prop :=
  ∃ shm ∈ context.mappedShms, shm.shmBuffer = base ∧ shm.shmSize = size

/-- The memory is in the context of its client. -/
def ShmState.Records (state : ShmState) (region : ShmRegion) : Prop :=
  (state.contextOf region.client).Holds region.base region.size

/-- The memory of each allocator is in its context. -/
def ShmState.Backed (state : ShmState) : Prop :=
  ∀ clientId, ∀ allocator ∈ (state.contextOf clientId).clientBufferAllocator,
    (state.contextOf clientId).Holds allocator.base allocator.size

/-- Exactly the recorded memory is mapped and registered. -/
structure Consistent (state : ShmState) : Prop where
  registered : ∀ region, region ∈ state.registered ↔ state.Records region
  mapped : ∀ region, region ∈ state.mapped ↔ state.Records region
  apart : ∀ first second, state.Records first → state.Records second →
    first.base = second.base → first = second
  placed : ∀ region, state.Records region → region.base ≠ 0
  single : ∀ clientId, ((state.contextOf clientId).mappedShms.map MappedShm.shmBuffer).Nodup
  backed : state.Backed

/-! ## Contexts -/

section Contexts

variable {state : ShmState} {clientId other : UUID} {context : ShmContext}

theorem contextOf_insert {registered mapped : List ShmRegion} :
    (ShmState.mk registered mapped (state.shmContexts.insert clientId context)).contextOf other =
      if other = clientId then context else state.contextOf other := by
  unfold ShmState.contextOf
  split
  · rename_i same
    rw [same, AList.lookup_insert]
    rfl
  · rename_i different
    rw [AList.lookup_insert_ne different]

theorem contextOf_erase {registered mapped : List ShmRegion} :
    (ShmState.mk registered mapped (state.shmContexts.erase clientId)).contextOf other =
      if other = clientId then {} else state.contextOf other := by
  unfold ShmState.contextOf
  split
  · rename_i same
    rw [same, AList.lookup_erase]
    rfl
  · rename_i different
    rw [AList.lookup_erase_ne different]

theorem contextOf_of_lookup (found : state.shmContexts.lookup clientId = some context) :
    state.contextOf clientId = context := by
  rw [ShmState.contextOf, found]
  rfl

theorem contextOf_of_lookup_none (missing : state.shmContexts.lookup clientId = none) :
    state.contextOf clientId = {} := by
  rw [ShmState.contextOf, missing]
  rfl

theorem mem_of_allocator
    (held : (state.contextOf clientId).clientBufferAllocator.isSome = true) :
    clientId ∈ state.shmContexts := by
  by_contra absent
  rw [contextOf_of_lookup_none (AList.lookup_eq_none.mpr absent)] at held
  cases held

end Contexts

theorem consistent_start : Consistent {} := by
  have none : ∀ region, ¬({} : ShmState).Records region := by
    rintro region ⟨shm, present, -⟩
    cases present
  refine ⟨fun region => ?_, fun region => ?_, fun first _ recorded => absurd recorded (none first),
    fun region recorded => absurd recorded (none region), fun _ => nodup_nil, ?_⟩
  · exact iff_of_false not_mem_nil (none region)
  · exact iff_of_false not_mem_nil (none region)
  · intro clientId allocator present
    cases present

/-! ## `map_shm_internal` -/

section Map

variable {request : MapRequest} {placement : Placement request.shmSize} {state : ShmState}
  {maxMrSize : Nat} {outcome : RegisterOutcome}

theorem filter_fresh (fresh : ∀ region ∈ state.mapped, region.base ≠ placement.base) :
    (request.region placement :: state.mapped).filter (fun region => region.base ≠ placement.base) =
      state.mapped := by
  rw [filter_cons_of_neg (by simp [MapRequest.region])]
  exact filter_eq_self.mpr fun region present => by simpa using fresh region present

theorem registration_done
    (accepted : (request.registration maxMrSize placement outcome).1 = .ok ()) :
    (request.registration maxMrSize placement outcome).2 = true := by
  rw [MapRequest.registration, if_pos placement.nonempty, registerLocalMemory] at accepted ⊢
  split at accepted
  · cases accepted
  · by_cases done : outcome.code = .ok
    · exact outcome.done done
    · cases (if_pos done).symm.trans accepted

/-- A failed registration leaves the context that was created for it, and the memory
registered where the engine left it so. -/
theorem mapPlaced_of_refused (fresh : ∀ region ∈ state.mapped, region.base ≠ placement.base)
    {error : ErrorCode}
    (refused : (request.registration maxMrSize placement outcome).1 = .error error) :
    request.mapPlaced maxMrSize outcome placement state =
      (.error error,
        if (request.registration maxMrSize placement outcome).2 then
          (state.touch request.clientId).register (request.region placement)
        else state.touch request.clientId) := by
  by_cases known : request.clientId ∈ state.shmContexts <;>
    cases registers : (request.registration maxMrSize placement outcome).2 <;>
    simp only [MapRequest.mapPlaced, refused, registers, ShmState.touch, ShmState.munmap,
      ShmState.register, known, if_true, if_false, Bool.false_eq_true, filter_fresh fresh]

/-- A second allocator is refused after the memory was registered. -/
theorem mapPlaced_of_second (fresh : ∀ region ∈ state.mapped, region.base ≠ placement.base)
    (accepted : (request.registration maxMrSize placement outcome).1 = .ok ())
    (localBuffer : request.isLocalBuffer = true)
    (held : (state.contextOf request.clientId).clientBufferAllocator.isSome = true) :
    request.mapPlaced maxMrSize outcome placement state =
      (.error .objectAlreadyExists, state.register (request.region placement)) := by
  simp only [MapRequest.mapPlaced, accepted, registration_done accepted, ShmState.touch,
    mem_of_allocator held, if_true, localBuffer, held, Bool.and_self, ShmState.munmap,
    ShmState.register, filter_fresh fresh]

def MapRequest.record (request : MapRequest) (placement : Placement request.shmSize)
    (state : ShmState) : ShmState where
  registered := request.region placement :: state.registered
  mapped := request.region placement :: state.mapped
  shmContexts := state.shmContexts.insert request.clientId
    (request.extend (state.contextOf request.clientId) placement)

theorem mapPlaced_of_recorded
    (accepted : (request.registration maxMrSize placement outcome).1 = .ok ())
    (free : request.isLocalBuffer = true →
      (state.contextOf request.clientId).clientBufferAllocator = none) :
    request.mapPlaced maxMrSize outcome placement state =
      (.ok (), request.record placement state) := by
  have single : (request.isLocalBuffer &&
      (state.contextOf request.clientId).clientBufferAllocator.isSome) = false := by
    cases localBuffer : request.isLocalBuffer with
    | false => rfl
    | true => simp [free localBuffer]
  by_cases known : request.clientId ∈ state.shmContexts
  · simp only [MapRequest.mapPlaced, accepted, registration_done accepted, ShmState.touch, known,
      if_true, single, Bool.false_eq_true, if_false, ShmState.register, MapRequest.record]
  · simp only [MapRequest.mapPlaced, accepted, registration_done accepted, ShmState.touch, known,
      if_false, if_true, single, Bool.false_eq_true, ShmState.register, MapRequest.record,
      AList.insert_insert]

theorem records_record {region : ShmRegion} :
    (request.record placement state).Records region ↔
      region = request.region placement ∨ state.Records region := by
  unfold ShmState.Records MapRequest.record
  rw [contextOf_insert]
  by_cases same : region.client = request.clientId
  · rw [if_pos same, same]
    simp only [ShmContext.Holds, MapRequest.extend, mem_append, mem_singleton]
    constructor
    · rintro ⟨shm, old | rfl, base, size⟩
      · exact .inr ⟨shm, old, base, size⟩
      · left
        obtain ⟨client, start, length⟩ := region
        cases same
        cases base
        cases size
        rfl
    · rintro (rfl | ⟨shm, old, base, size⟩)
      · exact ⟨_, .inr rfl, rfl, rfl⟩
      · exact ⟨shm, .inl old, base, size⟩
  · rw [if_neg same]
    refine (or_iff_right fun new => same ?_).symm
    rw [new]
    rfl

theorem Consistent.record (consistent : Consistent state)
    (fresh : ∀ region ∈ state.mapped, region.base ≠ placement.base) :
    Consistent (request.record placement state) := by
  have elsewhere : ∀ region, state.Records region → region.base ≠ placement.base :=
    fun region recorded => fresh region ((consistent.mapped region).mpr recorded)
  have context : ∀ clientId, (request.record placement state).contextOf clientId =
      if clientId = request.clientId then
        request.extend (state.contextOf request.clientId) placement
      else state.contextOf clientId :=
    fun clientId => contextOf_insert
  refine ⟨fun region => ?_, fun region => ?_, fun first second own other same => ?_,
    fun region recorded => ?_, fun clientId => ?_, fun clientId allocator held => ?_⟩
  · rw [records_record, ← consistent.registered region]
    exact mem_cons
  · rw [records_record, ← consistent.mapped region]
    exact mem_cons
  · rcases records_record.mp own with rfl | old
    · rcases records_record.mp other with rfl | old'
      · rfl
      · exact absurd same.symm (elsewhere second old')
    · rcases records_record.mp other with rfl | old'
      · exact absurd same (elsewhere first old)
      · exact consistent.apart first second old old' same
  · rcases records_record.mp recorded with rfl | old
    · exact placement.nonnull
    · exact consistent.placed region old
  · rw [context]
    split
    · simp only [MapRequest.extend, map_append, map_cons, map_nil]
      refine nodup_append'.mpr ⟨consistent.single _, nodup_singleton _, ?_⟩
      rw [disjoint_singleton]
      intro present
      obtain ⟨shm, listed, same⟩ := mem_map.mp present
      exact elsewhere ⟨request.clientId, shm.shmBuffer, shm.shmSize⟩ ⟨shm, listed, rfl, rfl⟩ same
    · exact consistent.single clientId
  · rw [context] at held ⊢
    split at held
    · rename_i same
      rw [if_pos same]
      simp only [MapRequest.extend] at held
      split at held
      · cases held
        exact ⟨_, mem_append_right _ (mem_singleton.mpr rfl), rfl, rfl⟩
      · obtain ⟨shm, listed, backs⟩ := consistent.backed request.clientId allocator held
        exact ⟨shm, mem_append_left _ listed, backs⟩
    · rename_i different
      rw [if_neg different]
      exact consistent.backed clientId allocator held

end Map

/-! ## `unmap_shm_internal` -/

section Unmap

variable {unregister : Nat → Bool} {shms : List MappedShm} {round : Nat} {state : ShmState}

theorem unmapShms_contexts :
    (unmapShms unregister round shms state).2.shmContexts = state.shmContexts := by
  induction shms generalizing round state with
  | nil => rfl
  | cons shm rest ih =>
    unfold unmapShms
    split
    · exact ih
    · split
      · rfl
      · exact ih

/-- When every round unregisters, all the memories are gone, and no others. -/
theorem unmapShms_done (placed : ∀ shm ∈ shms, shm.shmBuffer ≠ 0)
    (answered : ∀ k < shms.length, unregister (round + k) = true) (region : ShmRegion) :
    (region ∈ (unmapShms unregister round shms state).2.registered ↔
        region ∈ state.registered ∧ ∀ shm ∈ shms, region.base ≠ shm.shmBuffer) ∧
      (region ∈ (unmapShms unregister round shms state).2.mapped ↔
        region ∈ state.mapped ∧ ∀ shm ∈ shms, region.base ≠ shm.shmBuffer) := by
  induction shms generalizing round state with
  | nil => simp [unmapShms]
  | cons shm rest ih =>
    have succeeded : unregister round = true := answered 0 (Nat.zero_lt_succ _)
    have later : ∀ k < rest.length, unregister (round + 1 + k) = true := by
      intro k inside
      rw [Nat.add_assoc, Nat.add_comm 1 k]
      exact answered (k + 1) (Nat.succ_lt_succ inside)
    have others := @ih (round + 1) ((state.unregister shm.shmBuffer).munmap shm.shmBuffer)
      (fun other present => placed other (mem_cons_of_mem _ present)) later
    rw [unmapShms, if_neg (placed shm mem_cons_self), if_neg (by simp [succeeded])]
    rw [others.1, others.2]
    simp [ShmState.munmap, ShmState.unregister, and_assoc]

theorem unmapShms_failed (placed : ∀ shm ∈ shms, shm.shmBuffer ≠ 0)
    (single : (shms.map MappedShm.shmBuffer).Nodup)
    (failed : ∃ k < shms.length, unregister (round + k) = false) :
    ∃ shm ∈ shms, ∀ region ∈ state.registered, region.base = shm.shmBuffer →
      region ∈ (unmapShms unregister round shms state).2.registered := by
  induction shms generalizing round state with
  | nil =>
    obtain ⟨k, inside, -⟩ := failed
    cases inside
  | cons shm rest ih =>
    rw [unmapShms, if_neg (placed shm mem_cons_self)]
    cases succeeded : unregister round with
    | false => exact ⟨shm, mem_cons_self, fun region present _ => present⟩
    | true =>
      obtain ⟨k, inside, refused⟩ := failed
      have later : ∃ k < rest.length, unregister (round + 1 + k) = false := by
        cases k with
        | zero =>
          rw [Nat.add_zero, succeeded] at refused
          cases refused
        | succ k =>
          refine ⟨k, Nat.lt_of_succ_lt_succ inside, ?_⟩
          rw [Nat.add_assoc, Nat.add_comm 1 k]
          exact refused
      rw [map_cons, nodup_cons] at single
      obtain ⟨kept, present, stays⟩ :=
        @ih (round + 1) ((state.unregister shm.shmBuffer).munmap shm.shmBuffer)
          (fun other listed => placed other (mem_cons_of_mem _ listed)) single.2 later
      refine ⟨kept, mem_cons_of_mem _ present, fun region registered same => ?_⟩
      have different : region.base ≠ shm.shmBuffer := by
        rw [same]
        intro equal
        exact single.1 (equal ▸ mem_map_of_mem present)
      simp only [Bool.not_true, Bool.false_eq_true, if_false]
      exact stays region (mem_filter.mpr ⟨registered, by simpa using different⟩) same

end Unmap

section Client

variable {state : ShmState} {clientId : UUID} {context : ShmContext} {unregister : Nat → Bool}

theorem Consistent.shms_placed (consistent : Consistent state) :
    ∀ shm ∈ (state.contextOf clientId).mappedShms, shm.shmBuffer ≠ 0 :=
  fun shm present => consistent.placed ⟨clientId, shm.shmBuffer, shm.shmSize⟩
    ⟨shm, present, rfl, rfl⟩

theorem unmapShmInternal_known (found : state.shmContexts.lookup clientId = some context) :
    (unmapShmInternal clientId unregister state).2 =
      { (unmapShms unregister 0 context.mappedShms state).2 with
        shmContexts := state.shmContexts.erase clientId } := by
  simp only [unmapShmInternal, found, unmapShms_contexts]

/-- The context of one client is gone, with its memories. -/
structure Forgets (state : ShmState) (clientId : UUID) (next : ShmState) : Prop where
  registered : ∀ region, region ∈ next.registered ↔
    region ∈ state.registered ∧ region.client ≠ clientId
  mapped : ∀ region, region ∈ next.mapped ↔ region ∈ state.mapped ∧ region.client ≠ clientId
  contexts : ∀ other, next.contextOf other = if other = clientId then {} else state.contextOf other

theorem Consistent.forget {next : ShmState} (consistent : Consistent state)
    (forgets : Forgets state clientId next) : Consistent next := by
  have recorded : ∀ region, next.Records region ↔
      state.Records region ∧ region.client ≠ clientId := by
    intro region
    unfold ShmState.Records
    rw [forgets.contexts]
    split
    · rename_i same
      refine iff_of_false ?_ fun both => both.2 same
      rintro ⟨shm, present, -⟩
      cases present
    · rename_i different
      exact (and_iff_left different).symm
  refine ⟨fun region => ?_, fun region => ?_, fun first second own other => ?_,
    fun region present => ?_, fun other => ?_, fun other allocator held => ?_⟩
  · rw [forgets.registered, consistent.registered, recorded]
  · rw [forgets.mapped, consistent.mapped, recorded]
  · exact consistent.apart first second ((recorded first).mp own).1 ((recorded second).mp other).1
  · exact consistent.placed region ((recorded region).mp present).1
  · rw [forgets.contexts]
    split
    · exact nodup_nil
    · exact consistent.single other
  · rw [forgets.contexts] at held ⊢
    split at held
    · cases held
    · rename_i different
      rw [if_neg different]
      exact consistent.backed other allocator held

/-- In a consistent state the memories of a context are those of its client. -/
theorem Consistent.client_ne_iff (consistent : Consistent state) {region : ShmRegion}
    (recorded : state.Records region) :
    (∀ shm ∈ (state.contextOf clientId).mappedShms, region.base ≠ shm.shmBuffer) ↔
      region.client ≠ clientId := by
  constructor
  · rintro apart rfl
    obtain ⟨shm, present, base, -⟩ := recorded
    exact apart shm present base.symm
  · intro different shm present same
    have own : state.Records ⟨clientId, shm.shmBuffer, shm.shmSize⟩ := ⟨shm, present, rfl, rfl⟩
    rw [consistent.apart region _ recorded own same] at different
    exact different rfl

theorem Consistent.unmap (consistent : Consistent state)
    (answered : ∀ round < (state.contextOf clientId).mappedShms.length,
      unregister round = true) : Consistent (unmapShmInternal clientId unregister state).2 := by
  cases found : state.shmContexts.lookup clientId with
  | none => simpa only [unmapShmInternal, found] using consistent
  | some context =>
    have own := contextOf_of_lookup found
    rw [own] at answered
    have placed : ∀ shm ∈ context.mappedShms, shm.shmBuffer ≠ 0 := own ▸ consistent.shms_placed
    have done := fun region => @unmapShms_done unregister context.mappedShms 0 state placed
      (by simpa using answered) region
    rw [unmapShmInternal_known found]
    refine @Consistent.forget state clientId _ consistent
      ⟨fun region => ?_, fun region => ?_, fun other => ?_⟩
    · refine (done region).1.trans (and_congr_right fun present => ?_)
      rw [← own]
      exact consistent.client_ne_iff ((consistent.registered region).mp present)
    · refine (done region).2.trans (and_congr_right fun present => ?_)
      rw [← own]
      exact consistent.client_ne_iff ((consistent.mapped region).mp present)
    · exact contextOf_erase

/-- After a failed round something is registered that is not recorded. -/
theorem Consistent.unmap_failed (consistent : Consistent state)
    (failed : ∃ round < (state.contextOf clientId).mappedShms.length, unregister round = false) :
    ∃ region ∈ (unmapShmInternal clientId unregister state).2.registered,
      ¬(unmapShmInternal clientId unregister state).2.Records region := by
  cases found : state.shmContexts.lookup clientId with
  | none =>
    rw [contextOf_of_lookup_none found] at failed
    obtain ⟨round, inside, -⟩ := failed
    cases inside
  | some context =>
    have own := contextOf_of_lookup found
    obtain ⟨shm, present, stays⟩ := @unmapShms_failed unregister _ 0 state
      consistent.shms_placed (consistent.single clientId) (by simpa using failed)
    have recorded : state.Records ⟨clientId, shm.shmBuffer, shm.shmSize⟩ := ⟨shm, present, rfl, rfl⟩
    rw [unmapShmInternal_known found]
    refine ⟨_, own ▸ stays _ ((consistent.registered _).mpr recorded) rfl, ?_⟩
    rintro ⟨other, listed, -⟩
    rw [contextOf_erase, if_pos rfl] at listed
    cases listed

end Client

/-! ## `unregister_shm_buffer_internal` -/

section Buffer

variable {state : ShmState} {clientId : UUID} {context : ShmContext} {dummyBaseAddr : UInt64}
  {shm : MappedShm}

def ShmState.drop (state : ShmState) (clientId : UUID) (dummyBaseAddr : UInt64)
    (shm : MappedShm) : ShmState where
  registered := state.registered.filter fun region => region.base ≠ shm.shmBuffer
  mapped := state.mapped.filter fun region => region.base ≠ shm.shmBuffer
  shmContexts := state.shmContexts.insert clientId
    { state.contextOf clientId with
      mappedShms := (state.contextOf clientId).mappedShms.eraseP fun shm =>
        dummyBaseAddr = shm.dummyBaseAddr }

theorem unregisterShmBufferInternal_cases (consistent : Consistent state) (unregister : Bool) :
    (unregisterShmBufferInternal dummyBaseAddr clientId unregister state).2 = state ∧
        (∀ shm, (state.contextOf clientId).mappedShms.find?
          (fun shm => dummyBaseAddr = shm.dummyBaseAddr) = some shm → unregister = false) ∨
      ∃ shm, (state.contextOf clientId).mappedShms.find?
          (fun shm => dummyBaseAddr = shm.dummyBaseAddr) = some shm ∧ unregister = true ∧
        (unregisterShmBufferInternal dummyBaseAddr clientId unregister state).2 =
          state.drop clientId dummyBaseAddr shm := by
  unfold unregisterShmBufferInternal
  cases found : state.shmContexts.lookup clientId with
  | none =>
    rw [contextOf_of_lookup_none found]
    exact .inl ⟨rfl, fun shm listed => by cases listed⟩
  | some context =>
    rw [contextOf_of_lookup found]
    dsimp only
    cases listed : context.mappedShms.find? fun shm => dummyBaseAddr = shm.dummyBaseAddr with
    | none => exact .inl ⟨rfl, fun shm other => by cases other⟩
    | some shm =>
      have placed : shm.shmBuffer ≠ 0 := by
        refine @Consistent.shms_placed state clientId consistent shm ?_
        rw [contextOf_of_lookup found]
        exact mem_of_find?_eq_some listed
      cases unregister with
      | false => exact .inl ⟨by simp [placed], fun _ _ => rfl⟩
      | true =>
        refine .inr ⟨shm, rfl, rfl, ?_⟩
        simp [placed, ShmState.drop, ShmState.unregister, ShmState.munmap,
          contextOf_of_lookup found]

theorem mem_eraseP_shm {shms : List MappedShm} {test : MappedShm → Bool}
    (single : (shms.map MappedShm.shmBuffer).Nodup) (found : shms.find? test = some shm)
    (other : MappedShm) :
    other ∈ shms.eraseP test ↔ other ∈ shms ∧ other.shmBuffer ≠ shm.shmBuffer := by
  obtain ⟨holds, front, back, rfl, before⟩ := find?_eq_some_iff_append.mp found
  rw [eraseP_append_right _ fun earlier listed => by simpa using before earlier listed,
    eraseP_cons_of_pos holds]
  have separate : ∀ kept ∈ front ++ back, kept.shmBuffer ≠ shm.shmBuffer := by
    rw [map_append, map_cons, nodup_middle, nodup_cons, ← map_append] at single
    intro kept listed same
    exact single.1 (same ▸ mem_map_of_mem listed)
  constructor
  · intro listed
    refine ⟨?_, separate other listed⟩
    rcases mem_append.mp listed with earlier | later
    · exact mem_append_left _ earlier
    · exact mem_append_right _ (mem_cons_of_mem _ later)
  · rintro ⟨listed, different⟩
    rcases mem_append.mp listed with earlier | later
    · exact mem_append_left _ earlier
    · rcases mem_cons.mp later with rfl | later
      · exact absurd rfl different
      · exact mem_append_right _ later

theorem contextOf_drop (other : UUID) :
    (state.drop clientId dummyBaseAddr shm).contextOf other =
      if other = clientId then
        { state.contextOf clientId with
          mappedShms := (state.contextOf clientId).mappedShms.eraseP fun shm =>
            dummyBaseAddr = shm.dummyBaseAddr }
      else state.contextOf other :=
  contextOf_insert

theorem Consistent.holds_drop (consistent : Consistent state)
    (found : (state.contextOf clientId).mappedShms.find?
      (fun shm => dummyBaseAddr = shm.dummyBaseAddr) = some shm)
    {other : UUID} {base size : UInt64} :
    ((state.drop clientId dummyBaseAddr shm).contextOf other).Holds base size ↔
      (state.contextOf other).Holds base size ∧ base ≠ shm.shmBuffer := by
  rw [contextOf_drop]
  split
  · rename_i same
    subst same
    unfold ShmContext.Holds
    simp only [mem_eraseP_shm (consistent.single other) found]
    constructor
    · rintro ⟨kept, ⟨listed, different⟩, rfl, rfl⟩
      exact ⟨⟨kept, listed, rfl, rfl⟩, different⟩
    · rintro ⟨⟨kept, listed, rfl, rfl⟩, different⟩
      exact ⟨kept, ⟨listed, different⟩, rfl, rfl⟩
  · rename_i different
    refine (and_iff_left_of_imp fun held same => different ?_).symm
    have own : state.Records ⟨clientId, shm.shmBuffer, shm.shmSize⟩ :=
      ⟨shm, mem_of_find?_eq_some found, rfl, rfl⟩
    have recorded : state.Records ⟨other, base, size⟩ := held
    exact congrArg ShmRegion.client (consistent.apart _ _ recorded own same)

/-- Memory that is not that of the allocator may be taken away alone. -/
theorem Consistent.drop (consistent : Consistent state)
    (found : (state.contextOf clientId).mappedShms.find?
      (fun shm => dummyBaseAddr = shm.dummyBaseAddr) = some shm)
    (unused : (state.contextOf clientId).clientBufferAllocator ≠
      some ⟨shm.shmBuffer, shm.shmSize⟩) :
    Consistent (state.drop clientId dummyBaseAddr shm) := by
  have recorded : ∀ region, (state.drop clientId dummyBaseAddr shm).Records region ↔
      state.Records region ∧ region.base ≠ shm.shmBuffer :=
    fun region => consistent.holds_drop found
  refine ⟨fun region => ?_, fun region => ?_, fun first second own other => ?_,
    fun region present => ?_, fun other => ?_, fun other allocator held => ?_⟩
  · rw [recorded, ← consistent.registered]
    simp [ShmState.drop]
  · rw [recorded, ← consistent.mapped]
    simp [ShmState.drop]
  · exact consistent.apart first second ((recorded first).mp own).1 ((recorded second).mp other).1
  · exact consistent.placed region ((recorded region).mp present).1
  · rw [contextOf_drop]
    split
    · exact (consistent.single clientId).sublist (eraseP_sublist.map _)
    · exact consistent.single other
  · obtain ⟨base, size⟩ := allocator
    have kept : ⟨base, size⟩ ∈ (state.contextOf other).clientBufferAllocator := by
      rw [contextOf_drop] at held
      split at held
      · rename_i same
        exact same ▸ held
      · exact held
    have backs := consistent.backed other ⟨base, size⟩ kept
    refine (consistent.holds_drop found).mpr ⟨backs, fun same => ?_⟩
    have own : state.Records ⟨clientId, shm.shmBuffer, shm.shmSize⟩ :=
      ⟨shm, mem_of_find?_eq_some found, rfl, rfl⟩
    have recordedBy : state.Records ⟨other, base, size⟩ := backs
    cases consistent.apart _ _ recordedBy own same
    exact unused kept

end Buffer

end Mooncake.Shm
