import Mathlib.Data.List.AList
import Mooncake.Types

/-!
# Segments of the store client

`Client` keeps the segments that it has mounted, those whose graceful unmount the master
has accepted, and the cleanup callbacks of the latter.  A segment is registered with the
transfer engine while it is mounted.  Each function here is one critical section of
`mounted_segments_mutex_`; the master and the transfer engine answer with arbitrary outcomes.
-/

namespace Mooncake.Segment

abbrev UUID := UInt64 × UInt64

/-- A memory range; of a segment only its range is used by the client. -/
structure Region where
  base : Nat
  size : Nat
  deriving DecidableEq, Repr

def Region.Overlaps (first second : Region) : Prop :=
  max first.base second.base < min (first.base + first.size) (second.base + second.size)

instance (first second : Region) : Decidable (first.Overlaps second) :=
  inferInstanceAs (Decidable (_ < _))

/-- The overlap check of `MountSegmentAndGetId`, in the arithmetic of `uintptr_t`. -/
def Region.clashes (first second : Region) : Bool :=
  let r1 := (first.size + first.base) % 2 ^ 64
  let r2 := (second.size + second.base) % 2 ^ 64
  decide (max first.base second.base < min r1 r2)

/-- The return codes of the transfer engine that the client tells apart. -/
inductive EngineCode where
  | ok
  | addressNotRegistered
  | failed
  deriving DecidableEq, Repr

/-- What `registerLocalMemory` returned, and whether the memory is registered after it: it is
after `OK`, and a failed call may leave it so. -/
structure RegisterOutcome where
  code : EngineCode
  registers : Bool
  done : code = .ok → registers = true

/-- What `unregisterLocalMemory` returned, and whether nothing is registered at the address
after it: a failed call leaves the registrations as they are. -/
structure UnregisterOutcome where
  code : EngineCode
  drops : Bool
  kept : code = .failed → drops = false

def RegisterOutcome.success : RegisterOutcome := ⟨.ok, true, fun _ => rfl⟩

def UnregisterOutcome.success : UnregisterOutcome := ⟨.ok, true, nofun⟩

/-- The segment state of a client.  `registered` is the memory that the transfer engine
holds for it; `γ` stands for the callbacks. -/
structure ClientState (γ : Type) where
  mountedSegments : AList fun _ : UUID => Region := ∅
  gracefullyUnmountingSegments : AList fun _ : UUID => Region := ∅
  cleanupCallbacks : AList fun _ : UUID => γ := ∅
  registered : List Region := []

variable {γ : Type}

/-- The segment is mounted or on its way out. -/
def ClientState.holds (state : ClientState γ) (id : UUID) (region : Region) : Prop :=
  state.mountedSegments.lookup id = some region ∨
    state.gracefullyUnmountingSegments.lookup id = some region

def ClientState.Gone (state : ClientState γ) (id : UUID) : Prop :=
  id ∉ state.mountedSegments ∧ id ∉ state.gracefullyUnmountingSegments

/-! ## The transfer engine -/

def ClientState.register (state : ClientState γ) (region : Region) : ClientState γ :=
  { state with registered := state.registered ++ [region] }

def ClientState.unregister (state : ClientState γ) (base : Nat) (outcome : UnregisterOutcome) :
    ClientState γ :=
  if outcome.drops then
    { state with registered := state.registered.filter fun region => region.base ≠ base }
  else state

/-! ## Mounting -/

def checkRegisterMemoryParams (maxMrSize addr length : Nat) : Expected Unit :=
  if addr = 0 then .error .invalidParams
  else if length = 0 then .error .invalidParams
  else if maxMrSize < length then .error .invalidParams
  else .ok ()

/-- What one mount is answered: the outcome of `registerLocalMemory`, the generated id and the
response of the master. -/
structure MountAnswers where
  register : RegisterOutcome
  uuid : UUID
  mountSegment : Expected Unit

def mountSegmentAndGetId (maxMrSize : Nat) (answers : MountAnswers) (state : ClientState γ)
    (buffer size : Nat) : Expected UUID × ClientState γ :=
  match checkRegisterMemoryParams maxMrSize buffer size with
  | .error error => (.error error, state)
  | .ok () =>
    let segment : Region := ⟨buffer, size⟩
    if state.mountedSegments.entries.any fun entry => entry.2.clashes segment then
      (.error .invalidParams, state)
    else
      let state := if answers.register.registers then state.register segment else state
      if answers.register.code ≠ .ok then (.error .invalidParams, state)
      else
        match answers.mountSegment with
        | .error error => (.error error, state)
        | .ok () =>
          (.ok answers.uuid,
            { state with
              mountedSegments := state.mountedSegments.insert answers.uuid segment })

/-! ## Unmounting -/

structure UnmountAnswers where
  unmountSegment : Expected Unit
  gracefulUnmountSegment : Expected Unit
  unregister : UnregisterOutcome

/-- `UnmountSegmentImpl`, for a segment of `mounted_segments_`. -/
def unmountSegmentImpl (answers : UnmountAnswers) (state : ClientState γ) (id : UUID)
    (segment : Region) : Expected Unit × ClientState γ :=
  match answers.unmountSegment with
  | .error error => (.error error, state)
  | .ok () =>
    let state := state.unregister segment.base answers.unregister
    if answers.unregister.code = .failed then (.error .internalError, state)
    else (.ok (), { state with mountedSegments := state.mountedSegments.erase id })

/-- The segment moves to those on their way out, with its callback if there is one. -/
def ClientState.beginGracefulUnmount (state : ClientState γ) (id : UUID) (segment : Region)
    (cleanupCallback : Option γ) : ClientState γ :=
  { state with
    gracefullyUnmountingSegments :=
      if id ∈ state.gracefullyUnmountingSegments then state.gracefullyUnmountingSegments
      else state.gracefullyUnmountingSegments.insert id segment
    cleanupCallbacks := match cleanupCallback with
      | none => state.cleanupCallbacks
      | some callback => state.cleanupCallbacks.insert id callback
    mountedSegments := state.mountedSegments.erase id }

/-- `UnmountSegmentById`.  An accepted graceful unmount starts the timer of the segment. -/
def unmountSegmentById (answers : UnmountAnswers) (state : ClientState γ) (id : UUID)
    (gracePeriodMs : Nat) (cleanupCallback : Option γ) : Expected Unit × ClientState γ :=
  match state.mountedSegments.lookup id with
  | none => (.error .invalidParams, state)
  | some segment =>
    if gracePeriodMs = 0 then unmountSegmentImpl answers state id segment
    else
      match answers.gracefulUnmountSegment with
      | .error error => (.error error, state)
      | .ok () => (.ok (), state.beginGracefulUnmount id segment cleanupCallback)

/-- The second critical section of `OnGracefulUnmountTimer`, once the master has removed the
segment: the callback to run, if there is one. -/
def finishGracefulUnmount (state : ClientState γ) (id : UUID) (unregister : UnregisterOutcome) :
    Option γ × ClientState γ :=
  let state := match state.gracefullyUnmountingSegments.lookup id with
    | none => state
    | some segment =>
      let state := state.unregister segment.base unregister
      { state with
        gracefullyUnmountingSegments := state.gracefullyUnmountingSegments.erase id }
  (state.cleanupCallbacks.lookup id,
    { state with cleanupCallbacks := state.cleanupCallbacks.erase id })

/-! ## What the functions do -/

theorem mem_of_lookup {κ β : Type} [DecidableEq κ] {entries : AList fun _ : κ => β} {key : κ}
    {value : β} (found : entries.lookup key = some value) : key ∈ entries :=
  AList.lookup_isSome.mp (Option.isSome_iff_exists.mpr ⟨value, found⟩)

theorem exists_lookup_of_mem {κ β : Type} [DecidableEq κ] {entries : AList fun _ : κ => β}
    {key : κ} (present : key ∈ entries) : ∃ value, entries.lookup key = some value :=
  Option.isSome_iff_exists.mp (AList.lookup_isSome.mpr present)

/-- The checks of a mount: a range of legal size that clashes with no mounted segment. -/
def ClientState.admits (state : ClientState γ) (maxMrSize : Nat) (region : Region) : Bool :=
  decide (region.base ≠ 0) && decide (region.size ≠ 0) && decide (region.size ≤ maxMrSize) &&
    state.mountedSegments.entries.all fun entry => !entry.2.clashes region

/-- The client after an accepted mount. -/
def ClientState.addMounted (state : ClientState γ) (id : UUID) (region : Region) :
    ClientState γ :=
  { state.register region with mountedSegments := state.mountedSegments.insert id region }

/-- The client after a segment was dropped from those that are mounted. -/
def ClientState.dropMounted (state : ClientState γ) (id : UUID) (registered : List Region) :
    ClientState γ :=
  { state with
    registered := registered
    mountedSegments := state.mountedSegments.erase id }

theorem mountSegmentAndGetId_eq (maxMrSize : Nat) (answers : MountAnswers)
    (state : ClientState γ) (buffer size : Nat) :
    mountSegmentAndGetId maxMrSize answers state buffer size =
      if state.admits maxMrSize ⟨buffer, size⟩ then
        if answers.register.code = .ok then
          match answers.mountSegment with
          | .error error => (.error error, state.register ⟨buffer, size⟩)
          | .ok () => (.ok answers.uuid, state.addMounted answers.uuid ⟨buffer, size⟩)
        else (.error .invalidParams,
          if answers.register.registers then state.register ⟨buffer, size⟩ else state)
      else (.error .invalidParams, state) := by
  unfold mountSegmentAndGetId checkRegisterMemoryParams ClientState.admits
  by_cases null : buffer = 0
  · simp [null]
  by_cases empty : size = 0
  · simp [null, empty]
  by_cases large : maxMrSize < size
  · simp [null, empty, large, not_le.mpr large]
  simp only [null, empty, large, if_false]
  rw [← List.not_any_eq_all_not]
  cases clash : state.mountedSegments.entries.any fun entry => entry.2.clashes ⟨buffer, size⟩ with
  | true => simp
  | false =>
    by_cases registered : answers.register.code = .ok
    · simp [null, empty, not_lt.mp large, registered, answers.register.done registered,
        ClientState.addMounted, ClientState.register]
    · simp [null, empty, not_lt.mp large, registered]

theorem unmountSegmentImpl_cases (answers : UnmountAnswers) (state : ClientState γ) (id : UUID)
    (segment : Region) :
    (∃ error, unmountSegmentImpl answers state id segment = (.error error, state)) ∨
      (answers.unmountSegment = .ok () ∧ answers.unregister.code ≠ .failed ∧
        unmountSegmentImpl answers state id segment =
          (.ok (), state.dropMounted id
            (state.unregister segment.base answers.unregister).registered)) := by
  unfold unmountSegmentImpl
  cases answers.unmountSegment with
  | error error => exact .inl ⟨error, rfl⟩
  | ok =>
    by_cases failed : answers.unregister.code = .failed
    · exact .inl ⟨.internalError,
        by simp [ClientState.unregister, failed, answers.unregister.kept failed]⟩
    · refine .inr ⟨rfl, failed, ?_⟩
      cases drops : answers.unregister.drops <;>
        simp [ClientState.unregister, ClientState.dropMounted, failed, drops]

theorem mem_beginGracefulUnmount {state : ClientState γ} {id other : UUID} {segment : Region}
    {cleanupCallback : Option γ} :
    other ∈ (state.beginGracefulUnmount id segment cleanupCallback).gracefullyUnmountingSegments ↔
      other = id ∨ other ∈ state.gracefullyUnmountingSegments := by
  simp only [ClientState.beginGracefulUnmount]
  split
  · rename_i present
    constructor
    · exact .inr
    · rintro (rfl | held)
      · exact present
      · exact held
  · exact AList.mem_insert _

theorem lookup_beginGracefulUnmount {state : ClientState γ} {id other : UUID} {segment : Region}
    {cleanupCallback : Option γ} {callback : γ}
    (found : (state.beginGracefulUnmount id segment cleanupCallback).cleanupCallbacks.lookup other =
      some callback) :
    (other = id ∧ cleanupCallback = some callback) ∨
      state.cleanupCallbacks.lookup other = some callback := by
  simp only [ClientState.beginGracefulUnmount] at found
  split at found
  · exact .inr found
  · rename_i given
    by_cases same : other = id
    · subst same
      rw [AList.lookup_insert] at found
      exact .inl ⟨rfl, found⟩
    · rw [AList.lookup_insert_ne same] at found
      exact .inr found

theorem erase_of_not_mem {β : Type} {entries : AList fun _ : UUID => β} {id : UUID}
    (absent : id ∉ entries) : entries.erase id = entries :=
  AList.ext (List.kerase_of_notMem_keys absent)

def ClientState.registeredAfter (state : ClientState γ) (id : UUID)
    (unregister : UnregisterOutcome) : List Region :=
  match state.gracefullyUnmountingSegments.lookup id with
  | none => state.registered
  | some segment => (state.unregister segment.base unregister).registered

theorem finishGracefulUnmount_eq (state : ClientState γ) (id : UUID)
    (unregister : UnregisterOutcome) :
    finishGracefulUnmount state id unregister =
      (state.cleanupCallbacks.lookup id,
        { state with
          gracefullyUnmountingSegments := state.gracefullyUnmountingSegments.erase id
          cleanupCallbacks := state.cleanupCallbacks.erase id
          registered := state.registeredAfter id unregister }) := by
  unfold finishGracefulUnmount ClientState.registeredAfter
  cases located : state.gracefullyUnmountingSegments.lookup id with
  | none => rw [erase_of_not_mem (AList.lookup_eq_none.mp located)]
  | some segment =>
    cases drops : unregister.drops <;> simp [ClientState.unregister, drops]

end Mooncake.Segment
