import Mathlib.Data.List.Perm.Basic
import Mooncake.Segment.Graceful

/-!
# Cleanup callbacks run once

The invariant of graceful unmount: a segment is never mounted and on its way out at the
same time, and a callback is stored, taken by one task or has run.  It holds in every
state of every run, the destructor included.
-/

namespace Mooncake.Segment

open Library.Runs List

variable {γ : Type}

/-! ## The invariant -/

def isCleanup (id : UUID) : SegmentEvent γ → Bool
  | .cleanup other _ _ => other = id
  | _ => false

/-- A graceful unmount of the segment was accepted with a callback. -/
def acceptsCallback (id : UUID) : SegmentEvent γ → Bool
  | .accepted other (some _) => other = id
  | _ => false

variable {id : UUID} {index : Nat} {task : TimerTask γ} {system next : System γ}
  {events : List (SegmentEvent γ)}

variable {event : SegmentEvent γ} {tasks : List (TimerTask γ)}
  {before after : List (SegmentEvent γ)}

theorem acceptsCallback_iff :
    acceptsCallback id event = true ↔ ∃ callback, event = .accepted id (some callback) := by
  constructor
  · intro accepts
    cases event with
    | accepted other callback =>
      cases callback with
      | none => cases accepts
      | some callback => exact ⟨callback, by rw [of_decide_eq_true accepts]⟩
    | _ => cases accepts
  · rintro ⟨callback, rfl⟩
    exact decide_eq_true rfl

def isCalling (id : UUID) : TimerTask γ → Bool
  | .calling other _ => other = id
  | _ => false

structure Orderly (system : System γ) : Prop where
  separate : ∀ id ∈ system.client.mountedSegments,
    id ∉ system.client.gracefullyUnmountingSegments
  known : ∀ id, ¬ system.client.Gone id → .mounted id ∈ system.trace
  pending : ∀ id ∈ system.client.cleanupCallbacks,
    id ∈ system.client.gracefullyUnmountingSegments
  unaccepted : ∀ id ∈ system.client.mountedSegments, ∀ callback,
    .accepted id callback ∉ system.trace
  started : ∀ id callback, .accepted id callback ∈ system.trace → .mounted id ∈ system.trace
  stored : ∀ id callback, system.client.cleanupCallbacks.lookup id = some callback →
    .accepted id (some callback) ∈ system.trace
  taken : ∀ id callback, .calling id callback ∈ system.tasks →
    system.client.Gone id ∧ .unregisterLocalMemory id ∈ system.trace ∧
      .accepted id (some callback) ∈ system.trace
  balance : ∀ id, system.trace.countP (isCleanup id) + system.tasks.countP (isCalling id) +
    (if id ∈ system.client.cleanupCallbacks then 1 else 0) =
      system.trace.countP (acceptsCallback id)
  single : ∀ id, system.trace.countP (acceptsCallback id) ≤ 1
  cleaned : ∀ before id callback client after,
    system.trace = before ++ .cleanup id callback client :: after →
    client.Gone id ∧ .unregisterLocalMemory id ∈ before ∧
      .accepted id (some callback) ∈ before
  ended : system.phase = .destroyed → system.tasks = [] ∧ system.client.cleanupCallbacks = ∅

theorem orderly_start : Orderly ({} : System γ) where
  separate := by simp
  known := by simp [ClientState.Gone]
  pending := by simp
  unaccepted := by simp
  started := by simp
  stored := by simp
  taken := by simp
  balance := by simp
  single := by simp
  cleaned := by simp
  ended := by simp

/-! ## Lists of tasks and events -/

theorem countP_advance (found : tasks[index]? = some task) (test : TimerTask γ → Bool)
    (next : List (TimerTask γ)) :
    (tasks.eraseIdx index ++ next).countP test + (if test task then 1 else 0) =
      tasks.countP test + next.countP test := by
  obtain ⟨inside, rfl⟩ := List.getElem?_eq_some_iff.mp found
  have split := (getElem_cons_eraseIdx_perm inside).countP_eq test
  rw [countP_cons] at split
  rw [countP_append]
  omega

theorem mem_advance {next : List (TimerTask γ)} (present : task ∈ tasks.eraseIdx index ++ next) :
    task ∈ tasks ∨ task ∈ next := by
  rcases mem_append.mp present with old | new
  · exact .inl (mem_of_mem_eraseIdx old)
  · exact .inr new

theorem cleaned_append {trace new : List (SegmentEvent γ)}
    (split : trace ++ new = before ++ event :: after) :
    (∃ rest, trace = before ++ event :: rest) ∨
      ∃ front, before = trace ++ front ∧ new = front ++ event :: after := by
  rcases append_eq_append_iff.mp split with ⟨front, first, second⟩ | ⟨rest, first, second⟩
  · exact .inr ⟨front, first, second⟩
  · cases rest with
    | nil => exact .inr ⟨[], by simpa using first.symm, by simpa using second.symm⟩
    | cons other rest =>
      obtain ⟨rfl, -⟩ := List.cons.inj second
      exact .inl ⟨rest, first⟩

/-! ## Steps that accept no unmount -/

/-- A step that mounts nothing and accepts no graceful unmount: segments and callbacks only
go, a callback that goes is taken by a task or runs, and it does so once the segment is
gone and an unregistration was attempted. -/
structure Shrinks (system next : System γ) (events : List (SegmentEvent γ)) : Prop where
  mounted : ∀ id ∈ next.client.mountedSegments, id ∈ system.client.mountedSegments
  unmounting : ∀ id ∈ next.client.gracefullyUnmountingSegments,
    id ∈ system.client.gracefullyUnmountingSegments
  callbacks : ∀ id callback, next.client.cleanupCallbacks.lookup id = some callback →
    system.client.cleanupCallbacks.lookup id = some callback ∧
      id ∈ next.client.gracefullyUnmountingSegments
  trace : next.trace = system.trace ++ events
  unaccepting : ∀ id callback, .accepted id callback ∉ events
  calling : ∀ id callback, .calling id callback ∈ next.tasks →
    .calling id callback ∈ system.tasks ∨
      (next.client.Gone id ∧ .unregisterLocalMemory id ∈ events ∧
        .accepted id (some callback) ∈ system.trace)
  cleaned : ∀ before id callback client after,
    events = before ++ .cleanup id callback client :: after →
    client.Gone id ∧ .unregisterLocalMemory id ∈ system.trace ++ before ∧
      .accepted id (some callback) ∈ system.trace
  balance : ∀ id, events.countP (isCleanup id) + next.tasks.countP (isCalling id) +
    (if id ∈ next.client.cleanupCallbacks then 1 else 0) =
      system.tasks.countP (isCalling id) + if id ∈ system.client.cleanupCallbacks then 1 else 0
  ended : next.phase = .destroyed → next.tasks = [] ∧ next.client.cleanupCallbacks = ∅

theorem Shrinks.gone (shrinks : Shrinks system next events) (gone : system.client.Gone id) :
    next.client.Gone id :=
  ⟨fun held => gone.1 (shrinks.mounted id held), fun held => gone.2 (shrinks.unmounting id held)⟩

theorem Shrinks.accepted_mem (shrinks : Shrinks system next events) {callback : Option γ} :
    .accepted id callback ∈ next.trace ↔ .accepted id callback ∈ system.trace := by
  rw [shrinks.trace, mem_append]
  exact or_iff_left (shrinks.unaccepting id callback)

theorem Shrinks.accepts_eq (shrinks : Shrinks system next events) (id : UUID) :
    next.trace.countP (acceptsCallback id) = system.trace.countP (acceptsCallback id) := by
  have none : events.countP (acceptsCallback id) = 0 := by
    refine countP_eq_zero.mpr fun event present accepts => ?_
    obtain ⟨callback, rfl⟩ := acceptsCallback_iff.mp accepts
    exact shrinks.unaccepting id (some callback) present
  rw [shrinks.trace, countP_append, none, Nat.add_zero]

theorem Orderly.shrink (orderly : Orderly system) (shrinks : Shrinks system next events) :
    Orderly next where
  separate := fun id held moved =>
    orderly.separate id (shrinks.mounted id held) (shrinks.unmounting id moved)
  known := by
    intro id held
    rw [shrinks.trace]
    exact mem_append_left _ (orderly.known id fun gone => held (shrinks.gone gone))
  pending := by
    intro id held
    obtain ⟨callback, found⟩ := exists_lookup_of_mem held
    exact (shrinks.callbacks id callback found).2
  unaccepted := by
    intro id held callback accepted
    exact orderly.unaccepted id (shrinks.mounted id held) callback
      (shrinks.accepted_mem.mp accepted)
  started := by
    intro id callback accepted
    rw [shrinks.trace]
    exact mem_append_left _ (orderly.started id callback (shrinks.accepted_mem.mp accepted))
  stored := by
    intro id callback found
    exact shrinks.accepted_mem.mpr
      (orderly.stored id callback (shrinks.callbacks id callback found).1)
  taken := by
    intro id callback present
    rcases shrinks.calling id callback present with old | ⟨gone, unregistered, accepted⟩
    · obtain ⟨gone, unregistered, accepted⟩ := orderly.taken id callback old
      rw [shrinks.trace]
      exact ⟨shrinks.gone gone, mem_append_left _ unregistered,
        mem_append_left _ accepted⟩
    · rw [shrinks.trace]
      exact ⟨gone, mem_append_right _ unregistered, mem_append_left _ accepted⟩
  balance := by
    intro id
    have before := orderly.balance id
    have moved := shrinks.balance id
    rw [shrinks.accepts_eq, shrinks.trace, countP_append]
    omega
  single := by
    intro id
    rw [shrinks.accepts_eq]
    exact orderly.single id
  cleaned := by
    intro before id callback client after split
    rw [shrinks.trace] at split
    rcases cleaned_append split with ⟨rest, old⟩ | ⟨front, rfl, new⟩
    · exact orderly.cleaned before id callback client rest old
    · obtain ⟨gone, unregistered, accepted⟩ := shrinks.cleaned front id callback client after new
      exact ⟨gone, unregistered, mem_append_left _ accepted⟩
  ended := shrinks.ended

/-- Events that are neither an acceptance nor a cleanup. -/
def SegmentEvent.plain : SegmentEvent γ → Bool
  | .mounted _ => true
  | .unregisterLocalMemory _ => true
  | _ => false

theorem countP_plain (plain : ∀ event ∈ events, event.plain = true) (id : UUID) :
    events.countP (isCleanup id) = 0 ∧ events.countP (acceptsCallback id) = 0 := by
  constructor <;>
  · refine countP_eq_zero.mpr fun event present => ?_
    have checked := plain event present
    cases event <;> simp_all [SegmentEvent.plain, isCleanup, acceptsCallback]

theorem cleanup_not_mem_plain {callback : γ} {client : ClientState γ}
    (plain : ∀ event ∈ events, event.plain = true) :
    events ≠ before ++ .cleanup id callback client :: after := by
  intro split
  have checked := plain (.cleanup id callback client) (by rw [split]; simp)
  cases checked

theorem accepted_not_mem_plain (plain : ∀ event ∈ events, event.plain = true) (id : UUID)
    (callback : Option γ) :
    .accepted id callback ∉ events := by
  intro present
  have checked := plain _ present
  cases checked

theorem Shrinks.of_plain
    (mounted : ∀ id ∈ next.client.mountedSegments, id ∈ system.client.mountedSegments)
    (unmounting : ∀ id ∈ next.client.gracefullyUnmountingSegments,
      id ∈ system.client.gracefullyUnmountingSegments)
    (callbacks : next.client.cleanupCallbacks = system.client.cleanupCallbacks)
    (kept : ∀ id ∈ system.client.cleanupCallbacks, id ∈ next.client.gracefullyUnmountingSegments)
    (trace : next.trace = system.trace ++ events) (plain : ∀ event ∈ events, event.plain = true)
    (counted : ∀ id, next.tasks.countP (isCalling id) = system.tasks.countP (isCalling id))
    (calling : ∀ id callback, .calling id callback ∈ next.tasks →
      .calling id callback ∈ system.tasks)
    (running : next.phase ≠ .destroyed) : Shrinks system next events where
  mounted := mounted
  unmounting := unmounting
  callbacks := by
    intro id callback found
    rw [callbacks] at found
    exact ⟨found, kept id (mem_of_lookup found)⟩
  trace := trace
  unaccepting := accepted_not_mem_plain plain
  calling := fun id callback present => .inl (calling id callback present)
  cleaned := fun _ _ _ _ _ split => absurd split (cleanup_not_mem_plain plain)
  balance := by
    intro id
    rw [(countP_plain plain id).1, counted, callbacks, Nat.zero_add]
  ended := fun destroyed => absurd destroyed running

section Step

variable (orderly : Orderly system)

include orderly

/-- A task that holds no callback is replaced by others that hold none. -/
theorem Orderly.shrinks_advance (found : system.tasks[index]? = some task)
    {next : List (TimerTask γ)} (idle : ∀ id, isCalling id task = false)
    (others : ∀ other ∈ next, ∀ id, isCalling id other = false)
    (running : system.phase ≠ .destroyed) :
    ∃ events, Shrinks system (system.advance index next) events := by
  refine ⟨[], .of_plain (fun _ held => held) (fun _ held => held) rfl orderly.pending
    (append_nil _).symm (by simp) (fun id => ?_) (fun id callback present => ?_) running⟩
  · have counted := countP_advance found (isCalling id) next
    have none : next.countP (isCalling id) = 0 :=
      countP_eq_zero.mpr fun other present => by simp [others other present id]
    simp only [idle id, none, Bool.false_eq_true, if_false] at counted
    exact counted
  · rcases mem_advance present with old | new
    · exact old
    · have moved := others _ new id
      simp [isCalling] at moved

theorem Orderly.running (found : system.tasks[index]? = some task) :
    system.phase ≠ .destroyed := by
  intro destroyed
  rw [(orderly.ended destroyed).1] at found
  cases found

theorem Orderly.shrinks_fire (fired : system.fire index = some next) :
    ∃ events, Shrinks system next events := by
  unfold System.fire at fired
  split at fired
  · rename_i id retryLeft found
    have running := orderly.running found
    split at fired <;>
    · cases fired
      exact orderly.shrinks_advance found (fun _ => rfl) (by simp [isCalling]) running
  · cases fired

theorem Orderly.shrinks_drop (dropped : system.drop index = some next) :
    ∃ events, Shrinks system next events := by
  unfold System.drop at dropped
  split at dropped
  · rename_i found
    split at dropped
    · cases dropped
      exact orderly.shrinks_advance found (fun _ => rfl) (by simp) (orderly.running found)
    · cases dropped
  · cases dropped

theorem Orderly.shrinks_query {status : Expected SegmentStatus} {enqueued : Bool}
    (queried : system.query index status enqueued = some next) :
    ∃ events, Shrinks system next events := by
  unfold System.query at queried
  split at queried
  · rename_i id retryLeft found
    have running := orderly.running found
    split at queried
    · cases queried
      exact orderly.shrinks_advance found (fun _ => rfl) (by simp [isCalling]) running
    · split at queried <;>
      · cases queried
        exact orderly.shrinks_advance found (fun _ => rfl) (by simp [isCalling]) running
  · cases queried

/-! ## The end of a graceful unmount -/

omit orderly in
theorem countP_taken (callbacks : AList fun _ : UUID => γ) (id other : UUID) :
    ((callbacks.lookup id).map fun callback => TimerTask.calling id callback).toList.countP
        (isCalling other) + (if other ∈ callbacks.erase id then 1 else 0) =
      if other ∈ callbacks then 1 else 0 := by
  by_cases same : other = id
  · subst same
    cases stored : callbacks.lookup other with
    | none =>
      have absent := AList.lookup_eq_none.mp stored
      simp [absent]
    | some callback =>
      have present : other ∈ callbacks := mem_of_lookup stored
      simp [present, isCalling]
  · have different : id ≠ other := Ne.symm same
    by_cases present : other ∈ callbacks <;>
    cases callbacks.lookup id <;>
    simp [present, same, different, isCalling]

/-- The callback is taken with the segment: from then on the task holds it. -/
theorem Orderly.shrinks_finish {unregister : UnregisterOutcome}
    (finished : system.finish index unregister = some next) :
    ∃ events, Shrinks system next events := by
  unfold System.finish at finished
  split at finished
  swap
  · cases finished
  rename_i id found
  have running := orderly.running found
  rw [finishGracefulUnmount_eq] at finished
  cases finished
  refine ⟨_,
    { mounted := fun _ held => held
      unmounting := fun _ held => (AList.mem_erase.mp held).2
      callbacks := ?_
      trace := rfl
      unaccepting := by intro other callback; split <;> simp
      calling := ?_
      cleaned := ?_
      balance := ?_
      ended := fun destroyed => absurd destroyed running }⟩
  · intro other callback stored
    have held : other ∈ system.client.cleanupCallbacks.erase id := mem_of_lookup stored
    obtain ⟨different, present⟩ := AList.mem_erase.mp held
    rw [AList.lookup_erase_ne different] at stored
    exact ⟨stored, AList.mem_erase.mpr ⟨different, orderly.pending other present⟩⟩
  · intro other callback calling
    refine (mem_advance calling).imp_right fun new => ?_
    cases stored : system.client.cleanupCallbacks.lookup id with
    | none => simp [stored] at new
    | some held =>
      rw [stored] at new
      cases mem_singleton.mp new
      have present := orderly.pending id (mem_of_lookup stored)
      refine ⟨⟨fun held => orderly.separate id held present, fun held => ?_⟩, ?_, ?_⟩
      · exact (AList.mem_erase.mp held).1 rfl
      · simp [present]
      · exact orderly.stored id _ stored
  · intro before other callback client after split
    split at split
    · exact absurd split (cleanup_not_mem_plain (by simp [SegmentEvent.plain]))
    · simp at split
  · intro other
    have counted := countP_advance found (isCalling other)
      ((system.client.cleanupCallbacks.lookup id).map fun callback => .calling id callback).toList
    have plain : (if id ∈ system.client.gracefullyUnmountingSegments then
        [SegmentEvent.unregisterLocalMemory (γ := γ) id] else []).countP (isCleanup other) = 0 := by
      split <;> simp [isCleanup]
    have taken := countP_taken system.client.cleanupCallbacks id other
    simp only [isCalling, Bool.false_eq_true, if_false] at counted
    simp only [plain]
    omega

theorem Orderly.shrinks_call (called : system.call index = some next) :
    ∃ events, Shrinks system next events := by
  unfold System.call at called
  split at called
  swap
  · cases called
  rename_i id callback found
  cases called
  have running := orderly.running found
  have held := orderly.taken id callback (mem_of_getElem? found)
  refine ⟨_,
    { mounted := fun _ held => held
      unmounting := fun _ held => held
      callbacks := fun other stored located => ⟨located, orderly.pending other ?_⟩
      trace := rfl
      unaccepting := by simp
      calling := fun _ _ present => .inl (mem_of_mem_eraseIdx present)
      cleaned := ?_
      balance := ?_
      ended := fun destroyed => absurd destroyed running }⟩
  · exact mem_of_lookup located
  · intro before other stored client after split
    cases before with
    | nil =>
      cases split
      rw [append_nil]
      exact held
    | cons first rest => simp at split
  · intro other
    have counted := countP_advance found (isCalling other) []
    rw [append_nil, countP_nil, Nat.add_zero] at counted
    rw [← counted, countP_singleton, Nat.add_comm (List.countP _ _)]
    rfl

end Step

/-! ## The destructor -/

theorem unmountSegment_callbacks (answers : UnmountAnswers) (state : ClientState γ)
    (buffer size : Nat) :
    (unmountSegment answers state buffer size).2.cleanupCallbacks = state.cleanupCallbacks := by
  unfold unmountSegment
  split
  · rfl
  · rename_i entry located
    rcases unmountSegmentImpl_cases answers state entry.1 entry.2 with
      ⟨error, kept⟩ | ⟨-, working, erased⟩
    · rw [kept]
    · rw [erased]
      rfl

theorem destroyMounted_callbacks (unmounts : Nat → UnmountAnswers) (state : ClientState γ)
    (copies : List Region) :
    (destroyMounted unmounts state copies).cleanupCallbacks = state.cleanupCallbacks := by
  refine List.foldlRecOn copies.zipIdx _ (motive := fun reached : ClientState γ =>
    reached.cleanupCallbacks = state.cleanupCallbacks) rfl fun reached kept copy _ => ?_
  rw [unmountSegment_callbacks, kept]

theorem destroyUnmounting_callbacks (unregisters : Nat → UnregisterOutcome) (state : ClientState γ)
    (copies : List Region) :
    (destroyUnmounting unregisters state copies).cleanupCallbacks = state.cleanupCallbacks := by
  refine List.foldlRecOn copies.zipIdx _ (motive := fun reached : ClientState γ =>
    reached.cleanupCallbacks = state.cleanupCallbacks) rfl fun reached kept copy _ => ?_
  unfold ClientState.unregister
  split <;> exact kept

theorem countP_callbacks (callbacks : AList fun _ : UUID => γ) (client : ClientState γ)
    (id : UUID) :
    (callbacks.entries.map fun entry => SegmentEvent.cleanup entry.1 entry.2 client).countP
        (isCleanup id) = if id ∈ callbacks then 1 else 0 := by
  calc _ = callbacks.keys.count id := by
        rw [countP_map, AList.keys, List.keys, List.count, countP_map]
        refine countP_congr fun entry _ => ?_
        simp [isCleanup]
    _ = if id ∈ callbacks.keys then 1 else 0 := callbacks.nodupKeys.count
    _ = _ := if_congr AList.mem_keys.symm rfl rfl

theorem Orderly.shrinks_destroy (orderly : Orderly system) {unmounts : Nat → UnmountAnswers}
    {unregisters : Nat → UnregisterOutcome}
    (destroyed : system.destroy unmounts unregisters = some next) :
    ∃ events, Shrinks system next events := by
  unfold System.destroy at destroyed
  split at destroyed
  · cases destroyed
  rename_i stopped
  have idle : system.tasks = [] := not_not.mp (not_or.mp stopped).2
  cases destroyed
  have plain : ∀ event ∈ system.client.gracefullyUnmountingSegments.entries.map
      fun entry => SegmentEvent.unregisterLocalMemory (γ := γ) entry.1, event.plain = true := by
    intro event present
    obtain ⟨entry, -, rfl⟩ := mem_map.mp present
    rfl
  refine ⟨_,
    { mounted := by simp
      unmounting := by simp
      callbacks := ?_
      trace := append_assoc _ _ _
      unaccepting := ?_
      calling := by simp
      cleaned := ?_
      balance := ?_
      ended := ?_ }⟩
  · simp [destroyUnmounting_callbacks, destroyMounted_callbacks]
  · simp
  · intro before id callback client after split
    rcases cleaned_append split with ⟨rest, old⟩ | ⟨front, rfl, new⟩
    · exact absurd old (cleanup_not_mem_plain plain)
    · have present : SegmentEvent.cleanup id callback client ∈ front ++ _ :: after :=
        mem_append_right _ mem_cons_self
      rw [← new] at present
      obtain ⟨entry, inside, same⟩ := mem_map.mp present
      cases same
      have stored : system.client.cleanupCallbacks.lookup entry.1 = some entry.2 :=
        AList.mem_lookup_iff.mpr inside
      have moving := orderly.pending entry.1 (mem_of_lookup stored)
      refine ⟨⟨AList.notMem_empty _, AList.notMem_empty _⟩, ?_, orderly.stored _ _ stored⟩
      obtain ⟨segment, held⟩ := mem_keys.mp (AList.mem_keys.mp moving)
      refine mem_append_right _ (mem_append_left _ ?_)
      exact mem_map.mpr ⟨_, held, rfl⟩
  · intro id
    simp only [countP_append, (countP_plain plain id).1, countP_callbacks, idle,
      destroyUnmounting_callbacks, destroyMounted_callbacks, AList.notMem_empty, if_false,
      countP_nil, Nat.zero_add, Nat.add_zero]
  · intro _
    exact ⟨rfl, by simp [destroyUnmounting_callbacks, destroyMounted_callbacks]⟩

end Mooncake.Segment
