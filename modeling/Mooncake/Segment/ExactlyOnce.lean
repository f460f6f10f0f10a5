import Mooncake.Segment.Cleanup

/-!
# Cleanup exactly once

A mount adds a segment under a fresh id and an accepted graceful unmount moves it; every
other step shrinks the state.  So the invariant holds along every run, a segment that is
gone stays gone, and by the end of the destructor every accepted callback has run once.
-/

namespace Mooncake.Segment

open Library.Runs List

variable {γ : Type}

/-! ## Mounts and accepted unmounts -/

def System.mounting (system : System γ) (id : UUID) (segment : Region) : System γ :=
  { system with
    client := system.client.addMounted id segment
    trace := system.trace ++ [.mounted id] }

def System.accepting (system : System γ) (id : UUID) (segment : Region)
    (cleanupCallback : Option γ) : System γ :=
  { system with
    client := system.client.beginGracefulUnmount id segment cleanupCallback
    tasks := system.tasks ++ [.waiting id 3]
    trace := system.trace ++ [.accepted id cleanupCallback] }

variable {system next : System γ} {id : UUID} {action : Action γ}

theorem Orderly.mounting (orderly : Orderly system) (segment : Region)
    (alive : system.phase = .alive) (fresh : .mounted id ∉ system.trace) :
    Orderly (system.mounting id segment) := by
  have gone : system.client.Gone id := by
    by_contra held
    exact fresh (orderly.known _ held)
  have unaccepted : ∀ callback, .accepted id callback ∉ system.trace :=
    fun callback accepted => fresh (orderly.started _ callback accepted)
  have plain : ∀ event ∈ [SegmentEvent.mounted (γ := γ) id], event.plain = true := by
    simp [SegmentEvent.plain]
  have accepted_old : ∀ {other callback},
      .accepted other callback ∈ (system.mounting id segment).trace →
      .accepted other callback ∈ system.trace := by
    intro other callback accepted
    exact (mem_append.mp accepted).resolve_right (accepted_not_mem_plain plain other callback)
  refine
    { separate := ?_, known := ?_, pending := orderly.pending, unaccepted := ?_,
      started := ?_, stored := ?_, taken := ?_, balance := ?_, single := ?_,
      cleaned := ?_, ended := by simp [System.mounting, alive] }
  · intro other present
    rcases (AList.mem_insert _).mp present with rfl | old
    · exact gone.2
    · exact orderly.separate other old
  · intro other held
    by_cases same : other = id
    · simp [System.mounting, same]
    · refine mem_append_left _ (orderly.known other fun absent => held ⟨?_, absent.2⟩)
      exact fun present => ((AList.mem_insert _).mp present).elim same absent.1
  · intro other present callback accepted
    rcases (AList.mem_insert _).mp present with rfl | old
    · exact unaccepted callback (accepted_old accepted)
    · exact orderly.unaccepted other old callback (accepted_old accepted)
  · intro other callback accepted
    exact mem_append_left _ (orderly.started other callback (accepted_old accepted))
  · intro other callback found
    exact mem_append_left _ (orderly.stored other callback found)
  · intro other callback present
    obtain ⟨absent, unregistered, accepted⟩ := orderly.taken other callback present
    have different : other ≠ id := fun same => unaccepted _ (same ▸ accepted)
    refine ⟨⟨fun held => ?_, absent.2⟩, mem_append_left _ unregistered,
      mem_append_left _ accepted⟩
    exact ((AList.mem_insert _).mp held).elim different absent.1
  · intro other
    obtain ⟨none, zero⟩ := countP_plain plain other
    simp only [System.mounting, countP_append, none, zero]
    exact orderly.balance other
  · intro other
    simp only [System.mounting, countP_append, (countP_plain plain other).2]
    exact orderly.single other
  · intro before other callback client after split
    rcases cleaned_append split with ⟨rest, old⟩ | ⟨front, -, new⟩
    · exact orderly.cleaned before other callback client rest old
    · exact absurd new (cleanup_not_mem_plain plain)

variable {segment : Region} {cleanupCallback : Option γ} {start final : System γ}
  {actions : List (Action γ)}

theorem gone_beginGracefulUnmount {client : ClientState γ} {other : UUID}
    (present : id ∈ client.mountedSegments) (gone : client.Gone other) :
    (client.beginGracefulUnmount id segment cleanupCallback).Gone other := by
  refine ⟨fun mounted => gone.1 (AList.mem_erase.mp mounted).2, fun moved => ?_⟩
  rcases mem_beginGracefulUnmount.mp moved with rfl | held
  · exact gone.1 present
  · exact gone.2 held

/-- The accepted callback is counted once, as one that waits. -/
theorem Orderly.accepting_balance (orderly : Orderly system)
    (absent : id ∉ system.client.cleanupCallbacks) (other : UUID) :
    let accepting := system.accepting id segment cleanupCallback
    accepting.trace.countP (isCleanup other) + accepting.tasks.countP (isCalling other) +
        (if other ∈ accepting.client.cleanupCallbacks then 1 else 0) =
      accepting.trace.countP (acceptsCallback other) := by
  have before := orderly.balance other
  cases cleanupCallback with
  | none =>
    by_cases held : other ∈ system.client.cleanupCallbacks <;>
    simpa [System.accepting, ClientState.beginGracefulUnmount, isCleanup, acceptsCallback,
      isCalling, held] using before
  | some callback =>
    by_cases same : other = id
    · subst same
      simp only [absent, if_false] at before
      simp [System.accepting, ClientState.beginGracefulUnmount, isCleanup, acceptsCallback,
        isCalling]
      omega
    · have different : id ≠ other := Ne.symm same
      by_cases held : other ∈ system.client.cleanupCallbacks <;>
      simpa [System.accepting, ClientState.beginGracefulUnmount, isCleanup, acceptsCallback,
        isCalling, same, different, held] using before

theorem Orderly.accepting (orderly : Orderly system) (cleanupCallback : Option γ)
    (alive : system.phase = .alive)
    (found : system.client.mountedSegments.lookup id = some segment) :
    Orderly (system.accepting id segment cleanupCallback) := by
  have present : id ∈ system.client.mountedSegments := mem_of_lookup found
  have fresh := orderly.unaccepted id present
  have absent : id ∉ system.client.cleanupCallbacks :=
    fun held => orderly.separate id present (orderly.pending id held)
  have uncounted : system.trace.countP (acceptsCallback id) = 0 := by
    refine countP_eq_zero.mpr fun event inside accepts => ?_
    obtain ⟨callback, rfl⟩ := acceptsCallback_iff.mp accepts
    exact fresh (some callback) inside
  refine
    { separate := ?_, known := ?_, pending := ?_, unaccepted := ?_, started := ?_, stored := ?_,
      taken := ?_, balance := ?_, single := ?_, cleaned := ?_,
      ended := by simp [System.accepting, alive] }
  · intro other held moved
    obtain ⟨different, mounted⟩ := AList.mem_erase.mp held
    exact (mem_beginGracefulUnmount.mp moved).elim different (orderly.separate other mounted)
  · intro other held
    refine mem_append_left _ (orderly.known other fun gone => held ?_)
    exact gone_beginGracefulUnmount present gone
  · intro other held
    obtain ⟨callback, located⟩ := exists_lookup_of_mem held
    refine mem_beginGracefulUnmount.mpr ?_
    rcases lookup_beginGracefulUnmount located with ⟨same, -⟩ | old
    · exact .inl same
    · exact .inr (orderly.pending other (mem_of_lookup old))
  · intro other held callback accepted
    obtain ⟨different, mounted⟩ := AList.mem_erase.mp held
    rcases mem_append.mp accepted with old | new
    · exact orderly.unaccepted other mounted callback old
    · cases mem_singleton.mp new
      exact different rfl
  · intro other callback accepted
    refine mem_append_left _ ?_
    rcases mem_append.mp accepted with old | new
    · exact orderly.started other callback old
    · cases mem_singleton.mp new
      exact orderly.known id fun gone => gone.1 present
  · intro other callback located
    rcases lookup_beginGracefulUnmount located with ⟨rfl, rfl⟩ | old
    · simp [System.accepting]
    · exact mem_append_left _ (orderly.stored other callback old)
  · intro other callback calling
    have old : .calling other callback ∈ system.tasks := by
      simpa [System.accepting] using calling
    obtain ⟨gone, unregistered, accepted⟩ := orderly.taken other callback old
    exact ⟨gone_beginGracefulUnmount present gone, mem_append_left _ unregistered,
      mem_append_left _ accepted⟩
  · exact orderly.accepting_balance absent
  · intro other
    have before := orderly.single other
    simp only [System.accepting, countP_append]
    by_cases same : other = id
    · subst same
      rw [uncounted, Nat.zero_add]
      exact countP_le_length
    · have different : id ≠ other := Ne.symm same
      cases cleanupCallback <;> simpa [acceptsCallback, different] using before
  · intro before other callback client after split
    rcases cleaned_append split with ⟨rest, old⟩ | ⟨front, -, new⟩
    · exact orderly.cleaned before other callback client rest old
    · cases front with
      | nil => cases new
      | cons first rest => simp at new

/-! ## Steps -/

theorem used_iff :
    system.used id = true ↔ .mounted id ∈ system.trace := by
  unfold System.used
  rw [any_eq_true]
  constructor
  · rintro ⟨event, present, same⟩
    split at same
    · rw [← of_decide_eq_true same]
      exact present
    · cases same
  · intro present
    exact ⟨_, present, by simp⟩

/-- A mount leaves the segments alone, or adds one under a fresh id. -/
theorem System.mount_cases {maxMrSize : Nat} {answers : MountAnswers} {buffer size : Nat}
    (done : system.mount maxMrSize answers buffer size = some next) :
    system.phase = .alive ∧ .mounted answers.uuid ∉ system.trace ∧
      ((∃ registered, next = { system with client :=
          { system.client with registered := registered } }) ∨
        next = system.mounting answers.uuid ⟨buffer, size⟩) := by
  unfold System.mount at done
  split at done
  · cases done
  rename_i allowed
  obtain ⟨alive, fresh⟩ := not_or.mp allowed
  rw [used_iff] at fresh
  refine ⟨not_not.mp alive, fresh, ?_⟩
  rw [mountSegmentAndGetId_eq] at done
  by_cases admitted : system.client.admits maxMrSize ⟨buffer, size⟩ = true
  · by_cases registered : answers.register.code = .ok
    · rw [if_pos admitted, if_pos registered] at done
      cases accepted : answers.mountSegment with
      | error error =>
        simp only [accepted, append_nil, Option.some.injEq] at done
        exact .inl ⟨_, done.symm⟩
      | ok =>
        simp only [accepted, Option.some.injEq] at done
        exact .inr done.symm
    · rw [if_pos admitted, if_neg registered] at done
      simp only [append_nil, Option.some.injEq] at done
      cases left : answers.register.registers <;> rw [left] at done <;>
        exact .inl ⟨_, done.symm⟩
  · rw [if_neg admitted] at done
    simp only [append_nil, Option.some.injEq] at done
    exact .inl ⟨_, done.symm⟩

/-- An unmount leaves the segments alone, drops a mounted one after it was unregistered, or
moves it to those on their way out. -/
theorem System.unmountById_cases {answers : UnmountAnswers} {gracePeriodMs : Nat}
    (done : system.unmountById answers id gracePeriodMs cleanupCallback = some next) :
    system.phase = .alive ∧
      ((∃ events : List (SegmentEvent γ), (∀ event ∈ events, event.plain = true) ∧
        next = { system with trace := system.trace ++ events }) ∨
      (∃ registered : List Region, id ∈ system.client.mountedSegments ∧
        next =
          { system with
            client := system.client.dropMounted id registered
            trace := system.trace ++ [.unregisterLocalMemory id] }) ∨
      (∃ segment, system.client.mountedSegments.lookup id = some segment ∧
        next = system.accepting id segment cleanupCallback)) := by
  unfold System.unmountById at done
  split at done
  · cases done
  rename_i alive
  refine ⟨not_not.mp alive, ?_⟩
  unfold unmountSegmentById unmountEvents at done
  cases found : system.client.mountedSegments.lookup id with
  | none =>
    simp only [found, startedTimers, filterMap_nil, append_nil, Option.some.injEq] at done
    exact .inl ⟨[], by simp, by simp [← done]⟩
  | some segment =>
    have present : id ∈ system.client.mountedSegments := mem_of_lookup found
    by_cases immediate : gracePeriodMs = 0
    · simp only [found, immediate, if_true] at done
      rcases unmountSegmentImpl_cases answers system.client id segment with
        ⟨error, kept⟩ | ⟨acknowledged, -, erased⟩
      · rw [kept] at done
        cases acknowledged : answers.unmountSegment with
        | error refused =>
          simp only [acknowledged, startedTimers, filterMap_nil, append_nil,
            Option.some.injEq] at done
          exact .inl ⟨[], by simp, by simp [← done]⟩
        | ok =>
          simp only [acknowledged, startedTimers, filterMap_cons, filterMap_nil,
            append_nil, Option.some.injEq] at done
          exact .inl ⟨_, by simp [SegmentEvent.plain], done.symm⟩
      · rw [erased] at done
        simp only [acknowledged, startedTimers, filterMap_cons, filterMap_nil,
          append_nil, Option.some.injEq] at done
        exact .inr (.inl ⟨_, present, done.symm⟩)
    · simp only [found, immediate, if_false] at done
      cases acknowledged : answers.gracefulUnmountSegment with
      | error refused =>
        simp only [acknowledged, startedTimers, filterMap_nil, append_nil,
          Option.some.injEq] at done
        exact .inl ⟨[], by simp, by simp [← done]⟩
      | ok =>
        simp only [acknowledged, startedTimers, filterMap_cons, filterMap_nil,
          Option.some.injEq] at done
        exact .inr (.inr ⟨segment, rfl, done.symm⟩)

/-- A step shrinks the state, mounts a segment under a fresh id, or moves a mounted segment
to those on their way out. -/
theorem Orderly.step_cases (orderly : Orderly system) (stepped : system.step action = some next) :
    (∃ events, Shrinks system next events) ∨
      (∃ id segment, system.phase = .alive ∧ .mounted id ∉ system.trace ∧
        next = system.mounting id segment) ∨
      ∃ id segment callback, system.phase = .alive ∧
        system.client.mountedSegments.lookup id = some segment ∧
        next = system.accepting id segment callback := by
  cases action with
  | mount maxMrSize answers buffer size =>
    obtain ⟨alive, fresh, ⟨registered, rfl⟩ | rfl⟩ := System.mount_cases stepped
    · exact .inl ⟨[], .of_plain (fun _ held => held) (fun _ held => held) rfl orderly.pending
        (append_nil _).symm (by simp) (fun _ => rfl) (fun _ _ held => held)
        (by simp [alive])⟩
    · exact .inr (.inl ⟨_, _, alive, fresh, rfl⟩)
  | unmountById answers id gracePeriodMs cleanupCallback =>
    obtain ⟨alive, ⟨events, plain, rfl⟩ | ⟨registered, present, rfl⟩ | ⟨segment, found, rfl⟩⟩ :=
      System.unmountById_cases stepped
    · exact .inl ⟨events, .of_plain (fun _ held => held) (fun _ held => held) rfl
        orderly.pending rfl plain (fun _ => rfl) (fun _ _ held => held) (by simp [alive])⟩
    · exact .inl ⟨_, .of_plain (fun _ held => (AList.mem_erase.mp held).2)
        (fun _ held => held) rfl orderly.pending rfl (by simp [SegmentEvent.plain])
        (fun _ => rfl) (fun _ _ held => held) (by simp [alive])⟩
    · exact .inr (.inr ⟨id, segment, cleanupCallback, alive, found, rfl⟩)
  | fire task => exact .inl (orderly.shrinks_fire stepped)
  | drop task => exact .inl (orderly.shrinks_drop stepped)
  | query task status enqueued => exact .inl (orderly.shrinks_query stepped)
  | finish task unregister => exact .inl (orderly.shrinks_finish stepped)
  | call task => exact .inl (orderly.shrinks_call stepped)
  | stop =>
    simp only [System.step] at stepped
    split at stepped
    · cases stepped
      exact .inl ⟨[], .of_plain (fun _ held => held) (fun _ held => held) rfl orderly.pending
        (append_nil _).symm (by simp) (fun _ => rfl) (fun _ _ held => held) (by simp)⟩
    · cases stepped
  | destroy unmounts unregisters => exact .inl (orderly.shrinks_destroy stepped)

theorem Orderly.step (orderly : Orderly system) (stepped : system.step action = some next) :
    Orderly next := by
  rcases orderly.step_cases stepped with ⟨events, shrinks⟩ | ⟨id, segment, alive, fresh, rfl⟩ |
    ⟨id, segment, callback, alive, found, rfl⟩
  · exact orderly.shrink shrinks
  · exact orderly.mounting segment alive fresh
  · exact orderly.accepting callback alive found

/-- A segment of this client that is gone stays gone. -/
theorem Orderly.gone_step (orderly : Orderly system) (stepped : system.step action = some next)
    (ever : .mounted id ∈ system.trace) (gone : system.client.Gone id) :
    .mounted id ∈ next.trace ∧ next.client.Gone id := by
  rcases orderly.step_cases stepped with ⟨events, shrinks⟩ | ⟨other, segment, -, fresh, rfl⟩ |
    ⟨other, segment, callback, -, found, rfl⟩
  · rw [shrinks.trace]
    exact ⟨mem_append_left _ ever, shrinks.gone gone⟩
  · refine ⟨mem_append_left _ ever, fun held => ?_, gone.2⟩
    rcases (AList.mem_insert _).mp held with rfl | old
    · exact fresh ever
    · exact gone.1 old
  · exact ⟨mem_append_left _ ever, gone_beginGracefulUnmount (mem_of_lookup found) gone⟩

/-! ## Runs -/

theorem orderly_run (ran : run System.step start actions = some final) (orderly : Orderly start) :
    Orderly final :=
  run_preserves Orderly (fun stepped orderly => orderly.step stepped) ran orderly

theorem gone_run (ran : run System.step start actions = some final) (orderly : Orderly start)
    (ever : .mounted id ∈ start.trace) (gone : start.client.Gone id) : final.client.Gone id := by
  have kept := run_preserves
    (fun system => Orderly system ∧ .mounted id ∈ system.trace ∧ system.client.Gone id)
    (fun stepped held =>
      ⟨held.1.step stepped, held.1.gone_step stepped held.2.1 held.2.2⟩)
    ran ⟨orderly, ever, gone⟩
  exact kept.2.2

/-- At most one acceptance of a segment carries a callback. -/
theorem Orderly.accepted_unique (orderly : Orderly system) {first second : γ}
    (one : .accepted id (some first) ∈ system.trace)
    (two : .accepted id (some second) ∈ system.trace) : first = second := by
  have short := orderly.single id
  rw [countP_eq_length_filter] at short
  have inside : ∀ callback, .accepted id (some callback) ∈ system.trace →
      .accepted id (some callback) ∈ system.trace.filter (acceptsCallback id) :=
    fun callback present => mem_filter.mpr ⟨present, acceptsCallback_iff.mpr ⟨_, rfl⟩⟩
  cases kept : system.trace.filter (acceptsCallback id) with
  | nil => exact absurd (kept ▸ inside first one) not_mem_nil
  | cons event rest =>
    rw [kept] at short
    obtain rfl : rest = [] := length_eq_zero_iff.mp (by simpa using short)
    have left := mem_singleton.mp (kept ▸ inside first one)
    have right := mem_singleton.mp (kept ▸ inside second two)
    exact Option.some.inj (SegmentEvent.accepted.inj (left.trans right.symm)).2

/-- After the destructor the callback of an accepted unmount has run. -/
theorem Orderly.cleaned_up (orderly : Orderly system) (destroyed : system.phase = .destroyed)
    {callback : γ} (accepted : .accepted id (some callback) ∈ system.trace) :
    system.trace.countP (isCleanup id) = 1 ∧
      ∃ client, .cleanup id callback client ∈ system.trace := by
  obtain ⟨idle, empty⟩ := orderly.ended destroyed
  have positive : 0 < system.trace.countP (acceptsCallback id) :=
    countP_pos_iff.mpr ⟨_, accepted, acceptsCallback_iff.mpr ⟨_, rfl⟩⟩
  have once : system.trace.countP (isCleanup id) = 1 := by
    have balance := orderly.balance id
    have single := orderly.single id
    simp only [idle, empty, countP_nil, AList.notMem_empty, if_false] at balance
    omega
  refine ⟨once, ?_⟩
  obtain ⟨event, present, cleans⟩ := countP_pos_iff.mp (once ▸ Nat.one_pos)
  cases event with
  | cleanup other ran client =>
    obtain rfl : other = id := of_decide_eq_true cleans
    obtain ⟨before, after, split⟩ := append_of_mem present
    have own := (orderly.cleaned before other ran client after split).2.2
    rw [orderly.accepted_unique accepted (split ▸ mem_append_left _ own)]
    exact ⟨client, present⟩
  | _ => cases cleans

/-- In every run a segment is mounted, on its way out or gone for good; its callback runs at
most once, when the segment is gone and after an attempt to unregister it, and exactly once
by the end of the destructor if it was accepted. -/
theorem gracefulUnmount_cleans_once {actions : List (Action γ)} {final : System γ}
    (ran : run System.step ({} : System γ) actions = some final) :
    (∀ id, (id ∈ final.client.mountedSegments ∧
          id ∉ final.client.gracefullyUnmountingSegments) ∨
        (id ∉ final.client.mountedSegments ∧
          id ∈ final.client.gracefullyUnmountingSegments) ∨ final.client.Gone id) ∧
      (∀ earlier later middle, actions = earlier ++ later →
        run System.step ({} : System γ) earlier = some middle →
        ∀ id, .mounted id ∈ middle.trace → middle.client.Gone id → final.client.Gone id) ∧
      (∀ id, final.trace.countP (isCleanup id) ≤ 1) ∧
      (∀ before id callback client after,
        final.trace = before ++ .cleanup id callback client :: after →
        client.Gone id ∧ .unregisterLocalMemory id ∈ before) ∧
      (final.phase = .destroyed → ∀ id callback, .accepted id (some callback) ∈ final.trace →
        final.trace.countP (isCleanup id) = 1 ∧
          ∃ client, .cleanup id callback client ∈ final.trace) := by
  have orderly := orderly_run ran orderly_start
  refine ⟨fun id => ?_, ?_, fun id => ?_, ?_, ?_⟩
  · by_cases mounted : id ∈ final.client.mountedSegments
    · exact .inl ⟨mounted, orderly.separate id mounted⟩
    · by_cases unmounting : id ∈ final.client.gracefullyUnmountingSegments
      · exact .inr (.inl ⟨mounted, unmounting⟩)
      · exact .inr (.inr ⟨mounted, unmounting⟩)
  · rintro earlier later middle rfl reached id ever gone
    obtain ⟨state, first, rest⟩ := run_append.mp ran
    obtain rfl : state = middle := Option.some.inj (first.symm.trans reached)
    exact gone_run rest (orderly_run first orderly_start) ever gone
  · have balance := orderly.balance id
    have single := orderly.single id
    omega
  · intro before id callback client after split
    obtain ⟨gone, unregistered, -⟩ := orderly.cleaned before id callback client after split
    exact ⟨gone, unregistered⟩
  · intro destroyed id callback accepted
    exact orderly.cleaned_up destroyed accepted

/-- One segment is cleaned up by its timer, the other by the destructor. -/
def timerThenDestructor : List (Action Unit) :=
  let mounted : UUID → MountAnswers := fun id => ⟨.success, id, .ok ()⟩
  let accepted : UnmountAnswers := ⟨.ok (), .ok (), .success⟩
  [.mount 4096 (mounted (0, 1)) 4096 4096, .mount 4096 (mounted (0, 2)) 8192 4096,
    .unmountById accepted (0, 1) 5 (some ()), .unmountById accepted (0, 2) 5 (some ()),
    .fire 0, .query 1 (.error .segmentNotFound) true, .finish 1 .success, .call 1, .stop, .drop 0,
    .destroy (fun _ => accepted) fun _ => .success]

theorem timerThenDestructor_cleans_once :
    ∃ final, run System.step ({} : System Unit) timerThenDestructor = some final ∧
      final.phase = .destroyed ∧ final.trace.countP (isCleanup (0, 1)) = 1 ∧
        final.trace.countP (isCleanup (0, 2)) = 1 := by
  obtain ⟨final, ran⟩ :
      ∃ final, run System.step ({} : System Unit) timerThenDestructor = some final :=
    Option.isSome_iff_exists.mp rfl
  have reached : (run System.step ({} : System Unit) timerThenDestructor).map (fun system =>
      (system.phase, system.trace.any (acceptsCallback (0, 1)),
        system.trace.any (acceptsCallback (0, 2)))) = some (.destroyed, true, true) := rfl
  rw [ran] at reached
  obtain ⟨destroyed, first, second⟩ : final.phase = .destroyed ∧
      final.trace.any (acceptsCallback (0, 1)) = true ∧
      final.trace.any (acceptsCallback (0, 2)) = true := by simpa using reached
  have accepted : ∀ id, final.trace.any (acceptsCallback id) = true →
      .accepted id (some ()) ∈ final.trace := by
    intro id some
    obtain ⟨event, present, accepts⟩ := any_eq_true.mp some
    obtain ⟨callback, rfl⟩ := acceptsCallback_iff.mp accepts
    exact present
  obtain ⟨-, -, -, -, once⟩ := gracefulUnmount_cleans_once ran
  exact ⟨final, ran, destroyed, (once destroyed _ _ (accepted _ first)).1,
    (once destroyed _ _ (accepted _ second)).1⟩

end Mooncake.Segment
