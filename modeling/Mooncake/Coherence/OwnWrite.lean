import Mooncake.Coherence.HotCache

/-!
# Reads after a write

A read that misses the hot cache is never older than a write that returned before
its query.  A read that hits may be older than writes of other clients.  It is not
older than a write of its own client unless a stale fill was submitted after the
last removal of that write.
-/

namespace Mooncake.Coherence

open Library.Runs List

/-! ## Hot cache entries -/

/-- Tokens are generations that the key has had. -/
def CacheEntry.Dated (entry : CacheEntry) : Prop :=
  ∀ fill ∈ entry.fills, fill.token ≤ entry.generation

/-- Nothing older than the version is cached or can still be published. -/
structure CacheEntry.Fresh (version : Version) (entry : CacheEntry) : Prop where
  block : ∀ hot, entry.block = some hot → version ≤ hot
  fills : ∀ fill ∈ entry.fills, fill.token = entry.generation → version ≤ fill.version

namespace CacheEntry

variable {entry : CacheEntry} {version : Version}

theorem Dated.apply (dated : entry.Dated) (op : CacheOp) : (entry.apply op).Dated := by
  intro fill present
  cases op with
  | removeHotKey => exact Nat.le_succ_of_le (dated fill present)
  | bumpKeyGeneration => exact Nat.le_succ_of_le (dated fill present)
  | evict => exact dated fill present
  | submitPutTask submitted =>
    rcases mem_append.mp present with earlier | own
    · exact dated fill earlier
    · exact Nat.le_of_eq (congrArg Fill.token (mem_singleton.mp own))
  | publish position =>
    unfold CacheEntry.apply at present ⊢
    dsimp only at present ⊢
    split at present
    · exact dated fill present
    · exact dated fill (mem_of_mem_eraseIdx present)

/-- Removing a key leaves nothing that could become visible. -/
theorem Dated.fresh (dated : entry.Dated) (version : Version) :
    (entry.apply .removeHotKey).Fresh version := by
  refine ⟨fun hot found => (nomatch found), fun fill present current => ?_⟩
  have before := dated fill present
  have after : fill.token = entry.generation + 1 := current
  omega

theorem Fresh.apply (fresh : entry.Fresh version) (dated : entry.Dated) {op : CacheOp}
    (current : ∀ submitted, op = .submitPutTask submitted → version ≤ submitted) :
    (entry.apply op).Fresh version := by
  cases op with
  | removeHotKey => exact dated.fresh version
  | bumpKeyGeneration =>
    refine ⟨fresh.block, fun fill present renewed => ?_⟩
    have before := dated fill present
    have after : fill.token = entry.generation + 1 := renewed
    omega
  | evict => exact ⟨fun hot found => (nomatch found), fresh.fills⟩
  | submitPutTask submitted =>
    refine ⟨fresh.block, fun fill present valid => ?_⟩
    rcases mem_append.mp present with earlier | own
    · exact fresh.fills fill earlier valid
    · rw [mem_singleton.mp own]
      exact current submitted rfl
  | publish position =>
    unfold CacheEntry.apply
    dsimp only
    split
    · exact fresh
    · rename_i fill found
      refine ⟨fun hot shown => ?_, fun other present valid =>
        fresh.fills other (mem_of_mem_eraseIdx present) valid⟩
      dsimp only at shown
      split at shown
      · cases shown
        exact fresh.fills fill (mem_of_getElem? found) ‹_›
      · exact fresh.block hot shown

end CacheEntry

variable {net : Network} {state next : State} {action : Action}

namespace State

/-! ## What one step does -/

variable (stepped : state.step net action = some next)

include stepped

theorem step_eq :
    ∃ move, state.advance net action = some move ∧ next =
      { caches := state.cachesAfter action
        master := state.masterAfter action
        readers := state.readersAfter move
        writers := state.writersAfter move } := by
  obtain ⟨move, advanced, rfl⟩ := Option.map_eq_some_iff.mp stepped
  exact ⟨move, advanced, rfl⟩

/-- A step applies at most one operation to a cache entry; a fill is seen in the
action. -/
theorem step_cache (client : Client) (key : ObjectKey) :
    next.caches client key = state.caches client key ∨
      ∃ op, next.caches client key = (state.caches client key).apply op ∧
        action.cacheOp = some (client, key, op) := by
  obtain ⟨move, -, rfl⟩ := step_eq stepped
  dsimp only
  unfold cachesAfter
  split
  · exact .inl rfl
  · rename_i client' key' op touched
    split
    · rename_i same
      obtain ⟨rfl, rfl⟩ := same
      exact .inr ⟨op, rfl, touched⟩
    · exact .inl rfl

theorem step_master (key : ObjectKey) :
    next.master key = state.master key ∨
      ∃ op, next.master key = (state.master key).apply op := by
  obtain ⟨move, -, rfl⟩ := step_eq stepped
  dsimp only
  unfold masterAfter
  split
  · exact .inl rfl
  · rename_i key' op touched
    split
    · rename_i same
      subst same
      exact .inr ⟨op, rfl⟩
    · exact .inl rfl

theorem clock_mono (key : ObjectKey) :
    (state.master key).clock ≤ (next.master key).clock := by
  rcases step_master stepped key with same | ⟨op, changed⟩
  · exact Nat.le_of_eq (congrArg MasterEntry.clock same.symm)
  · rw [changed]
    cases op with
    | commit => exact Nat.le_succ _
    | remove => exact Nat.le_refl _

/-! ## Invariants of every run -/

end State

/-- The version that a write committed or found, once it is known. -/
def WriterPhase.committed : WriterPhase → Option (ObjectKey × Version)
  | .upsertCommitted _ key version => some (key, version)
  | .upsertCleared _ key version => some (key, version)
  | .putCommitted _ key version => some (key, version)
  | _ => none

structure State.Reachable (state : State) : Prop where
  dated : ∀ client key, (state.caches client key).Dated
  live : ∀ key version, (state.master key).live = some version →
    version = (state.master key).clock
  committed : ∀ writer key version, (state.writers writer).committed = some (key, version) →
    version ≤ (state.master key).clock

namespace State

variable {version : Version}

/-- A write that reaches a phase with a version has committed it or found it. -/
theorem advance_committed (reachable : state.Reachable) {writer : Nat} {phase : WriterPhase}
    {key : ObjectKey} (advanced : state.advance net action = some (.writer writer phase))
    (committed : phase.committed = some (key, version)) :
    version ≤ (state.masterAfter action key).clock := by
  cases action with
  | upsertCommit writer' client key' version' =>
    obtain ⟨⟨-, rfl⟩, moved⟩ := of_guard advanced
    cases moved
    cases committed
    simp [masterAfter, Action.masterOp, MasterEntry.apply]
  | putCommit writer' client key' version' =>
    obtain ⟨⟨-, -, rfl⟩, moved⟩ := of_guard advanced
    cases moved
    cases committed
    simp [masterAfter, Action.masterOp, MasterEntry.apply]
  | putExists writer' client key' version' =>
    obtain ⟨⟨-, found⟩, moved⟩ := of_guard advanced
    cases moved
    cases committed
    exact Nat.le_of_eq (reachable.live _ _ found)
  | upsertClear writer' client key' version' =>
    obtain ⟨before, moved⟩ := of_guard advanced
    cases moved
    cases committed
    exact reachable.committed writer key version (by rw [before]; rfl)
  | _ =>
    simp only [advance] at advanced
    first
      | cases advanced
      | split at advanced <;> cases advanced <;> cases committed

theorem step_writer (reachable : state.Reachable) (stepped : state.step net action = some next)
    {writer : Nat} {key : ObjectKey}
    (committed : (next.writers writer).committed = some (key, version)) :
    version ≤ (next.master key).clock := by
  have mono := clock_mono stepped key
  obtain ⟨move, advanced, rfl⟩ := step_eq stepped
  have kept : (state.writers writer).committed = some (key, version) →
      version ≤ (state.masterAfter action key).clock :=
    fun before => Nat.le_trans (reachable.committed writer key version before) mono
  cases move with
  | none => exact kept committed
  | reader reader phase => exact kept committed
  | writer moved phase =>
    dsimp only [writersAfter] at committed
    by_cases same : writer = moved
    · subst same
      rw [Function.update_self] at committed
      exact advance_committed reachable advanced committed
    · rw [Function.update_of_ne same] at committed
      exact kept committed

theorem Reachable.step (reachable : state.Reachable)
    (stepped : state.step net action = some next) : next.Reachable where
  dated := by
    intro client key
    rcases step_cache stepped client key with same | ⟨op, changed, -⟩
    · exact same ▸ reachable.dated client key
    · exact changed ▸ (reachable.dated client key).apply op
  live := by
    intro key version found
    rcases step_master stepped key with same | ⟨op, changed⟩
    · rw [same] at found ⊢
      exact reachable.live key version found
    · rw [changed] at found ⊢
      cases op with
      | commit => exact (Option.some.inj found).symm
      | remove => cases found
  committed := fun writer key version committed => step_writer reachable stepped committed

theorem reachable_initial : ({} : State).Reachable where
  dated := fun _ _ _ present => nomatch present
  live := fun _ _ found => nomatch found
  committed := fun _ _ _ committed => nomatch committed

theorem Reachable.run (reachable : state.Reachable) {actions : List Action}
    (ran : run (State.step net) state actions = some next) : next.Reachable :=
  run_preserves State.Reachable (fun stepped holds => holds.step stepped) ran reachable

end State

/-! ## A version that later reads must reach -/

/-- The action does not submit an older version for the key at the client. -/
def Action.Current (client : Client) (key : ObjectKey) (version : Version) (action : Action) :
    Prop :=
  ∀ reader submitted, action = .fill reader client key submitted → version ≤ submitted

/-- A read of the key at the client that ends with the version or a later one.
Blocks of the hot cache count only if they are trusted. -/
def ReaderPhase.Above (client : Client) (key : ObjectKey) (version : Version)
    (trusted : Prop) : ReaderPhase → Prop
  | .idle => False
  | .queried client' key' seen => client' = client ∧ key' = key ∧ version ≤ seen
  | .missed client' key' seen => client' = client ∧ key' = key ∧ version ≤ seen
  | .pinned client' key' hot => client' = client ∧ key' = key ∧ (trusted → version ≤ hot)
  | .fetched client' key' read cacheUsed =>
    client' = client ∧ key' = key ∧ (cacheUsed = false ∨ trusted → version ≤ read)
  | .done => True

namespace State

section Floor

variable {client : Client} {key : ObjectKey} {version : Version}

variable {actions : List Action} {reader : Nat}

theorem clock_run (ran : run (step net) state actions = some next)
    (reached : version ≤ (state.master key).clock) : version ≤ (next.master key).clock :=
  run_preserves (fun state => version ≤ (state.master key).clock)
    (fun stepped holds => Nat.le_trans holds (clock_mono stepped key)) ran reached

theorem fresh_step (reachable : state.Reachable) (stepped : state.step net action = some next)
    (current : action.Current client key version)
    (fresh : (state.caches client key).Fresh version) :
    (next.caches client key).Fresh version := by
  rcases step_cache stepped client key with same | ⟨op, changed, touched⟩
  · exact same ▸ fresh
  · rw [changed]
    refine fresh.apply (reachable.dated client key) fun submitted submits => ?_
    subst submits
    cases action with
    | fill reader client' key' version' =>
      cases touched
      exact current reader submitted rfl
    | _ => cases touched

/-- Freshness lasts as long as no stale fill is submitted. -/
theorem fresh_run (reachable : state.Reachable) (ran : run (step net) state actions = some next)
    (current : ∀ action ∈ actions, action.Current client key version)
    (fresh : (state.caches client key).Fresh version) :
    (next.caches client key).Fresh version :=
  (run_invariant (fun state => state.Reachable ∧ (state.caches client key).Fresh version)
    (Action.Current client key version)
    (fun stepped allowed holds =>
      ⟨holds.1.step stepped, fresh_step holds.1 stepped allowed holds.2⟩)
    ran current ⟨reachable, fresh⟩).2

variable {trusted : Prop}

theorem advance_above {phase : ReaderPhase}
    (advanced : state.advance net action = some (.reader reader phase))
    (fresh : trusted → (state.caches client key).Fresh version)
    (above : (state.readers reader).Above client key version trusted) :
    phase.Above client key version trusted := by
  cases action with
  | query reader' client' key' seen =>
    obtain ⟨⟨idle, -⟩, moved⟩ := of_guard advanced
    cases moved
    rw [idle] at above
    cases above
  | redirect reader' client' key' seen hot =>
    obtain ⟨⟨before, block, -⟩, moved⟩ := of_guard advanced
    cases moved
    rw [before] at above
    obtain ⟨rfl, rfl, -⟩ := above
    exact ⟨rfl, rfl, fun trust => (fresh trust).block hot block⟩
  | miss reader' client' key' seen inMemory =>
    obtain ⟨⟨before, -⟩, moved⟩ := of_guard advanced
    cases moved
    rw [before] at above
    exact above
  | transfer reader' client' key' seen read =>
    obtain ⟨⟨before, later, -⟩, moved⟩ := of_guard advanced
    cases moved
    rw [before] at above
    obtain ⟨rfl, rfl, reached⟩ := above
    exact ⟨rfl, rfl, fun _ => Nat.le_trans reached later⟩
  | transferHot reader' client' key' hot =>
    obtain ⟨before, moved⟩ := of_guard advanced
    cases moved
    rw [before] at above
    obtain ⟨rfl, rfl, reached⟩ := above
    exact ⟨rfl, rfl, fun either => reached (either.resolve_left (by simp))⟩
  | acquire reader' client' key' hot =>
    obtain ⟨⟨idle, -⟩, moved⟩ := of_guard advanced
    cases moved
    rw [idle] at above
    cases above
  | _ =>
    simp only [advance] at advanced
    first
      | cases advanced
      | split at advanced <;> cases advanced <;> exact trivial

theorem above_step (stepped : state.step net action = some next)
    (fresh : trusted → (state.caches client key).Fresh version)
    (above : (state.readers reader).Above client key version trusted) :
    (next.readers reader).Above client key version trusted := by
  obtain ⟨move, advanced, rfl⟩ := step_eq stepped
  cases move with
  | none => exact above
  | writer writer phase => exact above
  | reader moved phase =>
    dsimp only [readersAfter]
    by_cases same : reader = moved
    · subst same
      rw [Function.update_self]
      exact advance_above advanced fresh above
    · rw [Function.update_of_ne same]
      exact above

theorem above_run (reachable : state.Reachable) (ran : run (step net) state actions = some next)
    (current : trusted → ∀ action ∈ actions, action.Current client key version)
    (fresh : trusted → (state.caches client key).Fresh version)
    (above : (state.readers reader).Above client key version trusted) :
    (next.readers reader).Above client key version trusted :=
  (run_invariant (fun state => state.Reachable ∧
      (trusted → (state.caches client key).Fresh version) ∧
      (state.readers reader).Above client key version trusted)
    (fun action => trusted → action.Current client key version)
    (fun stepped allowed holds => ⟨holds.1.step stepped,
      fun trust => fresh_step holds.1 stepped (allowed trust) (holds.2.1 trust),
      above_step stepped holds.2.1 holds.2.2⟩)
    ran (fun action present trust => current trust action present)
    ⟨reachable, fresh, above⟩).2.2

end Floor

end State

/-! ## Reads after a write -/

/-- The last removal of the hot key by a write, and its successful return. -/
inductive Write (writer : Nat) (client : Client) (key : ObjectKey) (version : Version) :
    Action → Action → Prop where
  | upsert : Write writer client key version (.upsertClear writer client key version)
      (.upsertReturn writer client key version)
  | put : Write writer client key version (.putBegin writer client key)
      (.putReturn writer client key version)

/-- A write with its last removal and its return, and what follows after a while. -/
def history (before : List Action) (clear : Action) (middle : List Action) (finish : Action)
    (after last : List Action) : List Action :=
  before ++ clear :: (middle ++ finish :: (after ++ last))

def getCall (reader : Nat) (client : Client) (key : ObjectKey) (seen : Version)
    (during : List Action) (served : Version) (cacheUsed : Bool) : List Action :=
  .query reader client key seen :: (during ++ [.serve reader client key served cacheUsed])

namespace Write

variable {writer : Nat} {client : Client} {key : ObjectKey} {version : Version}
  {clear finish : Action}

variable (write : Write writer client key version clear finish)

include write

theorem cleared (reachable : state.Reachable) (stepped : state.step net clear = some next) :
    (next.caches client key).Fresh version := by
  have touched : clear.cacheOp = some (client, key, .removeHotKey) := by cases write <;> rfl
  obtain ⟨move, -, rfl⟩ := State.step_eq stepped
  have removed : state.cachesAfter clear client key =
      (state.caches client key).apply .removeHotKey := by
    simp [State.cachesAfter, touched]
  dsimp only
  rw [removed]
  exact (reachable.dated client key).fresh version

theorem finished (reachable : state.Reachable) (stepped : state.step net finish = some next) :
    version ≤ (state.master key).clock := by
  obtain ⟨move, advanced, -⟩ := State.step_eq stepped
  cases write with
  | upsert =>
    exact reachable.committed writer key version (by rw [(of_guard advanced).1]; rfl)
  | put =>
    exact reachable.committed writer key version (by rw [(of_guard advanced).1]; rfl)

/-- What a write leaves behind, at any later time. -/
theorem outcome {before middle after last : List Action}
    (possible : Possible net (history before clear middle finish after last)) :
    ∃ state next, run (State.step net) state last = some next ∧ state.Reachable ∧
      version ≤ (state.master key).clock ∧
      ((∀ action ∈ middle ++ after, action.Current client key version) →
        (state.caches client key).Fresh version) := by
  obtain ⟨final, ran⟩ := Option.isSome_iff_exists.mp possible
  obtain ⟨started, earlier, ran⟩ := run_append.mp ran
  obtain ⟨removed, clears, ran⟩ := run_cons.mp ran
  obtain ⟨committed, between, ran⟩ := run_append.mp ran
  obtain ⟨returned, finishes, ran⟩ := run_cons.mp ran
  obtain ⟨reading, later, ran⟩ := run_append.mp ran
  have atStart := State.reachable_initial.run earlier
  have atRemoval := atStart.step clears
  have atCommit := atRemoval.run between
  have atReturn := atCommit.step finishes
  refine ⟨reading, final, ran, atReturn.run later, ?_, fun current => ?_⟩
  · exact State.clock_run later
      (Nat.le_trans (write.finished atCommit finishes) (State.clock_mono finishes key))
  · have fresh := State.fresh_run atRemoval between
      (fun action present => current action (mem_append_left _ present))
      (write.cleared atStart clears)
    have kept := State.fresh_step atCommit finishes
      (by intro reader submitted same; cases write <;> cases same) fresh
    exact State.fresh_run atReturn later
      (fun action present => current action (mem_append_right _ present)) kept

end Write

namespace State

variable {client : Client} {key : ObjectKey} {version seen served : Version} {trusted : Prop}
  {reader : Nat}

theorem query_above (reachable : state.Reachable) (reached : version ≤ (state.master key).clock)
    (stepped : state.step net (.query reader client key seen) = some next) :
    (next.readers reader).Above client key version trusted := by
  obtain ⟨move, advanced, rfl⟩ := step_eq stepped
  obtain ⟨⟨-, found⟩, rfl⟩ := of_guard advanced
  dsimp only [readersAfter]
  rw [Function.update_self]
  exact ⟨rfl, rfl, reachable.live key seen found ▸ reached⟩

variable {cacheUsed : Bool}

theorem serve_above
    (stepped : state.step net (.serve reader client key served cacheUsed) = some next)
    (above : (state.readers reader).Above client key version trusted)
    (counts : cacheUsed = false ∨ trusted) : version ≤ served := by
  obtain ⟨move, advanced, -⟩ := step_eq stepped
  rw [(of_guard advanced).1] at above
  exact above.2.2 counts

/-- A read that queries after the version was committed serves it or a later one. -/
theorem read_above (reachable : state.Reachable) (reached : version ≤ (state.master key).clock)
    {during : List Action} {cacheUsed : Bool}
    (ran : run (step net) state (getCall reader client key seen during served cacheUsed) =
      some next)
    (current : trusted → ∀ action ∈ during, action.Current client key version)
    (fresh : trusted → (state.caches client key).Fresh version)
    (counts : cacheUsed = false ∨ trusted) : version ≤ served := by
  obtain ⟨asked, queries, ran⟩ := run_cons.mp ran
  obtain ⟨ready, between, ran⟩ := run_append.mp ran
  obtain ⟨final, serves, -⟩ := run_cons.mp ran
  have stillFresh : trusted → (asked.caches client key).Fresh version := fun trust =>
    fresh_step reachable queries (by intro reader submitted same; cases same) (fresh trust)
  have above := above_run (reachable.step queries) between current stillFresh
    (query_above reachable reached queries)
  exact serve_above serves above counts

end State

/-- After a write returned success, a read without the hot cache gets its version or a
later one at any client.  At the client of the write this is also true of reads through
the hot cache and of `acquire_hot_cache`, if no older version was submitted for the key
at this client after the last removal of the write. -/
theorem reads_after_write (net : Network) (writer : Nat) (client : Client) (key : ObjectKey)
    (version : Version) (clear finish : Action)
    (write : Write writer client key version clear finish)
    (before middle after : List Action) :
    (∀ reader client' seen during served,
      Possible net (history before clear middle finish after
        (getCall reader client' key seen during served false)) →
      version ≤ served) ∧
    ((∀ action ∈ middle ++ after, action.Current client key version) →
      ∀ reader seen during served cacheUsed,
        (∀ action ∈ during, action.Current client key version) →
        Possible net (history before clear middle finish after
          (getCall reader client key seen during served cacheUsed)) →
        version ≤ served) ∧
    ((∀ action ∈ middle ++ after, action.Current client key version) →
      ∀ reader served,
        Possible net (history before clear middle finish after
          [.acquire reader client key served]) →
        version ≤ served) := by
  refine ⟨fun reader client' seen during served possible => ?_,
    fun current reader seen during served cacheUsed still possible => ?_,
    fun current reader served possible => ?_⟩
  · obtain ⟨state, next, ran, reachable, reached, -⟩ := write.outcome possible
    exact State.read_above reachable reached ran False.elim False.elim (.inl rfl)
  · obtain ⟨state, next, ran, reachable, reached, fresh⟩ := write.outcome possible
    exact State.read_above reachable reached ran (fun _ => still) (fun _ => fresh current)
      (.inr trivial)
  · obtain ⟨state, next, ran, -, -, fresh⟩ := write.outcome possible
    obtain ⟨acquired, acquires, -⟩ := run_cons.mp ran
    obtain ⟨move, advanced, -⟩ := State.step_eq acquires
    exact (fresh current).block served (of_guard advanced).1.2

/-- Every version has one size, every client has a hot cache. -/
def uniform : Network where
  size := fun _ _ => 4
  hotCache := fun _ => true

/-- A read at the client that misses the hot cache, with its fill and publication. -/
def cachingRead (reader : Nat) (client : Client) (version : Version) : List Action :=
  getCall reader client "key" version
    [.miss reader client "key" version true, .transfer reader client "key" version version,
      .fill reader client "key" version, .publish client "key" 0] version false

/-- An upsert of client 0 that returns, then the events, then the start of an upsert. -/
def twoUpserts (events : List Action) (client : Client) : List Action :=
  [.upsertBegin 0 0 "key", .upsertCommit 0 0 "key" 1, .upsertClear 0 0 "key" 1,
    .upsertReturn 0 0 "key" 1] ++ events ++
  [.upsertBegin 1 client "key", .upsertCommit 1 client "key" 2]

def secondUpsert (events : List Action) (client : Client) (after last : List Action) :
    List Action :=
  history (twoUpserts events client) (.upsertClear 1 client "key" 2) []
    (.upsertReturn 1 client "key" 2) after last

def coldRead (reader : Nat) (client : Client) (served : Version) : List Action :=
  getCall reader client "key" 2
    [.miss reader client "key" 2 true, .transfer reader client "key" 2 served] served false

def hotRead (reader : Nat) (client : Client) (served : Version) : List Action :=
  getCall reader client "key" 2
    [.redirect reader client "key" 2 served, .transferHot reader client "key" served] served true

/-- Client 0 has the first version in its hot cache when it upserts the second.  A read of
client 1, a read of client 0 from its hot cache and an acquire there get the second version,
and none of them can get an earlier one. -/
theorem reads_after_upsert :
    let later := secondUpsert (cachingRead 0 0 1) 0
    (Possible uniform (later [] (coldRead 1 1 2)) ∧
      Possible uniform (later (cachingRead 1 0 2) (hotRead 2 0 2)) ∧
      Possible uniform (later (cachingRead 1 0 2) [.acquire 2 0 "key" 2])) ∧
    ∀ served, (Possible uniform (later [] (coldRead 1 1 served)) → 2 ≤ served) ∧
      (Possible uniform (later (cachingRead 1 0 2) (hotRead 2 0 served)) → 2 ≤ served) ∧
      (Possible uniform (later (cachingRead 1 0 2) [.acquire 2 0 "key" served]) →
        2 ≤ served) := by
  intro later
  have current : ∀ action ∈ [] ++ cachingRead 1 0 2, action.Current 0 "key" 2 := by
    simp [cachingRead, getCall, Action.Current]
  have cold := (reads_after_write uniform 1 0 "key" 2 _ _ .upsert
    (twoUpserts (cachingRead 0 0 1) 0) [] []).1
  have hot := (reads_after_write uniform 1 0 "key" 2 _ _ .upsert
    (twoUpserts (cachingRead 0 0 1) 0) [] (cachingRead 1 0 2)).2
  refine ⟨⟨by decide, by decide, by decide⟩, fun served => ⟨?_, ?_, ?_⟩⟩
  · exact cold 1 1 2 _ served
  · exact hot.1 current 2 2 _ served true (by simp [Action.Current])
  · exact hot.2 current 2 served

/-- Every read that starts after a successful write, at any client, serves the version of
the write or a later one. -/
def ReadsLatest (net : Network) : Prop :=
  ∀ writer client key version clear finish, Write writer client key version clear finish →
    ∀ before middle after : List Action,
      (∀ reader client' seen during served cacheUsed,
        Possible net (history before clear middle finish after
          (getCall reader client' key seen during served cacheUsed)) →
        version ≤ served) ∧
      (∀ reader client' served,
        Possible net (history before clear middle finish after
          [.acquire reader client' key served]) →
        version ≤ served)

/-- Client 0 has cached the first version.  Client 1 upserts the second one, which leaves
the hot cache of client 0 alone: a later read of client 0 is redirected to the first
version, and `acquire_hot_cache` returns it.  In the last history both operations are of
client 0, and the read submits the first version after the upsert has returned. -/
theorem otherClient_serves_the_old_version :
    Possible uniform (secondUpsert (cachingRead 0 0 1) 1 [] (hotRead 1 0 1)) ∧
    Possible uniform (secondUpsert (cachingRead 0 0 1) 1 [] [.acquire 1 0 "key" 1]) ∧
    Possible uniform (secondUpsert
      [.query 0 0 "key" 1, .miss 0 0 "key" 1 true, .transfer 0 0 "key" 1 1] 0
      [.fill 0 0 "key" 1, .publish 0 "key" 0] [.acquire 1 0 "key" 1]) ∧
    ¬ ReadsLatest uniform := by
  refine ⟨by decide, by decide, by decide, fun latest => ?_⟩
  have served : 2 ≤ 1 := (latest 1 1 "key" 2 _ _ .upsert
    (twoUpserts (cachingRead 0 0 1) 1) [] []).1 1 0 2
    [.redirect 1 0 "key" 2 1, .transferHot 1 0 "key" 1] 1 true (by decide)
  omega

end Mooncake.Coherence
