import Mooncake.Library.Runs
import Mooncake.Types

/-!
# Clients with hot caches

A transition system of any number of clients that read, upsert, put and remove
objects at one master.  Every commit of a key gets the next version, and the bytes
of an object are known by their version.  Each client has its own hot cache: a
read submits a fill with the generation of its key, a worker publishes the fill if
the generation is unchanged, and only operations of the same client remove blocks
and bump generations.
-/

namespace Mooncake.Coherence

open Library.Runs

abbrev Client := Nat
abbrev Version := Nat

/-! ## Hot cache of one client for one key -/

/-- A task of `SubmitPutTask` that waits for a worker. -/
structure Fill where
  version : Version
  token : Nat
  deriving DecidableEq, Repr

structure CacheEntry where
  block : Option Version := none
  generation : Nat := 0
  fills : List Fill := []
  deriving DecidableEq, Repr

inductive CacheOp where
  | removeHotKey
  | bumpKeyGeneration
  | submitPutTask (version : Version)
  | publish (position : Nat)
  | evict
  deriving DecidableEq, Repr

def CacheEntry.apply (entry : CacheEntry) : CacheOp → CacheEntry
  | .removeHotKey => { entry with block := none, generation := entry.generation + 1 }
  | .bumpKeyGeneration => { entry with generation := entry.generation + 1 }
  | .submitPutTask version =>
    { entry with fills := entry.fills ++ [⟨version, entry.generation⟩] }
  | .publish position =>
    match entry.fills[position]? with
    | none => entry
    | some fill =>
      { entry with
        block := if fill.token = entry.generation then some fill.version else entry.block
        fills := entry.fills.eraseIdx position }
  | .evict => { entry with block := none }

/-! ## The master -/

/-- The version that a query returns, and the last one that was committed. -/
structure MasterEntry where
  live : Option Version := none
  clock : Version := 0
  deriving DecidableEq, Repr

inductive MasterOp where
  | commit
  | remove
  deriving DecidableEq, Repr

def MasterEntry.apply (entry : MasterEntry) : MasterOp → MasterEntry
  | .commit => { live := some (entry.clock + 1), clock := entry.clock + 1 }
  | .remove => { entry with live := none }

/-! ## Readers and writers -/

/-- A call of `Client::Get` with the query before it. -/
inductive ReaderPhase where
  | idle
  | queried (client : Client) (key : ObjectKey) (version : Version)
  | missed (client : Client) (key : ObjectKey) (version : Version)
  | pinned (client : Client) (key : ObjectKey) (version : Version)
  | fetched (client : Client) (key : ObjectKey) (version : Version) (cacheUsed : Bool)
  | done
  deriving DecidableEq, Repr

/-- A call of `Client::Upsert`, `Client::Put` or `Client::Remove`. -/
inductive WriterPhase where
  | idle
  | upsertStarted (client : Client) (key : ObjectKey)
  | upsertCommitted (client : Client) (key : ObjectKey) (version : Version)
  | upsertCleared (client : Client) (key : ObjectKey) (version : Version)
  | putStarted (client : Client) (key : ObjectKey)
  | putCommitted (client : Client) (key : ObjectKey) (version : Version)
  | removeStarted (client : Client) (key : ObjectKey)
  | removeCommitted (client : Client) (key : ObjectKey)
  | removeCleared (client : Client) (key : ObjectKey)
  | done
  deriving DecidableEq, Repr

structure State where
  caches : Client → ObjectKey → CacheEntry := fun _ _ => {}
  master : ObjectKey → MasterEntry := fun _ => {}
  readers : Nat → ReaderPhase := fun _ => .idle
  writers : Nat → WriterPhase := fun _ => .idle

/-- The sizes of the versions, and the clients that have a hot cache. -/
structure Network where
  size : ObjectKey → Version → Nat
  hotCache : Client → Bool

/-- One atomic step, with everything an observer of the step sees. -/
inductive Action where
  /-- `Query` of a read. -/
  | query (reader : Nat) (client : Client) (key : ObjectKey) (version : Version)
  /-- `RedirectToHotCache` with a block of the right size. -/
  | redirect (reader : Nat) (client : Client) (key : ObjectKey) (version hot : Version)
  /-- `RedirectToHotCache` without one, or for a replica that is not in memory. -/
  | miss (reader : Nat) (client : Client) (key : ObjectKey) (version : Version)
      (inMemory : Bool)
  /-- `TransferRead` from a replica, which may meanwhile hold a later version. -/
  | transfer (reader : Nat) (client : Client) (key : ObjectKey) (version read : Version)
  /-- `TransferRead` from the pinned block, and its release. -/
  | transferHot (reader : Nat) (client : Client) (key : ObjectKey) (version : Version)
  /-- `SubmitPutTask` for a slice of the object that was read. -/
  | fill (reader : Nat) (client : Client) (key : ObjectKey) (version : Version)
  /-- The read returns success. -/
  | serve (reader : Nat) (client : Client) (key : ObjectKey) (version : Version)
      (cacheUsed : Bool)
  /-- The read returns an error. -/
  | abandon (reader : Nat)
  /-- `DummyClient::get_buffer` by `acquire_hot_cache` of the real client. -/
  | acquire (reader : Nat) (client : Client) (key : ObjectKey) (version : Version)
  | publish (client : Client) (key : ObjectKey) (position : Nat)
  | evict (client : Client) (key : ObjectKey)
  /-- The first `RemoveHotKey` of `Upsert`. -/
  | upsertBegin (writer : Nat) (client : Client) (key : ObjectKey)
  /-- `UpsertEnd` at the master. -/
  | upsertCommit (writer : Nat) (client : Client) (key : ObjectKey) (version : Version)
  /-- The second `RemoveHotKey` of `Upsert`. -/
  | upsertClear (writer : Nat) (client : Client) (key : ObjectKey) (version : Version)
  | upsertReturn (writer : Nat) (client : Client) (key : ObjectKey) (version : Version)
  /-- `RemoveHotKey` of `Put`. -/
  | putBegin (writer : Nat) (client : Client) (key : ObjectKey)
  /-- `PutEnd` at the master. -/
  | putCommit (writer : Nat) (client : Client) (key : ObjectKey) (version : Version)
  /-- `PutStart` finds the object; `Put` returns success. -/
  | putExists (writer : Nat) (client : Client) (key : ObjectKey) (version : Version)
  | putReturn (writer : Nat) (client : Client) (key : ObjectKey) (version : Version)
  /-- `BumpKeyGeneration` of `Remove`. -/
  | removeBegin (writer : Nat) (client : Client) (key : ObjectKey)
  | removeCommit (writer : Nat) (client : Client) (key : ObjectKey)
  /-- `RemoveHotKey` of `Remove`. -/
  | removeClear (writer : Nat) (client : Client) (key : ObjectKey)
  | removeReturn (writer : Nat) (client : Client) (key : ObjectKey)
  /-- The operation returns an error; its commit may have reached the master. -/
  | fail (writer : Nat)
  deriving DecidableEq, Repr

namespace Action

def cacheOp : Action → Option (Client × ObjectKey × CacheOp)
  | .fill _ client key version => some (client, key, .submitPutTask version)
  | .publish client key position => some (client, key, .publish position)
  | .evict client key => some (client, key, .evict)
  | .upsertBegin _ client key => some (client, key, .removeHotKey)
  | .upsertClear _ client key _ => some (client, key, .removeHotKey)
  | .putBegin _ client key => some (client, key, .removeHotKey)
  | .removeBegin _ client key => some (client, key, .bumpKeyGeneration)
  | .removeClear _ client key => some (client, key, .removeHotKey)
  | _ => none

def masterOp : Action → Option (ObjectKey × MasterOp)
  | .upsertCommit _ _ key _ => some (key, .commit)
  | .putCommit _ _ key _ => some (key, .commit)
  | .removeCommit _ _ key => some (key, .remove)
  | _ => none

end Action

inductive Move where
  | none
  | reader (reader : Nat) (phase : ReaderPhase)
  | writer (writer : Nat) (phase : WriterPhase)

namespace State

/-- A memory replica is redirected when the block has its size. -/
def redirects (net : Network) (state : State) (client : Client) (key : ObjectKey)
    (version : Version) : Bool :=
  match (state.caches client key).block with
  | Option.none => false
  | some hot => net.size key version = net.size key hot

/-- The guard of an action, and the phase it leads to. -/
def advance (net : Network) (state : State) : Action → Option Move
  | .query reader client key version =>
    if state.readers reader = .idle ∧ (state.master key).live = some version then
      some (.reader reader (.queried client key version))
    else Option.none
  | .redirect reader client key version hot =>
    if state.readers reader = .queried client key version ∧
        (state.caches client key).block = some hot ∧
        state.redirects net client key version = true then
      some (.reader reader (.pinned client key hot))
    else Option.none
  | .miss reader client key version inMemory =>
    if state.readers reader = .queried client key version ∧
        (inMemory && state.redirects net client key version) = false then
      some (.reader reader (.missed client key version))
    else Option.none
  | .transfer reader client key version read =>
    if state.readers reader = .missed client key version ∧ version ≤ read ∧
        read ≤ (state.master key).clock then
      some (.reader reader (.fetched client key read false))
    else Option.none
  | .transferHot reader client key version =>
    if state.readers reader = .pinned client key version then
      some (.reader reader (.fetched client key version true))
    else Option.none
  | .fill reader client key version =>
    if state.readers reader = .fetched client key version false ∧
        net.hotCache client = true then
      some .none
    else Option.none
  | .serve reader client key version cacheUsed =>
    if state.readers reader = .fetched client key version cacheUsed then
      some (.reader reader .done)
    else Option.none
  | .abandon reader =>
    if state.readers reader = .idle then Option.none else some (.reader reader .done)
  | .acquire reader client key version =>
    if state.readers reader = .idle ∧ (state.caches client key).block = some version then
      some (.reader reader .done)
    else Option.none
  | .publish client key position =>
    if position < (state.caches client key).fills.length then some .none else Option.none
  | .evict _ _ => some .none
  | .upsertBegin writer client key =>
    if state.writers writer = .idle then some (.writer writer (.upsertStarted client key))
    else Option.none
  | .upsertCommit writer client key version =>
    if state.writers writer = .upsertStarted client key ∧
        version = (state.master key).clock + 1 then
      some (.writer writer (.upsertCommitted client key version))
    else Option.none
  | .upsertClear writer client key version =>
    if state.writers writer = .upsertCommitted client key version then
      some (.writer writer (.upsertCleared client key version))
    else Option.none
  | .upsertReturn writer client key version =>
    if state.writers writer = .upsertCleared client key version then
      some (.writer writer .done)
    else Option.none
  | .putBegin writer client key =>
    if state.writers writer = .idle then some (.writer writer (.putStarted client key))
    else Option.none
  | .putCommit writer client key version =>
    if state.writers writer = .putStarted client key ∧
        (state.master key).live = Option.none ∧ version = (state.master key).clock + 1 then
      some (.writer writer (.putCommitted client key version))
    else Option.none
  | .putExists writer client key version =>
    if state.writers writer = .putStarted client key ∧
        (state.master key).live = some version then
      some (.writer writer (.putCommitted client key version))
    else Option.none
  | .putReturn writer client key version =>
    if state.writers writer = .putCommitted client key version then
      some (.writer writer .done)
    else Option.none
  | .removeBegin writer client key =>
    if state.writers writer = .idle then some (.writer writer (.removeStarted client key))
    else Option.none
  | .removeCommit writer client key =>
    if state.writers writer = .removeStarted client key then
      some (.writer writer (.removeCommitted client key))
    else Option.none
  | .removeClear writer client key =>
    if state.writers writer = .removeCommitted client key then
      some (.writer writer (.removeCleared client key))
    else Option.none
  | .removeReturn writer client key =>
    if state.writers writer = .removeCleared client key then some (.writer writer .done)
    else Option.none
  | .fail writer =>
    if state.writers writer = .idle then Option.none else some (.writer writer .done)

def cachesAfter (state : State) (action : Action) (client : Client) (key : ObjectKey) :
    CacheEntry :=
  match action.cacheOp with
  | Option.none => state.caches client key
  | some (client', key', op) =>
    if client = client' ∧ key = key' then (state.caches client key).apply op
    else state.caches client key

def masterAfter (state : State) (action : Action) (key : ObjectKey) : MasterEntry :=
  match action.masterOp with
  | Option.none => state.master key
  | some (key', op) =>
    if key = key' then (state.master key).apply op else state.master key

def readersAfter (state : State) : Move → Nat → ReaderPhase
  | .reader reader phase => Function.update state.readers reader phase
  | _ => state.readers

def writersAfter (state : State) : Move → Nat → WriterPhase
  | .writer writer phase => Function.update state.writers writer phase
  | _ => state.writers

def step (net : Network) (state : State) (action : Action) : Option State :=
  (state.advance net action).map fun move =>
    { caches := state.cachesAfter action
      master := state.masterAfter action
      readers := state.readersAfter move
      writers := state.writersAfter move }

end State

/-- The actions can happen in this order from the start. -/
def Possible (net : Network) (actions : List Action) : Prop :=
  (run (State.step net) {} actions).isSome = true

instance (net : Network) (actions : List Action) : Decidable (Possible net actions) :=
  inferInstanceAs (Decidable (_ = true))

end Mooncake.Coherence
