import Mooncake.Library.Balance

/-!
# Construction and destruction of an RDMA context

`construct` opens the device and creates the protection domain, the completion channels, the
epoll descriptor, the completion queues and the worker pool, each of which may fail.  What it
has created until then is recorded in the members of the context, and `deconstruct` releases
what is recorded.  Memory regions and queue pairs belong to later calls.
-/

namespace Mooncake.Rdma

open Library.Balance List

/-- What a context acquires; the array of the channels is freed apart from them. -/
inductive ContextResource where
  | deviceList
  | device
  | protectionDomain
  | channelArray
  | compChannel (index : Nat)
  | epoll
  | completionQueue (index : Nat)
  | workerPool
  deriving DecidableEq, Repr

inductive ContextEvent where
  | acquired (resource : ContextResource)
  | released (resource : ContextResource)
  deriving DecidableEq, Repr

def contextAccount : Account ContextEvent ContextResource where
  acquires
    | .acquired resource => some resource
    | .released _ => none
  releases
    | .acquired _ => none
    | .released resource => some resource

/-! ## The calls -/

/-- What the checks of a device that was opened answer, in their order; the GPUs are those
that the topology maps to it. -/
structure DeviceChecks where
  queryPort : Bool
  portActive : Bool
  queryDevice : Bool
  gpus : List Bool
  queryPortAttr : Bool
  gidFound : Bool
  queryGid : Bool
  gidSet : Bool

def DeviceChecks.pass (checks : DeviceChecks) : Bool :=
  checks.queryPort && checks.portActive && checks.queryDevice && checks.gpus.all id &&
    checks.queryPortAttr && checks.gidFound && checks.queryGid && checks.gidSet

structure ConstructAnswers where
  deviceList : Option (List String)
  openDevice : Bool
  checks : DeviceChecks
  allocPd : Bool
  createCompChannel : Nat → Bool
  epollCreate : Bool
  joinAsync : Bool
  joinChannel : Nat → Bool
  createCq : Nat → Bool

/-- The members that `deconstruct` looks at.  An array of channels and a list of queues are
given by the indices at which they are not null. -/
structure ContextMembers where
  context : Bool := false
  pd : Bool := false
  compChannel : Option (List Nat) := none
  eventFd : Bool := false
  cqList : List Nat := []
  workerPool : Bool := false

structure Constructed where
  succeeded : Bool
  members : ContextMembers
  events : List ContextEvent

/-- Whether the device is kept, and the events. -/
def openRdmaDevice (answers : ConstructAnswers) (deviceName : String) :
    Bool × List ContextEvent :=
  match answers.deviceList with
  | none => (false, [])
  | some devices =>
    if deviceName ∉ devices ∨ !answers.openDevice then
      (false, [.acquired .deviceList, .released .deviceList])
    else if !answers.checks.pass then
      (false, [.acquired .deviceList, .acquired .device, .released .device, .released .deviceList])
    else (true, [.acquired .deviceList, .acquired .device, .released .deviceList])

/-- A loop that creates one object after the other and returns at the first failure. -/
def createdUntil (answer : Nat → Bool) (count : Nat) : List Nat :=
  (List.range count).takeWhile answer

def acquireAll (resources : List ContextResource) : List ContextEvent :=
  resources.map .acquired

/-- `construct` from the epoll descriptor on, with the channels that were created. -/
def constructPolling (answers : ConstructAnswers) (numCqList : Nat) (channels : List Nat)
    (events : List ContextEvent) : Constructed :=
  let members : ContextMembers := { context := true, pd := true, compChannel := some channels }
  if !answers.epollCreate then ⟨false, members, events⟩
  else if !answers.joinAsync || !channels.all answers.joinChannel then
    ⟨false, members, events ++ acquireAll [.epoll] ++ [.released .epoll]⟩
  else
    let cqs := createdUntil answers.createCq numCqList
    let events := events ++ acquireAll (.epoll :: cqs.map .completionQueue)
    if cqs.length < numCqList then
      ⟨false, { members with cqList := cqs }, events ++ [.released .epoll]⟩
    else
      ⟨true, { members with eventFd := true, cqList := cqs, workerPool := true },
        events ++ acquireAll [.workerPool]⟩

def construct (answers : ConstructAnswers) (deviceName : String)
    (numCqList numCompChannels : Nat) : Constructed :=
  match openRdmaDevice answers deviceName with
  | (false, events) => ⟨false, {}, events⟩
  | (true, events) =>
    if !answers.allocPd then ⟨false, { context := true }, events⟩
    else
      let channels := createdUntil answers.createCompChannel numCompChannels
      let events := events ++ acquireAll (.protectionDomain :: .channelArray ::
        channels.map .compChannel)
      if channels.length < numCompChannels then
        ⟨false, { context := true, pd := true, compChannel := some channels }, events⟩
      else constructPolling answers numCqList channels events

namespace ContextMembers

variable (members : ContextMembers)

/-- The resources that are recorded, in the order in which they are acquired. -/
def held : List ContextResource :=
  (if members.context then [.device] else []) ++
    (if members.pd then [.protectionDomain] else []) ++
    (match members.compChannel with
      | some channels => .channelArray :: channels.map .compChannel
      | none => []) ++
    (if members.eventFd then [.epoll] else []) ++
    members.cqList.map .completionQueue ++
    if members.workerPool then [.workerPool] else []

/-- The same resources, as `deconstruct` comes to them. -/
def releaseOrder : List ContextResource :=
  (if members.workerPool then [.workerPool] else []) ++
    members.cqList.map .completionQueue ++
    (if members.eventFd then [.epoll] else []) ++
    (match members.compChannel with
      | some channels => channels.map .compChannel ++ [.channelArray]
      | none => []) ++
    (if members.pd then [.protectionDomain] else []) ++
    if members.context then [.device] else []

/-- Every member is reset. -/
def deconstruct : List ContextEvent × ContextMembers :=
  (members.releaseOrder.map .released, {})

/-- The destructor. -/
def destroy : List ContextEvent × ContextMembers :=
  if members.context then members.deconstruct else ([], members)

end ContextMembers

/-! ## Balance -/

@[simp]
theorem acquired_acquireAll (resources : List ContextResource) :
    contextAccount.acquired (acquireAll resources) = resources := by
  simp [Account.acquired, acquireAll, contextAccount, filterMap_map]

@[simp]
theorem released_acquireAll (resources : List ContextResource) :
    contextAccount.released (acquireAll resources) = [] := by
  simp [Account.released, acquireAll, contextAccount, filterMap_map]

section Construct

variable {answers : ConstructAnswers} {deviceName : String} {numCqList numCompChannels : Nat}
  {events : List ContextEvent} {kept : List ContextResource}

theorem keeps_acquireAll (keeps : contextAccount.Keeps events kept)
    (resources : List ContextResource) :
    contextAccount.Keeps (events ++ acquireAll resources) (kept ++ resources) :=
  keeps.acquire (released_acquireAll resources) (acquired_acquireAll resources)

/-- The list is always freed; the device stays only when every check passes. -/
theorem openRdmaDevice_keeps {opened : Bool}
    (done : openRdmaDevice answers deviceName = (opened, events)) :
    contextAccount.Keeps events (if opened then [.device] else []) := by
  have listed : contextAccount.Keeps [.acquired .deviceList] [.deviceList] :=
    Account.Keeps.nil.acquire rfl rfl
  have found : contextAccount.Keeps [.acquired .deviceList, .acquired .device]
      [.deviceList, .device] :=
    listed.acquire rfl rfl
  unfold openRdmaDevice at done
  split at done
  · cases done
    exact .nil
  · split at done
    · cases done
      exact listed.release ⟨rfl, .refl _⟩ (.refl _)
    · split at done
      · cases done
        exact found.release ⟨rfl, .refl _⟩ (.swap ..)
      · cases done
        exact found.release ⟨rfl, .refl _⟩ (.refl _)

theorem constructPolling_keeps {channels : List Nat}
    (keeps : contextAccount.Keeps events
      (.device :: .protectionDomain :: .channelArray :: channels.map .compChannel)) :
    contextAccount.Keeps (constructPolling answers numCqList channels events).events
      (constructPolling answers numCqList channels events).members.held := by
  have closed : contextAccount.Returns [.released .epoll] [.epoll] := ⟨rfl, .refl _⟩
  have created := keeps_acquireAll keeps
    (.epoll :: (createdUntil answers.createCq numCqList).map .completionQueue)
  unfold constructPolling
  dsimp only
  split
  · simpa [ContextMembers.held] using keeps
  · split
    · refine (keeps_acquireAll keeps [.epoll]).release closed (perm_append_comm.trans ?_)
      simp [ContextMembers.held]
    · split
      · refine created.release closed (perm_middle.trans ?_)
        simp [ContextMembers.held]
      · simpa [ContextMembers.held] using keeps_acquireAll created [.workerPool]

theorem construct_keeps :
    contextAccount.Keeps (construct answers deviceName numCqList numCompChannels).events
      (construct answers deviceName numCqList numCompChannels).members.held := by
  unfold construct
  split
  · rename_i done
    exact openRdmaDevice_keeps done
  · rename_i done
    have device := openRdmaDevice_keeps done
    have created := keeps_acquireAll device (.protectionDomain :: .channelArray ::
      (createdUntil answers.createCompChannel numCompChannels).map .compChannel)
    split
    · exact device
    · dsimp only
      split
      · simpa [ContextMembers.held] using created
      · exact constructPolling_keeps created

theorem members_of_no_device
    (unopened : (construct answers deviceName numCqList numCompChannels).members.context = false) :
    (construct answers deviceName numCqList numCompChannels).members = {} := by
  unfold construct at unopened ⊢
  split at unopened
  · rfl
  · split at unopened
    · cases unopened
    · dsimp only at unopened
      split at unopened
      · cases unopened
      · unfold constructPolling at unopened
        dsimp only at unopened
        split at unopened
        · cases unopened
        · split at unopened
          · cases unopened
          · split at unopened <;> cases unopened

end Construct

theorem ContextMembers.held_perm (members : ContextMembers) :
    members.held.Perm members.releaseOrder := by
  obtain ⟨context, pd, channels, eventFd, cqs, workerPool⟩ := members
  refine perm_iff_count.mpr fun resource => ?_
  cases channels <;>
    simp only [held, releaseOrder, count_append, count_cons, count_nil] <;> omega

theorem ContextMembers.deconstruct_returns (members : ContextMembers) :
    contextAccount.Returns members.deconstruct.1 members.releaseOrder := by
  constructor <;>
    simp [deconstruct, Account.acquired, Account.released, contextAccount, filterMap_map]

/-- Whether `construct` succeeds or fails at any point, what it acquired is released exactly
once by `deconstruct`, and as well by the destructor.  A second run of either releases
nothing. -/
theorem construct_released_once (answers : ConstructAnswers) (deviceName : String)
    (numCqList numCompChannels : Nat) :
    let constructed := construct answers deviceName numCqList numCompChannels
    let deconstructed := constructed.members.deconstruct
    contextAccount.Balanced (constructed.events ++ deconstructed.1) [] ∧
      constructed.members.destroy.1 = deconstructed.1 ∧
      deconstructed.2.deconstruct.1 = [] ∧ deconstructed.2.destroy.1 = [] := by
  refine ⟨(construct_keeps.release (ContextMembers.deconstruct_returns _) ?_).balanced, ?_,
    rfl, rfl⟩
  · rw [append_nil]
    exact ContextMembers.held_perm _
  · unfold ContextMembers.destroy
    split
    · rfl
    · rename_i unopened
      rw [members_of_no_device (by simpa using unopened)]
      rfl

end Mooncake.Rdma
