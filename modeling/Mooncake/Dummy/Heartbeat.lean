import Mooncake.Shm.Contexts

/-!
# Heartbeat of a dummy client

A dummy client registers its shared memories with the real client over a socket and pings
it from a thread of its own; after a failed ping the thread registers all memories again.
The real client queues the pings, and its monitor forgets a client whose pings stay away.
Each thread moves by steps of its own, a request is served and answered in separate steps,
and the real client may be replaced between any two of them.

The generations of the real client and the counters `losses`, `since` and `mark` are read by
no step.  They count how often the real client was replaced or forgot the client, and
remember when the memories were registered.
-/

namespace Mooncake.Dummy.Heartbeat

open Segment (UUID)
open Shm

/-! ## The real client -/

inductive MonitorPhase where
  | sleeping
  | draining (now : Nat)
  | expiring (clients : List UUID)
  deriving DecidableEq, Repr

structure RealClient where
  generation : Nat
  shms : ShmState := {}
  pingQueue : List UUID := []
  clientTtl : AList fun _ : UUID => Nat := ∅
  monitor : MonitorPhase := .sleeping

inductive ClientStatus where
  | undefined
  | ok
  deriving DecidableEq, Repr

/-- What a ping finds: the client object and its health, and the room in the queue. -/
structure PingAnswers where
  clientReady : Bool
  pingHealthy : Bool
  pushed : Bool
  deriving DecidableEq, Repr

def RealClient.ping (real : RealClient) (clientId : UUID) (answers : PingAnswers) :
    Expected ClientStatus × RealClient :=
  if !answers.clientReady then (.error .internalError, real)
  else if !answers.pushed then (.error .internalError, real)
  else
    (.ok (if answers.pingHealthy then .ok else .undefined),
      { real with pingQueue := real.pingQueue ++ [clientId] })

/-- What a registration finds: the descriptor that was received, `mmap` and the engine. -/
structure RegisterAnswers where
  receivedFd : Option Nat
  map : MapAnswers

structure ShmRegisterRequest where
  clientId : UUID
  dummyBaseAddr : UInt64
  shmSize : UInt64
  isLocalBuffer : Bool

/-- `handle_ipc_shm_register`; without a status the client does not get an answer. -/
def RealClient.handleIpcShmRegister (real : RealClient) (maxMrSize : Nat)
    (request : ShmRegisterRequest) (answers : RegisterAnswers) : Option Int × RealClient :=
  match answers.receivedFd with
  | none => (none, real)
  | some fd =>
    let mapping : MapRequest :=
      { fd := fd
        dummyBaseAddr := request.dummyBaseAddr
        shmSize := request.shmSize
        isLocalBuffer := request.isLocalBuffer
        clientId := request.clientId }
    let (result, shms) := mapping.mapShmInternal maxMrSize answers.map real.shms
    (some (if result = .ok () then 0 else -1), { real with shms := shms })

/-! ### The monitor -/

namespace RealClient

variable (real : RealClient)

def monitorWake (clock : Nat) : Option RealClient :=
  match real.monitor with
  | .sleeping => some { real with monitor := .draining clock }
  | _ => none

def monitorPop (liveTtl : Nat) : Option RealClient :=
  match real.monitor, real.pingQueue with
  | .draining now, client :: rest =>
    some { real with
      pingQueue := rest
      clientTtl := real.clientTtl.insert client (now + liveTtl) }
  | _, _ => none

def expiredClients (now : Nat) : List UUID :=
  real.clientTtl.keys.filter fun client =>
    match real.clientTtl.lookup client with
    | some ttl => ttl < now
    | none => false

/-- The queue is empty, and the expired clients leave the table. -/
def monitorScan : Option RealClient :=
  match real.monitor, real.pingQueue with
  | .draining now, [] =>
    some { real with
      clientTtl := (real.expiredClients now).foldl (fun table client => table.erase client)
        real.clientTtl
      monitor := .expiring (real.expiredClients now) }
  | _, _ => none

/-- The next expired client is unmapped, or the monitor goes to sleep. -/
def monitorExpire (unregister : Nat → Bool) : Option RealClient :=
  match real.monitor with
  | .expiring [] => some { real with monitor := .sleeping }
  | .expiring (client :: rest) =>
    some { real with
      shms := (unmapShmInternal client unregister real.shms).2
      monitor := .expiring rest }
  | _ => none

end RealClient

/-! ## The dummy client -/

/-- `ShmSegment`, with the number of losses when it was last mapped. -/
structure ShmSegment where
  base : UInt64
  size : UInt64
  fd : Int
  isLocal : Bool := false
  registered : Bool := false
  mark : Option Nat := none
  deriving DecidableEq, Repr

/-- Where the ping thread is.  `scanning`, `registering` and `answered` are the round of the
reconnection loop, with the index of the memory it has come to. -/
inductive PingPhase where
  | stopped
  | pinging
  | pinged (status : Expected ClientStatus) (generation : Nat)
  | sleeping
  | scanning (index : Nat)
  | registering (index : Nat)
  | answered (index : Nat) (status : Option Int)
  | checking
  | checked (status : Expected ClientStatus) (generation : Nat)
  | retrying
  deriving DecidableEq

/-- Where the application is in `register_buffer`, or in the registration of `setup_dummy`. -/
inductive AppPhase where
  | idle
  | registering (base : UInt64) (setup : Bool)
  | answered (base : UInt64) (setup : Bool) (status : Option Int)
  deriving DecidableEq, Repr

structure LinkConfig where
  clientId : UUID
  maxMrSize : Nat
  liveTtl : Nat
  hugepageSize : Option UInt64 := none

/-- Both processes.  `lastPing` is the real client that answered the last ping with OK. -/
structure Link where
  config : LinkConfig
  clock : Nat := 0
  real : RealClient
  connected : Bool := true
  lastPing : Option Nat := none
  shms : List ShmSegment := []
  pingThread : PingPhase := .stopped
  app : AppPhase := .idle
  losses : Nat := 0
  since : Nat := 0

def alignUp (size alignment : UInt64) : UInt64 :=
  (size + alignment - 1) / alignment * alignment

namespace Link

variable (link : Link)

def updateShms (base : UInt64) (change : ShmSegment → ShmSegment) : Link :=
  { link with shms := link.shms.map fun shm => if shm.base = base then change shm else shm }

def getShm (buffer : UInt64) : Option ShmSegment :=
  link.shms.find? fun shm =>
    shm.base.toNat ≤ buffer.toNat ∧ buffer.toNat < shm.base.toNat + shm.size.toNat

/-! ### The application -/

def allocate (base size : UInt64) (fd : Int) : Option Link :=
  if link.app = .idle then
    some { link with shms := link.shms ++ [{ base := base, size := size, fd := fd }] }
  else none

/-- `register_shm_via_ipc` begins; without a descriptor nothing is sent. -/
def beginRegister (shm : ShmSegment) (setup : Bool) : Link :=
  if shm.fd < 0 then { link with app := .answered shm.base setup none }
  else { link with app := .registering shm.base setup }

def setupLocal (base : UInt64) : Option Link :=
  if link.app = .idle ∧ link.pingThread = .stopped then
    (link.getShm base).map fun shm => link.beginRegister shm true
  else none

/-- The last statement of `setup_dummy`. -/
def startPing : Option Link :=
  if link.app = .idle ∧ link.pingThread = .stopped then some { link with pingThread := .pinging }
  else none

/-- The size of a buffer, in whole huge pages where they are used. -/
def alignedSize (size : UInt64) : UInt64 :=
  match link.config.hugepageSize with
  | some hugepage => alignUp size hugepage
  | none => size

def registerBuffer (buffer size : UInt64) : Option Link :=
  if link.app = .idle then
    if buffer = 0 then some link
    else
      match link.getShm buffer with
      | none => some link
      | some shm =>
        if buffer ≠ shm.base ∨ link.alignedSize size ≠ shm.size then some link
        else if shm.registered then some link
        else some (link.beginRegister shm false)
  else none

def serveRegister (shm : ShmSegment) (isLocal : Bool) (answers : RegisterAnswers) :
    Option Int × Link :=
  let (status, real) := link.real.handleIpcShmRegister link.config.maxMrSize
    { clientId := link.config.clientId
      dummyBaseAddr := shm.base
      shmSize := shm.size
      isLocalBuffer := isLocal } answers
  let served := { link with real := real }
  (status,
    if status = some 0 then
      served.updateShms shm.base fun other => { other with mark := some link.losses }
    else served)

def serveApp (answers : RegisterAnswers) : Option Link :=
  match link.app with
  | .registering base setup =>
    (link.shms.find? fun shm => shm.base = base).map fun shm =>
      let (status, served) := link.serveRegister shm (setup || shm.isLocal) answers
      { served with app := .answered base setup status }
  | _ => none

/-- The call is over.  A success is noted, and a failed setup frees the segment. -/
def finishRegister (base : UInt64) (setup succeeded : Bool) : Link :=
  if succeeded then
    { link.updateShms base fun shm =>
        { shm with registered := true, isLocal := setup || shm.isLocal } with app := .idle }
  else if setup then
    { link with shms := link.shms.filter fun shm => shm.base ≠ base, app := .idle }
  else { link with app := .idle }

def receiveApp (delivered : Bool) : Option Link :=
  match link.app with
  | .registering base setup =>
    if delivered then none else some (link.finishRegister base setup false)
  | .answered base setup status =>
    some (link.finishRegister base setup (delivered && decide (status = some 0)))
  | .idle => none

/-! ### The ping thread -/

/-- A sleep of the ping thread ends.  A round begins with the first segment. -/
def wake : Option Link :=
  match link.pingThread with
  | .sleeping => some { link with pingThread := .pinging }
  | .retrying => some { link with pingThread := .scanning 0, since := link.losses }
  | _ => none

def servePing (answers : PingAnswers) : Option Link :=
  let (status, real) := link.real.ping link.config.clientId answers
  match link.pingThread with
  | .pinging =>
    some { link with real := real, pingThread := .pinged status link.real.generation }
  | .checking =>
    some { link with real := real, pingThread := .checked status link.real.generation }
  | _ => none

/-- A ping is over; `max_ping_fail_count` is 1. -/
def afterPing (answer : Option Nat) : Link :=
  match answer with
  | some generation => { link with lastPing := some generation, pingThread := .sleeping }
  | none =>
    { link with
      lastPing := none
      connected := false
      pingThread := .scanning 0
      since := link.losses }

def afterCheck (answer : Option Nat) : Link :=
  match answer with
  | some generation =>
    { link with lastPing := some generation, connected := true, pingThread := .pinging }
  | none => { link with pingThread := .retrying }

def okAnswer (delivered : Bool) (status : Expected ClientStatus) (generation : Nat) : Option Nat :=
  if delivered ∧ status = .ok .ok then some generation else none

def receivePing (delivered : Bool) : Option Link :=
  match link.pingThread with
  | .pinging => if delivered then none else some (link.afterPing none)
  | .pinged status generation => some (link.afterPing (okAnswer delivered status generation))
  | .checking => if delivered then none else some (link.afterCheck none)
  | .checked status generation => some (link.afterCheck (okAnswer delivered status generation))
  | _ => none

def scan : Option Link :=
  match link.pingThread with
  | .scanning index =>
    match link.shms[index]? with
    | none => some { link with pingThread := .checking }
    | some shm =>
      if !shm.registered then some { link with pingThread := .scanning (index + 1) }
      else if shm.fd < 0 then some { link with pingThread := .retrying }
      else some { link with pingThread := .registering index }
  | _ => none

def serveRound (answers : RegisterAnswers) : Option Link :=
  match link.pingThread with
  | .registering index =>
    link.shms[index]?.map fun shm =>
      let (status, served) := link.serveRegister shm shm.isLocal answers
      { served with pingThread := .answered index status }
  | _ => none

def receiveRound (delivered : Bool) : Option Link :=
  match link.pingThread with
  | .registering _ => if delivered then none else some { link with pingThread := .retrying }
  | .answered index status =>
    if delivered ∧ status = some 0 then some { link with pingThread := .scanning (index + 1) }
    else some { link with pingThread := .retrying }
  | _ => none

/-! ### The real client -/

/-- The step of the monitor, in which it may forget the client. -/
def expire (unregister : Nat → Bool) : Option Link :=
  (link.real.monitorExpire unregister).map fun real =>
    { link with
      real := real
      losses := match link.real.monitor with
        | .expiring (client :: _) =>
          if client = link.config.clientId then link.losses + 1 else link.losses
        | _ => link.losses }

def restart : Link :=
  { link with
    real := { generation := link.real.generation + 1 }
    losses := link.losses + 1 }

end Link

/-! ## All steps -/

inductive LinkAction where
  | tick (duration : Nat)
  | allocate (base size : UInt64) (fd : Int)
  | setupLocal (base : UInt64)
  | startPing
  | registerBuffer (buffer size : UInt64)
  | serveApp (answers : RegisterAnswers)
  | receiveApp (delivered : Bool)
  | wake
  | servePing (answers : PingAnswers)
  | receivePing (delivered : Bool)
  | scan
  | serveRound (answers : RegisterAnswers)
  | receiveRound (delivered : Bool)
  | otherPing (client : UUID)
  | monitorWake
  | monitorPop
  | monitorScan
  | expire (unregister : Nat → Bool)
  | restart

/-- A step is refused when its thread is elsewhere. -/
def Link.step (link : Link) : LinkAction → Option Link
  | .tick duration => some { link with clock := link.clock + duration }
  | .allocate base size fd => link.allocate base size fd
  | .setupLocal base => link.setupLocal base
  | .startPing => link.startPing
  | .registerBuffer buffer size => link.registerBuffer buffer size
  | .serveApp answers => link.serveApp answers
  | .receiveApp delivered => link.receiveApp delivered
  | .wake => link.wake
  | .servePing answers => link.servePing answers
  | .receivePing delivered => link.receivePing delivered
  | .scan => link.scan
  | .serveRound answers => link.serveRound answers
  | .receiveRound delivered => link.receiveRound delivered
  | .otherPing client =>
    some { link with
      real := { link.real with pingQueue := link.real.pingQueue ++ [client] } }
  | .monitorWake => (link.real.monitorWake link.clock).map fun real => { link with real := real }
  | .monitorPop =>
    (link.real.monitorPop link.config.liveTtl).map fun real => { link with real := real }
  | .monitorScan => link.real.monitorScan.map fun real => { link with real := real }
  | .expire unregister => link.expire unregister
  | .restart => some link.restart

end Mooncake.Dummy.Heartbeat
