import Mooncake.Library.Indexed
import Mooncake.Library.Keyed
import Mooncake.Types

/-!
# Reads of the store client

`Get`, its range form and `BatchGet` with both of its paths.  A run records, in
the order of the source, every access to the hot cache, every transfer, every
clock reading, every call of `ProcessSlicesAsync` and every task it submits.
`ReadAnswers` is what the hot cache, the transfer engine, the admission sketch and
the clock return to one call; each of them is asked at most once for each key of
the call.
-/

namespace Mooncake.Read

open Library.Indexed Library.Keyed

/-! ## Queries, events and the environment -/

/-- `QueryResult`; times are signed, as those of a steady clock. -/
structure QueryResult where
  replicas : List Replica
  leaseTimeout : Int
  deriving DecidableEq, Repr

def QueryResult.isLeaseExpired (query : QueryResult) (now : Int) : Bool :=
  decide (query.leaseTimeout ≤ now)

/-- The part of `HotMemBlock` that a read uses. -/
structure HotMemBlock where
  addr : Nat
  size : Nat
  deriving DecidableEq, Repr

/-- The arguments of a call of `ProcessSlicesAsync`, and the index of the read it follows. -/
structure FillCall where
  index : Nat
  key : ObjectKey
  slices : List Slice
  replica : Replica
  deriving DecidableEq, Repr

inductive ReadEvent where
  | getHotKey (key : ObjectKey) (block : Option HotMemBlock)
  | releaseHotKey (key : ObjectKey)
  | transferred (index : Nat) (slices : List Slice) (outcome : ErrorCode)
  | clock (reading : Int)
  | processSlicesAsync (call : FillCall)
  | submitPutTask (key : ObjectKey) (slice : Slice) (accepted : Bool)
  deriving DecidableEq, Repr

/-- The settings of the client object.  `localEndpoint` is the transport
endpoint or the local host name, whichever the handshake mode selects. -/
structure Reader where
  transferSubmitter : Bool := true
  hotCache : Bool := true
  hotCacheIsShm : Bool := false
  localEndpoint : String := ""
  deriving DecidableEq, Repr

/-- The environment of one call.  The order in which the segment map is walked
is unspecified. -/
structure ReadAnswers where
  getHotKey : Nat → ObjectKey → Option HotMemBlock
  submit : Nat → Replica → List Slice → Option TransferFuture
  submitBatch : List Replica → List (List Slice) → Option TransferFuture
  submitRangeRead : Replica → List Slice → Nat → Option TransferFuture
  admission : Nat → ObjectKey → Bool
  submitPutTask : Nat → Nat → Bool
  clock : Nat → Int
  segmentOrder : List String → List String
  segmentOrder_perm : ∀ segments, (segmentOrder segments).Perm segments

structure ReadCall where
  result : Expected Unit
  events : List ReadEvent

structure BatchReadCall where
  results : List (Expected Unit)
  events : List ReadEvent

/-! ## Helpers -/

def findFirstCompleteReplica (replicas : List Replica) : Expected Replica :=
  match replicas.find? fun replica => replica.status = .complete with
  | some replica => .ok replica
  | none => .error .invalidReplica

/-- The size that `TransferRead` demands of the slices. -/
def totalSize (replica : Replica) : Nat :=
  match replica.descriptor with
  | .memory buffer => buffer.size.toNat
  | .nof buffer => buffer.size.toNat
  | .disk descriptor => descriptor.objectSize.toNat
  | .localDisk descriptor => descriptor.objectSize.toNat

theorem totalSize_lt (replica : Replica) : totalSize replica < 2 ^ 64 := by
  unfold totalSize
  split <;> exact UInt64.toNat_lt _

def isReplicaOnLocalMemory (reader : Reader) (replica : Replica) : Bool :=
  match replica.descriptor with
  | .memory buffer => buffer.transportEndpoint = reader.localEndpoint
  | _ => false

structure Redirect where
  replica : Replica
  cacheUsed : Bool := false
  events : List ReadEvent := []

def redirectToHotCache (reader : Reader) (answers : ReadAnswers) (index : Nat)
    (key : ObjectKey) (replica : Replica) : Redirect :=
  match replica.descriptor with
  | .memory buffer =>
    if reader.hotCache then
      match answers.getHotKey index key with
      | none => { replica := replica, events := [.getHotKey key none] }
      | some block =>
        if buffer.size.toNat ≠ block.size then
          { replica := replica, events := [.getHotKey key (some block)] }
        else
          { replica :=
              { replica with
                descriptor := .memory
                  { buffer with
                    transportEndpoint := reader.localEndpoint
                    bufferAddress := block.addr } }
            cacheUsed := true
            events := [.getHotKey key (some block)] }
    else { replica := replica }
  | _ => { replica := replica }

def shouldAdmitToHotCache (reader : Reader) (answers : ReadAnswers) (index : Nat)
    (key : ObjectKey) (cacheUsed : Bool) : Bool :=
  reader.hotCache && !cacheUsed && answers.admission index key

/-- The loop of `ProcessSlicesAsync`, which stops at the first refused task. -/
def submitPutTasks (answers : ReadAnswers) (index : Nat) (key : ObjectKey) :
    Nat → List Slice → List ReadEvent
  | _, [] => []
  | position, slice :: rest =>
    if answers.submitPutTask index position then
      .submitPutTask key slice true :: submitPutTasks answers index key (position + 1) rest
    else [.submitPutTask key slice false]

def processSlicesAsync (reader : Reader) (answers : ReadAnswers) (index : Nat)
    (key : ObjectKey) (slices : List Slice) (replica : Replica) : List ReadEvent :=
  if !(reader.hotCache && replica.isMemoryReplica) then []
  else if !reader.hotCacheIsShm && isReplicaOnLocalMemory reader replica then []
  else submitPutTasks answers index key 0 slices

def releaseIfUsed (reader : Reader) (key : ObjectKey) (cacheUsed : Bool) : List ReadEvent :=
  if reader.hotCache && cacheUsed then [.releaseHotKey key] else []

def fillIfAdmitted (reader : Reader) (answers : ReadAnswers) (index : Nat) (key : ObjectKey)
    (slices : List Slice) (replica : Replica) (cacheUsed : Bool) : List ReadEvent :=
  if shouldAdmitToHotCache reader answers index key cacheUsed then
    .processSlicesAsync ⟨index, key, slices, replica⟩ ::
      processSlicesAsync reader answers index key slices replica
  else []

/-! ## Get -/

/-- `TransferRead`: its code and what it did. -/
def transferRead (reader : Reader) (answers : ReadAnswers) (replica : Replica)
    (slices : List Slice) : ErrorCode × List ReadEvent :=
  if calculateSliceSize slices < totalSize replica then (.invalidParams, [])
  else if !reader.transferSubmitter then (.invalidParams, [])
  else
    match answers.submit 0 replica slices with
    | none => (.transferFail, [])
    | some future => (future.outcome, [.transferred 0 slices future.outcome])

def get (reader : Reader) (answers : ReadAnswers) (key : ObjectKey) (query : QueryResult)
    (slices : List Slice) : ReadCall :=
  match findFirstCompleteReplica query.replicas with
  | .error error => ⟨.error error, []⟩
  | .ok replica =>
    let redirect := redirectToHotCache reader answers 0 key replica
    let transfer := transferRead reader answers redirect.replica slices
    let head := redirect.events ++ [.clock (answers.clock 0)] ++ transfer.2 ++
      releaseIfUsed reader key redirect.cacheUsed ++ [.clock (answers.clock 1)]
    if transfer.1 ≠ .ok then ⟨.error transfer.1, head⟩
    else
      let tail := head ++
        fillIfAdmitted reader answers 0 key slices redirect.replica redirect.cacheUsed ++
        [.clock (answers.clock 2)]
      if query.isLeaseExpired (answers.clock 2) then ⟨.error .leaseExpired, tail⟩
      else ⟨.ok (), tail⟩

def transferReadRange (reader : Reader) (answers : ReadAnswers) (replica : Replica)
    (slices : List Slice) (srcOffset : Nat) : ErrorCode × List ReadEvent :=
  if !reader.transferSubmitter then (.invalidParams, [])
  else
    match answers.submitRangeRead replica slices srcOffset with
    | none => (.transferFail, [])
    | some future => (future.outcome, [.transferred 0 slices future.outcome])

/-- `Get` of a range, which does not use the hot cache. -/
def getRange (reader : Reader) (answers : ReadAnswers) (query : QueryResult)
    (slices : List Slice) (srcOffset : Nat) : ReadCall :=
  match findFirstCompleteReplica query.replicas with
  | .error error => ⟨.error error, []⟩
  | .ok replica =>
    if !replica.isMemoryReplica then ⟨.error .invalidReplica, []⟩
    else
      let transfer := transferReadRange reader answers replica slices srcOffset
      let head := [.clock (answers.clock 0)] ++ transfer.2 ++ [.clock (answers.clock 1)]
      if transfer.1 ≠ .ok then ⟨.error transfer.1, head⟩
      else if query.isLeaseExpired (answers.clock 2) then
        ⟨.error .leaseExpired, head ++ [.clock (answers.clock 2)]⟩
      else ⟨.ok (), head ++ [.clock (answers.clock 2)]⟩

/-! ## BatchGet -/

/-- `slices`, from object key to the slices of the request. -/
abbrev SliceMap := AList fun _ : ObjectKey => List Slice

/-- One element of `pending_transfers`. -/
structure PendingRead where
  index : Nat
  key : ObjectKey
  future : TransferFuture
  replica : Replica
  cacheUsed : Bool
  slices : List Slice

/-- A key after the submit loop: its error, or its pending transfer. -/
structure StartedRead where
  outcome : Except ErrorCode PendingRead
  events : List ReadEvent := []

/-- One iteration of the submit loop. -/
def startRead (reader : Reader) (answers : ReadAnswers) (slices : SliceMap) (index : Nat)
    (request : ObjectKey × QueryResult) : StartedRead :=
  match slices.lookup request.1 with
  | none => { outcome := .error .invalidParams }
  | some target =>
    match findFirstCompleteReplica request.2.replicas with
    | .error error => { outcome := .error error }
    | .ok replica =>
      let redirect := redirectToHotCache reader answers index request.1 replica
      match answers.submit index redirect.replica target with
      | none =>
        { outcome := .error .transferFail
          events := redirect.events ++
            releaseIfUsed reader request.1 redirect.cacheUsed }
      | some future =>
        { outcome := .ok
            { index := index
              key := request.1
              future := future
              replica := redirect.replica
              cacheUsed := redirect.cacheUsed
              slices := target }
          events := redirect.events }

/-- One iteration of the wait loop, for the key that `started` belongs to. -/
def finishRead (reader : Reader) (answers : ReadAnswers) (started : StartedRead) : ReadCall :=
  match started.outcome with
  | .error error => ⟨.error error, []⟩
  | .ok pending =>
    let events := .transferred pending.index pending.slices pending.future.outcome ::
        releaseIfUsed reader pending.key pending.cacheUsed
    if pending.future.outcome ≠ .ok then ⟨.error pending.future.outcome, events⟩
    else
      ⟨.ok (), events ++ fillIfAdmitted reader answers pending.index pending.key
        pending.slices pending.replica pending.cacheUsed⟩

/-- The lease check with the shared time point. -/
def checkLease (now : Int) (result : Expected Unit) (query : QueryResult) : Expected Unit :=
  match result with
  | .error error => .error error
  | .ok () => if query.isLeaseExpired now then .error .leaseExpired else .ok ()

/-- `BatchGet` without `prefer_alloc_in_same_node`, after its checks. -/
def batchGetEach (reader : Reader) (answers : ReadAnswers) (slices : SliceMap)
    (requests : List (ObjectKey × QueryResult)) : BatchReadCall :=
  let started := requests.mapIdx fun index request =>
    startRead reader answers slices index request
  let finished := started.map (finishRead reader answers)
  { results := List.zipWith (checkLease (answers.clock 1))
      (finished.map ReadCall.result) (requests.map Prod.snd)
    events := [.clock (answers.clock 0)] ++ started.flatMap StartedRead.events ++
      finished.flatMap ReadCall.events ++
      [.clock (answers.clock 1), .clock (answers.clock 2)] }

/-! ## BatchGet to one replica per node -/

/-- One row of a `BatchGetOperation`. -/
structure SegmentEntry where
  index : Nat
  key : ObjectKey
  replica : Replica
  slices : List Slice
  cacheUsed : Bool

/-- `seg_to_op_map`. -/
abbrev SegmentOps := Groups String SegmentEntry

structure StartedSegmentRead where
  outcome : Except ErrorCode (String × SegmentEntry)
  events : List ReadEvent := []

/-- One iteration of the first loop. -/
def startSegmentRead (reader : Reader) (answers : ReadAnswers) (slices : SliceMap)
    (index : Nat) (request : ObjectKey × QueryResult) : StartedSegmentRead :=
  match slices.lookup request.1 with
  | none => { outcome := .error .invalidParams }
  | some target =>
    match findFirstCompleteReplica request.2.replicas with
    | .error error => { outcome := .error error }
    | .ok replica =>
      if !replica.isMemoryReplica then { outcome := .error .invalidReplica }
      else
        let redirect := redirectToHotCache reader answers index request.1 replica
        match redirect.replica.descriptor with
        | .memory buffer =>
          if buffer.size = 0 then
            { outcome := .error .invalidReplica, events := redirect.events }
          else
            { outcome := .ok (buffer.transportEndpoint,
                { index := index
                  key := request.1
                  replica := redirect.replica
                  slices := target
                  cacheUsed := redirect.cacheUsed })
              events := redirect.events }
        | _ => { outcome := .error .invalidReplica, events := redirect.events }

/-- What one segment does after the first loop: the releases of a refused
batch, the events of an accepted one, and the result of each of its keys. -/
structure SegmentRead where
  refusal : List ReadEvent := []
  completion : List ReadEvent := []
  results : List (Nat × Expected Unit) := []

def readSegment (reader : Reader) (answers : ReadAnswers) (entries : List SegmentEntry) :
    SegmentRead :=
  match answers.submitBatch (entries.map SegmentEntry.replica)
      (entries.map SegmentEntry.slices) with
  | none =>
    { refusal := entries.flatMap fun entry => releaseIfUsed reader entry.key entry.cacheUsed
      results := entries.map fun entry => (entry.index, .error .transferFail) }
  | some future =>
    let completed := entries.map fun entry =>
      ReadEvent.transferred entry.index entry.slices future.outcome
    if future.outcome ≠ .ok then
      { completion := completed ++ entries.flatMap fun entry =>
          releaseIfUsed reader entry.key entry.cacheUsed
        results := entries.map fun entry => (entry.index, .error .transferFail) }
    else
      { completion := completed ++ entries.flatMap fun entry =>
          releaseIfUsed reader entry.key entry.cacheUsed ++
            fillIfAdmitted reader answers entry.index entry.key entry.slices entry.replica
              entry.cacheUsed
        results := entries.map fun entry => (entry.index, .ok ()) }

/-- The segments of the map, in the order in which they are walked. -/
def segmentReads (reader : Reader) (answers : ReadAnswers) (segToOp : SegmentOps) :
    List SegmentRead :=
  (answers.segmentOrder segToOp.keys).map fun segment =>
    readSegment reader answers (group segToOp segment)

def batchGetWhenPreferSameNode (reader : Reader) (answers : ReadAnswers) (slices : SliceMap)
    (requests : List (ObjectKey × QueryResult)) : BatchReadCall :=
  let started := requests.mapIdx fun index request =>
    startSegmentRead reader answers slices index request
  let located := started.filterMap fun start => start.outcome.toOption
  let reads := segmentReads reader answers (located.foldl appendTo ∅)
  { results := assignAt (reads.flatMap SegmentRead.results)
      (started.map fun start => start.outcome.map fun _ => ())
    events := started.flatMap StartedSegmentRead.events ++
      reads.flatMap SegmentRead.refusal ++ reads.flatMap SegmentRead.completion }

def batchGet (reader : Reader) (answers : ReadAnswers) (keys : List ObjectKey)
    (queries : List QueryResult) (slices : SliceMap) (preferAllocInSameNode : Bool) :
    BatchReadCall :=
  if !reader.transferSubmitter then
    ⟨keys.map fun _ => .error .invalidParams, []⟩
  else if queries.length ≠ keys.length then
    ⟨keys.map fun _ => .error .invalidParams, []⟩
  else if preferAllocInSameNode then
    batchGetWhenPreferSameNode reader answers slices (keys.zip queries)
  else batchGetEach reader answers slices (keys.zip queries)

end Mooncake.Read
