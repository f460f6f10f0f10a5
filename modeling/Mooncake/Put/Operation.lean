import Mooncake.Put.Decision

/-!
# Put operations and the start of a batch

A `PutOperation` carries one key of a batch through start, transfer and
finalize.  `Client` is what a call reads of the client object and of its
process environment.  `Answers` is everything the master and the transfer
engine return to one call; each request of a call is made at most once, so an
arbitrary function of the request covers every sequence of responses.
-/

namespace Mooncake.Put

/-! ## Client and environment -/

/-- The settings of the client object, the build flag `USE_NOF`, the two
environment variables it reads, and the functions defined outside this code. -/
structure Client where
  protocol : String := "rdma"
  localHostname : String := ""
  transferSubmitter : Bool := true
  useNof : Bool := true
  storeReplicaNum : Option String := none
  storeNofReplicaNum : Option String := none
  determineReplicaWriteMode : ReplicateConfig → ReplicaWriteMode
  errorText : ErrorCode → String

/-- The responses of the master and the outcomes of the submitted transfers.
`submit` is asked with the operation's index and the replica's index. -/
structure Answers where
  batchPutStart : List ObjectKey → List (List Nat) → ReplicateConfig →
    List (Expected (List Replica))
  batchUpsertStart : List ObjectKey → List (List Nat) → ReplicateConfig →
    List (Expected (List Replica))
  putStart : ObjectKey → List Nat → ReplicateConfig → Expected (List Replica)
  submit : Nat → Nat → Replica → List Slice → Option TransferFuture
  submitBatch : List Replica → List (List Slice) → Option TransferFuture
  batchPutEnd : List ObjectKey → ReplicaType → List (Expected Unit)
  batchPutRevoke : List ObjectKey → ReplicaType → List (Expected Unit)
  batchUpsertEnd : List ObjectKey → List (Expected Unit)
  batchUpsertRevoke : List ObjectKey → List (Expected Unit)
  putEnd : ObjectKey → ReplicaType → Expected Unit
  putRevoke : ObjectKey → ReplicaType → Expected Unit

/-- A client in the default configuration, flexible exactly for one memory plus
one NoF replica. -/
def sampleClient : Client where
  determineReplicaWriteMode := fun config =>
    if config.replicaNum = 1 ∧ config.nofReplicaNum = 1 then .flexibleDualReplica
    else .reliable
  errorText := fun _ => "error"

/-- A master that acknowledges every finalize request and starts nothing, with
a transfer engine that finishes every transfer. -/
def sampleAnswers : Answers where
  batchPutStart := fun keys _ _ => keys.map fun _ => .error .rpcFail
  batchUpsertStart := fun keys _ _ => keys.map fun _ => .error .rpcFail
  putStart := fun _ _ _ => .error .rpcFail
  submit := fun _ _ _ _ => some ⟨.ok⟩
  submitBatch := fun _ _ => some ⟨.ok⟩
  batchPutEnd := fun keys _ => keys.map fun _ => .ok ()
  batchPutRevoke := fun keys _ => keys.map fun _ => .ok ()
  batchUpsertEnd := fun keys => keys.map fun _ => .ok ()
  batchUpsertRevoke := fun keys => keys.map fun _ => .ok ()
  putEnd := fun _ _ => .ok ()
  putRevoke := fun _ _ => .ok ()

def sampleMemoryReplica : Replica := ⟨.processing, .memory ⟨"node", 0, 4⟩⟩

def sampleNofReplica : Replica := ⟨.processing, .nof ⟨"target", 0, 4⟩⟩

/-- Characters skipped by `strtoull`. -/
def isSpace (c : Char) : Bool :=
  c = ' ' || c = '\t' || c = '\n' || c = '\r' || c = '\x0b' || c = '\x0c'

/-- A complete decimal numeral that fits `unsigned long long`. -/
def decimal? (digits : List Char) : Option Nat :=
  if digits ≠ [] ∧ digits.all Char.isDigit then
    let value := digits.foldl (fun total c => 10 * total + (c.toNat - '0'.toNat)) 0
    if value < 2 ^ 64 then some value else none
  else none

/-- `ParseEnvSize`: the whole variable must be one `strtoull` numeral, whose
minus sign negates modulo `2 ^ 64`. -/
def parseEnvSize (value : Option String) : Option Nat :=
  match value with
  | none => none
  | some text =>
    match text.toList.dropWhile isSpace with
    | '-' :: digits => (decimal? digits).map fun magnitude => (2 ^ 64 - magnitude) % 2 ^ 64
    | '+' :: digits => decimal? digits
    | digits => decimal? digits

def applyStoreReplicaOverrideFromEnv (client : Client) (config : ReplicateConfig) :
    ReplicateConfig :=
  if config.replicaNum ≠ 1 ∨ config.nofReplicaNum ≠ 0 then config
  else
    let replicaOverride := parseEnvSize client.storeReplicaNum
    let nofOverride := parseEnvSize client.storeNofReplicaNum
    if replicaOverride = none ∧ nofOverride = none then config
    else
      let replicaNum := replicaOverride.getD config.replicaNum
      let nofReplicaNum := nofOverride.getD config.nofReplicaNum
      if replicaNum = 0 ∧ nofReplicaNum = 0 then config
      else { config with replicaNum := replicaNum, nofReplicaNum := nofReplicaNum }

/-- The configuration that `Put` and `BatchPut` send to the master. -/
def putConfig (client : Client) (config : ReplicateConfig) : ReplicateConfig :=
  let resolved := if client.useNof then applyStoreReplicaOverrideFromEnv client config else config
  if client.protocol = "cxl" then
    { resolved with preferredSegment := client.localHostname }
  else resolved

/-- `Upsert` and `BatchUpsert` do not read the replica override. -/
def upsertConfig (client : Client) (config : ReplicateConfig) : ReplicateConfig :=
  if client.protocol = "cxl" then
    { config with preferredSegment := client.localHostname }
  else config

/-! ## Operations -/

inductive PutOperationState where
  | pending
  | masterFailed
  | transferFailed
  | finalizeFailed
  | success
  deriving DecidableEq, Repr

structure PendingTransferRecord where
  replicaType : ReplicaType
  future : TransferFuture
  deriving DecidableEq, Repr

/-- `PutOperation`.  The initial result is the pending error of the source. -/
structure PutOperation where
  key : ObjectKey
  slices : List Slice
  batchedSlices : List (List Slice) := []
  state : PutOperationState := .pending
  result : Expected Unit := .error .internalError
  replicas : List Replica := []
  pendingTransfers : List PendingTransferRecord := []
  requestedMemoryReplicas : Nat := 0
  requestedNofReplicas : Nat := 0
  transferSummary : ReplicaTransferSummary := {}
  failureContext : Option String := none

namespace PutOperation

def setSuccess (op : PutOperation) : PutOperation :=
  { op with state := .success, result := .ok (), failureContext := none }

def setTerminalError (op : PutOperation) (error : ErrorCode)
    (terminalState : PutOperationState) (context : String) : PutOperation :=
  { op with
    state := terminalState
    result := .error error
    failureContext := if context = "" then op.failureContext else some context }

def setError (client : Client) (op : PutOperation) (error : ErrorCode)
    (context : String) : PutOperation :=
  { op with
    result := .error error
    failureContext := if context = "" then op.failureContext
      else some (client.errorText error ++ ": " ++ context ++ "; " ++
        op.failureContext.getD "")
    state := if op.replicas = [] then .masterFailed
      else if op.pendingTransfers = [] then .transferFailed
      else .finalizeFailed }

def appendFailureContext (op : PutOperation) (context : String) : PutOperation :=
  if context = "" then op
  else
    { op with
      failureContext := match op.failureContext with
        | none => some context
        | some earlier => some (earlier ++ "; " ++ context) }

def initializeRequestedReplicas (op : PutOperation) (config : ReplicateConfig) :
    PutOperation :=
  { op with
    requestedMemoryReplicas := config.replicaNum
    requestedNofReplicas := config.nofReplicaNum }

def toReplicateConfig (op : PutOperation) : ReplicateConfig :=
  { replicaNum := op.requestedMemoryReplicas, nofReplicaNum := op.requestedNofReplicas }

def isResolved (op : PutOperation) : Bool := op.state ≠ .pending

def isSuccessful (op : PutOperation) : Bool :=
  decide (op.state = .success) && decide (op.result = .ok ())

variable (client : Client) (op : PutOperation) (error : ErrorCode)
  (terminalState : PutOperationState) (context : String)

@[simp]
theorem setSuccess_isResolved : op.setSuccess.isResolved = true := rfl

@[simp]
theorem setSuccess_result : op.setSuccess.result = .ok () := rfl

@[simp]
theorem setError_isResolved : (op.setError client error context).isResolved = true := by
  simp only [isResolved, setError]
  split
  · decide
  · split <;> decide

@[simp]
theorem setError_result : (op.setError client error context).result = .error error := rfl

@[simp]
theorem setError_replicas : (op.setError client error context).replicas = op.replicas := rfl

@[simp]
theorem setError_key : (op.setError client error context).key = op.key := rfl

@[simp]
theorem setTerminalError_result :
    (op.setTerminalError error terminalState context).result = .error error := rfl

@[simp]
theorem setTerminalError_replicas :
    (op.setTerminalError error terminalState context).replicas = op.replicas := rfl

@[simp]
theorem setTerminalError_key :
    (op.setTerminalError error terminalState context).key = op.key := rfl

theorem isSuccessful_eq_false_of_result {error : ErrorCode} (failed : op.result = .error error) :
    op.isSuccessful = false := by
  simp [isSuccessful, failed]

end PutOperation

/-! ## Creation and start -/

/-- `CreatePutOperations`; callers pass one slice list for each key. -/
def createPutOperations (keys : List ObjectKey) (batchedSlices : List (List Slice)) :
    List PutOperation :=
  List.zipWith (fun key slices => ({ key := key, slices := slices } : PutOperation))
    keys batchedSlices

/-- An operation as `CreatePutOperations` builds it. -/
def Created (op : PutOperation) : Prop :=
  op.replicas = [] ∧ op.pendingTransfers = [] ∧ op.isResolved = false

theorem createPutOperations_created {keys : List ObjectKey}
    {batchedSlices : List (List Slice)} {op : PutOperation}
    (member : op ∈ createPutOperations keys batchedSlices) : Created op := by
  rw [createPutOperations, ← List.map_uncurry_zip_eq_zipWith, List.mem_map] at member
  obtain ⟨pair, -, rfl⟩ := member
  exact ⟨rfl, rfl, rfl⟩

def sliceLengths (ops : List PutOperation) : List (List Nat) :=
  ops.map fun op => op.slices.map Slice.size

def acceptPutStart (client : Client) (config : ReplicateConfig) (op : PutOperation)
    (response : Expected (List Replica)) : PutOperation :=
  let op := op.initializeRequestedReplicas config
  match response with
  | .error error =>
    op.setTerminalError error .masterFailed "Master failed to start put operation"
  | .ok replicas =>
    let op := { op with
      replicas := replicas
      transferSummary := ReplicaTransferSummary.recordAllocatedReplicas replicas }
    if hasExpectedReplicaAllocation client.determineReplicaWriteMode config
        op.transferSummary then op
    else
      op.setTerminalError .noAvailableHandle .masterFailed
        "Allocated replicas do not satisfy requested replica policy"

def startBatchPut (client : Client) (answers : Answers) (ops : List PutOperation)
    (config : ReplicateConfig) : List PutOperation :=
  let responses := answers.batchPutStart (ops.map PutOperation.key) (sliceLengths ops) config
  if responses.length ≠ ops.length then
    ops.map fun op => op.setError client .rpcFail "BatchPutStart response size mismatch"
  else
    List.zipWith (acceptPutStart client config) ops responses

def acceptUpsertStart (client : Client) (op : PutOperation)
    (response : Expected (List Replica)) : PutOperation :=
  match response with
  | .error error => op.setError client error "Master failed to start upsert operation"
  | .ok replicas => { op with replicas := replicas }

def startBatchUpsert (client : Client) (answers : Answers) (ops : List PutOperation)
    (config : ReplicateConfig) : List PutOperation :=
  let responses := answers.batchUpsertStart (ops.map PutOperation.key) (sliceLengths ops) config
  if responses.length ≠ ops.length then
    ops.map fun op => op.setError client .rpcFail "BatchUpsertStart response size mismatch"
  else
    List.zipWith (acceptUpsertStart client) ops responses

/-- `CollectResults`: an already existing object counts as stored. -/
def collectResults (ops : List PutOperation) : List (Expected Unit) :=
  ops.map fun op =>
    if op.result = .error .objectAlreadyExists then .ok () else op.result

theorem collectResults_eq_ok_iff (ops : List PutOperation) (index : Nat) :
    (collectResults ops)[index]? = some (.ok ()) ↔
      ops[index]?.map PutOperation.result = some (.ok ()) ∨
      ops[index]?.map PutOperation.result = some (.error .objectAlreadyExists) := by
  rw [collectResults, List.getElem?_map]
  cases ops[index]? with
  | none => simp
  | some op =>
    by_cases exists_ : op.result = .error .objectAlreadyExists <;> simp [exists_]

end Mooncake.Put
