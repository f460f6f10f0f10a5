import Mooncake.Put.Group

/-!
# Finalizing a batch put

`FinalizeBatchPut` works in three loops.  The first one sorts the operations
into six groups and notes for each operation how it should end; the second
sends the non-empty groups and writes every response back through the index
vector; the third one closes every operation.  The four vectors that the
source keeps beside the groups are read row by row here.
-/

namespace Mooncake.Put

open Library.Indexed

/-! ## The six groups -/

inductive FinalizeGroup where
  | endAll
  | endMemory
  | endNof
  | revokeAll
  | revokeMemory
  | revokeNof
  deriving DecidableEq, Repr

namespace FinalizeGroup

def isEnd : FinalizeGroup → Bool
  | .endAll | .endMemory | .endNof => true
  | .revokeAll | .revokeMemory | .revokeNof => false

def replicaType : FinalizeGroup → ReplicaType
  | .endAll | .revokeAll => .all
  | .endMemory | .revokeMemory => .memory
  | .endNof | .revokeNof => .nofSsd

/-- The group of an action; the other replica types have none. -/
def of? (isEnd : Bool) : ReplicaType → Option FinalizeGroup
  | .all => some (if isEnd then .endAll else .revokeAll)
  | .memory => some (if isEnd then .endMemory else .revokeMemory)
  | .nofSsd => some (if isEnd then .endNof else .revokeNof)
  | .disk => none

def order : List FinalizeGroup :=
  [.endAll, .endMemory, .endNof, .revokeAll, .revokeMemory, .revokeNof]

def covers (group : FinalizeGroup) (replicaType : ReplicaType) : Bool :=
  group.replicaType = .all || group.replicaType = replicaType

theorem order_nodup : order.Nodup := by decide

theorem mem_order (group : FinalizeGroup) : group ∈ order := by
  cases group <;> decide

end FinalizeGroup

/-! ## The first loop -/

/-- One row of the vectors `pending_finalize_actions`, `should_succeed`,
`terminal_errors` and `finalize_rpc_errors`. -/
structure FinalizeRecord where
  pendingFinalizeActions : Nat := 0
  shouldSucceed : Bool := false
  terminalError : ErrorCode := .ok
  finalizeRpcError : Option ErrorCode := none
  deriving DecidableEq, Repr

structure FinalizeState where
  groups : FinalizeGroup → BatchFinalizeGroup := fun _ => {}
  records : Nat → FinalizeRecord := fun _ => {}

namespace FinalizeState

def updateRecord (state : FinalizeState) (index : Nat)
    (change : FinalizeRecord → FinalizeRecord) : FinalizeState :=
  { state with records := Function.update state.records index (change (state.records index)) }

def addGroupEntry (state : FinalizeState) (group : FinalizeGroup) (key : ObjectKey)
    (index : Nat) : FinalizeState :=
  { state with
    groups := Function.update state.groups group
      { keys := (state.groups group).keys ++ [key]
        indices := (state.groups group).indices ++ [index] } }

def addFinalizeAction (state : FinalizeState) (replicaType : Option ReplicaType)
    (isEnd : Bool) (key : ObjectKey) (index : Nat) : FinalizeState :=
  match replicaType with
  | none => state
  | some replicaType =>
    match FinalizeGroup.of? isEnd replicaType with
    | some group =>
      (state.addGroupEntry group key index).updateRecord index fun record =>
        { record with pendingFinalizeActions := record.pendingFinalizeActions + 1 }
    | none =>
      state.updateRecord index fun record =>
        { record with finalizeRpcError := some .invalidParams }

end FinalizeState

/-- The decision for an operation that is still open after its transfers. -/
def PutOperation.finalizeDecision (client : Client) (op : PutOperation) : FinalizeDecision :=
  determineFinalizeDecision client.determineReplicaWriteMode op.toReplicateConfig
    op.transferSummary

/-- One iteration of the first loop. -/
def scanOperation (client : Client) (state : FinalizeState) (entry : PutOperation × Nat) :
    FinalizeState :=
  let op := entry.1
  let index := entry.2
  if op.isResolved then
    if !op.isSuccessful && !op.replicas.isEmpty then
      (state.updateRecord index fun record =>
        { record with
          terminalError := match op.result with
            | .ok () => .internalError
            | .error error => error }).addFinalizeAction (some .all) false op.key index
    else state
  else if op.replicas = [] then state
  else
    let decision := op.finalizeDecision client
    ((state.updateRecord index fun record =>
      { record with
        shouldSucceed := decision.success
        terminalError := decision.error }).addFinalizeAction
          decision.endType true op.key index).addFinalizeAction
            decision.revokeType false op.key index

/-- The operation as the first loop leaves it. -/
def prepareOperation (op : PutOperation) : PutOperation :=
  if op.isResolved then op
  else if op.replicas = [] then
    op.setTerminalError .internalError .masterFailed "Operation has no replicas to finalize"
  else op

/-! ## The second loop -/

/-- What one response does to the row of the operation that asked for it. -/
def FinalizeRecord.absorb (record : FinalizeRecord) (response : Expected Unit) :
    FinalizeRecord :=
  let noted := match response with
    | .error error => { record with finalizeRpcError := some error }
    | .ok () => record
  { noted with pendingFinalizeActions := noted.pendingFinalizeActions - 1 }

def recordResponse (state : FinalizeState) (entry : Nat × Expected Unit) : FinalizeState :=
  state.updateRecord entry.1 fun record => record.absorb entry.2

/-- One End or Revoke request and the responses to it. -/
structure FinalizeRequest where
  name : FinalizeGroup
  group : BatchFinalizeGroup
  responses : List (Expected Unit)

/-- `process_end_group` and `process_revoke_group`, after the request. -/
def processGroup (state : FinalizeState) (request : FinalizeRequest) : FinalizeState :=
  (request.group.attributed request.responses).foldl recordResponse state

/-- The request of one group; an empty group is not sent. -/
def sendGroup (answers : Answers) (groups : FinalizeGroup → BatchFinalizeGroup)
    (name : FinalizeGroup) : Option FinalizeRequest :=
  if (groups name).keys = [] then none
  else
    some
      { name := name
        group := groups name
        responses := if name.isEnd then answers.batchPutEnd (groups name).keys name.replicaType
          else answers.batchPutRevoke (groups name).keys name.replicaType }

/-! ## The third loop -/

def appendFinalizeErrorContext (client : Client) (record : FinalizeRecord)
    (op : PutOperation) : PutOperation :=
  let op := match record.finalizeRpcError with
    | some error =>
      op.appendFailureContext ("Batch finalization RPC failed: " ++ client.errorText error)
    | none => op
  if record.pendingFinalizeActions ≠ 0 then
    op.appendFailureContext "Operation has unfinished finalize actions"
  else op

def finishOperation (client : Client) (record : FinalizeRecord) (op : PutOperation) :
    PutOperation :=
  if op.isResolved then
    if !op.isSuccessful then appendFinalizeErrorContext client record op else op
  else if record.finalizeRpcError ≠ none ∨ record.pendingFinalizeActions ≠ 0 then
    if record.shouldSucceed = false ∧ record.terminalError ≠ .ok then
      let op := appendFinalizeErrorContext client record op
      op.setTerminalError record.terminalError .transferFailed
        (op.failureContext.getD "Replica transfer failed before finalize")
    else
      match record.finalizeRpcError with
      | some error =>
        op.setTerminalError error .finalizeFailed "Batch finalization RPC failed"
      | none =>
        op.setTerminalError .internalError .finalizeFailed
          "Operation has unfinished finalize actions"
  else if record.shouldSucceed then op.setSuccess
  else
    op.setTerminalError record.terminalError .transferFailed
      (op.failureContext.getD "Replica transfer failed before finalize")

/-- The requests that a finalized batch has sent, and its operations. -/
structure PutFinalization where
  requests : List FinalizeRequest := []
  ops : List PutOperation := []

def finalizeBatchPut (client : Client) (answers : Answers) (ops : List PutOperation) :
    PutFinalization :=
  let scanned := ops.zipIdx.foldl (scanOperation client) {}
  let requests := FinalizeGroup.order.filterMap (sendGroup answers scanned.groups)
  let processed := requests.foldl processGroup scanned
  { requests := requests
    ops := ops.mapIdx fun index op =>
      finishOperation client (processed.records index) (prepareOperation op) }

end Mooncake.Put
