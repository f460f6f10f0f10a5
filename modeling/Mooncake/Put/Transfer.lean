import Mooncake.Put.Operation

/-!
# Submitting and awaiting the transfers of a batch

`SubmitTransfers` records a failed submission in the summary and keeps a
pending record for every accepted one; `WaitForTransfers` then records the
outcome of each pending transfer.  Neither changes the state of an operation
that is still pending.  `Accounts` states what the counters mean for the
replicas of the operation.
-/

namespace Mooncake.Put

open ReplicaTransferSummary List

/-! ## The two loops -/

def submitReplica (answers : Answers) (index : Nat) (op : PutOperation)
    (entry : Replica × Nat) : PutOperation :=
  if entry.1.isTransferred then
    match answers.submit index entry.2 entry.1 op.slices with
    | none =>
      { op with
        transferSummary := op.transferSummary.recordFailure entry.1.transferType .transferFail }
        |>.appendFailureContext
          ("Failed to submit transfer for replica " ++ toString entry.2)
    | some future =>
      { op with
        pendingTransfers := op.pendingTransfers ++ [⟨entry.1.transferType, future⟩] }
  else op

def submitOperation (answers : Answers) (op : PutOperation) (index : Nat) :
    PutOperation :=
  if op.isResolved then op
  else if op.replicas = [] then
    op.setTerminalError .internalError .masterFailed "No replicas available for transfer"
  else op.replicas.zipIdx.foldl (submitReplica answers index) op

def submitTransfers (client : Client) (answers : Answers) (ops : List PutOperation) :
    List PutOperation :=
  if client.transferSubmitter then ops.mapIdx fun index op => submitOperation answers op index
  else
    ops.map fun op =>
      op.setTerminalError .invalidParams .transferFailed "TransferSubmitter not initialized"

def awaitTransfer (op : PutOperation) (entry : PendingTransferRecord × Nat) :
    PutOperation :=
  if entry.1.future.outcome ≠ .ok then
    { op with
      transferSummary :=
        op.transferSummary.recordFailure entry.1.replicaType entry.1.future.outcome }
      |>.appendFailureContext ("Transfer " ++ toString entry.2 ++ " failed")
  else
    { op with transferSummary := op.transferSummary.recordSuccess entry.1.replicaType }

def awaitOperation (op : PutOperation) : PutOperation :=
  if op.isResolved then op
  else op.pendingTransfers.zipIdx.foldl awaitTransfer op

def waitForTransfers (ops : List PutOperation) : List PutOperation :=
  ops.map awaitOperation

/-! ## What the loops leave unchanged -/

/-- Two operations that differ at most in the summary, the pending transfers
and the failure context. -/
structure SameFrame (before after : PutOperation) : Prop where
  key : after.key = before.key
  slices : after.slices = before.slices
  state : after.state = before.state
  result : after.result = before.result
  replicas : after.replicas = before.replicas
  requestedMemory : after.requestedMemoryReplicas = before.requestedMemoryReplicas
  requestedNof : after.requestedNofReplicas = before.requestedNofReplicas

namespace SameFrame

theorem refl (op : PutOperation) : SameFrame op op :=
  ⟨rfl, rfl, rfl, rfl, rfl, rfl, rfl⟩

theorem trans {first second third : PutOperation}
    (left : SameFrame first second) (right : SameFrame second third) :
    SameFrame first third :=
  ⟨right.key.trans left.key, right.slices.trans left.slices,
   right.state.trans left.state, right.result.trans left.result,
   right.replicas.trans left.replicas,
   right.requestedMemory.trans left.requestedMemory,
   right.requestedNof.trans left.requestedNof⟩

theorem isResolved {before after : PutOperation} (same : SameFrame before after) :
    after.isResolved = before.isResolved := by
  simp only [PutOperation.isResolved, same.state]

theorem foldl {α : Type} {step : PutOperation → α → PutOperation}
    (each : ∀ op entry, SameFrame op (step op entry)) (entries : List α)
    (op : PutOperation) : SameFrame op (entries.foldl step op) := by
  induction entries generalizing op with
  | nil => exact refl op
  | cons entry rest ih => exact (each op entry).trans (ih (step op entry))

end SameFrame

theorem appendFailureContext_frame {op : PutOperation} {context : String} :
    SameFrame op (op.appendFailureContext context) := by
  unfold PutOperation.appendFailureContext
  split
  · exact .refl op
  · exact ⟨rfl, rfl, rfl, rfl, rfl, rfl, rfl⟩

@[simp]
theorem appendFailureContext_transferSummary (op : PutOperation) (context : String) :
    (op.appendFailureContext context).transferSummary = op.transferSummary := by
  unfold PutOperation.appendFailureContext
  split <;> rfl

@[simp]
theorem appendFailureContext_pendingTransfers (op : PutOperation) (context : String) :
    (op.appendFailureContext context).pendingTransfers = op.pendingTransfers := by
  unfold PutOperation.appendFailureContext
  split <;> rfl

variable (entries : List (PendingTransferRecord × Nat)) (answers : Answers) (index : Nat)

theorem submitReplica_frame (op : PutOperation) (entry : Replica × Nat) :
    SameFrame op (submitReplica answers index op entry) := by
  unfold submitReplica
  split
  · cases answers.submit index entry.2 entry.1 op.slices with
    | none =>
      refine SameFrame.trans ?_ (appendFailureContext_frame)
      exact ⟨rfl, rfl, rfl, rfl, rfl, rfl, rfl⟩
    | some future => exact ⟨rfl, rfl, rfl, rfl, rfl, rfl, rfl⟩
  · exact .refl op

theorem awaitTransfer_frame (op : PutOperation) (entry : PendingTransferRecord × Nat) :
    SameFrame op (awaitTransfer op entry) := by
  unfold awaitTransfer
  split
  · refine SameFrame.trans ?_ (appendFailureContext_frame)
    exact ⟨rfl, rfl, rfl, rfl, rfl, rfl, rfl⟩
  · exact ⟨rfl, rfl, rfl, rfl, rfl, rfl, rfl⟩

theorem awaitOperation_frame (op : PutOperation) : SameFrame op (awaitOperation op) := by
  unfold awaitOperation
  split
  · exact .refl op
  · exact .foldl awaitTransfer_frame _ _

theorem awaitTransfer_pendingTransfers (op : PutOperation)
    (entry : PendingTransferRecord × Nat) :
    (awaitTransfer op entry).pendingTransfers = op.pendingTransfers := by
  unfold awaitTransfer
  split <;> simp

theorem awaitTransfer_foldl_pendingTransfers (op : PutOperation) :
    (entries.foldl awaitTransfer op).pendingTransfers = op.pendingTransfers := by
  induction entries generalizing op with
  | nil => rfl
  | cons entry rest ih => exact (ih _).trans (awaitTransfer_pendingTransfers op entry)

theorem awaitOperation_pendingTransfers (op : PutOperation) :
    (awaitOperation op).pendingTransfers = op.pendingTransfers := by
  unfold awaitOperation
  split
  · rfl
  · exact awaitTransfer_foldl_pendingTransfers _ op

/-! ## The summary after both loops -/

/-- The replica was submitted and its transfer finished with `OK`. -/
def Written (answers : Answers) (index : Nat) (slices : List Slice)
    (entry : Replica × Nat) : Prop :=
  ∃ future, answers.submit index entry.2 entry.1 slices = some future ∧
    future.outcome = .ok

instance (answers : Answers) (index : Nat) (slices : List Slice)
    (entry : Replica × Nat) : Decidable (Written answers index slices entry) :=
  match submitted : answers.submit index entry.2 entry.1 slices with
  | none => isFalse (by simp [Written, submitted])
  | some future =>
    if done : future.outcome = .ok then isTrue ⟨future, submitted, done⟩
    else isFalse (by simp [Written, submitted, done])

/-- The failed submissions, as `SubmitTransfers` records them. -/
def rejected (answers : Answers) (index : Nat) (slices : List Slice)
    (entries : List (Replica × Nat)) : List (ReplicaType × ErrorCode) :=
  entries.filterMap fun entry =>
    if entry.1.isTransferred then
      match answers.submit index entry.2 entry.1 slices with
      | none => some (entry.1.transferType, .transferFail)
      | some _ => none
    else none

def accepted (answers : Answers) (index : Nat) (slices : List Slice)
    (entries : List (Replica × Nat)) : List PendingTransferRecord :=
  entries.filterMap fun entry =>
    if entry.1.isTransferred then
      (answers.submit index entry.2 entry.1 slices).map
        fun future => ⟨entry.1.transferType, future⟩
    else none

theorem submitReplica_foldl (entries : List (Replica × Nat)) (op : PutOperation) :
    let final := entries.foldl (submitReplica answers index) op
    final.transferSummary =
      (rejected answers index op.slices entries).foldl recordOutcome op.transferSummary ∧
    final.pendingTransfers = op.pendingTransfers ++ accepted answers index op.slices entries := by
  induction entries generalizing op with
  | nil => simp [rejected, accepted]
  | cons entry rest ih =>
    have tail := ih (submitReplica answers index op entry)
    rw [(submitReplica_frame answers index op entry).slices] at tail
    simp only [foldl_cons]
    rw [tail.1, tail.2]
    simp only [rejected, accepted, filterMap_cons]
    by_cases transferred : entry.1.isTransferred = true
    · cases submitted : answers.submit index entry.2 entry.1 op.slices with
      | none => simp [submitReplica, transferred, submitted, recordOutcome]
      | some future => simp [submitReplica, transferred, submitted]
    · simp [submitReplica, transferred]

theorem awaitTransfer_transferSummary (op : PutOperation)
    (entry : PendingTransferRecord × Nat) :
    (awaitTransfer op entry).transferSummary =
      op.transferSummary.recordOutcome (entry.1.replicaType, entry.1.future.outcome) := by
  unfold awaitTransfer recordOutcome
  by_cases done : entry.1.future.outcome = .ok <;> simp [done]

theorem awaitTransfer_foldl (op : PutOperation) :
    (entries.foldl awaitTransfer op).transferSummary =
      (entries.map fun entry => (entry.1.replicaType, entry.1.future.outcome)).foldl
        recordOutcome op.transferSummary := by
  induction entries generalizing op with
  | nil => rfl
  | cons entry rest ih =>
    simp only [foldl_cons, map_cons]
    rw [ih, awaitTransfer_transferSummary]

/-- Every transferred replica is counted once: as rejected or as accepted. -/
theorem countP_rejected_append_accepted (slices : List Slice) (replicaType : ReplicaType)
    (entries : List (Replica × Nat)) :
    let transfers := rejected answers index slices entries ++
      (accepted answers index slices entries).map
        fun record => (record.replicaType, record.future.outcome)
    transfers.countP (wrote replicaType) =
      entries.countP (fun entry => entry.1.isTransferred &&
        decide (entry.1.transferType = replicaType) &&
        decide (Written answers index slices entry)) ∧
    transfers.countP (missed replicaType) =
      entries.countP (fun entry => entry.1.isTransferred &&
        decide (entry.1.transferType = replicaType) &&
        !decide (Written answers index slices entry)) := by
  induction entries with
  | nil => simp [rejected, accepted]
  | cons entry rest ih =>
    simp only [rejected, accepted, filterMap_cons, countP_append, countP_cons] at ih ⊢
    by_cases transferred : entry.1.isTransferred = true
    · cases submitted : answers.submit index entry.2 entry.1 slices with
      | none =>
        have unwritten : ¬ Written answers index slices entry := by
          simp [Written, submitted]
        by_cases same : entry.1.transferType = replicaType <;>
          simp [transferred, unwritten, same, wrote, missed] at ih ⊢ <;> omega
      | some future =>
        by_cases done : future.outcome = .ok
        · have written : Written answers index slices entry := ⟨future, submitted, done⟩
          by_cases same : entry.1.transferType = replicaType <;>
            simp [transferred, written, same, done, wrote, missed] at ih ⊢ <;> omega
        · have unwritten : ¬ Written answers index slices entry := by
            simp [Written, submitted, done]
          by_cases same : entry.1.transferType = replicaType <;>
            simp [transferred, unwritten, same, done, wrote, missed] at ih ⊢ <;> omega
    · simp only [transferred, Bool.false_and, Bool.false_eq_true, if_false, Nat.add_zero] at ih ⊢
      exact ih

/-- The counters of a summary agree with what happened to each replica of an
operation.  `written` says which transfers finished with `OK`. -/
structure Accounts (summary : ReplicaTransferSummary) (entries : List (Replica × Nat))
    (written : Replica × Nat → Bool) : Prop where
  allocatedMemory :
    summary.allocatedMemoryReplicas = entries.countP fun entry => entry.1.isMemoryReplica
  allocatedNof :
    summary.allocatedNofReplicas = entries.countP fun entry => entry.1.isNofReplica
  successfulMemory :
    summary.successfulMemoryTransfers =
      entries.countP fun entry => entry.1.isMemoryReplica && written entry
  successfulNof :
    summary.successfulNofTransfers =
      entries.countP fun entry => entry.1.isNofReplica && written entry
  failedMemory :
    summary.failedMemoryTransfers =
      entries.countP fun entry => entry.1.isMemoryReplica && !written entry
  failedNof :
    summary.failedNofTransfers = entries.countP fun entry => entry.1.isNofReplica && !written entry

/-- The work of `SubmitTransfers` and `WaitForTransfers` on one operation. -/
def transferOperation (answers : Answers) (index : Nat) (op : PutOperation) :
    PutOperation :=
  awaitOperation (submitOperation answers op index)

theorem waitForTransfers_submitTransfers {client : Client} (ready : client.transferSubmitter = true)
    (ops : List PutOperation) :
    waitForTransfers (submitTransfers client answers ops) =
      ops.mapIdx fun index op => transferOperation answers index op := by
  simp only [waitForTransfers, submitTransfers, ready, if_true]
  symm
  rw [mapIdx_eq_iff]
  intro index
  rw [getElem?_map, getElem?_mapIdx, Option.map_map]
  rfl

theorem waitForTransfers_unready {client : Client} (unready : client.transferSubmitter = false)
    (ops : List PutOperation) :
    waitForTransfers (submitTransfers client answers ops) =
      ops.map fun op => op.setTerminalError .invalidParams .transferFailed
        "TransferSubmitter not initialized" := by
  simp only [waitForTransfers, submitTransfers, unready, Bool.false_eq_true, if_false, map_map]
  rfl

variable {op : PutOperation}

theorem transferOperation_of_resolved (resolved : op.isResolved = true) :
    transferOperation answers index op = op := by
  simp [transferOperation, submitOperation, awaitOperation, resolved]

theorem transferOperation_of_empty (empty : op.replicas = []) (open_ : op.isResolved = false) :
    transferOperation answers index op =
      op.setTerminalError .internalError .masterFailed
        "No replicas available for transfer" := by
  have resolved : (op.setTerminalError .internalError .masterFailed
      "No replicas available for transfer").isResolved = true := rfl
  simp [transferOperation, submitOperation, awaitOperation, empty, open_, resolved]

/-- An open operation with replicas stays open; only its accounts change. -/
theorem transferOperation_frame (nonempty : op.replicas ≠ []) (open_ : op.isResolved = false) :
    SameFrame op (transferOperation answers index op) := by
  unfold transferOperation submitOperation
  simp only [open_, nonempty, Bool.false_eq_true, if_false]
  exact (SameFrame.foldl (submitReplica_frame answers index) _ op).trans (awaitOperation_frame _)

theorem transferOperation_key :
    (transferOperation answers index op).key = op.key := by
  cases resolved : op.isResolved with
  | true => rw [transferOperation_of_resolved answers index resolved]
  | false =>
    by_cases empty : op.replicas = []
    · rw [transferOperation_of_empty answers index empty resolved]
      rfl
    · exact (transferOperation_frame answers index empty resolved).key

theorem transferOperation_pendingTransfers (nonempty : op.replicas ≠ [])
    (open_ : op.isResolved = false) :
    (transferOperation answers index op).pendingTransfers =
      op.pendingTransfers ++ accepted answers index op.slices op.replicas.zipIdx := by
  unfold transferOperation submitOperation
  rw [awaitOperation_pendingTransfers]
  simp only [open_, nonempty, Bool.false_eq_true, if_false]
  exact (submitReplica_foldl answers index op.replicas.zipIdx op).2

theorem transferOperation_summary (nonempty : op.replicas ≠ []) (open_ : op.isResolved = false)
    (fresh : op.pendingTransfers = []) :
    (transferOperation answers index op).transferSummary =
      (rejected answers index op.slices op.replicas.zipIdx ++
        (accepted answers index op.slices op.replicas.zipIdx).map
          fun record => (record.replicaType, record.future.outcome)).foldl
        recordOutcome op.transferSummary := by
  have submitted := submitReplica_foldl answers index op.replicas.zipIdx op
  have frame := SameFrame.foldl (submitReplica_frame answers index) op.replicas.zipIdx op
  unfold transferOperation submitOperation awaitOperation
  simp only [open_, nonempty, Bool.false_eq_true, if_false, frame.isResolved]
  rw [awaitTransfer_foldl, submitted.1, submitted.2, fresh, nil_append, foldl_append]
  congr 1
  conv_rhs => rw [← zipIdx_map_fst 0 (accepted answers index op.slices op.replicas.zipIdx)]
  rw [map_map]
  rfl

theorem countP_zipIdx_fst {α : Type} (test : α → Bool) (values : List α) :
    values.zipIdx.countP (fun entry => test entry.1) = values.countP test := by
  conv_rhs => rw [← zipIdx_map_fst 0 values, countP_map]
  rfl

/-- After both loops the counters of a freshly started operation account for
every one of its replicas. -/
theorem transferOperation_accounts (nonempty : op.replicas ≠ []) (open_ : op.isResolved = false)
    (fresh : op.pendingTransfers = [])
    (allocated : op.transferSummary = recordAllocatedReplicas op.replicas) :
    Accounts (transferOperation answers index op).transferSummary op.replicas.zipIdx
      (fun entry => decide (Written answers index op.slices entry)) := by
  rw [transferOperation_summary answers index nonempty open_ fresh, allocated,
    recordAllocatedReplicas_eq]
  have counters := recordOutcome_foldl_counters
    (rejected answers index op.slices op.replicas.zipIdx ++
      (accepted answers index op.slices op.replicas.zipIdx).map
        fun record => (record.replicaType, record.future.outcome))
    { allocatedMemoryReplicas := op.replicas.countP Replica.isMemoryReplica
      allocatedNofReplicas := op.replicas.countP Replica.isNofReplica }
  have memory := countP_rejected_append_accepted answers index op.slices .memory
    op.replicas.zipIdx
  have nof := countP_rejected_append_accepted answers index op.slices .nofSsd
    op.replicas.zipIdx
  obtain ⟨am, an, sm, sn, fm, fn⟩ := counters
  refine ⟨?_, ?_, ?_, ?_, ?_, ?_⟩
  · rw [am, countP_zipIdx_fst Replica.isMemoryReplica]
  · rw [an, countP_zipIdx_fst Replica.isNofReplica]
  · rw [sm, memory.1, Nat.zero_add]
    exact countP_congr fun entry _ => by simp [Replica.memory_transferred_iff]
  · rw [sn, nof.1, Nat.zero_add]
    exact countP_congr fun entry _ => by simp [Replica.nof_transferred_iff]
  · rw [fm, memory.2, Nat.zero_add]
    exact countP_congr fun entry _ => by simp [Replica.memory_transferred_iff]
  · rw [fn, nof.2, Nat.zero_add]
    exact countP_congr fun entry _ => by simp [Replica.nof_transferred_iff]

end Mooncake.Put
