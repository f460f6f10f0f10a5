import Mooncake.Types

/-!
# Transfer summaries and the finalize decision

`ReplicaTransferSummary` counts what happened to the memory and NoF replicas
of one operation, and `determineFinalizeDecision` turns the counters into the
End and Revoke requests of that operation.  How a configuration selects the
write mode is decided outside this code, so it is a parameter here.
-/

namespace Mooncake.Put

open List

structure ReplicaTransferSummary where
  allocatedMemoryReplicas : Nat := 0
  allocatedNofReplicas : Nat := 0
  successfulMemoryTransfers : Nat := 0
  successfulNofTransfers : Nat := 0
  failedMemoryTransfers : Nat := 0
  failedNofTransfers : Nat := 0
  firstError : ErrorCode := .ok
  deriving DecidableEq, Repr

namespace ReplicaTransferSummary

def recordAllocatedReplica (summary : ReplicaTransferSummary) (replica : Replica) :
    ReplicaTransferSummary :=
  if replica.isMemoryReplica then
    { summary with allocatedMemoryReplicas := summary.allocatedMemoryReplicas + 1 }
  else if replica.isNofReplica then
    { summary with allocatedNofReplicas := summary.allocatedNofReplicas + 1 }
  else summary

def recordSuccess (summary : ReplicaTransferSummary) (replicaType : ReplicaType) :
    ReplicaTransferSummary :=
  match replicaType with
  | .memory =>
    { summary with successfulMemoryTransfers := summary.successfulMemoryTransfers + 1 }
  | .nofSsd =>
    { summary with successfulNofTransfers := summary.successfulNofTransfers + 1 }
  | _ => summary

def recordFailure (summary : ReplicaTransferSummary) (replicaType : ReplicaType)
    (error : ErrorCode) : ReplicaTransferSummary :=
  let counted : ReplicaTransferSummary := match replicaType with
    | .memory =>
      { summary with failedMemoryTransfers := summary.failedMemoryTransfers + 1 }
    | .nofSsd =>
      { summary with failedNofTransfers := summary.failedNofTransfers + 1 }
    | _ => summary
  if counted.firstError = .ok then { counted with firstError := error } else counted

/-- What `WaitForTransfers` and `Put` record for one finished transfer. -/
def recordOutcome (summary : ReplicaTransferSummary)
    (transfer : ReplicaType × ErrorCode) : ReplicaTransferSummary :=
  if transfer.2 = .ok then summary.recordSuccess transfer.1
  else summary.recordFailure transfer.1 transfer.2

def recordAllocatedReplicas (replicas : List Replica) : ReplicaTransferSummary :=
  replicas.foldl recordAllocatedReplica {}

/-! ## Counting lemmas -/

/-- Transfers of one type that finished with `OK`. -/
def wrote (replicaType : ReplicaType) (transfer : ReplicaType × ErrorCode) : Bool :=
  transfer.1 = replicaType && transfer.2 = .ok

/-- Transfers of one type that did not. -/
def missed (replicaType : ReplicaType) (transfer : ReplicaType × ErrorCode) : Bool :=
  transfer.1 = replicaType && transfer.2 ≠ .ok

theorem recordAllocatedReplica_foldl (replicas : List Replica)
    (summary : ReplicaTransferSummary) :
    replicas.foldl recordAllocatedReplica summary =
      { summary with
        allocatedMemoryReplicas :=
          summary.allocatedMemoryReplicas + replicas.countP Replica.isMemoryReplica
        allocatedNofReplicas :=
          summary.allocatedNofReplicas + replicas.countP Replica.isNofReplica } := by
  induction replicas generalizing summary with
  | nil => rfl
  | cons replica rest ih =>
    rw [foldl_cons, ih, countP_cons, countP_cons]
    unfold recordAllocatedReplica
    by_cases memory : replica.isMemoryReplica = true
    · have notNof := Replica.isMemoryReplica_not_isNofReplica memory
      simp [memory, notNof, Nat.add_comm, Nat.add_left_comm]
    · by_cases nof : replica.isNofReplica = true
      · simp [memory, nof, Nat.add_comm, Nat.add_left_comm]
      · simp [memory, nof]

theorem recordAllocatedReplicas_eq (replicas : List Replica) :
    recordAllocatedReplicas replicas =
      { allocatedMemoryReplicas := replicas.countP Replica.isMemoryReplica
        allocatedNofReplicas := replicas.countP Replica.isNofReplica } := by
  rw [recordAllocatedReplicas, recordAllocatedReplica_foldl]
  simp

/-- Recording never touches the allocation counters and counts every transfer
of the two recorded types exactly once. -/
theorem recordOutcome_foldl_counters (transfers : List (ReplicaType × ErrorCode))
    (summary : ReplicaTransferSummary) :
    let final := transfers.foldl recordOutcome summary
    final.allocatedMemoryReplicas = summary.allocatedMemoryReplicas ∧
    final.allocatedNofReplicas = summary.allocatedNofReplicas ∧
    final.successfulMemoryTransfers =
      summary.successfulMemoryTransfers + transfers.countP (wrote .memory) ∧
    final.successfulNofTransfers =
      summary.successfulNofTransfers + transfers.countP (wrote .nofSsd) ∧
    final.failedMemoryTransfers =
      summary.failedMemoryTransfers + transfers.countP (missed .memory) ∧
    final.failedNofTransfers = summary.failedNofTransfers + transfers.countP (missed .nofSsd) := by
  induction transfers generalizing summary with
  | nil => simp
  | cons transfer rest ih =>
    obtain ⟨replicaType, error⟩ := transfer
    have tail := ih (summary.recordOutcome (replicaType, error))
    simp only [foldl_cons, countP_cons] at tail ⊢
    obtain ⟨am, an, sm, sn, fm, fn⟩ := tail
    rw [am, an, sm, sn, fm, fn]
    by_cases done : error = .ok
    · cases replicaType <;>
        simp [recordOutcome, recordSuccess, wrote, missed, done] <;> omega
    · cases replicaType <;> by_cases first : summary.firstError = .ok <;>
        simp [recordOutcome, recordFailure, wrote, missed, done, first] <;> omega

end ReplicaTransferSummary

/-! ## Expected allocation and the decision -/

/-- `FinalizeDecision`: the requests of one operation and how it should end. -/
structure FinalizeDecision where
  endType : Option ReplicaType
  revokeType : Option ReplicaType
  success : Bool := false
  error : ErrorCode := .ok
  deriving DecidableEq, Repr

section WriteMode

variable (determineReplicaWriteMode : ReplicateConfig → ReplicaWriteMode)

def hasExpectedReplicaAllocation (config : ReplicateConfig)
    (summary : ReplicaTransferSummary) : Bool :=
  if config.nofReplicaNum = 0 then
    decide (0 < summary.allocatedMemoryReplicas)
  else if determineReplicaWriteMode config = .flexibleDualReplica then
    decide (0 < summary.allocatedMemoryReplicas + summary.allocatedNofReplicas)
  else
    decide (summary.allocatedMemoryReplicas = config.replicaNum) &&
      decide (summary.allocatedNofReplicas = config.nofReplicaNum)

def determineFinalizeDecision (config : ReplicateConfig)
    (summary : ReplicaTransferSummary) : FinalizeDecision :=
  let allocationSatisfied := hasExpectedReplicaAllocation determineReplicaWriteMode config summary
  if determineReplicaWriteMode config ≠ .flexibleDualReplica then
    let allTransfersSucceeded :=
      decide (summary.successfulMemoryTransfers = summary.allocatedMemoryReplicas) &&
      decide (summary.successfulNofTransfers = summary.allocatedNofReplicas) &&
      decide (summary.failedMemoryTransfers = 0) &&
      decide (summary.failedNofTransfers = 0)
    if allocationSatisfied && allTransfersSucceeded then
      { endType := some .all, revokeType := none, success := true, error := .ok }
    else
      { endType := none
        revokeType := some .all
        success := false
        error := if allocationSatisfied then
            if summary.firstError = .ok then .transferFail else summary.firstError
          else .noAvailableHandle }
  else
    let memorySucceeded := decide (0 < summary.successfulMemoryTransfers)
    let nofSucceeded := decide (0 < summary.successfulNofTransfers)
    if memorySucceeded && nofSucceeded then
      { endType := some .all, revokeType := none, success := true, error := .ok }
    else if memorySucceeded then
      { endType := some .memory, revokeType := some .nofSsd, success := true, error := .ok }
    else if nofSucceeded then
      { endType := some .nofSsd, revokeType := some .memory, success := true, error := .ok }
    else
      { endType := none
        revokeType := some .all
        success := false
        error := if summary.firstError = .ok then .noAvailableHandle else summary.firstError }

/-- The four shapes a decision can have; every later argument about finalizing
splits on these and never on the counters again. -/
inductive DecisionShape (determineReplicaWriteMode : ReplicateConfig → ReplicaWriteMode)
    (config : ReplicateConfig) (summary : ReplicaTransferSummary) :
    FinalizeDecision → Prop where
  | commitAll
      (written : determineReplicaWriteMode config = .flexibleDualReplica ∧
          0 < summary.successfulMemoryTransfers ∧ 0 < summary.successfulNofTransfers ∨
        determineReplicaWriteMode config ≠ .flexibleDualReplica ∧
          summary.failedMemoryTransfers = 0 ∧ summary.failedNofTransfers = 0) :
      DecisionShape determineReplicaWriteMode config summary
        ⟨some .all, none, true, .ok⟩
  | commitMemory
      (flexible : determineReplicaWriteMode config = .flexibleDualReplica)
      (written : 0 < summary.successfulMemoryTransfers)
      (alone : summary.successfulNofTransfers = 0) :
      DecisionShape determineReplicaWriteMode config summary
        ⟨some .memory, some .nofSsd, true, .ok⟩
  | commitNof
      (flexible : determineReplicaWriteMode config = .flexibleDualReplica)
      (written : 0 < summary.successfulNofTransfers)
      (alone : summary.successfulMemoryTransfers = 0) :
      DecisionShape determineReplicaWriteMode config summary
        ⟨some .nofSsd, some .memory, true, .ok⟩
  | abandon {error : ErrorCode} (failed : error ≠ .ok)
      (unwritten : determineReplicaWriteMode config = .flexibleDualReplica →
        summary.successfulMemoryTransfers = 0 ∧ summary.successfulNofTransfers = 0) :
      DecisionShape determineReplicaWriteMode config summary
        ⟨none, some .all, false, error⟩

theorem determineFinalizeDecision_shape (config : ReplicateConfig)
    (summary : ReplicaTransferSummary) :
    DecisionShape determineReplicaWriteMode config summary
      (determineFinalizeDecision determineReplicaWriteMode config summary) := by
  unfold determineFinalizeDecision
  by_cases flexible : determineReplicaWriteMode config = .flexibleDualReplica
  · simp only [flexible, ne_eq, not_true_eq_false, if_false]
    by_cases memory : 0 < summary.successfulMemoryTransfers
    · by_cases nof : 0 < summary.successfulNofTransfers
      · simpa [memory, nof] using
          DecisionShape.commitAll (.inl ⟨flexible, memory, nof⟩)
      · simpa [memory, nof] using
          DecisionShape.commitMemory flexible memory (Nat.eq_zero_of_not_pos nof)
    · by_cases nof : 0 < summary.successfulNofTransfers
      · simpa [memory, nof] using
          DecisionShape.commitNof flexible nof (Nat.eq_zero_of_not_pos memory)
      · simp only [memory, nof, decide_false, Bool.and_self, Bool.false_eq_true, if_false]
        apply DecisionShape.abandon
        · split <;> simp_all
        · exact fun _ => ⟨Nat.eq_zero_of_not_pos memory, Nat.eq_zero_of_not_pos nof⟩
  · simp only [flexible, ne_eq, not_false_eq_true, if_true]
    split
    · rename_i satisfied
      simp only [Bool.and_eq_true, decide_eq_true_eq] at satisfied
      exact .commitAll (.inr ⟨flexible, satisfied.2.1.2, satisfied.2.2⟩)
    · apply DecisionShape.abandon
      · split
        · split <;> simp_all
        · simp
      · exact fun mode => absurd mode flexible

end WriteMode

end Mooncake.Put
