import Mooncake.Put.Single

/-!
# The decision, from the outcomes of the transfers

What is ended and what is revoked depends on the transfers that were written and not on
their order.  The error of an abandoned operation does: it is the first one recorded, and
`SubmitTransfers` records a refused submission before the outcome of any accepted one.
-/

namespace Mooncake.Put

open ReplicaTransferSummary List

/-! ## Errors -/

def firstFailure : List (ReplicaType × ErrorCode) → ErrorCode
  | [] => .ok
  | (_, error) :: rest => if error = .ok then firstFailure rest else error

theorem firstFailure_append (first second : List (ReplicaType × ErrorCode)) :
    firstFailure (first ++ second) =
      if firstFailure first = .ok then firstFailure second else firstFailure first := by
  induction first with
  | nil => simp [firstFailure]
  | cons transfer rest ih =>
    by_cases done : transfer.2 = .ok
    · simp [firstFailure, done, ih]
    · simp [firstFailure, done]

theorem firstFailure_eq_ok_iff (transfers : List (ReplicaType × ErrorCode)) :
    firstFailure transfers = .ok ↔ ∀ transfer ∈ transfers, transfer.2 = .ok := by
  induction transfers with
  | nil => simp [firstFailure]
  | cons transfer rest ih =>
    by_cases done : transfer.2 = .ok <;> simp [firstFailure, done, ih]

theorem firstFailure_of_uniform {transfers : List (ReplicaType × ErrorCode)} {error : ErrorCode}
    (uniform : ∀ transfer ∈ transfers, transfer.2 = error) (nonempty : transfers ≠ []) :
    firstFailure transfers = error := by
  induction transfers with
  | nil => exact absurd rfl nonempty
  | cons transfer rest ih =>
    have first := uniform transfer mem_cons_self
    by_cases done : transfer.2 = .ok
    · rw [← first, done, firstFailure_eq_ok_iff]
      intro other member
      rw [uniform other member, ← first, done]
    · simp [firstFailure, first, first ▸ done]

theorem recordOutcome_foldl_firstError (transfers : List (ReplicaType × ErrorCode))
    (summary : ReplicaTransferSummary) :
    (transfers.foldl recordOutcome summary).firstError =
      if summary.firstError = .ok then firstFailure transfers else summary.firstError := by
  induction transfers generalizing summary with
  | nil => simp [firstFailure]
  | cons transfer rest ih =>
    obtain ⟨replicaType, error⟩ := transfer
    rw [foldl_cons, ih]
    by_cases done : error = .ok
    · cases replicaType <;> simp [recordOutcome, recordSuccess, firstFailure, done]
    · by_cases first : summary.firstError = .ok <;> cases replicaType <;>
        simp [recordOutcome, recordFailure, firstFailure, done, first]

/-! ## Both orders -/

/-- The outcomes in the order of the replicas, in which `Put` records them. -/
def transferOutcomes (client : Client) (answers : Answers) (slices : List Slice)
    (replicas : List Replica) : List (ReplicaType × ErrorCode) :=
  (replicas.zipIdx.filter fun entry => entry.1.isTransferred).map fun entry =>
    (entry.1.transferType, transferWrite client answers slices entry)

/-- The outcomes in the order in which a batch records them: refused submissions first. -/
def batchOutcomes (answers : Answers) (index : Nat) (slices : List Slice)
    (entries : List (Replica × Nat)) : List (ReplicaType × ErrorCode) :=
  rejected answers index slices entries ++
    (accepted answers index slices entries).map fun record =>
      (record.replicaType, record.future.outcome)

theorem firstFailure_batchOutcomes_ne_ok {answers : Answers} {index : Nat} {slices : List Slice}
    {entries : List (Replica × Nat)} {entry : Replica × Nat} (inside : entry ∈ entries)
    (transferred : entry.1.isTransferred = true)
    (unwritten : ¬ Written answers index slices entry) :
    firstFailure (batchOutcomes answers index slices entries) ≠ .ok := by
  rw [Ne, firstFailure_eq_ok_iff]
  intro all
  cases submitted : answers.submit index entry.2 entry.1 slices with
  | none =>
    have recorded : (entry.1.transferType, ErrorCode.transferFail) ∈
        batchOutcomes answers index slices entries :=
      mem_append_left _
        (mem_filterMap.mpr ⟨entry, inside, by simp [transferred, submitted]⟩)
    cases all _ recorded
  | some future =>
    have recorded : (entry.1.transferType, future.outcome) ∈
        batchOutcomes answers index slices entries :=
      mem_append_right _ (mem_map.mpr ⟨⟨entry.1.transferType, future⟩,
        mem_filterMap.mpr ⟨entry, inside, by simp [transferred, submitted]⟩, rfl⟩)
    exact unwritten ⟨future, submitted, all _ recorded⟩

section Ready

variable {client : Client} (ready : client.transferSubmitter = true) (answers : Answers)
  (slices : List Slice)

include ready

theorem transferWrite_eq_ok_iff (entry : Replica × Nat) :
    transferWrite client answers slices entry = .ok ↔ Written answers 0 slices entry := by
  simp only [transferWrite, ready, if_true, Written]
  cases answers.submit 0 entry.2 entry.1 slices <;> simp

theorem accepted_outcomes {entries : List (Replica × Nat)}
    (all : rejected answers 0 slices entries = []) :
    ((accepted answers 0 slices entries).map fun record =>
        (record.replicaType, record.future.outcome)) =
      (entries.filter fun entry => entry.1.isTransferred).map fun entry =>
        (entry.1.transferType, transferWrite client answers slices entry) := by
  induction entries with
  | nil => rfl
  | cons entry rest ih =>
    unfold rejected accepted at *
    cases transferred : entry.1.isTransferred with
    | false => simpa [transferred] using ih (by simpa [transferred] using all)
    | true =>
      cases submitted : answers.submit 0 entry.2 entry.1 slices with
      | none => simp [transferred, submitted] at all
      | some future =>
        have tail := ih (by simpa [transferred, submitted] using all)
        simpa [transferred, submitted, transferWrite, ready] using tail

end Ready

/-- The error with which `Put` abandons an operation. -/
def putError (client : Client) (answers : Answers) (slices : List Slice)
    (replicas : List Replica) : ErrorCode :=
  firstFailure (transferOutcomes client answers slices replicas)

/-- The error with which a batch abandons it. -/
def batchError (client : Client) (answers : Answers) (slices : List Slice)
    (replicas : List Replica) : ErrorCode :=
  if rejected answers 0 slices replicas.zipIdx = [] then putError client answers slices replicas
  else .transferFail

theorem firstFailure_batchOutcomes {client : Client} (ready : client.transferSubmitter = true)
    (answers : Answers) (slices : List Slice) (replicas : List Replica) :
    firstFailure (batchOutcomes answers 0 slices replicas.zipIdx) =
      batchError client answers slices replicas := by
  unfold batchError
  split
  · rename_i all
    rw [batchOutcomes, all, nil_append, accepted_outcomes ready answers slices all]
    rfl
  · rename_i some
    have refused : firstFailure (rejected answers 0 slices replicas.zipIdx) = .transferFail := by
      refine firstFailure_of_uniform (fun transfer member => ?_) some
      obtain ⟨entry, -, chosen⟩ := mem_filterMap.mp member
      split at chosen
      · split at chosen
        · obtain rfl := Option.some.inj chosen
          rfl
        · cases chosen
      · cases chosen
    rw [batchOutcomes, firstFailure_append, refused]
    rfl

/-! ## What becomes of the replicas -/

/-- The replicas are all kept, only those of one type, or none. -/
inductive Fate where
  | whole
  | onlyMemory
  | onlyNof
  | nothing
  deriving DecidableEq, Repr

def fate (client : Client) (config : ReplicateConfig) (entries : List (Replica × Nat))
    (written : Replica × Nat → Bool) : Fate :=
  if client.determineReplicaWriteMode config = .flexibleDualReplica then
    match entries.any fun entry => entry.1.isMemoryReplica && written entry,
      entries.any fun entry => entry.1.isNofReplica && written entry with
    | true, true => .whole
    | true, false => .onlyMemory
    | false, true => .onlyNof
    | false, false => .nothing
  else if entries.all fun entry => !entry.1.isTransferred || written entry then .whole
  else .nothing

def Fate.decision (error : ErrorCode) : Fate → FinalizeDecision
  | .whole => ⟨some .all, none, true, .ok⟩
  | .onlyMemory => ⟨some .memory, some .nofSsd, true, .ok⟩
  | .onlyNof => ⟨some .nofSsd, some .memory, true, .ok⟩
  | .nothing => ⟨none, some .all, false, error⟩

theorem put_accounts (client : Client) (answers : Answers) (slices : List Slice)
    (replicas : List Replica) :
    Accounts (replicas.zipIdx.foldl (recordTransfer client answers slices)
        (recordAllocatedReplicas replicas)) replicas.zipIdx
      (fun entry => decide (transferWrite client answers slices entry = .ok)) := by
  obtain ⟨am, an, sm, sn, fm, fn⟩ := recordOutcome_foldl_counters
    (transferOutcomes client answers slices replicas) (recordAllocatedReplicas replicas)
  have counted : ∀ test, (transferOutcomes client answers slices replicas).countP test =
      replicas.zipIdx.countP fun entry => test (entry.1.transferType,
        transferWrite client answers slices entry) && entry.1.isTransferred := by
    intro test
    rw [transferOutcomes, countP_map, countP_filter]
    rfl
  rw [recordTransfer_foldl]
  rw [recordAllocatedReplicas_eq] at *
  simp only [transferOutcomes, Nat.zero_add] at *
  refine ⟨?_, ?_, ?_, ?_, ?_, ?_⟩
  · rw [am, countP_zipIdx_fst Replica.isMemoryReplica]
  · rw [an, countP_zipIdx_fst Replica.isNofReplica]
  · rw [sm, counted]
    refine countP_congr fun entry _ => ?_
    simp [wrote, ← Replica.memory_transferred_iff, and_comm, and_left_comm]
  · rw [sn, counted]
    refine countP_congr fun entry _ => ?_
    simp [wrote, ← Replica.nof_transferred_iff, and_comm, and_left_comm]
  · rw [fm, counted]
    refine countP_congr fun entry _ => ?_
    simp [missed, ← Replica.memory_transferred_iff, and_comm, and_left_comm]
  · rw [fn, counted]
    refine countP_congr fun entry _ => ?_
    simp [missed, ← Replica.nof_transferred_iff, and_comm, and_left_comm]

/-- The allocation that `BatchPut` checks before the transfers. -/
def allocationExpected (client : Client) (config : ReplicateConfig) (replicas : List Replica) :
    Bool :=
  hasExpectedReplicaAllocation client.determineReplicaWriteMode config
    (recordAllocatedReplicas replicas)

theorem hasExpected_eq {client : Client} {config : ReplicateConfig} {replicas : List Replica}
    {summary : ReplicaTransferSummary}
    (memory : summary.allocatedMemoryReplicas = replicas.countP Replica.isMemoryReplica)
    (nof : summary.allocatedNofReplicas = replicas.countP Replica.isNofReplica) :
    hasExpectedReplicaAllocation client.determineReplicaWriteMode config summary =
      allocationExpected client config replicas := by
  rw [allocationExpected, recordAllocatedReplicas_eq]
  simp only [hasExpectedReplicaAllocation, memory, nof]

theorem exists_transferred_of_expected {client : Client} {config : ReplicateConfig}
    {replicas : List Replica} (expected : allocationExpected client config replicas = true) :
    ∃ entry ∈ replicas.zipIdx, entry.1.isTransferred = true := by
  have positive : 0 < replicas.countP Replica.isMemoryReplica ∨
      0 < replicas.countP Replica.isNofReplica := by
    rw [allocationExpected, recordAllocatedReplicas_eq] at expected
    unfold hasExpectedReplicaAllocation at expected
    split at expected
    · exact .inl (by simpa using expected)
    · split at expected
      · simp only [decide_eq_true_eq] at expected
        omega
      · simp only [Bool.and_eq_true, decide_eq_true_eq] at expected
        omega
  have found : ∀ test : Replica → Bool, 0 < replicas.countP test →
      ∃ entry ∈ replicas.zipIdx, test entry.1 = true := by
    intro test some
    rw [← countP_zipIdx_fst, countP_pos_iff] at some
    exact some
  rcases positive with memory | nof
  · obtain ⟨entry, inside, kind⟩ := found _ memory
    exact ⟨entry, inside, by simp [Replica.isTransferred, kind]⟩
  · obtain ⟨entry, inside, kind⟩ := found _ nof
    exact ⟨entry, inside, by simp [Replica.isTransferred, kind]⟩

theorem ne_nil_of_expected {client : Client} {config : ReplicateConfig} {replicas : List Replica}
    (expected : allocationExpected client config replicas = true) : replicas ≠ [] := by
  obtain ⟨entry, inside, -⟩ := exists_transferred_of_expected expected
  rintro rfl
  cases inside

/-- What `DetermineFinalizeDecision` reads off the counters. -/
structure Tallies (summary : ReplicaTransferSummary) (entries : List (Replica × Nat))
    (written : Replica × Nat → Bool) : Prop where
  memory : (entries.any fun entry => entry.1.isMemoryReplica && written entry) =
    decide (0 < summary.successfulMemoryTransfers)
  nof : (entries.any fun entry => entry.1.isNofReplica && written entry) =
    decide (0 < summary.successfulNofTransfers)
  whole : (entries.all fun entry => !entry.1.isTransferred || written entry) = true ↔
    summary.successfulMemoryTransfers = summary.allocatedMemoryReplicas ∧
    summary.successfulNofTransfers = summary.allocatedNofReplicas ∧
    summary.failedMemoryTransfers = 0 ∧ summary.failedNofTransfers = 0

/-- The counters of a reliable write agree exactly when every replica was written. -/
theorem Accounts.all_written_iff {summary : ReplicaTransferSummary}
    {entries : List (Replica × Nat)} {written : Replica × Nat → Bool}
    (accounts : Accounts summary entries written) :
    (entries.all fun entry => !entry.1.isTransferred || written entry) = true ↔
      summary.successfulMemoryTransfers = summary.allocatedMemoryReplicas ∧
      summary.successfulNofTransfers = summary.allocatedNofReplicas ∧
      summary.failedMemoryTransfers = 0 ∧ summary.failedNofTransfers = 0 := by
  simp only [all_eq_true, Replica.isTransferred]
  constructor
  · intro all
    refine ⟨?_, ?_, ?_, ?_⟩
    · rw [accounts.successfulMemory, accounts.allocatedMemory]
      refine countP_congr fun entry inside => ?_
      have written := all entry inside
      grind
    · rw [accounts.successfulNof, accounts.allocatedNof]
      refine countP_congr fun entry inside => ?_
      have written := all entry inside
      grind
    · rw [accounts.failedMemory, countP_eq_zero]
      intro entry inside
      have written := all entry inside
      grind
    · rw [accounts.failedNof, countP_eq_zero]
      intro entry inside
      have written := all entry inside
      grind
  · rintro ⟨-, -, memory, nof⟩ entry inside
    rw [accounts.failedMemory, countP_eq_zero] at memory
    rw [accounts.failedNof, countP_eq_zero] at nof
    have memoryWritten := memory entry inside
    have nofWritten := nof entry inside
    grind

theorem Accounts.tallies {summary : ReplicaTransferSummary} {entries : List (Replica × Nat)}
    {written : Replica × Nat → Bool} (accounts : Accounts summary entries written) :
    Tallies summary entries written where
  memory := by
    rw [accounts.successfulMemory, Bool.eq_iff_iff, decide_eq_true_eq, countP_pos_iff, any_eq_true]
  nof := by
    rw [accounts.successfulNof, Bool.eq_iff_iff, decide_eq_true_eq, countP_pos_iff, any_eq_true]
  whole := accounts.all_written_iff

/-- The error of an operation that is abandoned with the expected replicas. -/
def ReplicaTransferSummary.abandonError (summary : ReplicaTransferSummary)
    (mode : ReplicaWriteMode) : ErrorCode :=
  if summary.firstError ≠ .ok then summary.firstError
  else if mode = .flexibleDualReplica then .noAvailableHandle else .transferFail

/-- With the expected replicas the decision is that of their fate. -/
theorem determineFinalizeDecision_fate {client : Client} {config : ReplicateConfig}
    {summary : ReplicaTransferSummary} {entries : List (Replica × Nat)}
    {written : Replica × Nat → Bool} (tallies : Tallies summary entries written)
    (allocated : hasExpectedReplicaAllocation client.determineReplicaWriteMode config
      summary = true) :
    determineFinalizeDecision client.determineReplicaWriteMode config summary =
      (fate client config entries written).decision
        (summary.abandonError (client.determineReplicaWriteMode config)) := by
  obtain ⟨memory, nof, whole⟩ := tallies
  unfold determineFinalizeDecision fate ReplicaTransferSummary.abandonError
  by_cases flexible : client.determineReplicaWriteMode config = .flexibleDualReplica
  · simp only [flexible, ne_eq, not_true_eq_false, if_false, if_true, memory, nof]
    cases decide (0 < summary.successfulMemoryTransfers) <;>
      cases decide (0 < summary.successfulNofTransfers) <;> simp [Fate.decision]
  · simp only [flexible, ne_eq, not_false_eq_true, if_true, if_false, allocated, Bool.true_and]
    cases all : entries.all fun entry => !entry.1.isTransferred || written entry with
    | true =>
      obtain ⟨memoryWritten, nofWritten, memoryFailed, nofFailed⟩ := whole.mp all
      simp [memoryWritten, nofWritten, memoryFailed, nofFailed, Fate.decision]
    | false =>
      have missing := mt whole.mpr (by simp [all])
      simp only [Bool.and_eq_true, decide_eq_true_eq, and_assoc, missing, if_false, Fate.decision]
      simp

theorem Fate.decision_congr {fate : Fate} {error other : ErrorCode}
    (same : fate = .nothing → error = other) : fate.decision error = fate.decision other := by
  cases fate with
  | nothing => rw [same rfl]
  | _ => rfl

theorem fate_of_unwritten {client : Client} {config other : ReplicateConfig}
    {replicas : List Replica} (expected : allocationExpected client other replicas = true)
    {written : Replica × Nat → Bool} (unwritten : ∀ entry, written entry = false) :
    fate client config replicas.zipIdx written = .nothing := by
  obtain ⟨entry, inside, transferred⟩ := exists_transferred_of_expected expected
  have partly : (replicas.zipIdx.all fun entry => !entry.1.isTransferred || false) = false :=
    all_eq_false.mpr ⟨entry, inside, by simp [transferred]⟩
  have none : (replicas.zipIdx.any fun _ => false) = false := any_eq_false.mpr (by simp)
  simp only [fate, unwritten, partly, Bool.and_false, none, Bool.false_eq_true, if_false, ite_self]

/-- Abandoned replicas have one that was to be transferred and was not written. -/
theorem exists_unwritten_of_nothing {client : Client} {config other : ReplicateConfig}
    {replicas : List Replica} (expected : allocationExpected client other replicas = true)
    {written : Replica × Nat → Bool}
    (abandoned : fate client config replicas.zipIdx written = .nothing) :
    ∃ entry ∈ replicas.zipIdx, entry.1.isTransferred = true ∧ written entry = false := by
  unfold fate at abandoned
  split at abandoned
  · obtain ⟨entry, inside, transferred⟩ := exists_transferred_of_expected expected
    refine ⟨entry, inside, transferred, ?_⟩
    split at abandoned <;> try cases abandoned
    rename_i memory nof
    have noMemory := any_eq_false.mp memory entry inside
    have noNof := any_eq_false.mp nof entry inside
    unfold Replica.isTransferred at transferred
    grind
  · split at abandoned
    · cases abandoned
    · rename_i partly
      obtain ⟨entry, inside, unwritten⟩ := all_eq_false.mp (Bool.eq_false_iff.mpr partly)
      exact ⟨entry, inside, by simpa using unwritten⟩

end Mooncake.Put
