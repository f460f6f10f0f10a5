import Mooncake.Put.Transfer

/-!
# Put of one object

`Put` transfers the replicas one after the other and then sends at most one End
and one Revoke.  The asynchronous copy of a disk replica to the local file
system has a finalize request of its own and is not part of the call.
-/

namespace Mooncake.Put

open ReplicaTransferSummary

def transferWrite (client : Client) (answers : Answers) (slices : List Slice)
    (entry : Replica × Nat) : ErrorCode :=
  if client.transferSubmitter then
    match answers.submit 0 entry.2 entry.1 slices with
    | none => .transferFail
    | some future => future.outcome
  else .invalidParams

/-- The transfer loop of `Put`, for one replica. -/
def recordTransfer (client : Client) (answers : Answers) (slices : List Slice)
    (summary : ReplicaTransferSummary) (entry : Replica × Nat) : ReplicaTransferSummary :=
  if entry.1.isTransferred then
    summary.recordOutcome (entry.1.transferType, transferWrite client answers slices entry)
  else summary

/-- One run of `Put`: the replicas of the start, the finalize requests with
their responses, and the result. -/
structure PutCall where
  replicas : Option (List Replica) := none
  ended : Option (ReplicaType × Expected Unit) := none
  revoked : Option (ReplicaType × Expected Unit) := none
  result : Expected Unit

def finalizePut (answers : Answers) (key : ObjectKey) (replicas : List Replica)
    (decision : FinalizeDecision) : PutCall :=
  let ended := decision.endType.map fun replicaType => (replicaType, answers.putEnd key replicaType)
  match ended with
  | some (_, .error error) =>
    { replicas := some replicas, ended := ended, result := .error error }
  | _ =>
    let revoked := decision.revokeType.map
      fun replicaType => (replicaType, answers.putRevoke key replicaType)
    match revoked with
    | some (_, .error error) =>
      { replicas := some replicas, ended := ended, revoked := revoked, result := .error error }
    | _ =>
      { replicas := some replicas
        ended := ended
        revoked := revoked
        result := if decision.success then .ok () else .error decision.error }

def put (client : Client) (answers : Answers) (key : ObjectKey) (slices : List Slice)
    (config : ReplicateConfig) : PutCall :=
  let clientConfig := putConfig client config
  match answers.putStart key (slices.map Slice.size) clientConfig with
  | .error error =>
    { result := if error = .objectAlreadyExists then .ok () else .error error }
  | .ok replicas =>
    let transferSummary := replicas.zipIdx.foldl (recordTransfer client answers slices)
      (recordAllocatedReplicas replicas)
    finalizePut answers key replicas
      (determineFinalizeDecision client.determineReplicaWriteMode clientConfig transferSummary)

/-! ## What is sent -/

section Sent

variable (answers : Answers) (key : ObjectKey) (replicas : List Replica)
  (decision : FinalizeDecision)

theorem finalizePut_replicas :
    (finalizePut answers key replicas decision).replicas = some replicas := by
  unfold finalizePut
  dsimp only
  split
  · rfl
  · split <;> rfl

theorem finalizePut_ended :
    (finalizePut answers key replicas decision).ended =
      decision.endType.map fun replicaType => (replicaType, answers.putEnd key replicaType) := by
  unfold finalizePut
  dsimp only
  split
  · rfl
  · split <;> rfl

theorem finalizePut_revoked :
    (finalizePut answers key replicas decision).revoked = none ∨
      (finalizePut answers key replicas decision).revoked =
        decision.revokeType.map fun replicaType =>
          (replicaType, answers.putRevoke key replicaType) := by
  unfold finalizePut
  dsimp only
  split
  · exact .inl rfl
  · split <;> exact .inr rfl

end Sent

/-! ## What the loop counts -/

/-- Some replica of the given type was transferred with `OK`. -/
def Wrote (client : Client) (answers : Answers) (slices : List Slice)
    (replicas : List Replica) (replicaType : ReplicaType) : Prop :=
  ∃ entry ∈ replicas.zipIdx, entry.1.isTransferred = true ∧
    entry.1.transferType = replicaType ∧ transferWrite client answers slices entry = .ok

theorem recordTransfer_foldl (client : Client) (answers : Answers) (slices : List Slice)
    (entries : List (Replica × Nat)) (summary : ReplicaTransferSummary) :
    entries.foldl (recordTransfer client answers slices) summary =
      ((entries.filter fun entry => entry.1.isTransferred).map fun entry =>
        (entry.1.transferType, transferWrite client answers slices entry)).foldl
          recordOutcome summary := by
  induction entries generalizing summary with
  | nil => rfl
  | cons entry rest ih =>
    rw [List.foldl_cons, ih]
    cases transferred : entry.1.isTransferred <;> simp [recordTransfer, transferred]

theorem put_counts (client : Client) (answers : Answers) (slices : List Slice)
    (replicas : List Replica) :
    let summary := replicas.zipIdx.foldl (recordTransfer client answers slices)
      (recordAllocatedReplicas replicas)
    (0 < summary.successfulMemoryTransfers ↔ Wrote client answers slices replicas .memory) ∧
    (0 < summary.successfulNofTransfers ↔ Wrote client answers slices replicas .nofSsd) := by
  have positive : ∀ replicaType,
      0 < ((replicas.zipIdx.filter fun entry => entry.1.isTransferred).map fun entry =>
        (entry.1.transferType, transferWrite client answers slices entry)).countP
          (wrote replicaType) ↔ Wrote client answers slices replicas replicaType := by
    intro replicaType
    simp [List.countP_pos_iff, Wrote, wrote]
    grind
  obtain ⟨-, -, memory, nof, -, -⟩ := recordOutcome_foldl_counters
    ((replicas.zipIdx.filter fun entry => entry.1.isTransferred).map fun entry =>
      (entry.1.transferType, transferWrite client answers slices entry))
    (recordAllocatedReplicas replicas)
  simp only [recordTransfer_foldl]
  rw [memory, nof, recordAllocatedReplicas_eq]
  simp only [Nat.zero_add]
  exact ⟨positive .memory, positive .nofSsd⟩

end Mooncake.Put
