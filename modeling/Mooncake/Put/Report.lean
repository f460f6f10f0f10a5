import Mooncake.Put.Coverage
import Mooncake.Put.Single

/-!
# Reported and committed

A put is committed when the master acknowledges an End for it.  The calls
report more and less than that: a failed Revoke of the other replica type turns
a committed put into an error, and `CollectResults` turns every
`OBJECT_ALREADY_EXISTS` into a success, whichever request it answered.
-/

namespace Mooncake.Put

open Library.Indexed

/-! ## One object -/

/-- Success is reported exactly for an acknowledged End. -/
def PutCall.ReportsCommit (call : PutCall) : Prop :=
  call.replicas ≠ none →
    (call.result = .ok () ↔ ∃ replicaType, call.ended = some (replicaType, .ok ()))

/-- In flexible mode, when only `kept` was written, an acknowledged End is
followed by an acknowledged Revoke. -/
def RevokeFollows (client : Client) (answers : Answers) (key : ObjectKey)
    (slices : List Slice) (replicas : List Replica) (kept dropped : ReplicaType) : Prop :=
  Wrote client answers slices replicas kept → ¬ Wrote client answers slices replicas dropped →
    answers.putEnd key kept = .ok () → answers.putRevoke key dropped = .ok ()

/-- The inputs on which `Put` reports what it committed. -/
def PutClean (client : Client) (answers : Answers) (key : ObjectKey) (slices : List Slice)
    (config : ReplicateConfig) : Prop :=
  ∀ replicas,
    answers.putStart key (slices.map Slice.size) (putConfig client config) = .ok replicas →
    client.determineReplicaWriteMode (putConfig client config) = .flexibleDualReplica →
    RevokeFollows client answers key slices replicas .memory .nofSsd ∧
      RevokeFollows client answers key slices replicas .nofSsd .memory

variable (client : Client) (answers : Answers) (key : ObjectKey) (replicas : List Replica)
  (kept : ReplicaType)

theorem finalizePut_commitAll :
    (finalizePut answers key replicas ⟨some kept, none, true, .ok⟩).ReportsCommit := by
  intro _
  cases ended : answers.putEnd key kept <;> simp [finalizePut, ended]

theorem finalizePut_commitOne (dropped : ReplicaType) :
    (finalizePut answers key replicas ⟨some kept, some dropped, true, .ok⟩).ReportsCommit ↔
      (answers.putEnd key kept = .ok () → answers.putRevoke key dropped = .ok ()) := by
  cases ended : answers.putEnd key kept with
  | error error => simp [finalizePut, PutCall.ReportsCommit, ended]
  | ok value =>
    cases revoked : answers.putRevoke key dropped <;>
      simp [finalizePut, PutCall.ReportsCommit, ended, revoked]

theorem finalizePut_abandon {error : ErrorCode} :
    (finalizePut answers key replicas ⟨none, some .all, false, error⟩).ReportsCommit := by
  intro _
  cases revoked : answers.putRevoke key .all <;> simp [finalizePut, revoked]

theorem put_reportsCommit (slices : List Slice) (config : ReplicateConfig) :
    (put client answers key slices config).ReportsCommit ↔
      PutClean client answers key slices config := by
  unfold put PutClean
  dsimp only
  cases start : answers.putStart key (slices.map Slice.size) (putConfig client config) with
  | error error => simp [PutCall.ReportsCommit]
  | ok replicas =>
    obtain ⟨memory, nof⟩ := put_counts client answers slices replicas
    have shape := determineFinalizeDecision_shape client.determineReplicaWriteMode
      (putConfig client config)
      (replicas.zipIdx.foldl (recordTransfer client answers slices)
        (ReplicaTransferSummary.recordAllocatedReplicas replicas))
    dsimp only
    generalize determineFinalizeDecision client.determineReplicaWriteMode
      (putConfig client config) _ = decision at shape ⊢
    simp only [Except.ok.injEq, forall_eq']
    cases shape with
    | commitAll counts =>
      refine iff_of_true (finalizePut_commitAll answers key replicas .all) fun flexible => ?_
      rcases counts with ⟨-, writtenMemory, writtenNof⟩ | ⟨reliable, -⟩
      · exact ⟨fun _ unwritten => absurd (nof.mp writtenNof) unwritten,
          fun _ unwritten => absurd (memory.mp writtenMemory) unwritten⟩
      · exact absurd flexible reliable
    | commitMemory flexible written alone =>
      have wroteMemory := memory.mp written
      have missedNof := (not_congr nof).mp (Nat.not_lt.mpr (Nat.le_of_eq alone))
      rw [finalizePut_commitOne]
      constructor
      · intro follows _
        exact ⟨fun _ _ => follows, fun wroteNof => absurd wroteNof missedNof⟩
      · intro clean
        exact (clean flexible).1 wroteMemory missedNof
    | commitNof flexible written alone =>
      have wroteNof := nof.mp written
      have missedMemory := (not_congr memory).mp (Nat.not_lt.mpr (Nat.le_of_eq alone))
      rw [finalizePut_commitOne]
      constructor
      · intro follows _
        exact ⟨fun wroteMemory => absurd wroteMemory missedMemory, fun _ _ => follows⟩
      · intro clean
        exact (clean flexible).2 wroteNof missedMemory
    | abandon failed unwritten =>
      refine iff_of_true (finalizePut_abandon answers key replicas) fun flexible => ?_
      obtain ⟨noMemory, noNof⟩ := unwritten flexible
      have missedMemory := (not_congr memory).mp (Nat.not_lt.mpr (Nat.le_of_eq noMemory))
      have missedNof := (not_congr nof).mp (Nat.not_lt.mpr (Nat.le_of_eq noNof))
      exact ⟨fun wrote => absurd wrote missedMemory, fun wrote => absurd wrote missedNof⟩

/-! ## A batch -/

/-- The responses to the End requests that name an object. -/
def endResponses (requests : List FinalizeRequest) (index : Nat) : List (Expected Unit) :=
  ownResponses (requests.filter fun request => request.name.isEnd) index

/-- For every object whose start returned replicas, success is reported exactly when an End for
it was acknowledged. -/
def PutRun.ReportsCommit (run : PutRun) (grants : List Grant) : Prop :=
  ∀ index grant, grants[index]? = some grant → grant.replicas ≠ [] →
    (run.results[index]? = some (.ok ()) ↔
      .ok () ∈ endResponses run.finalization.requests index)

/-- Nothing but `OBJECT_ALREADY_EXISTS` follows an acknowledged End, and what is reported after
a failed one is not `OBJECT_ALREADY_EXISTS`. -/
def KeepsClean : Expected Unit → Expected Unit → Prop
  | .ok (), .ok () => True
  | .ok (), .error revokeError => revokeError = .objectAlreadyExists
  | .error _, .error revokeError => revokeError ≠ .objectAlreadyExists
  | .error endError, .ok () => endError ≠ .objectAlreadyExists

/-- The responses and errors of an object that are reported faithfully. -/
def Fate.Clean (error : ErrorCode) (response : FinalizeGroup → Expected Unit) : Fate → Prop
  | .whole => response .endAll ≠ .error .objectAlreadyExists
  | .onlyMemory => KeepsClean (response .endMemory) (response .revokeNof)
  | .onlyNof => KeepsClean (response .endNof) (response .revokeMemory)
  | .nothing => error ≠ .objectAlreadyExists

/-- The inputs on which `BatchPut` reports what it committed. -/
def BatchPutClean (client : Client) (answers : Answers) (keys : List ObjectKey)
    (batchedSlices : List (List Slice)) (config : ReplicateConfig) : Prop :=
  let grants := batchGrants client answers keys batchedSlices config
  ∀ (index : Nat) (grant : Grant), grants[index]? = some grant → grant.replicas ≠ [] →
    (grant.fate client answers (putConfig client config) grants index).Clean
      (grant.error client answers (putConfig client config) grants index) fun name =>
        (batchRequest client answers (putConfig client config) grants name).response answers name
          index

theorem finalizeRequests_filter (ops : List PutOperation) (test : FinalizeGroup → Bool) :
    (finalizeRequests client answers ops).filter (fun request => test request.name) =
      (FinalizeGroup.order.filter test).filterMap
        (sendGroup answers (scanBatch client ops).groups) := by
  rw [finalizeRequests]
  induction FinalizeGroup.order with
  | nil => rfl
  | cons name rest ih =>
    rw [List.filterMap_cons, List.filter_cons]
    cases sent : sendGroup answers (scanBatch client ops).groups name with
    | none => cases test name <;> simp [sent, ih]
    | some request =>
      obtain ⟨rfl, -⟩ := sendGroup_eq_some sent
      cases tested : test request.name <;> simp [tested, sent, ih]

theorem reported_eq_ok_iff (result : Expected Unit) :
    reported result = .ok () ↔ result = .ok () ∨ result = .error .objectAlreadyExists := by
  unfold reported
  split
  · simp_all
  · simp_all

/-- The responses to the actions of a fate are reported faithfully exactly when they are clean. -/
theorem Fate.clean_iff (fate : Fate) (error : ErrorCode)
    (response : FinalizeGroup → Expected Unit) :
    (reported (fate.result error
        ((FinalizeGroup.order.filter fun name => decide (name ∈ fate.groups)).map response)) =
          .ok () ↔
      .ok () ∈ ((FinalizeGroup.order.filter FinalizeGroup.isEnd).filter fun name =>
        decide (name ∈ fate.groups)).map response) ↔ fate.Clean error response := by
  have kept : ∀ ended revoked : Expected Unit,
      (reported (Fate.onlyMemory.result error [ended, revoked]) = .ok () ↔ .ok () ∈ [ended]) ↔
        KeepsClean ended revoked := by
    intro ended revoked
    rw [reported_eq_ok_iff]
    cases ended <;> cases revoked <;> simp [Fate.result, lastError, KeepsClean]
  cases fate with
  | whole =>
    have ended : ∀ ended : Expected Unit, (reported (Fate.whole.result error [ended]) = .ok () ↔
        .ok () ∈ [ended]) ↔ ended ≠ .error .objectAlreadyExists := by
      intro ended
      rw [reported_eq_ok_iff]
      cases ended <;> simp [Fate.result, lastError]
    exact ended _
  | onlyMemory => exact kept _ _
  | onlyNof => exact kept _ _
  | nothing =>
    have failed : ∀ responses, (reported (Fate.nothing.result error responses) = .ok () ↔
        (.ok () : Expected Unit) ∈ []) ↔ error ≠ .objectAlreadyExists := by
      intro responses
      simp [reported_eq_ok_iff, Fate.result]
    exact failed _

theorem batchPut_reportsCommit (keys : List ObjectKey) (batchedSlices : List (List Slice))
    (config : ReplicateConfig) :
    (batchPut client answers keys batchedSlices config).ReportsCommit
        (batchGrants client answers keys batchedSlices config) ↔
      BatchPutClean client answers keys batchedSlices config := by
  unfold PutRun.ReportsCommit BatchPutClean
  dsimp only
  cases refused : batchRefused (putConfig client config) with
  | true => simp [(batchPut_of_refused refused).2]
  | false =>
    obtain ⟨started, transferred, run, -, concludes⟩ :=
      @batchPut_concludes client answers keys batchedSlices config refused
    rw [run]
    refine forall_congr' fun index => forall_congr' fun grant =>
      forall_congr' fun granted => forall_congr' fun nonempty => ?_
    have own := concludes.responses granted
    simp only [Grant.actions, nonempty, if_false] at own
    have ended : endResponses (finishBatchPut client answers started
        transferred).finalization.requests index = _ :=
      (congrArg (ownResponses · index) (finalizeRequests_filter client answers transferred
        FinalizeGroup.isEnd)).trans (own _)
    rw [concludes.results granted, ended, finalizeRequests, own, Option.some_inj]
    exact Fate.clean_iff _ _ _

/-- `Put` and `BatchPut` report what they committed exactly when every
acknowledged End is followed by an acknowledged Revoke, if one is due, and
`OBJECT_ALREADY_EXISTS` answers no request of a put that is not committed. -/
theorem put_and_batchPut_reportsCommit_iff (client : Client) (answers : Answers)
    (config : ReplicateConfig) :
    (∀ key slices, (put client answers key slices config).ReportsCommit ↔
      PutClean client answers key slices config) ∧
    (∀ keys batchedSlices, (batchPut client answers keys batchedSlices config).ReportsCommit
        (batchGrants client answers keys batchedSlices config) ↔
      BatchPutClean client answers keys batchedSlices config) :=
  ⟨fun key slices => put_reportsCommit client answers key slices config,
    fun keys batchedSlices => batchPut_reportsCommit client answers keys batchedSlices config⟩

/-- The memory replica is written and ended, the NoF replica is not, and the
Revoke of the NoF replica is lost. -/
def lostRevoke : Answers :=
  { halfWritten with
    putStart := fun _ _ _ => .ok [sampleMemoryReplica, sampleNofReplica]
    putRevoke := fun _ _ => .error .rpcFail
    batchPutRevoke := fun keys _ => keys.map fun _ => .error .rpcFail }

/-- The put is committed in memory and reported as failed, in both calls. -/
theorem lostRevoke_is_reported_as_failure :
    ¬ (put sampleClient lostRevoke "key" [⟨0, 4⟩]
        { replicaNum := 1, nofReplicaNum := 1 }).ReportsCommit ∧
    ¬ (batchPut sampleClient lostRevoke ["key"] [[⟨0, 4⟩]]
        { replicaNum := 1, nofReplicaNum := 1 }).ReportsCommit
      (batchGrants sampleClient lostRevoke ["key"] [[⟨0, 4⟩]]
        { replicaNum := 1, nofReplicaNum := 1 }) := by
  constructor
  · intro reports
    have failed : (put sampleClient lostRevoke "key" [⟨0, 4⟩]
        { replicaNum := 1, nofReplicaNum := 1 }).result = .error .rpcFail := by decide
    have success := (reports (by decide)).mpr ⟨.memory, by decide⟩
    rw [failed] at success
    cases success
  · intro reports
    have failed : (batchPut sampleClient lostRevoke ["key"] [[⟨0, 4⟩]]
        { replicaNum := 1, nofReplicaNum := 1 }).results[0]? = some (.error .rpcFail) := by
      decide
    have success := (reports 0 _ rfl (by decide)).mpr (by decide)
    rw [failed] at success
    cases success

end Mooncake.Put
