import Mooncake.Put.Coverage
import Mooncake.Put.OneKey

/-!
# When `Put` and `BatchPut` do the same for one key

The comparison of the two calls, by what the master grants: nothing, not the replicas that
were expected, or these.  Only in the last case does a batch transfer at all.
-/

namespace Mooncake.Put

open ReplicaTransferSummary List

namespace OnePut

/-! ## The decision of `Put` -/

section Put

variable (one : OnePut) (replicas : List Replica)

def singleError : ErrorCode :=
  putError one.client one.answers one.slices replicas

/-- What the transfers of `Put` leave of the object. -/
def singleFate : Fate :=
  Put.fate one.client one.config replicas.zipIdx fun entry =>
    decide (transferWrite one.client one.answers one.slices entry = .ok)

theorem summary_firstError : (one.summary replicas).firstError = one.singleError replicas := by
  rw [summary, recordTransfer_foldl, recordOutcome_foldl_firstError, recordAllocatedReplicas_eq]
  rfl

theorem summary_expected :
    hasExpectedReplicaAllocation one.client.determineReplicaWriteMode one.config
      (one.summary replicas) = one.expected replicas := by
  have accounts := put_accounts one.client one.answers one.slices replicas
  exact hasExpected_eq
    (accounts.allocatedMemory.trans (countP_zipIdx_fst Replica.isMemoryReplica replicas))
    (accounts.allocatedNof.trans (countP_zipIdx_fst Replica.isNofReplica replicas))

variable {replicas}

theorem decision_of_expected (expected : one.expected replicas = true) :
    one.decision replicas = (one.singleFate replicas).decision (one.singleError replicas) := by
  have tallies : Tallies (one.summary replicas) replicas.zipIdx _ :=
    (put_accounts one.client one.answers one.slices replicas).tallies
  refine (determineFinalizeDecision_fate tallies
    ((one.summary_expected replicas).trans expected)).trans ?_
  refine Fate.decision_congr fun abandoned => ?_
  obtain ⟨entry, inside, transferred, unwritten⟩ := exists_unwritten_of_nothing expected abandoned
  have failed : one.singleError replicas ≠ .ok := by
    rw [singleError, putError, Ne, firstFailure_eq_ok_iff]
    intro all
    have done := all (entry.1.transferType, transferWrite one.client one.answers one.slices entry)
      (mem_map.mpr ⟨entry, mem_filter.mpr ⟨inside, transferred⟩, rfl⟩)
    exact of_decide_eq_false unwritten done
  rw [abandonError, summary_firstError, if_pos failed]

/-- Without the expected replicas, `Put` revokes after the transfers. -/
theorem decision_of_unexpected (dual : FlexibleOnlyDual one.client)
    (unexpected : one.expected replicas = false) :
    one.decision replicas = Fate.nothing.decision .noAvailableHandle := by
  have expectation := one.summary_expected replicas
  rw [unexpected] at expectation
  have accounts : Accounts (one.summary replicas) replicas.zipIdx _ :=
    put_accounts one.client one.answers one.slices replicas
  have first := one.summary_firstError replicas
  unfold decision determineFinalizeDecision
  generalize one.summary replicas = summary at expectation accounts first ⊢
  by_cases flexible : one.client.determineReplicaWriteMode one.config = .flexibleDualReplica
  · -- In flexible mode the allocation is empty, so nothing was transferred either.
    obtain ⟨-, oneNof⟩ := dual one.config flexible
    have none : summary.allocatedMemoryReplicas = 0 ∧ summary.allocatedNofReplicas = 0 := by
      simpa [hasExpectedReplicaAllocation, oneNof, flexible] using expectation
    rw [accounts.allocatedMemory, accounts.allocatedNof, countP_eq_zero, countP_eq_zero] at none
    have memory : summary.successfulMemoryTransfers = 0 := by
      rw [accounts.successfulMemory, countP_eq_zero]
      exact fun entry inside both => none.1 entry inside (Bool.and_eq_true _ _ ▸ both).1
    have nof : summary.successfulNofTransfers = 0 := by
      rw [accounts.successfulNof, countP_eq_zero]
      exact fun entry inside both => none.2 entry inside (Bool.and_eq_true _ _ ▸ both).1
    have unfailed : summary.firstError = .ok := by
      rw [first, singleError, putError, firstFailure_eq_ok_iff]
      intro transfer recorded
      obtain ⟨entry, kept, -⟩ := mem_map.mp recorded
      obtain ⟨inside, transferred⟩ := mem_filter.mp kept
      have noMemory := none.1 entry inside
      have noNof := none.2 entry inside
      simp_all [Replica.isTransferred]
    simp [flexible, memory, nof, unfailed, Fate.decision]
  · simp [flexible, expectation, Fate.decision]

theorem decision_of_unready (unready : one.client.transferSubmitter = false)
    (expected : one.expected replicas = true) :
    one.decision replicas = Fate.nothing.decision .invalidParams := by
  have refused : ∀ entry, transferWrite one.client one.answers one.slices entry =
      .invalidParams := by
    intro entry
    simp [transferWrite, unready]
  obtain ⟨entry, inside, transferred⟩ := exists_transferred_of_expected expected
  have error : one.singleError replicas = .invalidParams := by
    apply firstFailure_of_uniform
    · intro transfer recorded
      obtain ⟨entry, -, rfl⟩ := mem_map.mp recorded
      exact refused entry
    · exact ne_nil_of_mem (mem_map.mpr ⟨entry, mem_filter.mpr ⟨inside, transferred⟩, rfl⟩)
  have nothing : one.singleFate replicas = .nothing :=
    fate_of_unwritten expected fun entry => by simp [refused entry]
  rw [one.decision_of_expected expected, nothing, error]

end Put

/-! ## The batch -/

section Batch

variable {one : OnePut} (default : one.asked.preferAllocInSameNode = false)

include default

/-- The key fails with the error of its start, or with that of the transfer. -/
theorem of_refused {error : ErrorCode} (refused : one.start = .error error) :
    one.fate = .nothing ∧ one.groups = [] ∧
      one.error = if one.client.transferSubmitter then error else .invalidParams := by
  have spread := config_preferAllocInSameNode default
  have none : one.grant.replicas = [] := by simp [grant, refused, Grant.replicas]
  have started : one.grant.startError = error := by simp [grant, refused, Grant.startError]
  simp only [fate, groups, OnePut.error, Grant.fate, Grant.error, none, allocationExpected_nil,
    started, spread]
  cases one.client.transferSubmitter <;> simp

variable {replicas : List Replica} (granted : one.start = .ok replicas)

include granted

omit default in
theorem grant_replicas : one.grant.replicas = replicas := by
  simp [grant, granted, Grant.replicas]

/-- Without the expected replicas, or without a submitter, the operation fails before it is
finalized. -/
theorem of_failed
    (failed : (one.client.transferSubmitter && one.expected replicas) = false) :
    one.fate = .nothing ∧
      one.error = (if one.client.transferSubmitter then .noAvailableHandle else .invalidParams) ∧
      ∀ files, one.batchDiskRequests files = [] := by
  have spread := config_preferAllocInSameNode default
  have held := grant_replicas granted
  have started : one.grant.startError = .noAvailableHandle := by
    simp [grant, granted, Grant.startError]
  simp only [batchDiskRequests, held, failed, Bool.false_eq_true, if_false, implies_true, and_true]
  cases ready : one.client.transferSubmitter with
  | false => exact ⟨Grant.fate_of_unready spread ready, by simp [error, Grant.error, spread, ready]⟩
  | true =>
    rw [ready, Bool.true_and, expected] at failed
    simp [fate, error, Grant.fate, Grant.error, held, failed, started, ready]

theorem of_expected (counts : WriteModeOfCounts one.client)
    (ready : one.client.transferSubmitter = true) (expected : one.expected replicas = true) :
    one.fate = one.singleFate replicas ∧ (one.fate = .nothing →
      one.error = batchError one.client one.answers one.slices replicas) := by
  have spread := config_preferAllocInSameNode default
  have held := grant_replicas granted
  have slices_ : one.grant.slices = one.slices := rfl
  unfold OnePut.expected at expected
  have mode : one.client.determineReplicaWriteMode (requestedCounts one.config) =
      one.client.determineReplicaWriteMode one.config := (counts _).symm
  have again : allocationExpected one.client (requestedCounts one.config) replicas = true := by
    rw [← expected, allocationExpected, allocationExpected, hasExpectedReplicaAllocation, mode]
    rfl
  have decided : one.fate = one.singleFate replicas := by
    simp only [fate, singleFate, Grant.fate, held, expected, again, Bool.and_self, if_true,
      Put.fate, mode, Grant.written, spread, Bool.false_eq_true, if_false, ready, Bool.true_and,
      transferWrite_eq_ok_iff ready, slices_]
  refine ⟨decided, fun abandoned => ?_⟩
  rw [decided] at abandoned
  obtain ⟨entry, inside, transferred, unwritten⟩ := exists_unwritten_of_nothing expected abandoned
  rw [decide_eq_false_iff_not, transferWrite_eq_ok_iff ready] at unwritten
  have failed := firstFailure_batchOutcomes_ne_ok inside transferred unwritten
  have first : one.grant.firstError one.client one.answers one.config [one.grant] 0 =
      firstFailure (batchOutcomes one.answers 0 one.slices replicas.zipIdx) := by
    simp [Grant.firstError, spread, held, slices_]
  rw [← firstFailure_batchOutcomes ready]
  simp [error, Grant.error, spread, held, expected, again, ready, first, failed]

end Batch

/-! ## Both calls -/

section Both

variable {one : OnePut} (same : SameOutcomes one.answers one.key) (files : LocalFiles)
  (default : one.asked.preferAllocInSameNode = false)

theorem put_of_refused {error : ErrorCode} (refused : one.start = .error error) :
    put one.client one.answers one.key one.slices one.asked =
        { result := reported (.error error) } ∧
      one.sent files one.singleCall = [] := by
  have call : put one.client one.answers one.key one.slices one.asked =
      { result := reported (.error error) } := by
    unfold start config at refused
    simp only [put, refused, reported, Except.error.injEq]
  have events : (StoreCall.mk one.client one.answers files one.singleCall).finalizeEvents 0 =
      [] := by
    simp [StoreCall.finalizeEvents, singleCall, call, PutCall.events]
  refine ⟨call, ?_⟩
  rw [sent, sent_eq (by simp [events]), events]
  simp only [StoreCall.fileStatements, singleCall, call, storeDiskReplica]
  cases files.storageBackend <;> rfl

include same default

theorem alike_iff_of_refused {error : ErrorCode} (refused : one.start = .error error) :
    PutsAlike one.client one.answers files one.key one.slices one.asked ↔
      one.client.transferSubmitter = true ∨ error = .invalidParams := by
  obtain ⟨call, sent⟩ := put_of_refused files refused
  obtain ⟨nothing, none, failed⟩ := of_refused default refused
  have silent : one.batchDiskRequests files = [] := by
    simp [batchDiskRequests, expected, grant, Grant.replicas, refused, allocationExpected_nil]
  have results := batchPut_results same default
  have requests := sent_batchCall files same default
  rw [none, silent] at requests
  rw [result, none, nothing, failed] at results
  have alike : PutsAlike one.client one.answers files one.key one.slices one.asked ↔
      reported (.error (if one.client.transferSubmitter then error else .invalidParams)) =
        reported (.error error) := by
    constructor
    · rintro ⟨result, -⟩
      rw [results, call] at result
      exact (List.cons.inj result).1
    · intro result
      refine ⟨by rw [results, call]; exact congrArg (fun result => [result]) result, ?_⟩
      change ∀ event, event ∈ one.sent files one.batchCall ↔ event ∈ one.sent files one.singleCall
      simp [requests, sent]
  rw [alike]
  cases one.client.transferSubmitter with
  | true => simp
  | false =>
    by_cases hidden : error = .objectAlreadyExists <;> simp [reported, hidden, eq_comm]

variable {replicas : List Replica} (granted : one.start = .ok replicas)

include granted

theorem alike_iff_of_failed (dual : FlexibleOnlyDual one.client)
    (failed : (one.client.transferSubmitter && one.expected replicas) = false) :
    PutsAlike one.client one.answers files one.key one.slices one.asked ↔
      replicas ≠ [] ∧
        (files.storageBackend = true → replicas.any Replica.isDiskReplica = false) ∧
        RevokesAlike one.answers one.key
          (if one.expected replicas then .invalidParams else .noAvailableHandle)
          (if one.client.transferSubmitter then .noAvailableHandle else .invalidParams) := by
  have decided : one.decision replicas = Fate.nothing.decision
      (if one.expected replicas then .invalidParams else .noAvailableHandle) := by
    cases expected : one.expected replicas with
    | false => exact one.decision_of_unexpected dual expected
    | true =>
      rw [expected, Bool.and_true] at failed
      exact one.decision_of_unready failed expected
  obtain ⟨nothing, error, disk⟩ := of_failed default granted failed
  have groups : one.groups = if replicas = [] then [] else Fate.nothing.groups := by
    rw [OnePut.groups, nothing, grant_replicas granted]
  rw [alike_iff_of_granted files same default granted decided, result, nothing, error, groups,
    disk, diskRequests_absent_iff]
  by_cases empty : replicas = []
  · -- Only `Put` sends a Revoke for a start without replicas.
    refine iff_of_false ?_ fun kept => kept.1 empty
    rintro ⟨-, -, alike⟩
    have sent := (alike (.putRevoke ⟨0, 0⟩ one.key .all)).mpr (by
      cases revoked : one.answers.putRevoke one.key .all <;>
        simp [finalizePut, PutCall.events, Fate.decision, revoked])
    simp [empty] at sent
  · simp only [empty, if_false, ne_eq, not_false_eq_true, true_and]
    exact and_congr_right fun _ =>
      Fate.finishesAlike_iff one.answers one.key replicas .nothing _ _

theorem alike_iff_of_expected (counts : WriteModeOfCounts one.client)
    (ready : one.client.transferSubmitter = true) (expected : one.expected replicas = true) :
    PutsAlike one.client one.answers files one.key one.slices one.asked ↔
      (one.singleFate replicas).Alike one.answers one.key (one.singleError replicas)
        (batchError one.client one.answers one.slices replicas) := by
  have held := grant_replicas granted
  obtain ⟨same_, error⟩ := of_expected default granted counts ready expected
  have disk : one.batchDiskRequests files = diskRequests files one.key one.slices replicas := by
    simp [batchDiskRequests, ready, held, expected]
  have groups : one.groups = one.fate.groups := by
    rw [OnePut.groups, held, if_neg (ne_nil_of_expected expected)]
  rw [alike_iff_of_granted files same default granted (one.decision_of_expected expected), disk,
    result, groups, Fate.result_congr error, same_, Fate.finishesAlike_iff]
  simp

end Both

end OnePut

/-- `Put` and a `BatchPut` of the one key return the same and send the same requests exactly
when the responses and outcomes keep them from the differences. -/
theorem put_batchPut_alike_iff (client : Client) (counts : WriteModeOfCounts client)
    (dual : FlexibleOnlyDual client) (answers : Answers) (key : ObjectKey)
    (same : SameOutcomes answers key) (files : LocalFiles) (slices : List Slice)
    (config : ReplicateConfig) (default : config.preferAllocInSameNode = false) :
    PutsAlike client answers files key slices config ↔
      AlikeWhen answers key client files slices config := by
  let one : OnePut := ⟨client, answers, key, slices, config⟩
  unfold AlikeWhen
  cases start : answers.putStart key (slices.map Slice.size) (putConfig client config) with
  | error error => exact @OnePut.alike_iff_of_refused one same files default _ start
  | ok replicas =>
    dsimp only
    split
    · rename_i both
      obtain ⟨ready, expected⟩ := Bool.and_eq_true_iff.mp both
      exact @OnePut.alike_iff_of_expected one same files default _ start counts ready expected
    · rename_i failed
      exact @OnePut.alike_iff_of_failed one same files default _ start dual
        (Bool.eq_false_iff.mpr failed)

/-- A master that answers a batch key by key. -/
def Answers.keyByKey (answers : Answers) : Answers :=
  { answers with
    batchPutStart := fun keys lengths config =>
      List.zipWith (fun key sizes => answers.putStart key sizes config) keys lengths
    batchPutEnd := fun keys replicaType => keys.map fun key => answers.putEnd key replicaType
    batchPutRevoke := fun keys replicaType =>
      keys.map fun key => answers.putRevoke key replicaType }

theorem Answers.keyByKey_sameOutcomes (answers : Answers) {key : ObjectKey} :
    SameOutcomes answers.keyByKey key :=
  ⟨fun _ _ => rfl, fun _ => rfl, fun _ => rfl⟩

theorem sampleClient_writeModeOfCounts : WriteModeOfCounts sampleClient :=
  fun _ => rfl

def bothWritten : Answers :=
  { sampleAnswers with putStart := fun _ _ _ => .ok [sampleMemoryReplica, sampleNofReplica] }

/-- The NoF transfer fails, and then the End of the memory replica. -/
def endFails : Answers :=
  { bothWritten with
    submit := fun _ replicaIndex _ _ =>
      if replicaIndex = 0 then some ⟨.ok⟩ else some ⟨.transferFail⟩
    putEnd := fun _ _ => .error .rpcFail }

def noFiles : LocalFiles where
  storageBackend := false
  copyToHost := fun _ => none
  storeObject := fun _ => .ok []

theorem bothWritten_alike :
    PutsAlike sampleClient bothWritten.keyByKey noFiles "a" [⟨0, 4⟩]
      { replicaNum := 1, nofReplicaNum := 1 } :=
  (put_batchPut_alike_iff sampleClient sampleClient_writeModeOfCounts
    sampleClient_flexibleOnlyDual _ "a" bothWritten.keyByKey_sameOutcomes noFiles _ _
    rfl).mpr (by exact (by decide : bothWritten.keyByKey.putEnd "a" .all ≠
      .error .objectAlreadyExists))

/-- After the failed End the batch revokes the NoF replica and `Put` does not. -/
theorem endFails_differs :
    SameOutcomes endFails.keyByKey "a" ∧
      ¬ PutsAlike sampleClient endFails.keyByKey noFiles "a" [⟨0, 4⟩]
        { replicaNum := 1, nofReplicaNum := 1 } := by
  refine ⟨endFails.keyByKey_sameOutcomes, fun alike => ?_⟩
  have sent := (alike.requests (.putRevoke ⟨0, 0⟩ "a" .nofSsd)).mp (by decide +kernel)
  revert sent
  decide +kernel

end Mooncake.Put
