import Mooncake.Put.Grants

/-!
# Every replica is finalized once

After a batch put every memory and NoF replica that the master granted is covered by exactly
one request, and only written ones are ended.  Two things that the code relies on are outside
of it: the flexible write mode is selected only for one memory plus one NoF replica, and the
master allocates no more replicas than it was asked for.
-/

namespace Mooncake.Put

open Library.Indexed List

/-- Flexible mode is selected only for one memory plus one NoF replica. -/
def FlexibleOnlyDual (client : Client) : Prop :=
  ∀ config, client.determineReplicaWriteMode config = .flexibleDualReplica →
    config.replicaNum = 1 ∧ config.nofReplicaNum = 1

/-- The replicas of a start response are at most the requested ones. -/
def AllocatesAtMost (config : ReplicateConfig) (replicas : List Replica) : Prop :=
  replicas.countP Replica.isMemoryReplica ≤ config.replicaNum ∧
    replicas.countP Replica.isNofReplica ≤ config.nofReplicaNum

instance (config : ReplicateConfig) (replicas : List Replica) :
    Decidable (AllocatesAtMost config replicas) :=
  inferInstanceAs (Decidable (_ ∧ _))

/-- Finalizing covers every granted replica once, ends only what was written, gives every
object its own responses, and resolves all operations. -/
structure FinalizesEveryReplica (client : Client) (answers : Answers) (keys : List ObjectKey)
    (config : ReplicateConfig) (grants : List Grant) (run : PutRun) : Prop where
  covered : ∀ index grant, grants[index]? = some grant → ∀ replica ∈ grant.replicas,
    replica.isTransferred = true →
    ((run.finalization.requests.filter
        fun request => request.name.covers replica.transferType).map
      fun request => request.group.entries.count (grant.key, index)).sum = 1
  endWritten : ∀ index grant, grants[index]? = some grant →
    ∀ request ∈ run.finalization.requests, request.name.isEnd = true →
    (grant.key, index) ∈ request.group.entries →
    ∀ entry ∈ grant.replicas.zipIdx, entry.1.isTransferred = true →
    request.name.covers entry.1.transferType = true →
    grant.written client answers config grants index entry = true
  aligned : ∀ request ∈ run.finalization.requests,
    request.group.keys.length = request.group.indices.length ∧
    request.responses = (if request.name.isEnd then answers.batchPutEnd request.group.keys
      request.name.replicaType else answers.batchPutRevoke request.group.keys
        request.name.replicaType) ∧
    ∀ named ∈ request.group.entries, keys[named.2]? = some named.1
  attributed : ∀ (index : Nat) (grant : Grant), grants[index]? = some grant →
    run.results[index]? = some (reported
      ((grant.fate client answers config grants index).result
        (grant.error client answers config grants index)
        (ownResponses run.finalization.requests index)))
  refused : batchRefused config = true →
    run.results = keys.map fun _ => .error .invalidParams
  resolved : batchRefused config = false →
    run.finalization.ops.length = keys.length ∧ run.results.length = keys.length ∧
    ∀ op ∈ run.finalization.ops, op.isResolved = true

/-! ## One object -/

theorem Fate.groups_cover (fate : Fate) (replica : Replica) :
    fate.groups.countP (fun name => name.covers replica.transferType) = 1 := by
  unfold Replica.transferType
  cases fate <;> cases replica.isMemoryReplica <;> rfl

theorem Fate.kept_of_end {fate : Fate} {name : FinalizeGroup} (asked : name ∈ fate.groups)
    (ends : name.isEnd = true) :
    (name.covers .memory = true → fate = .whole ∨ fate = .onlyMemory) ∧
      (name.covers .nofSsd = true → fate = .whole ∨ fate = .onlyNof) := by
  revert asked ends
  cases fate <;> cases name <;> decide

theorem written_of_kept {client : Client} {config : ReplicateConfig}
    {entries : List (Replica × Nat)} {written : Replica × Nat → Bool}
    (flexible : client.determineReplicaWriteMode config = .flexibleDualReplica) :
    (fate client config entries written = .whole ∨
        fate client config entries written = .onlyMemory →
      (entries.any fun entry => entry.1.isMemoryReplica && written entry) = true) ∧
    (fate client config entries written = .whole ∨ fate client config entries written = .onlyNof →
      (entries.any fun entry => entry.1.isNofReplica && written entry) = true) := by
  rw [fate, if_pos flexible]
  cases entries.any fun entry => entry.1.isMemoryReplica && written entry <;>
    cases entries.any fun entry => entry.1.isNofReplica && written entry <;> simp

/-- If something was written and there is only one, then everything was. -/
theorem all_written_of_any {α : Type} {test written : α → Bool} {values : List α}
    (some : (values.any fun value => test value && written value) = true)
    (single : values.countP test ≤ 1) :
    ∀ value ∈ values, test value = true → written value = true := by
  induction values with
  | nil => exact fun _ inside => nomatch inside
  | cons first rest ih =>
    rw [any_cons, Bool.or_eq_true, Bool.and_eq_true] at some
    rw [countP_cons] at single
    intro value inside tested
    rcases some with ⟨here, done⟩ | later
    · rw [here, if_pos rfl] at single
      have none := countP_eq_zero.mp (Nat.le_zero.mp (Nat.le_of_succ_le_succ single))
      rcases mem_cons.mp inside with rfl | after
      · exact done
      · exact absurd tested (none value after)
    · obtain ⟨other, after, both⟩ := any_eq_true.mp later
      have found : 0 < rest.countP test :=
        countP_pos_iff.mpr ⟨other, after, (Bool.and_eq_true _ _ ▸ both).1⟩
      rcases mem_cons.mp inside with rfl | member
      · rw [tested, if_pos rfl] at single
        omega
      · exact ih later (by omega) value member tested

section Ended

variable {client : Client} {answers : Answers} {config : ReplicateConfig} {grants : List Grant}
  {grant : Grant} {index : Nat}

theorem isTransferred_cases {replica : Replica} (transferred : replica.isTransferred = true) :
    replica.isMemoryReplica = true ∧ replica.transferType = .memory ∨
      replica.isNofReplica = true ∧ replica.transferType = .nofSsd := by
  unfold Replica.isTransferred Replica.isMemoryReplica Replica.isNofReplica at transferred
  unfold Replica.transferType Replica.isMemoryReplica Replica.isNofReplica
  cases kind : replica.descriptor <;> simp [kind] at transferred ⊢

/-- An End is asked for only if the replicas that it covers were written. -/
theorem Grant.end_written (dual : FlexibleOnlyDual client)
    (bounded : AllocatesAtMost config grant.replicas) {name : FinalizeGroup}
    (asked : name ∈ (grant.fate client answers config grants index).groups)
    (ends : name.isEnd = true) {entry : Replica × Nat} (inside : entry ∈ grant.replicas.zipIdx)
    (transferred : entry.1.isTransferred = true)
    (covered : name.covers entry.1.transferType = true) :
    grant.written client answers config grants index entry = true := by
  unfold Grant.fate at asked
  split at asked
  · by_cases flexible : client.determineReplicaWriteMode (requestedCounts config) =
        .flexibleDualReplica
    · obtain ⟨oneMemory, oneNof⟩ := dual _ flexible
      have single : grant.replicas.zipIdx.countP (fun entry => entry.1.isMemoryReplica) ≤ 1 ∧
          grant.replicas.zipIdx.countP (fun entry => entry.1.isNofReplica) ≤ 1 := by
        rw [countP_zipIdx_fst Replica.isMemoryReplica, countP_zipIdx_fst Replica.isNofReplica]
        simp only [requestedCounts] at oneMemory oneNof
        unfold AllocatesAtMost at bounded
        omega
      have memory : (grant.replicas.zipIdx.any fun entry => entry.1.isMemoryReplica &&
          grant.written client answers config grants index entry) = true →
          entry.1.isMemoryReplica = true →
          grant.written client answers config grants index entry = true :=
        fun some => all_written_of_any some single.1 entry inside
      have nof : (grant.replicas.zipIdx.any fun entry => entry.1.isNofReplica &&
          grant.written client answers config grants index entry) = true →
          entry.1.isNofReplica = true →
          grant.written client answers config grants index entry = true :=
        fun some => all_written_of_any some single.2 entry inside
      rcases isTransferred_cases transferred with ⟨isMemory, kind⟩ | ⟨isNof, kind⟩
      · rw [kind] at covered
        exact memory ((written_of_kept flexible).1 ((Fate.kept_of_end asked ends).1 covered))
          isMemory
      · rw [kind] at covered
        exact nof ((written_of_kept flexible).2 ((Fate.kept_of_end asked ends).2 covered)) isNof
    · rw [Put.fate, if_neg flexible] at asked
      split at asked
      · rename_i all
        simpa [transferred] using all_eq_true.mp all entry inside
      · rw [mem_singleton.mp asked] at ends
        cases ends
  · rw [mem_singleton.mp asked] at ends
    cases ends

end Ended

/-! ## A batch -/

theorem batchGrants_aligned {client : Client} {answers : Answers} {keys : List ObjectKey}
    {batchedSlices : List (List Slice)} {config : ReplicateConfig} {index : Nat} {grant : Grant}
    (granted : (batchGrants client answers keys batchedSlices config)[index]? = some grant) :
    keys[index]? = some grant.key := by
  have paired : ∀ {object : ObjectKey × List Slice},
      (keys.zip batchedSlices)[index]? = some object → keys[index]? = some object.1 := by
    intro object found
    exact (getElem?_zip_eq_some.mp found).1
  unfold batchGrants at granted
  dsimp only at granted
  split at granted
  · cases granted
  · split at granted
    · obtain ⟨object, start, found, -, rfl⟩ := getElem?_zipWith_eq_some.mp granted
      exact paired found
    · rw [getElem?_map, Option.map_eq_some_iff] at granted
      obtain ⟨object, found, rfl⟩ := granted
      exact paired found

theorem length_batchGrants {client : Client} {answers : Answers} {keys : List ObjectKey}
    {batchedSlices : List (List Slice)} {config : ReplicateConfig}
    (admitted : batchRefused (putConfig client config) = false)
    (paired : keys.length ≤ batchedSlices.length) :
    (batchGrants client answers keys batchedSlices config).length = keys.length := by
  simp only [batchGrants, admitted, Bool.false_eq_true, if_false]
  split
  · rename_i matched
    simp [matched, paired]
  · simp [paired]

/-- For every start response, transfer outcome and finalize response, `BatchPut` finalizes every
granted replica once and returns a result for every key. -/
theorem batchPut_finalizesEveryReplica (client : Client) (dual : FlexibleOnlyDual client)
    (answers : Answers) (keys : List ObjectKey) (batchedSlices : List (List Slice))
    (config : ReplicateConfig) (paired : keys.length ≤ batchedSlices.length)
    (allocates : ∀ grant ∈ batchGrants client answers keys batchedSlices config,
      AllocatesAtMost (putConfig client config) grant.replicas) :
    FinalizesEveryReplica client answers keys (putConfig client config)
      (batchGrants client answers keys batchedSlices config)
      (batchPut client answers keys batchedSlices config) := by
  have aligned := @batchGrants_aligned client answers keys batchedSlices config
  have lengths := @length_batchGrants client answers keys batchedSlices config
  by_cases refused : batchRefused (putConfig client config) = true
  · obtain ⟨run, none⟩ := @batchPut_of_refused client answers config keys batchedSlices refused
    rw [run, none]
    exact ⟨nofun, nofun, nofun, nofun, fun _ => rfl, fun admitted => by simp [refused] at admitted⟩
  · rw [Bool.not_eq_true] at refused
    obtain ⟨started, transferred, run, -, concludes⟩ :=
      @batchPut_concludes client answers keys batchedSlices config refused
    rw [run]
    generalize batchGrants client answers keys batchedSlices config = grants at *
    refine ⟨?_, ?_, ?_, fun index grant granted => concludes.results granted,
      fun other => by simp [refused] at other, fun _ => ⟨?_, ?_, ?_⟩⟩
    · intro index grant granted replica inside _
      obtain ⟨op, located, own⟩ := concludes.exists_op granted
      have sum := finalizeRequests_sum client answers located
        (fun name => name.covers replica.transferType)
      rw [own.key, own.plan, if_neg (ne_nil_of_mem inside), Fate.groups_cover] at sum
      exact sum
    · intro index grant granted request sent ends named entry inside written covered
      obtain ⟨op, located, own⟩ := concludes.exists_op granted
      have planned := ((named_iff_planned client answers located sent grant.key).mp named).2
      have nonempty : grant.replicas ≠ [] := by
        intro empty
        simp [empty] at inside
      rw [own.plan, if_neg nonempty] at planned
      exact Grant.end_written dual (allocates grant (mem_of_getElem? granted)) planned ends
        inside written covered
    · intro request sent
      obtain ⟨name, -, chosen⟩ := mem_filterMap.mp sent
      obtain ⟨rfl, group, responses⟩ := sendGroup_eq_some chosen
      refine ⟨by rw [group]; exact BatchFinalizeGroup.collect_lengths _ _, responses, ?_⟩
      intro named inside
      rw [group, BatchFinalizeGroup.collect_entries] at inside
      obtain ⟨⟨op, index⟩, selected, rfl⟩ := mem_map.mp inside
      obtain ⟨located, -⟩ := mem_select.mp selected
      obtain ⟨grant, granted, own⟩ := concludes.exists_grant located
      rw [own.key]
      exact aligned granted
    · simp [finishBatchPut, length_finalizeBatchPut_ops, concludes.length, lengths refused paired]
    · simp [finishBatchPut, collectResults, length_finalizeBatchPut_ops, concludes.length,
        lengths refused paired]
    · exact finalizeBatchPut_resolved client answers

/-- The memory transfer succeeds and the NoF transfer fails. -/
def halfWritten : Answers :=
  { sampleAnswers with
    batchPutStart := fun keys _ _ => keys.map fun _ => .ok [sampleMemoryReplica, sampleNofReplica]
    submit := fun _ replicaIndex _ _ =>
      if replicaIndex = 0 then some ⟨.ok⟩ else some ⟨.transferFail⟩ }

theorem sampleClient_flexibleOnlyDual : FlexibleOnlyDual sampleClient := by
  intro config flexible
  by_contra other
  simp [sampleClient, other] at flexible

theorem halfWritten_finalizesEveryReplica :
    let grants := batchGrants sampleClient halfWritten ["a", "b"] [[⟨0, 4⟩], [⟨8, 4⟩]]
      { replicaNum := 1, nofReplicaNum := 1 }
    grants.map Grant.replicas = [[sampleMemoryReplica, sampleNofReplica],
      [sampleMemoryReplica, sampleNofReplica]] ∧
    FinalizesEveryReplica sampleClient halfWritten ["a", "b"]
      (putConfig sampleClient { replicaNum := 1, nofReplicaNum := 1 }) grants
      (batchPut sampleClient halfWritten ["a", "b"] [[⟨0, 4⟩], [⟨8, 4⟩]]
        { replicaNum := 1, nofReplicaNum := 1 }) := by
  refine ⟨by decide, batchPut_finalizesEveryReplica sampleClient sampleClient_flexibleOnlyDual
    halfWritten _ _ _ (by decide) ?_⟩
  decide

end Mooncake.Put
