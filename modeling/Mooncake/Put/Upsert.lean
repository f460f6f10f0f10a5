import Mooncake.Put.Group

/-!
# Batch upsert

`FinalizeBatchUpsert` splits a batch by the state and the pending transfers of
its operations.  It never reads the transfer summary, which is the only place
where `SubmitTransfers` and `WaitForTransfers` record a failed replica.
-/

namespace Mooncake.Put

open Library.Indexed List

/-! ## FinalizeBatchUpsert -/

def endsUpsert (op : PutOperation) : Bool :=
  !op.isResolved && !op.replicas.isEmpty && !op.pendingTransfers.isEmpty

def revokesUpsert (op : PutOperation) : Bool :=
  !endsUpsert op && (op.isResolved && !op.replicas.isEmpty)

/-- Write the responses of one batch request back through the index vector. -/
def writeBack (group : BatchFinalizeGroup) (responses : List (Expected Unit))
    (mismatch : PutOperation → PutOperation)
    (accept : Expected Unit → PutOperation → PutOperation) (ops : List PutOperation) :
    List PutOperation :=
  if group.keys = [] then ops
  else if responses.length ≠ group.keys.length then
    updateAt (group.indices.map fun index => (index, mismatch)) ops
  else
    updateAt ((group.indices.zip responses).map fun pair => (pair.1, accept pair.2)) ops

def acceptUpsertEnd (client : Client) (response : Expected Unit) (op : PutOperation) :
    PutOperation :=
  match response with
  | .error error => op.setError client error "BatchUpsertEnd failed"
  | .ok () => op.setSuccess

def acceptUpsertRevoke (response : Expected Unit) (op : PutOperation) : PutOperation :=
  match response with
  | .error _ =>
    { op with
      failureContext := some (op.failureContext.getD "unknown error" ++ "; revoke also failed") }
  | .ok () => op

/-- The last loop: no operation is left without a definitive result. -/
def closeUpsert (client : Client) (op : PutOperation) : PutOperation :=
  if op.isResolved then op
  else op.setError client .internalError "Operation not resolved after finalization"

/-- What a finalized batch upsert has asked of the master, and its operations. -/
structure UpsertFinalization where
  ended : BatchFinalizeGroup := {}
  endResponses : List (Expected Unit) := []
  revoked : BatchFinalizeGroup := {}
  ops : List PutOperation := []

def finalizeBatchUpsert (client : Client) (answers : Answers) (ops : List PutOperation) :
    UpsertFinalization :=
  let ended := BatchFinalizeGroup.collect endsUpsert ops
  let revoked := BatchFinalizeGroup.collect revokesUpsert ops
  let endResponses := answers.batchUpsertEnd ended.keys
  let afterEnd := writeBack ended endResponses
    (fun op => op.setError client .rpcFail "BatchUpsertEnd response size mismatch")
    (acceptUpsertEnd client) ops
  let afterRevoke := writeBack revoked (answers.batchUpsertRevoke revoked.keys)
    (fun op => op.setError client .rpcFail "BatchUpsertRevoke response size mismatch")
    acceptUpsertRevoke afterEnd
  { ended := ended
    endResponses := endResponses
    revoked := revoked
    ops := afterRevoke.map (closeUpsert client) }

/-! ## Writing back through the index vector -/

section WriteBack

variable (test : PutOperation → Bool) (source : List PutOperation)
  (responses : List (Expected Unit)) (mismatch : PutOperation → PutOperation)
  (accept : Expected Unit → PutOperation → PutOperation)

theorem writeBack_of_not_mem {index : Nat}
    (absent : index ∉ (BatchFinalizeGroup.collect test source).indices)
    (ops : List PutOperation) :
    (writeBack (.collect test source) responses mismatch accept ops)[index]? = ops[index]? := by
  unfold writeBack
  split
  · rfl
  · split
    · apply getElem?_updateAt_of_not_mem
      rw [map_map]
      simpa using absent
    · apply getElem?_updateAt_of_not_mem
      rw [map_map]
      intro present
      obtain ⟨pair, paired, rfl⟩ := mem_map.mp present
      exact absent (of_mem_zip paired).1

theorem writeBack_of_answer {index : Nat} {response : Expected Unit}
    (answered : (BatchFinalizeGroup.collect test source).answer responses index = some response)
    (ops : List PutOperation) :
    (writeBack (.collect test source) responses mismatch accept ops)[index]? =
        ops[index]?.map mismatch ∧ response = .error .rpcFail ∨
      (writeBack (.collect test source) responses mismatch accept ops)[index]? =
        ops[index]?.map (accept response) := by
  have present : index ∈ (BatchFinalizeGroup.collect test source).indices :=
    (BatchFinalizeGroup.answer_isSome_iff test source responses index).mp (by rw [answered]; rfl)
  have distinct : (BatchFinalizeGroup.collect test source).indices.Nodup :=
    positions_nodup test source
  have nonempty : (BatchFinalizeGroup.collect test source).keys ≠ [] := by
    intro empty
    have lengths := BatchFinalizeGroup.collect_lengths test source
    rw [empty] at lengths
    rw [eq_nil_of_length_eq_zero lengths.symm] at present
    cases present
  unfold writeBack
  rw [if_neg nonempty]
  unfold BatchFinalizeGroup.answer at answered
  split at answered
  · rename_i matched
    rw [if_neg (not_not.mpr matched)]
    right
    apply getElem?_updateAt_of_mem
    · rw [map_map]
      exact zip_map_fst_nodup distinct responses
    · have paired := (lookup_eq_some_iff_mem (zip_map_fst_nodup distinct responses)
        index response).mp answered
      exact mem_map.mpr ⟨(index, response), paired, rfl⟩
  · rename_i mismatched
    rw [if_pos mismatched]
    left
    refine ⟨?_, (Option.some.inj answered).symm⟩
    apply getElem?_updateAt_of_mem
    · simpa [Function.comp_def] using distinct
    · exact mem_map.mpr ⟨index, present, rfl⟩

theorem length_writeBack (group : BatchFinalizeGroup) (ops : List PutOperation) :
    (writeBack group responses mismatch accept ops).length = ops.length := by
  unfold writeBack
  split
  · rfl
  · split <;> simp

end WriteBack

/-! ## The result of one operation -/

variable (client : Client) (response : Expected Unit) (op : PutOperation)

theorem acceptUpsertEnd_result : (acceptUpsertEnd client response op).result = response := by
  cases response <;> rfl

theorem acceptUpsertEnd_isResolved : (acceptUpsertEnd client response op).isResolved = true := by
  cases response with
  | error error => exact op.setError_isResolved client error _
  | ok value => rfl

theorem acceptUpsertRevoke_result :
    (acceptUpsertRevoke response op).result = op.result := by
  cases response <;> rfl

theorem acceptUpsertRevoke_isResolved :
    (acceptUpsertRevoke response op).isResolved = op.isResolved := by
  cases response <;> rfl

section Finalize

variable (answers : Answers) {ops : List PutOperation} {index : Nat} {op : PutOperation}
  (found : ops[index]? = some op)

include found

theorem finalizeBatchUpsert_ended (ends : endsUpsert op = true) :
    ∃ response, (finalizeBatchUpsert client answers ops).ended.answer
        (finalizeBatchUpsert client answers ops).endResponses index = some response ∧
      (finalizeBatchUpsert client answers ops).ops[index]?.map PutOperation.result =
        some response := by
  have present := (BatchFinalizeGroup.mem_collect_indices found).mpr ends
  obtain ⟨response, answered⟩ := Option.isSome_iff_exists.mp
    ((BatchFinalizeGroup.answer_isSome_iff endsUpsert ops
      (answers.batchUpsertEnd (BatchFinalizeGroup.collect endsUpsert ops).keys) index).mpr present)
  refine ⟨response, answered, ?_⟩
  have notRevoked : index ∉ (BatchFinalizeGroup.collect revokesUpsert ops).indices := by
    rw [BatchFinalizeGroup.mem_collect_indices found]
    simp [revokesUpsert, ends]
  simp only [finalizeBatchUpsert, getElem?_map]
  rw [writeBack_of_not_mem _ _ _ _ _ notRevoked]
  rcases writeBack_of_answer endsUpsert ops _ _ (acceptUpsertEnd client) answered ops with
    ⟨written, failed⟩ | written
  · rw [written, found]
    simp [closeUpsert, failed]
  · rw [written, found]
    have resolved := acceptUpsertEnd_isResolved client response op
    simp [closeUpsert, resolved, acceptUpsertEnd_result]

theorem finalizeBatchUpsert_revoked (revokes : revokesUpsert op = true) :
    (finalizeBatchUpsert client answers ops).ops[index]?.map PutOperation.result = some op.result ∨
      (finalizeBatchUpsert client answers ops).ops[index]?.map PutOperation.result =
        some (.error .rpcFail) := by
  simp only [revokesUpsert, Bool.and_eq_true, Bool.not_eq_true'] at revokes
  obtain ⟨notEnds, resolved, nonempty⟩ := revokes
  have notEnded : index ∉ (BatchFinalizeGroup.collect endsUpsert ops).indices := by
    rw [BatchFinalizeGroup.mem_collect_indices found]
    simp [notEnds]
  have present : index ∈ (BatchFinalizeGroup.collect revokesUpsert ops).indices := by
    rw [BatchFinalizeGroup.mem_collect_indices found]
    simp [revokesUpsert, notEnds, resolved, nonempty]
  obtain ⟨response, answered⟩ := Option.isSome_iff_exists.mp
    ((BatchFinalizeGroup.answer_isSome_iff revokesUpsert ops
      (answers.batchUpsertRevoke (BatchFinalizeGroup.collect revokesUpsert ops).keys)
        index).mpr present)
  simp only [finalizeBatchUpsert, getElem?_map]
  rcases writeBack_of_answer revokesUpsert ops _
    (fun op => op.setError client .rpcFail "BatchUpsertRevoke response size mismatch")
    acceptUpsertRevoke answered
    (writeBack (.collect endsUpsert ops)
      (answers.batchUpsertEnd (BatchFinalizeGroup.collect endsUpsert ops).keys)
      (fun op => op.setError client .rpcFail "BatchUpsertEnd response size mismatch")
      (acceptUpsertEnd client) ops) with ⟨written, failed⟩ | written
  · right
    rw [written, writeBack_of_not_mem _ _ _ _ _ notEnded, found]
    simp [closeUpsert]
  · left
    rw [written, writeBack_of_not_mem _ _ _ _ _ notEnded, found]
    simp [closeUpsert, acceptUpsertRevoke_isResolved, acceptUpsertRevoke_result, resolved]

theorem finalizeBatchUpsert_unnamed (notEnds : endsUpsert op = false)
    (notRevokes : revokesUpsert op = false) :
    (finalizeBatchUpsert client answers ops).ops[index]?.map PutOperation.result =
      some (if op.isResolved then op.result else .error .internalError) := by
  have notEnded : index ∉ (BatchFinalizeGroup.collect endsUpsert ops).indices := by
    rw [BatchFinalizeGroup.mem_collect_indices found]
    simp [notEnds]
  have notRevoked : index ∉ (BatchFinalizeGroup.collect revokesUpsert ops).indices := by
    rw [BatchFinalizeGroup.mem_collect_indices found]
    simp [notRevokes]
  simp only [finalizeBatchUpsert, getElem?_map]
  rw [writeBack_of_not_mem _ _ _ _ _ notRevoked, writeBack_of_not_mem _ _ _ _ _ notEnded, found]
  by_cases resolved : op.isResolved = true <;> simp [closeUpsert, resolved]

end Finalize

/-! ## BatchUpsert -/

/-- One run of `BatchUpsert`: the operations as `BatchUpsertStart` answered
them, the two finalize requests, and the results given to the caller. -/
structure UpsertRun where
  started : List PutOperation := []
  finalization : UpsertFinalization := {}
  results : List (Expected Unit)

def batchUpsert (client : Client) (answers : Answers) (keys : List ObjectKey)
    (batchedSlices : List (List Slice)) (config : ReplicateConfig) : UpsertRun :=
  let clientConfig := upsertConfig client config
  if clientConfig.preferAllocInSameNode then
    { results := keys.map fun _ => .error .invalidParams }
  else
    let started := startBatchUpsert client answers
      (createPutOperations keys batchedSlices) clientConfig
    let transferred := waitForTransfers (submitTransfers client answers started)
    let finalization := finalizeBatchUpsert client answers transferred
    { started := started
      finalization := finalization
      results := collectResults finalization.ops }

end Mooncake.Put
