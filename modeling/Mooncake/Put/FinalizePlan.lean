import Mooncake.Put.Finalize

/-!
# What finalizing does to one operation

The plan of an operation is what the first loop decides for it.  The six
groups hold exactly the operations that plan the corresponding action, so each
operation asks for its planned requests once, receives its own responses and
no others, and ends in a state that the plan and these responses determine.
-/

namespace Mooncake.Put

open Library.Indexed List

/-! ## Plans -/

/-- The requests planned for an operation and how it should end. -/
structure FinalizePlan where
  actions : List FinalizeGroup := []
  shouldSucceed : Bool := false
  terminalError : ErrorCode := .ok
  deriving DecidableEq, Repr

def FinalizeDecision.actions (decision : FinalizeDecision) : List FinalizeGroup :=
  (decision.endType.bind (FinalizeGroup.of? true)).toList ++
    (decision.revokeType.bind (FinalizeGroup.of? false)).toList

def PutOperation.finalizePlan (client : Client) (op : PutOperation) : FinalizePlan :=
  if op.isResolved then
    if !op.isSuccessful && !op.replicas.isEmpty then
      { actions := [.revokeAll]
        terminalError := match op.result with
          | .ok () => .internalError
          | .error error => error }
    else {}
  else if op.replicas = [] then {}
  else
    { actions := (op.finalizeDecision client).actions
      shouldSucceed := (op.finalizeDecision client).success
      terminalError := (op.finalizeDecision client).error }

def plans (client : Client) (name : FinalizeGroup) (op : PutOperation) : Bool :=
  decide (name ∈ (op.finalizePlan client).actions)

def FinalizePlan.record (plan : FinalizePlan) : FinalizeRecord where
  pendingFinalizeActions := plan.actions.length
  shouldSucceed := plan.shouldSucceed
  terminalError := plan.terminalError

variable (responses : List (Expected Unit)) (state : FinalizeState) (client : Client)
  (record : FinalizeRecord) (answers : Answers)

theorem finalizeDecision_shape (op : PutOperation) :
    DecisionShape client.determineReplicaWriteMode op.toReplicateConfig op.transferSummary
      (op.finalizeDecision client) :=
  determineFinalizeDecision_shape _ _ _

theorem finalizeDecision_actions_nodup (op : PutOperation) :
    (op.finalizeDecision client).actions.Nodup := by
  have shape := finalizeDecision_shape client op
  generalize op.finalizeDecision client = decision at shape ⊢
  cases shape <;> simp [FinalizeDecision.actions, FinalizeGroup.of?]

variable {op : PutOperation} {ops : List PutOperation} {name : FinalizeGroup}
  {request : FinalizeRequest} {responses : List (Expected Unit)}

theorem finalizePlan_actions_nodup :
    (op.finalizePlan client).actions.Nodup := by
  unfold PutOperation.finalizePlan
  split
  · split <;> simp
  · split
    · simp
    · exact finalizeDecision_actions_nodup client op

/-! ## The first loop -/

theorem updateRecord_groups (index : Nat) (change : FinalizeRecord → FinalizeRecord) :
    (state.updateRecord index change).groups = state.groups := rfl

@[simp]
theorem updateRecord_records_self (index : Nat) (change : FinalizeRecord → FinalizeRecord) :
    (state.updateRecord index change).records index = change (state.records index) := by
  simp [FinalizeState.updateRecord]

variable {index : Nat}

theorem updateRecord_records_of_ne {position : Nat} (different : position ≠ index)
    (change : FinalizeRecord → FinalizeRecord) :
    (state.updateRecord index change).records position = state.records position := by
  simp [FinalizeState.updateRecord, different]

def BatchFinalizeGroup.push (group : BatchFinalizeGroup) (key : ObjectKey) (index : Nat) :
    BatchFinalizeGroup where
  keys := group.keys ++ [key]
  indices := group.indices ++ [index]

section AddAction

variable (replicaType : Option ReplicaType) (isEnd : Bool) (key : ObjectKey) (index : Nat)

theorem addFinalizeAction_groups (group : FinalizeGroup) :
    (state.addFinalizeAction replicaType isEnd key index).groups group =
      if replicaType.bind (FinalizeGroup.of? isEnd) = some group then
        (state.groups group).push key index
      else state.groups group := by
  unfold FinalizeState.addFinalizeAction
  cases replicaType with
  | none => simp
  | some replicaType =>
    cases chosen : FinalizeGroup.of? isEnd replicaType with
    | none => simp [chosen, FinalizeState.updateRecord]
    | some other =>
      by_cases same : other = group
      · subst same
        simp [chosen, FinalizeState.updateRecord, FinalizeState.addGroupEntry,
          BatchFinalizeGroup.push]
      · have different : group ≠ other := fun equal => same equal.symm
        simp [chosen, FinalizeState.updateRecord, FinalizeState.addGroupEntry, same, different]

theorem addFinalizeAction_records_of_ne {position : Nat} (different : position ≠ index) :
    (state.addFinalizeAction replicaType isEnd key index).records position =
      state.records position := by
  unfold FinalizeState.addFinalizeAction
  cases replicaType with
  | none => rfl
  | some replicaType =>
    dsimp only
    cases FinalizeGroup.of? isEnd replicaType with
    | none => exact updateRecord_records_of_ne _ different _
    | some group => exact updateRecord_records_of_ne _ different _

theorem addFinalizeAction_records_self
    (grouped : ∀ chosen, replicaType = some chosen → chosen ≠ .disk) :
    (state.addFinalizeAction replicaType isEnd key index).records index =
      { state.records index with
        pendingFinalizeActions := (state.records index).pendingFinalizeActions +
          (replicaType.bind (FinalizeGroup.of? isEnd)).toList.length } := by
  unfold FinalizeState.addFinalizeAction
  cases replicaType with
  | none => rfl
  | some replicaType =>
    have allowed := grouped replicaType rfl
    cases replicaType with
    | disk => exact absurd rfl allowed
    | all | memory | nofSsd =>
      simp [FinalizeGroup.of?, FinalizeState.addGroupEntry]

end AddAction

theorem finalizeDecision_grouped (op : PutOperation) :
    (∀ chosen, (op.finalizeDecision client).endType = some chosen → chosen ≠ .disk) ∧
    (∀ chosen, (op.finalizeDecision client).revokeType = some chosen → chosen ≠ .disk) := by
  have shape := finalizeDecision_shape client op
  generalize op.finalizeDecision client = decision at shape ⊢
  cases shape <;> simp

section Scan

variable (op : PutOperation) (index : Nat)

theorem scanOperation_groups (group : FinalizeGroup) :
    (scanOperation client state (op, index)).groups group =
      if group ∈ (op.finalizePlan client).actions then
        (state.groups group).push op.key index
      else state.groups group := by
  unfold scanOperation PutOperation.finalizePlan
  by_cases resolved : op.isResolved = true
  · by_cases revoked : (!op.isSuccessful && !op.replicas.isEmpty) = true
    · simp only [resolved, revoked, if_true]
      rw [addFinalizeAction_groups]
      simp [FinalizeGroup.of?, updateRecord_groups, eq_comm]
    · simp [resolved, revoked]
  · by_cases empty : op.replicas = []
    · simp [resolved, empty]
    · simp only [resolved, empty, Bool.false_eq_true, if_false]
      have distinct := finalizeDecision_actions_nodup client op
      rw [addFinalizeAction_groups, addFinalizeAction_groups, updateRecord_groups]
      unfold FinalizeDecision.actions at distinct ⊢
      generalize (op.finalizeDecision client).endType.bind (FinalizeGroup.of? true) = ends
        at distinct ⊢
      generalize (op.finalizeDecision client).revokeType.bind (FinalizeGroup.of? false) = revokes
        at distinct ⊢
      cases ends with
      | none => cases revokes <;> simp [eq_comm]
      | some first =>
        cases revokes with
        | none => simp [eq_comm]
        | some second =>
          have different : first ≠ second := by simpa using distinct
          by_cases isFirst : first = group
          · subst isFirst
            simp [different.symm]
          · have notFirst : group ≠ first := fun equal => isFirst equal.symm
            simp [notFirst, eq_comm]

theorem scanOperation_records_of_ne {position : Nat} (different : position ≠ index) :
    (scanOperation client state (op, index)).records position = state.records position := by
  unfold scanOperation
  dsimp only
  split
  · split
    · rw [addFinalizeAction_records_of_ne _ _ _ _ _ different,
        updateRecord_records_of_ne _ different]
    · rfl
  · split
    · rfl
    · rw [addFinalizeAction_records_of_ne _ _ _ _ _ different,
        addFinalizeAction_records_of_ne _ _ _ _ _ different,
        updateRecord_records_of_ne _ different]

theorem scanOperation_records_self (fresh : state.records index = {}) :
    (scanOperation client state (op, index)).records index = (op.finalizePlan client).record := by
  unfold scanOperation PutOperation.finalizePlan FinalizePlan.record
  by_cases resolved : op.isResolved = true
  · by_cases revoked : (!op.isSuccessful && !op.replicas.isEmpty) = true
    · simp only [resolved, revoked, if_true]
      rw [addFinalizeAction_records_self _ _ _ _ _ (by simp), updateRecord_records_self, fresh]
      rfl
    · simp [resolved, revoked, fresh]
  · by_cases empty : op.replicas = []
    · simp [resolved, empty, fresh]
    · obtain ⟨ends, revokes⟩ := finalizeDecision_grouped client op
      simp only [resolved, empty, Bool.false_eq_true, if_false]
      rw [addFinalizeAction_records_self _ _ _ _ _ revokes,
        addFinalizeAction_records_self _ _ _ _ _ ends, updateRecord_records_self, fresh]
      simp [FinalizeDecision.actions]

end Scan

def scanBatch (client : Client) (ops : List PutOperation) : FinalizeState :=
  ops.zipIdx.foldl (scanOperation client) {}

theorem scanOperation_foldl_groups (entries : List (PutOperation × Nat)) (state : FinalizeState)
    (group : FinalizeGroup) :
    let planned := entries.filter fun entry =>
      decide (group ∈ (entry.1.finalizePlan client).actions)
    (entries.foldl (scanOperation client) state).groups group =
      { keys := (state.groups group).keys ++ planned.map fun entry => entry.1.key
        indices := (state.groups group).indices ++ planned.map Prod.snd } := by
  induction entries generalizing state with
  | nil => simp
  | cons entry rest ih =>
    simp only [foldl_cons]
    rw [ih, scanOperation_groups]
    by_cases planned : group ∈ (entry.1.finalizePlan client).actions
    · simp [planned, BatchFinalizeGroup.push]
    · simp [planned]

theorem scanBatch_groups {group : FinalizeGroup} :
    (scanBatch client ops).groups group = .collect (plans client group) ops := by
  rw [scanBatch, scanOperation_foldl_groups]
  simp [BatchFinalizeGroup.collect, select, positions, plans]

theorem scanBatch_records (found : ops[index]? = some op) :
    (scanBatch client ops).records index = (op.finalizePlan client).record := by
  have distinct : (ops.zipIdx.map Prod.snd).Nodup := by
    rw [zipIdx_map_snd]
    exact nodup_range'
  have present : (op, index) ∈ ops.zipIdx := mem_zipIdx_iff_getElem?.mpr found
  obtain ⟨before, fresh, final⟩ := view_foldl_of_mem FinalizeState.records
    (fun state (entry : PutOperation × Nat) position different =>
      scanOperation_records_of_ne state client entry.1 entry.2 different)
    distinct present {}
  rw [scanBatch, final]
  exact scanOperation_records_self before client op index fresh

/-! ## The requests -/

def finalizeRequests (client : Client) (answers : Answers) (ops : List PutOperation) :
    List FinalizeRequest :=
  FinalizeGroup.order.filterMap (sendGroup answers (scanBatch client ops).groups)

theorem sendGroup_eq_some {client : Client} {answers : Answers}
    (sent : sendGroup answers (scanBatch client ops).groups name = some request) :
    request.name = name ∧ request.group = .collect (plans client name) ops ∧
      request.responses =
        (if name.isEnd then answers.batchPutEnd request.group.keys name.replicaType
          else answers.batchPutRevoke request.group.keys name.replicaType) := by
  unfold sendGroup at sent
  split at sent
  · cases sent
  · obtain rfl := Option.some.inj sent
    exact ⟨rfl, scanBatch_groups client, rfl⟩

theorem sendGroup_isSome_of_plans (found : ops[index]? = some op)
    (planned : name ∈ (op.finalizePlan client).actions) :
    ∃ request, sendGroup answers (scanBatch client ops).groups name = some request := by
  have nonempty : ((scanBatch client ops).groups name).keys ≠ [] := by
    rw [scanBatch_groups]
    have present := (@BatchFinalizeGroup.mem_collect_entries (plans client name) _ _ _
      found op.key).mpr ⟨rfl, decide_eq_true planned⟩
    exact ne_nil_of_mem (of_mem_zip present).1
  exact ⟨_, if_neg nonempty⟩

/-- The planned actions of an operation, in the order in which they are sent. -/
theorem perm_order_filter :
    (FinalizeGroup.order.filter fun name => plans client name op).Perm
      (op.finalizePlan client).actions := by
  apply (perm_ext_iff_of_nodup (FinalizeGroup.order_nodup.filter _)
    (finalizePlan_actions_nodup client)).mpr
  intro name
  simp [plans, FinalizeGroup.mem_order]

section Requested

variable (found : ops[index]? = some op)

include found

/-- Per operation, exactly the planned requests name it, and each one once. -/
theorem finalizeRequests_sum (test : FinalizeGroup → Bool) :
    (((finalizeRequests client answers ops).filter fun request => test request.name).map
      fun request => request.group.entries.count (op.key, index)).sum =
      (op.finalizePlan client).actions.countP test := by
  rw [← (perm_order_filter client).countP_eq, countP_filter, finalizeRequests]
  induction FinalizeGroup.order with
  | nil => rfl
  | cons name rest ih =>
    rw [filterMap_cons, countP_cons]
    cases sent : sendGroup answers (scanBatch client ops).groups name with
    | none =>
      have unplanned : plans client name op = false := by
        by_contra planned
        obtain ⟨request, other⟩ := sendGroup_isSome_of_plans client answers found
          (by simpa [plans] using planned)
        rw [sent] at other
        cases other
      simpa [unplanned] using ih
    | some request =>
      obtain ⟨named, group, -⟩ := sendGroup_eq_some sent
      have count := @BatchFinalizeGroup.count_collect_entries (plans client name) _ _ _ found
      rw [← group] at count
      cases tested : test name with
      | false => simpa [named, tested] using ih
      | true =>
        have tail := ih
        cases planned : plans client name op <;>
          simp [named, tested, planned, count] at tail ⊢ <;> omega

theorem named_iff_planned (sent : request ∈ finalizeRequests client answers ops) (key : ObjectKey) :
    (key, index) ∈ request.group.entries ↔
      key = op.key ∧ request.name ∈ (op.finalizePlan client).actions := by
  obtain ⟨name, -, chosen⟩ := mem_filterMap.mp sent
  obtain ⟨rfl, group, -⟩ := sendGroup_eq_some chosen
  rw [group, BatchFinalizeGroup.mem_collect_entries found]
  simp [plans]

end Requested

/-! ## The second loop -/

theorem recordResponse_records_of_ne (entry : Nat × Expected Unit) (position : Nat)
    (different : position ≠ entry.1) :
    (recordResponse state entry).records position = state.records position :=
  updateRecord_records_of_ne state different _

theorem processGroup_records {test : PutOperation → Bool}
    (group : request.group = .collect test ops) (index : Nat) :
    (processGroup state request).records index =
      match request.group.answer request.responses index with
      | some response => (state.records index).absorb response
      | none => state.records index := by
  unfold processGroup
  rw [group]
  have distinct := BatchFinalizeGroup.attributed_nodup test ops request.responses
  cases answered : (BatchFinalizeGroup.collect test ops).answer request.responses index with
  | some response =>
    have present := (BatchFinalizeGroup.answer_eq_some_iff test ops _ _ _).mp answered
    obtain ⟨before, same, final⟩ :=
      view_foldl_of_mem FinalizeState.records recordResponse_records_of_ne distinct present state
    rw [final, recordResponse, updateRecord_records_self]
    exact congrArg (FinalizeRecord.absorb · response) same
  | none =>
    apply view_foldl_of_not_mem FinalizeState.records recordResponse_records_of_ne
    intro named
    obtain ⟨⟨position, response⟩, present, rfl⟩ := mem_map.mp named
    rw [(BatchFinalizeGroup.answer_eq_some_iff test ops _ _ _).mpr present] at answered
    cases answered

/-- The response to a request of the given kind that is attributed to an operation. -/
def BatchFinalizeGroup.response (answers : Answers) (name : FinalizeGroup)
    (group : BatchFinalizeGroup) (index : Nat) : Expected Unit :=
  (group.answer (if name.isEnd then answers.batchPutEnd group.keys name.replicaType
    else answers.batchPutRevoke group.keys name.replicaType) index).getD (.error .rpcFail)

/-- The responses that reach one operation, in the order of the requests. -/
def ownResponses (requests : List FinalizeRequest) (index : Nat) : List (Expected Unit) :=
  requests.filterMap fun request => request.group.answer request.responses index

theorem processGroup_foldl_records {requests : List FinalizeRequest}
    (collected : ∀ request ∈ requests, ∃ test ops, request.group = .collect test ops)
    (state : FinalizeState) (index : Nat) :
    (requests.foldl processGroup state).records index =
      (ownResponses requests index).foldl FinalizeRecord.absorb (state.records index) := by
  induction requests generalizing state with
  | nil => rfl
  | cons request rest ih =>
    obtain ⟨test, ops, group⟩ := collected request (.head _)
    rw [foldl_cons, ih (fun other member => collected other (.tail _ member)),
      processGroup_records state group]
    unfold ownResponses
    cases answered : request.group.answer request.responses index <;>
      simp [answered]

/-- The error that survives a sequence of responses: the last one. -/
def lastError (responses : List (Expected Unit)) : Option ErrorCode :=
  responses.foldl (fun noted response =>
    match response with
    | .error error => some error
    | .ok () => noted) none

theorem absorb_foldl :
    responses.foldl FinalizeRecord.absorb record =
      { record with
        pendingFinalizeActions := record.pendingFinalizeActions - responses.length
        finalizeRpcError := responses.foldl (fun noted response =>
            match response with
            | .error error => some error
            | .ok () => noted) record.finalizeRpcError } := by
  induction responses generalizing record with
  | nil => rfl
  | cons response rest ih =>
    rw [foldl_cons, ih]
    cases response <;> simp [FinalizeRecord.absorb, Nat.sub_sub, Nat.add_comm]

theorem finalizeRequests_collected :
    ∀ request ∈ finalizeRequests client answers ops,
      ∃ test ops, request.group = .collect test ops := by
  intro request sent
  obtain ⟨name, -, chosen⟩ := mem_filterMap.mp sent
  exact ⟨_, _, (sendGroup_eq_some chosen).2.1⟩

section Processed

variable (found : ops[index]? = some op)

include found

/-- Among the given groups, an operation receives the responses to the actions it planned. -/
theorem ownResponses_of_names {names : List FinalizeGroup} :
    ownResponses (names.filterMap (sendGroup answers (scanBatch client ops).groups)) index =
      (names.filter fun name => plans client name op).map fun name =>
        (BatchFinalizeGroup.collect (plans client name) ops).response answers name index := by
  unfold ownResponses
  induction names with
  | nil => rfl
  | cons name rest ih =>
    rw [filterMap_cons, filter_cons]
    cases planned : plans client name op with
    | true =>
      obtain ⟨request, sent⟩ := sendGroup_isSome_of_plans client answers found
        (of_decide_eq_true planned)
      obtain ⟨-, group, responses⟩ := sendGroup_eq_some sent
      have answered := (BatchFinalizeGroup.answer_isSome_iff (plans client name) ops
        request.responses index).mpr ((BatchFinalizeGroup.mem_collect_indices found).mpr planned)
      obtain ⟨response, received⟩ := Option.isSome_iff_exists.mp answered
      have attributed : (BatchFinalizeGroup.collect (plans client name) ops).response answers name
          index = response := by
        rw [BatchFinalizeGroup.response, ← group, ← responses, group, received]
        rfl
      simp [sent, group, received, attributed, ih]
    | false =>
      cases sent : sendGroup answers (scanBatch client ops).groups name with
      | none => simpa using ih
      | some request =>
        obtain ⟨-, group, -⟩ := sendGroup_eq_some sent
        have silent : request.group.answer request.responses index = none := by
          rw [← Option.not_isSome_iff_eq_none, group, BatchFinalizeGroup.answer_isSome_iff,
            BatchFinalizeGroup.mem_collect_indices found, planned]
          simp
        simpa [silent] using ih

theorem ownResponses_length :
    (ownResponses (finalizeRequests client answers ops) index).length =
      (op.finalizePlan client).actions.length := by
  rw [finalizeRequests, ownResponses_of_names client answers found, length_map,
    (perm_order_filter client).length_eq]

theorem processed_record :
    ((finalizeRequests client answers ops).foldl processGroup
        (scanBatch client ops)).records index =
      { pendingFinalizeActions := 0
        shouldSucceed := (op.finalizePlan client).shouldSucceed
        terminalError := (op.finalizePlan client).terminalError
        finalizeRpcError :=
          lastError (ownResponses (finalizeRequests client answers ops) index) } := by
  rw [processGroup_foldl_records (finalizeRequests_collected client answers),
    scanBatch_records client found, absorb_foldl, ownResponses_length client answers found]
  simp [FinalizePlan.record, lastError]

end Processed

/-! ## The third loop -/

/-- How an open operation ends, given its plan and its own responses. -/
def FinalizePlan.outcome (plan : FinalizePlan) (responses : List (Expected Unit)) :
    PutOperationState × Expected Unit :=
  match lastError responses with
  | none =>
    if plan.shouldSucceed then (.success, .ok ())
    else (.transferFailed, .error plan.terminalError)
  | some error =>
    if plan.shouldSucceed = false ∧ plan.terminalError ≠ .ok then
      (.transferFailed, .error plan.terminalError)
    else (.finalizeFailed, .error error)

/-- How any operation ends: what was resolved before stays as it is. -/
def PutOperation.settled (client : Client) (op : PutOperation)
    (responses : List (Expected Unit)) : PutOperationState × Expected Unit :=
  if op.isResolved then (op.state, op.result)
  else if op.replicas = [] then (.masterFailed, .error .internalError)
  else (op.finalizePlan client).outcome responses

theorem appendFinalizeErrorContext_frame :
    SameFrame op (appendFinalizeErrorContext client record op) := by
  unfold appendFinalizeErrorContext
  cases record.finalizeRpcError with
  | none =>
    dsimp only
    split
    · exact appendFailureContext_frame
    · exact .refl op
  | some error =>
    dsimp only
    split
    · exact (appendFailureContext_frame).trans (appendFailureContext_frame)
    · exact appendFailureContext_frame

theorem finishOperation_of_resolved (resolved : op.isResolved = true) :
    SameFrame op (finishOperation client record op) := by
  unfold finishOperation
  rw [if_pos resolved]
  split
  · exact appendFinalizeErrorContext_frame client record
  · exact .refl op

theorem finishOperation_of_open {plan : FinalizePlan} (open_ : op.isResolved = false) :
    let final := finishOperation client
      { pendingFinalizeActions := 0
        shouldSucceed := plan.shouldSucceed
        terminalError := plan.terminalError
        finalizeRpcError := lastError responses } op
    (final.state, final.result) = plan.outcome responses := by
  unfold finishOperation FinalizePlan.outcome
  cases lastError responses with
  | none => cases success : plan.shouldSucceed <;> simp [open_] <;> rfl
  | some error =>
    by_cases failed : plan.shouldSucceed = false ∧ plan.terminalError ≠ .ok
    · simp [open_, failed]
      rfl
    · simp only [open_, failed]
      simp
      rfl

/-- Every operation of the batch ends as its plan and its own responses say. -/
theorem finalizeBatchPut_settled (found : ops[index]? = some op) :
    ∃ final, (finalizeBatchPut client answers ops).ops[index]? = some final ∧
      (final.state, final.result) =
        op.settled client (ownResponses (finalizeRequests client answers ops) index) := by
  have row := processed_record client answers found
  refine ⟨finishOperation client (((finalizeRequests client answers ops).foldl processGroup
    (scanBatch client ops)).records index) (prepareOperation op), ?_, ?_⟩
  · simp only [finalizeBatchPut, getElem?_mapIdx, found]
    rfl
  · unfold PutOperation.settled prepareOperation
    by_cases resolved : op.isResolved = true
    · have frame := finishOperation_of_resolved client
        (((finalizeRequests client answers ops).foldl processGroup
          (scanBatch client ops)).records index) resolved
      simp only [resolved, if_true]
      rw [frame.state, frame.result]
    · by_cases empty : op.replicas = []
      · have closed : (op.setTerminalError .internalError .masterFailed
            "Operation has no replicas to finalize").isResolved = true := rfl
        have frame := finishOperation_of_resolved client
          (((finalizeRequests client answers ops).foldl processGroup
            (scanBatch client ops)).records index) closed
        simp only [resolved, empty, Bool.false_eq_true, if_true, if_false]
        rw [frame.state, frame.result]
        rfl
      · simp only [resolved, empty, Bool.false_eq_true, if_false]
        rw [row]
        exact finishOperation_of_open client (by simpa using resolved)

theorem settled_isResolved :
    (op.settled client responses).1 ≠ .pending := by
  unfold PutOperation.settled
  by_cases resolved : op.isResolved = true
  · rw [if_pos resolved]
    simpa [PutOperation.isResolved] using resolved
  · rw [if_neg resolved]
    split
    · simp
    · unfold FinalizePlan.outcome
      split <;> split <;> simp

theorem length_finalizeBatchPut_ops (ops : List PutOperation) :
    (finalizeBatchPut client answers ops).ops.length = ops.length := by
  simp [finalizeBatchPut]

theorem finalizeBatchPut_resolved :
    ∀ final ∈ (finalizeBatchPut client answers ops).ops, final.isResolved = true := by
  intro final member
  obtain ⟨index, inside, located⟩ := getElem_of_mem member
  rw [length_finalizeBatchPut_ops] at inside
  obtain ⟨other, seen, settled⟩ := finalizeBatchPut_settled client answers
    (getElem?_eq_getElem inside)
  rw [getElem?_eq_getElem (by rw [length_finalizeBatchPut_ops]; exact inside)] at seen
  rw [← located, Option.some.inj seen, PutOperation.isResolved, decide_eq_true_eq]
  have state := congrArg Prod.fst settled
  exact fun pending => settled_isResolved client (state.symm.trans pending)

end Mooncake.Put
