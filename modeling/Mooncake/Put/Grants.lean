import Mooncake.Put.BatchPut
import Mooncake.Put.Fate

/-!
# What a batch put decides for each object

The start responses of the master and the outcomes of the transfers fix what is ended and
revoked for every object of a batch and with which error an abandoned one fails.  Both are
stated on these answers alone, and the operations that `FinalizeBatchPut` finds after either
transfer path are then shown to conclude that way.
-/

namespace Mooncake.Put

open Library.Indexed ReplicaTransferSummary List

/-! ## Grants -/

/-- An object of a batch and the start response for it. -/
structure Grant where
  key : ObjectKey
  slices : List Slice
  start : Expected (List Replica)

def Grant.replicas (grant : Grant) : List Replica :=
  match grant.start with
  | .ok replicas => replicas
  | .error _ => []

/-- One replica for each node is asked for, and the configuration does not allow it. -/
def batchRefused (config : ReplicateConfig) : Bool :=
  config.preferAllocInSameNode &&
    (decide (0 < config.nofReplicaNum) || decide (config.replicaNum ≠ 1))

/-- The objects of a batch with the responses to `BatchPutStart`.  A vector of the wrong size
stands for a failed response to every object; a refused call starts nothing. -/
def batchGrants (client : Client) (answers : Answers) (keys : List ObjectKey)
    (batchedSlices : List (List Slice)) (config : ReplicateConfig) : List Grant :=
  let objects := keys.zip batchedSlices
  let responses := answers.batchPutStart (objects.map Prod.fst)
    (objects.map fun object => object.2.map Slice.size) (putConfig client config)
  if batchRefused (putConfig client config) then []
  else if responses.length = objects.length then
    List.zipWith (fun object start => ⟨object.1, object.2, start⟩) objects responses
  else objects.map fun object => ⟨object.1, object.2, .error .rpcFail⟩

section Outcomes

variable (client : Client) (answers : Answers) (config : ReplicateConfig) (grants : List Grant)

/-- The segment on which an object is written when replicas are merged by segment. -/
def Grant.segment (grant : Grant) : Option (String × Replica) :=
  if allocationExpected client config grant.replicas then
    match grant.replicas with
    | [] => none
    | replica :: _ =>
      match replica.descriptor with
      | .memory buffer =>
        if buffer.size = 0 then none else some (buffer.transportEndpoint, replica)
      | _ => none
  else none

def Grant.member (segment : String) (grant : Grant) : Option (Replica × List Slice) :=
  match grant.segment client config with
  | none => none
  | some (own, replica) => if own = segment then some (replica, grant.slices) else none

/-- The outcome of the one transfer of all objects on a segment. -/
def segmentOutcome (segment : String) : ErrorCode :=
  let members := grants.filterMap (Grant.member client config segment)
  batchOutcome answers (members.map Prod.fst) (members.map Prod.snd)

/-- A replica of the object was transferred with `OK`, on the path that the call takes. -/
def Grant.written (grant : Grant) (index : Nat) (entry : Replica × Nat) : Bool :=
  if config.preferAllocInSameNode then
    decide (entry.2 = 0) && (grant.segment client config).any fun own =>
      decide (segmentOutcome client answers config grants own.1 = .ok)
  else client.transferSubmitter && decide (Written answers index grant.slices entry)

/-- Finalizing knows the numbers of replicas that were asked for, and nothing else. -/
def requestedCounts (config : ReplicateConfig) : ReplicateConfig :=
  { replicaNum := config.replicaNum, nofReplicaNum := config.nofReplicaNum }

/-- What becomes of the replicas of an object. -/
def Grant.fate (grant : Grant) (index : Nat) : Fate :=
  if allocationExpected client config grant.replicas &&
      allocationExpected client (requestedCounts config) grant.replicas then
    Put.fate client (requestedCounts config) grant.replicas.zipIdx
      (grant.written client answers config grants index)
  else .nothing

/-- The first failure of its transfers, in the order in which they are recorded. -/
def Grant.firstError (grant : Grant) (index : Nat) : ErrorCode :=
  if config.preferAllocInSameNode then
    match grant.segment client config with
    | none => .invalidParams
    | some own => segmentOutcome client answers config grants own.1
  else firstFailure (batchOutcomes answers index grant.slices grant.replicas.zipIdx)

def Grant.startError (grant : Grant) : ErrorCode :=
  match grant.start with
  | .error error => error
  | .ok _ => .noAvailableHandle

/-- The error with which an object fails of which nothing is kept. -/
def Grant.error (grant : Grant) (index : Nat) : ErrorCode :=
  if !config.preferAllocInSameNode && !client.transferSubmitter then .invalidParams
  else if !allocationExpected client config grant.replicas then grant.startError
  else if config.preferAllocInSameNode && (grant.segment client config).isNone then
    .invalidParams
  else if !allocationExpected client (requestedCounts config) grant.replicas then
    .noAvailableHandle
  else if grant.firstError client answers config grants index = .ok then .transferFail
  else grant.firstError client answers config grants index

end Outcomes

/-! ## Concluded operations -/

def Fate.groups : Fate → List FinalizeGroup
  | .whole => [.endAll]
  | .onlyMemory => [.endMemory, .revokeNof]
  | .onlyNof => [.endNof, .revokeMemory]
  | .nothing => [.revokeAll]

/-- The actions that are asked for an object: a start without replicas leaves nothing to do. -/
def Grant.actions (client : Client) (answers : Answers) (config : ReplicateConfig)
    (grants : List Grant) (grant : Grant) (index : Nat) : List FinalizeGroup :=
  if grant.replicas = [] then [] else (grant.fate client answers config grants index).groups

/-- The keys of the one request for all objects that need an action. -/
def batchRequest (client : Client) (answers : Answers) (config : ReplicateConfig)
    (grants : List Grant) (name : FinalizeGroup) : BatchFinalizeGroup :=
  let asked := grants.zipIdx.filter fun entry =>
    decide (name ∈ entry.1.actions client answers config grants entry.2)
  { keys := asked.map fun entry => entry.1.key
    indices := asked.map Prod.snd }

/-- The result of an object: its own error, or that of the last failed request. -/
def Fate.result (error : ErrorCode) (responses : List (Expected Unit)) :
    Fate → Expected Unit
  | .nothing => .error error
  | _ => (lastError responses).elim (.ok ()) .error

theorem Fate.result_congr {fate : Fate} {error other : ErrorCode}
    (same : fate = .nothing → error = other) {responses : List (Expected Unit)} :
    fate.result error responses = fate.result other responses := by
  cases fate with
  | nothing => rw [same rfl]
  | _ => rfl

/-- What `CollectResults` makes of the result of an operation. -/
def reported (result : Expected Unit) : Expected Unit :=
  if result = .error .objectAlreadyExists then .ok () else result

/-- How `FinalizeBatchPut` treats an operation. -/
structure Concludes (client : Client) (grant : Grant) (fate : Fate) (error : ErrorCode)
    (op : PutOperation) : Prop where
  key : op.key = grant.key
  plan : (op.finalizePlan client).actions = if grant.replicas = [] then [] else fate.groups
  result : ∀ responses, (op.settled client responses).2 = fate.result error responses

variable {client : Client} {grant : Grant} {op : PutOperation}

theorem Concludes.of_failed (key : op.key = grant.key) (held : op.replicas = grant.replicas)
    (resolved : op.isResolved = true) {error : ErrorCode} (failed : op.result = .error error) :
    Concludes client grant .nothing error op := by
  have unsuccessful := op.isSuccessful_eq_false_of_result failed
  refine ⟨key, ?_, fun responses => ?_⟩
  · rw [← held]
    by_cases empty : op.replicas = [] <;>
      simp [PutOperation.finalizePlan, resolved, unsuccessful, empty, Fate.groups]
  · simp [PutOperation.settled, resolved, failed, Fate.result]

theorem Concludes.of_open (key : op.key = grant.key) (held : op.replicas = grant.replicas)
    (open_ : op.isResolved = false) (nonempty : grant.replicas ≠ []) {fate : Fate}
    {error : ErrorCode} (decided : op.finalizeDecision client = fate.decision error) :
    Concludes client grant fate error op := by
  rw [← held] at nonempty
  have plan : op.finalizePlan client = ⟨fate.groups, (fate.decision error).success,
      (fate.decision error).error⟩ := by
    simp only [PutOperation.finalizePlan, open_, nonempty, decided, Bool.false_eq_true, if_false]
    cases fate <;> rfl
  refine ⟨key, by rw [plan, ← held, if_neg nonempty], fun responses => ?_⟩
  have shape := finalizeDecision_shape client op
  rw [decided] at shape
  simp only [PutOperation.settled, open_, nonempty, Bool.false_eq_true, if_false, plan,
    FinalizePlan.outcome]
  cases fate with
  | nothing =>
    cases shape with
    | abandon failed => cases lastError responses <;> simp [Fate.result, Fate.decision, failed]
  | _ => cases last : lastError responses <;> simp [Fate.result, Fate.decision, last]

/-! ## Started operations -/

/-- What `StartBatchPut` leaves of an object. -/
structure Started (client : Client) (config : ReplicateConfig) (grant : Grant)
    (op : PutOperation) : Prop where
  key : op.key = grant.key
  slices : op.slices = grant.slices
  replicas : op.replicas = grant.replicas
  failed : allocationExpected client config grant.replicas = false →
    op.isResolved = true ∧ op.result = .error grant.startError
  fresh : allocationExpected client config grant.replicas = true →
    op.isResolved = false ∧ op.pendingTransfers = [] ∧
      op.transferSummary = recordAllocatedReplicas grant.replicas ∧
      op.toReplicateConfig = requestedCounts config

theorem allocationExpected_nil {config : ReplicateConfig} :
    allocationExpected client config [] = false := by
  rw [Bool.eq_false_iff]
  exact fun expected => ne_nil_of_expected expected rfl

theorem acceptPutStart_started (config : ReplicateConfig) (grant : Grant) :
    Started client config grant
      (acceptPutStart client config { key := grant.key, slices := grant.slices } grant.start) := by
  obtain ⟨key, slices, start⟩ := grant
  cases start with
  | error error =>
    refine ⟨rfl, rfl, rfl, fun _ => ⟨rfl, rfl⟩, fun expected => ?_⟩
    rw [Grant.replicas, allocationExpected_nil] at expected
    cases expected
  | ok replicas =>
    unfold acceptPutStart
    dsimp only
    split
    · rename_i expected
      refine ⟨rfl, rfl, rfl, fun unexpected => ?_, fun _ => ⟨rfl, rfl, rfl, rfl⟩⟩
      cases unexpected.symm.trans expected
    · rename_i unexpected
      exact ⟨rfl, rfl, rfl, fun _ => ⟨rfl, rfl⟩, fun expected => absurd expected unexpected⟩

theorem startBatchPut_started (client : Client) (answers : Answers) {keys : List ObjectKey}
    {batchedSlices : List (List Slice)} {config : ReplicateConfig}
    (admitted : batchRefused (putConfig client config) = false) :
    List.Forall₂ (Started client (putConfig client config))
      (batchGrants client answers keys batchedSlices config)
      (startBatchPut client answers (createPutOperations keys batchedSlices)
        (putConfig client config)) := by
  have created : createPutOperations keys batchedSlices = (keys.zip batchedSlices).map
      fun object => { key := object.1, slices := object.2 } :=
    (map_uncurry_zip_eq_zipWith ..).symm
  simp only [batchGrants, admitted, startBatchPut, created, sliceLengths, map_map,
    length_map, Bool.false_eq_true, if_false, Function.comp_def]
  have paired : ∀ (objects : List (ObjectKey × List Slice)) responses,
      List.Forall₂ (Started client (putConfig client config))
        (List.zipWith (fun object start => ⟨object.1, object.2, start⟩) objects responses)
        (List.zipWith (fun object start => acceptPutStart client (putConfig client config)
          { key := object.1, slices := object.2 } start) objects responses) := by
    intro objects
    induction objects with
    | nil => exact fun _ => .nil
    | cons object rest ih =>
      intro responses
      cases responses with
      | nil => exact .nil
      | cons start others => exact .cons (acceptPutStart_started _ ⟨_, _, start⟩) (ih others)
  split
  · rename_i matched
    rw [if_neg (not_not.mpr matched), zipWith_map_left]
    exact paired _ _
  · rw [forall₂_map_left_iff, forall₂_map_right_iff, forall₂_same]
    refine fun object _ => ⟨rfl, rfl, rfl, fun _ => ⟨rfl, rfl⟩, fun expected => ?_⟩
    rw [Grant.replicas, allocationExpected_nil] at expected
    cases expected

/-! ## The transfers -/

variable {answers : Answers} {config : ReplicateConfig} {grants : List Grant} {index : Nat}

/-- In flexible mode the replicas that passed the start are the expected ones for finalizing. -/
theorem expected_counts_of_flexible {replicas : List Replica}
    (expected : allocationExpected client config replicas = true)
    (flexible : client.determineReplicaWriteMode (requestedCounts config) = .flexibleDualReplica) :
    allocationExpected client (requestedCounts config) replicas = true := by
  rw [allocationExpected, recordAllocatedReplicas_eq, hasExpectedReplicaAllocation] at *
  rw [flexible]
  simp only [requestedCounts, if_true] at *
  split
  · rename_i none
    simpa [none] using expected
  · rename_i some
    rw [if_neg some] at expected
    split at expected
    · exact expected
    · simp only [Bool.and_eq_true, decide_eq_true_eq] at expected ⊢
      omega

/-- An open operation is finalized by the fate of its replicas. -/
theorem decision_of_tallies {summary : ReplicaTransferSummary}
    (expected : allocationExpected client config grant.replicas = true)
    (tallies : Tallies summary grant.replicas.zipIdx
      (grant.written client answers config grants index))
    (memory : summary.allocatedMemoryReplicas = grant.replicas.countP Replica.isMemoryReplica)
    (nof : summary.allocatedNofReplicas = grant.replicas.countP Replica.isNofReplica)
    (first : summary.firstError = grant.firstError client answers config grants index)
    (ready : config.preferAllocInSameNode = false → client.transferSubmitter = true)
    (usable : config.preferAllocInSameNode = true → (grant.segment client config).isSome = true)
    (failed : Put.fate client (requestedCounts config) grant.replicas.zipIdx
      (grant.written client answers config grants index) = .nothing →
      client.determineReplicaWriteMode (requestedCounts config) = .flexibleDualReplica →
      summary.firstError ≠ .ok) :
    determineFinalizeDecision client.determineReplicaWriteMode (requestedCounts config) summary =
      (grant.fate client answers config grants index).decision
        (grant.error client answers config grants index) := by
  have passed : (!config.preferAllocInSameNode && !client.transferSubmitter) = false ∧
      (config.preferAllocInSameNode && (grant.segment client config).isNone) = false := by
    cases sameNode : config.preferAllocInSameNode with
    | false => simp [ready sameNode]
    | true =>
      obtain ⟨own, located⟩ := Option.isSome_iff_exists.mp (usable sameNode)
      simp [located]
  simp only [Grant.fate, Grant.error, expected, passed, Bool.true_and, Bool.not_true,
    Bool.false_eq_true, if_false]
  cases counted : allocationExpected client (requestedCounts config) grant.replicas with
  | true =>
    rw [determineFinalizeDecision_fate tallies ((hasExpected_eq memory nof).trans counted)]
    refine Fate.decision_congr fun abandoned => ?_
    simp only [Bool.not_true, Bool.false_eq_true, if_false, ← first, abandonError]
    by_cases flexible : client.determineReplicaWriteMode (requestedCounts config) =
        .flexibleDualReplica
    · simp [failed abandoned flexible]
    · by_cases done : summary.firstError = .ok <;> simp [done, flexible]
  | false =>
    have reliable : client.determineReplicaWriteMode (requestedCounts config) ≠
        .flexibleDualReplica := by
      intro flexible
      rw [expected_counts_of_flexible expected flexible] at counted
      cases counted
    have refused : hasExpectedReplicaAllocation client.determineReplicaWriteMode
        (requestedCounts config) summary = false := (hasExpected_eq memory nof).trans counted
    simp [determineFinalizeDecision, reliable, refused, Fate.decision]

theorem transferOperation_concludes (spread : config.preferAllocInSameNode = false)
    (ready : client.transferSubmitter = true) (started : Started client config grant op) :
    Concludes client grant (grant.fate client answers config grants index)
      (grant.error client answers config grants index) (transferOperation answers index op) := by
  cases expected : allocationExpected client config grant.replicas with
  | false =>
    obtain ⟨resolved, failed⟩ := started.failed expected
    simp only [Grant.fate, Grant.error, expected, ready, Bool.false_and, Bool.not_true,
      Bool.and_false, Bool.false_eq_true, if_false, Bool.not_false, if_true]
    rw [transferOperation_of_resolved answers index resolved]
    exact .of_failed started.key started.replicas resolved failed
  | true =>
    obtain ⟨open_, fresh, allocated, requested⟩ := started.fresh expected
    have nonempty := ne_nil_of_expected expected
    have held : op.replicas ≠ [] := by rwa [started.replicas]
    rw [← started.replicas] at allocated
    have frame := transferOperation_frame answers index held open_
    have accounts := transferOperation_accounts answers index held open_ fresh allocated
    have first : (transferOperation answers index op).transferSummary.firstError =
        grant.firstError client answers config grants index := by
      rw [transferOperation_summary answers index held open_ fresh,
        recordOutcome_foldl_firstError, allocated, recordAllocatedReplicas_eq, started.replicas,
        started.slices]
      simp [Grant.firstError, spread, batchOutcomes]
    have written : (fun entry => decide (Written answers index op.slices entry)) =
        grant.written client answers config grants index := by
      funext entry
      simp [Grant.written, spread, ready, started.slices]
    rw [written, started.replicas] at accounts
    refine .of_open (frame.key.trans started.key) (frame.replicas.trans started.replicas)
      (frame.isResolved.trans open_) nonempty ?_
    have asked : (transferOperation answers index op).toReplicateConfig =
        requestedCounts config := by
      rw [← requested]
      simp [PutOperation.toReplicateConfig, frame.requestedMemory, frame.requestedNof]
    rw [PutOperation.finalizeDecision, asked]
    refine decision_of_tallies expected accounts.tallies
      (accounts.allocatedMemory.trans (countP_zipIdx_fst Replica.isMemoryReplica _))
      (accounts.allocatedNof.trans (countP_zipIdx_fst Replica.isNofReplica _)) first
      (fun _ => ready) (fun sameNode => ?_) (fun abandoned _ => ?_)
    · rw [spread] at sameNode
      cases sameNode
    · obtain ⟨entry, inside, transferred, unwritten⟩ :=
        exists_unwritten_of_nothing expected abandoned
      rw [first, Grant.firstError, spread, if_neg (by decide)]
      refine firstFailure_batchOutcomes_ne_ok inside transferred fun done => ?_
      simp [Grant.written, spread, ready, done] at unwritten

theorem Grant.fate_of_unready (spread : config.preferAllocInSameNode = false)
    (unready : client.transferSubmitter = false) :
    grant.fate client answers config grants index = .nothing := by
  unfold Grant.fate
  split
  · rename_i expected
    refine fate_of_unwritten (Bool.and_eq_true_iff.mp expected).1 fun entry => ?_
    simp [Grant.written, spread, unready]
  · rfl

theorem unready_concludes (spread : config.preferAllocInSameNode = false)
    (unready : client.transferSubmitter = false) (started : Started client config grant op) :
    Concludes client grant (grant.fate client answers config grants index)
      (grant.error client answers config grants index)
      (op.setTerminalError .invalidParams .transferFailed "TransferSubmitter not initialized") := by
  simp only [Grant.fate_of_unready spread unready, Grant.error, spread, unready, Bool.not_false,
    Bool.and_self, if_true]
  refine .of_failed ?_ ?_ rfl rfl
  · exact started.key
  · exact started.replicas

/-! ## The transfers by segment -/

theorem segment_of_started (started : Started client config grant op) :
    grant.segment client config =
      if op.isResolved then none else (segmentReplica op).elim (fun _ => none) some := by
  unfold Grant.segment segmentReplica
  rw [started.replicas]
  cases expected : allocationExpected client config grant.replicas with
  | false => simp [(started.failed expected).1]
  | true =>
    simp only [(started.fresh expected).1, if_true, Bool.false_eq_true, if_false]
    cases grant.replicas with
    | nil => rfl
    | cons replica rest =>
      cases kind : replica.descriptor with
      | memory buffer => by_cases none : buffer.size = 0 <;> simp [kind, none]
      | _ => simp [kind]

theorem segmentMembers_eq_of_started {started : List PutOperation}
    (launched : List.Forall₂ (Started client config) grants started) (segment : String) :
    segmentMembers started segment = grants.filterMap (Grant.member client config segment) := by
  induction launched with
  | nil => rfl
  | @cons grant op grants ops first _ ih =>
    have own : segmentMember segment op = grant.member client config segment := by
      rw [Grant.member, segment_of_started first, segmentMember, first.slices]
      cases op.isResolved with
      | true => rfl
      | false => cases segmentReplica op <;> rfl
    unfold segmentMembers at ih ⊢
    rw [filterMap_cons, filterMap_cons, own, ih]

theorem tallies_of_head {replica : Replica} {rest : List Replica} {done : Bool}
    {summary : ReplicaTransferSummary} (kind : replica.isMemoryReplica = true)
    (memory : summary.allocatedMemoryReplicas = (replica :: rest).countP Replica.isMemoryReplica)
    (nof : summary.allocatedNofReplicas = (replica :: rest).countP Replica.isNofReplica)
    (wroteMemory : summary.successfulMemoryTransfers = if done then 1 else 0)
    (missedMemory : summary.failedMemoryTransfers = if done then 0 else 1)
    (wroteNof : summary.successfulNofTransfers = 0)
    (missedNof : summary.failedNofTransfers = 0) :
    Tallies summary (replica :: rest).zipIdx (fun entry => decide (entry.2 = 0) && done) := by
  have notNof := Replica.isMemoryReplica_not_isNofReplica kind
  have later : ∀ entry ∈ rest.zipIdx 1, entry.2 ≠ 0 := by
    intro entry inside
    have bound := (mem_zipIdx inside).1
    omega
  rw [zipIdx_cons, Nat.zero_add]
  refine ⟨?_, ?_, ?_⟩
  · have none : ((rest.zipIdx 1).any fun entry =>
        entry.1.isMemoryReplica && (decide (entry.2 = 0) && done)) = false :=
      any_eq_false.mpr fun entry inside => by simp [later entry inside]
    rw [any_cons, none, wroteMemory]
    cases done <;> simp [kind]
  · have none : ((rest.zipIdx 1).any fun entry =>
        entry.1.isNofReplica && (decide (entry.2 = 0) && done)) = false :=
      any_eq_false.mpr fun entry inside => by simp [later entry inside]
    rw [any_cons, none, wroteNof]
    simp [notNof]
  · have others : ((rest.zipIdx 1).all fun entry =>
        !entry.1.isTransferred || (decide (entry.2 = 0) && done)) = true ↔
        rest.countP Replica.isMemoryReplica = 0 ∧ rest.countP Replica.isNofReplica = 0 := by
      have values : ∀ test : Replica → Bool, rest.countP test = 0 ↔
          ∀ entry ∈ rest.zipIdx 1, test entry.1 = false := by
        intro test
        rw [← zipIdx_map_fst 1 rest, countP_map, countP_eq_zero]
        simp
      rw [all_eq_true, values, values, ← forall₂_and]
      refine forall₂_congr fun entry inside => ?_
      simp [later entry inside, Replica.isTransferred]
    rw [all_cons, Bool.and_eq_true, others, memory, nof, wroteMemory, wroteNof, missedMemory,
      missedNof, countP_cons, countP_cons, kind, notNof]
    cases done with
    | false => simp [Replica.isTransferred, kind]
    | true =>
      simp only [Replica.isTransferred, kind, Bool.true_or, Bool.not_true, decide_true,
        Bool.true_and, Bool.or_true, reduceIte, Bool.false_eq_true, true_and,
        and_true]
      omega

/-- The loops by segment conclude an operation. -/
theorem receiveSegment_concludes (sameNode : config.preferAllocInSameNode = true)
    {ops : List PutOperation} (launched : List.Forall₂ (Started client config) grants ops)
    (member : op ∈ ops) (started : Started client config grant op) :
    Concludes client grant (grant.fate client answers config grants index)
      (grant.error client answers config grants index)
      (receiveSegment (returnedSegments answers ops) (checkSegment client op)) := by
  have own := segment_of_started started
  cases expected : allocationExpected client config grant.replicas with
  | false =>
    obtain ⟨resolved, failed⟩ := started.failed expected
    simp only [Grant.fate, Grant.error, expected, sameNode, Bool.false_and, Bool.not_true,
      Bool.false_eq_true, if_false, Bool.not_false, if_true]
    rw [receiveSegment_of_resolved client resolved]
    exact .of_failed started.key started.replicas resolved failed
  | true =>
    obtain ⟨open_, -, allocated, requested⟩ := started.fresh expected
    have nonempty := ne_nil_of_expected expected
    rw [open_] at own
    cases located : segmentReplica op with
    | inl failure =>
      obtain ⟨error, context⟩ := failure
      have unusable : grant.segment client config = none := by simpa [located] using own
      obtain rfl := segmentReplica_inl (by rwa [started.replicas]) located
      have nothing : grant.fate client answers config grants index = .nothing := by
        unfold Grant.fate
        split
        · refine fate_of_unwritten expected fun entry => ?_
          simp [Grant.written, sameNode, unusable]
        · rfl
      simp only [nothing, Grant.error, expected, sameNode, unusable, Bool.not_true,
        Bool.false_and, Bool.false_eq_true, if_false, Option.isNone_none, Bool.and_self, if_true]
      rw [receiveSegment_of_failed client open_ located]
      refine .of_failed ?_ ?_ (op.setError_isResolved client .invalidParams context) rfl
      · exact started.key
      · exact started.replicas
    | inr place =>
      obtain ⟨segment, replica⟩ := place
      have usable : grant.segment client config = some (segment, replica) := by
        simpa [located] using own
      obtain ⟨frame, summary⟩ := receiveSegment_summary answers client member open_ located
      rw [segmentMembers_eq_of_started launched, allocated, recordAllocatedReplicas_eq,
        ← segmentOutcome] at summary
      obtain ⟨head, buffer, kind, -⟩ := segmentReplica_inr located
      obtain ⟨rest, replicas⟩ : ∃ rest, grant.replicas = replica :: rest := by
        rw [started.replicas] at head
        exact head?_eq_some_iff.mp head
      refine .of_open (frame.key.trans started.key) (frame.replicas.trans started.replicas)
        (frame.isResolved.trans open_) nonempty ?_
      have asked : (receiveSegment (returnedSegments answers ops)
          (checkSegment client op)).toReplicateConfig = requestedCounts config := by
        rw [← requested]
        simp [PutOperation.toReplicateConfig, frame.requestedMemory, frame.requestedNof]
      have written : grant.written client answers config grants index = fun entry =>
          decide (entry.2 = 0) &&
            decide (segmentOutcome client answers config grants segment = .ok) := by
        funext entry
        simp [Grant.written, sameNode, usable]
      rw [PutOperation.finalizeDecision, asked]
      refine decision_of_tallies expected ?_ (by rw [summary]) (by rw [summary]) ?_
        (fun spread => ?_) (fun _ => by rw [usable]; rfl) (fun abandoned flexible => ?_)
      · rw [written, replicas, summary]
        refine tallies_of_head (by simp [Replica.isMemoryReplica, kind]) ?_ ?_ ?_ ?_ rfl rfl
        · rw [replicas]
        · rw [replicas]
        · simp
        · simp
      · rw [summary]
        simp [Grant.firstError, sameNode, usable]
      · rw [sameNode] at spread
        cases spread
      · rw [summary]
        intro (done : segmentOutcome client answers config grants segment = .ok)
        have wrote : (grant.replicas.zipIdx.any fun entry => entry.1.isMemoryReplica &&
            grant.written client answers config grants index entry) = true := by
          rw [written, replicas, zipIdx_cons]
          simp [Replica.isMemoryReplica, kind, done]
        rw [Put.fate, if_pos flexible, wrote] at abandoned
        split at abandoned <;> simp_all

/-! ## A batch -/

/-- The operations that `FinalizeBatchPut` finds, object by object. -/
structure BatchConcludes (client : Client) (answers : Answers) (config : ReplicateConfig)
    (grants : List Grant) (transferred : List PutOperation) : Prop where
  length : transferred.length = grants.length
  each : ∀ (index : Nat) (grant : Grant) (op : PutOperation), grants[index]? = some grant →
    transferred[index]? = some op →
    Concludes client grant (grant.fate client answers config grants index)
      (grant.error client answers config grants index) op

/-- A call that is not refused finalizes operations that conclude as the answers say. -/
theorem batchPut_concludes (client : Client) (answers : Answers) (keys : List ObjectKey)
    (batchedSlices : List (List Slice)) (config : ReplicateConfig)
    (admitted : batchRefused (putConfig client config) = false) :
    ∃ started transferred,
      batchPut client answers keys batchedSlices config =
        finishBatchPut client answers started transferred ∧
      List.Forall₂ (Started client (putConfig client config))
        (batchGrants client answers keys batchedSlices config) started ∧
      BatchConcludes client answers (putConfig client config)
        (batchGrants client answers keys batchedSlices config) transferred := by
  have launched := @startBatchPut_started client answers keys batchedSlices config admitted
  unfold batchPut
  dsimp only
  generalize batchGrants client answers keys batchedSlices config = grants at launched
  generalize startBatchPut client answers (createPutOperations keys batchedSlices)
    (putConfig client config) = started at launched
  generalize putConfig client config = clientConfig at admitted launched ⊢
  have both : ∀ {index : Nat} {grant : Grant} {op : PutOperation}, grants[index]? = some grant →
      started[index]? = some op → Started client clientConfig grant op := by
    intro index grant op granted found
    obtain ⟨inside, rfl⟩ := List.getElem?_eq_some_iff.mp granted
    obtain ⟨within, rfl⟩ := List.getElem?_eq_some_iff.mp found
    exact (forall₂_iff_get.mp launched).2 index inside within
  cases sameNode : clientConfig.preferAllocInSameNode with
  | true =>
    have single : ¬ 0 < clientConfig.nofReplicaNum ∧ ¬ clientConfig.replicaNum ≠ 1 := by
      simpa [batchRefused, sameNode] using admitted
    simp only [if_true, single.1, single.2, if_false]
    refine ⟨_, _, rfl, launched, by simp [transferBySegment, launched.length_eq], ?_⟩
    intro index grant op granted found
    simp only [transferBySegment, map_map, getElem?_map, Option.map_eq_some_iff] at found
    obtain ⟨before, located, rfl⟩ := found
    exact receiveSegment_concludes sameNode launched (mem_of_getElem? located)
      (both granted located)
  | false =>
    simp only [Bool.false_eq_true, if_false]
    refine ⟨_, _, rfl, launched, ?_⟩
    cases ready : client.transferSubmitter with
    | true =>
      rw [waitForTransfers_submitTransfers answers ready]
      refine ⟨by simp [launched.length_eq], fun index grant op granted found => ?_⟩
      rw [getElem?_mapIdx, Option.map_eq_some_iff] at found
      obtain ⟨before, located, rfl⟩ := found
      exact transferOperation_concludes sameNode ready (both granted located)
    | false =>
      rw [waitForTransfers_unready answers ready]
      refine ⟨by simp [launched.length_eq], fun index grant op granted found => ?_⟩
      rw [getElem?_map, Option.map_eq_some_iff] at found
      obtain ⟨before, located, rfl⟩ := found
      exact unready_concludes sameNode ready (both granted located)

theorem exists_grant_of_started {started : List PutOperation}
    (launched : List.Forall₂ (Started client config) grants started)
    (found : started[index]? = some op) :
    ∃ grant, grants[index]? = some grant ∧ Started client config grant op := by
  obtain ⟨within, rfl⟩ := List.getElem?_eq_some_iff.mp found
  have inside : index < grants.length := launched.length_eq ▸ within
  exact ⟨_, getElem?_eq_getElem inside, (forall₂_iff_get.mp launched).2 index inside within⟩

theorem BatchConcludes.exists_op {transferred : List PutOperation}
    (concludes : BatchConcludes client answers config grants transferred)
    (granted : grants[index]? = some grant) :
    ∃ op, transferred[index]? = some op ∧
      Concludes client grant (grant.fate client answers config grants index)
        (grant.error client answers config grants index) op := by
  have inside : index < transferred.length := by
    rw [concludes.length]
    exact (List.getElem?_eq_some_iff.mp granted).1
  have located := getElem?_eq_getElem inside
  exact ⟨_, located, concludes.each index grant _ granted located⟩

theorem BatchConcludes.exists_grant {transferred : List PutOperation}
    (concludes : BatchConcludes client answers config grants transferred)
    (located : transferred[index]? = some op) :
    ∃ grant, grants[index]? = some grant ∧
      Concludes client grant (grant.fate client answers config grants index)
        (grant.error client answers config grants index) op := by
  have inside : index < grants.length := by
    rw [← concludes.length]
    exact (List.getElem?_eq_some_iff.mp located).1
  have granted := getElem?_eq_getElem inside
  exact ⟨_, granted, concludes.each index _ op granted located⟩

section Responses

variable {transferred : List PutOperation}
  (concludes : BatchConcludes client answers config grants transferred)

include concludes

theorem BatchConcludes.collect (name : FinalizeGroup) :
    BatchFinalizeGroup.collect (plans client name) transferred =
      batchRequest client answers config grants name := by
  have same : ∀ {γ : Type} {read : PutOperation × Nat → γ} {read' : Grant × Nat → γ},
      (∀ (op : PutOperation) (grant : Grant) index, op.key = grant.key →
        read (op, index) = read' (grant, index)) →
      ((select (plans client name) transferred).map read) =
        (grants.zipIdx.filter fun entry =>
          decide (name ∈ entry.1.actions client answers config grants entry.2)).map read' := by
    intro γ read read' alike
    apply map_filter_zipIdx_congr concludes.length
    intro index op grant located granted
    have own := concludes.each index grant op granted located
    rw [Nat.zero_add]
    exact ⟨by simp only [plans, own.plan, Grant.actions], alike op grant index own.key⟩
  rw [BatchFinalizeGroup.collect, batchRequest, positions, BatchFinalizeGroup.mk.injEq]
  exact ⟨same fun _ _ _ key => key, same fun _ _ _ _ => rfl⟩

theorem BatchConcludes.responses (granted : grants[index]? = some grant)
    (names : List FinalizeGroup) :
    ownResponses (names.filterMap (sendGroup answers (scanBatch client transferred).groups)) index =
      (names.filter fun name =>
        decide (name ∈ grant.actions client answers config grants index)).map fun name =>
          (batchRequest client answers config grants name).response answers name index := by
  obtain ⟨op, located, own⟩ := concludes.exists_op granted
  have planned : ∀ name, plans client name op =
      decide (name ∈ grant.actions client answers config grants index) := by
    intro name
    rw [plans, own.plan]
    rfl
  simp only [ownResponses_of_names client answers located, concludes.collect, planned]

theorem BatchConcludes.results {started : List PutOperation}
    (granted : grants[index]? = some grant) :
    (finishBatchPut client answers started transferred).results[index]? =
      some (reported ((grant.fate client answers config grants index).result
        (grant.error client answers config grants index)
        (ownResponses (finalizeRequests client answers transferred) index))) := by
  obtain ⟨op, located, own⟩ := concludes.exists_op granted
  obtain ⟨final, found, settled⟩ := finalizeBatchPut_settled client answers located
  rw [← own.result, ← congrArg Prod.snd settled]
  simp only [finishBatchPut, collectResults, getElem?_map, found, Option.map_some, reported]

end Responses

theorem batchPut_of_refused {keys : List ObjectKey} {batchedSlices : List (List Slice)}
    (refused : batchRefused (putConfig client config) = true) :
    batchPut client answers keys batchedSlices config =
        { results := keys.map fun _ => .error .invalidParams } ∧
      batchGrants client answers keys batchedSlices config = [] := by
  refine ⟨?_, by simp [batchGrants, refused]⟩
  obtain ⟨sameNode, other⟩ := Bool.and_eq_true_iff.mp refused
  simp only [batchPut, sameNode, if_true]
  split
  · rfl
  · rename_i none
    rw [if_pos (by simpa [none] using other)]

end Mooncake.Put
