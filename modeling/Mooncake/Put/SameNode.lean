import Mathlib.Data.List.AList
import Mooncake.Library.Indexed
import Mooncake.Put.Transfer

/-!
# Batch put to one replica per node

`BatchPutWhenPreferSameNode` merges the operations whose first replica lies on
the same segment into one batch transfer and copies the outcome of the batch
to each of them.  The batches are kept in a map from segment to merged
operation.  A batch is determined by its segment, so the order in which the map
is walked does not show.
-/

namespace Mooncake.Put

open Library.Indexed List

/-! ## The three loops -/

/-- `seg_to_ops`. -/
abbrev SegmentMap := AList fun _ : String => PutOperation

/-- The checks of the first loop on the replicas of one operation: the error to
set, or the segment and the replica to merge. -/
def segmentReplica (op : PutOperation) : (ErrorCode × String) ⊕ (String × Replica) :=
  match op.replicas with
  | [] => .inl (.internalError, "No replicas available for transfer")
  | replica :: _ =>
    match replica.descriptor with
    | .memory buffer =>
      if buffer.size = 0 then .inl (.invalidParams, "buffer size is 0.")
      else .inr (buffer.transportEndpoint, replica)
    | _ => .inl (.invalidParams, "only memory is supported.")

def mergeIntoSegment (segToOps : SegmentMap) (segment : String) (op : PutOperation)
    (replica : Replica) : SegmentMap :=
  let merged := (segToOps.lookup segment).getD { key := op.key, slices := op.slices }
  segToOps.insert segment
    { merged with
      batchedSlices := merged.batchedSlices ++ [op.slices]
      replicas := merged.replicas ++ [replica] }

/-- One iteration of the first loop, on the map. -/
def admitOperation (segToOps : SegmentMap) (op : PutOperation) : SegmentMap :=
  if op.isResolved then segToOps
  else
    match segmentReplica op with
    | .inl _ => segToOps
    | .inr (segment, replica) => mergeIntoSegment segToOps segment op replica

/-- One iteration of the first loop, on the operation. -/
def checkSegment (client : Client) (op : PutOperation) : PutOperation :=
  if op.isResolved then op
  else
    match segmentReplica op with
    | .inl (error, context) => op.setError client error context
    | .inr _ => op

/-- The merged operation of a segment, after its batch was submitted. -/
def submitSegment (answers : Answers) (op : PutOperation) : PutOperation :=
  let merged : PutOperation :=
    { key := op.key
      slices := op.slices
      replicas := op.replicas
      transferSummary := { allocatedMemoryReplicas := 1 } }
  match answers.submitBatch op.replicas op.batchedSlices with
  | none =>
    { merged with
      transferSummary := merged.transferSummary.recordFailure .memory .transferFail
      failureContext := some "Failed to submit batch transfer"
      pendingTransfers := [] }
  | some future => { merged with pendingTransfers := [⟨.memory, future⟩] }

/-- The segment of the first replica, which the loops have found to be memory. -/
def firstSegment (op : PutOperation) : String :=
  match op.replicas with
  | [] => ""
  | replica :: _ =>
    match replica.descriptor with
    | .memory buffer => buffer.transportEndpoint
    | _ => ""

/-- Copy the summary of a merged operation back to its map entry. -/
def returnSegment (segToOps : SegmentMap) (merged : PutOperation) : SegmentMap :=
  match segToOps.lookup (firstSegment merged) with
  | none => segToOps
  | some op =>
    segToOps.insert (firstSegment merged)
      { op with
        transferSummary := merged.transferSummary
        failureContext := merged.failureContext }

def copyOutcome (merged op : PutOperation) : PutOperation :=
  { op with
    transferSummary :=
      { op.transferSummary with
        successfulMemoryTransfers :=
          if 0 < merged.transferSummary.successfulMemoryTransfers then 1 else 0
        failedMemoryTransfers := if 0 < merged.transferSummary.failedMemoryTransfers then 1 else 0
        firstError := merged.transferSummary.firstError }
    failureContext := merged.failureContext }

def receiveSegment (segToOps : SegmentMap) (op : PutOperation) : PutOperation :=
  if op.isResolved then op
  else
    match segToOps.lookup (firstSegment op) with
    | none => op
    | some merged => copyOutcome merged op

/-- `BatchPutWhenPreferSameNode`, up to its call of `FinalizeBatchPut`. -/
def transferBySegment (client : Client) (answers : Answers) (ops : List PutOperation) :
    List PutOperation :=
  let segToOps := ops.foldl admitOperation ∅
  let mergedOps := waitForTransfers
    (segToOps.entries.map fun entry => submitSegment answers entry.2)
  let returned := mergedOps.foldl returnSegment segToOps
  (ops.map (checkSegment client)).map (receiveSegment returned)

/-! ## The batch of a segment -/

def segmentMember (segment : String) (op : PutOperation) : Option (Replica × List Slice) :=
  if op.isResolved then none
  else
    match segmentReplica op with
    | .inl _ => none
    | .inr (own, replica) => if own = segment then some (replica, op.slices) else none

def segmentMembers (ops : List PutOperation) (segment : String) : List (Replica × List Slice) :=
  ops.filterMap (segmentMember segment)

/-- The outcome of one batch transfer. -/
def batchOutcome (answers : Answers) (replicas : List Replica)
    (batchedSlices : List (List Slice)) : ErrorCode :=
  match answers.submitBatch replicas batchedSlices with
  | none => .transferFail
  | some future => future.outcome

/-- The map entry of a segment holds exactly the given members. -/
def HoldsBatch (segToOps : SegmentMap) (segment : String)
    (members : List (Replica × List Slice)) : Prop :=
  members = [] ∧ segToOps.lookup segment = none ∨
    members ≠ [] ∧ ∃ merged ∈ segToOps.lookup segment,
      merged.replicas = members.map Prod.fst ∧
      merged.batchedSlices = members.map Prod.snd

variable {segToOps : SegmentMap} {segment : String} {members : List (Replica × List Slice)}
  {op merged : PutOperation} {ops : List PutOperation}
  {walk : List (Sigma fun _ : String => PutOperation)}

variable {replica : Replica}

theorem mergeIntoSegment_holds (holds : HoldsBatch segToOps segment members) :
    HoldsBatch (mergeIntoSegment segToOps segment op replica) segment
      (members ++ [(replica, op.slices)]) := by
  refine .inr ⟨by simp, _, AList.lookup_insert _, ?_⟩
  rcases holds with ⟨rfl, absent⟩ | ⟨-, merged, found, replicas, slices⟩
  · simp [absent]
  · rw [Option.mem_def] at found
    simp [found, replicas, slices]

theorem admitOperation_holds (holds : HoldsBatch segToOps segment members) (op : PutOperation) :
    HoldsBatch (admitOperation segToOps op) segment
      (members ++ (segmentMember segment op).toList) := by
  unfold admitOperation segmentMember
  split
  · simpa using holds
  · cases segmentReplica op with
    | inl failure => simpa using holds
    | inr located =>
      obtain ⟨own, replica⟩ := located
      by_cases same : own = segment
      · subst same
        simpa using mergeIntoSegment_holds holds
      · have different : segment ≠ own := fun equal => same equal.symm
        simpa [same, HoldsBatch, mergeIntoSegment, AList.lookup_insert_ne different]
          using holds

theorem admitOperation_foldl_holds (holds : HoldsBatch segToOps segment members) :
    HoldsBatch (ops.foldl admitOperation segToOps) segment
      (members ++ segmentMembers ops segment) := by
  induction ops generalizing segToOps members with
  | nil => simpa [segmentMembers] using holds
  | cons op rest ih =>
    have tail := ih (admitOperation_holds holds op)
    rw [foldl_cons]
    unfold segmentMembers at tail ⊢
    cases contributed : segmentMember segment op <;>
      simpa [contributed] using tail

theorem segToOps_holds (ops : List PutOperation) (segment : String) :
    HoldsBatch (ops.foldl admitOperation ∅) segment (segmentMembers ops segment) := by
  have empty : HoldsBatch ∅ segment [] := .inl ⟨rfl, AList.lookup_empty segment⟩
  simpa using admitOperation_foldl_holds empty

theorem segmentReplica_inr (located : segmentReplica op = .inr (segment, replica)) :
    op.replicas.head? = some replica ∧
      ∃ buffer, replica.descriptor = .memory buffer ∧ buffer.transportEndpoint = segment := by
  unfold segmentReplica at located
  cases replicas : op.replicas with
  | nil => simp [replicas] at located
  | cons first rest =>
    rw [replicas] at located
    cases kind : first.descriptor with
    | memory buffer =>
      simp only [kind] at located
      split at located
      · cases located
      · obtain ⟨rfl, rfl⟩ := Prod.mk.inj (Sum.inr.inj located)
        exact ⟨rfl, buffer, kind, rfl⟩
    | nof buffer => simp [kind] at located
    | disk descriptor => simp [kind] at located
    | localDisk descriptor => simp [kind] at located

theorem segmentReplica_inl (nonempty : op.replicas ≠ []) {error : ErrorCode} {context : String}
    (located : segmentReplica op = .inl (error, context)) : error = .invalidParams := by
  unfold segmentReplica at located
  split at located
  · rename_i empty
    exact absurd empty nonempty
  · split at located
    · split at located
      · exact (Prod.mk.inj (Sum.inl.inj located)).1.symm
      · cases located
    · exact (Prod.mk.inj (Sum.inl.inj located)).1.symm

theorem segmentMember_eq_some {member : Replica × List Slice}
    (contributed : segmentMember segment op = some member) :
    op.isResolved = false ∧ segmentReplica op = .inr (segment, member.1) ∧
      member.2 = op.slices := by
  unfold segmentMember at contributed
  split at contributed
  · cases contributed
  · rename_i open_
    cases located : segmentReplica op with
    | inl failure => simp [located] at contributed
    | inr own =>
      obtain ⟨segment', replica⟩ := own
      simp only [located] at contributed
      split at contributed
      · rename_i same
        obtain rfl := Option.some.inj contributed
        exact ⟨by simpa using open_, by rw [same], rfl⟩
      · cases contributed

/-- The key of a map entry is the segment of its first replica. -/
theorem firstSegment_of_lookup (found : (ops.foldl admitOperation ∅).lookup segment = some merged) :
    firstSegment merged = segment := by
  rcases segToOps_holds ops segment with ⟨-, absent⟩ | ⟨nonempty, other, located, replicas, -⟩
  · rw [absent] at found
    cases found
  · rw [Option.mem_def, found] at located
    obtain rfl := Option.some.inj located
    obtain ⟨first, rest, members⟩ := exists_cons_of_ne_nil nonempty
    have inside : first ∈ segmentMembers ops segment := by simp [members]
    obtain ⟨op, -, contributed⟩ := mem_filterMap.mp inside
    obtain ⟨-, own, -⟩ := segmentMember_eq_some contributed
    obtain ⟨-, buffer, kind, endpoint⟩ := segmentReplica_inr own
    rw [members] at replicas
    simp [firstSegment, replicas, kind, endpoint]

/-! ## The outcome of a segment -/

variable (answers : Answers)

theorem submitSegment_frame :
    (submitSegment answers op).replicas = op.replicas ∧
      (submitSegment answers op).isResolved = false := by
  unfold submitSegment
  cases answers.submitBatch op.replicas op.batchedSlices <;> exact ⟨rfl, rfl⟩

theorem firstSegment_submitted :
    firstSegment (awaitOperation (submitSegment answers op)) = firstSegment op := by
  unfold firstSegment
  rw [(awaitOperation_frame _).replicas, (submitSegment_frame answers).1]

theorem submitSegment_counts (op : PutOperation) :
    let summary := (awaitOperation (submitSegment answers op)).transferSummary
    let outcome := batchOutcome answers op.replicas op.batchedSlices
    (0 < summary.successfulMemoryTransfers ↔ outcome = .ok) ∧
    (0 < summary.failedMemoryTransfers ↔ outcome ≠ .ok) ∧ summary.firstError = outcome := by
  unfold awaitOperation submitSegment batchOutcome
  cases answers.submitBatch op.replicas op.batchedSlices with
  | none => simp [PutOperation.isResolved, ReplicaTransferSummary.recordFailure]
  | some future =>
    by_cases done : future.outcome = .ok
    · simp [PutOperation.isResolved, awaitTransfer, done, ReplicaTransferSummary.recordSuccess]
    · simp [PutOperation.isResolved, awaitTransfer, done, ReplicaTransferSummary.recordFailure]

def returnedSegments (answers : Answers) (ops : List PutOperation) : SegmentMap :=
  (waitForTransfers ((ops.foldl admitOperation ∅).entries.map
    fun entry => submitSegment answers entry.2)).foldl returnSegment (ops.foldl admitOperation ∅)

theorem returnSegment_lookup_of_ne (segToOps : SegmentMap) (merged : PutOperation)
    (segment : String) (different : segment ≠ firstSegment merged) :
    (returnSegment segToOps merged).lookup segment = segToOps.lookup segment := by
  unfold returnSegment
  split
  · rfl
  · exact AList.lookup_insert_ne different

theorem returnSegment_lookup_self (found : segToOps.lookup (firstSegment merged) = some op) :
    (returnSegment segToOps merged).lookup (firstSegment merged) =
      some { op with
        transferSummary := merged.transferSummary
        failureContext := merged.failureContext } := by
  unfold returnSegment
  rw [found]
  exact AList.lookup_insert segToOps

theorem firstSegment_merged (walked : walk.Perm (ops.foldl admitOperation ∅).entries) :
    (waitForTransfers (walk.map fun entry => submitSegment answers entry.2)).map firstSegment =
      walk.map Sigma.fst := by
  rw [waitForTransfers, map_map, map_map]
  apply map_congr_left
  intro entry member
  have located := AList.mem_lookup_iff.mpr (walked.mem_iff.mp member)
  exact (firstSegment_submitted answers).trans (firstSegment_of_lookup located)

theorem walk_nodup (walked : walk.Perm segToOps.entries) :
    (walk.map Sigma.fst).Nodup :=
  (walked.map Sigma.fst).nodup_iff.mpr (AList.keys_nodup segToOps)

/-- In whatever order the map is walked, every segment gets back the outcome of its own batch. -/
theorem walked_lookup (walked : walk.Perm (ops.foldl admitOperation ∅).entries)
    (found : (ops.foldl admitOperation ∅).lookup segment = some merged) :
    ((waitForTransfers (walk.map fun entry => submitSegment answers entry.2)).foldl returnSegment
        (ops.foldl admitOperation ∅)).lookup segment =
      some { merged with
        transferSummary := (awaitOperation (submitSegment answers merged)).transferSummary
        failureContext := (awaitOperation (submitSegment answers merged)).failureContext } := by
  have distinct : ((waitForTransfers (walk.map
      fun entry => submitSegment answers entry.2)).map firstSegment).Nodup := by
    rw [firstSegment_merged answers walked]
    exact walk_nodup walked
  have present : awaitOperation (submitSegment answers merged) ∈
      waitForTransfers (walk.map fun entry => submitSegment answers entry.2) := by
    rw [waitForTransfers, map_map]
    exact mem_map.mpr ⟨⟨segment, merged⟩, walked.mem_iff.mpr (AList.mem_lookup_iff.mp found), rfl⟩
  obtain ⟨before, same, final⟩ := view_foldl_of_mem
    (fun (segToOps : SegmentMap) segment => segToOps.lookup segment)
    returnSegment_lookup_of_ne distinct present (ops.foldl admitOperation ∅)
  have own : firstSegment (awaitOperation (submitSegment answers merged)) = segment := by
    rw [firstSegment_submitted, firstSegment_of_lookup found]
  rw [own, found, ← own] at same
  rwa [returnSegment_lookup_self same, own] at final

theorem walked_lookup_none (walked : walk.Perm (ops.foldl admitOperation ∅).entries)
    (absent : (ops.foldl admitOperation ∅).lookup segment = none) :
    ((waitForTransfers (walk.map fun entry => submitSegment answers entry.2)).foldl returnSegment
        (ops.foldl admitOperation ∅)).lookup segment = none := by
  have unwalked : segment ∉ (waitForTransfers (walk.map
      fun entry => submitSegment answers entry.2)).map firstSegment := by
    rw [firstSegment_merged answers walked, (walked.map Sigma.fst).mem_iff]
    exact AList.lookup_eq_none.mp absent
  exact (view_foldl_of_not_mem
    (fun (segToOps : SegmentMap) segment => segToOps.lookup segment)
    returnSegment_lookup_of_ne unwalked _).trans absent

theorem returnedSegments_lookup
    (found : (ops.foldl admitOperation ∅).lookup segment = some merged) :
    ∃ returned, (returnedSegments answers ops).lookup segment = some returned ∧
      returned.transferSummary = (awaitOperation (submitSegment answers merged)).transferSummary :=
  ⟨_, walked_lookup answers (.refl _) found, rfl⟩

section OneOperation

variable (client : Client)

theorem firstSegment_eq (located : segmentReplica op = .inr (segment, replica)) :
    firstSegment op = segment := by
  obtain ⟨first, buffer, kind, endpoint⟩ := segmentReplica_inr located
  unfold firstSegment
  cases replicas : op.replicas with
  | nil => simp [replicas] at first
  | cons head rest =>
    rw [replicas] at first
    obtain rfl := Option.some.inj first
    simp [kind, endpoint]

theorem receiveSegment_of_resolved (resolved : op.isResolved = true) :
    receiveSegment segToOps (checkSegment client op) = op := by
  simp [checkSegment, receiveSegment, resolved]

theorem receiveSegment_of_failed (open_ : op.isResolved = false) {error : ErrorCode}
    {context : String} (located : segmentReplica op = .inl (error, context)) :
    receiveSegment segToOps (checkSegment client op) = op.setError client error context := by
  simp [checkSegment, receiveSegment, open_, located]

theorem receiveSegment_summary (member : op ∈ ops) (open_ : op.isResolved = false)
    (located : segmentReplica op = .inr (segment, replica)) :
    let after := receiveSegment (returnedSegments answers ops) (checkSegment client op)
    let outcome := batchOutcome answers ((segmentMembers ops segment).map Prod.fst)
      ((segmentMembers ops segment).map Prod.snd)
    SameFrame op after ∧ after.transferSummary =
      { op.transferSummary with
        successfulMemoryTransfers := if outcome = .ok then 1 else 0
        failedMemoryTransfers := if outcome = .ok then 0 else 1
        firstError := outcome } := by
  have contributed : segmentMember segment op = some (replica, op.slices) := by
    simp [segmentMember, open_, located]
  have nonempty : segmentMembers ops segment ≠ [] :=
    ne_nil_of_mem (mem_filterMap.mpr ⟨op, member, contributed⟩)
  have checked : checkSegment client op = op := by simp [checkSegment, open_, located]
  rcases segToOps_holds ops segment with ⟨empty, -⟩ | ⟨-, merged, found, replicas, slices⟩
  · exact absurd empty nonempty
  obtain ⟨returned, received, summary⟩ := returnedSegments_lookup answers found
  obtain ⟨success, failure, first⟩ := submitSegment_counts answers merged
  rw [← summary, replicas, slices] at success failure first
  rw [← firstSegment_eq located] at received
  have copied : receiveSegment (returnedSegments answers ops) (checkSegment client op) =
      copyOutcome returned op := by
    rw [checked, receiveSegment, open_, received]
    rfl
  rw [copied]
  refine ⟨⟨rfl, rfl, rfl, rfl, rfl, rfl, rfl⟩, ?_⟩
  simp only [copyOutcome, success, failure, first, ne_eq, ite_not]

end OneOperation

end Mooncake.Put
