import Mooncake.Library.Keyed
import Mooncake.Put.SameNode

/-!
# Batch puts by node: operations and data stay paired

`BatchPutWhenPreferSameNode` merges operations into a map from endpoint to merged operation,
moves the merged operations to a list, submits one batch for each of them, and copies the
outcomes back by looking the endpoint up again.  The map is hashed, so its walk may have any
order.
-/

namespace Mooncake.SameNode

open Library.Keyed Put List

/-! ## Calls of `submit_batch` -/

/-- An operation that passed the checks: its index, its replica and its slices. -/
structure Row where
  index : Nat
  replica : Replica
  slices : List Slice
  deriving DecidableEq, Repr

structure SubmitBatch where
  replicas : List Replica
  batchedSlices : List (List Slice)
  deriving DecidableEq, Repr

def OnSegment (segment : String) (replica : Replica) : Prop :=
  ∃ buffer, replica.descriptor = .memory buffer ∧ buffer.transportEndpoint = segment

def submitBatchOf (rows : List Row) : SubmitBatch :=
  ⟨rows.map Row.replica, rows.map Row.slices⟩

/-- There is one call for each endpoint of a row; it gets the rows of the endpoint in order, and
every row is in one call. -/
structure PairedCalls (located : List (String × Row)) (segments : List String)
    (calls : List SubmitBatch) : Prop where
  distinct : segments.Nodup
  occupied : ∀ segment, segment ∈ segments ↔ ∃ row, (segment, row) ∈ located
  calls_eq : calls = segments.map fun segment => submitBatchOf (elementsOf located segment)
  once : (segments.flatMap (elementsOf located)).Perm (located.map Prod.snd)

variable {located : List (String × Row)} {segments : List String} {calls : List SubmitBatch}

theorem PairedCalls.of_walk (distinct : segments.Nodup)
    (occupied : ∀ segment, segment ∈ segments ↔ ∃ row, (segment, row) ∈ located)
    (calls_eq : calls = segments.map fun segment => submitBatchOf (elementsOf located segment)) :
    PairedCalls located segments calls :=
  ⟨distinct, occupied, calls_eq, flatMap_elementsOf_perm distinct fun pair present =>
    (occupied pair.1).mpr ⟨pair.2, present⟩⟩

theorem PairedCalls.mem_calls (paired : PairedCalls located segments calls) {segment : String}
    {row : Row} (present : (segment, row) ∈ located) :
    submitBatchOf (elementsOf located segment) ∈ calls := by
  rw [paired.calls_eq]
  exact mem_map_of_mem ((paired.occupied segment).mpr ⟨row, present⟩)

/-! ## The loops of the put -/

/-- An order in which a map may be walked. -/
structure Walk (segToOps : SegmentMap) where
  entries : List (Sigma fun _ : String => PutOperation)
  perm : entries.Perm segToOps.entries

/-- What `BatchPutWhenPreferSameNode` does up to its call of `FinalizeBatchPut`. -/
structure SegmentRun where
  calls : List SubmitBatch
  mergedOps : List PutOperation
  segToOps : SegmentMap
  ops : List PutOperation

def mergedBatch (op : PutOperation) : SubmitBatch :=
  ⟨op.replicas, op.batchedSlices⟩

def batchPutWhenPreferSameNode (client : Client) (answers : Answers) (ops : List PutOperation)
    (walk : Walk (ops.foldl admitOperation ∅)) : SegmentRun :=
  let mergedOps := waitForTransfers (walk.entries.map fun entry => submitSegment answers entry.2)
  let segToOps := mergedOps.foldl returnSegment (ops.foldl admitOperation ∅)
  { calls := walk.entries.map fun entry => mergedBatch entry.2
    mergedOps := mergedOps
    segToOps := segToOps
    ops := (ops.map (checkSegment client)).map (receiveSegment segToOps) }

theorem receiveSegment_congr {first second : SegmentMap}
    (same : ∀ segment, first.lookup segment = second.lookup segment) (op : PutOperation) :
    receiveSegment first op = receiveSegment second op := by
  rw [receiveSegment, receiveSegment, same]

/-- The operations do not depend on the order of the walk. -/
theorem batchPutWhenPreferSameNode_ops (client : Client) (answers : Answers)
    (ops : List PutOperation) (walk : Walk (ops.foldl admitOperation ∅)) :
    (batchPutWhenPreferSameNode client answers ops walk).ops =
      transferBySegment client answers ops := by
  have lookups : ∀ segment,
      (batchPutWhenPreferSameNode client answers ops walk).segToOps.lookup segment =
        (returnedSegments answers ops).lookup segment := by
    intro segment
    cases found : (ops.foldl admitOperation ∅).lookup segment with
    | none =>
      exact (walked_lookup_none answers walk.perm found).trans
        (walked_lookup_none answers (.refl _) found).symm
    | some merged =>
      exact (walked_lookup answers walk.perm found).trans
        (walked_lookup answers (.refl _) found).symm
  exact map_congr_left fun op _ => receiveSegment_congr lookups op

/-! ## What is recorded for an operation -/

/-- An operation that passes the checks, with its endpoint. -/
def locateWrite (op : PutOperation) (index : Nat) : Option (String × Row) :=
  if op.isResolved then none
  else
    match segmentReplica op with
    | .inl _ => none
    | .inr (segment, replica) => some (segment, ⟨index, replica, op.slices⟩)

def locatedWrites (ops : List PutOperation) : List (String × Row) :=
  ops.zipIdx.filterMap fun entry => locateWrite entry.1 entry.2

/-- The outcome of a call of `submit_batch`, on one of its operations. -/
def recordOutcome (answer : Option TransferFuture) (op : PutOperation) : PutOperation :=
  let written := answer = some ⟨.ok⟩
  { op with
    transferSummary :=
      { op.transferSummary with
        successfulMemoryTransfers := if written then 1 else 0
        failedMemoryTransfers := if written then 0 else 1
        firstError := (answer.map TransferFuture.outcome).getD .transferFail }
    failureContext := match answer with
      | none => some "Failed to submit batch transfer"
      | some future => if future.outcome = .ok then none else some "Transfer 0 failed" }

/-- The first replica is a memory replica, as `get_memory_descriptor` demands. -/
def HasSegment (op : PutOperation) : Prop :=
  ∃ replica rest buffer, op.replicas = replica :: rest ∧ replica.descriptor = .memory buffer

def FindsGroup (segToOps : SegmentMap) (located : List (String × Row)) (op : PutOperation) :
    Prop :=
  HasSegment op ∧ (segToOps.lookup (firstSegment op)).map mergedBatch =
    some (submitBatchOf (elementsOf located (firstSegment op)))

/-- The calls, the recorded outcomes and the lookups of a batch put. -/
structure WritesPaired (client : Client) (answers : Answers) (ops : List PutOperation)
    (run : SegmentRun) : Prop where
  calls : ∃ segments, PairedCalls (locatedWrites ops) segments run.calls
  own : ∀ segment row, (segment, row) ∈ locatedWrites ops →
    OnSegment segment row.replica ∧ ∃ op, ops[row.index]? = some op ∧ op.isResolved = false ∧
      op.replicas.head? = some row.replica ∧ op.slices = row.slices
  recorded : ∀ segment row, (segment, row) ∈ locatedWrites ops →
    let call := submitBatchOf (elementsOf (locatedWrites ops) segment)
    call ∈ run.calls ∧ row ∈ elementsOf (locatedWrites ops) segment ∧
      run.ops[row.index]? = ops[row.index]?.map
        (recordOutcome (answers.submitBatch call.replicas call.batchedSlices))
  unsent : ∀ (index : Nat) (op : PutOperation), ops[index]? = some op →
    locateWrite op index = none → run.ops[index]? = some (checkSegment client op)
  returned : ∀ before merged after, run.mergedOps = before ++ merged :: after →
    FindsGroup (before.foldl returnSegment (ops.foldl admitOperation ∅)) (locatedWrites ops) merged
  received : ∀ op ∈ ops.map (checkSegment client), op.isResolved = false →
    FindsGroup run.segToOps (locatedWrites ops) op

/-! ## The groups -/

section Groups

variable {ops : List PutOperation} {op : PutOperation} {segment : String} {row : Row}

theorem locateWrite_eq_some {index : Nat} (located : locateWrite op index = some (segment, row)) :
    op.isResolved = false ∧ segmentReplica op = .inr (segment, row.replica) ∧
      row = ⟨index, row.replica, op.slices⟩ := by
  unfold locateWrite at located
  split at located
  · cases located
  · rename_i open_
    split at located
    · cases located
    · rename_i found
      cases located
      exact ⟨by simpa using open_, found, rfl⟩

theorem mem_locatedWrites : (segment, row) ∈ locatedWrites ops ↔
    ∃ op, ops[row.index]? = some op ∧ locateWrite op row.index = some (segment, row) := by
  unfold locatedWrites
  rw [mem_filterMap]
  constructor
  · rintro ⟨⟨op, index⟩, present, located⟩
    have same : row.index = index := by rw [(locateWrite_eq_some located).2.2]
    subst same
    exact ⟨op, mem_zipIdx_iff_getElem?.mp present, located⟩
  · rintro ⟨op, found, located⟩
    exact ⟨(op, row.index), mem_zipIdx_iff_getElem?.mpr found, located⟩

theorem segmentMember_eq (segment : String) (op : PutOperation) (index : Nat) :
    segmentMember segment op =
      ((locateWrite op index).filter fun pair => pair.1 = segment).map
        fun pair => (pair.2.replica, pair.2.slices) := by
  unfold locateWrite segmentMember
  cases op.isResolved with
  | true => rfl
  | false =>
    cases segmentReplica op with
    | inl failure => rfl
    | inr found => by_cases same : found.1 = segment <;> simp [Option.filter, same]

theorem segmentMembers_eq (ops : List PutOperation) (segment : String) :
    segmentMembers ops segment =
      (elementsOf (locatedWrites ops) segment).map fun row => (row.replica, row.slices) := by
  have first : ops = ops.zipIdx.map Prod.fst := (zipIdx_map_fst 0 ops).symm
  rw [segmentMembers, elementsOf, locatedWrites, map_map, filter_filterMap, map_filterMap]
  conv_lhs => rw [first, filterMap_map]
  exact filterMap_congr fun entry _ => segmentMember_eq segment entry.1 entry.2

theorem mem_merged : segment ∈ ops.foldl admitOperation ∅ ↔
    ∃ row, (segment, row) ∈ locatedWrites ops := by
  have empty : segmentMembers ops segment = [] ↔ ¬ ∃ row, (segment, row) ∈ locatedWrites ops := by
    rw [segmentMembers_eq, map_eq_nil_iff, eq_nil_iff_forall_not_mem]
    simp only [mem_elementsOf, not_exists]
  rw [← AList.lookup_isSome]
  rcases segToOps_holds ops segment with ⟨none, absent⟩ | ⟨some, merged, found, -⟩
  · simp [absent, empty.mp none]
  · have occupied := not_not.mp (mt empty.mpr some)
    rw [Option.mem_def] at found
    simp [found, occupied]

variable {merged : PutOperation}

theorem mergedBatch_of_lookup (found : (ops.foldl admitOperation ∅).lookup segment = some merged) :
    mergedBatch merged = submitBatchOf (elementsOf (locatedWrites ops) segment) := by
  rcases segToOps_holds ops segment with ⟨-, absent⟩ | ⟨-, other, located, replicas, slices⟩
  · rw [absent] at found
    cases found
  · rw [Option.mem_def, found] at located
    obtain rfl := Option.some.inj located
    rw [mergedBatch, replicas, slices, segmentMembers_eq, map_map, map_map]
    rfl

theorem hasSegment_of_located {replica : Replica}
    (located : segmentReplica op = .inr (segment, replica)) : HasSegment op := by
  obtain ⟨first, buffer, kind, -⟩ := segmentReplica_inr located
  obtain ⟨rest, shape⟩ := head?_eq_some_iff.mp first
  exact ⟨replica, rest, buffer, shape, kind⟩

theorem hasSegment_of_lookup (found : (ops.foldl admitOperation ∅).lookup segment = some merged) :
    HasSegment merged := by
  obtain ⟨row, present⟩ := mem_merged.mp (AList.lookup_isSome.mp (by rw [found]; rfl))
  have replicas : merged.replicas = (elementsOf (locatedWrites ops) segment).map Row.replica :=
    congrArg SubmitBatch.replicas (mergedBatch_of_lookup found)
  cases rows : elementsOf (locatedWrites ops) segment with
  | nil => exact absurd (mem_elementsOf.mpr present) (by simp [rows])
  | cons first rest =>
    have inside : (segment, first) ∈ locatedWrites ops := mem_elementsOf.mp (by simp [rows])
    obtain ⟨op, -, located⟩ := mem_locatedWrites.mp inside
    obtain ⟨-, buffer, kind, -⟩ := segmentReplica_inr (locateWrite_eq_some located).2.1
    rw [rows] at replicas
    exact ⟨first.replica, rest.map Row.replica, buffer, replicas, kind⟩

end Groups

/-! ## The map after the transfers -/

section Returned

variable {answers : Answers} {ops : List PutOperation}

theorem mergedBatch_returnSegment (segToOps : SegmentMap) (merged : PutOperation)
    (segment : String) :
    ((returnSegment segToOps merged).lookup segment).map mergedBatch =
      (segToOps.lookup segment).map mergedBatch := by
  by_cases same : segment = firstSegment merged
  · subst same
    cases found : segToOps.lookup (firstSegment merged) with
    | none => rw [returnSegment, found, found]
    | some op => rw [returnSegment_lookup_self found]; rfl
  · rw [returnSegment_lookup_of_ne segToOps merged segment same]

theorem mergedBatch_foldl_returnSegment (mergedOps : List PutOperation) (segToOps : SegmentMap)
    (segment : String) :
    ((mergedOps.foldl returnSegment segToOps).lookup segment).map mergedBatch =
      (segToOps.lookup segment).map mergedBatch := by
  induction mergedOps generalizing segToOps with
  | nil => rfl
  | cons merged rest ih => rw [foldl_cons, ih, mergedBatch_returnSegment]

theorem findsGroup_of_lookup {op merged : PutOperation} (hasSegment : HasSegment op)
    (found : (ops.foldl admitOperation ∅).lookup (firstSegment op) = some merged)
    {mergedOps : List PutOperation} :
    FindsGroup (mergedOps.foldl returnSegment (ops.foldl admitOperation ∅)) (locatedWrites ops)
      op := by
  refine ⟨hasSegment, ?_⟩
  rw [mergedBatch_foldl_returnSegment, found, Option.map_some, mergedBatch_of_lookup found]

theorem copyOutcome_submitted {merged op : PutOperation} :
    copyOutcome { merged with
      transferSummary := (awaitOperation (submitSegment answers merged)).transferSummary
      failureContext := (awaitOperation (submitSegment answers merged)).failureContext } op =
    recordOutcome (answers.submitBatch merged.replicas merged.batchedSlices) op := by
  unfold copyOutcome recordOutcome awaitOperation submitSegment
  cases answers.submitBatch merged.replicas merged.batchedSlices with
  | none => rfl
  | some future =>
    obtain ⟨outcome⟩ := future
    by_cases done : outcome = .ok
    · subst done
      rfl
    · simp [PutOperation.isResolved, awaitTransfer, done, ReplicaTransferSummary.recordFailure,
        PutOperation.appendFailureContext]
      rfl

variable {client : Client} {op : PutOperation} {segment : String} {replica : Replica}

/-- An operation that passed the checks gets the outcome of the call for its endpoint. -/
theorem receiveSegment_recorded {walk : Walk (ops.foldl admitOperation ∅)} {row : Row}
    (present : (segment, row) ∈ locatedWrites ops) (open_ : op.isResolved = false)
    (located : segmentReplica op = .inr (segment, replica)) :
    receiveSegment (batchPutWhenPreferSameNode client answers ops walk).segToOps
        (checkSegment client op) =
      recordOutcome (answers.submitBatch
        (submitBatchOf (elementsOf (locatedWrites ops) segment)).replicas
        (submitBatchOf (elementsOf (locatedWrites ops) segment)).batchedSlices) op := by
  have checked : checkSegment client op = op := by simp [checkSegment, open_, located]
  obtain ⟨merged, found⟩ :=
    Option.isSome_iff_exists.mp (AList.lookup_isSome.mpr (mem_merged.mpr ⟨row, present⟩))
  have received := walked_lookup answers walk.perm found
  rw [← firstSegment_eq located] at received
  rw [checked, receiveSegment, open_, if_neg (by simp), batchPutWhenPreferSameNode, received,
    ← mergedBatch_of_lookup found]
  exact copyOutcome_submitted

theorem checkSegment_cases (client : Client) (op : PutOperation) :
    (checkSegment client op).isResolved = true ∧ (∀ index, locateWrite op index = none) ∨
      op.isResolved = false ∧ checkSegment client op = op ∧
        ∃ segment replica, segmentReplica op = .inr (segment, replica) := by
  unfold checkSegment locateWrite
  cases resolved : op.isResolved with
  | true => exact .inl ⟨resolved, fun _ => rfl⟩
  | false =>
    cases segmentReplica op with
    | inl failure => exact .inl ⟨PutOperation.setError_isResolved _ _ _ _, fun _ => rfl⟩
    | inr found => exact .inr ⟨rfl, rfl, found.1, found.2, rfl⟩

theorem ops_getElem? {walk : Walk (ops.foldl admitOperation ∅)} {index : Nat}
    (found : ops[index]? = some op) :
    (batchPutWhenPreferSameNode client answers ops walk).ops[index]? =
      some (receiveSegment (batchPutWhenPreferSameNode client answers ops walk).segToOps
        (checkSegment client op)) := by
  simp [batchPutWhenPreferSameNode, found]

end Returned

/-! ## The batch put -/

section Run

variable (client : Client) (answers : Answers) (ops : List PutOperation)
  (walk : Walk (ops.foldl admitOperation ∅))

theorem batchPut_calls :
    PairedCalls (locatedWrites ops) (walk.entries.map Sigma.fst)
      (batchPutWhenPreferSameNode client answers ops walk).calls := by
  refine .of_walk (walk_nodup walk.perm) (fun segment => ?_) ?_
  · rw [(walk.perm.map Sigma.fst).mem_iff, ← mem_merged]
    exact AList.mem_keys.symm
  · rw [map_map]
    refine map_congr_left fun entry member => ?_
    exact mergedBatch_of_lookup (AList.mem_lookup_iff.mpr (walk.perm.mem_iff.mp member))

/-- The third loop finds the group of every merged operation. -/
theorem batchPut_returned {before after : List PutOperation} {merged : PutOperation}
    (split : (batchPutWhenPreferSameNode client answers ops walk).mergedOps =
      before ++ merged :: after) :
    FindsGroup (before.foldl returnSegment (ops.foldl admitOperation ∅)) (locatedWrites ops)
      merged := by
  have member : merged ∈ (batchPutWhenPreferSameNode client answers ops walk).mergedOps := by
    simp [split]
  obtain ⟨submitted, listed, rfl⟩ := mem_map.mp member
  obtain ⟨entry, walked, rfl⟩ := mem_map.mp listed
  have found := AList.mem_lookup_iff.mpr (walk.perm.mem_iff.mp walked)
  have own : firstSegment (awaitOperation (submitSegment answers entry.2)) = entry.1 :=
    (firstSegment_submitted answers).trans (firstSegment_of_lookup found)
  have replicas : (awaitOperation (submitSegment answers entry.2)).replicas = entry.2.replicas := by
    rw [(awaitOperation_frame _).replicas, (submitSegment_frame answers).1]
  have hasSegment : HasSegment (awaitOperation (submitSegment answers entry.2)) := by
    rw [HasSegment, replicas]
    exact hasSegment_of_lookup found
  exact findsGroup_of_lookup hasSegment (own ▸ found)

/-- The last loop finds the group of every operation that is not resolved. -/
theorem batchPut_received {op : PutOperation} (member : op ∈ ops.map (checkSegment client))
    (open_ : op.isResolved = false) :
    FindsGroup (batchPutWhenPreferSameNode client answers ops walk).segToOps (locatedWrites ops)
      op := by
  obtain ⟨origin, present, rfl⟩ := mem_map.mp member
  rcases checkSegment_cases client origin with ⟨resolved, -⟩ | ⟨fresh, same, segment, replica, own⟩
  · rw [resolved] at open_
    cases open_
  · obtain ⟨index, found⟩ := mem_iff_getElem?.mp present
    have located : (segment, ⟨index, replica, origin.slices⟩) ∈ locatedWrites ops :=
      mem_locatedWrites.mpr ⟨origin, found, by simp [locateWrite, fresh, own]⟩
    obtain ⟨merged, lookup⟩ :=
      Option.isSome_iff_exists.mp (AList.lookup_isSome.mpr (mem_merged.mpr ⟨_, located⟩))
    rw [same]
    exact findsGroup_of_lookup (hasSegment_of_located own)
      ((firstSegment_eq own).symm ▸ lookup)

/-- Every batch put keeps its operations and their data paired. -/
theorem batchPut_writesPaired :
    WritesPaired client answers ops (batchPutWhenPreferSameNode client answers ops walk) where
  calls := ⟨_, batchPut_calls client answers ops walk⟩
  own := by
    intro segment row present
    obtain ⟨op, found, located⟩ := mem_locatedWrites.mp present
    obtain ⟨open_, own, shape⟩ := locateWrite_eq_some located
    obtain ⟨first, onSegment⟩ := segmentReplica_inr own
    exact ⟨onSegment, op, found, open_, first, (congrArg Row.slices shape).symm⟩
  recorded := by
    intro segment row present
    obtain ⟨op, found, located⟩ := mem_locatedWrites.mp present
    obtain ⟨open_, own, -⟩ := locateWrite_eq_some located
    refine ⟨(batchPut_calls client answers ops walk).mem_calls present,
      mem_elementsOf.mpr present, ?_⟩
    rw [ops_getElem? found, receiveSegment_recorded present open_ own, found]
    rfl
  unsent := by
    intro index op found unsent
    rcases checkSegment_cases client op with ⟨resolved, -⟩ | ⟨fresh, -, segment, replica, own⟩
    · rw [ops_getElem? found, receiveSegment, if_pos resolved]
    · simp [locateWrite, fresh, own] at unsent
  returned := fun _ _ _ => batchPut_returned client answers ops walk
  received := fun _ => batchPut_received client answers ops walk

end Run

end Mooncake.SameNode
