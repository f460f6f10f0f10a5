import Mooncake.Read.Transfers
import Mooncake.SameNode.Writes

/-!
# Batch reads by node: operations and data stay paired

`BatchGetWhenPreferSameNode` keeps four vectors for each endpoint: the replicas, the slices,
the indexes of the keys and whether the hot cache serves them.  The loops after the transfers
walk the indexes and read the other vectors at the same position.  The model of a read by
rows is what the vectors come to.
-/

namespace Mooncake.SameNode

open Library.Indexed Library.Keyed Read List

/-! ## The loops of the read -/

structure BatchGetOperation where
  replicas : List Replica := []
  batchedSlices : List (List Slice) := []
  keyIndexes : List Nat := []
  cacheUsed : List Bool := []
  futures : List TransferFuture := []

namespace BatchGetOperation

/-- The four `emplace_back` of the first loop. -/
def push (op : BatchGetOperation) (entry : SegmentEntry) : BatchGetOperation :=
  { op with
    replicas := op.replicas ++ [entry.replica]
    batchedSlices := op.batchedSlices ++ [entry.slices]
    keyIndexes := op.keyIndexes ++ [entry.index]
    cacheUsed := op.cacheUsed ++ [entry.cacheUsed] }

def batch (op : BatchGetOperation) : SubmitBatch :=
  ⟨op.replicas, op.batchedSlices⟩

/-- `idx < op.cache_used.size() && op.cache_used[idx]`. -/
def usedAt (op : BatchGetOperation) (idx : Nat) : Bool :=
  op.cacheUsed.getD idx false

end BatchGetOperation

abbrev SegToOpMap := AList fun _ : String => BatchGetOperation

def admitRead (segToOp : SegToOpMap) (located : String × SegmentEntry) : SegToOpMap :=
  segToOp.insert located.1 (((segToOp.lookup located.1).getD {}).push located.2)

section Loops

variable (reader : Reader) (answers : ReadAnswers) (objectKeys : List ObjectKey)

def submitRead (op : BatchGetOperation) : BatchGetOperation :=
  match answers.submitBatch op.replicas op.batchedSlices with
  | none => op
  | some future => { op with futures := op.futures ++ [future] }

def releaseAt (op : BatchGetOperation) (position : Nat × Nat) : List ReadEvent :=
  releaseIfUsed reader (objectKeys.getD position.1 "") (op.usedAt position.2)

def fillAt (op : BatchGetOperation) (position : Nat × Nat) : List ReadEvent :=
  match op.replicas[position.2]?, op.batchedSlices[position.2]? with
  | some replica, some slices =>
    fillIfAdmitted reader answers position.1 (objectKeys.getD position.1 "") slices replica
      (op.usedAt position.2)
  | _, _ => []

/-- What the loops over the map do for one endpoint. -/
def readOperation (op : BatchGetOperation) : SegmentRead :=
  match (submitRead answers op).futures with
  | [] =>
    { refusal := op.keyIndexes.zipIdx.flatMap (releaseAt reader objectKeys op)
      results := op.keyIndexes.map fun index => (index, .error .transferFail) }
  | future :: _ =>
    let completed := op.keyIndexes.zipIdx.map fun position =>
      ReadEvent.transferred position.1 (op.batchedSlices.getD position.2 []) future.outcome
    if future.outcome ≠ .ok then
      { completion := completed ++ op.keyIndexes.zipIdx.flatMap (releaseAt reader objectKeys op)
        results := op.keyIndexes.map fun index => (index, .error .transferFail) }
    else
      { completion := completed ++ op.keyIndexes.zipIdx.flatMap fun position =>
          releaseAt reader objectKeys op position ++ fillAt reader answers objectKeys op position
        results := op.keyIndexes.map fun index => (index, .ok ()) }

end Loops

section Run

variable (reader : Reader) (answers : ReadAnswers) (slices : SliceMap)
  (requests : List (ObjectKey × QueryResult))

def segToOpMap : SegToOpMap :=
  (locatedEntries reader answers slices requests).foldl admitRead ∅

/-- The operations of the map, in the order in which it is walked. -/
def walkedReads : List BatchGetOperation :=
  (answers.segmentOrder (segToOpMap reader answers slices requests).keys).map fun segment =>
    ((segToOpMap reader answers slices requests).lookup segment).getD {}

def submittedReads : List SubmitBatch :=
  (walkedReads reader answers slices requests).map BatchGetOperation.batch

def batchGetWhenPreferSameNode : BatchReadCall :=
  let started := requests.mapIdx fun index request =>
    startSegmentRead reader answers slices index request
  let reads := (walkedReads reader answers slices requests).map
    (readOperation reader answers (requests.map Prod.fst))
  { results := assignAt (reads.flatMap SegmentRead.results)
      (started.map fun start => start.outcome.map fun _ => ())
    events := started.flatMap StartedSegmentRead.events ++
      reads.flatMap SegmentRead.refusal ++ reads.flatMap SegmentRead.completion }

end Run

/-! ## Vectors and rows -/

namespace BatchGetOperation

def ofEntries (entries : List SegmentEntry) : BatchGetOperation where
  replicas := entries.map SegmentEntry.replica
  batchedSlices := entries.map SegmentEntry.slices
  keyIndexes := entries.map SegmentEntry.index
  cacheUsed := entries.map SegmentEntry.cacheUsed

theorem push_ofEntries {entries : List SegmentEntry} {entry : SegmentEntry} :
    (ofEntries entries).push entry = ofEntries (entries ++ [entry]) := by
  simp [ofEntries, push]

end BatchGetOperation

open BatchGetOperation

/-- Two maps with the same walk, the first one with vectors for the rows of the second. -/
structure Vectors (segToOp : SegToOpMap) (groups : SegmentOps) : Prop where
  keys : segToOp.keys = groups.keys
  lookup : ∀ segment, segToOp.lookup segment = (groups.lookup segment).map ofEntries

variable {segToOp : SegToOpMap} {groups : SegmentOps}

theorem Vectors.step (vectors : Vectors segToOp groups) (located : String × SegmentEntry) :
    Vectors (admitRead segToOp located) (appendTo groups located) := by
  constructor
  · rw [admitRead, appendTo, AList.keys_insert, AList.keys_insert, vectors.keys]
  · intro segment
    by_cases same : segment = located.1
    · subst same
      rw [admitRead, appendTo, AList.lookup_insert, AList.lookup_insert, vectors.lookup,
        Option.map_some, group]
      cases groups.lookup located.1 with
      | none => rfl
      | some entries => exact congrArg some (push_ofEntries)
    · rw [admitRead, appendTo, AList.lookup_insert_ne same, AList.lookup_insert_ne same,
        vectors.lookup]

theorem Vectors.foldl (vectors : Vectors segToOp groups) (located : List (String × SegmentEntry)) :
    Vectors (located.foldl admitRead segToOp) (located.foldl appendTo groups) := by
  induction located generalizing segToOp groups with
  | nil => exact vectors
  | cons first rest ih => exact ih (vectors.step first)

theorem vectors_empty : Vectors ∅ ∅ :=
  ⟨rfl, fun _ => rfl⟩

/-- A loop over the indexes that does at each position what belongs to its row. -/
theorem flatMap_positions {γ : Type} {entries : List SegmentEntry}
    {atPosition : Nat × Nat → List γ} {ofRow : SegmentEntry → List γ}
    (agrees : ∀ (idx : Nat) (entry : SegmentEntry), entries[idx]? = some entry →
      atPosition (entry.index, idx) = ofRow entry) :
    (entries.map SegmentEntry.index).zipIdx.flatMap atPosition = entries.flatMap ofRow := by
  have rows : entries.flatMap ofRow = entries.zipIdx.flatMap fun pair => ofRow pair.1 := by
    conv_lhs => rw [← zipIdx_map_fst 0 entries, flatMap_map]
  rw [rows, zipIdx_map, flatMap_map]
  refine flatMap_congr fun pair present => ?_
  exact agrees pair.2 pair.1 (mem_zipIdx_iff_getElem?.mp present)

section Rows

variable {reader : Reader} {answers : ReadAnswers} {objectKeys : List ObjectKey}
  {entries : List SegmentEntry}

theorem getElem?_ofEntries {idx : Nat} {entry : SegmentEntry} (found : entries[idx]? = some entry) :
    (ofEntries entries).replicas[idx]? = some entry.replica ∧
      (ofEntries entries).batchedSlices[idx]? = some entry.slices ∧
      (ofEntries entries).usedAt idx = entry.cacheUsed := by
  simp [ofEntries, usedAt, found]

theorem futures_submitRead (answers : ReadAnswers) (entries : List SegmentEntry) :
    (submitRead answers (ofEntries entries)).futures = (segmentFuture answers entries).toList := by
  unfold submitRead segmentFuture ofEntries
  cases answers.submitBatch (entries.map SegmentEntry.replica)
    (entries.map SegmentEntry.slices) <;> rfl

theorem readOperation_ofEntries
    (keyed : ∀ entry ∈ entries, objectKeys.getD entry.index "" = entry.key) :
    readOperation reader answers objectKeys (ofEntries entries) =
      readSegment reader answers entries := by
  have named : ∀ {idx : Nat} {entry : SegmentEntry}, entries[idx]? = some entry →
      objectKeys.getD entry.index "" = entry.key := fun found =>
    keyed _ (mem_of_getElem? found)
  have releases : (ofEntries entries).keyIndexes.zipIdx.flatMap
      (releaseAt reader objectKeys (ofEntries entries)) =
        entries.flatMap fun entry => releaseIfUsed reader entry.key entry.cacheUsed := by
    refine flatMap_positions fun idx entry found => ?_
    rw [releaseAt, named found, (getElem?_ofEntries found).2.2]
  have fills : ((ofEntries entries).keyIndexes.zipIdx.flatMap fun position =>
      releaseAt reader objectKeys (ofEntries entries) position ++
        fillAt reader answers objectKeys (ofEntries entries) position) =
      entries.flatMap fun entry => releaseIfUsed reader entry.key entry.cacheUsed ++
        fillIfAdmitted reader answers entry.index entry.key entry.slices entry.replica
          entry.cacheUsed := by
    refine flatMap_positions fun idx entry found => ?_
    obtain ⟨replica, slices, used⟩ := getElem?_ofEntries found
    rw [releaseAt, fillAt, replica, slices, named found, used]
  have completed : ∀ outcome, ((ofEntries entries).keyIndexes.zipIdx.map fun position =>
      ReadEvent.transferred position.1
        ((ofEntries entries).batchedSlices.getD position.2 []) outcome) =
      entries.map fun entry => ReadEvent.transferred entry.index entry.slices outcome := by
    intro outcome
    rw [map_eq_flatMap, map_eq_flatMap]
    refine flatMap_positions fun idx entry found => ?_
    rw [getD_eq_getElem?_getD, (getElem?_ofEntries found).2.1]
    rfl
  have results : ∀ result : Expected Unit,
      ((ofEntries entries).keyIndexes.map fun index => (index, result)) =
        entries.map fun entry => (entry.index, result) := fun result => map_map
  rw [readOperation, futures_submitRead, segmentFuture, readSegment]
  cases answers.submitBatch (entries.map SegmentEntry.replica)
      (entries.map SegmentEntry.slices) with
  | none => simp only [Option.toList_none, releases, results]
  | some future => simp only [Option.toList_some, releases, fills, completed, results]

end Rows

section Refinement

variable (reader : Reader) (answers : ReadAnswers) (slices : SliceMap)
  (requests : List (ObjectKey × QueryResult))

theorem walkedReads_eq : walkedReads reader answers slices requests =
    (answers.segmentOrder ((locatedEntries reader answers slices requests).foldl appendTo
      (∅ : SegmentOps)).keys).map fun segment =>
        ofEntries (segmentEntries reader answers slices requests segment) := by
  have vectors : Vectors (segToOpMap reader answers slices requests)
      ((locatedEntries reader answers slices requests).foldl appendTo ∅) :=
    vectors_empty.foldl _
  rw [walkedReads, vectors.keys]
  refine map_congr_left fun segment _ => ?_
  rw [vectors.lookup, segmentEntries, group]
  cases ((locatedEntries reader answers slices requests).foldl appendTo
    (∅ : SegmentOps)).lookup segment <;> rfl

theorem objectKey_of_located {segment : String} {entry : SegmentEntry}
    (present : (segment, entry) ∈ locatedEntries reader answers slices requests) :
    (requests.map Prod.fst).getD entry.index "" = entry.key := by
  obtain ⟨request, found, started⟩ := mem_locatedEntries.mp present
  obtain ⟨target, replica, buffer, -, -, -, shape⟩ := startSegmentRead_entry started
  have named : entry.key = request.1 := congrArg SegmentEntry.key shape
  simp [found, named]

theorem batchGetWhenPreferSameNode_eq :
    batchGetWhenPreferSameNode reader answers slices requests =
      Read.batchGetWhenPreferSameNode reader answers slices requests := by
  have reads : (walkedReads reader answers slices requests).map
      (readOperation reader answers (requests.map Prod.fst)) =
        segmentReads reader answers
          ((locatedEntries reader answers slices requests).foldl appendTo ∅) := by
    rw [walkedReads_eq, map_map, segmentReads]
    refine map_congr_left fun segment _ => ?_
    exact readOperation_ofEntries fun entry present => objectKey_of_located reader answers slices
      requests (mem_segmentEntries.mp present)
  rw [batchGetWhenPreferSameNode, reads]
  rfl

end Refinement

/-! ## What is recorded for a key -/

section Paired

variable (reader : Reader) (answers : ReadAnswers) (slices : SliceMap)
  (requests : List (ObjectKey × QueryResult))

def rowOf (entry : SegmentEntry) : Row :=
  ⟨entry.index, entry.replica, entry.slices⟩

def locatedReads : List (String × Row) :=
  (locatedEntries reader answers slices requests).map fun located => (located.1, rowOf located.2)

/-- The outcome of a call of `submit_batch`, as the result of each of its keys. -/
def readOutcome (answer : Option TransferFuture) : Expected Unit :=
  if answer = some ⟨.ok⟩ then .ok () else .error .transferFail

structure ReadsPaired (submitted : List SubmitBatch) (run : BatchReadCall) : Prop where
  calls : ∃ segments, PairedCalls (locatedReads reader answers slices requests) segments submitted
  own : ∀ segment row, (segment, row) ∈ locatedReads reader answers slices requests →
    OnSegment segment row.replica ∧ ∃ request, requests[row.index]? = some request ∧
      slices.lookup request.1 = some row.slices ∧
      ∃ replica, findFirstCompleteReplica request.2.replicas = .ok replica ∧
        row.replica = (redirectToHotCache reader answers row.index request.1 replica).replica
  recorded : ∀ segment row, (segment, row) ∈ locatedReads reader answers slices requests →
    let call := submitBatchOf (elementsOf (locatedReads reader answers slices requests) segment)
    call ∈ submitted ∧ row ∈ elementsOf (locatedReads reader answers slices requests) segment ∧
      run.results[row.index]? =
        some (readOutcome (answers.submitBatch call.replicas call.batchedSlices))
  unsent : ∀ (index : Nat) (request : ObjectKey × QueryResult) (error : ErrorCode),
    requests[index]? = some request →
      (startSegmentRead reader answers slices index request).outcome = .error error →
        run.results[index]? = some (.error error)

theorem mem_locatedReads {segment : String} {row : Row} :
    (segment, row) ∈ locatedReads reader answers slices requests ↔
      ∃ entry, (segment, entry) ∈ locatedEntries reader answers slices requests ∧
        rowOf entry = row := by
  simp only [locatedReads, mem_map, Prod.mk.injEq, Prod.exists]
  constructor
  · rintro ⟨_, entry, present, rfl, same⟩
    exact ⟨entry, present, same⟩
  · rintro ⟨entry, present, same⟩
    exact ⟨segment, entry, present, rfl, same⟩

theorem elementsOf_locatedReads (segment : String) :
    elementsOf (locatedReads reader answers slices requests) segment =
      (segmentEntries reader answers slices requests segment).map rowOf := by
  rw [segmentEntries, group_foldl_appendTo, elementsOf, locatedReads, filter_map, map_map]
  simp [group, Function.comp_def]

theorem submitBatchOf_located {segment : String} :
    submitBatchOf (elementsOf (locatedReads reader answers slices requests) segment) =
      (ofEntries (segmentEntries reader answers slices requests segment)).batch := by
  rw [elementsOf_locatedReads, submitBatchOf, map_map, map_map]
  rfl

theorem batchGet_calls :
    PairedCalls (locatedReads reader answers slices requests)
      (answers.segmentOrder ((locatedEntries reader answers slices requests).foldl appendTo
        (∅ : SegmentOps)).keys)
      (submittedReads reader answers slices requests) := by
  have walked := answers.segmentOrder_perm ((locatedEntries reader answers slices
    requests).foldl appendTo (∅ : SegmentOps)).keys
  refine .of_walk (walked.nodup_iff.mpr (AList.keys_nodup _)) (fun segment => ?_) ?_
  · rw [walked.mem_iff, ← AList.mem_keys, mem_foldl_appendTo]
    constructor
    · intro listed
      obtain ⟨⟨_, entry⟩, present, rfl⟩ := mem_map.mp (listed.resolve_left (by simp))
      exact ⟨rowOf entry, (mem_locatedReads ..).mpr ⟨entry, present, rfl⟩⟩
    · rintro ⟨row, present⟩
      obtain ⟨entry, located, -⟩ := (mem_locatedReads ..).mp present
      exact .inr (mem_map_of_mem (f := Prod.fst) located)
  · rw [submittedReads, walkedReads_eq, map_map]
    exact map_congr_left fun segment _ =>
      (submitBatchOf_located reader answers slices requests).symm

variable {request : ObjectKey × QueryResult}

/-- The endpoint of a row is that of the replica that is read, after the look into the cache. -/
theorem onSegment_of_started {index : Nat} {located : String × SegmentEntry}
    (started : (startSegmentRead reader answers slices index request).outcome = .ok located) :
    OnSegment located.1 located.2.replica ∧
      ∃ replica, findFirstCompleteReplica request.2.replicas = .ok replica ∧
        located.2.replica =
          (redirectToHotCache reader answers index request.1 replica).replica := by
  unfold startSegmentRead at started
  split at started
  · cases started
  · split at started
    · cases started
    · rename_i replica complete
      split at started
      · cases started
      · dsimp only at started
        split at started
        · rename_i buffer memory
          split at started
          · cases started
          · cases started
            exact ⟨⟨buffer, memory, rfl⟩, replica, complete, rfl⟩
        · cases started

theorem batchGet_unsent {index : Nat} {error : ErrorCode} (found : requests[index]? = some request)
    (failed : (startSegmentRead reader answers slices index request).outcome = .error error) :
    (Read.batchGetWhenPreferSameNode reader answers slices requests).results[index]? =
      some (.error error) := by
  have unassigned : index ∉ ((segmentReads reader answers
      ((locatedEntries reader answers slices requests).foldl appendTo ∅)).flatMap
        SegmentRead.results).map Prod.fst := by
    intro present
    obtain ⟨⟨_, result⟩, assigned, rfl⟩ := mem_map.mp present
    obtain ⟨segment, entry, located, same, -⟩ := mem_assigned.mp assigned
    obtain ⟨other, found', started⟩ := mem_locatedEntries.mp located
    rw [same, found, Option.some.injEq] at found'
    rw [same, ← found', failed] at started
    cases started
  refine (getElem?_assignAt_of_not_mem unassigned).trans ?_
  simp [found, failed, Except.map]

/-- Every batch read keeps its keys and their data paired. -/
theorem batchGet_readsPaired :
    ReadsPaired reader answers slices requests (submittedReads reader answers slices requests)
      (batchGetWhenPreferSameNode reader answers slices requests) where
  calls := ⟨_, batchGet_calls reader answers slices requests⟩
  own := by
    intro segment row present
    obtain ⟨entry, located, rfl⟩ := (mem_locatedReads ..).mp present
    obtain ⟨request, found, started⟩ := mem_locatedEntries.mp located
    obtain ⟨onSegment, redirected⟩ := onSegment_of_started reader answers slices started
    exact ⟨onSegment, request, found, (startSegmentRead_ok started).2.1, redirected⟩
  recorded := by
    intro segment row present
    refine ⟨(batchGet_calls reader answers slices requests).mem_calls present,
      mem_elementsOf.mpr present, ?_⟩
    obtain ⟨entry, located, rfl⟩ := (mem_locatedReads ..).mp present
    rw [batchGetWhenPreferSameNode_eq, submitBatchOf_located]
    exact sameNode_result_of_located located
  unsent := by
    intro index request error found failed
    rw [batchGetWhenPreferSameNode_eq]
    exact batchGet_unsent reader answers slices requests found failed

end Paired

/-- Both batch calls by node keep operations and data paired, in whatever order their maps are
walked. -/
theorem sameNode_paired (client : Put.Client) (answers : Put.Answers)
    (ops : List Put.PutOperation) (walk : Walk (ops.foldl Put.admitOperation ∅))
    (reader : Reader) (readAnswers : ReadAnswers) (slices : SliceMap)
    (requests : List (ObjectKey × QueryResult)) :
    WritesPaired client answers ops (batchPutWhenPreferSameNode client answers ops walk) ∧
      ReadsPaired reader readAnswers slices requests
        (submittedReads reader readAnswers slices requests)
        (batchGetWhenPreferSameNode reader readAnswers slices requests) :=
  ⟨batchPut_writesPaired client answers ops walk,
    batchGet_readsPaired reader readAnswers slices requests⟩

end Mooncake.SameNode
