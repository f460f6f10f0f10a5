import Mooncake.Put.Upsert

/-!
# What a batch upsert commits

An upsert should commit an object only when every memory and NoF replica of it
was written.  The law is stated over one run of `BatchUpsert`, together with
the exact inputs on which the code obeys it: the finalize step looks at the
pending transfers and not at their outcomes, so a single failed replica is
enough to break the law.
-/

namespace Mooncake.Put

open Library.Indexed List

/-! ## The law -/

/-- Every memory and NoF replica of the operation was submitted and its
transfer finished with `OK`. -/
def FullyWritten (answers : Answers) (index : Nat) (op : PutOperation) : Prop :=
  ∀ entry ∈ op.replicas.zipIdx, entry.1.isTransferred = true →
    Written answers index op.slices entry

/-- Only fully written operations are ended or reported as success, and every
operation with replicas is named in exactly one finalize request. -/
structure CommitsOnlyWritten (answers : Answers) (run : UpsertRun) : Prop where
  endWritten : ∀ index op, run.started[index]? = some op →
    (op.key, index) ∈ run.finalization.ended.entries → FullyWritten answers index op
  successEnded : ∀ index, run.results[index]? = some (.ok ()) →
    ∃ op, run.started[index]? = some op ∧
      (op.key, index) ∈ run.finalization.ended.entries ∧
      FullyWritten answers index op ∧
      run.finalization.ended.answer run.finalization.endResponses index = some (.ok ())
  namedOnce : ∀ index op, run.started[index]? = some op → op.replicas ≠ [] →
    run.finalization.ended.entries.count (op.key, index) +
      run.finalization.revoked.entries.count (op.key, index) = 1

/-- What the start response and the transfers must look like for one key. -/
def StartClean (answers : Answers) (index : Nat) (slices : List Slice) :
    Expected (List Replica) → Prop
  | .error error => error ≠ .objectAlreadyExists
  | .ok replicas => replicas ≠ [] →
      (∃ replica ∈ replicas, replica.isTransferred = true) ∧
      ∀ entry ∈ replicas.zipIdx, entry.1.isTransferred = true →
        Written answers index slices entry

def startedKeys (keys : List ObjectKey) (starts : List (Expected (List Replica))) :
    List ObjectKey :=
  (keys.zip starts).filterMap fun pair =>
    match pair.2 with
    | .ok (_ :: _) => some pair.1
    | _ => none

/-- The inputs on which `BatchUpsert` obeys the law: it does not reach the
transfers at all, or all of them succeed for every started key and the master
never answers `OBJECT_ALREADY_EXISTS`. -/
def UpsertClean (client : Client) (answers : Answers) (keys : List ObjectKey)
    (batchedSlices : List (List Slice)) (config : ReplicateConfig) : Prop :=
  let clientConfig := upsertConfig client config
  let ops := createPutOperations keys batchedSlices
  let starts := answers.batchUpsertStart (ops.map PutOperation.key) (sliceLengths ops)
    clientConfig
  let endKeys := startedKeys (ops.map PutOperation.key) starts
  clientConfig.preferAllocInSameNode = true ∨ client.transferSubmitter = false ∨
    starts.length ≠ ops.length ∨
    (∀ index op start, ops[index]? = some op → starts[index]? = some start →
      StartClean answers index op.slices start) ∧
    ((answers.batchUpsertEnd endKeys).length = endKeys.length →
      Except.error ErrorCode.objectAlreadyExists ∉ answers.batchUpsertEnd endKeys)

/-! ## Operations between start and finalize -/

/-- What `StartBatchUpsert` leaves: a resolved operation has no replicas and
an error, an open one has no pending transfer yet. -/
structure Launched (op : PutOperation) : Prop where
  closed : op.isResolved = true → op.replicas = [] ∧ ∃ error, op.result = .error error
  fresh : op.isResolved = false → op.pendingTransfers = []

section OneOperation

variable (answers : Answers) (index : Nat) {op : PutOperation}

theorem endsUpsert_transferOperation (open_ : op.isResolved = false)
    (nonempty : op.replicas ≠ []) (fresh : op.pendingTransfers = []) :
    endsUpsert (transferOperation answers index op) = true ↔
      accepted answers index op.slices op.replicas.zipIdx ≠ [] := by
  have frame := transferOperation_frame answers index nonempty open_
  simp [endsUpsert, frame.isResolved, frame.replicas, open_, nonempty, fresh,
    transferOperation_pendingTransfers answers index nonempty open_]

theorem revokesUpsert_transferOperation (launched : Launched op) :
    revokesUpsert (transferOperation answers index op) = false := by
  cases resolved : op.isResolved with
  | true =>
    have empty := (launched.closed resolved).1
    rw [transferOperation_of_resolved answers index resolved]
    simp [revokesUpsert, empty]
  | false =>
    by_cases nonempty : op.replicas = []
    · rw [transferOperation_of_empty answers index nonempty resolved]
      simp [revokesUpsert, nonempty]
    · have frame := transferOperation_frame answers index nonempty resolved
      simp [revokesUpsert, frame.isResolved, resolved]

theorem endsUpsert_eq_false_of_empty (empty : op.replicas = []) :
    endsUpsert (transferOperation answers index op) = false := by
  cases resolved : op.isResolved with
  | true =>
    rw [transferOperation_of_resolved answers index resolved]
    simp [endsUpsert, resolved]
  | false =>
    rw [transferOperation_of_empty answers index empty resolved]
    simp [endsUpsert, empty]

theorem accepted_ne_nil_of_written {replica : Replica} (member : replica ∈ op.replicas)
    (transferred : replica.isTransferred = true)
    (written : FullyWritten answers index op) :
    accepted answers index op.slices op.replicas.zipIdx ≠ [] := by
  obtain ⟨position, inside, located⟩ := getElem_of_mem member
  have entry : (replica, position) ∈ op.replicas.zipIdx := by
    rw [mem_zipIdx_iff_getElem?]
    exact List.getElem?_eq_some_iff.mpr ⟨inside, located⟩
  obtain ⟨future, submitted, done⟩ := written _ entry transferred
  apply ne_nil_of_mem (a := ⟨replica.transferType, future⟩)
  rw [accepted, mem_filterMap]
  exact ⟨(replica, position), entry, by simp [transferred, submitted]⟩

theorem exists_transferred_of_accepted
    (nonempty : accepted answers index op.slices op.replicas.zipIdx ≠ []) :
    ∃ replica ∈ op.replicas, replica.isTransferred = true := by
  obtain ⟨record, member⟩ := exists_mem_of_ne_nil _ nonempty
  rw [accepted, mem_filterMap] at member
  obtain ⟨entry, inside, kept⟩ := member
  refine ⟨entry.1, (mem_zipIdx' inside).2 ▸ getElem_mem _, ?_⟩
  by_contra untransferred
  simp [untransferred] at kept

end OneOperation

/-! ## The law over a batch -/

/-- The run that finalizes `transferred` after the start answered `started`. -/
def upsertRun (client : Client) (answers : Answers)
    (started transferred : List PutOperation) : UpsertRun :=
  { started := started
    finalization := finalizeBatchUpsert client answers transferred
    results := collectResults (finalizeBatchUpsert client answers transferred).ops }

section Batch

variable (client : Client) (answers : Answers) {started transferred : List PutOperation}
  {after : Nat → PutOperation → PutOperation}
  (shape : ∀ index, transferred[index]? = started[index]?.map (after index))
  (keyed : ∀ index op, (after index op).key = op.key)

include shape keyed

variable {index : Nat} {op : PutOperation}

omit keyed in
theorem transferred_at (found : started[index]? = some op) :
    transferred[index]? = some (after index op) := by
  rw [shape, found, Option.map_some]

theorem named_in_end_iff (found : started[index]? = some op) :
    (op.key, index) ∈ (upsertRun client answers started transferred).finalization.ended.entries ↔
      endsUpsert (after index op) = true := by
  have located := transferred_at shape found
  have membership := @BatchFinalizeGroup.mem_collect_entries endsUpsert _ _ _ located op.key
  rw [keyed index op] at membership
  simpa [upsertRun, finalizeBatchUpsert] using membership

theorem named_count (found : started[index]? = some op) :
    (upsertRun client answers started transferred).finalization.ended.entries.count
        (op.key, index) +
      (upsertRun client answers started transferred).finalization.revoked.entries.count
        (op.key, index) =
      (if endsUpsert (after index op) then 1 else 0) +
        (if revokesUpsert (after index op) then 1 else 0) := by
  have located := transferred_at shape found
  have ended := @BatchFinalizeGroup.count_collect_entries endsUpsert _ _ _ located
  have revoked := @BatchFinalizeGroup.count_collect_entries revokesUpsert _ _ _ located
  rw [keyed index op] at ended revoked
  simp only [upsertRun, finalizeBatchUpsert]
  rw [ended, revoked]

omit keyed in
/-- An ended operation is a success exactly when `CollectResults` lets its End
response pass. -/
theorem success_iff_of_ends (found : started[index]? = some op)
    (ends : endsUpsert (after index op) = true) :
    let run := upsertRun client answers started transferred
    run.results[index]? = some (.ok ()) ↔
      run.finalization.ended.answer run.finalization.endResponses index = some (.ok ()) ∨
      run.finalization.ended.answer run.finalization.endResponses index =
        some (.error .objectAlreadyExists) := by
  have located := transferred_at shape found
  obtain ⟨response, answered, final⟩ := finalizeBatchUpsert_ended client answers located ends
  simp only [upsertRun]
  rw [collectResults_eq_ok_iff, final, answered]

omit keyed in
theorem not_success_of_failed (found : started[index]? = some op)
    (notEnds : endsUpsert (after index op) = false) {error : ErrorCode}
    (failed : (after index op).result = .error error) (visible : error ≠ .objectAlreadyExists) :
    (upsertRun client answers started transferred).results[index]? ≠ some (.ok ()) := by
  have located := transferred_at shape found
  simp only [upsertRun, ne_eq]
  rw [collectResults_eq_ok_iff]
  cases revokes : revokesUpsert (after index op) with
  | true =>
    rcases finalizeBatchUpsert_revoked client answers located revokes with final | final
    · simp [final, failed, visible]
    · simp [final]
  | false =>
    rw [finalizeBatchUpsert_unnamed client answers located notEnds revokes]
    cases (after index op).isResolved <;> simp [failed, visible]

omit keyed in
theorem success_of_existing (found : started[index]? = some op)
    (resolved : (after index op).isResolved = true)
    (notRevokes : revokesUpsert (after index op) = false)
    (existing : (after index op).result = .error .objectAlreadyExists) :
    (upsertRun client answers started transferred).results[index]? = some (.ok ()) := by
  have located := transferred_at shape found
  have notEnds : endsUpsert (after index op) = false := by simp [endsUpsert, resolved]
  simp only [upsertRun]
  rw [collectResults_eq_ok_iff,
    finalizeBatchUpsert_unnamed client answers located notEnds notRevokes]
  simp [resolved, existing]

omit keyed in
theorem started_of_success
    (success : (upsertRun client answers started transferred).results[index]? = some (.ok ())) :
    ∃ op, started[index]? = some op := by
  have inside := (List.getElem?_eq_some_iff.mp success).1
  simp only [upsertRun, collectResults, length_map, finalizeBatchUpsert, length_writeBack] at inside
  have located := shape index
  rw [getElem?_eq_getElem inside] at located
  cases found : started[index]? with
  | none => simp [found] at located
  | some op => exact ⟨op, rfl⟩

/-- A batch in which every operation has failed before finalize obeys the law. -/
theorem commitsOnlyWritten_of_failed (error : ErrorCode)
    (visible : error ≠ .objectAlreadyExists)
    (failed : ∀ index op, started[index]? = some op →
      (after index op).isResolved = true ∧ (after index op).result = .error error ∧
      (after index op).replicas = op.replicas) :
    CommitsOnlyWritten answers (upsertRun client answers started transferred) := by
  have notEnds : ∀ index op, started[index]? = some op →
      endsUpsert (after index op) = false := by
    intro index op found
    simp [endsUpsert, (failed index op found).1]
  refine ⟨?_, ?_, ?_⟩
  · intro index op found named
    rw [named_in_end_iff client answers shape keyed found, notEnds index op found] at named
    cases named
  · intro index success
    obtain ⟨op, found⟩ := started_of_success client answers shape success
    exact absurd success (not_success_of_failed client answers shape found
      (notEnds index op found) (failed index op found).2.1 visible)
  · intro index op found nonempty
    obtain ⟨resolved, -, replicas⟩ := failed index op found
    have count := named_count client answers shape keyed found
    simpa [notEnds index op found, revokesUpsert, resolved, replicas, nonempty] using count

end Batch

/-- `UpsertClean` read off the operations that the start has left. -/
structure StartedClean (answers : Answers) (started : List PutOperation) : Prop where
  visible : ∀ (index : Nat) (op : PutOperation), started[index]? = some op →
    op.isResolved = true →
    op.result ≠ .error .objectAlreadyExists
  written : ∀ (index : Nat) (op : PutOperation), started[index]? = some op →
    op.replicas ≠ [] →
    (∃ replica ∈ op.replicas, replica.isTransferred = true) ∧ FullyWritten answers index op
  acknowledged :
    let endKeys := (started.filter fun op => !op.replicas.isEmpty).map PutOperation.key
    (answers.batchUpsertEnd endKeys).length = endKeys.length →
      Except.error ErrorCode.objectAlreadyExists ∉ answers.batchUpsertEnd endKeys

section Transferred

variable (client : Client) (answers : Answers) {started : List PutOperation}

def transferBatch (answers : Answers) (started : List PutOperation) : List PutOperation :=
  started.mapIdx fun index op => transferOperation answers index op

theorem transferBatch_getElem? (started : List PutOperation) (index : Nat) :
    (transferBatch answers started)[index]? =
      started[index]?.map (transferOperation answers index) := by
  rw [transferBatch, getElem?_mapIdx]

theorem ended_keys (ends : ∀ index op, started[index]? = some op →
      endsUpsert (transferOperation answers index op) = !op.replicas.isEmpty) :
    (BatchFinalizeGroup.collect endsUpsert (transferBatch answers started)).keys =
      (started.filter fun op => !op.replicas.isEmpty).map PutOperation.key := by
  rw [← select_map_fst, map_map]
  apply map_filter_zipIdx_congr (by simp [transferBatch])
  intro index after op located found
  rw [transferBatch_getElem?, found] at located
  obtain rfl := Option.some.inj located
  exact ⟨ends index op found, transferOperation_key answers index⟩

variable (launched : ∀ op ∈ started, Launched op)

include launched

variable {index : Nat} {op : PutOperation}

theorem open_of_replicas (found : started[index]? = some op) (nonempty : op.replicas ≠ []) :
    op.isResolved = false := by
  cases resolved : op.isResolved with
  | false => rfl
  | true =>
    exact absurd ((launched op (mem_of_getElem? found)).closed resolved).1 nonempty

theorem ends_iff_accepted (found : started[index]? = some op) (nonempty : op.replicas ≠ []) :
    endsUpsert (transferOperation answers index op) = true ↔
      accepted answers index op.slices op.replicas.zipIdx ≠ [] := by
  have open_ := open_of_replicas launched found nonempty
  exact endsUpsert_transferOperation answers index open_ nonempty
    ((launched op (mem_of_getElem? found)).fresh open_)

/-- Fully written operations with a transferred replica are the ended ones. -/
theorem ends_of_written
    (written : ∀ index op, started[index]? = some op → op.replicas ≠ [] →
      (∃ replica ∈ op.replicas, replica.isTransferred = true) ∧
        FullyWritten answers index op)
    {index : Nat} {op : PutOperation} (found : started[index]? = some op) :
    endsUpsert (transferOperation answers index op) = !op.replicas.isEmpty := by
  by_cases nonempty : op.replicas = []
  · rw [endsUpsert_eq_false_of_empty answers index nonempty, nonempty]
    rfl
  · obtain ⟨⟨replica, member, transferred⟩, done⟩ := written index op found nonempty
    rw [(ends_iff_accepted answers launched found nonempty).mpr
      (accepted_ne_nil_of_written answers index member transferred done)]
    simp [nonempty]

theorem not_success_of_empty (clean : StartedClean answers started)
    (found : started[index]? = some op) (empty : op.replicas = []) :
    (upsertRun client answers started (transferBatch answers started)).results[index]? ≠
      some (.ok ()) := by
  have shape := transferBatch_getElem? answers started
  have notEnds := endsUpsert_eq_false_of_empty answers index empty
  cases resolved : op.isResolved with
  | true =>
    obtain ⟨-, error, failed⟩ := (launched op (mem_of_getElem? found)).closed resolved
    have same := transferOperation_of_resolved answers index resolved
    refine not_success_of_failed client answers shape found notEnds
      (by rw [same, failed]) ?_
    intro existing
    exact clean.visible index op found resolved (existing ▸ failed)
  | false =>
    refine not_success_of_failed client answers shape found notEnds
      (by rw [transferOperation_of_empty answers index empty resolved]; rfl) ?_
    decide

theorem startedClean_of_commitsOnlyWritten
    (law : CommitsOnlyWritten answers
      (upsertRun client answers started (transferBatch answers started))) :
    StartedClean answers started := by
  have shape := transferBatch_getElem? answers started
  have keyed : ∀ index op, (transferOperation answers index op).key = op.key :=
    fun index op => transferOperation_key answers index
  have written : ∀ index op, started[index]? = some op → op.replicas ≠ [] →
      (∃ replica ∈ op.replicas, replica.isTransferred = true) ∧
        FullyWritten answers index op := by
    intro index op found nonempty
    have once := law.namedOnce index op found nonempty
    have notRevokes := revokesUpsert_transferOperation answers index
      (launched op (mem_of_getElem? found))
    have count := named_count client answers shape keyed found
    rw [once, notRevokes] at count
    have ends : endsUpsert (transferOperation answers index op) = true := by
      by_contra notEnds
      simp [notEnds] at count
    refine ⟨exists_transferred_of_accepted answers index
      ((ends_iff_accepted answers launched found nonempty).mp ends), ?_⟩
    exact law.endWritten index op found
      ((named_in_end_iff client answers shape keyed found).mpr ends)
  refine ⟨?_, written, ?_⟩
  · intro index op found resolved existing
    have same := transferOperation_of_resolved answers index resolved
    have notRevokes := revokesUpsert_transferOperation answers index
      (launched op (mem_of_getElem? found))
    obtain ⟨other, located, named, -⟩ := law.successEnded index
      (success_of_existing client answers shape found (by rw [same, resolved]) notRevokes
        (by rw [same, existing]))
    rw [(Option.some.inj (found.symm.trans located)).symm] at named
    rw [named_in_end_iff client answers shape keyed found, same] at named
    simp [endsUpsert, resolved] at named
  · intro endKeys matched present
    have keys := ended_keys answers fun index op found =>
      ends_of_written answers launched written found
    simp only [endKeys, ← keys] at matched present
    obtain ⟨index, member, answered⟩ := BatchFinalizeGroup.exists_answer_of_mem endsUpsert
      (transferBatch answers started) matched present
    obtain ⟨after, located, ends⟩ := mem_positions.mp member
    rw [shape, Option.map_eq_some_iff] at located
    obtain ⟨op, found, rfl⟩ := located
    have received : (upsertRun client answers started
        (transferBatch answers started)).finalization.ended.answer
        (upsertRun client answers started (transferBatch answers started)).finalization.endResponses
        index = some (.error .objectAlreadyExists) := by
      exact answered
    obtain ⟨-, -, -, -, acknowledged⟩ := law.successEnded index
      ((success_iff_of_ends client answers shape found ends).mpr (.inr received))
    rw [received] at acknowledged
    cases acknowledged

theorem commitsOnlyWritten_of_startedClean (clean : StartedClean answers started) :
    CommitsOnlyWritten answers
      (upsertRun client answers started (transferBatch answers started)) := by
  have shape := transferBatch_getElem? answers started
  have keyed : ∀ index op, (transferOperation answers index op).key = op.key :=
    fun index op => transferOperation_key answers index
  have ends : ∀ index op, started[index]? = some op →
      endsUpsert (transferOperation answers index op) = !op.replicas.isEmpty :=
    fun index op found => ends_of_written answers launched clean.written found
  refine ⟨?_, ?_, ?_⟩
  · intro index op found named
    rw [named_in_end_iff client answers shape keyed found, ends index op found] at named
    exact (clean.written index op found (by simpa using named)).2
  · intro index success
    obtain ⟨op, found⟩ := started_of_success client answers shape success
    have nonempty : op.replicas ≠ [] := by
      intro empty
      refine not_success_of_empty client answers launched clean found empty success
    have ended : endsUpsert (transferOperation answers index op) = true := by
      simp [ends index op found, nonempty]
    refine ⟨op, found, (named_in_end_iff client answers shape keyed found).mpr ended,
      (clean.written index op found nonempty).2, ?_⟩
    rcases (success_iff_of_ends client answers shape found ended).mp success with
      acknowledged | existing
    · exact acknowledged
    · rcases BatchFinalizeGroup.answer_cases existing with ⟨matched, received⟩ | lost
      · simp only [upsertRun, finalizeBatchUpsert] at matched received
        rw [ended_keys answers ends] at matched received
        exact absurd received (clean.acknowledged matched)
      · cases lost
  · intro index op found nonempty
    rw [named_count client answers shape keyed found, ends index op found,
      revokesUpsert_transferOperation answers index (launched op (mem_of_getElem? found))]
    simp [nonempty]

end Transferred

/-! ## From the start responses to the operations -/

section Start

variable (client : Client) (answers : Answers)

variable {op : PutOperation} {response : Expected (List Replica)}

theorem acceptUpsertStart_launched (created : Created op) :
    Launched (acceptUpsertStart client op response) := by
  obtain ⟨replicas, pending, open_⟩ := created
  cases response with
  | error error => exact ⟨fun _ => ⟨replicas, error, rfl⟩, fun open_ => by
      simp [acceptUpsertStart] at open_⟩
  | ok granted =>
    refine ⟨fun resolved => ?_, fun _ => pending⟩
    have same : (acceptUpsertStart client op (.ok granted)).isResolved = op.isResolved := rfl
    rw [same, open_] at resolved
    cases resolved

theorem startClean_iff (created : Created op) {index : Nat} :
    StartClean answers index op.slices response ↔
      ((acceptUpsertStart client op response).isResolved = true →
        (acceptUpsertStart client op response).result ≠ .error .objectAlreadyExists) ∧
      ((acceptUpsertStart client op response).replicas ≠ [] →
        (∃ replica ∈ (acceptUpsertStart client op response).replicas,
          replica.isTransferred = true) ∧
        FullyWritten answers index (acceptUpsertStart client op response)) := by
  obtain ⟨replicas, -, open_⟩ := created
  cases response with
  | error error => simp [StartClean, acceptUpsertStart, replicas]
  | ok granted =>
    have unresolved : (acceptUpsertStart client op (.ok granted)).isResolved = false := open_
    rw [unresolved]
    simp [StartClean, acceptUpsertStart, FullyWritten]

theorem startedKeys_eq (ops : List PutOperation) (starts : List (Expected (List Replica)))
    (created : ∀ op ∈ ops, Created op) :
    startedKeys (ops.map PutOperation.key) starts =
      ((List.zipWith (acceptUpsertStart client) ops starts).filter
        fun op => !op.replicas.isEmpty).map PutOperation.key := by
  induction ops generalizing starts with
  | nil => rfl
  | cons op rest ih =>
    cases starts with
    | nil => rfl
    | cons start others =>
      have tail := ih others fun other member => created other (.tail _ member)
      have empty := (created op (.head _)).1
      simp only [startedKeys] at tail ⊢
      cases start with
      | error error => simpa [acceptUpsertStart, empty] using tail
      | ok replicas =>
        cases replicas with
        | nil => simpa [acceptUpsertStart] using tail
        | cons replica more => simpa [acceptUpsertStart] using tail

variable {ops : List PutOperation} {starts : List (Expected (List Replica))}
  (created : ∀ op ∈ ops, Created op)

include created

theorem zipWith_launched :
    ∀ op ∈ List.zipWith (acceptUpsertStart client) ops starts, Launched op := by
  intro op member
  rw [← map_uncurry_zip_eq_zipWith, mem_map] at member
  obtain ⟨pair, paired, rfl⟩ := member
  exact acceptUpsertStart_launched client (created _ (of_mem_zip paired).1)

theorem startedClean_iff :
    StartedClean answers (List.zipWith (acceptUpsertStart client) ops starts) ↔
      (∀ index op start, ops[index]? = some op → starts[index]? = some start →
        StartClean answers index op.slices start) ∧
      ((answers.batchUpsertEnd (startedKeys (ops.map PutOperation.key) starts)).length =
          (startedKeys (ops.map PutOperation.key) starts).length →
        Except.error ErrorCode.objectAlreadyExists ∉
          answers.batchUpsertEnd (startedKeys (ops.map PutOperation.key) starts)) := by
  rw [startedKeys_eq client ops starts created]
  constructor
  · intro clean
    refine ⟨?_, clean.acknowledged⟩
    intro index op start found answered
    have located : (List.zipWith (acceptUpsertStart client) ops starts)[index]? =
        some (acceptUpsertStart client op start) := by
      simp [getElem?_zipWith, found, answered]
    rw [startClean_iff client answers (created op (mem_of_getElem? found))]
    exact ⟨clean.visible index _ located, clean.written index _ located⟩
  · rintro ⟨each, acknowledged⟩
    have parts : ∀ index after,
        (List.zipWith (acceptUpsertStart client) ops starts)[index]? = some after →
        (after.isResolved = true → after.result ≠ .error .objectAlreadyExists) ∧
        (after.replicas ≠ [] → (∃ replica ∈ after.replicas, replica.isTransferred = true) ∧
          FullyWritten answers index after) := by
      intro index after located
      rw [getElem?_zipWith_eq_some] at located
      obtain ⟨op, start, found, answered, rfl⟩ := located
      exact (startClean_iff client answers (created op (mem_of_getElem? found))).mp
        (each index op start found answered)
    exact ⟨fun index after located => (parts index after located).1,
      fun index after located => (parts index after located).2, acknowledged⟩

end Start

theorem commitsOnlyWritten_nil (answers : Answers) {results : List (Expected Unit)}
    (failed : .ok () ∉ results) : CommitsOnlyWritten answers { results := results } := by
  refine ⟨?_, ?_, ?_⟩
  · intro index op found
    simp at found
  · intro index success
    exact absurd (mem_of_getElem? success) failed
  · intro index op found
    simp at found

/-- `BatchUpsert` commits only what was written exactly on the clean inputs. -/
theorem batchUpsert_commitsOnlyWritten_iff (client : Client) (answers : Answers)
    (keys : List ObjectKey) (batchedSlices : List (List Slice)) (config : ReplicateConfig) :
    CommitsOnlyWritten answers (batchUpsert client answers keys batchedSlices config) ↔
      UpsertClean client answers keys batchedSlices config := by
  have created : ∀ op ∈ createPutOperations keys batchedSlices, Created op :=
    fun op member => createPutOperations_created member
  simp only [batchUpsert, UpsertClean]
  generalize createPutOperations keys batchedSlices = ops at created ⊢
  by_cases sameNode : (upsertConfig client config).preferAllocInSameNode = true
  · simp only [sameNode, if_true, true_or, iff_true]
    apply commitsOnlyWritten_nil
    simp
  simp only [sameNode, Bool.false_eq_true, if_false, false_or]
  cases ready : client.transferSubmitter with
  | false =>
    simp only [true_or, iff_true]
    rw [waitForTransfers_unready answers ready]
    exact commitsOnlyWritten_of_failed client answers
      (fun index => getElem?_map) (fun _ _ => rfl) .invalidParams (by decide)
      (fun _ _ _ => ⟨rfl, rfl, rfl⟩)
  | true =>
    simp only [Bool.true_eq_false, false_or]
    rw [waitForTransfers_submitTransfers answers ready]
    by_cases matched : (answers.batchUpsertStart (ops.map PutOperation.key)
        (sliceLengths ops) (upsertConfig client config)).length = ops.length
    · simp only [startBatchUpsert, matched, ne_eq, not_true_eq_false, if_false, false_or]
      rw [← startedClean_iff client answers created]
      exact ⟨startedClean_of_commitsOnlyWritten client answers
          (zipWith_launched client created),
        commitsOnlyWritten_of_startedClean client answers
          (zipWith_launched client created)⟩
    · simp only [startBatchUpsert, matched, ne_eq, not_false_eq_true, if_true, true_or, iff_true]
      apply commitsOnlyWritten_of_failed client answers
        (transferBatch_getElem? answers _) (fun index op => transferOperation_key answers index)
        .rpcFail (by decide)
      intro index op found
      rw [getElem?_map, Option.map_eq_some_iff] at found
      obtain ⟨before, -, rfl⟩ := found
      rw [transferOperation_of_resolved answers index
        (before.setError_isResolved client .rpcFail _)]
      exact ⟨before.setError_isResolved client .rpcFail _, rfl, rfl⟩

/-- One key with one memory replica whose transfer fails. -/
def failedWrite : Answers :=
  { sampleAnswers with
    batchUpsertStart := fun keys _ _ => keys.map fun _ => .ok [sampleMemoryReplica]
    submit := fun _ _ _ _ => some ⟨.transferFail⟩ }

/-- The failed write is ended, and its key is reported as stored. -/
theorem failedWrite_is_committed :
    ¬ CommitsOnlyWritten failedWrite
      (batchUpsert sampleClient failedWrite ["key"] [[⟨0, 4⟩]] {}) := by
  intro law
  have ended : ("key", 0) ∈
      (batchUpsert sampleClient failedWrite ["key"] [[⟨0, 4⟩]] {}).finalization.ended.entries := by
    decide
  have written := law.endWritten 0 _ rfl ended (sampleMemoryReplica, 0) (by decide) rfl
  have unwritten : ¬ Written failedWrite 0 [⟨0, 4⟩] (sampleMemoryReplica, 0) := by decide
  exact unwritten written

end Mooncake.Put
