import Mathlib.Algebra.Order.BigOperators.Group.List
import Mathlib.Algebra.Order.Group.Nat
import Mooncake.Read.Request

/-!
# What a batch of reads writes

`BatchGet` is handed one map from key to slices for all its operations, so the
transfer of an operation goes into the slices of the last operation with the
same key.
-/

namespace Mooncake.Read

open Library.Indexed Library.Keyed Library.ByteMemory List

variable {α : Type} {prepare : Planned → Expected α} {ops : List Planned} {planned : Planned}
  {index position address first second : Nat} {query : QueryResult} {replica : Replica}
  {op : ReadOp} {reads : List StagedRead} {world : World} {endpoint : String}
  {objects : List ReadOp} {slices : List Slice} {succeeded : Bool}

theorem eq_of_index_eq {index : α → Nat} {values : List α}
    (ordered : values.Pairwise fun before after => index before < index after) {first second : α}
    (present : first ∈ values) (other : second ∈ values) (same : index first = index second) :
    first = second := by
  have distinct : (values.map index).Nodup := pairwise_map.mpr (ordered.imp Nat.ne_of_lt)
  exact inj_on_of_nodup_map distinct present other same

/-! ## Planned keys -/

section Planned

variable {plan : Nat → ObjectKey → Expected Planned}
  (named : ∀ index key planned, plan index key = .ok planned →
    planned.index = index ∧ planned.key = key)

include named

variable {keys : List ObjectKey} {failures : List (Nat × ErrorCode)}

theorem mem_plannedReads :
    planned ∈ plannedReads plan keys ↔
      keys[planned.index]? = some planned.key ∧
        plan planned.index planned.key = .ok planned := by
  unfold plannedReads
  rw [mem_filterMap]
  constructor
  · rintro ⟨result, present, found⟩
    obtain ⟨index, inside, rfl⟩ := mem_mapIdx.mp present
    have accepted : plan index keys[index] = .ok planned := by
      revert found
      cases plan index keys[index] <;> simp [Except.toOption]
    obtain ⟨rfl, same⟩ := named index keys[index] planned accepted
    exact ⟨by rw [getElem?_eq_getElem inside, same], same ▸ accepted⟩
  · rintro ⟨keyed, accepted⟩
    obtain ⟨inside, same⟩ := List.getElem?_eq_some_iff.mp keyed
    refine ⟨_, mem_mapIdx.mpr ⟨planned.index, inside, rfl⟩, ?_⟩
    rw [same, accepted]
    rfl

theorem plannedReads_ordered (keys : List ObjectKey) :
    (plannedReads plan keys).Pairwise fun before after => before.index < after.index := by
  have positions : keys.zipIdx.Pairwise fun before after => before.2 < after.2 := by
    rw [← pairwise_map (R := fun before after : Nat => before < after), zipIdx_map_snd]
    exact pairwise_lt_range'
  unfold plannedReads
  rw [mapIdx_eq_zipIdx_map, filterMap_map, pairwise_filterMap]
  refine positions.imp ?_
  intro before after earlier first found second found'
  have own : ∀ {entry : ObjectKey × Nat} {planned : Planned},
      (plan entry.2 entry.1).toOption = some planned → planned.index = entry.2 := by
    intro entry planned accepted
    cases result : plan entry.2 entry.1 with
    | error error =>
      rw [result] at accepted
      cases accepted
    | ok value =>
      rw [result] at accepted
      cases accepted
      exact (named _ _ _ result).1
  rw [own found, own found']
  exact earlier

theorem settledResults_ok {size : Nat} {key : ObjectKey}
    (success : (settledResults plan keys failures)[index]? = some (.ok size))
    (keyed : keys[index]? = some key) :
    ∃ planned ∈ plannedReads plan keys, planned.index = index ∧ planned.key = key ∧
      size = totalSize planned.replica ∧ index ∉ failures.map Prod.fst := by
  rcases getElem?_assignAt_cases success with ⟨untouched, preset⟩ | assigned
  · rw [getElem?_map, getElem?_mapIdx, keyed] at preset
    cases accepted : plan index key with
    | error error => simp [accepted, Except.map] at preset
    | ok planned =>
      obtain ⟨rfl, rfl⟩ := named index key planned accepted
      refine ⟨planned, (mem_plannedReads named).mpr ⟨keyed, accepted⟩, rfl, rfl, ?_, ?_⟩
      · simpa [accepted, Except.map] using preset.symm
      · simpa using untouched
  · simp at assigned

theorem settledResults_of_not_failed (present : planned ∈ plannedReads plan keys)
    (fine : planned.index ∉ failures.map Prod.fst) :
    (settledResults plan keys failures)[planned.index]? =
      some (.ok (totalSize planned.replica)) := by
  obtain ⟨keyed, accepted⟩ := (mem_plannedReads named).mp present
  rw [settledResults, getElem?_assignAt_of_not_mem (by simpa using fine)]
  simp [keyed, accepted, Except.map]

end Planned

/-! ## Planned keys of a read into memory of the caller -/

section Within

variable {batch : Batch} {capacity : Nat → Nat}

/-- Every replica of a planned key has the size of the object. -/
structure Sized (batch : Batch) (planned : Planned) : Prop where
  keyed : batch.keys[planned.index]? = some planned.key
  all : ∀ replica ∈ planned.query.replicas, totalSize replica = batch.objectSize planned.key
  chosen : totalSize planned.replica = batch.objectSize planned.key
  member : planned.replica ∈ planned.query.replicas
  complete : planned.replica.status = .complete

theorem Sized.of_choose (keyed : batch.keys[planned.index]? = some planned.key)
    (chosen : batch.choose planned.index planned.key = .ok planned) : Sized batch planned := by
  obtain ⟨-, -, queried, selected⟩ := choose_ok.mp chosen
  obtain ⟨member, complete⟩ := selectBestReplica_usable selected
  have all := batch.sized planned.index planned.key planned.query keyed queried
  exact ⟨keyed, all, all _ member, member, complete⟩

theorem Sized.sizeAt (sized : Sized batch planned) :
    batch.sizeAt planned.index = batch.objectSize planned.key := by
  simp [Batch.sizeAt, sized.keyed]

theorem plannedWithin_sized
    (present : planned ∈ plannedReads (batch.planWithin capacity) batch.keys) :
    Sized batch planned ∧ batch.objectSize planned.key ≤ capacity planned.index := by
  obtain ⟨keyed, accepted⟩ := (mem_plannedReads planWithin_named).mp present
  obtain ⟨chosen, fits⟩ := planWithin_ok.mp accepted
  have sized := Sized.of_choose keyed chosen
  exact ⟨sized, sized.chosen ▸ fits⟩

theorem plannedWithin_ordered :
    (plannedReads (batch.planWithin capacity) batch.keys).Pairwise
      fun before after => before.index < after.index :=
  plannedReads_ordered planWithin_named batch.keys

theorem plannedWithin_unique {first second : Planned}
    (present : first ∈ plannedReads (batch.planWithin capacity) batch.keys)
    (other : second ∈ plannedReads (batch.planWithin capacity) batch.keys)
    (same : first.index = second.index) : first = second :=
  eq_of_index_eq plannedWithin_ordered present other same

end Within

/-! ## Prepared operations -/

theorem mem_preparedReads {read : α} : read ∈ preparedReads prepare ops ↔
      ∃ planned ∈ ops, prepare planned = .ok read := by
  unfold preparedReads
  rw [mem_filterMap]
  refine exists_congr fun planned => and_congr_right fun _ => ?_
  cases prepare planned <;> simp [Except.toOption]

theorem prepared_of_not_failed (present : planned ∈ ops)
    (fine : planned.index ∉ (prepareFailures prepare ops).map Prod.fst) :
    ∃ read, prepare planned = .ok read := by
  cases prepared : prepare planned with
  | ok read => exact ⟨read, rfl⟩
  | error error =>
    refine absurd (mem_map.mpr ⟨(planned.index, error), mem_filterMap.mpr
      ⟨planned, present, ?_⟩, rfl⟩) fine
    simp [prepared]

theorem mem_prepareFailures (failed : index ∈ (prepareFailures prepare ops).map Prod.fst) :
    ∃ planned ∈ ops, planned.index = index ∧ ∃ error, prepare planned = .error error := by
  obtain ⟨failure, listed, rfl⟩ := mem_map.mp failed
  obtain ⟨planned, present, made⟩ := mem_filterMap.mp listed
  cases prepared : prepare planned with
  | ok read => simp [prepared] at made
  | error error =>
    simp only [prepared, Option.some.injEq] at made
    exact ⟨planned, present, made ▸ rfl, error, prepared⟩

/-! ## Routes -/

theorem isLocalDiskReplica_of_route (routed : planned.route = .localDisk) :
    planned.replica.isLocalDiskReplica = true := by
  unfold Planned.route at routed
  split at routed
  · assumption
  · split at routed <;> cases routed

theorem isDiskReplica_of_route (routed : planned.route = .disk) :
    planned.replica.isDiskReplica = true := by
  unfold Planned.route at routed
  split at routed
  · cases routed
  · split at routed
    · assumption
    · cases routed

theorem localDiskEndpoint_isSome (member : replica ∈ query.replicas)
    (stored : replica.isLocalDiskReplica = true) :
    ∃ endpoint, localDiskEndpoint query = some endpoint := by
  unfold Replica.isLocalDiskReplica at stored
  cases found : localDiskEndpoint query with
  | some endpoint => exact ⟨endpoint, rfl⟩
  | none =>
    have absent := findSome?_eq_none_iff.mp found replica member
    split at stored
    · rename_i descriptor variant
      simp [variant] at absent
    · cases stored

theorem firstDiskReplica_isSome (member : replica ∈ query.replicas)
    (stored : replica.isDiskReplica = true) :
    ∃ first, firstDiskReplica query = some first := by
  cases found : firstDiskReplica query with
  | some first => exact ⟨first, rfl⟩
  | none => exact absurd stored (find?_eq_none.mp found replica member)

/-! ## The transfers of a batch -/

def Ordered (ops : List ReadOp) : Prop :=
  ops.Pairwise fun before after => before.index < after.index

theorem Ordered.position_unique {ops : List ReadOp} (ordered : Ordered ops) {position' : Nat}
    {op' : ReadOp} (found : ops[position]? = some op) (found' : ops[position']? = some op')
    (same : op.index = op'.index) :
    position = position' := by
  obtain ⟨inside, rfl⟩ := List.getElem?_eq_some_iff.mp found
  obtain ⟨inside', rfl⟩ := List.getElem?_eq_some_iff.mp found'
  have apart := pairwise_iff_getElem.mp ordered
  rcases Nat.lt_trichotomy position position' with less | equal | greater
  · exact absurd same (Nat.ne_of_lt (apart _ _ inside inside' less))
  · exact equal
  · exact absurd same.symm (Nat.ne_of_lt (apart _ _ inside' inside greater))

/-- The operation whose slices `BatchGet` finds for the key of another one: the
last one with that key. -/
def LastOf (ops : List ReadOp) (op source : ReadOp) : Prop :=
  source ∈ ops ∧ source.key = op.key ∧
    (Ordered ops → ∀ other ∈ ops, other.key = op.key → other.index ≤ source.index)

def Startable (preferAllocInSameNode : Bool) (op : ReadOp) : Prop :=
  ∃ replica, findFirstCompleteReplica op.query.replicas = .ok replica ∧
    (preferAllocInSameNode = true → replica.isMemoryReplica = true)

theorem mem_batchFailures {ops : List ReadOp} {call : BatchReadCall} :
    index ∈ (batchFailures ops call).map Prod.fst ↔
      ∃ (position : Nat) (op : ReadOp) (error : ErrorCode), ops[position]? = some op ∧
        call.results[position]? = some (.error error) ∧ op.index = index := by
  unfold batchFailures
  simp only [mem_map, mem_filterMap]
  constructor
  · rintro ⟨⟨_, error⟩, ⟨⟨op, result⟩, present, failed⟩, rfl⟩
    obtain ⟨position, inside, paired⟩ := getElem_of_mem present
    have both := getElem?_zip_eq_some.mp (paired ▸ getElem?_eq_getElem inside)
    cases result with
    | ok value => cases failed
    | error code =>
      cases failed
      exact ⟨position, op, _, both.1, both.2, rfl⟩
  · rintro ⟨position, op, error, found, failed, rfl⟩
    refine ⟨(op.index, error), ⟨(op, .error error), ?_, rfl⟩, rfl⟩
    exact mem_of_getElem? (getElem?_zip_eq_some.mpr ⟨found, failed⟩)

section Batch

variable {call : Nat} {ops : List ReadOp} {preferAllocInSameNode : Bool}

theorem batchRead_accounts :
    AccountsForTransfers ((ops.map ReadOp.key).zip (ops.map ReadOp.query))
      (assignAll ReadOp.key ReadOp.slices ops) preferAllocInSameNode
      (batchRead world call ops preferAllocInSameNode) :=
  batchGet_accounts world.reader (world.answers call) (by simp)

theorem getElem?_batchRead_requests {request : ObjectKey × QueryResult} :
    ((ops.map ReadOp.key).zip (ops.map ReadOp.query))[position]? = some request ↔
      ∃ op, ops[position]? = some op ∧ request = (op.key, op.query) := by
  rw [getElem?_zip_eq_some]
  simp only [getElem?_map, Option.map_eq_some_iff]
  constructor
  · rintro ⟨⟨op, found, key⟩, ⟨op', found', query⟩⟩
    rw [found, Option.some.injEq] at found'
    subst found'
    exact ⟨op, found, Prod.ext key.symm query.symm⟩
  · rintro ⟨op, found, rfl⟩
    exact ⟨⟨op, found, rfl⟩, ⟨op, found, rfl⟩⟩

theorem batchRead_ok_of_not_failed {position : Nat} {op : ReadOp}
    (found : ops[position]? = some op)
    (fine : op.index ∉ (batchFailures ops
      (batchRead world call ops preferAllocInSameNode)).map Prod.fst) :
    (batchRead world call ops preferAllocInSameNode).results[position]? = some (.ok ()) := by
  have inside : position <
      (batchRead world call ops preferAllocInSameNode).results.length := by
    rw [batchRead_accounts.length]
    simpa using (List.getElem?_eq_some_iff.mp found).1
  have read := getElem?_eq_getElem inside
  cases result : (batchRead world call ops preferAllocInSameNode).results[position] with
  | ok value => rw [read, result]
  | error error =>
    rw [result] at read
    exact absurd (mem_batchFailures.mpr ⟨position, op, error, found, read, rfl⟩) fine

theorem lastOf_of_lookup {target : List Slice}
    (lookup : (assignAll ReadOp.key ReadOp.slices ops).lookup op.key = some target) :
    ∃ source, LastOf ops op source ∧ source.slices = target := by
  obtain ⟨source, mem, keyed, slices, latest⟩ := mem_of_lookup_assignAll lookup
  exact ⟨source, ⟨mem, keyed, latest ReadOp.index⟩, slices⟩

/-- Every write of a batch goes into the slices of the last operation with its
key; it stores the object unless the operation is reported as failed. -/
theorem mem_batchWrites {write : Write}
    (written : write ∈ batchWrites world ops
      (batchRead world call ops preferAllocInSameNode)) :
    ∃ op ∈ ops, ∃ source succeeded, LastOf ops op source ∧
      write = transferWrite world op source.slices succeeded ∧
      Startable preferAllocInSameNode op ∧
      (op.index ∉ (batchFailures ops
        (batchRead world call ops preferAllocInSameNode)).map Prod.fst →
        succeeded = true) := by
  unfold batchWrites at written
  obtain ⟨event, present, made⟩ := mem_filterMap.mp written
  cases event with
  | getHotKey key block => cases made
  | releaseHotKey key => cases made
  | clock reading => cases made
  | processSlicesAsync call => cases made
  | submitPutTask key slice accepted => cases made
  | transferred position target outcome =>
    obtain ⟨op, found, rfl⟩ := Option.map_eq_some_iff.mp made
    obtain ⟨request, replica, requested, lookup, complete, memory⟩ :=
      batchRead_accounts.located position target outcome present
    obtain ⟨op', found', rfl⟩ := getElem?_batchRead_requests.mp requested
    rw [found, Option.some.injEq] at found'
    subst found'
    obtain ⟨source, lastOf, slices⟩ := lastOf_of_lookup lookup
    refine ⟨op, mem_of_getElem? found, source, decide (outcome = .ok), lastOf,
      by rw [slices], ⟨replica, complete, memory⟩, fun fine => ?_⟩
    exact decide_eq_true (batchRead_accounts.settled position target outcome present
      (batchRead_ok_of_not_failed found fine))

theorem exists_batchWrite {op : ReadOp} (present : op ∈ ops)
    (fine : op.index ∉ (batchFailures ops
      (batchRead world call ops preferAllocInSameNode)).map Prod.fst) :
    ∃ source, LastOf ops op source ∧ Startable preferAllocInSameNode op ∧
      transferWrite world op source.slices true ∈
        batchWrites world ops (batchRead world call ops preferAllocInSameNode) := by
  obtain ⟨position, found⟩ := mem_iff_getElem?.mp present
  obtain ⟨target, transferred⟩ := batchRead_accounts.backed position
    (batchRead_ok_of_not_failed found fine)
  obtain ⟨request, replica, requested, lookup, complete, memory⟩ :=
    batchRead_accounts.located position target .ok transferred
  obtain ⟨op', found', rfl⟩ := getElem?_batchRead_requests.mp requested
  rw [found, Option.some.injEq] at found'
  subst found'
  obtain ⟨source, lastOf, slices⟩ := lastOf_of_lookup lookup
  refine ⟨source, lastOf, ⟨replica, complete, memory⟩, mem_filterMap.mpr ⟨_, transferred, ?_⟩⟩
  simp [found, slices]

/-- In a willing world every startable operation is written. -/
theorem exists_batchWrite_of_willing (willing : Willing world.reader (world.answers call))
    {op : ReadOp} (present : op ∈ ops) {replica : Replica}
    (complete : findFirstCompleteReplica op.query.replicas = .ok replica)
    (usable : preferAllocInSameNode = true →
      ∃ buffer, replica.descriptor = .memory buffer ∧ buffer.size ≠ 0) :
    ∃ source, LastOf ops op source ∧
      transferWrite world op source.slices true ∈
        batchWrites world ops (batchRead world call ops preferAllocInSameNode) := by
  obtain ⟨position, found⟩ := mem_iff_getElem?.mp present
  have keyed : (ops.map ReadOp.key)[position]? = some op.key := by simp [found]
  have queried : (ops.map ReadOp.query)[position]? = some op.query := by simp [found]
  obtain ⟨target, lookup⟩ : ∃ target,
      (assignAll ReadOp.key ReadOp.slices ops).lookup op.key = some target :=
    lookup_assignAll_isSome present
  have transferred := batchGet_transfers willing (by simp) keyed queried lookup complete usable
  obtain ⟨source, lastOf, slices⟩ := lastOf_of_lookup lookup
  refine ⟨source, lastOf, mem_filterMap.mpr ⟨_, transferred, ?_⟩⟩
  simp [found, slices]

end Batch

/-! ## Temporary blocks -/

/-- What a staged DISK operation has to do with its key. -/
structure Staged (batch : Batch) (world : World) (planned : Planned)
    (read : StagedRead) : Prop where
  index : read.op.index = planned.index
  key : read.op.key = planned.key
  size : read.op.totalSize = batch.objectSize planned.key
  temp : world.allocate planned.index = some read.temp
  slices : addresses read.op.slices = List.range' read.temp (batch.objectSize planned.key)
  source : ∃ replica, firstDiskReplica planned.query = some replica ∧
    read.op.query = filterQueryResult planned.query replica

theorem Sized.stageDisk {batch : Batch} {temp : Nat} (sized : Sized batch planned)
    (first : firstDiskReplica planned.query = some replica)
    (allocated : world.allocate planned.index = some temp) :
    Staged batch world planned (batch.stageDisk planned replica temp) := by
  refine ⟨rfl, rfl, sized.chosen, allocated, ?_, replica, first, rfl⟩
  exact (batch.covers replica temp).trans
    (by rw [sized.all replica (mem_of_find?_eq_some first)]; rfl)

/-- The block of the only operation with its key is kept and found again. -/
theorem tempHandles_of_only {read : StagedRead} (present : read ∈ reads)
    (only : ∀ other ∈ reads, other.op.key = read.op.key → other = read) :
    read ∈ tempHandles reads ∧ tempOf reads read.op.key = read.temp := by
  obtain ⟨other, kept, same⟩ : ∃ other ∈ tempHandles reads, other.op.key = read.op.key :=
    exists_mem_emplaceAll present
  have equal := only other (mem_of_mem_emplaceAll kept) same
  have found : ((tempHandles reads).find? fun other => other.op.key = read.op.key).isSome =
      true := by
    rw [find?_isSome]
    exact ⟨other, kept, by simpa using same⟩
  obtain ⟨first, search⟩ := Option.isSome_iff_exists.mp found
  have chosen := only first (mem_of_mem_emplaceAll (mem_of_find?_eq_some search))
    (by simpa using find?_some search)
  exact ⟨equal ▸ kept, by simp [tempOf, search, chosen]⟩

theorem mem_heldBlocks :
    address ∈ addresses (heldBlocks reads index) ↔
      ∃ read ∈ tempHandles reads, read.op.index = index ∧
        address ∈ List.range' read.temp read.op.totalSize := by
  simp only [heldBlocks, addresses, mem_flatMap, mem_map, mem_filter, decide_eq_true_eq]
  constructor
  · rintro ⟨_, ⟨read, ⟨kept, indexed⟩, rfl⟩, within⟩
    exact ⟨read, kept, indexed, within⟩
  · rintro ⟨read, kept, indexed, within⟩
    exact ⟨_, ⟨read, ⟨kept, indexed⟩, rfl⟩, within⟩

section Scatter

variable {call : Nat} {preferAllocInSameNode : Bool} {scatter : StagedRead → ReadOutcome}

variable {results : BatchReadCall}

theorem mem_scatterAll {outcome : ReadOutcome} :
    outcome ∈ scatterAll scatter reads results ↔
      ∃ (position : Nat) (read : StagedRead) (result : Expected Unit),
        reads[position]? = some read ∧ results.results[position]? = some result ∧
        outcome = match result with
          | .error error => { failures := [(read.op.index, error)] }
          | .ok () => scatter read := by
  unfold scatterAll
  rw [mem_map]
  constructor
  · rintro ⟨⟨read, result⟩, present, rfl⟩
    obtain ⟨position, found⟩ := mem_iff_getElem?.mp present
    rw [getElem?_zip_eq_some] at found
    exact ⟨position, read, result, found.1, found.2, rfl⟩
  · rintro ⟨position, read, result, found, replied, rfl⟩
    exact ⟨(read, result), mem_of_getElem? (getElem?_zip_eq_some.mpr ⟨found, replied⟩), rfl⟩

theorem mem_scatterAll_writes {write : Write}
    (written : write ∈ (scatterAll scatter reads results).flatMap ReadOutcome.writes) :
    ∃ read ∈ reads, write ∈ (scatter read).writes := by
  obtain ⟨outcome, scattered, made⟩ := mem_flatMap.mp written
  obtain ⟨position, read, result, found, replied, rfl⟩ := mem_scatterAll.mp scattered
  cases result with
  | error error => cases made
  | ok value => exact ⟨read, mem_of_getElem? found, made⟩

/-- A staged operation without a failure was transferred and copied. -/
theorem scatterAll_of_not_failed {read : StagedRead} (present : read ∈ reads)
    (fine : read.op.index ∉ ((scatterAll scatter reads (batchRead world call
      (reads.map StagedRead.op) preferAllocInSameNode)).flatMap
        ReadOutcome.failures).map Prod.fst) :
    read.op.index ∉ (batchFailures (reads.map StagedRead.op) (batchRead world call
        (reads.map StagedRead.op) preferAllocInSameNode)).map Prod.fst ∧
      read.op.index ∉ (scatter read).failures.map Prod.fst ∧
      ∀ write ∈ (scatter read).writes, write ∈ (scatterAll scatter reads (batchRead world call
        (reads.map StagedRead.op) preferAllocInSameNode)).flatMap ReadOutcome.writes := by
  have transferred : read.op.index ∉ (batchFailures (reads.map StagedRead.op)
      (batchRead world call (reads.map StagedRead.op) preferAllocInSameNode)).map
        Prod.fst := by
    intro failed
    obtain ⟨position, op, error, found, replied, indexed⟩ := mem_batchFailures.mp failed
    rw [getElem?_map] at found
    obtain ⟨other, listed, rfl⟩ := Option.map_eq_some_iff.mp found
    exact fine (mem_map.mpr ⟨(other.op.index, error), mem_flatMap.mpr
      ⟨_, mem_scatterAll.mpr ⟨position, other, .error error, listed, replied, rfl⟩,
        mem_singleton.mpr rfl⟩, indexed⟩)
  obtain ⟨position, found⟩ := mem_iff_getElem?.mp present
  have listed : (reads.map StagedRead.op)[position]? = some read.op := by simp [found]
  have scattered : scatter read ∈ scatterAll scatter reads (batchRead world call
      (reads.map StagedRead.op) preferAllocInSameNode) :=
    mem_scatterAll.mpr ⟨position, read, .ok (), found,
      batchRead_ok_of_not_failed listed transferred, rfl⟩
  refine ⟨transferred, fun failed => fine ?_, fun write made =>
    mem_flatMap.mpr ⟨_, scattered, made⟩⟩
  obtain ⟨failure, named, same⟩ := mem_map.mp failed
  exact mem_map.mpr ⟨failure, mem_flatMap.mpr ⟨_, scattered, named⟩, same⟩

end Scatter

/-! ## Reads from the owners of LOCAL_DISK objects -/

theorem transfer_ok_of_read_ok {answer : OffloadAnswer} {objects : Nat}
    (read : batchGetIntoOffloadObjectInternal answer objects = .ok ()) :
    ∃ response, answer.response = .ok response ∧ response.pointers = objects ∧
      answer.transfer = .ok () := by
  unfold batchGetIntoOffloadObjectInternal at read
  split at read
  · cases read
  · rename_i response replied
    split at read
    · cases read
    · rename_i counted
      split at read
      · cases read
      · rename_i transferred
        exact ⟨response, replied, by simpa using counted, transferred⟩

theorem mem_offloadEndpoint_writes {write : Write}
    (written : write ∈ (offloadEndpoint world endpoint objects).writes) :
    ∃ op ∈ objects, ∃ succeeded, write = transferWrite world op op.slices succeeded ∧
      (op.index ∉ (offloadEndpoint world endpoint objects).failures.map Prod.fst →
        succeeded = true) := by
  have made : write ∈ offloadWrites world (world.offload endpoint) objects := written
  unfold offloadWrites at made
  split at made
  · cases made
  · split at made
    · cases made
    · obtain ⟨op, present, rfl⟩ := mem_map.mp made
      refine ⟨op, present, _, rfl, fun fine => ?_⟩
      cases read : batchGetIntoOffloadObjectInternal (world.offload endpoint)
          objects.length with
      | ok value =>
        obtain ⟨-, -, -, transferred⟩ := transfer_ok_of_read_ok read
        rw [transferred]
        rfl
      | error error =>
        refine absurd (mem_map.mpr ⟨(op.index, error), ?_, rfl⟩) fine
        simp only [offloadEndpoint, read]
        exact mem_map.mpr ⟨op, present, rfl⟩

theorem exists_offloadEndpoint_write (present : op ∈ objects)
    (fine : op.index ∉ (offloadEndpoint world endpoint objects).failures.map Prod.fst) :
    transferWrite world op op.slices true ∈ (offloadEndpoint world endpoint objects).writes := by
  cases read : batchGetIntoOffloadObjectInternal (world.offload endpoint) objects.length with
  | ok value =>
    obtain ⟨response, replied, counted, transferred⟩ := transfer_ok_of_read_ok read
    simp only [offloadEndpoint, offloadWrites, replied, counted, ne_eq, not_true_eq_false,
      if_false, transferred]
    exact mem_map.mpr ⟨op, present, rfl⟩
  | error error =>
    refine absurd (mem_map.mpr ⟨(op.index, error), ?_, rfl⟩) fine
    simp only [offloadEndpoint, read]
    exact mem_map.mpr ⟨op, present, rfl⟩

section Offload

variable {pairs : List (String × ReadOp)}

theorem mem_offloadReads (outcome : ReadOutcome) :
    outcome ∈ offloadReads world pairs ↔
      ∃ endpoint op, (endpoint, op) ∈ pairs ∧ outcome = offloadEndpoint world endpoint
        (world.walk ReadOp.key (group (pairs.foldl appendTo ∅) endpoint)) := by
  unfold offloadReads
  simp only [mem_map, (world.order_perm _).mem_iff, ← AList.mem_keys, mem_foldl_appendTo]
  constructor
  · rintro ⟨endpoint, walked, rfl⟩
    obtain ⟨⟨_, op⟩, present, rfl⟩ := walked.resolve_left (by simp)
    exact ⟨_, op, present, rfl⟩
  · rintro ⟨endpoint, op, present, rfl⟩
    exact ⟨endpoint, .inr ⟨(endpoint, op), present, rfl⟩, rfl⟩

theorem mem_walk_group :
    op ∈ world.walk ReadOp.key (group (pairs.foldl appendTo ∅) endpoint) ↔
      (endpoint, op) ∈ pairs := by
  rw [World.mem_walk, group_foldl_appendTo]
  simp [group]

/-- Every write of the owners goes into the slices of its own operation; it
stores the object unless the operation is reported as failed. -/
theorem mem_offloadReads_writes {write : Write}
    (written : write ∈ (offloadReads world pairs).flatMap ReadOutcome.writes) :
    ∃ endpoint op, (endpoint, op) ∈ pairs ∧ ∃ succeeded,
      write = transferWrite world op op.slices succeeded ∧
      (op.index ∉ ((offloadReads world pairs).flatMap ReadOutcome.failures).map Prod.fst →
        succeeded = true) := by
  obtain ⟨outcome, read, made⟩ := mem_flatMap.mp written
  obtain ⟨endpoint, _, -, rfl⟩ := (mem_offloadReads outcome).mp read
  obtain ⟨op, present, succeeded, same, settled⟩ := mem_offloadEndpoint_writes made
  refine ⟨endpoint, op, mem_walk_group.mp present, succeeded, same,
    fun fine => settled fun failed => fine ?_⟩
  obtain ⟨failure, listed, named⟩ := mem_map.mp failed
  exact mem_map.mpr ⟨failure, mem_flatMap.mpr ⟨_, read, listed⟩, named⟩

theorem exists_offloadReads_write (present : (endpoint, op) ∈ pairs)
    (fine : op.index ∉ ((offloadReads world pairs).flatMap ReadOutcome.failures).map Prod.fst) :
    transferWrite world op op.slices true ∈
      (offloadReads world pairs).flatMap ReadOutcome.writes := by
  have read : offloadEndpoint world endpoint
      (world.walk ReadOp.key (group (pairs.foldl appendTo ∅) endpoint)) ∈
        offloadReads world pairs := (mem_offloadReads _).mpr ⟨endpoint, op, present, rfl⟩
  refine mem_flatMap.mpr ⟨_, read, exists_offloadEndpoint_write
    (mem_walk_group.mpr present) fun failed => fine ?_⟩
  obtain ⟨failure, listed, named⟩ := mem_map.mp failed
  exact mem_map.mpr ⟨failure, mem_flatMap.mpr ⟨_, read, listed⟩, named⟩

theorem mem_offloadReads_failures
    (failed : index ∈ ((offloadReads world pairs).flatMap ReadOutcome.failures).map Prod.fst) :
    ∃ endpoint op, (endpoint, op) ∈ pairs ∧ op.index = index ∧
      offloadResult world pairs endpoint ≠ .ok () := by
  obtain ⟨failure, listed, rfl⟩ := mem_map.mp failed
  obtain ⟨outcome, read, own⟩ := mem_flatMap.mp listed
  obtain ⟨endpoint, _, -, rfl⟩ := (mem_offloadReads outcome).mp read
  unfold offloadEndpoint at own
  dsimp only at own
  split at own
  · rename_i error refused
    obtain ⟨op, present, rfl⟩ := mem_map.mp own
    refine ⟨endpoint, op, mem_walk_group.mp present, rfl, ?_⟩
    rw [offloadResult, refused]
    exact fun impossible => nomatch impossible
  · cases own

end Offload

/-! ## The memory a transfer leaves -/

theorem transferWrite_value (distinct : (addresses slices).Nodup)
    (place : (addresses slices)[position]? = some address) {memory : Memory} :
    (transferWrite world op slices true).value memory address = world.object op.key position := by
  obtain ⟨inside, rfl⟩ := List.getElem?_eq_some_iff.mp place
  simp [transferWrite, distinct.idxOf_getElem]

theorem mem_transferWrite_domain (place : (addresses slices)[position]? = some address)
    (inObject : position < op.totalSize) :
    address ∈ (transferWrite world op slices succeeded).domain := by
  refine mem_of_getElem? (i := position) ?_
  simp [transferWrite, inObject, place]

theorem transferWrite_domain_of_empty (empty : op.totalSize = 0) :
    (transferWrite world op slices succeeded).domain = [] := by
  simp [transferWrite, empty]

theorem mem_addresses_of_mem_domain
    (inside : address ∈ (transferWrite world op slices succeeded).domain) :
    address ∈ addresses slices ∧ 0 < op.totalSize := by
  refine ⟨mem_of_mem_take inside, ?_⟩
  by_contra empty
  rw [transferWrite_domain_of_empty (Nat.eq_zero_of_not_pos empty)] at inside
  cases inside

/-- An address that only one successful transfer touches holds its byte. -/
theorem applyAll_transferred (distinct : (addresses slices).Nodup)
    (place : (addresses slices)[position]? = some address) (inObject : position < op.totalSize)
    {writes : List Write} (stored : transferWrite world op slices true ∈ writes)
    (only : ∀ write ∈ writes, address ∈ write.domain → write = transferWrite world op slices true) :
    applyAll writes world.memory address = world.object op.key position := by
  refine applyAll_eq_of_stored ?_ ⟨_, stored, mem_transferWrite_domain place inObject⟩
    world.memory
  intro write written touched memory
  rw [only write written touched, transferWrite_value distinct place]

/-! ## Two simple worlds -/

/-- Memory holds zeros and objects hold ones.  Transfers succeed when there is
a submitter; the owner at the given endpoint answers, every other one fails. -/
def plainWorld (transferSubmitter : Bool) (allocate : Nat → Option Nat)
    (offload : String → OffloadAnswer) : World where
  reader := { transferSubmitter := transferSubmitter, hotCache := false }
  answers := fun _ => willingAnswers
  allocate := allocate
  scatter := fun _ _ => .ok ()
  offload := offload
  order := id
  order_perm := List.Perm.refl
  memory := fun _ => 0
  object := fun _ _ => 1
  residue := fun _ memory => memory
  movedFrom := ⟨0, 0⟩

def unreachable : OffloadAnswer where
  response := .error .rpcFail
  transfer := .error .transferFail
  elapsedMs := 0

/-- No temporary block is given, and no owner answers. -/
abbrev bareWorld (transferSubmitter : Bool) : World :=
  plainWorld transferSubmitter (fun _ => none) fun _ => unreachable

variable (transferSubmitter : Bool) (allocate : Nat → Option Nat) (offload : String → OffloadAnswer)
  (call : Nat)

theorem plainWorld_willing : Willing (plainWorld true allocate offload).reader
      ((plainWorld true allocate offload).answers call) :=
  ⟨rfl, rfl, fun _ _ _ => rfl, fun _ _ => rfl⟩

theorem batchWrites_of_no_submitter (ops : List ReadOp) (preferAllocInSameNode : Bool) :
    batchWrites (plainWorld false allocate offload) ops
      (batchRead (plainWorld false allocate offload) call ops preferAllocInSameNode) = [] := by
  simp [batchWrites, batchRead, batchGet, plainWorld]

theorem offloadReads_unreachable (pairs : List (String × ReadOp)) :
    (offloadReads (plainWorld transferSubmitter allocate fun _ => unreachable) pairs).flatMap
      ReadOutcome.writes = [] := by
  rw [flatMap_eq_nil_iff]
  intro outcome read
  obtain ⟨endpoint, -, -, rfl⟩ := (mem_offloadReads outcome).mp read
  rfl

theorem plainWorld_fresh_of_none (size : Nat → Nat) (caller : Nat → List Nat) :
    (plainWorld transferSubmitter (fun _ => none) offload).Fresh size caller where
  apart := by
    intro index ptr given
    cases given
  separate := by
    intro first second ptr ptr' _ given
    cases given

/-- A success is reported for a key that nobody reads. -/
theorem not_indexCorrect_of_unread {batch : Batch} {capacity : Nat → Nat}
    {failures : List (Nat × ErrorCode)} {run : BatchRun} {target : Nat → List Slice}
    (present : planned ∈ plannedReads (batch.planWithin capacity) batch.keys)
    (nonempty : 0 < batch.objectSize planned.key) (fine : planned.index ∉ failures.map Prod.fst)
    (results : run.results = settledResults (batch.planWithin capacity) batch.keys failures)
    (writes : run.writes = []) :
    ¬ run.IndexCorrect batch (plainWorld transferSubmitter allocate offload) target := by
  intro correct
  obtain ⟨size, holds⟩ := correct.holds planned.index _ planned.key
    (results ▸ settledResults_of_not_failed planWithin_named present fine)
    (plannedWithin_sized present).1.keyed
  obtain ⟨address, -, byte⟩ := holds 0 (size ▸ nonempty)
  rw [writes] at byte
  exact absurd (show (0 : UInt8) = 1 from byte) (by decide)

/-- Two blocks of one size behind everything the caller gave. -/
def twoBlocks (first second bound size : Nat) (index : Nat) : Option Nat :=
  if index = first then some bound
  else if index = second then some (bound + size)
  else none

theorem twoBlocks_cases {bound size ptr : Nat}
    (given : twoBlocks first second bound size index = some ptr) :
    index = first ∧ ptr = bound ∨ index ≠ first ∧ index = second ∧ ptr = bound + size := by
  unfold twoBlocks at given
  split at given
  · cases given
    exact .inl ⟨‹_›, rfl⟩
  · split at given <;> cases given
    exact .inr ⟨‹_›, ‹_›, rfl⟩

theorem twoBlocks_fresh {bound size : Nat} {sizes : Nat → Nat} {caller : Nat → List Nat}
    (sized : sizes first = size) (sized' : sizes second = size)
    (above : ∀ index, ∀ address ∈ caller index, address < bound) (transferSubmitter : Bool)
    (offload : String → OffloadAnswer) :
    (plainWorld transferSubmitter (twoBlocks first second bound size) offload).Fresh
      sizes caller where
  apart := by
    intro index ptr given address inside other mine
    have below := above other address mine
    rw [mem_range'_1] at inside
    rcases twoBlocks_cases given with ⟨-, rfl⟩ | ⟨-, -, rfl⟩ <;> omega
  separate := by
    intro index index' ptr ptr' different given given' address inside inside'
    rw [mem_range'_1] at inside inside'
    rcases twoBlocks_cases given with ⟨rfl, rfl⟩ | ⟨-, rfl, rfl⟩
    · rcases twoBlocks_cases given' with ⟨rfl, rfl⟩ | ⟨-, rfl, rfl⟩ <;> omega
    · rcases twoBlocks_cases given' with ⟨rfl, rfl⟩ | ⟨-, rfl, rfl⟩ <;> omega

theorem exists_above (caller : Nat → List Nat) (count : Nat)
    (rest : ∀ index, count ≤ index → caller index = []) :
    ∃ bound, ∀ index, ∀ address ∈ caller index, address < bound := by
  refine ⟨((List.range count).flatMap caller).sum + 1, fun index address inside => ?_⟩
  have early : index < count := by
    by_contra late
    simp [rest index (Nat.le_of_not_lt late)] at inside
  have listed : address ∈ (List.range count).flatMap caller :=
    mem_flatMap.mpr ⟨index, mem_range.mpr early, inside⟩
  exact Nat.lt_succ_of_le (le_sum_of_mem listed)

/-! ## Memory given for an index -/

/-- Memory of the caller, or a block that the call holds. -/
def Given (target held : Nat → List Slice) (index address : Nat) : Prop :=
  address ∈ addresses (target index) ∨ address ∈ addresses (held index)

theorem given_unique {size : Nat → Nat} {target held : Nat → List Slice}
    (fresh : world.Fresh size fun index => addresses (target index))
    (separate : ∀ first second, first ≠ second → ∀ address ∈ addresses (target first),
      address ∉ addresses (target second))
    (allocated : ∀ index, ∀ address ∈ addresses (held index),
      ∃ ptr, world.allocate index = some ptr ∧ address ∈ List.range' ptr (size index))
    (own : Given target held first address) (other : Given target held second address) :
    first = second := by
  by_contra different
  rcases own with mine | block
  · rcases other with theirs | block
    · exact separate first second different address mine theirs
    · obtain ⟨ptr, given, inside⟩ := allocated second address block
      exact fresh.apart second ptr given address inside first mine
  · obtain ⟨ptr, given, inside⟩ := allocated first address block
    rcases other with theirs | block'
    · exact fresh.apart first ptr given address inside second theirs
    · obtain ⟨ptr', given', inside'⟩ := allocated second address block'
      exact fresh.separate first second ptr ptr' different given given' address inside inside'

end Mooncake.Read
