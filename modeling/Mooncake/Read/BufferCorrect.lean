import Mathlib.Data.List.Flatten
import Mooncake.Read.Buffer

/-!
# Index correctness of batch reads into new blocks

Two indices of one non-empty object collide when both are read by `BatchGet` or
both from an owner.  Without a collision every handle leads to the bytes of its
object.
-/

namespace Mooncake.Read

open Library.Indexed Library.Keyed Library.ByteMemory List

/-! ## Handles after the reads of the owners -/

variable {world : World} {ops : List BufferOp}

variable {moved : List Nat} {handle : Option Handle} {pairs : List (String × ReadOp)}

theorem mem_moveHandles {index : Nat} (assigned : (index, handle) ∈ moveHandles world ops moved) :
    ∃ op ∈ ops, op.planned.index = index ∧
      (handle = some op.handle ∨ handle = some world.movedFrom) := by
  induction ops generalizing moved with
  | nil => cases assigned
  | cons op rest ih =>
    rcases mem_cons.mp assigned with own | later
    · cases own
      refine ⟨op, mem_cons_self, rfl, ?_⟩
      by_cases again : op.planned.index ∈ moved <;> simp [again]
    · obtain ⟨other, present, shape⟩ := ih later
      exact ⟨other, mem_cons_of_mem _ present, shape⟩

theorem exists_mem_moveHandles {op : BufferOp} (present : op ∈ ops) (moved : List Nat) :
    op.planned.index ∈ (moveHandles world ops moved).map Prod.fst := by
  induction ops generalizing moved with
  | nil => cases present
  | cons first rest ih =>
    rcases mem_cons.mp present with rfl | later
    · exact mem_cons_self
    · exact mem_cons_of_mem _ (ih later _)

theorem handle_of_mem_moveHandles (distinct : (ops.map fun op => op.planned.index).Nodup)
    (unmoved : ∀ op ∈ ops, op.planned.index ∉ moved) {index : Nat}
    (assigned : (index, handle) ∈ moveHandles world ops moved) :
    ∃ op ∈ ops, op.planned.index = index ∧ handle = some op.handle := by
  induction ops generalizing moved with
  | nil => cases assigned
  | cons op rest ih =>
    rw [map_cons, nodup_cons] at distinct
    rcases mem_cons.mp assigned with own | later
    · cases own
      refine ⟨op, mem_cons_self, rfl, ?_⟩
      rw [if_neg (unmoved op mem_cons_self)]
    · obtain ⟨other, present, shape⟩ := ih distinct.2 (by
        intro other present
        rw [mem_cons, not_or]
        exact ⟨fun same => distinct.1 (mem_map.mpr ⟨other, present, same⟩),
          unmoved other (mem_cons_of_mem _ present)⟩) later
      exact ⟨other, mem_cons_of_mem _ present, shape⟩

theorem mem_offloadedKeys {key : ObjectKey} :
    key ∈ offloadedKeys world pairs ↔
      ∃ endpoint read, (endpoint, read) ∈ pairs ∧ read.key = key ∧
        offloadResult world pairs endpoint = .ok () := by
  unfold offloadedKeys
  simp only [mem_flatMap, (world.order_perm _).mem_iff]
  constructor
  · rintro ⟨endpoint, -, listed⟩
    split at listed
    · cases listed
    · rename_i answered
      obtain ⟨read, walked, rfl⟩ := mem_map.mp listed
      exact ⟨endpoint, read, mem_walk_group.mp walked, rfl, answered⟩
  · rintro ⟨endpoint, read, present, rfl, answered⟩
    refine ⟨endpoint, ?_, ?_⟩
    · rw [← AList.mem_keys, mem_foldl_appendTo]
      exact .inr (mem_map.mpr ⟨(endpoint, read), present, rfl⟩)
    · rw [answered]
      exact mem_map_of_mem (mem_walk_group.mpr present)

theorem offloadedKeys_nodup (distinct : (pairs.map fun pair => pair.2.key).Nodup) :
    (offloadedKeys world pairs).Nodup := by
  have grouped : ∀ endpoint,
      ((group (pairs.foldl appendTo ∅) endpoint).map ReadOp.key).Nodup := by
    intro endpoint
    rw [group_foldl_appendTo]
    refine distinct.sublist ?_
    simpa [group, Function.comp_def] using
      filter_sublist.map fun pair : String × ReadOp => pair.2.key
  have all : ((world.order (pairs.foldl appendTo (∅ : Groups String ReadOp)).keys).flatMap
      fun endpoint => (world.walk ReadOp.key (group (pairs.foldl appendTo ∅) endpoint)).map
        ReadOp.key).Perm (pairs.map fun pair => pair.2.key) := by
    refine (List.Perm.flatMap_left _ fun endpoint _ =>
      (world.walk_perm (grouped endpoint)).map ReadOp.key).trans ?_
    rw [← map_flatMap]
    simpa [Function.comp_def] using
      (flatMap_group_perm pairs (world.order_perm _)).map ReadOp.key
  refine (all.nodup_iff.mpr distinct).sublist (List.Sublist.flatMap_right _ ?_)
  intro endpoint _
  split
  · exact nil_sublist _
  · exact List.Sublist.refl _

namespace Batch

open Inquiry

variable {batch : Batch}

/-! ## Operations -/

theorem chosen_sized {planned : Planned} (present : planned ∈ batch.chosenReads) :
    Sized batch planned := by
  obtain ⟨keyed, chosen⟩ := (mem_plannedReads choose_named).mp present
  exact Sized.of_choose keyed chosen

variable {op first second : BufferOp}

theorem mem_bufferOps :
    op ∈ batch.bufferOps world ↔
      op.planned ∈ batch.chosenReads ∧ 0 < op.handle.size ∧
        op.handle.size = totalSize op.planned.replica ∧
        world.allocate op.planned.index = some op.handle.ptr := by
  unfold bufferOps allocateBuffer
  rw [mem_filterMap]
  constructor
  · rintro ⟨planned, present, made⟩
    split at made
    · cases made
    · obtain ⟨ptr, allocated, rfl⟩ := Option.map_eq_some_iff.mp made
      exact ⟨present, Nat.pos_of_ne_zero ‹_›, rfl, allocated⟩
  · rintro ⟨present, nonempty, size, allocated⟩
    refine ⟨op.planned, present, ?_⟩
    rw [← size, if_neg (Nat.ne_of_gt nonempty), allocated]
    rfl

theorem bufferOps_ordered : (batch.bufferOps world).Pairwise
    fun before after => before.planned.index < after.planned.index := by
  have own : ∀ {planned : Planned} {op : BufferOp},
      allocateBuffer world planned = some op → op.planned = planned := by
    intro planned op made
    unfold allocateBuffer at made
    split at made
    · cases made
    · obtain ⟨ptr, -, rfl⟩ := Option.map_eq_some_iff.mp made
      rfl
  unfold bufferOps
  rw [pairwise_filterMap]
  refine (plannedReads_ordered choose_named batch.keys).imp ?_
  intro before after earlier first made second made'
  rw [own made, own made']
  exact earlier

theorem bufferOp_unique (present : first ∈ batch.bufferOps world)
    (other : second ∈ batch.bufferOps world) (same : first.planned.index = second.planned.index) :
    first = second :=
  @eq_of_index_eq _ (fun op : BufferOp => op.planned.index) _ bufferOps_ordered _ _ present
    other same

theorem mem_validOps : op ∈ batch.validOps world ↔
    op ∈ batch.bufferOps world ∧ op.planned.route ≠ .localDisk := by
  simp [validOps]

theorem mem_diskOps : op ∈ batch.diskOps world ↔
    op ∈ batch.bufferOps world ∧ op.planned.route = .localDisk := by
  simp [diskOps]

theorem op_sized (present : op ∈ batch.bufferOps world) :
    Sized batch op.planned ∧ op.handle.size = batch.objectSize op.planned.key := by
  obtain ⟨chosen, -, size, -⟩ := mem_bufferOps.mp present
  have sized := chosen_sized chosen
  exact ⟨sized, size.trans sized.chosen⟩

theorem addresses_diskRead (op : BufferOp) :
    addresses (diskRead op).slices = List.range' op.handle.ptr op.handle.size := by
  simp [addresses, diskRead]

theorem transferWrite_validRead (present : op ∈ batch.bufferOps world) (succeeded : Bool) :
    transferWrite world (batch.validRead op) (batch.validRead op).slices succeeded =
      transferWrite world (diskRead op) (diskRead op).slices succeeded := by
  have same : addresses (batch.validRead op).slices = addresses (diskRead op).slices := by
    rw [addresses_diskRead, (mem_bufferOps.mp present).2.2.1]
    exact batch.covers _ _
  unfold transferWrite
  rw [same]
  rfl

theorem validReads_ordered : Ordered (batch.validReads world) :=
  pairwise_map.mpr (bufferOps_ordered.sublist filter_sublist)

theorem mem_offloadPairs {endpoint : String} {read : ReadOp}
    (kept : (endpoint, read) ∈ batch.offloadPairs world) :
    ∃ op ∈ batch.diskOps world, read = diskRead op ∧
      localDiskEndpoint (diskRead op).query = some endpoint := by
  obtain ⟨op, present, made⟩ := mem_filterMap.mp (mem_of_mem_emplaceAll kept)
  obtain ⟨_, found, same⟩ := Option.map_eq_some_iff.mp made
  cases same
  exact ⟨op, present, rfl, found⟩

theorem mem_settledOps (settled : op ∈ batch.settledOps world) :
    op ∈ batch.diskOps world ∧
      ∃ endpoint read, (endpoint, read) ∈ batch.offloadPairs world ∧
        read.key = op.planned.key ∧
        offloadResult world (batch.offloadPairs world) endpoint = .ok () := by
  obtain ⟨key, offloaded, found⟩ := mem_filterMap.mp settled
  obtain ⟨value, listed, rfl, rfl, -⟩ := mem_of_lookup_assignAll found
  exact ⟨mem_of_mem_filter listed, mem_offloadedKeys.mp offloaded⟩

/-! ## Without a collision -/

/-- No two indices of one non-empty object are read in the same way. -/
def NoCollision (batch : Batch) : Prop :=
  ∀ first ∈ batch.chosenReads, ∀ second ∈ batch.chosenReads, first.index < second.index →
    first.key = second.key → 0 < batch.objectSize first.key →
      ¬ (first.route = .localDisk ↔ second.route = .localDisk)

variable (apart : batch.NoCollision)

include apart

theorem NoCollision.eq_of_route (present : first ∈ batch.bufferOps world)
    (other : second ∈ batch.bufferOps world) (same : first.planned.key = second.planned.key)
    (routed : first.planned.route = .localDisk ↔ second.planned.route = .localDisk) :
    first = second := by
  have chosen := (mem_bufferOps.mp present).1
  have chosen' := (mem_bufferOps.mp other).1
  have nonempty : 0 < batch.objectSize first.planned.key :=
    (op_sized present).2 ▸ (mem_bufferOps.mp present).2.1
  rcases Nat.lt_trichotomy first.planned.index second.planned.index with less | equal | greater
  · exact absurd routed (apart _ chosen _ chosen' less same nonempty)
  · exact bufferOp_unique present other equal
  · exact absurd routed.symm (apart _ chosen' _ chosen greater same.symm (same ▸ nonempty))

theorem NoCollision.eq_of_disk (present : first ∈ batch.diskOps world)
    (other : second ∈ batch.diskOps world) (same : first.planned.key = second.planned.key) :
    first = second := by
  obtain ⟨listed, route⟩ := mem_diskOps.mp present
  obtain ⟨listed', route'⟩ := mem_diskOps.mp other
  exact apart.eq_of_route listed listed' same (by simp [route, route'])

theorem NoCollision.eq_of_lastOf (present : op ∈ batch.validOps world) {source : ReadOp}
    (lastOf : LastOf (batch.validReads world) (batch.validRead op) source) :
    source = batch.validRead op := by
  obtain ⟨sourced, same, -⟩ := lastOf
  obtain ⟨other, present', rfl⟩ := mem_map.mp sourced
  obtain ⟨listed, route⟩ := mem_validOps.mp present
  obtain ⟨listed', route'⟩ := mem_validOps.mp present'
  rw [apart.eq_of_route listed' listed same (by simp [route, route'])]

theorem NoCollision.offloadPairs_distinct :
    ((batch.offloadPairs world).map fun pair => pair.2.key).Nodup := by
  refine pairwise_map.mpr (List.Pairwise.sublist (emplaceAll_sublist _) ?_)
  rw [pairwise_filterMap]
  have ordered : (batch.diskOps world).Pairwise
      fun before after => before.planned.index < after.planned.index :=
    bufferOps_ordered.sublist filter_sublist
  refine ordered.imp_of_mem ?_
  intro before after present present' earlier pair made pair' made' same
  obtain ⟨_, -, rfl⟩ := Option.map_eq_some_iff.mp made
  obtain ⟨_, -, rfl⟩ := Option.map_eq_some_iff.mp made'
  rw [apart.eq_of_disk present present' same] at earlier
  exact Nat.lt_irrefl _ earlier

theorem NoCollision.settledOps_distinct :
    ((batch.settledOps world).map fun op => op.planned.index).Nodup := by
  refine pairwise_map.mpr ?_
  unfold settledOps
  rw [pairwise_filterMap]
  refine (offloadedKeys_nodup apart.offloadPairs_distinct).imp ?_
  intro key key' different op found op' found' same
  obtain ⟨value, listed, rfl, rfl, -⟩ := mem_of_lookup_assignAll found
  obtain ⟨value', listed', rfl, rfl, -⟩ := mem_of_lookup_assignAll found'
  have equal := bufferOp_unique (mem_diskOps.mp (mem_of_mem_filter listed)).1
    (mem_diskOps.mp (mem_of_mem_filter listed')).1 same
  exact different (by rw [equal])

theorem NoCollision.valid_write {write : Write}
    (written : write ∈ batchWrites world (batch.validReads world) (batch.validCall world)) :
    ∃ op ∈ batch.validOps world, ∃ succeeded,
      write = transferWrite world (diskRead op) (diskRead op).slices succeeded ∧
      (op.planned.index ∉ (batchFailures (batch.validReads world)
        (batch.validCall world)).map Prod.fst → succeeded = true) := by
  obtain ⟨read, present, source, succeeded, lastOf, rfl, -, settled⟩ := mem_batchWrites written
  obtain ⟨op, listed, rfl⟩ := mem_map.mp present
  rw [apart.eq_of_lastOf listed lastOf,
    transferWrite_validRead (mem_validOps.mp listed).1 succeeded]
  exact ⟨op, listed, succeeded, rfl, settled⟩

omit apart in
theorem disk_write {write : Write}
    (written : write ∈ (offloadReads world (batch.offloadPairs world)).flatMap
      ReadOutcome.writes) :
    ∃ op ∈ batch.diskOps world, ∃ succeeded,
      write = transferWrite world (diskRead op) (diskRead op).slices succeeded ∧
      (op.planned.index ∉ ((offloadReads world (batch.offloadPairs world)).flatMap
        ReadOutcome.failures).map Prod.fst → succeeded = true) := by
  obtain ⟨endpoint, read, paired, succeeded, rfl, settled⟩ := mem_offloadReads_writes written
  obtain ⟨op, listed, rfl, -⟩ := mem_offloadPairs paired
  exact ⟨op, listed, succeeded, rfl, settled⟩

omit apart in
theorem valid_fine {position : Nat} (found : (batch.validOps world)[position]? = some op)
    (success : (batch.validCall world).results[position]? = some (.ok ())) :
    op.planned.index ∉ (batchFailures (batch.validReads world)
      (batch.validCall world)).map Prod.fst := by
  intro failed
  obtain ⟨position', read, error, found', replied, indexed⟩ := mem_batchFailures.mp failed
  have own : (batch.validReads world)[position]? = some (batch.validRead op) := by
    simp [validReads, found]
  have same : position' = position := validReads_ordered.position_unique found' own indexed
  rw [same, success] at replied
  cases replied

theorem NoCollision.disk_fine (settled : op ∈ batch.settledOps world) :
    op.planned.index ∉ ((offloadReads world (batch.offloadPairs world)).flatMap
        ReadOutcome.failures).map Prod.fst ∧
      transferWrite world (diskRead op) (diskRead op).slices true ∈
        (offloadReads world (batch.offloadPairs world)).flatMap ReadOutcome.writes := by
  obtain ⟨listed, endpoint, read, paired, same, answered⟩ := mem_settledOps settled
  obtain ⟨other, listed', rfl, found⟩ := mem_offloadPairs paired
  have equal := apart.eq_of_disk listed' listed same
  subst equal
  have fine : other.planned.index ∉ ((offloadReads world (batch.offloadPairs world)).flatMap
      ReadOutcome.failures).map Prod.fst := by
    intro failed
    obtain ⟨endpoint', read', paired', indexed, refused⟩ := mem_offloadReads_failures failed
    obtain ⟨op', present', rfl, found'⟩ := mem_offloadPairs paired'
    have equal := bufferOp_unique (mem_diskOps.mp present').1 (mem_diskOps.mp listed).1 indexed
    rw [equal, found, Option.some.injEq] at found'
    exact refused (found' ▸ answered)
  exact ⟨fine, exists_offloadReads_write paired fine⟩

omit apart in
def Succeeded (batch : Batch) (world : World) (op : BufferOp) : Prop :=
  op ∈ batch.validOps world ∧ op.planned.index ∉
      (batchFailures (batch.validReads world) (batch.validCall world)).map Prod.fst ∨
    op ∈ batch.settledOps world

section Clean

variable (fresh : world.Fresh batch.sizeAt fun _ => [])

include apart

theorem written_block {write : Write}
    (written : write ∈ batchWrites world (batch.validReads world) (batch.validCall world) ++
      (offloadReads world (batch.offloadPairs world)).flatMap ReadOutcome.writes) :
    ∃ op ∈ batch.bufferOps world, ∃ succeeded,
      write = transferWrite world (diskRead op) (diskRead op).slices succeeded ∧
      (batch.Succeeded world op → succeeded = true) := by
  rcases mem_append.mp written with sent | offloaded
  · obtain ⟨op, listed, succeeded, rfl, settled⟩ := apart.valid_write sent
    refine ⟨op, (mem_validOps.mp listed).1, succeeded, rfl, ?_⟩
    rintro (⟨-, fine⟩ | late)
    · exact settled fine
    · exact absurd (mem_diskOps.mp (mem_settledOps late).1).2 (mem_validOps.mp listed).2
  · obtain ⟨op, listed, succeeded, rfl, settled⟩ := disk_write offloaded
    refine ⟨op, (mem_diskOps.mp listed).1, succeeded, rfl, ?_⟩
    rintro (⟨direct, -⟩ | late)
    · exact absurd (mem_diskOps.mp listed).2 (mem_validOps.mp direct).2
    · exact settled (apart.disk_fine late).1

include fresh

theorem block_holds {op : BufferOp} (present : op ∈ batch.bufferOps world)
    (fine : batch.Succeeded world op)
    (stored : transferWrite world (diskRead op) (diskRead op).slices true ∈
      batchWrites world (batch.validReads world) (batch.validCall world) ++
        (offloadReads world (batch.offloadPairs world)).flatMap ReadOutcome.writes) :
    op.handle.size = batch.objectSize op.planned.key ∧
      Holds (applyAll (batchWrites world (batch.validReads world) (batch.validCall world) ++
        (offloadReads world (batch.offloadPairs world)).flatMap ReadOutcome.writes)
          world.memory)
        (List.range' op.handle.ptr op.handle.size) op.handle.size
        (world.object op.planned.key) := by
  refine ⟨(op_sized present).2, fun position inObject => ⟨op.handle.ptr + position, ?_, ?_⟩⟩
  · rw [getElem?_range' inObject, Nat.one_mul]
  · refine applyAll_transferred ?_ ?_ inObject stored ?_
    · rw [addresses_diskRead]
      exact nodup_range'
    · rw [addresses_diskRead, getElem?_range' inObject, Nat.one_mul]
    · intro write written touched
      obtain ⟨other, listed, succeeded, rfl, settled⟩ := written_block apart written
      have inside := (mem_addresses_of_mem_domain touched).1
      rw [addresses_diskRead] at inside
      have equal : other = op := by
        by_contra different
        have apartIndex : other.planned.index ≠ op.planned.index :=
          fun same => different (bufferOp_unique listed present same)
        obtain ⟨-, -, -, allocated⟩ := mem_bufferOps.mp listed
        obtain ⟨-, -, -, allocated'⟩ := mem_bufferOps.mp present
        refine fresh.separate _ _ _ _ apartIndex allocated allocated'
          (op.handle.ptr + position) ?_ ?_
        · rwa [(op_sized listed).1.sizeAt, ← (op_sized listed).2]
        · rw [(op_sized present).1.sizeAt, ← (op_sized present).2, mem_range'_1]
          omega
      subst equal
      rw [settled fine]

end Clean

/-- Without a collision the read is index correct in every world. -/
theorem NoCollision.indexCorrect (fresh : world.Fresh batch.sizeAt fun _ => []) :
    (batch.batchGetBufferInternal world).IndexCorrect batch world := by
  unfold batchGetBufferInternal
  split
  · refine ⟨fun index handle key success => ?_, by simp⟩
    cases eq_of_mem_map_const (mem_of_getElem? success)
  · refine ⟨fun index handle key success keyed => ?_, fun write written address inside => ?_⟩
    · have own : ∀ {op : BufferOp}, op ∈ batch.bufferOps world → op.planned.index = index →
          op.planned.key = key := by
        rintro op present rfl
        rw [(op_sized present).1.keyed, Option.some.injEq] at keyed
        exact keyed
      rcases getElem?_assignAt_cases success with ⟨-, preset⟩ | assigned
      · cases eq_of_mem_map_const (mem_of_getElem? preset)
      · rcases mem_append.mp assigned with direct | moved
        · obtain ⟨⟨op, result⟩, paired, made⟩ := mem_filterMap.mp direct
          cases result with
          | error error => cases made
          | ok value =>
            cases made
            obtain ⟨position, found⟩ := mem_iff_getElem?.mp paired
            rw [getElem?_zip_eq_some] at found
            have listed := mem_of_getElem? found.1
            have present := (mem_validOps.mp listed).1
            have fine := valid_fine found.1 found.2
            obtain ⟨source, lastOf, -, written⟩ :=
              exists_batchWrite (mem_map_of_mem (f := batch.validRead) listed) fine
            rw [apart.eq_of_lastOf listed lastOf, transferWrite_validRead present true] at written
            rw [← own present rfl]
            exact block_holds apart fresh present (.inl ⟨listed, fine⟩)
              (mem_append_left _ written)
        · obtain ⟨op, settled, indexed, same⟩ := handle_of_mem_moveHandles
            apart.settledOps_distinct (by simp) moved
          cases same
          have present := (mem_diskOps.mp (mem_settledOps settled).1).1
          rw [← own present indexed]
          exact block_holds apart fresh present (.inr settled)
            (mem_append_right _ (apart.disk_fine settled).2)
    · obtain ⟨op, present, succeeded, rfl, -⟩ := written_block apart written
      have block := (mem_addresses_of_mem_domain inside).1
      rw [addresses_diskRead] at block
      refine mem_flatMap.mpr ⟨⟨op.handle.ptr, op.handle.size⟩, ?_, block⟩
      exact mem_map.mpr ⟨op, mem_filter.mpr ⟨present, by simp [transferWrite, diskRead]⟩,
        rfl⟩

end Batch

end Mooncake.Read
