import Mooncake.Read.IntoCorrect

/-!
# What a collision does to a batch read into one buffer per key

For each kind of collision there is a world in which the read is not index
correct: the transfer of the first index goes into the buffer of the second,
or into a block that is no longer held, or a LOCAL_DISK success is reported for
a buffer that nobody writes.
-/

namespace Mooncake.Read

open Library.Indexed Library.Keyed Library.ByteMemory List

namespace IntoRequest

open IntoInquiry

variable {request : IntoRequest}

theorem diskReads_of_none {world : World} (none : ∀ index, world.allocate index = none) :
    request.diskReads world = [] := by
  rw [eq_nil_iff_forall_not_mem]
  intro read listed
  obtain ⟨planned, routed, prepared⟩ := mem_diskReads.mp listed
  have allocated := (prepareDisk_staged routed prepared).temp
  rw [none] at allocated
  cases allocated

theorem prepareDisk_of_allocated {world : World} {planned : Planned} {temp : Nat}
    (routed : planned ∈ request.routed .disk)
    (allocated : world.allocate planned.index = some temp) :
    ∃ read, request.prepareDisk world planned = .ok read := by
  obtain ⟨present, chosen⟩ := mem_routed.mp routed
  obtain ⟨replica, found⟩ := firstDiskReplica_isSome (planned_sized present).1.member
    (isDiskReplica_of_route chosen)
  simp [prepareDisk, found, allocated]

section Collisions

variable {first second : Planned}
  (aligned : request.aligned = true)
  (present : first ∈ request.planned) (other : second ∈ request.planned)
  (less : first.index < second.index) (same : first.key = second.key)
  (nonempty : 0 < request.objectSize first.key)

include aligned present other less same nonempty

/-- The transfer of the first index goes into the buffer of a later one. -/
theorem direct_collision (direct : first.route = .direct) (direct' : second.route = .direct) :
    ¬ (request.batchGetIntoInternal (bareWorld true)).IndexCorrect request.toBatch
      (bareWorld true) request.target := by
  intro correct
  rw [batchGetIntoInternal_of_accepted _ _ rfl aligned] at correct
  have routed := mem_routed.mpr ⟨present, direct⟩
  have routed' := mem_routed.mpr ⟨other, direct'⟩
  obtain ⟨source, ⟨listed, keyed, latest⟩, written⟩ :=
    @exists_batchWrite_of_willing _ 0 request.directOps false
      (plainWorld_willing (fun _ => none) (fun _ => unreachable) 0) _
      (mem_map_of_mem (f := request.directOp) routed) _
      (findFirstCompleteReplica_filterQueryResult first.query
        (planned_sized present).1.complete) (by simp)
  obtain ⟨last, routedLast, rfl⟩ := mem_map.mp listed
  have later : second.index ≤ last.index :=
    latest directOps_ordered _ (mem_map_of_mem (f := request.directOp) routed') same.symm
  have presentLast := (mem_routed.mp routedLast).1
  have keys : last.key = first.key := keyed
  have inObject : 0 < request.objectSize last.key := keys ▸ nonempty
  have moved : 0 < (request.directOp first).totalSize :=
    Nat.lt_of_lt_of_eq nonempty (planned_sized present).1.chosen.symm
  rcases correct.confined _ (mem_append_left _ (mem_append_left _ written)) _
    (mem_transferWrite_domain (directOp_place presentLast inObject) moved) with mine | block
  · have theirs := mem_of_getElem? (target_place presentLast inObject)
    rw [addresses_target] at mine theirs
    exact request.separate first.index last.index (by omega) _ mine theirs
  · rw [acceptedRun, diskReads_of_none fun _ => rfl] at block
    cases block

/-- The second LOCAL_DISK read is reported as a success and never made. -/
theorem localDisk_collision (stored : first.route = .localDisk)
    (stored' : second.route = .localDisk) :
    ¬ (request.batchGetIntoInternal (bareWorld false)).IndexCorrect request.toBatch
      (bareWorld false) request.target := by
  intro correct
  rw [batchGetIntoInternal_of_accepted _ _ rfl aligned] at correct
  have routed := mem_routed.mpr ⟨present, stored⟩
  have routed' := mem_routed.mpr ⟨other, stored'⟩
  have noDisk : request.diskReads (bareWorld false) = [] := diskReads_of_none fun _ => rfl
  have writes : (request.acceptedRun (bareWorld false)).writes = [] := by
    simp [acceptedRun, directCall, diskCall, batchWrites_of_no_submitter, scattered,
      scatterAll, noDisk, offloadReads_unreachable]
  have untouched : second.index ∉ (request.failures (bareWorld false)).map Prod.fst := by
    simp only [failures, map_append, mem_append, not_or]
    refine ⟨⟨⟨fun failed => ?_, fun failed => ?_⟩, by simp [scattered, scatterAll, noDisk]⟩,
      fun failed => ?_⟩
    · obtain ⟨position, op, error, found, -, indexed⟩ := mem_batchFailures.mp failed
      obtain ⟨planned, direct, rfl⟩ := mem_map.mp (mem_of_getElem? found)
      cases (routed_unique direct routed' indexed).2
    · obtain ⟨planned, disk, indexed, -⟩ := mem_prepareFailures failed
      cases (routed_unique disk routed' indexed).2
    · obtain ⟨endpoint, op, paired, indexed, -⟩ := mem_offloadReads_failures failed
      obtain ⟨planned, routedOwn, rfl⟩ := mem_localDiskOps (mem_offloadPairs.mp paired).1
      rw [(routed_unique routedOwn routed' indexed).1] at paired
      have ordered : Ordered ((request.routed .localDisk).map request.localDiskOp) :=
        pairwise_map.mpr (routed_ordered)
      have earliest : second.index ≤ first.index :=
        rank_le_of_mem_emplaceAll ordered (mem_offloadPairs.mp paired).1
          (mem_map_of_mem (f := request.localDiskOp) routed) same
      omega
  exact not_indexCorrect_of_unread _ _ _ other (same ▸ nonempty) untouched rfl writes correct

/-! ## Two temporary blocks for one key -/

/-- The slices of a DISK key lead to the block of the last index, which the
temporary handles do not keep. -/
theorem disk_collision {world : World} (connected : world.connected = true)
    (willing : Willing world.reader (world.answers 1))
    (fresh : world.Fresh request.sizeAt fun index => addresses (request.target index))
    (routed : first ∈ request.routed .disk) (routed' : second ∈ request.routed .disk)
    {read read' : StagedRead} (prepared : request.prepareDisk world first = .ok read)
    (prepared' : request.prepareDisk world second = .ok read')
    (readable : first.ReadableDisk ∨ second.ReadableDisk) :
    ¬ (request.batchGetIntoInternal world).IndexCorrect request.toBatch world
      request.target := by
  intro correct
  rw [batchGetIntoInternal_of_accepted _ _ connected aligned] at correct
  have listed := mem_diskReads.mpr ⟨first, routed, prepared⟩
  have listed' := mem_diskReads.mpr ⟨second, routed', prepared'⟩
  have staged := prepareDisk_staged routed prepared
  have staged' := prepareDisk_staged routed' prepared'
  obtain ⟨reader, started, planned, listedOwn, own, keyed, replica, found, complete⟩ :
      ∃ reader ∈ request.diskReads world, ∃ planned ∈ request.planned,
        Staged request.toBatch world planned reader ∧ planned.key = first.key ∧
          planned.ReadableDisk := by
    rcases readable with can | can
    · exact ⟨read, listed, first, present, staged, rfl, can⟩
    · exact ⟨read', listed', second, other, staged', same.symm, can⟩
  have startable : findFirstCompleteReplica reader.op.query.replicas = .ok replica := by
    obtain ⟨replica', found', queried⟩ := own.source
    rw [found, Option.some.injEq] at found'
    rw [queried, ← found']
    exact findFirstCompleteReplica_filterQueryResult _ complete
  obtain ⟨source, ⟨sourced, shared, latest⟩, written⟩ :=
    @exists_batchWrite_of_willing _ 1 _ false willing reader.op
      (mem_map_of_mem started) replica startable (by simp)
  obtain ⟨last, listedLast, rfl⟩ := mem_map.mp sourced
  obtain ⟨plannedLast, routedLast, preparedLast⟩ := mem_diskReads.mp listedLast
  have stagedLast := prepareDisk_staged routedLast preparedLast
  have later := latest (pairwise_map.mpr diskReads_ordered) read'.op
    (mem_map_of_mem listed') (by rw [staged'.key, own.key, keyed, same])
  have keyLast : plannedLast.key = first.key := by rw [← stagedLast.key, shared, own.key, keyed]
  have block : last.temp ∈ List.range' last.temp (request.sizeAt plannedLast.index) := by
    rw [(planned_sized (mem_routed.mp routedLast).1).1.sizeAt, keyLast, mem_range'_1]
    omega
  have place : (addresses last.op.slices)[0]? = some last.temp := by
    rw [stagedLast.slices, keyLast, getElem?_range' nonempty]
    rfl
  rcases correct.confined _ (mem_append_left _ (mem_append_right _ written)) _
    (mem_transferWrite_domain place (by rw [own.size, keyed]; exact nonempty)) with mine | held
  · exact fresh.apart _ _ stagedLast.temp _ block _ mine
  · obtain ⟨handle, kept, indexed, inside⟩ := mem_heldBlocks.mp held
    obtain rfl := eq_of_index_eq diskReads_ordered (mem_of_mem_emplaceAll kept) started indexed
    have earliest := rank_le_of_mem_emplaceAll diskReads_ordered kept listed
      (by rw [staged.key, own.key, keyed])
    rw [own.index, staged.index] at earliest
    rw [staged'.index, stagedLast.index] at later
    refine fresh.separate planned.index plannedLast.index _ _ (by omega) own.temp stagedLast.temp
      _ ?_ block
    rwa [(planned_sized listedOwn).1.sizeAt, ← own.size]

end Collisions

theorem exists_above_target (request : IntoRequest) :
    ∃ bound, ∀ index, ∀ address ∈ addresses (request.target index), address < bound := by
  refine exists_above _ request.sizes.length fun index outside => ?_
  rw [addresses_target]
  simp [getElem?_eq_none outside]

/-- A read that is index correct in every world has no collision. -/
theorem apart_of_indexCorrect {request : IntoRequest}
    (correct : ∀ world : World,
      world.Fresh request.sizeAt (fun index => addresses (request.target index)) →
        (request.batchGetIntoInternal world).IndexCorrect request.toBatch world
          request.target) : request.Apart := by
  intro aligned first present second other less same nonempty collide
  unfold Collide at collide
  split at collide
  · rename_i direct direct'
    exact direct_collision aligned present other less same nonempty direct direct'
      (correct _ (plainWorld_fresh_of_none ..))
  · rename_i stored stored'
    exact localDisk_collision aligned present other less same nonempty stored stored'
      (correct _ (plainWorld_fresh_of_none ..))
  · rename_i disk disk'
    obtain ⟨bound, above⟩ := exists_above_target request
    let world := plainWorld true
      (twoBlocks first.index second.index bound (request.objectSize first.key)) fun _ => unreachable
    have fresh : world.Fresh request.sizeAt fun index => addresses (request.target index) :=
      twoBlocks_fresh (planned_sized present).1.sizeAt (same ▸ (planned_sized other).1.sizeAt)
        above true fun _ => unreachable
    have block : world.allocate first.index = some bound := if_pos rfl
    have block' : world.allocate second.index = some (bound + request.objectSize first.key) :=
      (if_neg (Nat.ne_of_gt less)).trans (if_pos rfl)
    have routed := mem_routed.mpr ⟨present, disk⟩
    have routed' := mem_routed.mpr ⟨other, disk'⟩
    obtain ⟨read, prepared⟩ := prepareDisk_of_allocated routed block
    obtain ⟨read', prepared'⟩ := prepareDisk_of_allocated routed' block'
    exact disk_collision aligned present other less same nonempty rfl (plainWorld_willing ..)
      fresh routed routed' prepared prepared' collide (correct _ fresh)
  · exact collide

end IntoRequest

end Mooncake.Read
