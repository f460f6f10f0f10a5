import Mooncake.Read.MultiCorrect

/-!
# What a collision does to a batch read into several buffers per key

The transfer of the first of two direct reads goes into the buffers of the
second.  The second of two stored reads is reported as a success although
nobody reads it.
-/

namespace Mooncake.Read

open Library.Indexed Library.Keyed Library.ByteMemory List

theorem nonemptyBuffer_of_memory {replica : Replica} (memory : replica.isMemoryReplica = true)
    (nonempty : 0 < totalSize replica) :
    ∃ buffer, replica.descriptor = .memory buffer ∧ buffer.size ≠ 0 := by
  unfold Replica.isMemoryReplica at memory
  split at memory
  · rename_i buffer shape
    refine ⟨buffer, shape, ?_⟩
    rintro empty
    simp [totalSize, shape, empty] at nonempty
  · cases memory

namespace MultiRequest

open MultiInquiry

variable {request : MultiRequest}

theorem diskReads_of_none {world : World} (none : ∀ index, world.allocate index = none) :
    request.diskReads world = [] := by
  rw [eq_nil_iff_forall_not_mem]
  intro read listed
  obtain ⟨planned, -, -, staged⟩ := staged_of_mem listed
  have allocated := staged.temp
  rw [none] at allocated
  cases allocated

section Collisions

variable {first second : Planned}
  (aligned : request.aligned = true)
  (present : first ∈ request.planned) (other : second ∈ request.planned)
  (less : first.index < second.index) (same : first.key = second.key)
  (nonempty : 0 < request.objectSize first.key)

include aligned present other less same nonempty

/-- The transfer of the first index goes into the buffers of a later one. -/
theorem direct_collision (direct : first.route = .direct) (direct' : second.route = .direct)
    (nearby : request.preferAllocInSameNode = true → first.replica.isMemoryReplica = true) :
    ¬ (request.batchGetIntoMultiBuffersInternal (bareWorld true)).IndexCorrect request.toBatch
      (bareWorld true) request.target := by
  intro correct
  rw [batchGetIntoMultiBuffersInternal_of_accepted _ _ rfl aligned] at correct
  have sized := (planned_sized present).1
  have listed := mem_directPlanned.mpr ⟨present, direct⟩
  have listed' := mem_directPlanned.mpr ⟨other, direct'⟩
  obtain ⟨source, ⟨sourced, keyed, latest⟩, written⟩ :=
    @exists_batchWrite_of_willing _ 0 request.directOps request.preferAllocInSameNode
      (plainWorld_willing (fun _ => none) (fun _ => unreachable) 0) _
      (mem_map_of_mem (f := request.directOp) listed) _
      (findFirstCompleteReplica_filterQueryResult first.query sized.complete)
      (fun prefers => nonemptyBuffer_of_memory (nearby prefers) (sized.chosen.symm ▸ nonempty))
  obtain ⟨last, listedLast, rfl⟩ := mem_map.mp sourced
  have later : second.index ≤ last.index :=
    latest directOps_ordered _ (mem_map_of_mem (f := request.directOp) listed') same.symm
  have presentLast := (mem_directPlanned.mp listedLast).1
  have keys : last.key = first.key := keyed
  obtain ⟨address, place⟩ := target_place presentLast (keys.symm ▸ nonempty)
  rcases correct.confined _ (mem_append_left _ (mem_append_left _
    (mem_append_left _ written))) _
    (mem_transferWrite_domain place (Nat.lt_of_lt_of_eq nonempty sized.chosen.symm))
    with mine | block
  · exact request.separate first.index last.index (by omega) _ mine
      (mem_of_getElem? place)
  · rw [acceptedRun, diskReads_of_none fun _ => rfl] at block
    cases block

omit aligned present other nonempty in
theorem not_kept (stored : first ∈ request.storedPlanned) : second ∉ request.storedOps := by
  intro kept
  have earliest := rank_le_of_mem_emplaceAll storedPlanned_ordered kept stored same
  omega

/-- The second stored read is reported as a success and never made. -/
theorem stored_collision (stored : first.route ≠ .direct) (stored' : second.route ≠ .direct) :
    ¬ (request.batchGetIntoMultiBuffersInternal (bareWorld false)).IndexCorrect request.toBatch
      (bareWorld false) request.target := by
  intro correct
  rw [batchGetIntoMultiBuffersInternal_of_accepted _ _ rfl aligned] at correct
  have dropped := not_kept less same (mem_storedPlanned.mpr ⟨present, stored⟩)
  have noDisk : request.diskReads (bareWorld false) = [] := diskReads_of_none fun _ => rfl
  have writes : (request.acceptedRun (bareWorld false)).writes = [] := by
    simp [acceptedRun, directCall, diskCall, batchWrites_of_no_submitter, scattered,
      scatterAll, noDisk, offloadReads_unreachable]
  have untouched : second.index ∉ (request.failures (bareWorld false)).map Prod.fst := by
    -- A failure in the stored phases belongs to a read that the map kept.
    have kept : ∀ {planned : Planned}, planned ∈ request.storedOps →
        planned.index ≠ second.index := by
      intro planned listed indexed
      exact dropped (plannedWithin_unique (mem_storedOps listed).1 other indexed ▸ listed)
    simp only [failures, map_append, mem_append, not_or]
    refine ⟨⟨⟨⟨fun failed => ?_, fun failed => ?_⟩, fun failed => ?_⟩, fun failed => ?_⟩,
      by simp [scattered, scatterAll, noDisk]⟩
    · obtain ⟨position, op, error, found, -, indexed⟩ := mem_batchFailures.mp failed
      obtain ⟨planned, direct, rfl⟩ := mem_map.mp (mem_of_getElem? found)
      obtain ⟨listed, route⟩ := mem_directPlanned.mp direct
      exact stored' (plannedWithin_unique listed other indexed ▸ route)
    · obtain ⟨planned, walked, indexed, -⟩ := mem_prepareFailures failed
      exact kept (mem_storedWalk.mp walked).1 indexed
    · obtain ⟨endpoint, op, paired, indexed, -⟩ := mem_offloadReads_failures failed
      obtain ⟨planned, listed, -, -, rfl⟩ := mem_offloadPairs.mp paired
      exact kept listed indexed
    · obtain ⟨planned, walked, indexed, -⟩ := mem_prepareFailures failed
      exact kept (mem_storedWalk.mp walked).1 indexed
  exact not_indexCorrect_of_unread _ _ _ other (same ▸ nonempty) untouched rfl writes correct

end Collisions

theorem apart_of_indexCorrect {request : MultiRequest}
    (correct : ∀ world : World,
      world.Fresh request.sizeAt (fun index => addresses (request.target index)) →
        (request.batchGetIntoMultiBuffersInternal world).IndexCorrect request.toBatch world
          request.target) : request.Apart := by
  intro aligned first present second other less same nonempty collide
  by_cases direct : first.route = .direct
  · by_cases direct' : second.route = .direct
    · refine direct_collision aligned present other less same nonempty direct direct' ?_
        (correct _ (plainWorld_fresh_of_none ..))
      simpa [Collide, direct, direct'] using collide
    · unfold Collide at collide
      rw [direct] at collide
      cases route : second.route <;> simp_all
  · by_cases direct' : second.route = .direct
    · unfold Collide at collide
      rw [direct'] at collide
      cases route : first.route <;> simp_all
    · exact stored_collision aligned present other less same nonempty direct direct'
        (correct _ (plainWorld_fresh_of_none ..))

end MultiRequest

end Mooncake.Read
