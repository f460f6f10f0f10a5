import Mooncake.Read.Multi

/-!
# Index correctness of batch reads into several buffers per key

Direct reads of one object collide as they do with one buffer, but only if
`BatchGet` starts the transfer of the earlier one: the same-node path refuses
everything that is not in memory.  Stored reads of one object always collide,
because the map keeps the first of them and both results are preset.
-/

namespace Mooncake.Read

open Library.Indexed Library.Keyed Library.ByteMemory List

/-! ## Scattering over buffers -/

section Scatter

variable {world : World} {index total src : Nat}

variable {buffers : List Slice}

theorem mem_scatterToBuffers {offset piece : Nat} {write : Write}
    (written : write ∈ (scatterToBuffers world index total src offset piece buffers).writes) :
    write.behalf = index ∧ ∀ address ∈ write.domain, address ∈ addresses buffers := by
  induction buffers generalizing offset piece with
  | nil => cases written
  | cons buffer rest ih =>
    have own : ∀ succeeded, ∀ address ∈ (copyWrite world index buffer.ptr (src + offset)
        (min buffer.size (total - offset)) succeeded).domain,
          address ∈ addresses (buffer :: rest) := by
      intro succeeded address inside
      have within : address ∈ List.range' buffer.ptr (min buffer.size (total - offset)) := inside
      refine mem_flatMap.mpr ⟨buffer, mem_cons_self, ?_⟩
      rw [mem_range'_1] at within ⊢
      omega
    unfold scatterToBuffers at written
    split at written
    · cases written
    · dsimp only at written
      split at written
      · rw [mem_singleton.mp written]
        exact ⟨rfl, own false⟩
      · rcases mem_cons.mp written with rfl | later
        · exact ⟨rfl, own true⟩
        · obtain ⟨behalf, inside⟩ := ih later
          refine ⟨behalf, fun address present => ?_⟩
          exact mem_append_right _ (inside address present)

/-- When no copy fails, the byte at a position of the object is copied to its
place in the buffers, and nothing else is stored there. -/
theorem scatterToBuffers_copies {offset piece : Nat}
    (fine : (scatterToBuffers world index total src offset piece buffers).failures = [])
    (distinct : (addresses buffers).Nodup) {position address : Nat}
    (inObject : offset + position < total) (place : (addresses buffers)[position]? = some address) :
    (∃ write ∈ (scatterToBuffers world index total src offset piece buffers).writes,
        address ∈ write.domain) ∧
      ∀ write ∈ (scatterToBuffers world index total src offset piece buffers).writes,
        address ∈ write.domain →
          ∀ memory, write.value memory address = memory (src + offset + position) := by
  induction buffers generalizing offset piece position with
  | nil => simp [addresses] at place
  | cons buffer rest ih =>
    have split : addresses (buffer :: rest) =
        List.range' buffer.ptr buffer.size ++ addresses rest := rfl
    rw [split, nodup_append] at distinct
    rw [split] at place
    unfold scatterToBuffers at fine ⊢
    rw [if_neg (by omega)] at fine ⊢
    dsimp only at fine ⊢
    cases copied : world.scatter index piece with
    | error error => simp [copied] at fine
    | ok value =>
      rw [copied] at fine
      dsimp only at fine ⊢
      by_cases here : position < buffer.size
      · have same : address = buffer.ptr + position := by
          rw [getElem?_append_left (by simpa using here),
            getElem?_range' here, Nat.one_mul, Option.some.injEq] at place
          exact place.symm
        have inside : address ∈ List.range' buffer.ptr buffer.size := by
          rw [mem_range'_1]
          omega
        refine ⟨⟨_, mem_cons_self, ?_⟩, ?_⟩
        · rw [copyWrite, mem_range'_1]
          omega
        · intro write written touched memory
          rcases mem_cons.mp written with rfl | later
          · rw [same]
            simp [copyWrite]
          · have elsewhere := (mem_scatterToBuffers later).2 address touched
            exact absurd rfl (distinct.2.2 address inside address elsewhere)
      · have after : (addresses rest)[position - buffer.size]? = some address := by
          rw [getElem?_append_right (by simpa using here)] at place
          simpa using place
        have full : min buffer.size (total - offset) = buffer.size := by omega
        rw [full] at fine ⊢
        obtain ⟨stored, copies⟩ := ih fine distinct.2.1 (by omega) after
        refine ⟨?_, ?_⟩
        · obtain ⟨write, written, touched⟩ := stored
          exact ⟨write, mem_cons_of_mem _ written, touched⟩
        · intro write written touched memory
          rcases mem_cons.mp written with rfl | later
          · have within : address ∈ List.range' buffer.ptr buffer.size := touched
            exact absurd rfl (distinct.2.2 address within address
              (mem_of_getElem? after))
          · rw [copies write later touched memory]
            congr 1
            omega

theorem scatterToBuffers_failures {offset piece : Nat} {buffers : List Slice}
    (fine : index ∉
      (scatterToBuffers world index total src offset piece buffers).failures.map Prod.fst) :
    (scatterToBuffers world index total src offset piece buffers).failures = [] := by
  induction buffers generalizing offset piece with
  | nil => rfl
  | cons buffer rest ih =>
    unfold scatterToBuffers at fine ⊢
    split at fine
    · rename_i done
      rw [if_pos done]
    · rename_i more
      rw [if_neg more]
      dsimp only at fine ⊢
      split at fine
      · simp at fine
      · exact ih fine

end Scatter

namespace MultiRequest

open MultiInquiry

/-- Two reads of one object that share an entry of a map. -/
def Collide (request : MultiRequest) (first second : Planned) : Prop :=
  match first.route, second.route with
  | .direct, .direct =>
    request.preferAllocInSameNode = true → first.replica.isMemoryReplica = true
  | .direct, _ => False
  | _, .direct => False
  | _, _ => True

def NoCollision (request : MultiRequest) : Prop :=
  ∀ first ∈ request.planned, ∀ second ∈ request.planned, first.index < second.index →
    first.key = second.key → 0 < request.objectSize first.key →
      ¬ request.Collide first second

/-- Collisions matter only in a request that passes the first checks. -/
def Apart (request : MultiRequest) : Prop :=
  request.aligned = true → request.NoCollision

variable {request : MultiRequest} {world : World}

theorem collide_of_stored {first second : Planned} (stored : first.route ≠ .direct)
    (stored' : second.route ≠ .direct) : request.Collide first second := by
  unfold Collide
  cases route : first.route <;> cases route' : second.route <;> simp_all

/-! ## Where each phase writes -/

/-- A direct transfer that is started goes into the buffers of its own index. -/
theorem NoCollision.eq_of_lastOf (apart : request.NoCollision) {planned : Planned}
    (direct : planned ∈ request.directPlanned)
    (nonempty : 0 < request.objectSize planned.key) {source : ReadOp}
    (lastOf : LastOf request.directOps (request.directOp planned) source)
    (startable : Startable request.preferAllocInSameNode (request.directOp planned)) :
    source = request.directOp planned := by
  obtain ⟨sourced, same, latest⟩ := lastOf
  obtain ⟨planned', direct', rfl⟩ := mem_map.mp sourced
  obtain ⟨present, route⟩ := mem_directPlanned.mp direct
  obtain ⟨present', route'⟩ := mem_directPlanned.mp direct'
  have later : planned.index ≤ planned'.index :=
    latest directOps_ordered _ (mem_map_of_mem direct) rfl
  have keys : planned.key = planned'.key := same.symm
  rcases Nat.lt_or_eq_of_le later with less | equal
  · refine absurd ?_ (apart planned present planned' present' less keys nonempty)
    obtain ⟨replica, found, memory⟩ := startable
    have chosen := findFirstCompleteReplica_filterQueryResult planned.query
      (planned_sized present).1.complete
    rw [show findFirstCompleteReplica (request.directOp planned).query.replicas =
      .ok planned.replica from chosen, Except.ok.injEq] at found
    subst found
    simp only [Collide, route, route']
    exact memory
  · rw [plannedWithin_unique present present' equal]

def phases (request : MultiRequest) (world : World) : Phases where
  target := request.target
  capacity := request.capacity
  slices := fun planned => request.target planned.index
  reads := request.diskReads world
  scatter := request.scatterDisk world
  failures := request.failures world

theorem not_failed {index : Nat} (fine : (request.phases world).Fine index) :
    index ∉ (batchFailures request.directOps (request.directCall world)).map Prod.fst ∧
      index ∉ ((offloadReads world (request.offloadPairs world)).flatMap
        ReadOutcome.failures).map Prod.fst ∧
      index ∉ (prepareFailures (request.prepareDisk world)
        (request.storedWalk world .disk)).map Prod.fst ∧
      index ∉ ((request.scattered world).flatMap ReadOutcome.failures).map Prod.fst := by
  simp only [Phases.Fine, phases, failures, map_append, mem_append, not_or] at fine
  exact ⟨fine.1.1.1.1, fine.1.1.2, fine.1.2, fine.2⟩

variable {planned : Planned} {write : Write} {read : StagedRead}

theorem direct_write (apart : request.NoCollision)
    (written : write ∈ batchWrites world request.directOps (request.directCall world)) :
    write.domain = [] ∨ (request.phases world).Straight request.toBatch world write := by
  obtain ⟨op, present, source, succeeded, lastOf, rfl, startable, settled⟩ :=
    mem_batchWrites written
  obtain ⟨planned, direct, rfl⟩ := mem_map.mp present
  obtain ⟨listed, route⟩ := mem_directPlanned.mp direct
  by_cases nonempty : 0 < request.objectSize planned.key
  · rw [apart.eq_of_lastOf direct nonempty lastOf startable]
    exact .inr ⟨planned, listed, by simp [route], succeeded, rfl,
      fun fine => settled (not_failed fine).1⟩
  · exact .inl (transferWrite_domain_of_empty
      ((planned_sized listed).1.chosen.trans (Nat.eq_zero_of_not_pos nonempty)))

theorem mem_offloadPairs {endpoint : String} {op : ReadOp} :
    (endpoint, op) ∈ request.offloadPairs world ↔
      ∃ planned ∈ request.storedOps, planned.route = .localDisk ∧
        localDiskEndpoint planned.query = some endpoint ∧ op = request.localDiskOp planned := by
  unfold offloadPairs
  rw [mem_preparedReads]
  constructor
  · rintro ⟨planned, walked, prepared⟩
    obtain ⟨kept, route⟩ := mem_storedWalk.mp walked
    refine ⟨planned, kept, route, ?_⟩
    unfold prepareOffload at prepared
    split at prepared
    · cases prepared
    · rename_i endpoint' found
      split at prepared
      · cases prepared
      · cases prepared
        exact ⟨found, rfl⟩
  · rintro ⟨planned, kept, route, found, rfl⟩
    refine ⟨planned, mem_storedWalk.mpr ⟨kept, route⟩, ?_⟩
    obtain ⟨sized, fits⟩ := planned_sized (mem_storedOps kept).1
    rw [prepareOffload, found]
    dsimp only
    rw [fitsSlices_of_paired (request.paired planned.index) (sized.chosen ▸ fits), if_neg (by simp)]

theorem offload_write
    (written : write ∈ (offloadReads world (request.offloadPairs world)).flatMap
      ReadOutcome.writes) : (request.phases world).Straight request.toBatch world write := by
  obtain ⟨endpoint, op, paired, succeeded, rfl, settled⟩ := mem_offloadReads_writes written
  obtain ⟨planned, kept, route, -, rfl⟩ := mem_offloadPairs.mp paired
  exact ⟨planned, (mem_storedOps kept).1, by simp [route], succeeded, rfl,
    fun fine => settled (not_failed fine).2.1⟩

theorem only_of_mem (listed : read ∈ request.diskReads world) :
    (request.phases world).Only read :=
  ⟨listed, fun _ listed' same => diskReads_only listed listed' same⟩

theorem disk_write
    (written : write ∈ batchWrites world ((request.diskReads world).map StagedRead.op)
      (request.diskCall world)) : (request.phases world).IntoBlock world write := by
  obtain ⟨op, present, source, succeeded, ⟨sourced, same, -⟩, rfl, -, settled⟩ :=
    mem_batchWrites written
  obtain ⟨read, listed, rfl⟩ := mem_map.mp present
  obtain ⟨read', listed', rfl⟩ := mem_map.mp sourced
  rw [diskReads_only listed listed' same]
  exact ⟨read, only_of_mem listed, succeeded, rfl,
    fun fine => settled (scatterAll_of_not_failed listed (not_failed fine).2.2.2).1⟩

theorem staged_of_mem (listed : read ∈ request.diskReads world) :
    ∃ planned ∈ request.planned, planned.route = .disk ∧
      Staged request.toBatch world planned read := by
  obtain ⟨planned, walked, prepared⟩ := mem_diskReads.mp listed
  obtain ⟨kept, route⟩ := mem_storedWalk.mp walked
  have present := (mem_storedOps kept).1
  exact ⟨planned, present, route, prepareDisk_staged present prepared⟩

theorem NoCollision.attributed (apart : request.NoCollision) :
    (request.phases world).Attributed request.toBatch world
      (batchWrites world request.directOps (request.directCall world) ++
        (offloadReads world (request.offloadPairs world)).flatMap ReadOutcome.writes ++
        batchWrites world ((request.diskReads world).map StagedRead.op) (request.diskCall world))
      ((request.scattered world).flatMap ReadOutcome.writes) where
  within := fun _ _ _ inside => inside
  staged := fun _ listed => staged_of_mem listed
  unique := by
    intro read listed other listed' same
    obtain ⟨planned, present, -, staged⟩ := staged_of_mem listed
    obtain ⟨planned', present', -, staged'⟩ := staged_of_mem listed'
    have equal := plannedWithin_unique present' present
      (by rw [← staged'.index, ← staged.index, same])
    refine diskReads_only listed listed' ?_
    rw [staged'.key, staged.key, equal]
  copies := fun _ _ _ made => mem_scatterToBuffers made
  early := by
    intro write written
    simp only [mem_append] at written
    rcases written with (direct | offloaded) | disk
    · exact (direct_write apart direct).imp_right .inl
    · exact .inr (.inl (offload_write offloaded))
    · exact .inr (.inr (disk_write disk))
  late := fun _ written => .inr (mem_scatterAll_writes written)

/-! ## Without a collision -/

theorem NoCollision.kept (apart : request.NoCollision) (present : planned ∈ request.planned)
    (stored : planned.route ≠ .direct) (nonempty : 0 < request.objectSize planned.key) :
    planned ∈ request.storedOps := by
  have listed := mem_storedPlanned.mpr ⟨present, stored⟩
  obtain ⟨first, kept, same⟩ : ∃ first ∈ request.storedOps, first.key = planned.key :=
    exists_mem_emplaceAll listed
  obtain ⟨present', stored'⟩ := mem_storedOps kept
  have earlier := rank_le_of_mem_emplaceAll storedPlanned_ordered kept listed same.symm
  rcases Nat.lt_or_eq_of_le earlier with less | equal
  · exact absurd (collide_of_stored stored' stored)
      (apart first present' planned present less same (same.symm ▸ nonempty))
  · exact plannedWithin_unique present' present equal ▸ kept

section Clean

variable (apart : request.NoCollision) (present : planned ∈ request.planned)
  (fine : (request.phases world).Fine planned.index)

include apart present fine

theorem exists_own_write (unstaged : planned.route ≠ .disk)
    (nonempty : 0 < request.objectSize planned.key) :
    transferWrite world (request.directOp planned) (request.target planned.index) true ∈
      (request.acceptedRun world).writes := by
  simp only [acceptedRun, mem_append]
  cases route : planned.route with
  | disk => exact absurd route unstaged
  | direct =>
    have listed := mem_directPlanned.mpr ⟨present, route⟩
    obtain ⟨source, lastOf, startable, written⟩ := exists_batchWrite
      (mem_map_of_mem (f := request.directOp) listed) (not_failed fine).1
    rw [apart.eq_of_lastOf listed nonempty lastOf startable] at written
    exact .inl (.inl (.inl written))
  | localDisk =>
    obtain ⟨endpoint, found⟩ := localDiskEndpoint_isSome (planned_sized present).1.member
      (isLocalDiskReplica_of_route route)
    have kept := apart.kept present (by simp [route]) nonempty
    have written : transferWrite world (request.localDiskOp planned)
        (request.localDiskOp planned).slices true ∈
          (offloadReads world (request.offloadPairs world)).flatMap ReadOutcome.writes :=
      exists_offloadReads_write
        (mem_offloadPairs.mpr ⟨planned, kept, route, found, rfl⟩) (not_failed fine).2.1
    exact .inl (.inl (.inr written))

variable (fresh : world.Fresh request.sizeAt fun index => addresses (request.target index))
  {position address : Nat} (inObject : position < request.objectSize planned.key)
  (place : (addresses (request.target planned.index))[position]? = some address)

include fresh inObject place

theorem disk_holds (stored : planned.route = .disk) :
    applyAll (request.acceptedRun world).writes world.memory address =
      world.object planned.key position := by
  have kept := apart.kept present (by simp [stored]) (Nat.zero_lt_of_lt inObject)
  have walked : planned ∈ request.storedWalk world .disk := mem_storedWalk.mpr ⟨kept, stored⟩
  obtain ⟨read, prepared⟩ := prepared_of_not_failed walked (not_failed fine).2.2.1
  have staged := prepareDisk_staged present prepared
  have listed := mem_diskReads.mpr ⟨planned, walked, prepared⟩
  have inBlock : position < read.op.totalSize := staged.size.symm ▸ inObject
  rw [← staged.index] at fine place
  obtain ⟨fineDisk, fineCopy, copied⟩ := scatterAll_of_not_failed listed (not_failed fine).2.2.2
  obtain ⟨last, ⟨sourced, same, -⟩, -, stored⟩ := exists_batchWrite (mem_map_of_mem listed) fineDisk
  obtain ⟨read', listed', rfl⟩ := mem_map.mp sourced
  rw [diskReads_only listed listed' same] at stored
  obtain ⟨-, source⟩ := tempHandles_of_only listed (only_of_mem listed).alone
  obtain ⟨reached, copies⟩ := scatterToBuffers_copies (scatterToBuffers_failures fineCopy)
    (request.distinct _) (by omega) place
  rw [← staged.key]
  refine apart.attributed.staged_holds fresh request.separate (only_of_mem listed) fine
    (mem_append_right _ stored) copied inBlock (mem_of_getElem? place) reached ?_
  intro write made touched memory
  rw [copies write made touched memory, source]
  simp

end Clean

theorem Apart.indexCorrect (apart : request.Apart)
    (fresh : world.Fresh request.sizeAt fun index => addresses (request.target index)) :
    (request.batchGetIntoMultiBuffersInternal world).IndexCorrect request.toBatch world
      request.target := by
  unfold batchGetIntoMultiBuffersInternal
  split
  · refine ⟨fun index size key success => ?_, by simp⟩
    cases eq_of_mem_map_const (mem_of_getElem? success)
  · rename_i accepted
    have free : request.NoCollision := by
      refine apart ?_
      simp only [Bool.or_eq_true, Bool.not_eq_true', not_or] at accepted
      simpa using accepted.2
    refine free.attributed.indexCorrect fun planned present fine position inObject => ?_
    obtain ⟨address, place⟩ := target_place present inObject
    refine ⟨address, place, ?_⟩
    by_cases staged : planned.route = .disk
    · exact disk_holds free present fine fresh inObject place staged
    · exact free.attributed.straight_holds fresh request.separate present fine staged
        (exists_own_write free present fine staged (Nat.zero_lt_of_lt inObject))
        (request.distinct planned.index) inObject place

end MultiRequest

end Mooncake.Read
