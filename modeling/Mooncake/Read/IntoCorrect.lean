import Mooncake.Read.Into

/-!
# Index correctness of batch reads into one buffer per key

Two indices of one non-empty object collide when they take the same route: the
transfers of both go to the slices of the later one, a second LOCAL_DISK read
is never made, and the temporary block of the later DISK read is given back
before it is used.  Without a collision every success is backed by the bytes
of the object, whatever the environment answers.
-/

namespace Mooncake.Read

open Library.Indexed Library.Keyed Library.ByteMemory List

/-- `BatchGet` will find the DISK replica that is handed to it complete. -/
def Planned.ReadableDisk (planned : Planned) : Prop :=
  ∃ replica, firstDiskReplica planned.query = some replica ∧ replica.status = .complete

namespace IntoRequest

open IntoInquiry

/-- Two reads of one object that share an entry of a map. -/
def Collide (first second : Planned) : Prop :=
  match first.route, second.route with
  | .direct, .direct => True
  | .localDisk, .localDisk => True
  | .disk, .disk => first.ReadableDisk ∨ second.ReadableDisk
  | _, _ => False

def NoCollision (request : IntoRequest) : Prop :=
  ∀ first ∈ request.planned, ∀ second ∈ request.planned, first.index < second.index →
    first.key = second.key → 0 < request.objectSize first.key → ¬ Collide first second

/-- Collisions matter only in a request that passes the first checks. -/
def Apart (request : IntoRequest) : Prop :=
  request.aligned = true → request.NoCollision

variable {request : IntoRequest} {world : World}

variable {first second planned : Planned} {write : Write} {read : StagedRead}

theorem Collide.symm (collide : Collide first second) :
    Collide second first := by
  revert collide
  unfold Collide
  cases first.route <;> cases second.route <;> simp [or_comm]

/-- Reads of one non-empty object that would collide are one read. -/
theorem NoCollision.eq_of_collide (apart : request.NoCollision) (present : first ∈ request.planned)
    (other : second ∈ request.planned) (same : first.key = second.key)
    (nonempty : 0 < request.objectSize first.key) (collide : Collide first second) :
    first = second := by
  rcases Nat.lt_trichotomy first.index second.index with less | equal | greater
  · exact absurd collide (apart first present second other less same nonempty)
  · exact plannedWithin_unique present other equal
  · exact absurd collide.symm (apart second other first present greater same.symm
      (same ▸ nonempty))

theorem NoCollision.eq_of_route (apart : request.NoCollision) {route : Route}
    (shared : route = .direct ∨ route = .localDisk) (present : first ∈ request.routed route)
    (other : second ∈ request.routed route) (same : first.key = second.key)
    (nonempty : 0 < request.objectSize first.key) :
    first = second := by
  obtain ⟨planned, routed⟩ := mem_routed.mp present
  obtain ⟨planned', routed'⟩ := mem_routed.mp other
  refine apart.eq_of_collide planned planned' same nonempty ?_
  rcases shared with rfl | rfl <;> simp [Collide, routed, routed']

/-! ## Where each phase writes -/

def phases (request : IntoRequest) (world : World) : Phases where
  target := request.target
  capacity := request.capacity
  slices := fun planned =>
    request.allocateSlices planned.replica (request.buffers.getD planned.index 0)
  reads := request.diskReads world
  scatter := request.scatterDisk world
  failures := request.failures world

theorem not_failed {index : Nat} (fine : (request.phases world).Fine index) :
    index ∉ (batchFailures request.directOps (request.directCall world)).map Prod.fst ∧
      index ∉ (prepareFailures (request.prepareDisk world)
        (request.routed .disk)).map Prod.fst ∧
      index ∉ ((request.scattered world).flatMap ReadOutcome.failures).map Prod.fst ∧
      index ∉ ((offloadReads world (request.offloadPairs world)).flatMap
        ReadOutcome.failures).map Prod.fst := by
  simpa only [Phases.Fine, phases, failures, map_append, mem_append, not_or, and_assoc] using fine

theorem direct_write (apart : request.NoCollision)
    (written : write ∈ batchWrites world request.directOps (request.directCall world)) :
    write.domain = [] ∨ (request.phases world).Straight request.toBatch world write := by
  obtain ⟨op, present, source, succeeded, ⟨sourced, same, -⟩, rfl, -, settled⟩ :=
    mem_batchWrites written
  obtain ⟨planned, routed, rfl⟩ := mem_map.mp present
  obtain ⟨planned', routed', rfl⟩ := mem_map.mp sourced
  obtain ⟨listed, route⟩ := mem_routed.mp routed
  by_cases nonempty : 0 < request.objectSize planned.key
  · have equal := apart.eq_of_route (.inl rfl) routed routed' same.symm nonempty
    subst equal
    exact .inr ⟨planned, listed, by simp [route], succeeded, rfl,
      fun fine => settled (not_failed fine).1⟩
  · exact .inl (transferWrite_domain_of_empty
      ((planned_sized listed).1.chosen.trans (Nat.eq_zero_of_not_pos nonempty)))

theorem readableDisk_of_startable (staged : Staged request.toBatch world planned read)
    (startable : Startable false read.op) :
    planned.ReadableDisk := by
  obtain ⟨replica, first, queried⟩ := staged.source
  obtain ⟨chosen, complete, -⟩ := startable
  refine ⟨replica, first, ?_⟩
  rw [queried] at complete
  by_contra incomplete
  simp [findFirstCompleteReplica, filterQueryResult, incomplete] at complete

/-- A DISK read of a non-empty object that can be started is the only one with its key. -/
theorem NoCollision.only_disk (apart : request.NoCollision)
    (listed : read ∈ request.diskReads world) (nonempty : 0 < read.op.totalSize)
    (startable : Startable false read.op) : (request.phases world).Only read := by
  refine ⟨listed, fun other listed' same => ?_⟩
  obtain ⟨planned, routed, prepared⟩ := mem_diskReads.mp listed
  obtain ⟨planned', routed', prepared'⟩ := mem_diskReads.mp listed'
  obtain ⟨present, chosen⟩ := mem_routed.mp routed
  obtain ⟨present', chosen'⟩ := mem_routed.mp routed'
  have staged := prepareDisk_staged routed prepared
  have keys : planned.key = planned'.key := by
    rw [← staged.key, ← (prepareDisk_staged routed' prepared').key, same]
  have readable := readableDisk_of_startable staged startable
  have equal := apart.eq_of_collide present present' keys (staged.size ▸ nonempty)
    (by simp [Collide, chosen, chosen', readable])
  subst equal
  rw [prepared, Except.ok.injEq] at prepared'
  exact prepared'.symm

theorem disk_write (apart : request.NoCollision)
    (written : write ∈ batchWrites world ((request.diskReads world).map StagedRead.op)
      (request.diskCall world)) :
    write.domain = [] ∨ (request.phases world).IntoBlock world write := by
  obtain ⟨op, present, source, succeeded, ⟨sourced, same, -⟩, rfl, startable, settled⟩ :=
    mem_batchWrites written
  obtain ⟨read, listed, rfl⟩ := mem_map.mp present
  obtain ⟨read', listed', rfl⟩ := mem_map.mp sourced
  by_cases nonempty : 0 < read.op.totalSize
  · have only := apart.only_disk listed nonempty startable
    rw [only.alone read' listed' same]
    exact .inr ⟨read, only, succeeded, rfl,
      fun fine => settled (scatterAll_of_not_failed listed (not_failed fine).2.2.1).1⟩
  · exact .inl (transferWrite_domain_of_empty (Nat.eq_zero_of_not_pos nonempty))

theorem mem_scatterDisk (written : write ∈ (request.scatterDisk world read).writes) :
    ∃ succeeded, write = copyWrite world read.op.index
        (request.buffers.getD read.op.index 0) (tempOf (request.diskReads world) read.op.key)
        read.op.totalSize succeeded ∧
      (read.op.index ∉ (request.scatterDisk world read).failures.map Prod.fst →
        succeeded = true) := by
  unfold scatterDisk at written ⊢
  dsimp only at written ⊢
  split at written
  · exact ⟨true, mem_singleton.mp written, fun _ => rfl⟩
  · exact ⟨false, mem_singleton.mp written, by simp⟩

theorem exists_scatterDisk
    (fine : read.op.index ∉ (request.scatterDisk world read).failures.map Prod.fst) :
    ∃ write ∈ (request.scatterDisk world read).writes,
      write.domain = List.range' (request.buffers.getD read.op.index 0)
        read.op.totalSize := by
  unfold scatterDisk at fine ⊢
  cases copied : world.scatter read.op.index 0 with
  | ok value => exact ⟨_, mem_singleton.mpr rfl, rfl⟩
  | error error => simp [copied] at fine

theorem mem_offloadPairs {endpoint : String} {op : ReadOp} :
    (endpoint, op) ∈ request.offloadPairs world ↔
      op ∈ request.localDiskOps ∧ localDiskEndpoint op.query = some endpoint := by
  unfold offloadPairs
  simp only [mem_filterMap, World.mem_walk, Option.map_eq_some_iff, Prod.mk.injEq]
  constructor
  · rintro ⟨_, present, _, found, rfl, rfl⟩
    exact ⟨present, found⟩
  · rintro ⟨present, found⟩
    exact ⟨op, present, endpoint, found, rfl, rfl⟩

theorem mem_localDiskOps {op : ReadOp} (present : op ∈ request.localDiskOps) :
    ∃ planned ∈ request.routed .localDisk, op = request.localDiskOp planned := by
  obtain ⟨planned, routed, rfl⟩ := mem_map.mp (mem_of_mem_emplaceAll present)
  exact ⟨planned, routed, rfl⟩

theorem offload_write
    (written : write ∈ (offloadReads world (request.offloadPairs world)).flatMap
      ReadOutcome.writes) : (request.phases world).Straight request.toBatch world write := by
  obtain ⟨endpoint, op, paired, succeeded, rfl, settled⟩ := mem_offloadReads_writes written
  obtain ⟨planned, routed, rfl⟩ := mem_localDiskOps (mem_offloadPairs.mp paired).1
  obtain ⟨listed, route⟩ := mem_routed.mp routed
  exact ⟨planned, listed, by simp [route], succeeded, rfl,
    fun fine => settled (not_failed fine).2.2.2⟩

theorem NoCollision.attributed (apart : request.NoCollision) :
    (request.phases world).Attributed request.toBatch world
      (batchWrites world request.directOps (request.directCall world) ++
        batchWrites world ((request.diskReads world).map StagedRead.op) (request.diskCall world))
      ((request.scattered world).flatMap ReadOutcome.writes ++
        (offloadReads world (request.offloadPairs world)).flatMap ReadOutcome.writes) where
  within := fun _ present _ inside => mem_target_of_mem_directOp present inside
  staged := by
    intro read listed
    obtain ⟨planned, routed, prepared⟩ := mem_diskReads.mp listed
    obtain ⟨present, route⟩ := mem_routed.mp routed
    exact ⟨planned, present, route, prepareDisk_staged routed prepared⟩
  unique := fun _ listed _ listed' same => eq_of_index_eq diskReads_ordered listed' listed same
  copies := by
    intro read listed write made
    obtain ⟨planned, routed, prepared⟩ := mem_diskReads.mp listed
    have staged := prepareDisk_staged routed prepared
    have fits := (planned_sized (mem_routed.mp routed).1).2
    obtain ⟨succeeded, rfl, -⟩ := mem_scatterDisk made
    refine ⟨rfl, fun address inside => ?_⟩
    have within : address ∈ List.range' (request.buffers.getD read.op.index 0)
        read.op.totalSize := inside
    show address ∈ addresses (request.target read.op.index)
    rw [staged.index, staged.size, mem_range'_1] at within
    rw [staged.index, addresses_target, mem_range'_1]
    omega
  early := by
    intro write written
    rcases mem_append.mp written with direct | disk
    · exact (direct_write apart direct).imp_right .inl
    · exact (disk_write apart disk).imp_right .inr
  late := fun _ written => (mem_append.mp written).symm.imp offload_write mem_scatterAll_writes

/-! ## Without a collision -/

section Clean

variable (apart : request.NoCollision) (fine : (request.phases world).Fine planned.index)

include apart fine

/-- A key without a failure that needs no block was sent to the caller. -/
theorem exists_own_write (present : planned ∈ request.planned) (unstaged : planned.route ≠ .disk)
    (nonempty : 0 < request.objectSize planned.key) :
    transferWrite world (request.directOp planned) (request.directOp planned).slices true ∈
      (request.acceptedRun world).writes := by
  simp only [acceptedRun, mem_append]
  cases route : planned.route with
  | disk => exact absurd route unstaged
  | direct =>
    have routed := mem_routed.mpr ⟨present, route⟩
    obtain ⟨source, ⟨listed, same, -⟩, -, written⟩ := exists_batchWrite
      (mem_map_of_mem (f := request.directOp) routed) (not_failed fine).1
    obtain ⟨other, routed', rfl⟩ := mem_map.mp listed
    have equal := apart.eq_of_route (.inl rfl) routed routed' same.symm nonempty
    subst equal
    exact .inl (.inl written)
  | localDisk =>
    have routed := mem_routed.mpr ⟨present, route⟩
    obtain ⟨op, kept, same⟩ : ∃ op ∈ request.localDiskOps, op.key = planned.key :=
      exists_mem_emplaceAll (mem_map_of_mem (f := request.localDiskOp) routed)
    obtain ⟨planned', routed', rfl⟩ := mem_localDiskOps kept
    have equal := apart.eq_of_route (.inr rfl) routed routed' same.symm nonempty
    subst equal
    obtain ⟨endpoint, found⟩ := localDiskEndpoint_isSome (planned_sized present).1.member
      (isLocalDiskReplica_of_route route)
    have written : transferWrite world (request.localDiskOp planned)
        (request.localDiskOp planned).slices true ∈
          (offloadReads world (request.offloadPairs world)).flatMap ReadOutcome.writes :=
      exists_offloadReads_write (mem_offloadPairs.mpr ⟨kept, found⟩) (not_failed fine).2.2.2
    exact .inr (.inr written)

variable (fresh : world.Fresh request.sizeAt fun index => addresses (request.target index))
  {position : Nat} (inObject : position < request.objectSize planned.key)

include fresh inObject

omit apart fine fresh inObject in
theorem target_separate (first second : Nat) (different : first ≠ second) :
    ∀ address ∈ addresses (request.target first), address ∉ addresses (request.target second) := by
  intro address inside
  rw [addresses_target] at inside ⊢
  exact request.separate first second different address inside

theorem direct_holds (present : planned ∈ request.planned) (unstaged : planned.route ≠ .disk) :
    applyAll (request.acceptedRun world).writes world.memory
        (request.buffers.getD planned.index 0 + position) =
      world.object planned.key position := by
  refine apart.attributed.straight_holds fresh target_separate present fine unstaged
    (exists_own_write apart fine present unstaged (Nat.zero_lt_of_lt inObject)) ?_ inObject
    (directOp_place present inObject)
  show (addresses (request.directOp planned).slices).Nodup
  rw [addresses_directOp present]
  exact nodup_range'

theorem disk_holds (routed : planned ∈ request.routed .disk) :
    applyAll (request.acceptedRun world).writes world.memory
        (request.buffers.getD planned.index 0 + position) =
      world.object planned.key position := by
  obtain ⟨read, prepared⟩ := prepared_of_not_failed routed (not_failed fine).2.1
  have staged := prepareDisk_staged routed prepared
  have listed := mem_diskReads.mpr ⟨planned, routed, prepared⟩
  have inBlock : position < read.op.totalSize := staged.size.symm ▸ inObject
  have fineRead : (request.phases world).Fine read.op.index := staged.index.symm ▸ fine
  obtain ⟨fineDisk, fineCopy, copied⟩ := scatterAll_of_not_failed listed (not_failed fineRead).2.2.1
  obtain ⟨last, ⟨sourced, same, -⟩, startable, stored⟩ :=
    exists_batchWrite (mem_map_of_mem listed) fineDisk
  obtain ⟨read', listed', rfl⟩ := mem_map.mp sourced
  have only := apart.only_disk listed (Nat.zero_lt_of_lt inBlock) startable
  rw [only.alone read' listed' same] at stored
  obtain ⟨-, source⟩ := tempHandles_of_only listed only.alone
  rw [← staged.key]
  refine apart.attributed.staged_holds fresh target_separate only fineRead
    (mem_append_right _ stored)
    (fun write made => mem_append_left _ (copied write made)) inBlock ?_ ?_ ?_
  · rw [staged.index]
    exact mem_of_getElem? (target_place (mem_routed.mp routed).1 inObject)
  · obtain ⟨write, made, domain⟩ := exists_scatterDisk fineCopy
    refine ⟨write, made, ?_⟩
    rw [domain, staged.index, staged.size, mem_range'_1]
    omega
  · intro write made touched memory
    obtain ⟨succeeded, rfl, settled⟩ := mem_scatterDisk made
    rw [settled fineCopy, copyWrite, source, staged.index]
    simp

end Clean

/-- Without a collision the read is index correct in every world. -/
theorem Apart.indexCorrect (apart : request.Apart)
    (fresh : world.Fresh request.sizeAt fun index => addresses (request.target index)) :
    (request.batchGetIntoInternal world).IndexCorrect request.toBatch world
      request.target := by
  unfold batchGetIntoInternal
  split
  · refine ⟨fun index size key success => ?_, by simp⟩
    cases eq_of_mem_map_const (mem_of_getElem? success)
  · rename_i accepted
    have free : request.NoCollision := by
      refine apart ?_
      simp only [Bool.or_eq_true, Bool.not_eq_true', not_or] at accepted
      simpa using accepted.2
    refine free.attributed.indexCorrect fun planned present fine position inObject =>
      ⟨_, target_place present inObject, ?_⟩
    by_cases staged : planned.route = .disk
    · exact disk_holds free fine fresh inObject (mem_routed.mpr ⟨present, staged⟩)
    · exact direct_holds free fine fresh inObject present staged

end IntoRequest

end Mooncake.Read
