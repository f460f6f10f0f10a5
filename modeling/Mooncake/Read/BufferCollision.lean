import Mooncake.Read.BufferCorrect

/-!
# What a collision does to a batch read into new blocks

Two blocks are allocated for the two indices of one object.  When `BatchGet`
reads both, the transfer of the first goes into the block of the second.  When
an owner is read, it fills the first block, and the handle of the second is
given away for it.
-/

namespace Mooncake.Read

open Library.Indexed Library.Keyed Library.ByteMemory List

namespace Batch

open Inquiry

def answering (pointers : Nat) : OffloadAnswer where
  response := .ok { pointers := pointers, gcTtlMs := 1 }
  transfer := .ok ()
  elapsedMs := 0

def oneOwner (endpoint : String) (pointers : Nat) (name : String) : OffloadAnswer :=
  if name = endpoint then answering pointers else unreachable

/-- The owner at the endpoint answers for one object. -/
abbrev ownedWorld (blocks : Nat → Option Nat) (endpoint : String) : World :=
  plainWorld false blocks (oneOwner endpoint 1)

/-- The operation of the first index, at the start of the memory. -/
def firstOp (batch : Batch) (first : Planned) : BufferOp where
  planned := first
  handle := { ptr := 0, size := batch.objectSize first.key }

def secondOp (batch : Batch) (second : Planned) : BufferOp where
  planned := second
  handle := { ptr := batch.objectSize second.key, size := batch.objectSize second.key }

/-- Two reads of one object in a world with a block for each of them. -/
structure Clash (batch : Batch) (world : World) (first second : Planned) : Prop where
  present : first ∈ batch.chosenReads
  other : second ∈ batch.chosenReads
  less : first.index < second.index
  same : first.key = second.key
  nonempty : 0 < batch.objectSize first.key
  blocks : world.allocate = twoBlocks first.index second.index 0 (batch.objectSize first.key)

namespace Clash

variable {batch : Batch} {first second : Planned} {world : World}
  (clash : batch.Clash world first second)

include clash

theorem nonempty' : 0 < batch.objectSize second.key :=
  clash.same ▸ clash.nonempty

theorem mem_firstOp : batch.firstOp first ∈ batch.bufferOps world := by
  refine mem_bufferOps.mpr ⟨clash.present, clash.nonempty,
    (chosen_sized clash.present).chosen.symm, ?_⟩
  simp [clash.blocks, twoBlocks, firstOp]

theorem mem_secondOp : batch.secondOp second ∈ batch.bufferOps world := by
  refine mem_bufferOps.mpr ⟨clash.other, clash.nonempty',
    (chosen_sized clash.other).chosen.symm, ?_⟩
  simp [clash.blocks, twoBlocks, secondOp, Nat.ne_of_gt clash.less, clash.same]

theorem bufferOps_eq :
    batch.bufferOps world = [batch.firstOp first, batch.secondOp second] := by
  have ordered : [batch.firstOp first, batch.secondOp second].Pairwise
      fun before after => before.planned.index < after.planned.index := by
    simpa [firstOp, secondOp] using clash.less
  have distinct : ∀ {ops : List BufferOp},
      (ops.Pairwise fun before after => before.planned.index < after.planned.index) → ops.Nodup :=
    fun ordered => ordered.imp fun {_ _} less =>
      ne_of_apply_ne (fun op => op.planned.index) (Nat.ne_of_lt less)
  refine List.Perm.eq_of_pairwise (fun _ _ _ _ less more => absurd less (Nat.lt_asymm more))
    bufferOps_ordered ordered
    ((perm_ext_iff_of_nodup (distinct bufferOps_ordered) (distinct ordered)).mpr ?_)
  intro op
  rw [mem_pair]
  constructor
  · intro listed
    have allocated := (mem_bufferOps.mp listed).2.2.2
    rw [clash.blocks] at allocated
    rcases twoBlocks_cases allocated with ⟨indexed, -⟩ | ⟨-, indexed, -⟩
    · exact .inl (bufferOp_unique listed clash.mem_firstOp indexed)
    · exact .inr (bufferOp_unique listed clash.mem_secondOp indexed)
  · rintro (rfl | rfl)
    · exact clash.mem_firstOp
    · exact clash.mem_secondOp

/-- The transfer of the first index goes into the block of the second. -/
theorem valid_collision (willing : Willing world.reader (world.answers 0))
    (connected : world.connected = true) (direct : first.route ≠ .localDisk)
    (direct' : second.route ≠ .localDisk) :
    ¬ (batch.batchGetBufferInternal world).IndexCorrect batch world := by
  intro correct
  have listed : batch.validReads world =
      [batch.validRead (batch.firstOp first), batch.validRead (batch.secondOp second)] := by
    simp [validReads, validOps, clash.bufferOps_eq, firstOp, secondOp, direct, direct']
  obtain ⟨source, ⟨sourced, -, latest⟩, written⟩ :=
    @exists_batchWrite_of_willing _ 0 (batch.validReads world) false willing
      (batch.validRead (batch.firstOp first)) (by simp [listed]) _
      (findFirstCompleteReplica_filterQueryResult first.query
        (chosen_sized clash.present).complete) (by simp)
  have later : second.index ≤ source.index :=
    latest validReads_ordered (batch.validRead (batch.secondOp second)) (by simp [listed])
      clash.same.symm
  rw [listed, mem_pair] at sourced
  rcases sourced with rfl | rfl
  · exact absurd clash.less (Nat.not_lt.mpr later)
  · have place : (addresses (batch.validRead (batch.secondOp second)).slices)[0]? =
        some (batch.objectSize second.key) := by
      rw [show (batch.validRead (batch.secondOp second)).slices =
        batch.allocateSlices second.replica (batch.objectSize second.key) from rfl, batch.covers,
        (chosen_sized clash.other).chosen, getElem?_range' clash.nonempty']
      rfl
    have confined := correct.confined
    simp only [batchGetBufferInternal, connected, Bool.not_true, Bool.false_eq_true,
      if_false] at confined
    have block := confined _ (mem_append_left _ written) _
      (mem_transferWrite_domain place clash.nonempty)
    simp [clash.bufferOps_eq, addresses, transferWrite, validRead, firstOp, secondOp,
      Nat.ne_of_gt clash.less, clash.same] at block

end Clash

/-! ## LOCAL_DISK objects -/

section Stored

variable {batch : Batch} {first second : Planned} {blocks : Nat → Option Nat}
  {endpoint endpoint' : String}
  (clash : batch.Clash (ownedWorld blocks endpoint) first second)
  (stored : first.route = .localDisk) (stored' : second.route = .localDisk)
  (found : localDiskEndpoint (diskRead (batch.firstOp first)).query = some endpoint)
  (found' : localDiskEndpoint (diskRead (batch.secondOp second)).query = some endpoint')

include clash stored stored'

theorem Clash.diskOps_eq : batch.diskOps (ownedWorld blocks endpoint) =
    [batch.firstOp first, batch.secondOp second] := by
  simp [diskOps, clash.bufferOps_eq, firstOp, secondOp, stored, stored']

include found found'

/-- The map of the owner keeps the first operation only. -/
theorem Clash.offloadPairs_eq :
    batch.offloadPairs (ownedWorld blocks endpoint) =
      (endpoint, diskRead (batch.firstOp first)) ::
        if endpoint' = endpoint then [] else [(endpoint', diskRead (batch.secondOp second))] := by
  have keys : (diskRead (batch.secondOp second)).key = (diskRead (batch.firstOp first)).key :=
    clash.same.symm
  by_cases shared : endpoint' = endpoint <;>
    simp [offloadPairs, clash.diskOps_eq stored stored', found, found', emplaceAll, keys, shared]

theorem Clash.walk_eq :
    (ownedWorld blocks endpoint).walk ReadOp.key
      (group ((batch.offloadPairs (ownedWorld blocks endpoint)).foldl
        appendTo ∅) endpoint) = [diskRead (batch.firstOp first)] := by
  rw [group_foldl_appendTo, clash.offloadPairs_eq stored stored' found found']
  by_cases shared : endpoint' = endpoint <;> simp [World.walk, plainWorld, group, shared]

theorem Clash.lookup_diskKeyToIdx :
    (batch.diskKeyToIdx (ownedWorld blocks endpoint)).lookup second.key =
      some (batch.secondOp second) := by
  have keyed : (batch.secondOp second).planned.key = second.key := rfl
  simp [diskKeyToIdx, clash.diskOps_eq stored stored', found, found', assignAll, keyed]

/-- The owner of the first operation fills the first block only. -/
theorem Clash.not_mem_written {write : Write}
    (written : write ∈ (offloadReads (ownedWorld blocks endpoint)
      (batch.offloadPairs (ownedWorld blocks endpoint))).flatMap
        ReadOutcome.writes) : batch.objectSize second.key ∉ write.domain := by
  intro touched
  obtain ⟨outcome, read, made⟩ := mem_flatMap.mp written
  obtain ⟨name, -, -, rfl⟩ := (mem_offloadReads outcome).mp read
  by_cases owner : name = endpoint
  · subst owner
    rw [clash.walk_eq stored stored' found found'] at made
    obtain ⟨op, walked, succeeded, rfl, -⟩ := mem_offloadEndpoint_writes made
    rw [mem_singleton.mp walked] at touched
    have inside := (mem_addresses_of_mem_domain touched).1
    rw [addresses_diskRead] at inside
    simp [firstOp, clash.same] at inside
  · simp [offloadEndpoint, offloadWrites, plainWorld, oneOwner, owner, unreachable] at made

/-- A handle is given for the second index, and nobody fills its block. -/
theorem Clash.disk_collision :
    ¬ (batch.batchGetBufferInternal (ownedWorld blocks endpoint)).IndexCorrect
      batch (ownedWorld blocks endpoint) := by
  intro correct
  have connected : (ownedWorld blocks endpoint).connected = true := rfl
  have answered : offloadResult (ownedWorld blocks endpoint)
      (batch.offloadPairs (ownedWorld blocks endpoint)) endpoint = .ok () := by
    rw [offloadResult, clash.walk_eq stored stored' found found']
    simp [plainWorld, oneOwner, answering, batchGetIntoOffloadObjectInternal]
  have settled : batch.secondOp second ∈ batch.settledOps (ownedWorld blocks endpoint) :=
    mem_filterMap.mpr ⟨second.key, mem_offloadedKeys.mpr
      ⟨endpoint, diskRead (batch.firstOp first),
        by simp [clash.offloadPairs_eq stored stored' found found'], clash.same, answered⟩,
      clash.lookup_diskKeyToIdx stored stored' found found'⟩
  have unread : batch.validResults (ownedWorld blocks endpoint) = [] := by
    simp [validResults, validOps, clash.bufferOps_eq, firstOp, secondOp, stored, stored']
  have keyed := (chosen_sized clash.other).keyed
  have holds := correct.holds
  simp only [batchGetBufferInternal, connected, Bool.not_true, Bool.false_eq_true, if_false,
    validCall, batchWrites_of_no_submitter, unread, nil_append] at holds
  obtain ⟨handle, read⟩ : ∃ handle, (assignAt
      (moveHandles (ownedWorld blocks endpoint) (batch.settledOps (ownedWorld blocks endpoint)) [])
      (batch.keys.map fun _ => none))[second.index]? = some handle := by
    refine ⟨_, getElem?_eq_getElem ?_⟩
    simpa using (List.getElem?_eq_some_iff.mp keyed).1
  have assigned := (getElem?_assignAt_cases read).resolve_left fun untouched =>
    untouched.1 (exists_mem_moveHandles settled [])
  obtain ⟨op, settledOp, indexed, given⟩ := mem_moveHandles assigned
  obtain rfl := bufferOp_unique (mem_diskOps.mp (mem_settledOps settledOp).1).1
    clash.mem_secondOp indexed
  rcases given with rfl | rfl
  · obtain ⟨size, bytes⟩ := holds _ _ _ read keyed
    obtain ⟨address, place, byte⟩ := bytes 0 clash.nonempty'
    have here : address = batch.objectSize second.key := by
      rw [getElem?_range' (size ▸ clash.nonempty'), Option.some.injEq] at place
      simpa [secondOp] using place.symm
    rw [here, applyAll_of_not_mem fun write written =>
      clash.not_mem_written stored stored' found found' written] at byte
    exact absurd (show (0 : UInt8) = 1 from byte) (by decide)
  · obtain ⟨size, -⟩ := holds _ _ _ read keyed
    exact absurd size (Nat.ne_of_lt clash.nonempty')

end Stored

theorem noCollision_of_indexCorrect {batch : Batch}
    (correct : ∀ world : World, world.Fresh batch.sizeAt (fun _ => []) →
      (batch.batchGetBufferInternal world).IndexCorrect batch world) :
    batch.NoCollision := by
  intro first present second other less same nonempty routed
  have fresh : ∀ transferSubmitter offload, (plainWorld transferSubmitter
      (twoBlocks first.index second.index 0 (batch.objectSize first.key)) offload).Fresh
        batch.sizeAt fun _ => [] :=
    twoBlocks_fresh (chosen_sized present).sizeAt (same ▸ (chosen_sized other).sizeAt) (by simp)
  by_cases stored : first.route = .localDisk
  · have endpoint_isSome : ∀ {op : BufferOp}, op.planned.route = .localDisk →
        ∃ endpoint, localDiskEndpoint (diskRead op).query = some endpoint := fun stored =>
      localDiskEndpoint_isSome (mem_singleton.mpr rfl) (isLocalDiskReplica_of_route stored)
    have stored' := routed.mp stored
    obtain ⟨endpoint, found⟩ := @endpoint_isSome (batch.firstOp first) stored
    obtain ⟨endpoint', found'⟩ := @endpoint_isSome (batch.secondOp second) stored'
    exact Clash.disk_collision ⟨present, other, less, same, nonempty, rfl⟩ stored stored' found
      found' (correct _ (fresh ..))
  · exact Clash.valid_collision ⟨present, other, less, same, nonempty, rfl⟩
      (plainWorld_willing _ (fun _ => unreachable) 0) rfl stored
      (fun stored' => stored (routed.mpr stored')) (correct _ (fresh ..))

end Batch

end Mooncake.Read
