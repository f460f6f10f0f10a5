import Mooncake.Read.ChosenBatch

/-!
# The bytes that a read into several buffers asks for

`batch_get_into_multi_buffers_internal` adds the sizes of the buffers up in a 64-bit word and
rejects a key whose sum is below the size of its object.  A sum that wraps is only smaller, so
the buffers of an accepted key do hold the object.  They may hold more: the loop that scatters
a DISK object stops at its last byte, while the slices for a MEMORY, NoF or LOCAL_DISK replica
are the buffers as they are.
-/

namespace Mooncake.Read

open Library.Keyed Library.ByteMemory List

/-! ## Buffers cut at the end of the object -/

/-- The slices are the given buffers, of which only the last ones are shortened or dropped. -/
inductive Trimmed : List Slice → List Slice → Prop
  | dropped (buffers : List Slice) : Trimmed buffers []
  | shortened {buffer : Slice} {size : Nat} (rest : List Slice) (shorter : size ≤ buffer.size) :
      Trimmed (buffer :: rest) [⟨buffer.ptr, size⟩]
  | kept (buffer : Slice) {rest slices : List Slice} (tail : Trimmed rest slices) :
      Trimmed (buffer :: rest) (buffer :: slices)

theorem Trimmed.refl (buffers : List Slice) : Trimmed buffers buffers := by
  induction buffers with
  | nil => exact .dropped []
  | cons buffer rest ih => exact .kept buffer ih

/-- The destinations of `scatter_to_buffers`, from the given offset on. -/
def scatterSlices (total : Nat) : Nat → List Slice → List Slice
  | _, [] => []
  | offset, buffer :: rest =>
    if total ≤ offset then []
    else
      let size := min buffer.size (total - offset)
      ⟨buffer.ptr, size⟩ :: scatterSlices total (offset + size) rest

theorem scatterSlices_of_le {total offset : Nat} (done : total ≤ offset) (buffers : List Slice) :
    scatterSlices total offset buffers = [] := by
  cases buffers with
  | nil => rfl
  | cons buffer rest => exact if_pos done

theorem scatterSlices_trimmed (total offset : Nat) (buffers : List Slice) :
    Trimmed buffers (scatterSlices total offset buffers) := by
  induction buffers generalizing offset with
  | nil => exact .dropped []
  | cons buffer rest ih =>
    rw [scatterSlices]
    split
    · exact .dropped _
    · rename_i left
      by_cases whole : buffer.size ≤ total - offset
      · rw [Nat.min_eq_left whole]
        exact .kept buffer (ih _)
      · -- The object ends in this buffer.
        have ends := scatterSlices_of_le (show total ≤ offset + (total - offset) by omega) rest
        simp only [Nat.min_eq_right (Nat.le_of_not_le whole), ends]
        exact .shortened rest (by omega)

theorem length_addresses_cons (buffer : Slice) (rest : List Slice) :
    (addresses (buffer :: rest)).length = buffer.size + (addresses rest).length := by
  simp [addresses]

theorem length_scatterSlices {total offset : Nat} {buffers : List Slice}
    (fits : total ≤ offset + (addresses buffers).length) :
    (addresses (scatterSlices total offset buffers)).length = total - offset := by
  induction buffers generalizing offset with
  | nil => exact (Nat.sub_eq_zero_of_le fits).symm
  | cons buffer rest ih =>
    rw [length_addresses_cons] at fits
    rw [scatterSlices]
    split
    · rename_i done
      exact (Nat.sub_eq_zero_of_le done).symm
    · rw [length_addresses_cons, ih (by omega)]
      dsimp only
      omega

/-- The copies of `scatter_to_buffers` go to these destinations, up to the first failure. -/
theorem scatterToBuffers_domains (world : World) (index total src offset piece : Nat)
    (buffers : List Slice) :
    (scatterToBuffers world index total src offset piece buffers).writes.map Write.domain <+:
      (scatterSlices total offset buffers).map fun slice => List.range' slice.ptr slice.size := by
  induction buffers generalizing offset piece with
  | nil => exact prefix_rfl
  | cons buffer rest ih =>
    rw [scatterToBuffers, scatterSlices]
    split
    · exact prefix_rfl
    · simp only [map_cons]
      split
      · exact cons_prefix_cons.mpr ⟨rfl, nil_prefix⟩
      · exact cons_prefix_cons.mpr ⟨rfl, ih _ _⟩

/-! ## Requests with sizes of 64 bits -/

/-- The arguments of `batch_get_into_multi_buffers_internal`, with the placement of the keys.
Every buffer comes with its size; the buffers may overlap. -/
structure WordRequest extends Batch, MultiInquiry where
  paired : ∀ index, (allBuffers.getD index []).length = (allSizes.getD index []).length
  words : ∀ index, ∀ size ∈ allSizes.getD index [], size < 2 ^ 64

/-- The slices that are passed on or scattered for a key. -/
inductive Pass where
  | batchGet (key : ObjectKey) (slices : List Slice)
  | offload (endpoint : String) (key : ObjectKey) (slices : List Slice)
  | stage (key : ObjectKey) (slices : List Slice)
  | scatter (index : Nat) (key : ObjectKey) (slices : List Slice)

def LastOfKey (among : Planned → Prop) (planned : Planned) : Prop :=
  among planned ∧ ∀ other, among other → other.key = planned.key → other.index ≤ planned.index

/-- The slices that `BatchGet` finds for each of its keys. -/
def foundSlices (ops : List ReadOp) : List (ObjectKey × List Slice) :=
  ops.filterMap fun op =>
    ((assignAll ReadOp.key ReadOp.slices ops).lookup op.key).map fun slices => (op.key, slices)

variable {ops : List ReadOp} {found : ObjectKey × List Slice}

theorem exists_of_mem_foundSlices (listed : found ∈ foundSlices ops) :
    ∃ op ∈ ops, op.key = found.1 ∧ op.slices = found.2 := by
  obtain ⟨asked, -, looked⟩ := mem_filterMap.mp listed
  obtain ⟨slices, lookup, rfl⟩ := Option.map_eq_some_iff.mp looked
  obtain ⟨op, member, keyed, same, -⟩ := mem_of_lookup_assignAll lookup
  exact ⟨op, member, keyed, same⟩

theorem mem_foundSlices (ordered : ops.Pairwise fun before after => before.index < after.index) :
    found ∈ foundSlices ops ↔
      ∃ op ∈ ops, (∀ other ∈ ops, other.key = op.key → other.index ≤ op.index) ∧
        (op.key, op.slices) = found := by
  constructor
  · intro listed
    obtain ⟨asked, -, looked⟩ := mem_filterMap.mp listed
    obtain ⟨slices, lookup, rfl⟩ := Option.map_eq_some_iff.mp looked
    obtain ⟨op, member, keyed, rfl, latest⟩ := mem_of_lookup_assignAll lookup
    rw [← keyed] at latest ⊢
    exact ⟨op, member, latest ReadOp.index ordered, rfl⟩
  · rintro ⟨op, member, last, rfl⟩
    obtain ⟨slices, lookup⟩ := @lookup_assignAll_isSome _ _ _ _ ReadOp.key _ _ ReadOp.slices member
    obtain ⟨other, present, keyed, rfl, latest⟩ := mem_of_lookup_assignAll lookup
    have same : other = op := eq_of_index_eq ordered present member
      (le_antisymm (last other present keyed) (latest ReadOp.index ordered op member rfl))
    subst same
    exact mem_filterMap.mpr ⟨other, member, by rw [lookup]; rfl⟩

namespace WordRequest

open MultiInquiry

section Model

variable (request : WordRequest) (world : World)

/-- The slices of a run of `batch_get_into_multi_buffers_internal`. -/
def passes : List Pass :=
  if !world.connected || !request.aligned then []
  else
    (foundSlices request.directOps).map (fun found => .batchGet found.1 found.2) ++
      (request.offloadPairs world).map
        (fun pair => .offload pair.1 pair.2.key pair.2.slices) ++
      (foundSlices ((request.diskReads world).map StagedRead.op)).map
        (fun found => .stage found.1 found.2) ++
      (request.diskReads world).map fun read =>
        .scatter read.op.index read.op.key
          (scatterSlices read.op.totalSize 0 (request.target read.op.index))

end Model

/-! ## Reads of exactly the object -/

section Spec

variable (request : WordRequest)

/-- The slices have the size of the object, and they are the buffers given for an index of its
key, cut at the end. -/
structure ObjectSlices (index : Nat) (key : ObjectKey) (slices : List Slice) : Prop where
  keyed : request.keys[index]? = some key
  total : (addresses slices).length = request.objectSize key
  trimmed : Trimmed (request.target index) slices

def Exact : Pass → Prop
  | .batchGet key slices => ∃ index, request.ObjectSlices index key slices
  | .offload _ key slices => ∃ index, request.ObjectSlices index key slices
  | .stage key slices => (addresses slices).length = request.objectSize key
  | .scatter index key slices => request.ObjectSlices index key slices

/-- A read asks for exactly the bytes of each object, and the buffers of every accepted key
hold its object. -/
structure AsksForObject (world : World) : Prop where
  exact : ∀ pass ∈ request.passes world, request.Exact pass
  enough : ∀ planned ∈ request.planned,
    request.objectSize planned.key ≤ (request.allSizes.getD planned.index []).sum

def Directs (planned : Planned) : Prop :=
  request.Accepts planned ∧ planned.route = .direct

/-- The choice whose buffers are passed on as they are: the last one of its key among MEMORY and
NoF replicas, or the first one among stored replicas if it is LOCAL_DISK. -/
def Uncut (planned : Planned) : Prop :=
  LastOfKey request.Directs planned ∨
    FirstOfKey request.Stores planned ∧ planned.route = .localDisk

/-- Buffers that are passed on as they are have the size of the object. -/
def Tight : Prop :=
  request.aligned = true → ∀ planned, request.Uncut planned →
    (request.allSizes.getD planned.index []).sum = request.objectSize planned.key

end Spec

section Facts

variable {request : WordRequest} {world : World} {planned : Planned}

theorem mem_directOps {op : ReadOp} : op ∈ request.directOps ↔
    ∃ planned, request.Directs planned ∧ request.directOp planned = op := by
  simp only [directOps, directPlanned, mem_map, mem_filter, mem_planned, decide_eq_true_eq, Directs]

theorem directOps_ordered :
    request.directOps.Pairwise fun before after => before.index < after.index :=
  pairwise_map.mpr (planned_ordered.sublist filter_sublist)

theorem length_target (index : Nat) :
    (addresses (request.target index)).length = (request.allSizes.getD index []).sum := by
  rw [MultiRequest.length_addresses, target, map_size_sliceList (request.paired index)]

theorem size_of_accepts (accepted : request.Accepts planned) :
    totalSize planned.replica = request.objectSize planned.key :=
  request.sized _ _ _ accepted.1.key accepted.1.query _
    (selectBestReplica_usable accepted.1.selected).1

/-- A wrapped sum accepts no buffers that are too small. -/
theorem enough_of_accepts (accepted : request.Accepts planned) :
    request.objectSize planned.key ≤ (request.allSizes.getD planned.index []).sum :=
  size_of_accepts accepted ▸ accepted.2.trans wordSum_le

theorem ObjectSlices.of_sum (accepted : request.Accepts planned)
    (tight : (request.allSizes.getD planned.index []).sum = request.objectSize planned.key) :
    request.ObjectSlices planned.index planned.key (request.target planned.index) :=
  ⟨accepted.1.key, length_target _ ▸ tight, .refl _⟩

theorem ObjectSlices.sum {index other : Nat} {key : ObjectKey}
    (exact : request.ObjectSlices other key (request.target index)) :
    (request.allSizes.getD index []).sum = request.objectSize key :=
  length_target index ▸ exact.total

variable {read : StagedRead}

theorem mem_directFound :
    found ∈ foundSlices request.directOps ↔
      ∃ planned, LastOfKey request.Directs planned ∧
        (planned.key, request.target planned.index) = found := by
  rw [mem_foundSlices directOps_ordered]
  constructor
  · rintro ⟨op, listed, last, rfl⟩
    obtain ⟨planned, directs, rfl⟩ := mem_directOps.mp listed
    refine ⟨planned, ⟨directs, fun other present same => ?_⟩, rfl⟩
    exact last (request.directOp other) (mem_directOps.mpr ⟨other, present, rfl⟩) same
  · rintro ⟨planned, ⟨directs, last⟩, rfl⟩
    refine ⟨request.directOp planned, mem_directOps.mpr ⟨planned, directs, rfl⟩, ?_, rfl⟩
    intro op listed same
    obtain ⟨other, present, rfl⟩ := mem_directOps.mp listed
    exact last other present same

/-- The second sum is the first one again, so no LOCAL_DISK operation fails its check. -/
theorem prepareOffload_eq (accepted : request.Accepts planned)
    (stored : planned.route = .localDisk) :
    ∃ endpoint, request.prepareOffload planned = .ok (endpoint, request.localDiskOp planned) := by
  obtain ⟨endpoint, found⟩ := localDiskEndpoint_isSome
    (selectBestReplica_usable accepted.1.selected).1 (isLocalDiskReplica_of_route stored)
  have fits := fitsSlices_of_paired (request.paired planned.index) accepted.2
  exact ⟨endpoint, prepareOffload_ok.mpr ⟨fits, found, rfl⟩⟩

theorem prepareDisk_spec (prepared : request.prepareDisk world planned = .ok read) :
    ∃ replica ∈ planned.query.replicas,
      read = request.stageDisk planned replica read.temp := by
  unfold MultiInquiry.prepareDisk at prepared
  split at prepared
  · cases prepared
  · split at prepared
    · cases prepared
    · rename_i replica found
      cases prepared
      exact ⟨replica, mem_of_find?_eq_some found, rfl⟩

theorem mem_diskReads (listed : read ∈ request.diskReads world) :
    ∃ planned, request.Accepts planned ∧ ∃ replica ∈ planned.query.replicas,
      read = request.stageDisk planned replica read.temp := by
  obtain ⟨planned, walked, prepared⟩ := mem_preparedReads.mp listed
  exact ⟨planned, (mem_storedWalk.mp walked).1.1.1, prepareDisk_spec prepared⟩

theorem stage_exact (listed : found ∈ foundSlices ((request.diskReads world).map StagedRead.op)) :
    (addresses found.2).length = request.objectSize found.1 := by
  obtain ⟨op, present, keyed, slices⟩ := exists_of_mem_foundSlices listed
  obtain ⟨read, staged, rfl⟩ := mem_map.mp present
  obtain ⟨planned, accepted, replica, member, shape⟩ := mem_diskReads staged
  rw [← keyed, ← slices, shape]
  have covered := congrArg List.length (request.covers replica read.temp)
  rw [length_range'] at covered
  exact covered.trans (request.sized _ _ _ accepted.1.key accepted.1.query replica member)

/-- The copies of a DISK object end with its last byte. -/
theorem scatter_exact (listed : read ∈ request.diskReads world) :
    request.ObjectSlices read.op.index read.op.key
      (scatterSlices read.op.totalSize 0 (request.target read.op.index)) := by
  obtain ⟨planned, accepted, replica, -, shape⟩ := mem_diskReads listed
  rw [shape]
  refine ⟨accepted.1.key, ?_, scatterSlices_trimmed _ _ _⟩
  have fits : totalSize planned.replica ≤
      0 + (addresses (request.target planned.index)).length := by
    rw [Nat.zero_add, length_target, size_of_accepts accepted]
    exact enough_of_accepts accepted
  exact (length_scatterSlices fits).trans (size_of_accepts accepted)

/-! ## The passes of a read -/

theorem uncut_passed (connected : world.connected = true) (aligned : request.aligned = true)
    (uncut : request.Uncut planned) :
    ∃ pass ∈ request.passes world, request.Exact pass ↔
      ∃ index, request.ObjectSlices index planned.key (request.target planned.index) := by
  have running : ¬ (!world.connected || !request.aligned) = true := by
    simp [connected, aligned]
  rw [passes, if_neg running]
  simp only [mem_append, mem_map]
  rcases uncut with last | stored
  · have found := mem_directFound.mpr ⟨planned, last, rfl⟩
    exact ⟨.batchGet planned.key (request.target planned.index),
      .inl (.inl (.inl ⟨_, found, rfl⟩)), .rfl⟩
  · obtain ⟨endpoint, prepared⟩ := prepareOffload_eq stored.1.1.1 stored.2
    have found := (@mem_offloadPairs _ world _).mpr ⟨planned, stored, prepared⟩
    exact ⟨.offload endpoint planned.key (request.target planned.index),
      .inl (.inl (.inr ⟨_, found, rfl⟩)), .rfl⟩

theorem mem_passes {pass : Pass} (listed : pass ∈ request.passes world) :
    request.Exact pass ∨ world.connected = true ∧ request.aligned = true ∧
      ∃ planned, request.Accepts planned ∧ request.Uncut planned ∧
        (request.ObjectSlices planned.index planned.key (request.target planned.index) →
          request.Exact pass) := by
  unfold passes at listed
  split at listed
  · cases listed
  · rename_i running
    have started : world.connected = true ∧ request.aligned = true := by simpa using running
    simp only [mem_append, mem_map] at listed
    rcases listed with ((direct | offloaded) | staged) | scattered
    · obtain ⟨found, member, rfl⟩ := direct
      obtain ⟨planned, last, rfl⟩ := mem_directFound.mp member
      exact .inr ⟨started.1, started.2, planned, last.1.1, .inl last, fun own => ⟨_, own⟩⟩
    · obtain ⟨pair, member, rfl⟩ := offloaded
      obtain ⟨planned, uncut, prepared⟩ := mem_offloadPairs.mp member
      obtain ⟨endpoint, same⟩ := prepareOffload_eq uncut.1.1.1 uncut.2
      cases same.symm.trans prepared
      exact .inr ⟨started.1, started.2, planned, uncut.1.1.1, .inr uncut, fun own => ⟨_, own⟩⟩
    · obtain ⟨found, member, rfl⟩ := staged
      exact .inl (stage_exact member)
    · obtain ⟨read, member, rfl⟩ := scattered
      exact .inl (scatter_exact member)

end Facts

/-- The reads ask for exactly the objects if and only if the buffers that are passed on uncut
have the sizes of their objects. -/
theorem asksForObject_iff (request : WordRequest) (world : World) :
    request.AsksForObject world ↔ (world.connected = true → request.Tight) := by
  constructor
  · intro asks connected aligned planned uncut
    obtain ⟨pass, listed, exact_iff⟩ := uncut_passed connected aligned uncut
    obtain ⟨index, slices⟩ := exact_iff.mp (asks.exact pass listed)
    exact slices.sum
  · intro tight
    refine ⟨fun pass listed => ?_,
      fun planned present => enough_of_accepts (mem_planned.mp present)⟩
    rcases mem_passes listed with
      exact_ | ⟨connected, aligned, planned, accepted, uncut, exact_of⟩
    · exact exact_
    · exact exact_of (.of_sum accepted (tight connected aligned planned uncut))

/-- A MEMORY object of four bytes is read into a buffer of eight. -/
def wideBuffer : WordRequest where
  keys := ["a"]
  query := fun _ => .ok ⟨[⟨.complete, .memory ⟨"host", 0, 4⟩⟩], 0⟩
  localEndpoints := []
  allocateSlices := fun replica ptr => [⟨ptr, totalSize replica⟩]
  allBuffers := [[0]]
  allSizes := [[8]]
  objectSize := fun _ => 4
  sized := by
    intro index key result _ queried replica listed
    cases queried
    cases mem_singleton.mp listed
    rfl
  covers := fun _ _ => flatMap_singleton _ _
  paired := by
    intro index
    cases index <;> rfl
  words := by
    intro index size listed
    cases index with
    | zero => exact mem_singleton.mp listed ▸ by decide
    | succ index => cases listed

theorem wideBuffer_passed_uncut :
    ¬ wideBuffer.AsksForObject (plainWorld true (fun _ => none) fun _ => unreachable) := by
  intro asks
  obtain ⟨index, slices⟩ := asks.exact (.batchGet "a" [⟨0, 8⟩]) (mem_singleton.mpr rfl)
  exact absurd slices.total (by decide)

end WordRequest

end Mooncake.Read
