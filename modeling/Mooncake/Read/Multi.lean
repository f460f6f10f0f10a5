import Mooncake.Read.Attributed

/-!
# Batch reads into several buffers per key

`batch_get_into_multi_buffers_internal` keeps LOCAL_DISK and DISK operations in
one map from key and presets the result of every key that reaches it.  DISK
objects are read into a temporary block and scattered over the buffers.
-/

namespace Mooncake.Read

open Library.Indexed Library.Keyed Library.ByteMemory List

def sliceList (buffers sizes : List Nat) : List Slice :=
  List.zipWith Slice.mk buffers sizes

theorem map_size_sliceList_of_le {buffers sizes : List Nat}
    (enough : sizes.length ≤ buffers.length) :
    (sliceList buffers sizes).map Slice.size = sizes := by
  rw [sliceList, map_zipWith, ← map_uncurry_zip_eq_zipWith]
  exact map_snd_zip enough

theorem map_size_sliceList {buffers sizes : List Nat} (paired : buffers.length = sizes.length) :
    (sliceList buffers sizes).map Slice.size = sizes :=
  map_size_sliceList_of_le paired.ge

/-- The arguments of `batch_get_into_multi_buffers_internal`, with the placement of the keys. -/
structure MultiInquiry extends Inquiry where
  allBuffers : List (List Nat)
  allSizes : List (List Nat)

/-- Every buffer comes with its size, and no two buffers overlap. -/
structure MultiRequest extends Batch, MultiInquiry where
  preferAllocInSameNode : Bool
  paired : ∀ index, (allBuffers.getD index []).length = (allSizes.getD index []).length
  distinct : ∀ index,
    (addresses (sliceList (allBuffers.getD index []) (allSizes.getD index []))).Nodup
  separate : ∀ first second, first ≠ second →
    ∀ address ∈ addresses (sliceList (allBuffers.getD first []) (allSizes.getD first [])),
      address ∉ addresses (sliceList (allBuffers.getD second []) (allSizes.getD second []))

/-- `scatter_to_buffers`, from the given offset and buffer on. -/
def scatterToBuffers (world : World) (index total src : Nat) :
    Nat → Nat → List Slice → ReadOutcome
  | _, _, [] => {}
  | offset, piece, buffer :: rest =>
    if total ≤ offset then {}
    else
      let size := min buffer.size (total - offset)
      match world.scatter index piece with
      | .error error =>
        { writes := [copyWrite world index buffer.ptr (src + offset) size false]
          failures := [(index, error)] }
      | .ok () =>
        let tail := scatterToBuffers world index total src (offset + size) (piece + 1) rest
        { writes := copyWrite world index buffer.ptr (src + offset) size true :: tail.writes
          failures := tail.failures }

namespace MultiInquiry

variable (inquiry : MultiInquiry) (world : World)

def target (index : Nat) : List Slice :=
  sliceList (inquiry.allBuffers.getD index []) (inquiry.allSizes.getD index [])

def aligned : Bool :=
  inquiry.keys.length = inquiry.allBuffers.length &&
    inquiry.keys.length = inquiry.allSizes.length

/-- `dst_total_size`. -/
def capacity (index : Nat) : Nat :=
  wordSum (inquiry.allSizes.getD index [])

def planned : List Planned :=
  plannedReads (inquiry.planWithin inquiry.capacity) inquiry.keys

/-- An element of `valid_operations`. -/
def directOp (planned : Planned) : ReadOp where
  index := planned.index
  key := planned.key
  query := filterQueryResult planned.query planned.replica
  slices := inquiry.target planned.index
  totalSize := totalSize planned.replica

def directPlanned : List Planned :=
  inquiry.planned.filter fun planned => planned.route = .direct

def directOps : List ReadOp :=
  inquiry.directPlanned.map inquiry.directOp

/-- The keys that reach `valid_local_disk_ops`. -/
def storedPlanned : List Planned :=
  inquiry.planned.filter fun planned => planned.route ≠ .direct

/-- `valid_local_disk_ops`. -/
def storedOps : List Planned :=
  emplaceAll Planned.key inquiry.storedPlanned

def storedWalk (route : Route) : List Planned :=
  (world.walk Planned.key inquiry.storedOps).filter fun planned => planned.route = route

def localDiskOp (planned : Planned) : ReadOp :=
  { inquiry.directOp planned with query := planned.query }

/-- The check of `slice_total`. -/
def fitsSlices (planned : Planned) : Bool :=
  totalSize planned.replica ≤ calculateSliceSize (inquiry.target planned.index)

/-- One iteration of the loop that fills `offload_objects`. -/
def prepareOffload (planned : Planned) : Expected (String × ReadOp) :=
  match localDiskEndpoint planned.query with
  | none => .error .invalidReplica
  | some endpoint =>
    if !inquiry.fitsSlices planned then .error .invalidParams
    else .ok (endpoint, inquiry.localDiskOp planned)

def offloadPairs : List (String × ReadOp) :=
  preparedReads inquiry.prepareOffload (inquiry.storedWalk world .localDisk)

/-- One iteration of the loop that stages the DISK operations. -/
def prepareDisk (planned : Planned) : Expected StagedRead :=
  match world.allocate planned.index with
  | none => .error .noAvailableHandle
  | some temp =>
    match firstDiskReplica planned.query with
    | none => .error .invalidReplica
    | some replica => .ok (inquiry.stageDisk planned replica temp)

def diskReads : List StagedRead :=
  preparedReads (inquiry.prepareDisk world) (inquiry.storedWalk world .disk)

variable {inquiry} {index : Nat} {planned : Planned}

theorem calculateSliceSize_target
    (paired : (inquiry.allBuffers.getD index []).length = (inquiry.allSizes.getD index []).length) :
    calculateSliceSize (inquiry.target index) = inquiry.capacity index := by
  rw [calculateSliceSize, target, map_size_sliceList paired]
  rfl

/-- Where every buffer comes with its size, the second check repeats the first one. -/
theorem fitsSlices_of_paired
    (paired : (inquiry.allBuffers.getD planned.index []).length =
      (inquiry.allSizes.getD planned.index []).length)
    (fits : totalSize planned.replica ≤ inquiry.capacity planned.index) :
    inquiry.fitsSlices planned = true := by
  rw [← calculateSliceSize_target paired] at fits
  exact decide_eq_true fits

end MultiInquiry

namespace MultiRequest

open MultiInquiry

section Model

variable (request : MultiRequest) (world : World)

def directCall : BatchReadCall :=
  batchRead world 0 request.directOps request.preferAllocInSameNode

def diskCall : BatchReadCall :=
  batchRead world 1 ((request.diskReads world).map StagedRead.op)
    request.preferAllocInSameNode

def scatterDisk (read : StagedRead) : ReadOutcome :=
  scatterToBuffers world read.op.index read.op.totalSize
    (tempOf (request.diskReads world) read.op.key) 0 0 (request.target read.op.index)

def scattered : List ReadOutcome :=
  scatterAll (request.scatterDisk world) (request.diskReads world) (request.diskCall world)

def failures : List (Nat × ErrorCode) :=
  batchFailures request.directOps (request.directCall world) ++
    prepareFailures request.prepareOffload (request.storedWalk world .localDisk) ++
    (offloadReads world (request.offloadPairs world)).flatMap ReadOutcome.failures ++
    prepareFailures (request.prepareDisk world) (request.storedWalk world .disk) ++
    (request.scattered world).flatMap ReadOutcome.failures

def acceptedRun : BatchRun where
  results := settledResults (request.planWithin request.capacity) request.keys
    (request.failures world)
  writes := batchWrites world request.directOps (request.directCall world) ++
    (offloadReads world (request.offloadPairs world)).flatMap ReadOutcome.writes ++
    batchWrites world ((request.diskReads world).map StagedRead.op) (request.diskCall world) ++
    (request.scattered world).flatMap ReadOutcome.writes
  held := heldBlocks (request.diskReads world)

def batchGetIntoMultiBuffersInternal : BatchRun :=
  if !world.connected || !request.aligned then
    { results := request.keys.map fun _ => .error .invalidParams
      writes := []
      held := fun _ => [] }
  else request.acceptedRun world

theorem batchGetIntoMultiBuffersInternal_of_accepted (connected : world.connected = true)
    (aligned : request.aligned = true) :
    request.batchGetIntoMultiBuffersInternal world = request.acceptedRun world := by
  simp [batchGetIntoMultiBuffersInternal, connected, aligned]

end Model

/-! ## Planned keys -/

section Plan

variable {request : MultiRequest} {world : World}

variable {planned : Planned} {read : StagedRead}

theorem planned_sized (present : planned ∈ request.planned) :
    Sized request.toBatch planned ∧
      request.objectSize planned.key ≤ request.capacity planned.index :=
  plannedWithin_sized present

theorem mem_directPlanned :
    planned ∈ request.directPlanned ↔
      planned ∈ request.planned ∧ planned.route = .direct := by
  simp [directPlanned]

theorem mem_storedPlanned :
    planned ∈ request.storedPlanned ↔
      planned ∈ request.planned ∧ planned.route ≠ .direct := by
  simp [storedPlanned]

theorem directOps_ordered : Ordered request.directOps :=
  pairwise_map.mpr (plannedWithin_ordered.sublist filter_sublist)

theorem storedPlanned_ordered :
    request.storedPlanned.Pairwise fun before after => before.index < after.index :=
  plannedWithin_ordered.sublist filter_sublist

theorem mem_storedOps (kept : planned ∈ request.storedOps) :
    planned ∈ request.planned ∧ planned.route ≠ .direct :=
  mem_storedPlanned.mp (mem_of_mem_emplaceAll kept)

theorem mem_storedWalk {route : Route} :
    planned ∈ request.storedWalk world route ↔
      planned ∈ request.storedOps ∧ planned.route = route := by
  simp [storedWalk, World.mem_walk]

theorem storedOps_unique {first second : Planned} (kept : first ∈ request.storedOps)
    (kept' : second ∈ request.storedOps) (same : first.key = second.key) : first = second := by
  have lower := rank_le_of_mem_emplaceAll storedPlanned_ordered kept
    (mem_of_mem_emplaceAll kept') same.symm
  have upper := rank_le_of_mem_emplaceAll storedPlanned_ordered kept'
    (mem_of_mem_emplaceAll kept) same
  exact plannedWithin_unique (mem_storedOps kept).1 (mem_storedOps kept').1 (by omega)

theorem length_addresses (slices : List Slice) :
    (addresses slices).length = (slices.map Slice.size).sum := by
  simp [addresses, length_flatMap]

theorem target_place (present : planned ∈ request.planned) {position : Nat}
    (inObject : position < request.objectSize planned.key) :
    ∃ address, (addresses (request.target planned.index))[position]? = some address := by
  have fits := (planned_sized present).2
  rw [← calculateSliceSize_target (request.paired planned.index)] at fits
  refine ⟨_, getElem?_eq_getElem ?_⟩
  rw [length_addresses]
  exact inObject.trans_le (fits.trans wordSum_le)

theorem prepareDisk_staged (present : planned ∈ request.planned)
    (prepared : request.prepareDisk world planned = .ok read) :
    Staged request.toBatch world planned read := by
  have sized := (planned_sized present).1
  unfold prepareDisk at prepared
  split at prepared
  · cases prepared
  · rename_i temp allocated
    split at prepared
    · cases prepared
    · rename_i replica first
      cases prepared
      exact sized.stageDisk first allocated

theorem mem_diskReads :
    read ∈ request.diskReads world ↔
      ∃ planned ∈ request.storedWalk world .disk,
        request.prepareDisk world planned = .ok read :=
  mem_preparedReads

theorem diskReads_only {other : StagedRead} (listed : read ∈ request.diskReads world)
    (listed' : other ∈ request.diskReads world) (same : other.op.key = read.op.key) :
    other = read := by
  obtain ⟨planned, walked, prepared⟩ := mem_diskReads.mp listed
  obtain ⟨planned', walked', prepared'⟩ := mem_diskReads.mp listed'
  obtain ⟨kept, -⟩ := mem_storedWalk.mp walked
  obtain ⟨kept', -⟩ := mem_storedWalk.mp walked'
  have keys : planned'.key = planned.key := by
    rw [← (prepareDisk_staged (mem_storedOps kept).1 prepared).key,
      ← (prepareDisk_staged (mem_storedOps kept').1 prepared').key, same]
  have equal := storedOps_unique kept' kept keys
  subst equal
  rw [prepared, Except.ok.injEq] at prepared'
  exact prepared'.symm

end Plan

end MultiRequest

end Mooncake.Read
