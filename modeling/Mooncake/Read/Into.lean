import Mooncake.Read.Attributed

/-!
# Batch reads into one buffer per key

`batch_get_into_internal` sends MEMORY and NoF replicas straight into the
buffers of the caller, reads DISK replicas through temporary blocks, and asks
the owners of LOCAL_DISK replicas last.  Its slices, its LOCAL_DISK operations
and its temporary blocks are kept in maps from key.
-/

namespace Mooncake.Read

open Library.Indexed Library.Keyed Library.ByteMemory List

/-- The arguments of `batch_get_into_internal`, with the placement of the keys. -/
structure IntoInquiry extends Inquiry where
  buffers : List Nat
  sizes : List Nat

/-- No two buffers overlap. -/
structure IntoRequest extends Batch, IntoInquiry where
  separate : ∀ first second, first ≠ second →
    ∀ address ∈ List.range' (buffers.getD first 0) (sizes.getD first 0),
      address ∉ List.range' (buffers.getD second 0) (sizes.getD second 0)

namespace IntoInquiry

variable (inquiry : IntoInquiry) (world : World)

def target (index : Nat) : List Slice :=
  [⟨inquiry.buffers.getD index 0, inquiry.sizes.getD index 0⟩]

def aligned : Bool :=
  inquiry.keys.length = inquiry.buffers.length && inquiry.keys.length = inquiry.sizes.length

def capacity (index : Nat) : Nat :=
  inquiry.sizes.getD index 0

def planned : List Planned :=
  plannedReads (inquiry.planWithin inquiry.capacity) inquiry.keys

def routed (route : Route) : List Planned :=
  inquiry.planned.filter fun planned => planned.route = route

/-- An element of `valid_operations`. -/
def directOp (planned : Planned) : ReadOp where
  index := planned.index
  key := planned.key
  query := filterQueryResult planned.query planned.replica
  slices := inquiry.allocateSlices planned.replica (inquiry.buffers.getD planned.index 0)
  totalSize := totalSize planned.replica

def directOps : List ReadOp :=
  (inquiry.routed .direct).map inquiry.directOp

def directCall : BatchReadCall :=
  batchRead world 0 inquiry.directOps false

/-- One iteration of the loop over `disk_operations`. -/
def prepareDisk (planned : Planned) : Expected StagedRead :=
  match firstDiskReplica planned.query with
  | none => .error .invalidReplica
  | some replica =>
    match world.allocate planned.index with
    | none => .error .noAvailableHandle
    | some temp => .ok (inquiry.stageDisk planned replica temp)

def diskReads : List StagedRead :=
  preparedReads (inquiry.prepareDisk world) (inquiry.routed .disk)

def diskCall : BatchReadCall :=
  batchRead world 1 ((inquiry.diskReads world).map StagedRead.op) false

/-- The copy from a temporary block to the buffer of the caller. -/
def scatterDisk (read : StagedRead) : ReadOutcome :=
  let copy := copyWrite world read.op.index (inquiry.buffers.getD read.op.index 0)
    (tempOf (inquiry.diskReads world) read.op.key) read.op.totalSize
  match world.scatter read.op.index 0 with
  | .ok () => { writes := [copy true] }
  | .error error => { writes := [copy false], failures := [(read.op.index, error)] }

def scattered : List ReadOutcome :=
  scatterAll (inquiry.scatterDisk world) (inquiry.diskReads world) (inquiry.diskCall world)

def localDiskOp (planned : Planned) : ReadOp :=
  { inquiry.directOp planned with query := planned.query }

/-- `valid_local_disk_operations`. -/
def localDiskOps : List ReadOp :=
  emplaceAll ReadOp.key ((inquiry.routed .localDisk).map inquiry.localDiskOp)

/-- `offload_objects`, as it is filled. -/
def offloadPairs : List (String × ReadOp) :=
  (world.walk ReadOp.key inquiry.localDiskOps).filterMap fun op =>
    (localDiskEndpoint op.query).map fun endpoint => (endpoint, op)

def failures : List (Nat × ErrorCode) :=
  batchFailures inquiry.directOps (inquiry.directCall world) ++
    prepareFailures (inquiry.prepareDisk world) (inquiry.routed .disk) ++
    (inquiry.scattered world).flatMap ReadOutcome.failures ++
    (offloadReads world (inquiry.offloadPairs world)).flatMap ReadOutcome.failures

def acceptedRun : BatchRun where
  results := settledResults (inquiry.planWithin inquiry.capacity) inquiry.keys
    (inquiry.failures world)
  writes := batchWrites world inquiry.directOps (inquiry.directCall world) ++
    batchWrites world ((inquiry.diskReads world).map StagedRead.op) (inquiry.diskCall world) ++
    ((inquiry.scattered world).flatMap ReadOutcome.writes ++
      (offloadReads world (inquiry.offloadPairs world)).flatMap ReadOutcome.writes)
  held := heldBlocks (inquiry.diskReads world)

def batchGetIntoInternal : BatchRun :=
  if !world.connected || !inquiry.aligned then
    { results := inquiry.keys.map fun _ => .error .invalidParams
      writes := []
      held := fun _ => [] }
  else inquiry.acceptedRun world

theorem batchGetIntoInternal_of_accepted (connected : world.connected = true)
    (aligned : inquiry.aligned = true) :
    inquiry.batchGetIntoInternal world = inquiry.acceptedRun world := by
  simp [batchGetIntoInternal, connected, aligned]

end IntoInquiry

namespace IntoRequest

open IntoInquiry

/-! ## Planned keys -/

section Plan

variable {request : IntoRequest} {world : World}

variable {planned : Planned}

theorem planned_sized (present : planned ∈ request.planned) :
    Sized request.toBatch planned ∧
      request.objectSize planned.key ≤ request.sizes.getD planned.index 0 :=
  plannedWithin_sized present

theorem mem_routed {route : Route} :
    planned ∈ request.routed route ↔ planned ∈ request.planned ∧ planned.route = route := by
  simp [routed]

theorem routed_ordered {route : Route} :
    (request.routed route).Pairwise fun before after => before.index < after.index :=
  plannedWithin_ordered.sublist filter_sublist

theorem routed_unique {route route' : Route} {first second : Planned}
    (present : first ∈ request.routed route) (other : second ∈ request.routed route')
    (same : first.index = second.index) : first = second ∧ route = route' := by
  obtain ⟨planned, chosen⟩ := mem_routed.mp present
  obtain ⟨planned', chosen'⟩ := mem_routed.mp other
  have equal := plannedWithin_unique planned planned' same
  exact ⟨equal, by rw [← chosen, ← chosen', equal]⟩

theorem directOps_ordered : Ordered request.directOps :=
  pairwise_map.mpr (routed_ordered)

theorem addresses_target (index : Nat) :
    addresses (request.target index) =
      List.range' (request.buffers.getD index 0) (request.sizes.getD index 0) := by
  simp [target, addresses]

theorem target_place (present : planned ∈ request.planned) {position : Nat}
    (inObject : position < request.objectSize planned.key) :
    (addresses (request.target planned.index))[position]? =
      some (request.buffers.getD planned.index 0 + position) := by
  have fits := (planned_sized present).2
  rw [addresses_target, getElem?_range' (by omega), Nat.one_mul]

theorem addresses_directOp (present : planned ∈ request.planned) :
    addresses (request.directOp planned).slices =
      List.range' (request.buffers.getD planned.index 0)
        (request.objectSize planned.key) := by
  rw [directOp, request.covers, (planned_sized present).1.chosen]

theorem directOp_place (present : planned ∈ request.planned) {position : Nat}
    (inObject : position < request.objectSize planned.key) :
    (addresses (request.directOp planned).slices)[position]? =
      some (request.buffers.getD planned.index 0 + position) := by
  rw [addresses_directOp present, getElem?_range' inObject, Nat.one_mul]

theorem mem_target_of_mem_directOp (present : planned ∈ request.planned) {address : Nat}
    (inside : address ∈ addresses (request.directOp planned).slices) :
    address ∈ addresses (request.target planned.index) := by
  rw [addresses_directOp present, mem_range'_1] at inside
  rw [addresses_target, mem_range'_1]
  have fits := (planned_sized present).2
  omega

theorem prepareDisk_staged (routed : planned ∈ request.routed .disk) {read : StagedRead}
    (prepared : request.prepareDisk world planned = .ok read) :
    Staged request.toBatch world planned read := by
  have sized := (planned_sized (mem_routed.mp routed).1).1
  unfold prepareDisk at prepared
  split at prepared
  · cases prepared
  · rename_i replica first
    split at prepared
    · cases prepared
    · rename_i temp allocated
      cases prepared
      exact sized.stageDisk first allocated

theorem mem_diskReads {read : StagedRead} :
    read ∈ request.diskReads world ↔
      ∃ planned ∈ request.routed .disk, request.prepareDisk world planned = .ok read :=
  mem_preparedReads

theorem diskReads_ordered :
    (request.diskReads world).Pairwise fun before after =>
      before.op.index < after.op.index := by
  unfold diskReads preparedReads
  rw [pairwise_filterMap]
  refine (routed_ordered).imp_of_mem ?_
  intro before after present other earlier first found second found'
  have own : ∀ {planned : Planned} {read : StagedRead}, planned ∈ request.routed .disk →
      (request.prepareDisk world planned).toOption = some read →
        read.op.index = planned.index := by
    intro planned read routed accepted
    cases result : request.prepareDisk world planned with
    | error error =>
      rw [result] at accepted
      cases accepted
    | ok value =>
      rw [result] at accepted
      cases accepted
      exact (prepareDisk_staged routed result).index
  rw [own present found, own other found']
  exact earlier

end Plan

end IntoRequest

end Mooncake.Read
