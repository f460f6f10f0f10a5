import Mooncake.Read.BatchWrites

/-!
# Batch reads into new blocks

`batch_get_buffer_internal` allocates a block for each key and gives it to the
caller as a handle.  MEMORY, NoF and DISK objects are read by one `BatchGet`.
LOCAL_DISK objects are asked from their owners: the map of one owner keeps the
first block of a key, while `disk_key_to_idx` leads to the last one.
-/

namespace Mooncake.Read

open Library.Indexed Library.Keyed Library.ByteMemory

/-- A key with the block allocated for its object. -/
structure BufferOp where
  planned : Planned
  handle : Handle

/-- The handles given to the caller, the writes, and the block of each index. -/
structure BufferRun where
  results : List (Option Handle)
  writes : List Write
  held : Nat → List Slice

/-- The keys whose owner was read, in the order of the loops. -/
def offloadedKeys (world : World) (pairs : List (String × ReadOp)) : List ObjectKey :=
  let offloadObjects := pairs.foldl appendTo ∅
  (world.order offloadObjects.keys).flatMap fun endpoint =>
    match offloadResult world pairs endpoint with
    | .error _ => []
    | .ok () => (world.walk ReadOp.key (group offloadObjects endpoint)).map ReadOp.key

/-- Handles are moved out of their operations; a second move of one operation
finds a handle without a block. -/
def moveHandles (world : World) : List BufferOp → List Nat → List (Nat × Option Handle)
  | [], _ => []
  | op :: rest, moved =>
    let index := op.planned.index
    (index, some (if index ∈ moved then world.movedFrom else op.handle)) ::
      moveHandles world rest (index :: moved)

namespace Inquiry

section Model

variable (inquiry : Inquiry) (world : World)

/-- The rest of the loop over the keys: an empty object is skipped, and so is
one that gets no block. -/
def allocateBuffer (planned : Planned) : Option BufferOp :=
  if totalSize planned.replica = 0 then none
  else (world.allocate planned.index).map fun ptr =>
    { planned := planned, handle := { ptr := ptr, size := totalSize planned.replica } }

def chosenReads : List Planned :=
  plannedReads inquiry.choose inquiry.keys

def bufferOps : List BufferOp :=
  inquiry.chosenReads.filterMap (allocateBuffer world)

def validOps : List BufferOp :=
  (inquiry.bufferOps world).filter fun op => op.planned.route ≠ .localDisk

def diskOps : List BufferOp :=
  (inquiry.bufferOps world).filter fun op => op.planned.route = .localDisk

def validRead (op : BufferOp) : ReadOp where
  index := op.planned.index
  key := op.planned.key
  query := filterQueryResult op.planned.query op.planned.replica
  slices := inquiry.allocateSlices op.planned.replica op.handle.ptr
  totalSize := op.handle.size

def diskRead (op : BufferOp) : ReadOp where
  index := op.planned.index
  key := op.planned.key
  query := filterQueryResult op.planned.query op.planned.replica
  slices := [⟨op.handle.ptr, op.handle.size⟩]
  totalSize := op.handle.size

def validReads : List ReadOp :=
  (inquiry.validOps world).map inquiry.validRead

def validCall : BatchReadCall :=
  batchRead world 0 (inquiry.validReads world) false

/-- The loop over `batch_get_results`. -/
def validResults : List (Nat × Option Handle) :=
  ((inquiry.validOps world).zip (inquiry.validCall world).results).filterMap fun entry =>
    match entry.2 with
    | .ok () => some (entry.1.planned.index, some entry.1.handle)
    | .error _ => none

/-- `offload_objects`, as the pairs that were emplaced in it. -/
def offloadPairs : List (String × ReadOp) :=
  emplaceAll (fun pair => (pair.1, pair.2.key))
    ((inquiry.diskOps world).filterMap fun op =>
      (localDiskEndpoint (diskRead op).query).map fun endpoint => (endpoint, diskRead op))

/-- `disk_key_to_idx`, with the operation at the index. -/
def diskKeyToIdx : AList fun _ : ObjectKey => BufferOp :=
  assignAll (fun op => op.planned.key) id
    ((inquiry.diskOps world).filter fun op => (localDiskEndpoint (diskRead op).query).isSome)

/-- The operations whose handle is given away after the reads of the owners. -/
def settledOps : List BufferOp :=
  (offloadedKeys world (inquiry.offloadPairs world)).filterMap
    (inquiry.diskKeyToIdx world).lookup

def batchGetBufferInternal : BufferRun :=
  if !world.connected then
    { results := inquiry.keys.map fun _ => none
      writes := []
      held := fun _ => [] }
  else
    { results := assignAt
        (inquiry.validResults world ++ moveHandles world (inquiry.settledOps world) [])
        (inquiry.keys.map fun _ => none)
      writes := batchWrites world (inquiry.validReads world) (inquiry.validCall world) ++
        (offloadReads world (inquiry.offloadPairs world)).flatMap ReadOutcome.writes
      held := fun index =>
        ((inquiry.bufferOps world).filter fun op => op.planned.index = index).map
          fun op => ⟨op.handle.ptr, op.handle.size⟩ }

end Model

end Inquiry

/-- A handle at an index holds the object, and what is written for an index is
the block allocated for it. -/
structure BufferRun.IndexCorrect (run : BufferRun) (batch : Batch) (world : World) :
    Prop where
  holds : ∀ (index : Nat) (handle : Handle) (key : ObjectKey),
    run.results[index]? = some (some handle) → batch.keys[index]? = some key →
      handle.size = batch.objectSize key ∧
        Holds (applyAll run.writes world.memory) (List.range' handle.ptr handle.size)
          handle.size (world.object key)
  confined : ∀ write ∈ run.writes, ∀ address ∈ write.domain,
    address ∈ addresses (run.held write.behalf)

end Mooncake.Read
