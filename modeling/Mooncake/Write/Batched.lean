import Mooncake.Read.Request

/-!
# Batched writes of the real client

Four functions turn keys with values or buffers into one list of slices per index.
Three of them collect the slices in a map from key first: `put_batch_internal` and
`upsert_batch_internal` with `emplace`, `batch_put_from_internal` with an assignment.
`batch_upsert_from_internal` keeps them in a vector.
-/

namespace Mooncake.Write

open Library.Keyed Library.ByteMemory Read

abbrev Bytes := List UInt8

/-- The bytes that a list of slices refers to, in order. -/
def gather (memory : Memory) (slices : List Slice) : Bytes :=
  (addresses slices).map memory

def copyTo (ptr : Nat) (value : Bytes) (memory : Memory) : Memory :=
  fun address =>
    if ptr ≤ address ∧ address < ptr + value.length then value.getD (address - ptr) 0
    else memory address

/-- What the functions find in the client.  `split_into_slices` covers its block in order with
slices of limited size. -/
structure WriteClient where
  connected : Bool
  kMaxSliceSize : Nat
  splitIntoSlices : Nat → Nat → List Slice
  kMaxSliceSize_pos : 0 < kMaxSliceSize
  split_addresses : ∀ ptr size, addresses (splitIntoSlices ptr size) = List.range' ptr size
  split_bounded : ∀ ptr size, ∀ slice ∈ splitIntoSlices ptr size, slice.size ≤ kMaxSliceSize

/-- `ClientBufferAllocator`: the block for each call, by the number of the call and the size.
The blocks of one batch are held until its end, so they do not overlap. -/
structure BufferAllocator where
  allocate : Nat → Nat → Option Nat
  separate : ∀ first second size size' ptr ptr', first ≠ second →
    allocate first size = some ptr → allocate second size' = some ptr' →
      ptr + size ≤ ptr' ∨ ptr' + size' ≤ ptr

/-- The arguments of a batched write of the client, and the memory they refer to. -/
structure ClientBatch where
  keys : List ObjectKey
  slices : List (List Slice)
  memory : Memory

/-! ## Values -/

/-- The loop that copies the values into blocks; it ends when an allocation fails. -/
def stageAll (client : WriteClient) (allocator : BufferAllocator) :
    Nat → List (ObjectKey × Bytes) → Memory → Option (List (ObjectKey × List Slice) × Memory)
  | _, [], memory => some ([], memory)
  | index, (key, value) :: rest, memory =>
    match allocator.allocate index value.length with
    | none => none
    | some ptr =>
      (stageAll client allocator (index + 1) rest (copyTo ptr value memory)).map
        fun (pairs, final) => ((key, client.splitIntoSlices ptr value.length) :: pairs, final)

/-- The slices of every key, as they are found in the map. -/
def orderSlices (find : ObjectKey → Option (List Slice)) (keys : List ObjectKey) :
    Option (List (List Slice)) :=
  keys.mapM find

/-- What `put_batch_internal` and `upsert_batch_internal` do before they call the client. -/
def stageBatch (client : WriteClient) (allocator : Option BufferAllocator)
    (config : ReplicateConfig) (keys : List ObjectKey) (values : List Bytes) (memory : Memory) :
    Expected ClientBatch :=
  if config.preferAllocInSameNode then .error .invalidParams
  else if !client.connected then .error .invalidParams
  else if keys.length ≠ values.length then .error .invalidParams
  else
    match allocator with
    | none => .error .invalidParams
    | some allocator =>
      match stageAll client allocator 0 (keys.zip values) memory with
      | none => .error .invalidParams
      | some (pairs, staged) =>
        let batchedSlices := emplaceAll Prod.fst pairs
        let find := fun key => (batchedSlices.find? fun pair => pair.1 = key).map Prod.snd
        match orderSlices find keys with
        | none => .error .invalidParams
        | some slices => .ok ⟨keys, slices, staged⟩

def firstFailure : List (Expected Unit) → Expected Unit
  | [] => .ok ()
  | .error error :: _ => .error error
  | .ok () :: rest => firstFailure rest

def putBatchInternal (client : WriteClient) (allocator : Option BufferAllocator)
    (config : ReplicateConfig) (keys : List ObjectKey) (values : List Bytes) (memory : Memory)
    (batchPut : ClientBatch → List (Expected Unit)) : Expected Unit :=
  match stageBatch client allocator config keys values memory with
  | .error error => .error error
  | .ok batch => firstFailure (batchPut batch)

def upsertBatchInternal (client : WriteClient) (allocator : Option BufferAllocator)
    (config : ReplicateConfig) (keys : List ObjectKey) (values : List Bytes) (memory : Memory)
    (batchUpsert : ClientBatch → List (Expected Unit)) : Expected Unit :=
  match stageBatch client allocator config keys values memory with
  | .error error => .error error
  | .ok batch => firstFailure (batchUpsert batch)

/-! ## Buffers -/

/-- The loop over the chunks of a buffer. -/
def chunksFrom (client : WriteClient) (buffer size offset : Nat) : List Slice :=
  if offset < size then
    let chunkSize := min (size - offset) client.kMaxSliceSize
    ⟨buffer + offset, chunkSize⟩ :: chunksFrom client buffer size (offset + chunkSize)
  else []
termination_by size - offset
decreasing_by have := client.kMaxSliceSize_pos; omega

/-- The checks that both functions make, and the slices of each index. -/
def chunkBatch (client : WriteClient) (config : ReplicateConfig) (keys : List ObjectKey)
    (buffers sizes : List Nat) : Expected (List (List Slice)) :=
  if config.preferAllocInSameNode then .error .invalidParams
  else if !client.connected then .error .invalidParams
  else if keys.length ≠ buffers.length ∨ keys.length ≠ sizes.length then .error .invalidParams
  else .ok (List.zipWith (fun buffer size => chunksFrom client buffer size 0) buffers sizes)

/-- What `batch_put_from_internal` does before it calls the client. -/
def chunkPutBatch (client : WriteClient) (config : ReplicateConfig) (keys : List ObjectKey)
    (buffers sizes : List Nat) (memory : Memory) : Expected ClientBatch :=
  match chunkBatch client config keys buffers sizes with
  | .error error => .error error
  | .ok chunks =>
    let allSlices := assignAll Prod.fst Prod.snd (keys.zip chunks)
    match orderSlices allSlices.lookup keys with
    | none => .error .invalidParams
    | some slices => .ok ⟨keys, slices, memory⟩

/-- What `batch_upsert_from_internal` does before it calls the client. -/
def chunkUpsertBatch (client : WriteClient) (config : ReplicateConfig) (keys : List ObjectKey)
    (buffers sizes : List Nat) (memory : Memory) : Expected ClientBatch :=
  match chunkBatch client config keys buffers sizes with
  | .error error => .error error
  | .ok chunks => .ok ⟨keys, chunks, memory⟩

def batchPutFromInternal (client : WriteClient) (config : ReplicateConfig)
    (keys : List ObjectKey) (buffers sizes : List Nat) (memory : Memory)
    (batchPut : ClientBatch → List (Expected Unit)) : List (Expected Unit) :=
  match chunkPutBatch client config keys buffers sizes memory with
  | .error error => keys.map fun _ => .error error
  | .ok batch => batchPut batch

def batchUpsertFromInternal (client : WriteClient) (config : ReplicateConfig)
    (keys : List ObjectKey) (buffers sizes : List Nat) (memory : Memory)
    (batchUpsert : ClientBatch → List (Expected Unit)) : List (Expected Unit) :=
  match chunkUpsertBatch client config keys buffers sizes memory with
  | .error error => keys.map fun _ => .error error
  | .ok batch => batchUpsert batch

/-! ## One write -/

inductive BatchedWrite where
  | putBatch (allocator : Option BufferAllocator) (config : ReplicateConfig)
      (keys : List ObjectKey) (values : List Bytes)
  | batchPutFrom (config : ReplicateConfig) (keys : List ObjectKey) (buffers sizes : List Nat)
  | batchUpsertFrom (config : ReplicateConfig) (keys : List ObjectKey) (buffers sizes : List Nat)
  | upsertBatch (allocator : Option BufferAllocator) (config : ReplicateConfig)
      (keys : List ObjectKey) (values : List Bytes)

namespace BatchedWrite

def keys : BatchedWrite → List ObjectKey
  | .putBatch _ _ keys _ => keys
  | .batchPutFrom _ keys _ _ => keys
  | .batchUpsertFrom _ keys _ _ => keys
  | .upsertBatch _ _ keys _ => keys

def values (memory : Memory) : BatchedWrite → List Bytes
  | .putBatch _ _ _ values => values
  | .batchPutFrom _ _ buffers sizes =>
    List.zipWith (fun buffer size => (List.range' buffer size).map memory) buffers sizes
  | .batchUpsertFrom _ _ buffers sizes =>
    List.zipWith (fun buffer size => (List.range' buffer size).map memory) buffers sizes
  | .upsertBatch _ _ _ values => values

def passed (client : WriteClient) (memory : Memory) : BatchedWrite → Expected ClientBatch
  | .putBatch allocator config keys values =>
    stageBatch client allocator config keys values memory
  | .batchPutFrom config keys buffers sizes =>
    chunkPutBatch client config keys buffers sizes memory
  | .batchUpsertFrom config keys buffers sizes =>
    chunkUpsertBatch client config keys buffers sizes memory
  | .upsertBatch allocator config keys values =>
    stageBatch client allocator config keys values memory

end BatchedWrite

/-! ## Upserts in order -/

abbrev Objects := ObjectKey → Option Bytes

/-- The upserts of keys with values, one after the other, all of them successful. -/
def upsertEach (pairs : List (ObjectKey × Bytes)) (objects : Objects) : Objects :=
  pairs.foldl (fun objects pair => fun key => if key = pair.1 then some pair.2 else objects key)
    objects

/-- A client that processes the operations of one batch in order. -/
def ClientBatch.upsert (batch : ClientBatch) (objects : Objects) : Objects :=
  upsertEach (batch.keys.zip (batch.slices.map (gather batch.memory))) objects

end Mooncake.Write
