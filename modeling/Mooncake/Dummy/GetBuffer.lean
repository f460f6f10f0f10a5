import Mooncake.Read.Client

/-!
# Buffers of the dummy client

A dummy client maps the shared hot cache of its real client.  `get_buffer` and
`batch_get_buffer` first ask the real client for a pinned block and wrap its
place in the mapping in a handle whose release unpins the block; otherwise they
fall back to a buffer of the allocator.  A request to the real client may be
refused, or be executed without its answer reaching the dummy client.
-/

namespace Mooncake.Dummy

open Read Library.Indexed List

/-! ## The real client -/

/-- `SIZE_MAX`, the offset of an address outside the shared memory. -/
def sizeMax : UInt64 := .ofNat (2 ^ 64 - 1)

/-- What the hot cache of the real client answers during one call. -/
structure HotCacheView where
  enabled : Bool
  getHotKey : Nat → ObjectKey → Option HotMemBlock
  getBlockOffset : Nat → UInt64

/-- What a request returns, and what it did to the hot cache. -/
structure Served (α : Type) where
  result : α
  events : List ReadEvent

/-- `acquire_hot_cache`, and the body of the loop of `batch_acquire_hot_cache`. -/
def acquireHotCache (cache : HotCacheView) (index : Nat) (key : ObjectKey) :
    Served (Expected (Nat × Nat)) :=
  if !cache.enabled then ⟨.error .invalidParams, []⟩
  else
    match cache.getHotKey index key with
    | none => ⟨.error .objectNotFound, [.getHotKey key none]⟩
    | some block =>
      if cache.getBlockOffset block.addr = sizeMax then
        ⟨.error .internalError, [.getHotKey key (some block), .releaseHotKey key]⟩
      else
        ⟨.ok ((cache.getBlockOffset block.addr).toNat, block.size), [.getHotKey key (some block)]⟩

def batchAcquireHotCache (cache : HotCacheView) (keys : List ObjectKey) :
    Served (List (Expected (Nat × Nat))) :=
  let acquired := keys.mapIdx (acquireHotCache cache)
  ⟨acquired.map Served.result, acquired.flatMap Served.events⟩

/-! ## Requests -/

inductive RpcOutcome where
  | refused
  | lost
  | delivered
  deriving DecidableEq, Repr

/-- The settings of the dummy client; `hotCacheBase` is `none` until the shared
memory is mapped. -/
structure DummyClient where
  connected : Bool := true
  hotCacheBase : Option Nat := none
  hotCacheSize : Nat := 0
  deriving DecidableEq, Repr

/-- `invoke_rpc` and `invoke_batch_rpc`, which differ in the value that stands for
an error. -/
def invoke {α : Type} (client : DummyClient) (outcome : RpcOutcome) (failure : α)
    (served : Served α) : Served α :=
  if !client.connected then ⟨failure, []⟩
  else
    match outcome with
    | .refused => ⟨failure, []⟩
    | .lost => ⟨failure, served.events⟩
    | .delivered => served

/-! ## Handles -/

inductive Release where
  | releaseHotCache (key : ObjectKey)
  | releaseBufferDummy (dummyAddr : Nat)
  deriving DecidableEq, Repr

structure BufferHandle where
  ptr : Nat
  size : Nat
  release : Release
  deriving DecidableEq, Repr

/-- The environment of one call.  `acquireBuffer` is the answer of
`acquire_buffer_dummy`, or of its batch form at the given position. -/
structure DummyAnswers where
  cache : HotCacheView
  rpc : RpcOutcome
  acquireBuffer : Nat → ObjectKey → Expected (Nat × Nat)

/-- The bound check on `offset + size`, which is computed in 64 bits. -/
def outOfBounds (client : DummyClient) (offset size : Nat) : Bool :=
  client.hotCacheSize < (offset + size) % 2 ^ 64

/-- The pointer is computed in 64 bits too. -/
def hotHandle (base : Nat) (key : ObjectKey) (offset size : Nat) : BufferHandle where
  ptr := (base + offset) % 2 ^ 64
  size := size
  release := .releaseHotCache key

def allocatedHandle (answer : Expected (Nat × Nat)) : Option BufferHandle :=
  match answer with
  | .error _ => none
  | .ok (dummyAddr, size) => some ⟨dummyAddr, size, .releaseBufferDummy dummyAddr⟩

structure DummyCall where
  handle : Option BufferHandle
  events : List ReadEvent

def getBuffer (client : DummyClient) (answers : DummyAnswers) (key : ObjectKey) : DummyCall :=
  match client.hotCacheBase with
  | none => ⟨allocatedHandle (answers.acquireBuffer 0 key), []⟩
  | some base =>
    let acquired := invoke client answers.rpc (.error .rpcFail)
      (acquireHotCache answers.cache 0 key)
    match acquired.result with
    | .error _ => ⟨allocatedHandle (answers.acquireBuffer 0 key), acquired.events⟩
    | .ok (offset, size) =>
      if outOfBounds client offset size then ⟨none, acquired.events⟩
      else ⟨some (hotHandle base key offset size), acquired.events⟩

structure DummyBatchCall where
  handles : List (Option BufferHandle)
  events : List ReadEvent

/-- One iteration of the first loop of `batch_get_buffer`; `none` is a miss. -/
def hotResult (client : DummyClient) (base : Nat) (key : ObjectKey)
    (result : Expected (Nat × Nat)) : Option BufferHandle :=
  match result with
  | .error _ => none
  | .ok (offset, size) =>
    if outOfBounds client offset size then none
    else some (hotHandle base key offset size)

def hotPhase (client : DummyClient) (answers : DummyAnswers) (keys : List ObjectKey) :
    DummyBatchCall :=
  match client.hotCacheBase with
  | none => ⟨keys.map fun _ => none, []⟩
  | some base =>
    let acquired := invoke client answers.rpc (keys.map fun _ => .error .rpcFail)
      (batchAcquireHotCache answers.cache keys)
    ⟨List.zipWith (hotResult client base) keys acquired.result, acquired.events⟩

def batchGetBuffer (client : DummyClient) (answers : DummyAnswers) (keys : List ObjectKey) :
    DummyBatchCall :=
  if keys = [] then ⟨[], []⟩
  else
    let hot := hotPhase client answers keys
    let missIndices := positions Option.isNone hot.handles
    let missKeys := missIndices.filterMap fun index => keys[index]?
    let allocResults := missKeys.mapIdx fun position key =>
      allocatedHandle (answers.acquireBuffer position key)
    ⟨assignAt (missIndices.zip allocResults) hot.handles, hot.events⟩

/-! ## Where a handle of the hot cache comes from -/

variable {index : Nat} {key : ObjectKey} {handle : BufferHandle} {client : DummyClient}
  {answers : DummyAnswers} {keys : List ObjectKey}

theorem acquireHotCache_ok {cache : HotCacheView} {offset size : Nat}
    (acquired : (acquireHotCache cache index key).result = .ok (offset, size)) :
    ∃ block, cache.getHotKey index key = some block ∧
      cache.getBlockOffset block.addr ≠ sizeMax ∧
      offset = (cache.getBlockOffset block.addr).toNat ∧ size = block.size := by
  unfold acquireHotCache at acquired
  split at acquired
  · cases acquired
  · split at acquired
    · cases acquired
    · rename_i block found
      split at acquired
      · cases acquired
      · rename_i shared
        cases acquired
        exact ⟨block, found, shared, rfl, rfl⟩

theorem invoke_result {α : Type} (client : DummyClient) (outcome : RpcOutcome) (failure : α)
    (served : Served α) :
    (invoke client outcome failure served).result = failure ∨
      (invoke client outcome failure served).result = served.result := by
  unfold invoke
  split
  · exact .inl rfl
  · cases outcome with
    | refused => exact .inl rfl
    | lost => exact .inl rfl
    | delivered => exact .inr rfl

/-- A handle that unpins a block shows a block that the hot cache gave for the key. -/
structure FromHotCache (client : DummyClient) (cache : HotCacheView) (index : Nat)
    (key : ObjectKey) (handle : BufferHandle) (base : Nat) (block : HotMemBlock) : Prop where
  mapped : client.hotCacheBase = some base
  found : cache.getHotKey index key = some block
  shared : cache.getBlockOffset block.addr ≠ sizeMax
  handle_eq :
    handle = hotHandle base key (cache.getBlockOffset block.addr).toNat block.size

theorem allocatedHandle_release {answer : Expected (Nat × Nat)}
    (allocated : allocatedHandle answer = some handle) :
    handle.release ≠ .releaseHotCache key := by
  unfold allocatedHandle at allocated
  split at allocated
  · cases allocated
  · cases allocated
    simp

theorem hotResult_some {base : Nat} {result : Expected (Nat × Nat)}
    (hit : hotResult client base key result = some handle) :
    ∃ offset size, result = .ok (offset, size) ∧ outOfBounds client offset size = false ∧
      handle = hotHandle base key offset size := by
  unfold hotResult at hit
  split at hit
  · cases hit
  · rename_i offset size
    split at hit
    · cases hit
    · rename_i inside
      cases hit
      exact ⟨offset, size, rfl, by simpa using inside, rfl⟩

theorem getBuffer_eq (answers : DummyAnswers) (key : ObjectKey) {base : Nat}
    (mapped : client.hotCacheBase = some base) :
    let acquired := invoke client answers.rpc (.error .rpcFail)
      (acquireHotCache answers.cache 0 key)
    (getBuffer client answers key).events = acquired.events ∧
      ((getBuffer client answers key).handle = hotResult client base key acquired.result ∨
        (hotResult client base key acquired.result = none ∧
          (getBuffer client answers key).handle =
            allocatedHandle (answers.acquireBuffer 0 key))) := by
  unfold getBuffer
  rw [mapped]
  dsimp only
  generalize (invoke client answers.rpc (.error .rpcFail)
    (acquireHotCache answers.cache 0 key)).result = result
  cases result with
  | error error => exact ⟨rfl, .inr ⟨rfl, rfl⟩⟩
  | ok place =>
    obtain ⟨offset, size⟩ := place
    dsimp only [hotResult]
    split <;> exact ⟨rfl, .inl rfl⟩

theorem getBuffer_hit {other : ObjectKey}
    (returned : (getBuffer client answers key).handle = some handle)
    (pinned : handle.release = .releaseHotCache other) :
    ∃ base block, FromHotCache client answers.cache 0 key handle base block := by
  cases mapped : client.hotCacheBase with
  | none =>
    simp only [getBuffer, mapped] at returned
    exact absurd pinned (allocatedHandle_release returned)
  | some base =>
    obtain ⟨-, hit | ⟨-, allocated⟩⟩ := getBuffer_eq answers key mapped
    · rw [returned] at hit
      obtain ⟨offset, size, ok, -, rfl⟩ := hotResult_some hit.symm
      have served : (acquireHotCache answers.cache 0 key).result = .ok (offset, size) := by
        rcases invoke_result client answers.rpc (.error .rpcFail)
            (acquireHotCache answers.cache 0 key) with failed | answered
        · rw [failed] at ok
          cases ok
        · exact answered ▸ ok
      obtain ⟨block, found, shared, rfl, rfl⟩ := acquireHotCache_ok served
      exact ⟨base, block, mapped, found, shared, rfl⟩
    · rw [returned] at allocated
      exact absurd pinned (allocatedHandle_release allocated.symm)

theorem getElem?_batchAcquireHotCache {cache : HotCacheView} :
    (batchAcquireHotCache cache keys).result[index]? =
      keys[index]?.map fun key => (acquireHotCache cache index key).result := by
  simp only [batchAcquireHotCache, getElem?_map, getElem?_mapIdx, Option.map_map]
  rfl

theorem hotPhase_hit (hit : (hotPhase client answers keys).handles[index]? = some (some handle)) :
    ∃ key base block, keys[index]? = some key ∧
      FromHotCache client answers.cache index key handle base block := by
  unfold hotPhase at hit
  split at hit
  · rw [getElem?_map] at hit
    obtain ⟨_, -, impossible⟩ := Option.map_eq_some_iff.mp hit
    cases impossible
  · rename_i base mapped
    dsimp only at hit
    rw [getElem?_zipWith] at hit
    cases named : keys[index]? with
    | none => simp [named] at hit
    | some key =>
      rw [named] at hit
      split at hit
      · rename_i first result same read
        cases same
        obtain ⟨offset, size, rfl, -, rfl⟩ := hotResult_some (Option.some.inj hit)
        have served : (acquireHotCache answers.cache index key).result = .ok (offset, size) := by
          rcases invoke_result client answers.rpc (keys.map fun _ => .error .rpcFail)
              (batchAcquireHotCache answers.cache keys) with failed | answered
          · rw [failed, getElem?_map, named] at read
            cases read
          · rw [answered, getElem?_batchAcquireHotCache, named] at read
            exact Option.some.inj read
        obtain ⟨block, found, shared, rfl, rfl⟩ := acquireHotCache_ok served
        exact ⟨key, base, block, rfl, mapped, found, shared, rfl⟩
      · cases hit

theorem batchGetBuffer_handles {handle : Option BufferHandle}
    (returned : (batchGetBuffer client answers keys).handles[index]? = some handle) :
    (hotPhase client answers keys).handles[index]? = some handle ∨
      (hotPhase client answers keys).handles[index]? = some none ∧
        ∃ answer, handle = allocatedHandle answer := by
  unfold batchGetBuffer at returned
  split at returned
  · simp at returned
  · dsimp only at returned
    rcases getElem?_assignAt_cases returned with ⟨-, kept⟩ | assigned
    · exact .inl kept
    · have missed := (of_mem_zip assigned).1
      have allocated := (of_mem_zip assigned).2
      obtain ⟨value, found, absent⟩ := mem_positions.mp missed
      rw [Option.isNone_iff_eq_none] at absent
      obtain ⟨position, inside, same⟩ := mem_mapIdx.mp allocated
      exact .inr ⟨absent ▸ found, _, same.symm⟩

theorem batchGetBuffer_hit {other : ObjectKey}
    (returned : (batchGetBuffer client answers keys).handles[index]? = some (some handle))
    (pinned : handle.release = .releaseHotCache other) :
    ∃ key base block, keys[index]? = some key ∧
      FromHotCache client answers.cache index key handle base block := by
  rcases batchGetBuffer_handles returned with hit | ⟨-, answer, allocated⟩
  · exact hotPhase_hit hit
  · exact absurd pinned (allocatedHandle_release allocated.symm)

end Mooncake.Dummy
