import Mooncake.Dummy.GetBuffer
import Mooncake.Library.Runs

/-!
# The mapping of the hot cache across restarts

`setup_dummy` maps the hot cache of the real client that runs at that time, and only
`tearDownAll` gives the mapping up.  The ping thread reconnects to whatever real client
answers next and leaves the mapping as it is.  The model numbers the real clients and
remembers whose memory is mapped.
-/

namespace Mooncake.Dummy

open Read Library.Runs List

/-! ## The processes -/

/-- A real client: its number, and its hot cache with the segment that it shares. -/
structure RealInstance where
  generation : Nat
  hotCacheEnabled : Bool
  shmSegment : Option UInt64
  deriving DecidableEq, Repr

/-- The segment that `handle_ipc_shm_fd_request` sends. -/
def RealInstance.hotCacheShm (real : RealInstance) : Option UInt64 :=
  if real.hotCacheEnabled then real.shmSegment else none

/-- A dummy client and the real client that it reaches.  `origin` is the number of the real
client whose hot cache is mapped, if one is. -/
structure HotLink where
  real : RealInstance
  client : DummyClient := { connected := false }
  origin : Nat := 0
  pingRunning : Bool := false
  reconnecting : Bool := false
  terminated : Bool := false
  deriving DecidableEq, Repr

/-- What `setup_dummy` is answered.  `mmap` is the address at which a segment of the given size
is mapped; the mapping ends below the last address. -/
structure SetupAnswers where
  serviceReady : Bool
  localBufferSize : Nat
  allocate : Bool
  registerShm : Bool
  fdRequest : Bool
  mmap : (size : UInt64) → Option { base : Nat // base + size.toNat < 2 ^ 64 }

/-- What a call finds in the hot cache, on its way there, and in the allocator. -/
structure HotAnswers where
  getHotKey : Nat → ObjectKey → Option HotMemBlock
  getBlockOffset : Nat → UInt64
  rpc : RpcOutcome
  acquireBuffer : Nat → ObjectKey → Expected (Nat × Nat)

namespace HotLink

variable (link : HotLink)

/-! ## Setup and the ping thread -/

/-- `request_hot_cache_fd`; a failure leaves the members as they are. -/
def requestHotCacheFd (answers : SetupAnswers) : HotLink :=
  if !answers.fdRequest then link
  else
    match link.real.hotCacheShm with
    | none => link
    | some size =>
      match answers.mmap size with
      | none => link
      | some base =>
        { link with
          client := { link.client with
            hotCacheBase := some base.1
            hotCacheSize := size.toNat }
          origin := link.real.generation }

/-- The assignment of the new ping thread, which ends the process while one is running. -/
def startPing : HotLink :=
  if link.pingRunning then { link with terminated := true }
  else { link with pingRunning := true }

def setupDummy (answers : SetupAnswers) : HotLink :=
  if !answers.serviceReady then link
  else
    let connected := { link with client := { link.client with connected := true } }
    if answers.localBufferSize = 0 then connected.startPing
    else if !answers.allocate then connected
    else if !answers.registerShm then connected
    else (connected.requestHotCacheFd answers).startPing

def tearDownAll : HotLink :=
  { link with
    client := { connected := false, hotCacheBase := none, hotCacheSize := 0 }
    pingRunning := false
    reconnecting := false }

/-- A round of the ping thread: a ping, or an attempt of the reconnection loop. -/
def pingRound (healthy : Bool) : HotLink :=
  if !link.pingRunning then link
  else if link.reconnecting then
    if healthy then
      { link with client := { link.client with connected := true }, reconnecting := false }
    else link
  else if healthy then link
  else { link with client := { link.client with connected := false }, reconnecting := true }

def restart (hotCacheEnabled : Bool) (shmSegment : Option UInt64) : HotLink :=
  { link with real := ⟨link.real.generation + 1, hotCacheEnabled, shmSegment⟩ }

/-! ## Reads -/

def answers (given : HotAnswers) : DummyAnswers where
  cache :=
    { enabled := link.real.hotCacheEnabled
      getHotKey := given.getHotKey
      getBlockOffset := given.getBlockOffset }
  rpc := given.rpc
  acquireBuffer := given.acquireBuffer

end HotLink

inductive HotAction where
  | setupDummy (answers : SetupAnswers)
  | tearDownAll
  | pingRound (healthy : Bool)
  | restart (hotCacheEnabled : Bool) (shmSegment : Option UInt64)
  | getBuffer (given : HotAnswers) (key : ObjectKey)
  | batchGetBuffer (given : HotAnswers) (keys : List ObjectKey)

def HotAction.asked : HotAction → Option (HotAnswers × List ObjectKey)
  | .getBuffer given key => some (given, [key])
  | .batchGetBuffer given keys => some (given, keys)
  | _ => none

namespace HotLink

variable (link : HotLink)

/-- The state after an action; a terminated process takes no further part. -/
def next : HotAction → HotLink
  | .restart hotCacheEnabled shmSegment => link.restart hotCacheEnabled shmSegment
  | .setupDummy answers => if link.terminated then link else link.setupDummy answers
  | .tearDownAll => if link.terminated then link else link.tearDownAll
  | .pingRound healthy => if link.terminated then link else link.pingRound healthy
  | .getBuffer _ _ | .batchGetBuffer _ _ => link

def returned : HotAction → List (Option BufferHandle)
  | .getBuffer given key =>
    if link.terminated then []
    else [(getBuffer link.client (link.answers given) key).handle]
  | .batchGetBuffer given keys =>
    if link.terminated then []
    else (batchGetBuffer link.client (link.answers given) keys).handles
  | _ => []

/-! ## Handles of the hot cache -/

/-- The mapped memory is that of the current real client. -/
def Current : Prop := link.origin = link.real.generation

/-- The handle shows memory of the current hot cache, inside the mapping. -/
structure Shows (handle : BufferHandle) : Prop where
  current : link.Current
  inside : ∃ base, link.client.hotCacheBase = some base ∧ base ≤ handle.ptr ∧
    handle.ptr + handle.size ≤ base + link.client.hotCacheSize

/-- Every handle that an action returns from the hot cache shows the current one. -/
def HandlesSound (action : HotAction) : Prop :=
  ∀ handle, some handle ∈ link.returned action →
    ∀ key, handle.release = .releaseHotCache key → link.Shows handle

/-- The dummy client is told the place of a block, and the wrapped end of the block lies in the
mapping. -/
structure Hit (given : HotAnswers) (index : Nat) (key : ObjectKey) (offset size : Nat) : Prop where
  mapped : link.client.hotCacheBase.isSome = true
  connected : link.client.connected = true
  delivered : given.rpc = .delivered
  acquired : (acquireHotCache (link.answers given).cache index key).result = .ok (offset, size)
  passes : (offset + size) % 2 ^ 64 ≤ link.client.hotCacheSize

/-- The real client is the one whose memory is mapped whenever a block is hit, and the end of
the block does not overflow. -/
def HitsCurrent (action : HotAction) : Prop :=
  link.terminated = false → ∀ given keys, action.asked = some (given, keys) →
    ∀ index key offset size, keys[index]? = some key → link.Hit given index key offset size →
      link.Current ∧ offset + size < 2 ^ 64

/-! ## A handle is made for each hit -/

def hotAt (given : HotAnswers) (index : Nat) (key : ObjectKey) : Option BufferHandle :=
  link.client.hotCacheBase.bind fun base =>
    hotResult link.client base key
      (invoke link.client given.rpc (.error .rpcFail)
        (acquireHotCache (link.answers given).cache index key)).result

theorem invoke_eq_ok_iff {α : Type} {client : DummyClient} {outcome : RpcOutcome}
    {error : ErrorCode} {served : Served (Expected α)} {value : α} :
    (invoke client outcome (.error error) served).result = .ok value ↔
      client.connected = true ∧ outcome = .delivered ∧ served.result = .ok value := by
  unfold invoke
  cases client.connected <;> cases outcome <;> simp

variable {link} {given : HotAnswers}

variable {index : Nat} {key : ObjectKey} {keys : List ObjectKey}

theorem hotAt_eq_some_iff {handle : BufferHandle} :
    link.hotAt given index key = some handle ↔
      ∃ base offset size, link.client.hotCacheBase = some base ∧
        link.Hit given index key offset size ∧ handle = hotHandle base key offset size := by
  rw [hotAt, Option.bind_eq_some_iff]
  constructor
  · rintro ⟨base, mapped, hit⟩
    obtain ⟨offset, size, answered, inside, same⟩ := hotResult_some hit
    obtain ⟨connected, delivered, acquired⟩ := invoke_eq_ok_iff.mp answered
    rw [outOfBounds, decide_eq_false_iff_not, Nat.not_lt] at inside
    exact ⟨base, offset, size, mapped,
      ⟨by rw [mapped]; rfl, connected, delivered, acquired, inside⟩, same⟩
  · rintro ⟨base, offset, size, mapped, hit, rfl⟩
    refine ⟨base, mapped, ?_⟩
    have inside : outOfBounds link.client offset size = false := by
      rw [outOfBounds, decide_eq_false_iff_not, Nat.not_lt]
      exact hit.passes
    rw [invoke_eq_ok_iff.mpr ⟨hit.connected, hit.delivered, hit.acquired⟩]
    simp [hotResult, inside]

/-- A returned value is what the hot cache gives, or comes from the allocator. -/
def FromEither (hot value : Option BufferHandle) : Prop :=
  value = hot ∨ hot = none ∧ ∃ answer, value = allocatedHandle answer

theorem hotAt_of_unmapped (unmapped : link.client.hotCacheBase = none) (index : Nat)
    (key : ObjectKey) : link.hotAt given index key = none := by
  rw [hotAt, unmapped]
  rfl

theorem hotAt_of_mapped {base : Nat} (mapped : link.client.hotCacheBase = some base) :
    link.hotAt given index key = hotResult link.client base key
      (invoke link.client given.rpc (.error .rpcFail)
        (acquireHotCache (link.answers given).cache index key)).result := by
  rw [hotAt, mapped]
  rfl

theorem getBuffer_fromEither :
    FromEither (link.hotAt given 0 key)
      (getBuffer link.client (link.answers given) key).handle := by
  cases mapped : link.client.hotCacheBase with
  | none =>
    refine .inr ⟨hotAt_of_unmapped mapped 0 key, (link.answers given).acquireBuffer 0 key, ?_⟩
    simp only [getBuffer, mapped]
  | some base =>
    unfold FromEither
    rw [hotAt_of_mapped mapped]
    obtain ⟨-, hit | ⟨missed, allocated⟩⟩ := getBuffer_eq (link.answers given) key mapped
    · exact .inl hit
    · exact .inr ⟨missed, _, allocated⟩

theorem hotPhase_handles (keys : List ObjectKey) (index : Nat) :
    (hotPhase link.client (link.answers given) keys).handles[index]? =
      keys[index]?.map (link.hotAt given index) := by
  unfold hotPhase
  cases mapped : link.client.hotCacheBase with
  | none =>
    dsimp only
    rw [getElem?_map]
    exact Option.map_congr fun key _ => (hotAt_of_unmapped mapped index key).symm
  | some base =>
    -- The loop reads the same answer that a single acquire at the index would give.
    have read : (invoke link.client given.rpc (keys.map fun _ => .error .rpcFail)
          (batchAcquireHotCache (link.answers given).cache keys)).result[index]? =
        keys[index]?.map fun key => (invoke link.client given.rpc (.error .rpcFail)
          (acquireHotCache (link.answers given).cache index key)).result := by
      unfold invoke
      cases link.client.connected with
      | false => exact getElem?_map
      | true =>
        cases given.rpc with
        | refused => exact getElem?_map
        | lost => exact getElem?_map
        | delivered => exact getElem?_batchAcquireHotCache
    dsimp only
    rw [getElem?_zipWith]
    have rpc : (link.answers given).rpc = given.rpc := rfl
    rw [rpc, read]
    cases keys[index]? with
    | none => rfl
    | some key => exact congrArg some (hotAt_of_mapped mapped).symm

variable {value : Option BufferHandle} {action : HotAction}

theorem batchGetBuffer_fromEither
    (found : (batchGetBuffer link.client (link.answers given) keys).handles[index]? = some value) :
    ∃ key, keys[index]? = some key ∧ FromEither (link.hotAt given index key) value := by
  have phase := @hotPhase_handles link given keys index
  rcases batchGetBuffer_handles found with hit | ⟨missed, allocated⟩
  · rw [phase] at hit
    obtain ⟨key, named, same⟩ := Option.map_eq_some_iff.mp hit
    exact ⟨key, named, .inl same.symm⟩
  · rw [phase] at missed
    obtain ⟨key, named, same⟩ := Option.map_eq_some_iff.mp missed
    exact ⟨key, named, .inr ⟨same, allocated⟩⟩

theorem length_batchGetBuffer :
    (batchGetBuffer link.client (link.answers given) keys).handles.length = keys.length := by
  unfold batchGetBuffer
  split
  · rename_i empty
    rw [empty]
    rfl
  · rw [Library.Indexed.length_assignAt]
    have ends : ∀ index : Nat,
        (hotPhase link.client (link.answers given) keys).handles[index]? = none ↔
          keys[index]? = none := by
      intro index
      rw [hotPhase_handles, Option.map_eq_none_iff]
    simp only [getElem?_eq_none_iff] at ends
    exact Nat.le_antisymm ((ends _).mpr (Nat.le_refl _)) ((ends _).mp (Nat.le_refl _))

section Returned

variable (alive : link.terminated = false) (asked : action.asked = some (given, keys))

include alive asked

theorem returned_fromEither (found : (link.returned action)[index]? = some value) :
    ∃ key, keys[index]? = some key ∧ FromEither (link.hotAt given index key) value := by
  cases action with
  | getBuffer other key =>
    cases asked
    simp only [returned, alive, Bool.false_eq_true, if_false] at found
    obtain ⟨rfl, rfl⟩ : index = 0 ∧
        (getBuffer link.client (link.answers given) key).handle = value := by
      cases index with
      | zero => exact ⟨rfl, Option.some.inj found⟩
      | succ index => cases found
    exact ⟨key, rfl, getBuffer_fromEither⟩
  | batchGetBuffer other all =>
    cases asked
    simp only [returned, alive, Bool.false_eq_true, if_false] at found
    exact batchGetBuffer_fromEither found
  | _ => cases asked

theorem length_returned : (link.returned action).length = keys.length := by
  cases action with
  | getBuffer other key =>
    cases asked
    simp only [returned, alive, Bool.false_eq_true, if_false]
    rfl
  | batchGetBuffer other all =>
    cases asked
    simp only [returned, alive, Bool.false_eq_true, if_false]
    exact length_batchGetBuffer
  | _ => cases asked

/-- The handles of the hot cache that an action returns are those of its hits. -/
theorem hot_mem_returned_iff {handle : BufferHandle} :
    (some handle ∈ link.returned action ∧ ∃ key, handle.release = .releaseHotCache key) ↔
      ∃ index key, keys[index]? = some key ∧ link.hotAt given index key = some handle := by
  constructor
  · rintro ⟨present, other, pinned⟩
    obtain ⟨index, found⟩ := mem_iff_getElem?.mp present
    obtain ⟨key, named, hot | ⟨-, answer, allocated⟩⟩ := returned_fromEither alive asked found
    · exact ⟨index, key, named, hot.symm⟩
    · exact absurd pinned (allocatedHandle_release allocated.symm)
  · rintro ⟨index, key, named, hot⟩
    have inside : index < (link.returned action).length := by
      rw [length_returned alive asked]
      exact (List.getElem?_eq_some_iff.mp named).1
    have found := getElem?_eq_getElem inside
    obtain ⟨same, again, either⟩ := returned_fromEither alive asked found
    rw [named] at again
    obtain rfl := Option.some.inj again
    rw [hot] at either
    obtain hit | ⟨missed, -⟩ := either
    · rw [hit] at found
      obtain ⟨base, offset, size, -, -, rfl⟩ := hotAt_eq_some_iff.mp hot
      exact ⟨mem_of_getElem? found, key, rfl⟩
    · cases missed

end Returned

/-! ## Every run -/

/-- The size of the mapping is a `size_t`, and the mapping ends below the last address. -/
def Sized (link : HotLink) : Prop :=
  link.client.hotCacheSize < 2 ^ 64 ∧
    ∀ base, link.client.hotCacheBase = some base → base + link.client.hotCacheSize < 2 ^ 64

theorem shows_hotHandle_iff (sized : link.Sized) {base : Nat}
    (mapped : link.client.hotCacheBase = some base) {offset size : Nat}
    (word : offset < 2 ^ 64) :
    link.Shows (hotHandle base key offset size) ↔
      link.Current ∧ offset + size ≤ link.client.hotCacheSize := by
  have placed := sized.2 base mapped
  constructor
  · rintro ⟨current, other, same, above, below⟩
    rw [mapped] at same
    obtain rfl := Option.some.inj same
    -- a pointer that wraps around lies below the mapping
    simp only [hotHandle] at above below
    exact ⟨current, by omega⟩
  · rintro ⟨current, inside⟩
    have straight : (base + offset) % 2 ^ 64 = base + offset := Nat.mod_eq_of_lt (by omega)
    refine ⟨current, base, mapped, ?_, ?_⟩
    · simp only [hotHandle]
      omega
    · simp only [hotHandle]
      omega

theorem Hit.word {offset size : Nat} (hit : link.Hit given index key offset size) :
    offset < 2 ^ 64 := by
  obtain ⟨block, -, -, rfl, -⟩ := acquireHotCache_ok hit.acquired
  exact UInt64.toNat_lt _

theorem asked_of_mem_returned (present : value ∈ link.returned action) :
    link.terminated = false ∧ ∃ given keys, action.asked = some (given, keys) := by
  cases ended : link.terminated with
  | true => cases action <;> simp [returned, ended] at present
  | false =>
    cases action with
    | getBuffer given key => exact ⟨rfl, given, [key], rfl⟩
    | batchGetBuffer given keys => exact ⟨rfl, given, keys, rfl⟩
    | _ => cases present

theorem handlesSound_iff (sized : link.Sized) :
    link.HandlesSound action ↔ link.HitsCurrent action := by
  constructor
  · intro sound alive given keys asked index key offset size named hit
    obtain ⟨base, mapped⟩ := Option.isSome_iff_exists.mp hit.mapped
    obtain ⟨present, other, pinned⟩ := (hot_mem_returned_iff alive asked).mpr
      ⟨index, key, named, hotAt_eq_some_iff.mpr ⟨base, offset, size, mapped, hit, rfl⟩⟩
    obtain ⟨current, inside⟩ :=
      (shows_hotHandle_iff sized mapped hit.word).mp (sound _ present other pinned)
    exact ⟨current, Nat.lt_of_le_of_lt inside sized.1⟩
  · intro hits handle present other pinned
    obtain ⟨alive, given, keys, asked⟩ := asked_of_mem_returned present
    obtain ⟨index, key, named, hot⟩ := (hot_mem_returned_iff alive asked).mp
      ⟨present, other, pinned⟩
    obtain ⟨base, offset, size, mapped, hit, rfl⟩ := hotAt_eq_some_iff.mp hot
    obtain ⟨current, bounded⟩ := hits alive given keys asked index key offset size named hit
    have inside := hit.passes
    rw [Nat.mod_eq_of_lt bounded] at inside
    exact (shows_hotHandle_iff sized mapped hit.word).mpr ⟨current, inside⟩

theorem requestHotCacheFd_sized (sized : link.Sized) (answers : SetupAnswers) :
    (link.requestHotCacheFd answers).Sized := by
  unfold requestHotCacheFd
  split
  · exact sized
  · split
    · exact sized
    · rename_i size _
      split
      · exact sized
      · rename_i mapped _
        exact ⟨size.toNat_lt, fun base same => Option.some.inj same ▸ mapped.2⟩

theorem startPing_sized (sized : link.Sized) : link.startPing.Sized := by
  unfold startPing
  split <;> exact sized

theorem setupDummy_sized (sized : link.Sized) {answers : SetupAnswers} :
    (link.setupDummy answers).Sized := by
  unfold setupDummy
  dsimp only
  split_ifs
  · exact sized
  · exact startPing_sized sized
  · exact sized
  · exact sized
  · apply startPing_sized
    apply requestHotCacheFd_sized
    exact sized

theorem next_sized (sized : link.Sized) : (link.next action).Sized := by
  cases action with
  | setupDummy answers =>
    rw [next]
    split
    · exact sized
    · exact setupDummy_sized sized
  | tearDownAll =>
    rw [next]
    split
    · exact sized
    · exact ⟨Nat.two_pow_pos 64, fun base same => by cases same⟩
  | pingRound healthy =>
    rw [next, pingRound]
    split_ifs <;> exact sized
  | restart hotCacheEnabled shmSegment => exact sized
  | getBuffer given key => exact sized
  | batchGetBuffer given keys => exact sized

/-- In every run the handles of the hot cache show the current one exactly when each block
that is hit belongs to the real client whose memory is mapped and its end does not overflow. -/
theorem hotHandles_sound_iff (real : RealInstance) (actions : List HotAction) :
    Along next HandlesSound { real := real } actions ↔
      Along next HitsCurrent { real := real } actions := by
  have start : Sized { real := real } := ⟨Nat.two_pow_pos 64, fun base same => by cases same⟩
  exact @along_iff _ _ _ _ Sized HandlesSound HitsCurrent (fun sized => handlesSound_iff sized)
    (fun sized _ => next_sized sized) start actions

end HotLink

/-! ## Failing runs -/

def sampleReal : RealInstance := ⟨0, true, some 4096⟩

def sampleSetup : SetupAnswers where
  serviceReady := true
  localBufferSize := 64
  allocate := true
  registerShm := true
  fdRequest := true
  mmap := fun size => if fits : 65536 + size.toNat < 2 ^ 64 then some ⟨65536, fits⟩ else none

def blockAt (offset : UInt64) : HotAnswers where
  getHotKey := fun _ _ => some ⟨0, 16⟩
  getBlockOffset := fun _ => offset
  rpc := .delivered
  acquireBuffer := fun _ _ => .error .objectNotFound

/-- The real client is replaced and the dummy client reconnects. -/
def restartedRun : List HotAction :=
  [.setupDummy sampleSetup, .restart true (some 4096), .pingRound false, .pingRound true,
    .getBuffer (blockAt 0) "a"]

/-- The end of the block wraps around. -/
def wrappedRun : List HotAction :=
  [.setupDummy sampleSetup, .getBuffer (blockAt (.ofNat (2 ^ 64 - 8))) "a"]

/-- After a restart a handle shows the memory of the former hot cache, and a block whose end
wraps around passes the bound check. -/
theorem staleMapping_unsound :
    ¬ Along HotLink.next HotLink.HandlesSound { real := sampleReal } restartedRun ∧
      ¬ Along HotLink.next HotLink.HandlesSound { real := sampleReal } wrappedRun := by
  constructor
  · rintro ⟨-, -, -, -, sound, -⟩
    have shown := sound (hotHandle 65536 "a" 0 16) (by decide) "a" rfl
    have stale : 0 = 1 := shown.current
    cases stale
  · rintro ⟨-, sound, -⟩
    have shown := sound (hotHandle 65536 "a" (2 ^ 64 - 8) 16) (by decide) "a" rfl
    obtain ⟨base, mapped, above, -⟩ := shown.inside
    obtain rfl : 65536 = base := Option.some.inj mapped
    exact absurd above (by decide)

end Mooncake.Dummy
