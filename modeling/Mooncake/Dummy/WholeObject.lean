import Mooncake.Dummy.GetBuffer
import Mooncake.Library.Runs
import Mooncake.Read.Fills
import Mooncake.Read.Request

/-!
# Hot-cache hits of the dummy client

A history of reads fills the hot cache of the real client: every accepted task of
a read becomes, when a worker gets to it, the block of its key.  A block holds the
bytes of one slice.  `acquire_hot_cache` hands out whatever block the key has, so a
hit is the whole object if every read that fills had the object in one slice.
-/

namespace Mooncake.Dummy

open Read Library.ByteMemory Library.Indexed Library.Runs List

/-! ## The hot cache of the real client -/

def rangeBytes (memory : Memory) (ptr size : Nat) : List UInt8 :=
  (List.range' ptr size).map memory

structure FillTask where
  key : ObjectKey
  bytes : List UInt8
  deriving DecidableEq, Repr

structure CachedBlock where
  addr : Nat
  bytes : List UInt8
  deriving DecidableEq, Repr

structure CacheState where
  tasks : List FillTask := []
  blocks : ObjectKey → Option CachedBlock := fun _ => none

/-- Reads of the real client with the memory their transfers leave, and the steps of
the hot cache itself. -/
inductive CacheAction where
  | get (reader : Reader) (answers : ReadAnswers) (key : ObjectKey) (query : QueryResult)
      (slices : List Slice) (memory : Memory)
  | batchGet (reader : Reader) (answers : ReadAnswers) (keys : List ObjectKey)
      (queries : List QueryResult) (slices : SliceMap) (preferAllocInSameNode : Bool)
      (memory : Memory)
  | publish (position addr : Nat)
  | evict (key : ObjectKey)

/-- The tasks that `SubmitPutTask` accepts, each with the bytes of its slice. -/
def acceptedTasks (memory : Memory) (events : List ReadEvent) : List FillTask :=
  events.filterMap fun event =>
    match event with
    | .submitPutTask key slice true => some ⟨key, rangeBytes memory slice.ptr slice.size⟩
    | _ => none

def CacheState.step (state : CacheState) : CacheAction → Option CacheState
  | .get reader answers key query slices memory =>
    some { state with
      tasks := state.tasks ++
        acceptedTasks memory (get reader answers key query slices).events }
  | .batchGet reader answers keys queries slices preferAllocInSameNode memory =>
    some { state with
      tasks := state.tasks ++ acceptedTasks memory
        (batchGet reader answers keys queries slices preferAllocInSameNode).events }
  | .publish position addr =>
    state.tasks[position]?.map fun task =>
      { tasks := state.tasks.eraseIdx position
        blocks := Function.update state.blocks task.key (some ⟨addr, task.bytes⟩) }
  | .evict key => some { state with blocks := Function.update state.blocks key none }

/-! ## What a history may contain -/

/-- A transfer that finishes with `OK` puts the bytes of the object into its slices. -/
def TransfersDeliver (content : ObjectKey → List UInt8) (memory : Memory)
    (requests : List (ObjectKey × QueryResult)) (events : List ReadEvent) : Prop :=
  ∀ (index : Nat) request slices, requests[index]? = some request →
    ReadEvent.transferred index slices .ok ∈ events →
      ∀ (position : Nat) address byte, (addresses slices)[position]? = some address →
        (content request.1)[position]? = some byte → memory address = byte

def CacheAction.Delivers (content : ObjectKey → List UInt8) : CacheAction → Prop
  | .get reader answers key query slices memory =>
    TransfersDeliver content memory [(key, query)]
      (Read.get reader answers key query slices).events
  | .batchGet reader answers keys queries slices preferAllocInSameNode memory =>
    TransfersDeliver content memory (keys.zip queries)
      (Read.batchGet reader answers keys queries slices preferAllocInSameNode).events
  | _ => True

/-- The object is read into one slice of its size, if it is read at all. -/
def WholeSlice (object : List UInt8) (slices : List Slice) : Prop :=
  slices = [] ∨ ∃ slice, slices = [slice] ∧ slice.size = object.length

/-- The reads that may fill the hot cache have the object in one slice. -/
def CacheAction.Whole (content : ObjectKey → List UInt8) : CacheAction → Prop
  | .get reader _ key query slices _ =>
    ∀ replica, findFirstCompleteReplica query.replicas = .ok replica →
      fillable reader replica = true → WholeSlice (content key) slices
  | .batchGet reader _ keys queries slices _ _ =>
    ∀ request ∈ keys.zip queries, ∀ target replica,
      slices.lookup request.1 = some target →
      findFirstCompleteReplica request.2.replicas = .ok replica →
      fillable reader replica = true → WholeSlice (content request.1) target
  | _ => True

def Reached (content : ObjectKey → List UInt8) (allowed : CacheAction → Prop)
    (state : CacheState) : Prop :=
  ∃ actions, (∀ action ∈ actions, action.Delivers content ∧ allowed action) ∧
    run CacheState.step {} actions = some state

/-! ## Blocks of whole objects -/

/-- Every block, and every task that may become one, is the object of its key. -/
structure CacheState.Whole (content : ObjectKey → List UInt8) (state : CacheState) : Prop where
  tasks : ∀ task ∈ state.tasks, task.bytes = content task.key
  blocks : ∀ key block, state.blocks key = some block → block.bytes = content key

theorem rangeBytes_of_delivered {memory : Memory} {object : List UInt8} {slice : Slice}
    (sized : slice.size = object.length)
    (delivered : ∀ (position : Nat) address byte, (addresses [slice])[position]? = some address →
      object[position]? = some byte → memory address = byte) :
    rangeBytes memory slice.ptr slice.size = object := by
  refine ext_getElem? fun position => ?_
  rw [rangeBytes, getElem?_map]
  by_cases inside : position < slice.size
  · have address : (List.range' slice.ptr slice.size)[position]? = some (slice.ptr + position) := by
      simp [getElem?_range' inside]
    have byte := getElem?_eq_getElem (sized ▸ inside : position < object.length)
    rw [address, byte, Option.map_some,
      delivered position _ _ (by simpa [addresses] using address) byte]
  · rw [getElem?_eq_none (by simpa using Nat.le_of_not_lt inside),
      getElem?_eq_none (by omega), Option.map_none]

theorem acceptedTasks_whole {content : ObjectKey → List UInt8} {memory : Memory}
    {reader : Reader} {requests : List (ObjectKey × QueryResult)}
    {target : ObjectKey → Option (List Slice)} {events : List ReadEvent}
    (fills : FillsTransferred reader requests target events)
    (delivers : TransfersDeliver content memory requests events)
    (whole : ∀ request ∈ requests, ∀ slices replica, target request.1 = some slices →
      findFirstCompleteReplica request.2.replicas = .ok replica →
      fillable reader replica = true → WholeSlice (content request.1) slices) :
    ∀ task ∈ acceptedTasks memory events, task.bytes = content task.key := by
  intro task present
  obtain ⟨event, happened, accepted⟩ := mem_filterMap.mp present
  split at accepted
  · rename_i key slice
    cases accepted
    obtain ⟨index, query, slices, replica, requested, found, inside, complete, passed, moved⟩ :=
      fills key slice true happened
    have listed := mem_of_getElem? requested
    rcases whole _ listed slices replica found complete passed with none | ⟨only, one, sized⟩
    · rw [none] at inside
      cases inside
    · rw [one, mem_singleton] at inside
      subst inside
      exact rangeBytes_of_delivered sized
        (one ▸ delivers index (key, query) slices requested moved)
  · cases accepted

variable {memory : Memory} {content : ObjectKey → List UInt8}

theorem CacheState.Whole.step {state next : CacheState} {action : CacheAction}
    (whole : state.Whole content) (stepped : CacheState.step state action = some next)
    (delivers : action.Delivers content) (single : action.Whole content) : next.Whole content := by
  cases action with
  | get reader answers key query slices memory =>
    cases stepped
    refine ⟨fun task present => ?_, whole.blocks⟩
    rcases mem_append.mp present with old | new
    · exact whole.tasks task old
    · refine acceptedTasks_whole (get_fills reader answers key) delivers ?_ task new
      intro request listed target replica found complete passed
      cases mem_singleton.mp listed
      cases found
      exact single replica complete passed
  | batchGet reader answers keys queries slices preferAllocInSameNode memory =>
    cases stepped
    refine ⟨fun task present => ?_, whole.blocks⟩
    rcases mem_append.mp present with old | new
    · exact whole.tasks task old
    · exact acceptedTasks_whole
        (batchGet_fills reader answers) delivers
        single task new
  | publish position addr =>
    obtain ⟨task, found, rfl⟩ := Option.map_eq_some_iff.mp stepped
    refine ⟨fun other present => whole.tasks other (mem_of_mem_eraseIdx present), ?_⟩
    intro key block shown
    dsimp only at shown
    by_cases same : key = task.key
    · subst same
      rw [Function.update_self] at shown
      cases shown
      exact whole.tasks task (mem_of_getElem? found)
    · rw [Function.update_of_ne same] at shown
      exact whole.blocks key block shown
  | evict removed =>
    cases stepped
    refine ⟨whole.tasks, fun key block shown => ?_⟩
    dsimp only at shown
    by_cases same : key = removed
    · subst same
      rw [Function.update_self] at shown
      cases shown
    · rw [Function.update_of_ne same] at shown
      exact whole.blocks key block shown

theorem Reached.whole {state : CacheState}
    (reached : Reached content (CacheAction.Whole content) state) : state.Whole content := by
  obtain ⟨actions, allowed, ran⟩ := reached
  exact run_invariant (CacheState.Whole content)
    (fun action => action.Delivers content ∧ action.Whole content)
    (fun stepped fine whole => whole.step stepped fine.1 fine.2) ran allowed
    ⟨fun _ present => (nomatch present), fun _ _ shown => (nomatch shown)⟩

/-! ## Handles of the dummy client -/

/-- The dummy client maps the blocks of the hot cache.  The cache may change between the
keys of a call: the key at an index is looked up in the state of that index, and the
block it finds stays as it is while it is pinned. -/
structure SharedView (states : Nat → CacheState) (client : DummyClient) (cache : HotCacheView)
    (memory : Memory) : Prop where
  getHotKey : ∀ index key, cache.getHotKey index key =
    ((states index).blocks key).map fun block => ⟨block.addr, block.bytes.length⟩
  shown : ∀ base, client.hotCacheBase = some base → ∀ index key block,
    (states index).blocks key = some block → cache.getBlockOffset block.addr ≠ sizeMax →
      rangeBytes memory ((base + (cache.getBlockOffset block.addr).toNat) % 2 ^ 64)
        block.bytes.length = block.bytes

/-- The handle has the size of the object and shows its bytes in order. -/
structure ShowsObject (object : List UInt8) (memory : Memory) (handle : BufferHandle) :
    Prop where
  size : handle.size = object.length
  bytes : rangeBytes memory handle.ptr handle.size = object

/-- Every handle of the hot-cache path shows the object of its key. -/
def HitsAreWhole (content : ObjectKey → List UInt8) (client : DummyClient)
    (answers : DummyAnswers) (memory : Memory) : Prop :=
  (∀ key handle pin, (getBuffer client answers key).handle = some handle →
    handle.release = .releaseHotCache pin → ShowsObject (content key) memory handle) ∧
  (∀ keys (index : Nat) key handle pin, keys[index]? = some key →
    (batchGetBuffer client answers keys).handles[index]? = some (some handle) →
    handle.release = .releaseHotCache pin → ShowsObject (content key) memory handle)

theorem FromHotCache.showsObject {states : Nat → CacheState}
    (whole : ∀ index, (states index).Whole content) {client : DummyClient} {cache : HotCacheView}
    (view : SharedView states client cache memory) {index : Nat} {key : ObjectKey}
    {handle : BufferHandle} {base : Nat} {block : HotMemBlock}
    (source : FromHotCache client cache index key handle base block) :
    ShowsObject (content key) memory handle := by
  have found := source.found
  rw [view.getHotKey] at found
  obtain ⟨cached, visible, rfl⟩ := Option.map_eq_some_iff.mp found
  have same := (whole index).blocks key cached visible
  have shown := view.shown base source.mapped index key cached visible source.shared
  rw [source.handle_eq]
  exact ⟨congrArg List.length same, shown.trans same⟩

/-- In a history whose filling reads have the object in one slice, every hit is whole. -/
theorem hotHits_are_whole (content : ObjectKey → List UInt8) (states : Nat → CacheState)
    (reached : ∀ index, Reached content (CacheAction.Whole content) (states index))
    (client : DummyClient) (answers : DummyAnswers) (memory : Memory)
    (view : SharedView states client answers.cache memory) :
    HitsAreWhole content client answers memory := by
  have whole : ∀ index, (states index).Whole content := fun index => (reached index).whole
  constructor
  · intro key handle pin returned pinned
    obtain ⟨base, block, source⟩ := getBuffer_hit returned pinned
    exact source.showsObject whole view
  · intro keys index key handle pin named returned pinned
    obtain ⟨key', base, block, named', source⟩ := batchGetBuffer_hit returned pinned
    rw [named, Option.some.injEq] at named'
    subst named'
    exact source.showsObject whole view

/-! ## One slice and two slices -/

/-- Every object has four bytes. -/
def fourBytes : ObjectKey → List UInt8 := fun _ => [1, 2, 3, 4]

/-- An empty hot cache that takes every fill, and transfers that succeed. -/
def fillingAnswers : ReadAnswers :=
  { willingAnswers with
    admission := fun _ _ => true
    submitPutTask := fun _ _ => true }

/-- `BatchGet` of one key into the given buffers; the object ends up at address 100. -/
def readInto (slices : List Slice) : CacheAction :=
  .batchGet { hotCacheIsShm := true } fillingAnswers ["key"]
    [⟨[⟨.complete, .memory ⟨"node", 0, 4⟩⟩], 1⟩] (AList.insert "key" slices ∅) false
    fun address => UInt8.ofNat (address - 99)

theorem readInto_delivers {slices : List Slice}
    (covers : addresses slices = [100, 101, 102, 103]) :
    (readInto slices).Delivers fourBytes := by
  intro index request target requested moved position address byte placed stored
  obtain ⟨request', replica, requested', found, -, -⟩ :=
    (batchGet_accounts { hotCacheIsShm := true } fillingAnswers (by rfl)).located index target .ok
      moved
  rw [requested, Option.some.injEq] at requested'
  subst requested'
  have keyed : request.1 = "key" := by
    have listed := mem_of_getElem? requested
    simp only [zip_cons_cons, zip_nil_left, mem_singleton] at listed
    rw [listed]
  rw [keyed, AList.lookup_insert, Option.some.injEq] at found
  subst found
  rw [covers] at placed
  match position with
  | 0 | 1 | 2 | 3 =>
    cases placed
    cases stored
    rfl
  | _ + 4 => cases placed

def oneBlock (addr : Nat) (bytes : List UInt8) : CacheState where
  blocks := Function.update (fun _ => none) "key" (some ⟨addr, bytes⟩)

/-- A dummy client that has mapped 64 bytes of shared memory at address 1000. -/
def mappedClient : DummyClient where
  hotCacheBase := some 1000
  hotCacheSize := 64

/-- The real client answers from the hot cache with one block. -/
def answersFrom (addr : Nat) (bytes : List UInt8) : DummyAnswers where
  cache :=
    { enabled := true
      getHotKey := fun _ key =>
        ((oneBlock addr bytes).blocks key).map fun block => ⟨block.addr, block.bytes.length⟩
      getBlockOffset := .ofNat }
  rpc := .delivered
  acquireBuffer := fun _ _ => .error .objectNotFound

theorem sharedView_oneBlock {addr : Nat} {bytes : List UInt8}
    (shown : rangeBytes memory ((1000 + (UInt64.ofNat addr).toNat) % 2 ^ 64) bytes.length = bytes) :
    SharedView (fun _ => oneBlock addr bytes) mappedClient (answersFrom addr bytes).cache
      memory where
  getHotKey := fun _ _ => rfl
  shown := by
    intro base mapped index key block visible shared
    cases mapped
    by_cases same : key = "key"
    · subst same
      simp only [oneBlock, Function.update_self, Option.some.injEq] at visible
      subst visible
      exact shown
    · simp [oneBlock, Function.update_of_ne same] at visible

/-- One buffer of four bytes: the hit is the object. -/
theorem oneSlice_hit_is_whole :
    (getBuffer mappedClient (answersFrom 8 [1, 2, 3, 4]) "key").handle =
      some ⟨1008, 4, .releaseHotCache "key"⟩ ∧
    HitsAreWhole fourBytes mappedClient (answersFrom 8 [1, 2, 3, 4])
      (fun address => UInt8.ofNat (address - 1007)) := by
  refine ⟨by decide, hotHits_are_whole fourBytes (fun _ => oneBlock 8 [1, 2, 3, 4])
    (fun _ => ⟨[readInto [⟨100, 4⟩], .publish 0 8], ?_, rfl⟩) mappedClient _ _
    (sharedView_oneBlock rfl)⟩
  intro action present
  simp only [mem_cons, not_mem_nil, or_false] at present
  rcases present with rfl | rfl
  · refine ⟨readInto_delivers rfl, ?_⟩
    intro request listed target replica found complete passed
    simp only [zip_cons_cons, zip_nil_left, mem_singleton] at listed
    subst listed
    rw [AList.lookup_insert, Option.some.injEq] at found
    exact .inr ⟨⟨100, 4⟩, found.symm, rfl⟩
  · exact ⟨trivial, trivial⟩

/-- Two buffers of two bytes: both become blocks of the key, the hit is the second half. -/
theorem twoSlices_hit_is_half :
    ∃ state, Reached fourBytes (fun _ => True) state ∧
      SharedView (fun _ => state) mappedClient (answersFrom 16 [3, 4]).cache
        (fun address => UInt8.ofNat (address - 1013)) ∧
      (getBuffer mappedClient (answersFrom 16 [3, 4]) "key").handle =
        some ⟨1016, 2, .releaseHotCache "key"⟩ ∧
      ¬ HitsAreWhole fourBytes mappedClient (answersFrom 16 [3, 4])
        (fun address => UInt8.ofNat (address - 1013)) := by
  refine ⟨oneBlock 16 [3, 4], ⟨[readInto [⟨100, 2⟩, ⟨102, 2⟩], .publish 0 8, .publish 0 16],
    ?_, ?_⟩, sharedView_oneBlock rfl, by decide, fun whole => ?_⟩
  · intro action present
    simp only [mem_cons, not_mem_nil, or_false] at present
    rcases present with rfl | rfl | rfl
    · exact ⟨readInto_delivers rfl, trivial⟩
    · exact ⟨trivial, trivial⟩
    · exact ⟨trivial, trivial⟩
  · have last : oneBlock 16 [3, 4] =
        { blocks := Function.update (Function.update (fun _ => none) "key"
            (some ⟨8, [1, 2]⟩)) "key" (some ⟨16, [3, 4]⟩) } := by
      simp only [oneBlock, Function.update_idem]
    rw [last]
    rfl
  · have size := (whole.1 "key" ⟨1016, 2, .releaseHotCache "key"⟩ "key" (by decide) rfl).size
    exact absurd size (by decide)

end Mooncake.Dummy
