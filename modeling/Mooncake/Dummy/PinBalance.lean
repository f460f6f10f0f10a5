import Mooncake.Dummy.GetBuffer
import Mooncake.Read.Pins

/-!
# Pins of every read path

`acquire_hot_cache` returns with the block pinned, and the handle of the dummy
client unpins it.  The pin is lost when the answer does not reach the dummy client
and when the dummy client rejects the place of the block.  Together with the reads
of the real client this settles for every path when its pins are balanced.
-/

namespace Mooncake.Dummy

open Read Library.Balance Library.Indexed List

/-! ## Handles and lost pins -/

/-- The pin that the release of a handle gives back. -/
def heldPin : Option BufferHandle → List ObjectKey
  | some ⟨_, _, .releaseHotCache key⟩ => [key]
  | _ => []

theorem heldPin_allocatedHandle (answer : Expected (Nat × Nat)) :
    heldPin (allocatedHandle answer) = [] := by
  cases answer <;> rfl

/-- A block is pinned for the key, and no handle is made for it. -/
def losesPin (client : DummyClient) (answers : DummyAnswers) (index : Nat) (key : ObjectKey) :
    Bool :=
  match answers.cache.getHotKey index key with
  | none => false
  | some block =>
    client.hotCacheBase.isSome && client.connected && answers.rpc != .refused &&
      answers.cache.enabled && answers.cache.getBlockOffset block.addr != sizeMax &&
      (answers.rpc == .lost ||
        outOfBounds client (answers.cache.getBlockOffset block.addr).toNat block.size)

def hotAnswer (client : DummyClient) (answers : DummyAnswers) (index : Nat) (key : ObjectKey) :
    Served (Expected (Nat × Nat)) :=
  invoke client answers.rpc (.error .rpcFail) (acquireHotCache answers.cache index key)

/-- The pin that `acquire_hot_cache` returns with. -/
def acquiredPin (key : ObjectKey) : Expected (Nat × Nat) → List ObjectKey
  | .ok _ => [key]
  | .error _ => []

theorem acquireHotCache_pins (cache : HotCacheView) (index : Nat) (key : ObjectKey) :
    pins.Keeps (acquireHotCache cache index key).events
      (acquiredPin key (acquireHotCache cache index key).result) := by
  unfold acquireHotCache
  split
  · exact Account.Keeps.nil
  · split
    · exact Account.Keeps.nil.acquire rfl rfl
    · rename_i block found
      have pinned : pins.Keeps [.getHotKey key (some block)] [key] :=
        Account.Keeps.nil.acquire rfl rfl
      split
      · exact pinned.release ⟨rfl, .refl _⟩ (.refl _)
      · exact pinned

variable {client : DummyClient} {base : Nat}

theorem losesPin_eq (mapped : client.hotCacheBase = some base) (connected : client.connected = true)
    (answers : DummyAnswers) (index : Nat) (key : ObjectKey) :
    losesPin client answers index key =
      match (acquireHotCache answers.cache index key).result with
      | .error _ => false
      | .ok (offset, size) => answers.rpc != .refused &&
          (answers.rpc == .lost || outOfBounds client offset size) := by
  unfold losesPin acquireHotCache
  cases enabled : answers.cache.enabled with
  | false => cases answers.cache.getHotKey index key <;> simp
  | true =>
    cases answers.cache.getHotKey index key with
    | none => rfl
    | some block =>
      by_cases outside : answers.cache.getBlockOffset block.addr = sizeMax
      · simp [outside]
      · simp [mapped, connected, outside, bne_iff_ne.mpr outside]

theorem losesPin_of_disconnected (disconnected : client.connected = false) (answers : DummyAnswers)
    (index : Nat) (key : ObjectKey) :
    losesPin client answers index key = false := by
  unfold losesPin
  cases answers.cache.getHotKey index key <;> simp [disconnected]

variable (client : DummyClient) (answers : DummyAnswers) (keys : List ObjectKey)

/-- One key: the pin is held by the handle, or lost, or was never taken. -/
theorem hotAnswer_pins (index : Nat) (key : ObjectKey) (mapped : client.hotCacheBase = some base) :
    pins.Keeps (hotAnswer client answers index key).events
      (heldPin (hotResult client base key (hotAnswer client answers index key).result) ++
        leakedPin (losesPin client answers index key) key) := by
  have acquired := acquireHotCache_pins answers.cache index key
  cases connected : client.connected with
  | false =>
    simp only [hotAnswer, invoke, connected, losesPin_of_disconnected connected]
    exact Account.Keeps.nil
  | true =>
    rw [losesPin_eq mapped connected]
    simp only [hotAnswer, invoke, connected, Bool.not_true, Bool.false_eq_true, if_false]
    generalize acquireHotCache answers.cache index key = served at acquired ⊢
    obtain ⟨result, events⟩ := served
    cases answers.rpc with
    | refused => cases result <;> exact Account.Keeps.nil
    | lost => cases result <;> exact acquired
    | delivered =>
      refine acquired.perm (List.Perm.of_eq ?_)
      cases result with
      | error error => rfl
      | ok place =>
        obtain ⟨offset, size⟩ := place
        cases bound : outOfBounds client offset size <;>
          simp [hotResult, bound, acquiredPin, heldPin, hotHandle, leakedPin]

/-! ## get_buffer -/

theorem getBuffer_pins (key : ObjectKey) :
    pins.Keeps (getBuffer client answers key).events
      (heldPin (getBuffer client answers key).handle ++
        leakedPin (losesPin client answers 0 key) key) := by
  cases mapped : client.hotCacheBase with
  | none =>
    have kept : losesPin client answers 0 key = false := by
      unfold losesPin
      cases answers.cache.getHotKey 0 key <;> simp [mapped]
    simp only [getBuffer, mapped, kept, heldPin_allocatedHandle]
    exact Account.Keeps.nil
  | some base =>
    obtain ⟨events, handle⟩ := getBuffer_eq answers key mapped
    have held : heldPin (getBuffer client answers key).handle =
        heldPin (hotResult client base key (hotAnswer client answers 0 key).result) := by
      rcases handle with same | ⟨missed, allocated⟩
      · exact congrArg heldPin same
      · rw [allocated, heldPin_allocatedHandle]
        exact (congrArg heldPin missed).symm
    rw [events, held]
    exact hotAnswer_pins client answers 0 key mapped

/-! ## batch_get_buffer -/

theorem invoke_batchAcquireHotCache :
    let answered := invoke client answers.rpc (keys.map fun _ => .error .rpcFail)
      (batchAcquireHotCache answers.cache keys)
    answered.result = keys.mapIdx (fun index key =>
        (hotAnswer client answers index key).result) ∧
      answered.events = keys.zipIdx.flatMap fun entry =>
        (hotAnswer client answers entry.2 entry.1).events := by
  have refused : (keys.map fun _ => (.error .rpcFail : Expected (Nat × Nat))) =
      keys.mapIdx fun _ _ => .error .rpcFail := by
    refine ext_getElem? fun index => ?_
    rw [getElem?_map, getElem?_mapIdx]
  have acquired : (batchAcquireHotCache answers.cache keys).events =
      keys.zipIdx.flatMap fun entry => (acquireHotCache answers.cache entry.2 entry.1).events := by
    simp only [batchAcquireHotCache, mapIdx_eq_zipIdx_map, flatMap_map]
  dsimp only
  unfold hotAnswer invoke
  cases client.connected with
  | false => exact ⟨refused, (flatMap_eq_nil_iff.mpr fun _ _ => rfl).symm⟩
  | true =>
    cases answers.rpc with
    | refused => exact ⟨refused, (flatMap_eq_nil_iff.mpr fun _ _ => rfl).symm⟩
    | lost => exact ⟨refused, acquired⟩
    | delivered =>
      refine ⟨ext_getElem? fun index => ?_, acquired⟩
      rw [getElem?_mapIdx]
      exact getElem?_batchAcquireHotCache

theorem hotPhase_eq (mapped : client.hotCacheBase = some base) :
    (hotPhase client answers keys).events =
        keys.zipIdx.flatMap (fun entry => (hotAnswer client answers entry.2 entry.1).events) ∧
      (hotPhase client answers keys).handles = keys.mapIdx fun index key =>
        hotResult client base key (hotAnswer client answers index key).result := by
  obtain ⟨results, events⟩ := invoke_batchAcquireHotCache client answers keys
  simp only [hotPhase, mapped]
  refine ⟨events, ?_⟩
  rw [results]
  refine ext_getElem? fun index => ?_
  simp only [getElem?_zipWith, getElem?_mapIdx]
  cases keys[index]? <;> rfl

theorem heldPins_batchGetBuffer {keys : List ObjectKey} (nonempty : keys ≠ []) :
    (batchGetBuffer client answers keys).handles.map heldPin =
      (hotPhase client answers keys).handles.map heldPin := by
  have lengths : (batchGetBuffer client answers keys).handles.length =
      (hotPhase client answers keys).handles.length := by
    unfold batchGetBuffer
    rw [if_neg nonempty]
    simp
  refine ext_getElem? fun index => ?_
  rw [getElem?_map, getElem?_map]
  cases returned : (batchGetBuffer client answers keys).handles[index]? with
  | none =>
    rw [getElem?_eq_none_iff, lengths] at returned
    rw [getElem?_eq_none returned]
  | some handle =>
    rcases batchGetBuffer_handles returned with same | ⟨missed, answer, rfl⟩
    · rw [same]
    · rw [missed, Option.map_some, Option.map_some, heldPin_allocatedHandle]
      rfl

theorem batchGetBuffer_pins :
    pins.Keeps (batchGetBuffer client answers keys).events
      ((batchGetBuffer client answers keys).handles.flatMap heldPin ++
        keys.zipIdx.flatMap fun entry =>
          leakedPin (losesPin client answers entry.2 entry.1) entry.1) := by
  by_cases nonempty : keys = []
  · subst nonempty
    exact Account.Keeps.nil
  · have events : (batchGetBuffer client answers keys).events =
        (hotPhase client answers keys).events := by
      unfold batchGetBuffer
      rw [if_neg nonempty]
    have held : (batchGetBuffer client answers keys).handles.flatMap heldPin =
        (hotPhase client answers keys).handles.flatMap heldPin := by
      rw [flatMap_def, flatMap_def, heldPins_batchGetBuffer client answers nonempty]
    rw [events, held]
    cases mapped : client.hotCacheBase with
    | none =>
      have kept : ∀ index key, losesPin client answers index key = false := by
        intro index key
        unfold losesPin
        cases answers.cache.getHotKey index key <;> simp [mapped]
      simp only [hotPhase, mapped, kept, leakedPin, Bool.false_eq_true, if_false]
      refine Account.Keeps.nil.perm (List.Perm.of_eq ?_)
      simp [heldPin]
    | some base =>
      obtain ⟨phase, handles⟩ := hotPhase_eq client answers keys mapped
      rw [phase, handles, mapIdx_eq_zipIdx_map, flatMap_map]
      exact (Account.Keeps.flatMap fun entry _ =>
        hotAnswer_pins client answers entry.2 entry.1 mapped).perm (flatMap_append_perm ..).symm

/-! ## All paths -/

/-- The pins of every read path.  They are balanced unless the hot cache holds a block
that `RedirectToHotCache` rejects (on the path with one transfer for each node also a
block for an empty replica), or the dummy client does not get a place that it accepts
for a block that was pinned for it. -/
theorem pinsBalanced_iff (reader : Reader) (readAnswers : ReadAnswers) (client : DummyClient)
    (answers : DummyAnswers) :
    (∀ key query slices,
      pins.Balanced (get reader readAnswers key query slices).events [] ↔
        ∀ replica, findFirstCompleteReplica query.replicas = .ok replica →
          leaksPin reader readAnswers false 0 key replica = false) ∧
    (∀ query slices srcOffset,
      pins.Balanced (getRange reader readAnswers query slices srcOffset).events []) ∧
    (∀ keys queries slices preferAllocInSameNode,
      pins.Balanced
          (batchGet reader readAnswers keys queries slices preferAllocInSameNode).events [] ↔
        (reader.transferSubmitter = true → queries.length = keys.length →
          ∀ (index : Nat) request target replica, (keys.zip queries)[index]? = some request →
            readyRead slices request = .ok (target, replica) →
            leaksPin reader readAnswers preferAllocInSameNode index request.1 replica = false)) ∧
    (∀ key,
      pins.Balanced (getBuffer client answers key).events
          (heldPin (getBuffer client answers key).handle) ↔
        losesPin client answers 0 key = false) ∧
    (∀ keys,
      pins.Balanced (batchGetBuffer client answers keys).events
          ((batchGetBuffer client answers keys).handles.flatMap heldPin) ↔
        ∀ (index : Nat) key, keys[index]? = some key →
          losesPin client answers index key = false) := by
  refine ⟨get_balanced_iff reader readAnswers, getRange_balanced reader readAnswers,
    batchGet_balanced_iff reader readAnswers, fun key => ?_, fun keys => ?_⟩
  · exact (getBuffer_pins client answers key).balanced_iff.trans leakedPin_eq_nil
  · rw [(batchGetBuffer_pins client answers keys).balanced_iff, flatMap_eq_nil_iff]
    constructor
    · intro kept index key named
      exact leakedPin_eq_nil.mp (kept (key, index) (mem_zipIdx_iff_getElem?.mpr named))
    · intro kept entry listed
      exact leakedPin_eq_nil.mpr (kept entry.2 entry.1 (mem_zipIdx_iff_getElem?.mp listed))

/-- The hot cache has a block of two bytes for every key. -/
def twoByteBlocks : ReadAnswers :=
  { willingAnswers with getHotKey := fun _ _ => some ⟨0, 2⟩ }

/-- A real client with the same hot cache, whose answer has the given fate. -/
def twoByteAnswers (rpc : RpcOutcome) : DummyAnswers where
  cache :=
    { enabled := true
      getHotKey := fun _ _ => some ⟨0, 2⟩
      getBlockOffset := .ofNat }
  rpc := rpc
  acquireBuffer := fun _ _ => .error .objectNotFound

/-- A block of two bytes for a replica of four stays pinned after `Get` and `BatchGet`.
So does the block of a dummy client that has mapped one byte only, or that does not
receive the answer. -/
theorem rejectedBlock_stays_pinned :
    ¬ pins.Balanced (get {} twoByteBlocks "key"
      ⟨[⟨.complete, .memory ⟨"node", 0, 4⟩⟩], 1⟩ [⟨0, 4⟩]).events [] ∧
    ¬ pins.Balanced (batchGet {} twoByteBlocks ["key"]
      [⟨[⟨.complete, .memory ⟨"node", 0, 4⟩⟩], 1⟩] (AList.insert "key" [⟨0, 4⟩] ∅) true).events
      [] ∧
    ¬ pins.Balanced (getBuffer ⟨true, some 0, 1⟩ (twoByteAnswers .delivered) "key").events
      (heldPin (getBuffer ⟨true, some 0, 1⟩ (twoByteAnswers .delivered) "key").handle) ∧
    ¬ pins.Balanced (getBuffer ⟨true, some 0, 64⟩ (twoByteAnswers .lost) "key").events
      (heldPin (getBuffer ⟨true, some 0, 64⟩ (twoByteAnswers .lost) "key").handle) := by
  refine ⟨fun balanced => ?_, fun balanced => ?_, fun balanced => ?_, fun balanced => ?_⟩ <;>
    exact absurd (balanced.settled "key") (by decide)

end Mooncake.Dummy
