import Mooncake.Read.IntoCorrect
import Mooncake.Write.Aligned

/-!
# Reading back what was written

`batch_upsert_from` passes buffers to the store and `batch_get_into` fills buffers from it.
Between them stand the objects that the upserts leave.
-/

namespace Mooncake.Write

open Library.ByteMemory Read List

/-- The read meets these objects, with their sizes. -/
def Serves (objects : Objects) (request : IntoRequest) (world : World) : Prop :=
  ∀ key value, objects key = some value → request.objectSize key = value.length ∧
    ∀ position < value.length, value[position]? = some (world.object key position)

/-- Upserts from buffers are read back: a later read without collisions that succeeds for one of
the keys has copied the last buffer upserted under the key, byte by byte, into the buffer given
for the read. -/
theorem batchUpsertFrom_readsBack {client : WriteClient} {config : ReplicateConfig}
    {keys : List ObjectKey} {buffers sizes : List Nat} {memory : Memory} {batch : ClientBatch}
    (passed : chunkUpsertBatch client config keys buffers sizes memory = .ok batch)
    (objects : Objects) (request : IntoRequest) (world : World)
    (serves : Serves (batch.upsert objects) request world) (apart : request.Apart)
    (fresh : world.Fresh request.sizeAt fun index => addresses (request.target index))
    {index size last buffer length : Nat} {key : ObjectKey}
    (success : (request.batchGetIntoInternal world).results[index]? = some (.ok size))
    (asked : request.keys[index]? = some key) (final : LastAt keys last key)
    (source : buffers[last]? = some buffer) (sized : sizes[last]? = some length) :
    size = length ∧ ∀ offset < length,
      applyAll (request.batchGetIntoInternal world).writes world.memory
        (request.buffers.getD index 0 + offset) = memory (buffer + offset) := by
  unfold chunkUpsertBatch at passed
  split at passed
  · cases passed
  · rename_i chunks chunked
    cases passed
    obtain ⟨-, rfl⟩ := chunkBatch_eq_ok_iff.mp chunked
    -- the object of the key is the last buffer that was given for it
    have value : (List.zipWith (fun buffer size => (List.range' buffer size).map memory) buffers
        sizes)[last]? = some ((List.range' buffer length).map memory) := by
      simp [getElem?_zipWith, source, sized]
    have stored := upsertEach_of_lastAt final value objects
    rw [← chunks_contents client] at stored
    obtain ⟨total, bytes⟩ := serves key _ stored
    obtain ⟨whole, holds⟩ := (apart.indexCorrect fresh).holds index size key success asked
    rw [length_map, length_range'] at total
    refine ⟨whole.trans total, fun offset inside => ?_⟩
    obtain ⟨address, place, byte⟩ := holds offset (by omega)
    have here : request.buffers.getD index 0 + offset = address := by
      rw [IntoInquiry.target, addresses, flatMap_singleton] at place
      simpa using (List.getElem?_eq_some_iff.mp place).2
    have there := bytes offset (by simpa using inside)
    rw [getElem?_map, getElem?_range' inside] at there
    rw [here, byte]
    simpa using there.symm

/-- One byte in memory at the node `node`, asked for once, into the byte at 8. -/
def oneRead : IntoRequest where
  keys := ["key"]
  query := fun _ => .ok
    { replicas := [⟨.complete, .memory ⟨"node", 0, 1⟩⟩], leaseTimeout := 1 }
  localEndpoints := []
  objectSize := fun _ => 1
  allocateSlices := fun replica ptr => [⟨ptr, totalSize replica⟩]
  sized := by
    intro index key result _ queried replica member
    cases queried
    rw [mem_singleton.mp member]
    rfl
  covers := addresses_whole
  buffers := [8]
  sizes := [1]
  separate := by
    intro first second different address inside inside'
    rcases first with _ | first <;> rcases second with _ | second <;> simp_all

/-- The byte at 0 and then the byte at 5, which holds a one, are upserted under one key; the
second one is read back. -/
theorem upsertedTwice_readsBack_second :
    let memory : Memory := fun address => if address = 5 then 1 else 9
    let run := oneRead.batchGetIntoInternal (bareWorld true)
    chunkUpsertBatch BatchedWrite.byteClient {} ["key", "key"] [0, 5] [1, 1] memory =
        .ok ⟨["key", "key"], [[⟨0, 1⟩], [⟨5, 1⟩]], memory⟩ ∧
      run.results = [.ok 1] ∧ applyAll run.writes (bareWorld true).memory 8 = memory 5 := by
  intro memory run
  have chunk (buffer : Nat) : chunksFrom BatchedWrite.byteClient buffer 1 0 = [⟨buffer, 1⟩] := by
    rw [chunksFrom, if_pos (by decide)]
    dsimp only
    rw [chunksFrom, if_neg (by decide)]
    rfl
  have passed : chunkUpsertBatch BatchedWrite.byteClient {} ["key", "key"] [0, 5] [1, 1] memory =
      .ok ⟨["key", "key"], [[⟨0, 1⟩], [⟨5, 1⟩]], memory⟩ := by
    rw [chunkUpsertBatch, chunkBatch, if_neg (by decide), if_neg (by decide), if_neg (by decide)]
    simp [chunk]
  have results : run.results = [.ok 1] := by decide +kernel
  have serves : Serves (ClientBatch.upsert ⟨["key", "key"], [[⟨0, 1⟩], [⟨5, 1⟩]], memory⟩
      fun _ => none) oneRead (bareWorld true) := by
    intro key value stored
    have single : value = [1] := by
      by_cases same : key = "key" <;>
        simp_all [ClientBatch.upsert, upsertEach, gather, addresses, memory]
    refine ⟨by rw [single]; rfl, fun position inside => ?_⟩
    obtain rfl : position = 0 := by simpa [single] using inside
    rw [single]
    rfl
  have apart : oneRead.Apart := by
    intro _ first present second other earlier
    rw [mem_singleton.mp present, mem_singleton.mp other] at earlier
    exact absurd earlier (Nat.lt_irrefl _)
  have success : run.results[0]? = some (.ok 1) := by rw [results]; rfl
  have final : LastAt ["key", "key"] 1 "key" := by
    refine ⟨rfl, fun later above => ?_⟩
    rw [getElem?_eq_none above]
    exact fun found => by cases found
  have back := batchUpsertFrom_readsBack passed _ oneRead (bareWorld true) serves apart
    (plainWorld_fresh_of_none ..) success rfl final rfl rfl
  exact ⟨passed, results, back.2 0 (by decide)⟩

end Mooncake.Write
