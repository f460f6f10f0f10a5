import Mooncake.Read.BufferCollision
import Mooncake.Read.IntoCollision
import Mooncake.Read.MultiCollision

/-!
# Index correctness of the batch reads

Each of the three batch reads is index correct in every environment exactly
when no two indices of one non-empty object share an entry of its maps.
-/

namespace Mooncake.Read

open Library.ByteMemory

/-- Whatever the transfers, the copies and the owners answer, a success at an
index is backed by the bytes of its object, and writes made for an index stay in
the memory given for it. -/
theorem batchReads_indexCorrect_iff (into : IntoRequest) (buffer : Batch)
    (multi : MultiRequest) :
    ((∀ world : World,
        world.Fresh into.sizeAt (fun index => addresses (into.target index)) →
          (into.batchGetIntoInternal world).IndexCorrect into.toBatch world into.target) ↔
      into.Apart) ∧
    ((∀ world : World, world.Fresh buffer.sizeAt (fun _ => []) →
        (buffer.batchGetBufferInternal world).IndexCorrect buffer world) ↔
      buffer.NoCollision) ∧
    ((∀ world : World,
        world.Fresh multi.sizeAt (fun index => addresses (multi.target index)) →
          (multi.batchGetIntoMultiBuffersInternal world).IndexCorrect multi.toBatch world
            multi.target) ↔
      multi.Apart) := by
  refine ⟨⟨IntoRequest.apart_of_indexCorrect, ?_⟩,
    ⟨Batch.noCollision_of_indexCorrect, ?_⟩, ⟨MultiRequest.apart_of_indexCorrect, ?_⟩⟩
  · intro apart world fresh
    exact apart.indexCorrect fresh
  · intro apart world fresh
    exact apart.indexCorrect fresh
  · intro apart world fresh
    exact apart.indexCorrect fresh

/-- One byte in memory at the node `node`, asked for twice. -/
def sameKeyTwice : Batch where
  keys := ["key", "key"]
  query := fun _ => .ok
    { replicas := [⟨.complete, .memory ⟨"node", 0, 1⟩⟩], leaseTimeout := 1 }
  localEndpoints := []
  objectSize := fun _ => 1
  allocateSlices := fun replica ptr => [⟨ptr, totalSize replica⟩]
  sized := by
    intro index key result _ queried replica member
    cases queried
    rw [List.mem_singleton.mp member]
    rfl
  covers := addresses_whole

/-- The caller gives the byte at 0 for the first index and the byte at 8 for the
second. -/
def intoTwoBuffers : IntoRequest where
  toBatch := sameKeyTwice
  buffers := [0, 8]
  sizes := [1, 1]
  separate := by
    intro first second different address inside inside'
    rcases first with _ | _ | first <;> rcases second with _ | _ | second <;> simp_all

/-- The same bytes, given as a list of one buffer for each index. -/
def intoTwoLists : MultiRequest where
  toBatch := sameKeyTwice
  allBuffers := [[0], [8]]
  allSizes := [[1], [1]]
  preferAllocInSameNode := false
  paired := by
    intro index
    rcases index with _ | _ | index <;> rfl
  distinct := by
    intro index
    rcases index with _ | _ | index <;> simp [sliceList, addresses]
  separate := by
    intro first second different address inside inside'
    rcases first with _ | _ | first <;> rcases second with _ | _ | second <;>
      simp_all [sliceList, addresses]

/-- Both transfers of the duplicated key go to the buffer at 8; the buffer at 0
is reported as filled and keeps its old byte. -/
theorem duplicatedKey_is_read_into_one_buffer :
    let world := plainWorld true (fun _ => none) fun _ => unreachable
    let run := intoTwoBuffers.batchGetIntoInternal world
    run.results = [.ok 1, .ok 1] ∧
      applyAll run.writes world.memory 0 = 0 ∧ world.object "key" 0 = 1 ∧
      ¬ run.IndexCorrect intoTwoBuffers.toBatch world intoTwoBuffers.target := by
  intro world run
  have results : run.results = [.ok 1, .ok 1] := by decide +kernel
  have byte : applyAll run.writes world.memory 0 = 0 := by decide +kernel
  refine ⟨results, byte, rfl, fun correct => ?_⟩
  obtain ⟨-, holds⟩ := correct.holds 0 1 "key" (by rw [results]; rfl) rfl
  obtain ⟨address, place, filled⟩ := holds 0 (by decide)
  have here : address = 0 := by
    have first : (addresses (intoTwoBuffers.target 0))[0]? = some 0 := rfl
    rw [first, Option.some.injEq] at place
    exact place.symm
  rw [here, byte] at filled
  exact absurd (show (0 : UInt8) = 1 from filled) (by decide)

example :
    let world := plainWorld true (fun _ => none) fun _ => unreachable
    let run := intoTwoLists.batchGetIntoMultiBuffersInternal world
    run.results = [.ok 1, .ok 1] ∧ applyAll run.writes world.memory 0 = 0 := by
  decide +kernel

end Mooncake.Read
