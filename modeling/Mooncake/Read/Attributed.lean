import Mooncake.Read.BatchWrites

/-!
# Writes and the reads they belong to

A batch read into memory of the caller sends some objects straight to that memory and reads
the others through temporary blocks.  When every write belongs to the read of one index, what
is written for an index stays in the memory given for it, and a read without a failure leaves
the bytes of its object.
-/

namespace Mooncake.Read

open Library.Indexed Library.Keyed Library.ByteMemory List

/-- The reads of one call: the memory of the caller, the slices that receive the object of a
key straight away, the DISK reads with the copies from their blocks, and all failures. -/
structure Phases where
  target : Nat → List Slice
  capacity : Nat → Nat
  slices : Planned → List Slice
  reads : List StagedRead
  scatter : StagedRead → ReadOutcome
  failures : List (Nat × ErrorCode)

namespace Phases

section Model

variable (phases : Phases) (batch : Batch) (world : World)

def planned : List Planned :=
  plannedReads (batch.planWithin phases.capacity) batch.keys

def Fine (index : Nat) : Prop :=
  index ∉ phases.failures.map Prod.fst

def op (planned : Planned) : ReadOp where
  index := planned.index
  key := planned.key
  query := planned.query
  slices := phases.slices planned
  totalSize := totalSize planned.replica

/-- The write sends the object of a key straight to the caller. -/
def Straight (write : Write) : Prop :=
  ∃ planned ∈ phases.planned batch, planned.route ≠ .disk ∧ ∃ succeeded,
    write = transferWrite world (phases.op planned) (phases.slices planned) succeeded ∧
      (phases.Fine planned.index → succeeded = true)

/-- The read is the only one with its key, so that its block is held. -/
structure Only (read : StagedRead) : Prop where
  listed : read ∈ phases.reads
  alone : ∀ other ∈ phases.reads, other.op.key = read.op.key → other = read

def IntoBlock (write : Write) : Prop :=
  ∃ read, phases.Only read ∧ ∃ succeeded,
    write = transferWrite world read.op read.op.slices succeeded ∧
      (phases.Fine read.op.index → succeeded = true)

/-- Every write belongs to the read of one index; copies are made after the transfers. -/
structure Attributed (early late : List Write) : Prop where
  within : ∀ planned ∈ phases.planned batch, ∀ address ∈ addresses (phases.slices planned),
    address ∈ addresses (phases.target planned.index)
  staged : ∀ read ∈ phases.reads, ∃ planned ∈ phases.planned batch, planned.route = .disk ∧
    Staged batch world planned read
  unique : ∀ read ∈ phases.reads, ∀ other ∈ phases.reads, other.op.index = read.op.index →
    other = read
  copies : ∀ read ∈ phases.reads, ∀ write ∈ (phases.scatter read).writes,
    write.behalf = read.op.index ∧
      ∀ address ∈ write.domain, address ∈ addresses (phases.target read.op.index)
  early : ∀ write ∈ early, write.domain = [] ∨ phases.Straight batch world write ∨
    phases.IntoBlock world write
  late : ∀ write ∈ late, phases.Straight batch world write ∨
    ∃ read ∈ phases.reads, write ∈ (phases.scatter read).writes

end Model

namespace Attributed

variable {phases : Phases} {batch : Batch} {world : World} {early late : List Write}
  (attributed : phases.Attributed batch world early late)

include attributed

theorem held_allocated (index address : Nat)
    (inside : address ∈ addresses (heldBlocks phases.reads index)) :
    ∃ ptr, world.allocate index = some ptr ∧ address ∈ List.range' ptr (batch.sizeAt index) := by
  obtain ⟨read, kept, rfl, block⟩ := mem_heldBlocks.mp inside
  obtain ⟨planned, present, -, staged⟩ := attributed.staged read (mem_of_mem_emplaceAll kept)
  refine ⟨read.temp, staged.index ▸ staged.temp, ?_⟩
  rwa [staged.index, (plannedWithin_sized present).1.sizeAt, ← staged.size]

theorem confined {write : Write} (written : write ∈ early ++ late) {address : Nat}
    (inside : address ∈ write.domain) :
    Given phases.target (heldBlocks phases.reads) write.behalf address := by
  have straight : phases.Straight batch world write →
      Given phases.target (heldBlocks phases.reads) write.behalf address := by
    rintro ⟨planned, present, -, succeeded, rfl, -⟩
    exact .inl (attributed.within planned present address (mem_addresses_of_mem_domain inside).1)
  rcases mem_append.mp written with sent | later
  · rcases attributed.early write sent with empty | direct | ⟨read, only, succeeded, rfl, -⟩
    · simp [empty] at inside
    · exact straight direct
    · obtain ⟨planned, -, -, staged⟩ := attributed.staged read only.listed
      have block := (mem_addresses_of_mem_domain inside).1
      rw [staged.slices, ← staged.size] at block
      exact .inr (mem_heldBlocks.mpr
        ⟨read, (tempHandles_of_only only.listed only.alone).1, rfl, block⟩)
  · rcases attributed.late write later with direct | ⟨read, listed, made⟩
    · exact straight direct
    · obtain ⟨behalf, reached⟩ := attributed.copies read listed write made
      exact .inl (behalf ▸ reached address inside)

variable (fresh : world.Fresh batch.sizeAt fun index => addresses (phases.target index))
  (separate : ∀ first second, first ≠ second → ∀ address ∈ addresses (phases.target first),
    address ∉ addresses (phases.target second))

include fresh separate

theorem behalf_of_mem {index address : Nat}
    (given : Given phases.target (heldBlocks phases.reads) index address)
    {write : Write} (written : write ∈ early ++ late) (inside : address ∈ write.domain) :
    write.behalf = index :=
  given_unique fresh separate attributed.held_allocated (attributed.confined written inside) given

/-- A key that is sent straight to the caller without a failure leaves its object there. -/
theorem straight_holds {planned : Planned} (present : planned ∈ phases.planned batch)
    (fine : phases.Fine planned.index) (unstaged : planned.route ≠ .disk)
    (stored : transferWrite world (phases.op planned) (phases.slices planned) true ∈ early ++ late)
    (distinct : (addresses (phases.slices planned)).Nodup) {position address : Nat}
    (inObject : position < batch.objectSize planned.key)
    (place : (addresses (phases.slices planned))[position]? = some address) :
    applyAll (early ++ late) world.memory address = world.object planned.key position := by
  have sized := (plannedWithin_sized present).1
  refine applyAll_transferred distinct place (Nat.lt_of_lt_of_eq inObject sized.chosen.symm)
    stored ?_
  intro write written touched
  have own := attributed.behalf_of_mem fresh separate
    (.inl (attributed.within planned present address (mem_of_getElem? place))) written touched
  have straight : phases.Straight batch world write →
      write = transferWrite world (phases.op planned) (phases.slices planned) true := by
    rintro ⟨other, present', -, succeeded, rfl, settled⟩
    obtain rfl := plannedWithin_unique present' present own
    rw [settled fine]
  have unread : ∀ read ∈ phases.reads, read.op.index ≠ planned.index := by
    intro read listed indexed
    obtain ⟨other, present', route, staged⟩ := attributed.staged read listed
    obtain rfl := plannedWithin_unique present' present (staged.index.symm.trans indexed)
    exact unstaged route
  rcases mem_append.mp written with sent | later
  · rcases attributed.early write sent with empty | direct | ⟨read, only, succeeded, rfl, -⟩
    · simp [empty] at touched
    · exact straight direct
    · exact absurd own (unread read only.listed)
  · rcases attributed.late write later with direct | ⟨read, listed, made⟩
    · exact straight direct
    · exact absurd ((attributed.copies read listed write made).1.symm.trans own)
        (unread read listed)

section Block

variable {read : StagedRead} (only : phases.Only read)

include only

omit attributed fresh separate in
theorem given_block {position : Nat} (inBlock : position < read.op.totalSize) :
    Given phases.target (heldBlocks phases.reads) read.op.index (read.temp + position) := by
  refine .inr (mem_heldBlocks.mpr ⟨read, (tempHandles_of_only only.listed only.alone).1, rfl, ?_⟩)
  rw [mem_range'_1]
  omega

omit fresh separate in
theorem not_straight {write : Write} (own : write.behalf = read.op.index) :
    ¬ phases.Straight batch world write := by
  rintro ⟨other, present', unstaged, succeeded, rfl, -⟩
  obtain ⟨planned, present, route, staged⟩ := attributed.staged read only.listed
  obtain rfl := plannedWithin_unique present' present (own.trans staged.index)
  exact unstaged route

/-- The block holds the object before the copies start. -/
theorem block_holds (fine : phases.Fine read.op.index)
    (stored : transferWrite world read.op read.op.slices true ∈ early) :
    BlockHolds read.temp read.op.totalSize (world.object read.op.key)
      (applyAll early world.memory) := by
  intro position inBlock
  obtain ⟨planned, -, -, staged⟩ := attributed.staged read only.listed
  have block : addresses read.op.slices = List.range' read.temp read.op.totalSize := by
    rw [staged.slices, staged.size]
  refine applyAll_transferred (by rw [block]; exact nodup_range') ?_ inBlock stored ?_
  · rw [block, getElem?_range' inBlock, Nat.one_mul]
  · intro write written touched
    have own := attributed.behalf_of_mem fresh separate (given_block only inBlock)
      (mem_append_left _ written) touched
    rcases attributed.early write written with
      empty | direct | ⟨other, single, succeeded, rfl, settled⟩
    · simp [empty] at touched
    · exact absurd direct (attributed.not_straight only own)
    · obtain rfl := attributed.unique read only.listed other single.listed own
      rw [settled fine]

/-- After the transfers, only the copies of a DISK read touch memory given for its index. -/
theorem late_write {address : Nat}
    (given : Given phases.target (heldBlocks phases.reads) read.op.index address)
    {write : Write} (written : write ∈ late) (touched : address ∈ write.domain) :
    write ∈ (phases.scatter read).writes := by
  have own := attributed.behalf_of_mem fresh separate given (mem_append_right _ written) touched
  rcases attributed.late write written with direct | ⟨other, listed, made⟩
  · exact absurd direct (attributed.not_straight only own)
  · have indexed := (attributed.copies other listed write made).1.symm.trans own
    exact attributed.unique read only.listed other listed indexed ▸ made

/-- A DISK read without a failure leaves its object in the memory of the caller. -/
theorem staged_holds (fine : phases.Fine read.op.index)
    (stored : transferWrite world read.op read.op.slices true ∈ early)
    (copied : ∀ write ∈ (phases.scatter read).writes, write ∈ late) {position address : Nat}
    (inBlock : position < read.op.totalSize)
    (mine : address ∈ addresses (phases.target read.op.index))
    (reached : ∃ write ∈ (phases.scatter read).writes, address ∈ write.domain)
    (moved : ∀ write ∈ (phases.scatter read).writes, address ∈ write.domain →
      ∀ memory, write.value memory address = memory (read.temp + position)) :
    applyAll (early ++ late) world.memory address = world.object read.op.key position := by
  obtain ⟨planned, present, -, staged⟩ := attributed.staged read only.listed
  obtain ⟨made, scattered, inside⟩ := reached
  refine applyAll_copied (attributed.block_holds fresh separate only fine stored) ?_ inBlock ?_
    ⟨made, copied made scattered, inside⟩
  · -- The block is not the caller's memory, so no copy goes into it.
    intro write written offset bound touched
    have own := attributed.late_write fresh separate only (given_block only bound) written touched
    refine fresh.apart planned.index read.temp staged.temp (read.temp + offset) ?_ read.op.index
      ((attributed.copies read only.listed write own).2 _ touched)
    rw [(plannedWithin_sized present).1.sizeAt, ← staged.size, mem_range'_1]
    omega
  · intro write written touched
    exact moved write (attributed.late_write fresh separate only (.inl mine) written touched)
      touched

end Block

omit separate fresh in
/-- A call whose writes are attributed is index correct as soon as its successes are backed. -/
theorem indexCorrect
    (backed : ∀ planned ∈ phases.planned batch, phases.Fine planned.index →
      ∀ position < batch.objectSize planned.key,
        ∃ address, (addresses (phases.target planned.index))[position]? = some address ∧
          applyAll (early ++ late) world.memory address = world.object planned.key position) :
    BatchRun.IndexCorrect
      { results := settledResults (batch.planWithin phases.capacity) batch.keys phases.failures
        writes := early ++ late
        held := heldBlocks phases.reads } batch world phases.target where
  holds := by
    intro index size key success keyed
    obtain ⟨planned, present, rfl, rfl, rfl, fine⟩ :=
      settledResults_ok planWithin_named success keyed
    have chosen := (plannedWithin_sized present).1.chosen
    exact ⟨chosen, fun position bound => backed planned present fine position (chosen ▸ bound)⟩
  confined := fun _ written _ inside => attributed.confined written inside

end Attributed

end Phases

end Mooncake.Read
