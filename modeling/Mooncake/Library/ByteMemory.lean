import Mathlib.Data.List.Range
import Mathlib.Data.List.Nodup

/-!
# Writes to a byte memory

A write replaces the bytes at the addresses of its domain; the new bytes may
depend on the memory it finds.  Each write is made on behalf of an index.  The
byte left at an address by a sequence of writes is settled as soon as every
write that touches the address stores that byte there.
-/

namespace Mooncake.Library.ByteMemory

open List

abbrev Memory := Nat → UInt8

structure Write where
  behalf : Nat
  domain : List Nat
  value : Memory → Nat → UInt8

namespace Write

def apply (write : Write) (memory : Memory) : Memory :=
  fun address => if address ∈ write.domain then write.value memory address else memory address

theorem apply_of_not_mem {write : Write} {address : Nat} (outside : address ∉ write.domain)
    {memory : Memory} : write.apply memory address = memory address :=
  if_neg outside

theorem apply_of_mem {write : Write} {address : Nat} (inside : address ∈ write.domain)
    (memory : Memory) : write.apply memory address = write.value memory address :=
  if_pos inside

end Write

def applyAll (writes : List Write) (memory : Memory) : Memory :=
  writes.foldl (fun current write => write.apply current) memory

theorem applyAll_cons (write : Write) (rest : List Write) (memory : Memory) :
    applyAll (write :: rest) memory = applyAll rest (write.apply memory) := rfl

theorem applyAll_append (front back : List Write) (memory : Memory) :
    applyAll (front ++ back) memory = applyAll back (applyAll front memory) :=
  foldl_append

theorem applyAll_of_not_mem {writes : List Write} {address : Nat}
    (outside : ∀ write ∈ writes, address ∉ write.domain) (memory : Memory) :
    applyAll writes memory address = memory address := by
  induction writes generalizing memory with
  | nil => rfl
  | cons write rest ih =>
    rw [applyAll_cons, ih fun other present => outside other (mem_cons_of_mem _ present)]
    exact Write.apply_of_not_mem (outside write mem_cons_self)

section Settled

variable {invariant : Memory → Prop} {writes : List Write} {address : Nat} {byte : UInt8}
  (kept : ∀ write ∈ writes, ∀ memory, invariant memory → invariant (write.apply memory))
  (agrees : ∀ write ∈ writes, address ∈ write.domain →
    ∀ memory, invariant memory → write.value memory address = byte)

include kept agrees

theorem applyAll_eq_of_eq {memory : Memory} (start : invariant memory)
    (present : memory address = byte) : applyAll writes memory address = byte := by
  induction writes generalizing memory with
  | nil => exact present
  | cons write rest ih =>
    rw [applyAll_cons]
    refine ih (fun other later => kept other (mem_cons_of_mem _ later))
      (fun other later => agrees other (mem_cons_of_mem _ later))
      (kept write mem_cons_self memory start) ?_
    by_cases inside : address ∈ write.domain
    · rw [Write.apply_of_mem inside]
      exact agrees write mem_cons_self inside memory start
    · rw [Write.apply_of_not_mem inside, present]

/-- A byte that some write stores, and no write replaces, is there at the end. -/
theorem applyAll_eq_of_mem {memory : Memory} (start : invariant memory)
    (stored : ∃ write ∈ writes, address ∈ write.domain) :
    applyAll writes memory address = byte := by
  induction writes generalizing memory with
  | nil => simp at stored
  | cons write rest ih =>
    have keptRest : ∀ other ∈ rest, ∀ memory, invariant memory →
        invariant (other.apply memory) :=
      fun other later => kept other (mem_cons_of_mem _ later)
    have agreesRest : ∀ other ∈ rest, address ∈ other.domain →
        ∀ memory, invariant memory → other.value memory address = byte :=
      fun other later => agrees other (mem_cons_of_mem _ later)
    have started := kept write mem_cons_self memory start
    rw [applyAll_cons]
    by_cases inside : address ∈ write.domain
    · refine applyAll_eq_of_eq keptRest agreesRest started ?_
      rw [Write.apply_of_mem inside]
      exact agrees write mem_cons_self inside memory start
    · obtain ⟨other, present, covers⟩ := stored
      rcases mem_cons.mp present with rfl | later
      · exact absurd covers inside
      · exact ih keptRest agreesRest started ⟨other, later, covers⟩

end Settled

theorem applyAll_eq_of_stored {writes : List Write} {address : Nat} {byte : UInt8}
    (agrees : ∀ write ∈ writes, address ∈ write.domain →
      ∀ memory, write.value memory address = byte)
    (stored : ∃ write ∈ writes, address ∈ write.domain) (memory : Memory) :
    applyAll writes memory address = byte := by
  have kept : ∀ write ∈ writes, ∀ memory, (fun _ : Memory => True) memory →
      (fun _ : Memory => True) (write.apply memory) := fun _ _ _ _ => trivial
  exact applyAll_eq_of_mem kept
    (fun write present inside memory _ => agrees write present inside memory) trivial stored

/-- The bytes stored at a list of places, in order. -/
def Holds (memory : Memory) (places : List Nat) (size : Nat) (bytes : Nat → UInt8) : Prop :=
  ∀ position < size, ∃ address, places[position]? = some address ∧
    memory address = bytes position

/-- The bytes stored in one block. -/
def BlockHolds (ptr size : Nat) (bytes : Nat → UInt8) (memory : Memory) : Prop :=
  ∀ position < size, memory (ptr + position) = bytes position

theorem BlockHolds.apply {ptr size : Nat} {bytes : Nat → UInt8} {memory : Memory}
    (stored : BlockHolds ptr size bytes memory) {write : Write}
    (outside : ∀ position < size, ptr + position ∉ write.domain) :
    BlockHolds ptr size bytes (write.apply memory) := by
  intro position bound
  rw [Write.apply_of_not_mem (outside position bound), stored position bound]

/-- A byte that is copied out of a block, which the copies do not touch. -/
theorem applyAll_copied {early late : List Write} {memory : Memory} {ptr size : Nat}
    {bytes : Nat → UInt8} (staged : BlockHolds ptr size bytes (applyAll early memory))
    (apart : ∀ write ∈ late, ∀ position < size, ptr + position ∉ write.domain)
    {position address : Nat} (inBlock : position < size)
    (copies : ∀ write ∈ late, address ∈ write.domain →
      ∀ memory, write.value memory address = memory (ptr + position))
    (stored : ∃ write ∈ late, address ∈ write.domain) :
    applyAll (early ++ late) memory address = bytes position := by
  have kept : ∀ write ∈ late, ∀ memory, BlockHolds ptr size bytes memory →
      BlockHolds ptr size bytes (write.apply memory) :=
    fun write written _ holds => holds.apply (apart write written)
  rw [applyAll_append]
  refine applyAll_eq_of_mem kept (fun write written touched memory holds => ?_) staged stored
  rw [copies write written touched memory, holds position inBlock]

end Mooncake.Library.ByteMemory
