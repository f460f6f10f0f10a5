import Mathlib.Data.List.Forall2
import Mooncake.Types

/-!
# Shared memory of dummy clients

A dummy client names its buffers by its own addresses.  The real client has mapped
the same memory elsewhere, and translates an address by the distance between the two
bases.  Addresses and sizes are 64-bit words; differences and sums wrap around.
-/

namespace Mooncake.Shm

open List

/-- `MappedShm`.  A mapping ends within the address space. -/
structure MappedShm where
  shmBuffer : UInt64
  shmSize : UInt64
  dummyBaseAddr : UInt64
  shmAddrOffset : UInt64
  offset_eq : shmAddrOffset = shmBuffer - dummyBaseAddr
  fits : shmBuffer.toNat + shmSize.toNat ≤ 2 ^ 64
  deriving DecidableEq

def MappedShm.Contains (shm : MappedShm) (start size : Nat) : Prop :=
  shm.shmBuffer.toNat ≤ start ∧ start + size ≤ shm.shmBuffer.toNat + shm.shmSize.toNat

def mapDummyRangeInShm (shm : MappedShm) (dummyAddr offset size : UInt64) : Option UInt64 :=
  if dummyAddr < shm.dummyBaseAddr then none
  else
    let baseOffset := dummyAddr - shm.dummyBaseAddr
    if shm.shmSize < baseOffset ∨ shm.shmSize - baseOffset < offset then none
    else
      let writeOffset := baseOffset + offset
      if writeOffset < baseOffset ∨ shm.shmSize < writeOffset ∨
          shm.shmSize - writeOffset < size then none
      else some (dummyAddr + shm.shmAddrOffset + offset)

/-- `map_dummy_buffer_to_real`; the mapping of the last hit is tried first. -/
def mapDummyBufferToReal (mappedShms : List MappedShm) (dummyAddr bufSize : UInt64)
    (lastHit : Option MappedShm) : Option (UInt64 × Option MappedShm) :=
  match lastHit.bind fun shm => mapDummyRangeInShm shm dummyAddr 0 bufSize with
  | some real => some (real, lastHit)
  | none =>
    mappedShms.findSome? fun shm =>
      (mapDummyRangeInShm shm dummyAddr 0 bufSize).map fun real => (real, some shm)

def mapDummyBufferRangeToReal (mappedShms : List MappedShm) (dummyAddr dstOffset size : UInt64) :
    Option UInt64 :=
  mappedShms.findSome? fun shm => mapDummyRangeInShm shm dummyAddr dstOffset size

/-- The loop of `map_dummy_addrs_to_real_ptrs`. -/
def mapEachDummyAddr (mappedShms : List MappedShm) :
    List (UInt64 × UInt64) → Option MappedShm → Expected (List UInt64)
  | [], _ => .ok []
  | (dummyAddr, size) :: rest, lastHit =>
    match mapDummyBufferToReal mappedShms dummyAddr size lastHit with
    | none => .error .invalidParams
    | some (real, hit) =>
      match mapEachDummyAddr mappedShms rest hit with
      | .error error => .error error
      | .ok reals => .ok (real :: reals)

def mapDummyAddrsToRealPtrs (mappedShms : List MappedShm) (dummyAddrs sizes : List UInt64) :
    Expected (List UInt64) :=
  if dummyAddrs.length ≠ sizes.length then .error .invalidParams
  else mapEachDummyAddr mappedShms (dummyAddrs.zip sizes) none

/-! ## Translated addresses -/

theorem add_offset_eq (shm : MappedShm) (dummyAddr offset : UInt64) :
    dummyAddr + shm.shmAddrOffset + offset =
      shm.shmBuffer + (dummyAddr - shm.dummyBaseAddr) + offset := by
  rw [shm.offset_eq, UInt64.sub_eq_add_neg, UInt64.sub_eq_add_neg, ← UInt64.add_assoc,
    ← UInt64.add_assoc, UInt64.add_comm dummyAddr]

variable {dummyAddr : UInt64} {mappedShms : List MappedShm}

theorem mapDummyRangeInShm_contains {shm : MappedShm} {offset size real : UInt64}
    (mapped : mapDummyRangeInShm shm dummyAddr offset size = some real)
    (nonempty : 0 < size.toNat) :
    shm.Contains real.toNat size.toNat := by
  unfold mapDummyRangeInShm at mapped
  split at mapped
  · cases mapped
  · dsimp only at mapped
    generalize distance : dummyAddr - shm.dummyBaseAddr = baseOffset at mapped
    split at mapped
    · cases mapped
    · rename_i inside
      split at mapped
      · cases mapped
      · rename_i ends
        have fits := shm.fits
        simp only [not_or, UInt64.not_lt, UInt64.le_iff_toNat_le] at inside ends
        rw [UInt64.toNat_sub_of_le _ _ (UInt64.le_iff_toNat_le.mpr inside.1)] at inside
        rw [UInt64.toNat_sub_of_le _ _ (UInt64.le_iff_toNat_le.mpr ends.2.1)] at ends
        have exact : (baseOffset + offset).toNat = baseOffset.toNat + offset.toNat := by
          rw [UInt64.toNat_add, Nat.mod_eq_of_lt]
          have bound := shm.shmSize.toNat_lt
          omega
        rw [exact] at ends
        have place : real.toNat = shm.shmBuffer.toNat + baseOffset.toNat + offset.toNat := by
          rw [← Option.some.inj mapped, add_offset_eq, distance, UInt64.toNat_add,
            UInt64.toNat_add, Nat.mod_add_mod, Nat.mod_eq_of_lt (by omega)]
        exact ⟨by omega, by omega⟩

theorem mapDummyRangeInShm_eq {shm : MappedShm} {offset size real : UInt64}
    (mapped : mapDummyRangeInShm shm dummyAddr offset size = some real) :
    real = dummyAddr + shm.shmAddrOffset + offset := by
  unfold mapDummyRangeInShm at mapped
  split at mapped
  · cases mapped
  · dsimp only at mapped
    split at mapped
    · cases mapped
    · split at mapped
      · cases mapped
      · exact (Option.some.inj mapped).symm

theorem mapDummyBufferToReal_spec {bufSize real : UInt64} {lastHit hit : Option MappedShm}
    (known : ∀ shm ∈ lastHit, shm ∈ mappedShms)
    (mapped : mapDummyBufferToReal mappedShms dummyAddr bufSize lastHit = some (real, hit)) :
    (∃ shm ∈ mappedShms, mapDummyRangeInShm shm dummyAddr 0 bufSize = some real) ∧
      ∀ shm ∈ hit, shm ∈ mappedShms := by
  unfold mapDummyBufferToReal at mapped
  split at mapped
  · rename_i again
    cases mapped
    obtain ⟨shm, last, translated⟩ := Option.bind_eq_some_iff.mp again
    exact ⟨⟨shm, known shm last, translated⟩, known⟩
  · obtain ⟨shm, present, found⟩ := exists_of_findSome?_eq_some mapped
    obtain ⟨other, translated, same⟩ := Option.map_eq_some_iff.mp found
    cases same
    refine ⟨⟨shm, present, translated⟩, fun hit same => ?_⟩
    cases same
    exact present

theorem mapEachDummyAddr_spec {pairs : List (UInt64 × UInt64)} {lastHit : Option MappedShm}
    {reals : List UInt64} (known : ∀ shm ∈ lastHit, shm ∈ mappedShms)
    (mapped : mapEachDummyAddr mappedShms pairs lastHit = .ok reals) :
    List.Forall₂ (fun pair real =>
      ∃ shm ∈ mappedShms, mapDummyRangeInShm shm pair.1 0 pair.2 = some real) pairs reals := by
  induction pairs generalizing lastHit reals with
  | nil =>
    cases mapped
    exact .nil
  | cons pair rest ih =>
    obtain ⟨dummyAddr, size⟩ := pair
    unfold mapEachDummyAddr at mapped
    split at mapped
    · cases mapped
    · rename_i real hit first
      obtain ⟨translated, stillKnown⟩ := mapDummyBufferToReal_spec known first
      split at mapped
      · cases mapped
      · rename_i others later
        cases mapped
        exact .cons translated (ih stillKnown later)

/-- Every pointer is the translation of its address, with its size, by one mapping. -/
theorem mapDummyAddrsToRealPtrs_spec {dummyAddrs sizes reals : List UInt64}
    (mapped : mapDummyAddrsToRealPtrs mappedShms dummyAddrs sizes = .ok reals) :
    reals.length = dummyAddrs.length ∧
      ∀ (i : Nat) (real : UInt64), reals[i]? = some real →
        ∃ dummyAddr size shm, dummyAddrs[i]? = some dummyAddr ∧ sizes[i]? = some size ∧
          shm ∈ mappedShms ∧ mapDummyRangeInShm shm dummyAddr 0 size = some real := by
  unfold mapDummyAddrsToRealPtrs at mapped
  split at mapped
  · cases mapped
  · rename_i aligned
    have related := mapEachDummyAddr_spec (by simp) mapped
    obtain ⟨length, each⟩ := forall₂_iff_get.mp related
    rw [length_zip] at length
    refine ⟨by omega, fun i real found => ?_⟩
    obtain ⟨inside, rfl⟩ := List.getElem?_eq_some_iff.mp found
    have bound : i < (dummyAddrs.zip sizes).length := by
      rw [length_zip]
      omega
    obtain ⟨shm, listed, translated⟩ := each i bound inside
    obtain ⟨address, size⟩ := getElem?_zip_eq_some.mp (getElem?_eq_getElem bound)
    exact ⟨_, _, shm, address, size, listed, translated⟩

end Mooncake.Shm
