import Mathlib.Data.List.AList
import Mathlib.Data.List.Perm.Subperm

/-!
# Resources with one owner

A list of owners pairs a key with the resource that it owns.  The owners are separate when
no two of them share a key or touch each other's resource.  What is handed from one owner to
another, or given up, keeps the owners separate.
-/

namespace Mooncake.Library.Ownership

open List

variable {κ ρ : Type} {apart : ρ → ρ → Prop}

def Unrelated (apart : ρ → ρ → Prop) (first second : κ × ρ) : Prop :=
  first.1 ≠ second.1 ∧ apart first.2 second.2

instance [Std.Symm apart] : Std.Symm (Unrelated (κ := κ) apart) where
  symm _ _ unrelated := ⟨unrelated.1.symm, Std.Symm.symm _ _ unrelated.2⟩

def Separate (apart : ρ → ρ → Prop) (owners : List (κ × ρ)) : Prop :=
  owners.Pairwise (Unrelated apart)

variable {owners : List (κ × ρ)} {records : AList fun _ : κ => ρ}

theorem Separate.subperm [Std.Symm apart] {fewer : List (κ × ρ)} (separate : Separate apart owners)
    (subperm : fewer.Subperm owners) :
    Separate apart fewer := by
  obtain ⟨reordered, perm, sublist⟩ := subperm
  exact (perm.pairwise_iff fun unrelated => Std.Symm.symm _ _ unrelated).mp
    (List.Pairwise.sublist sublist separate)

variable {owner : κ × ρ} {resource : ρ} {key : κ}

theorem Separate.cons (separate : Separate apart owners)
    (fresh : ∀ other ∈ owners, owner.1 ≠ other.1) (free : ∀ other ∈ owners, apart owner.2 other.2) :
    Separate apart (owner :: owners) :=
  pairwise_cons.mpr ⟨fun other present => ⟨fresh other present, free other present⟩, separate⟩

theorem Separate.apart_of_ne [Std.Symm apart] (separate : Separate apart owners)
    {first second : κ × ρ} (one : first ∈ owners) (two : second ∈ owners)
    (different : first.1 ≠ second.1) : apart first.2 second.2 := by
  have unrelated := List.Pairwise.forall separate one two
    fun same => different (congrArg Prod.fst same)
  exact unrelated.2

theorem Separate.not_mem_rest (separate : Separate apart (owner :: owners)) :
    (owner.1, resource) ∉ owners :=
  fun present => ((pairwise_cons.mp separate).1 _ present).1 rfl

/-! ## Owners in an association list -/

variable [DecidableEq κ]

def ownersOf (records : AList fun _ : κ => ρ) : List (κ × ρ) :=
  records.entries.map fun entry => (entry.1, entry.2)

theorem mem_ownersOf :
    (key, resource) ∈ ownersOf records ↔ records.lookup key = some resource := by
  rw [ownersOf, mem_map, ← Option.mem_def, AList.mem_lookup_iff]
  constructor
  · rintro ⟨entry, present, same⟩
    cases same
    exact present
  · intro present
    exact ⟨_, present, rfl⟩

theorem ownersOf_erase (found : records.lookup key = some resource) :
    (ownersOf records).Perm ((key, resource) :: ownersOf (records.erase key)) := by
  have present : ⟨key, resource⟩ ∈ records.entries := AList.mem_lookup_iff.mp found
  obtain ⟨value, front, back, absent, split, erased⟩ := exists_of_kerase (mem_keys_of_mem present)
  have same : value = resource := by
    have inside : ⟨key, value⟩ ∈ records.entries := by rw [split]; simp
    have located : records.lookup key = some value := AList.mem_lookup_iff.mpr inside
    exact Option.some.inj (located.symm.trans found)
  subst same
  have kept : (records.erase key).entries = front ++ back := erased
  rw [ownersOf, ownersOf, kept, split]
  exact perm_middle.map _

theorem ownersOf_insert (resource : ρ) (absent : key ∉ records) :
    ownersOf (records.insert key resource) = (key, resource) :: ownersOf records := by
  rw [ownersOf, AList.entries_insert_of_notMem absent]
  rfl

end Mooncake.Library.Ownership
