import Mathlib.Algebra.Order.Group.Nat
import Mathlib.Data.List.Perm.Basic

/-!
# Acquired and released resources of a trace

An account says which resource an event acquires and which one it releases.  A
trace is balanced with respect to the resources that are still held at its end if
every other acquisition is matched by one later release of the same resource.
What a trace leaves behind does not depend on the order of its events; that no
release comes too early does, and is checked for every prefix.
-/

namespace Mooncake.Library.Balance

open List

structure Account (ε κ : Type) where
  acquires : ε → Option κ
  releases : ε → Option κ

namespace Account

variable {ε κ α : Type} (account : Account ε κ)

def acquired (events : List ε) : List κ :=
  events.filterMap account.acquires

def released (events : List ε) : List κ :=
  events.filterMap account.releases

/-- The resources that were acquired and not released. -/
def Leaves (events : List ε) (rest : List κ) : Prop :=
  (account.acquired events).Perm (account.released events ++ rest)

variable {account} {events front back : List ε} {rest held leaked : List κ}

@[simp]
theorem acquired_nil : account.acquired [] = [] := rfl

@[simp]
theorem released_nil : account.released [] = [] := rfl

@[simp]
theorem acquired_append : account.acquired (front ++ back) =
    account.acquired front ++ account.acquired back :=
  filterMap_append

@[simp]
theorem released_append : account.released (front ++ back) =
    account.released front ++ account.released back :=
  filterMap_append

/-! ## What is left -/

theorem Leaves.nil : account.Leaves [] [] := List.Perm.refl _

theorem Leaves.append {rest' : List κ} (first : account.Leaves front rest)
    (second : account.Leaves back rest') : account.Leaves (front ++ back) (rest ++ rest') := by
  unfold Leaves at *
  rw [acquired_append, released_append]
  refine (first.append second).trans ?_
  rw [append_assoc, append_assoc]
  exact (perm_append_comm_assoc ..).append_left _

variable {values : List α} {trace : α → List ε} {left : α → List κ}

/-- What is left after later events, if it is known what was left before them. -/
theorem Leaves.append_iff (leaves : account.Leaves front rest) {rest' : List κ} :
    account.Leaves (front ++ back) rest' ↔
      (rest ++ account.acquired back).Perm (account.released back ++ rest') := by
  rw [Leaves, acquired_append, released_append, (leaves.append_right _).congr_left,
    append_assoc, append_assoc, perm_append_left_iff]

/-! ## What is given back -/

variable (account) in
/-- The events take nothing and give the listed resources back. -/
structure Returns (events : List ε) (freed : List κ) : Prop where
  takes : account.acquired events = []
  gives : (account.released events).Perm freed

variable {kept freed freed' resources : List κ}

theorem Returns.of_quiet (quiet : ∀ event ∈ events,
      account.acquires event = none ∧ account.releases event = none) :
    account.Returns events [] where
  takes := filterMap_eq_nil_iff.mpr fun event present => (quiet event present).1
  gives := .of_eq (filterMap_eq_nil_iff.mpr fun event present => (quiet event present).2)

theorem Returns.append (first : account.Returns front freed)
    (second : account.Returns back freed') :
    account.Returns (front ++ back) (freed ++ freed') where
  takes := by rw [acquired_append, first.takes, second.takes, append_nil]
  gives := by
    rw [released_append]
    exact first.gives.append second.gives

theorem Returns.flatMap (each : ∀ value ∈ values, account.Returns (trace value) (left value)) :
    account.Returns (values.flatMap trace) (values.flatMap left) where
  takes := by
    rw [acquired, filterMap_flatMap]
    exact flatMap_eq_nil_iff.mpr fun value present => (each value present).takes
  gives := by
    rw [released, filterMap_flatMap]
    exact List.Perm.flatMap_left _ fun value present => (each value present).gives

theorem Returns.perm (returns : account.Returns front freed) (same : front.Perm back)
    (listed : freed.Perm freed') : account.Returns back freed' where
  takes := List.Perm.eq_nil (returns.takes ▸ (same.filterMap account.acquires).symm)
  gives := (same.filterMap _).symm.trans (returns.gives.trans listed)

variable [DecidableEq κ]

theorem Leaves.count (leaves : account.Leaves events rest) (key : κ) :
    (account.acquired events).count key = (account.released events).count key + rest.count key := by
  rw [leaves.count_eq, count_append]

/-! ## No early release -/

variable (account) in
/-- At no time has a resource been released more often than acquired. -/
def Covered (events : List ε) : Prop :=
  ∀ front, front <+: events → ∀ key,
    (account.released front).count key ≤ (account.acquired front).count key

theorem prefix_append_cases {part : List ε} (within : part <+: front ++ back) :
    part <+: front ∨ ∃ later, part = front ++ later ∧ later <+: back := by
  rcases prefix_or_prefix_of_prefix within (prefix_append front back) with
    early | ⟨later, rfl⟩
  · exact .inl early
  · exact .inr ⟨later, rfl, (prefix_append_right_inj front).mp within⟩

theorem Covered.nil : account.Covered [] := by
  intro part within key
  rw [prefix_nil.mp within]
  exact Nat.le_refl _

theorem covered_of_released_nil (none : account.released events = []) :
    account.Covered events := by
  intro part within key
  obtain ⟨suffix, rfl⟩ := within
  rw [released_append, append_eq_nil_iff] at none
  rw [none.1]
  exact Nat.zero_le _

theorem Covered.append (first : account.Covered front) (second : account.Covered back) :
    account.Covered (front ++ back) := by
  intro part within key
  rcases prefix_append_cases within with early | ⟨later, rfl, inside⟩
  · exact first part early key
  · rw [released_append, acquired_append, count_append, count_append]
    exact Nat.add_le_add (first front (prefix_refl _) key) (second later inside key)

/-- A last phase that only releases, if it does not release too much. -/
theorem Covered.append_releases (first : account.Covered front)
    (none : account.acquired back = []) (leaves : account.Leaves (front ++ back) rest) :
    account.Covered (front ++ back) := by
  intro part within key
  rcases prefix_append_cases within with early | ⟨later, rfl, ⟨suffix, rfl⟩⟩
  · exact first part early key
  · have total := leaves.count key
    simp only [acquired_append, append_eq_nil_iff] at none
    simp only [acquired_append, released_append, count_append, none.1, none.2, count_nil] at total ⊢
    omega

variable (account) in
/-- Every acquisition is matched by a later release, or is still held. -/
structure Balanced (events : List ε) (held : List κ) : Prop where
  settled : ∀ key, (account.acquired events).count key =
    (account.released events).count key + held.count key
  covered : account.Covered events

/-! ## What is kept -/

variable (account) in
/-- No release comes too early, and what was acquired and not released is kept. -/
structure Keeps (events : List ε) (kept : List κ) : Prop where
  leaves : account.Leaves events kept
  covered : account.Covered events

theorem Keeps.nil : account.Keeps [] [] := ⟨Leaves.nil, Covered.nil⟩

theorem Keeps.append {kept' : List κ} (first : account.Keeps front kept)
    (second : account.Keeps back kept') : account.Keeps (front ++ back) (kept ++ kept') :=
  ⟨first.leaves.append second.leaves, first.covered.append second.covered⟩

theorem Keeps.flatMap (each : ∀ value ∈ values, account.Keeps (trace value) (left value)) :
    account.Keeps (values.flatMap trace) (values.flatMap left) := by
  induction values with
  | nil => exact Keeps.nil
  | cons value others ih =>
    exact (each value mem_cons_self).append
      (ih fun other present => each other (mem_cons_of_mem _ present))

theorem Keeps.perm {kept' : List κ} (keeps : account.Keeps events kept) (same : kept.Perm kept') :
    account.Keeps events kept' :=
  ⟨keeps.leaves.trans (same.append_left _), keeps.covered⟩

theorem Keeps.acquire (keeps : account.Keeps front kept) (none : account.released back = [])
    (all : account.acquired back = resources) :
    account.Keeps (front ++ back) (kept ++ resources) := by
  have later : account.Leaves back resources := by
    rw [Leaves, none, all]
    exact .refl _
  exact keeps.append ⟨later, covered_of_released_nil none⟩

theorem Keeps.release (keeps : account.Keeps front kept) (returns : account.Returns back freed)
    (among : kept.Perm (freed ++ resources)) : account.Keeps (front ++ back) resources := by
  have left : account.Leaves (front ++ back) resources := by
    rw [keeps.leaves.append_iff, returns.takes, append_nil]
    exact among.trans (returns.gives.symm.append_right _)
  exact ⟨left, keeps.covered.append_releases returns.takes left⟩

theorem Returns.keeps (returns : account.Returns events []) : account.Keeps events [] :=
  Keeps.nil.release returns (.refl _)

theorem Keeps.balanced (keeps : account.Keeps events held) : account.Balanced events held :=
  ⟨keeps.leaves.count, keeps.covered⟩

/-- The trace is balanced iff nothing but the held resources is kept. -/
theorem Keeps.balanced_iff (keeps : account.Keeps events (held ++ leaked)) :
    account.Balanced events held ↔ leaked = [] := by
  have counted := keeps.leaves.count
  simp only [count_append] at counted
  constructor
  · intro balanced
    refine eq_nil_iff_forall_not_mem.mpr fun key => count_eq_zero.mp ?_
    have settled := balanced.settled key
    have total := counted key
    omega
  · rintro rfl
    exact ⟨fun key => by simpa using counted key, keeps.covered⟩

end Account

end Mooncake.Library.Balance
