import Mathlib.Algebra.Order.Ring.Int
import Mathlib.Data.List.Nodup
import Mathlib.Order.Basic

/-!
# Ordered trees

A search tree is read from left to right as a list whose keys grow.  A search
for a key looks at the two neighbours of the key: the first entry that is not
below it, and the last entry that is.  It is complete for a test that only a
neighbour can pass.
-/

namespace Mooncake.Library

open List

/-- The entries of a tree in their order, no two of them with the same key. -/
structure OrderedTree {α κ : Type} [LinearOrder κ] (key : α → κ) where
  entries : List α
  sorted : entries.Pairwise fun before after => key before < key after

namespace OrderedTree

variable {α κ : Type} [LinearOrder κ] {key : α → κ}

/-! ## Operations -/

/-- `RB_INIT`. -/
def empty : OrderedTree key where
  entries := []
  sorted := .nil

variable (tree : OrderedTree key)

/-- `RB_NFIND`: the first entry that is not below the key. -/
def nfind (at_ : κ) : Option α :=
  tree.entries.find? fun entry => at_ ≤ key entry

/-- `RB_MAX`. -/
def max : Option α :=
  tree.entries.getLast?

/-- `RB_PREV`. -/
def prev (entry : α) : Option α :=
  (tree.entries.filter fun other => key other < key entry).getLast?

/-- The entry before the one that `nfind` returns. -/
def before (at_ : κ) : Option α :=
  match tree.nfind at_ with
  | some entry => tree.prev entry
  | none => tree.max

/-- The neighbour of the key that passes the test, the upper one first. -/
def search (at_ : κ) (test : α → Bool) : Option α :=
  match (tree.nfind at_).filter test with
  | some entry => some entry
  | none => (tree.before at_).filter test

/-- The last entry that is not above the key: the one before `upper_bound`. -/
def floor (at_ : κ) : Option α :=
  (tree.entries.filter fun entry => key entry ≤ at_).getLast?

/-- The value in its place, instead of an entry with its key. -/
def assign (value : α) : OrderedTree key where
  entries := (tree.entries.filter fun entry => key entry < key value) ++
    value :: tree.entries.filter fun entry => key value < key entry
  sorted := by
    rw [pairwise_append]
    refine ⟨tree.sorted.filter _, ?_, ?_⟩
    · rw [pairwise_cons]
      refine ⟨fun entry above => ?_, tree.sorted.filter _⟩
      simpa using (mem_filter.mp above).2
    · intro low below high above
      have under : key low < key value := by simpa using (mem_filter.mp below).2
      rcases mem_cons.mp above with rfl | above
      · exact under
      · have higher : key value < key high := by simpa using (mem_filter.mp above).2
        exact under.trans higher

/-- `RB_INSERT`, which refuses a key that is there already. -/
def insert (value : α) : Option (OrderedTree key) :=
  if tree.entries.any fun entry => key entry = key value then none
  else some (tree.assign value)

/-- A walk that removes the entries that pass the test. -/
def removeAll (test : α → Bool) : OrderedTree key where
  entries := tree.entries.filter fun entry => !test entry
  sorted := tree.sorted.filter _

/-- `RB_FOREACH_SAFE` with `RB_REMOVE` of the entries that pass the test, in their order. -/
def sweep (test : α → Bool) : List α → OrderedTree key → List α → OrderedTree key × List α
  | [], tree, removed => (tree, removed)
  | entry :: rest, tree, removed =>
    if test entry then
      sweep test rest (tree.removeAll fun other => key other = key entry) (removed ++ [entry])
    else sweep test rest tree removed

/-! ## Neighbours -/

section Neighbours

variable {tree} {at_ : κ} {entry other : α}

theorem keys_nodup (tree : OrderedTree key) : (tree.entries.map key).Nodup :=
  pairwise_map.mpr (tree.sorted.imp ne_of_lt)

theorem key_injective (left : entry ∈ tree.entries) (right : other ∈ tree.entries)
    (same : key entry = key other) : entry = other :=
  inj_on_of_nodup_map tree.keys_nodup left right same

theorem le_of_nfind (found : tree.nfind at_ = some entry) : at_ ≤ key entry := by
  simpa using find?_some found

theorem mem_of_nfind (found : tree.nfind at_ = some entry) : entry ∈ tree.entries :=
  mem_of_find?_eq_some found

theorem nfind_le (found : tree.nfind at_ = some entry) (present : other ∈ tree.entries)
    (above : at_ ≤ key other) : key entry ≤ key other := by
  obtain ⟨-, front, back, split, skipped⟩ := find?_eq_some_iff_append.mp found
  have sorted := tree.sorted
  rw [split] at present sorted
  rcases mem_append.mp present with early | late
  · have below := skipped other early
    simp [above] at below
  · rcases mem_cons.mp late with rfl | late
    · exact le_rfl
    · have tail := (pairwise_append.mp sorted).2.1
      exact le_of_lt ((pairwise_cons.mp tail).1 other late)

theorem nfind_isSome (present : entry ∈ tree.entries) (above : at_ ≤ key entry) :
    ∃ found, tree.nfind at_ = some found := by
  have some_ : (tree.nfind at_).isSome = true := by
    rw [nfind, find?_isSome]
    exact ⟨entry, present, by simpa using above⟩
  exact Option.isSome_iff_exists.mp some_

theorem le_getLast {entries : List α}
    (sorted : entries.Pairwise fun before after => key before < key after)
    (last : entries.getLast? = some entry) (present : other ∈ entries) :
    key other ≤ key entry := by
  obtain ⟨front, rfl⟩ := getLast?_eq_some_iff.mp last
  rcases mem_append.mp present with early | late
  · exact le_of_lt ((pairwise_append.mp sorted).2.2 other early entry (by simp))
  · exact le_of_eq (by rw [mem_singleton.mp late])

theorem before_eq (tree : OrderedTree key) (at_ : κ) :
    tree.before at_ = (tree.entries.filter fun entry => key entry < at_).getLast? := by
  unfold before
  cases found : tree.nfind at_ with
  | some upper =>
    have same : ∀ entry ∈ tree.entries, decide (key entry < key upper) =
        decide (key entry < at_) := by
      intro entry present
      rw [decide_eq_decide]
      constructor
      · intro below
        by_contra above
        exact absurd (nfind_le found present (not_lt.mp above)) (not_le.mpr below)
      · exact fun below => lt_of_lt_of_le below (le_of_nfind found)
    simp only [prev, filter_congr same]
  | none =>
    have all : ∀ entry ∈ tree.entries, decide (key entry < at_) = true := by
      intro entry present
      simpa using find?_eq_none.mp found entry present
    simp only [max, filter_eq_self.mpr all]

theorem mem_of_before (found : tree.before at_ = some entry) :
    entry ∈ tree.entries ∧ key entry < at_ := by
  rw [before_eq] at found
  simpa using mem_filter.mp (mem_of_getLast? found)

theorem le_before (found : tree.before at_ = some entry) (present : other ∈ tree.entries)
    (below : key other < at_) : key other ≤ key entry := by
  rw [before_eq] at found
  exact le_getLast (tree.sorted.filter _) found
    (mem_filter.mpr ⟨present, by simpa using below⟩)

theorem before_isSome (present : entry ∈ tree.entries) (below : key entry < at_) :
    ∃ found, tree.before at_ = some found := by
  rw [before_eq]
  have listed : entry ∈ tree.entries.filter fun entry => key entry < at_ :=
    mem_filter.mpr ⟨present, by simpa using below⟩
  exact Option.isSome_iff_exists.mp (getLast?_isSome.mpr (ne_nil_of_mem listed))

end Neighbours

/-! ## The search -/

section Search

variable {tree} {at_ : κ} {test : α → Bool} {entry : α}

theorem search_eq_some (found : tree.search at_ test = some entry) :
    entry ∈ tree.entries ∧ test entry = true := by
  unfold search at found
  split at found
  · rename_i upper filtered
    obtain rfl := Option.some.inj found
    obtain ⟨near, passed⟩ := Option.filter_eq_some_iff.mp filtered
    exact ⟨mem_of_nfind near, passed⟩
  · obtain ⟨near, passed⟩ := Option.filter_eq_some_iff.mp found
    exact ⟨(mem_of_before near).1, passed⟩

theorem search_of_nfind (near : tree.nfind at_ = some entry) (passed : test entry = true) :
    tree.search at_ test = some entry := by
  have filtered : (tree.nfind at_).filter test = some entry :=
    Option.filter_eq_some_iff.mpr ⟨near, passed⟩
  rw [search, filtered]

theorem search_of_before (near : tree.before at_ = some entry) (passed : test entry = true) :
    ∃ found, tree.search at_ test = some found := by
  unfold search
  split
  · exact ⟨_, rfl⟩
  · exact ⟨entry, by simp [near, passed]⟩

/-- An entry that passes the test is found when it is the lower neighbour of the key, or when
the upper neighbour passes as well. -/
theorem search_isSome (present : entry ∈ tree.entries)
    (above : at_ ≤ key entry → ∀ upper ∈ tree.entries, at_ ≤ key upper →
      key upper ≤ key entry → test upper = true)
    (below : key entry < at_ → test entry = true ∧ ∀ lower ∈ tree.entries, key entry ≤ key lower →
      key lower < at_ → lower = entry) :
    ∃ found, tree.search at_ test = some found := by
  rcases le_or_gt at_ (key entry) with higher | under
  · obtain ⟨upper, near⟩ := nfind_isSome present higher
    exact ⟨upper, search_of_nfind near (above higher upper (mem_of_nfind near)
      (le_of_nfind near) (nfind_le near present higher))⟩
  · obtain ⟨passed, only⟩ := below under
    obtain ⟨lower, near⟩ := before_isSome present under
    obtain ⟨listed, lowerUnder⟩ := mem_of_before near
    obtain rfl := only lower listed (le_before near present under) lowerUnder
    exact search_of_before near passed

/-! ### Ranges -/

/-- Every entry is a range from its key to its stop, and the ranges do not meet. -/
structure Ranges (tree : OrderedTree key) (stop : α → κ) : Prop where
  ordered : ∀ entry ∈ tree.entries, key entry ≤ stop entry
  apart : ∀ entry ∈ tree.entries, ∀ other ∈ tree.entries, entry ≠ other →
    stop entry ≤ key other ∨ stop other ≤ key entry

namespace Ranges

variable {stop : α → κ} {other : α} (ranges : tree.Ranges stop)

include ranges

theorem eq_of_covers (present : entry ∈ tree.entries) (listed : other ∈ tree.entries)
    (starts : key entry ≤ at_) (ends : at_ < stop entry) (starts' : key other ≤ at_)
    (ends' : at_ < stop other) : entry = other := by
  by_contra different
  rcases ranges.apart entry present other listed different with before | after
  · exact absurd (lt_of_lt_of_le ends before) (not_lt.mpr starts')
  · exact absurd (lt_of_lt_of_le ends' after) (not_lt.mpr starts)

/-- The range around a key is a neighbour of the key. -/
theorem search_of_covers (present : entry ∈ tree.entries) (passed : test entry = true)
    (starts : key entry ≤ at_) (ends : at_ < stop entry) :
    ∃ found, tree.search at_ test = some found := by
  refine search_isSome present ?_ ?_
  · intro above upper listed higher under
    have same : upper = entry :=
      key_injective listed present (le_antisymm under (starts.trans higher))
    rw [same]
    exact passed
  · intro _
    refine ⟨passed, fun lower listed higher under => ?_⟩
    by_contra different
    rcases ranges.apart lower listed entry present different with before | after
    · -- an empty range at the start of the entry would have its key
      have start := le_antisymm ((ranges.ordered lower listed).trans before) higher
      exact different (key_injective listed present start)
    · exact absurd (lt_of_lt_of_le ends after) (not_lt.mpr (le_of_lt under))

/-- The neighbours are searched with the same outcome as the whole tree, for a test that
only the range around the key can pass. -/
theorem search_eq_find?
    (covers : ∀ entry ∈ tree.entries, test entry = true → key entry ≤ at_ ∧ at_ < stop entry) :
    tree.search at_ test = tree.entries.find? test := by
  cases scanned : tree.entries.find? test with
  | none =>
    cases found : tree.search at_ test with
    | none => rfl
    | some entry =>
      obtain ⟨present, passed⟩ := search_eq_some found
      exact absurd passed (find?_eq_none.mp scanned entry present)
  | some entry =>
    have present := mem_of_find?_eq_some scanned
    have passed := find?_some scanned
    obtain ⟨starts, ends⟩ := covers entry present passed
    obtain ⟨other, found⟩ := ranges.search_of_covers present passed starts ends
    obtain ⟨listed, passed'⟩ := search_eq_some found
    obtain ⟨starts', ends'⟩ := covers other listed passed'
    rw [found, ranges.eq_of_covers present listed starts ends starts' ends']

end Ranges

end Search

/-! ## Changes -/

section Changes

variable {tree} {value entry : α}

@[simp]
theorem mem_removeAll {test : α → Bool} :
    entry ∈ (tree.removeAll test).entries ↔ entry ∈ tree.entries ∧ test entry = false := by
  simp [removeAll]

theorem mem_assign :
    entry ∈ (tree.assign value).entries ↔
      entry = value ∨ entry ∈ tree.entries ∧ key entry ≠ key value := by
  simp only [assign, mem_append, mem_cons, mem_filter, decide_eq_true_eq]
  constructor
  · rintro (⟨present, low⟩ | rfl | ⟨present, high⟩)
    · exact .inr ⟨present, ne_of_lt low⟩
    · exact .inl rfl
    · exact .inr ⟨present, (ne_of_lt high).symm⟩
  · rintro (rfl | ⟨present, different⟩)
    · exact .inr (.inl rfl)
    · rcases lt_or_gt_of_ne different with low | high
      · exact .inl ⟨present, low⟩
      · exact .inr (.inr ⟨present, high⟩)

theorem entries_nodup (tree : OrderedTree key) : tree.entries.Nodup :=
  tree.keys_nodup.of_map

theorem assign_perm (fresh : ∀ entry ∈ tree.entries, key entry ≠ key value) :
    (tree.assign value).entries.Perm (value :: tree.entries) := by
  refine (perm_ext_iff_of_nodup (entries_nodup _) ?_).mpr fun entry => ?_
  · exact nodup_cons.mpr ⟨fun present => fresh value present rfl, entries_nodup tree⟩
  · rw [mem_assign, mem_cons]
    exact or_congr_right (and_iff_left_of_imp fun present => fresh entry present)

theorem removeAll_perm (present : entry ∈ tree.entries) :
    tree.entries.Perm (entry :: (tree.removeAll fun other => key other = key entry).entries) := by
  refine (perm_ext_iff_of_nodup (entries_nodup tree) ?_).mpr fun other => ?_
  · refine nodup_cons.mpr ⟨fun left => ?_, entries_nodup _⟩
    simpa using (mem_removeAll.mp left).2
  · rw [mem_cons, mem_removeAll]
    constructor
    · intro listed
      by_cases same : key other = key entry
      · exact .inl (key_injective listed present same)
      · exact .inr ⟨listed, by simpa using same⟩
    · rintro (rfl | ⟨listed, -⟩)
      · exact present
      · exact listed

theorem sweep_spec (test : α → Bool) (walked removed : List α) (tree : OrderedTree key) :
    (sweep test walked tree removed).1.entries =
        tree.entries.filter (fun entry => !walked.any fun other =>
          test other && decide (key entry = key other)) ∧
      (sweep test walked tree removed).2 = removed ++ walked.filter test := by
  induction walked generalizing tree removed with
  | nil => simp [sweep]
  | cons entry rest ih =>
    unfold sweep
    split
    · rename_i passed
      obtain ⟨entries, swept⟩ :=
        ih (removed ++ [entry]) (tree.removeAll fun other => key other = key entry)
      rw [entries, swept]
      simp only [removeAll, filter_filter, any_cons, passed, Bool.true_and,
        Bool.not_or, filter_cons, if_true, append_assoc, singleton_append,
        and_true]
      exact filter_congr fun other _ => Bool.and_comm _ _
    · rename_i skipped
      obtain ⟨entries, swept⟩ := ih removed tree
      simp [entries, swept, skipped]

/-- A walk over the whole tree removes what passes the test, each entry once. -/
theorem sweep_entries (test : α → Bool) (tree : OrderedTree key) :
    sweep test tree.entries tree [] = (tree.removeAll test, tree.entries.filter test) := by
  obtain ⟨entries, removed⟩ := sweep_spec test tree.entries [] tree
  have same : ∀ entry ∈ tree.entries,
      (!tree.entries.any fun other => test other && decide (key entry = key other)) =
        !test entry := by
    intro entry present
    congr 1
    rw [Bool.eq_iff_iff, any_eq_true]
    constructor
    · rintro ⟨other, listed, passed⟩
      rw [Bool.and_eq_true, decide_eq_true_eq] at passed
      rw [key_injective present listed passed.2]
      exact passed.1
    · intro passed
      exact ⟨entry, present, by simp [passed]⟩
  rw [filter_congr same] at entries
  refine Prod.ext ?_ removed
  rcases swept : (sweep test tree.entries tree []).1 with ⟨left, sorted⟩
  rw [swept] at entries
  dsimp only at entries
  subst entries
  rfl

theorem floor_of_greatest {at_ : κ} (present : entry ∈ tree.entries) (below : key entry ≤ at_)
    (greatest : ∀ other ∈ tree.entries, key other ≤ at_ → key other ≤ key entry) :
    tree.floor at_ = some entry := by
  have listed : entry ∈ tree.entries.filter fun other => key other ≤ at_ :=
    mem_filter.mpr ⟨present, by simpa using below⟩
  obtain ⟨last, found⟩ := Option.isSome_iff_exists.mp (getLast?_isSome.mpr (ne_nil_of_mem listed))
  obtain ⟨inside, under⟩ := mem_filter.mp (mem_of_getLast? found)
  have above := le_getLast (tree.sorted.filter _) found listed
  have same := le_antisymm (greatest last inside (by simpa using under)) above
  rw [floor, found, key_injective inside present same]

theorem floor_eq (present : entry ∈ tree.entries) : tree.floor (key entry) = some entry :=
  floor_of_greatest present le_rfl fun _ _ below => below

theorem Ranges.floor_of_covers {stop : α → κ} (ranges : tree.Ranges stop) {at_ : κ}
    (present : entry ∈ tree.entries) (starts : key entry ≤ at_) (ends : at_ < stop entry) :
    tree.floor at_ = some entry := by
  refine floor_of_greatest present starts fun other listed below => ?_
  by_contra above
  have different : entry ≠ other := fun same => above (le_of_eq (same ▸ rfl))
  rcases ranges.apart entry present other listed different with before | after
  · exact absurd (lt_of_lt_of_le ends before) (not_lt.mpr below)
  · exact above ((ranges.ordered other listed).trans after)

theorem insert_fresh {next : OrderedTree key} (inserted : tree.insert value = some next) :
    ∀ entry ∈ tree.entries, key entry ≠ key value := by
  unfold insert at inserted
  split at inserted
  · cases inserted
  · rename_i fresh
    exact fun entry present same =>
      fresh (any_eq_true.mpr ⟨entry, present, by simpa using same⟩)

theorem insert_perm {next : OrderedTree key} (inserted : tree.insert value = some next) :
    next.entries.Perm (value :: tree.entries) := by
  have perm := assign_perm (insert_fresh inserted)
  unfold insert at inserted
  split at inserted
  · cases inserted
  · exact Option.some.inj inserted ▸ perm

theorem mem_insert {next : OrderedTree key} (inserted : tree.insert value = some next) :
    entry ∈ next.entries ↔ entry = value ∨ entry ∈ tree.entries :=
  (insert_perm inserted).mem_iff.trans mem_cons

theorem insert_eq_none (refused : tree.insert value = none) :
    ∃ entry ∈ tree.entries, key entry = key value := by
  unfold insert at refused
  split at refused
  · rename_i taken
    simpa using taken
  · cases refused

end Changes

end OrderedTree

end Mooncake.Library
