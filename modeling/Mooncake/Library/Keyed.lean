import Mathlib.Data.List.AList
import Mathlib.Data.List.Induction
import Mathlib.Data.List.Perm.Basic

/-!
# Maps that a loop fills

A loop over a list that writes under the key of each element leaves the first
element of each key when it uses `emplace`, the last one when it assigns, and
all of them in groups when it appends.  The order of the elements is measured
by a rank that grows along the list.  A loop over the entries of another map converts
each of them on its own.
-/

namespace Mooncake.Library.Keyed

open List

variable {α β κ : Type} [DecidableEq κ]

/-! ## The first element of each key -/

/-- The elements kept by a loop of `emplace`. -/
def emplaceAll (key : α → κ) : List α → List α
  | [] => []
  | first :: rest => first :: (emplaceAll key rest).filter fun other => key other ≠ key first

variable {key : α → κ} {value : α} {values : List α} {rank : α → Nat} {item : α → β} {keys : List κ}
  {pairs : List (κ × α)}

theorem mem_emplaceAll_cons {first : α} {rest : List α} :
    value ∈ emplaceAll key (first :: rest) ↔
      value = first ∨ value ∈ emplaceAll key rest ∧ key value ≠ key first := by
  simp [emplaceAll]

theorem emplaceAll_sublist (key : α → κ) :
    (emplaceAll key values).Sublist values := by
  induction values with
  | nil => exact .slnil
  | cons first rest ih => exact (filter_sublist.trans ih).cons_cons first

theorem mem_of_mem_emplaceAll (kept : value ∈ emplaceAll key values) : value ∈ values :=
  (emplaceAll_sublist key).subset kept

theorem emplaceAll_map (key : β → κ) (item : α → β) (values : List α) :
    emplaceAll key (values.map item) =
      (emplaceAll (fun value => key (item value)) values).map item := by
  induction values with
  | nil => rfl
  | cons first rest ih => simp [emplaceAll, ih, filter_map, Function.comp_def]

theorem exists_mem_emplaceAll (present : value ∈ values) :
    ∃ kept ∈ emplaceAll key values, key kept = key value := by
  induction values with
  | nil => cases present
  | cons first rest ih =>
    by_cases same : key value = key first
    · exact ⟨first, mem_emplaceAll_cons.mpr (.inl rfl), same.symm⟩
    · rcases mem_cons.mp present with rfl | later
      · exact absurd rfl same
      · obtain ⟨kept, mem, agrees⟩ := ih later
        exact ⟨kept, mem_emplaceAll_cons.mpr (.inr ⟨mem, agrees ▸ same⟩), agrees⟩

/-- What is kept under a key comes before every other element of the key. -/
theorem rank_le_of_mem_emplaceAll
    (ordered : values.Pairwise fun before after => rank before < rank after) {other : α}
    (kept : value ∈ emplaceAll key values) (present : other ∈ values)
    (same : key other = key value) :
    rank value ≤ rank other := by
  induction values with
  | nil => cases kept
  | cons first rest ih =>
    rw [pairwise_cons] at ordered
    rcases mem_emplaceAll_cons.mp kept with rfl | ⟨later, different⟩
    · rcases mem_cons.mp present with rfl | after
      · exact le_rfl
      · exact Nat.le_of_lt (ordered.1 other after)
    · rcases mem_cons.mp present with rfl | after
      · exact absurd same.symm different
      · exact ih ordered.2 later after

/-- An element that comes before every other one of its key is kept. -/
theorem mem_emplaceAll_of_rank_le
    (ordered : values.Pairwise fun before after => rank before < rank after)
    (present : value ∈ values)
    (first : ∀ other ∈ values, key other = key value → rank value ≤ rank other) :
    value ∈ emplaceAll key values := by
  induction values with
  | nil => cases present
  | cons head rest ih =>
    rw [pairwise_cons] at ordered
    rcases mem_cons.mp present with rfl | later
    · exact mem_emplaceAll_cons.mpr (.inl rfl)
    · have different : key value ≠ key head := by
        intro same
        have before := ordered.1 value later
        have after := first head mem_cons_self same.symm
        omega
      exact mem_emplaceAll_cons.mpr (.inr ⟨ih ordered.2 later fun other listed =>
        first other (mem_cons_of_mem _ listed), different⟩)

/-! ## The last element of each key -/

/-- The map left by a loop of assignments. -/
def assignAll (key : α → κ) (item : α → β) (values : List α) : AList fun _ : κ => β :=
  values.foldl (fun map value => map.insert (key value) (item value)) ∅

theorem assignAll_append (key : α → κ) (item : α → β) (values : List α) (last : α) :
    assignAll key item (values ++ [last]) =
      (assignAll key item values).insert (key last) (item last) := by
  simp [assignAll]

theorem lookup_assignAll_isSome (present : value ∈ values) :
    ∃ found, (assignAll key item values).lookup (key value) = some found := by
  induction values using List.reverseRecOn with
  | nil => cases present
  | append_singleton front last ih =>
    rw [assignAll_append]
    by_cases same : key value = key last
    · exact ⟨item last, same ▸ AList.lookup_insert _⟩
    · rw [AList.lookup_insert_ne same]
      rcases mem_append.mp present with earlier | final
      · exact ih earlier
      · exact absurd (congrArg key (mem_singleton.mp final)) same

/-- What is found under a key is an element of that key, and it comes after
every other one. -/
theorem mem_of_lookup_assignAll {target : κ} {found : β}
    (lookup : (assignAll key item values).lookup target = some found) :
    ∃ value ∈ values, key value = target ∧ item value = found ∧
      ∀ rank : α → Nat, (values.Pairwise fun before after => rank before < rank after) →
        ∀ other ∈ values, key other = target → rank other ≤ rank value := by
  induction values using List.reverseRecOn with
  | nil => simp [assignAll] at lookup
  | append_singleton front last ih =>
    rw [assignAll_append] at lookup
    by_cases same : target = key last
    · subst same
      rw [AList.lookup_insert, Option.some.injEq] at lookup
      refine ⟨last, by simp, rfl, lookup, fun rank ordered other present _ => ?_⟩
      rw [pairwise_append] at ordered
      rcases mem_append.mp present with earlier | final
      · exact Nat.le_of_lt (ordered.2.2 other earlier last (by simp))
      · exact Nat.le_of_eq (congrArg rank (mem_singleton.mp final))
    · rw [AList.lookup_insert_ne same] at lookup
      obtain ⟨value, mem, keyed, items, latest⟩ := ih lookup
      refine ⟨value, mem_append_left _ mem, keyed, items,
        fun rank ordered other present agrees => ?_⟩
      rw [pairwise_append] at ordered
      rcases mem_append.mp present with earlier | final
      · exact latest rank ordered.1 other earlier agrees
      · exact absurd (mem_singleton.mp final ▸ agrees.symm) same

/-! ## The elements of each key in groups -/

abbrev Groups (κ α : Type) := AList fun _ : κ => List α

/-- The elements of a key, none when the key is absent. -/
def group (groups : Groups κ α) (key : κ) : List α :=
  (groups.lookup key).getD []

def appendTo (groups : Groups κ α) (pair : κ × α) : Groups κ α :=
  groups.insert pair.1 (group groups pair.1 ++ [pair.2])

theorem group_foldl_appendTo (pairs : List (κ × α)) (groups : Groups κ α) (key : κ) :
    group (pairs.foldl appendTo groups) key =
      group groups key ++ (pairs.filter fun pair => pair.1 = key).map Prod.snd := by
  induction pairs generalizing groups with
  | nil => simp
  | cons pair rest ih =>
    rw [foldl_cons, ih]
    by_cases same : pair.1 = key
    · subst same
      simp [appendTo, group]
    · have different : key ≠ pair.1 := fun equal => same equal.symm
      simp [appendTo, group, AList.lookup_insert_ne different, same]

theorem mem_foldl_appendTo (pairs : List (κ × α)) (groups : Groups κ α) (key : κ) :
    key ∈ pairs.foldl appendTo groups ↔ key ∈ groups ∨ key ∈ pairs.map Prod.fst := by
  induction pairs generalizing groups with
  | nil => simp
  | cons pair rest ih =>
    rw [foldl_cons, ih]
    simp only [appendTo, AList.mem_insert, map_cons, mem_cons]
    tauto

/-- One more element in the group of a key that is walked once. -/
theorem flatMap_cons_perm (distinct : keys.Nodup) {key : κ} (walked : key ∈ keys)
    (rest : κ → List α) :
    (keys.flatMap fun other => if key = other then value :: rest other else rest other).Perm
      (value :: keys.flatMap rest) := by
  induction keys with
  | nil => cases walked
  | cons first others ih =>
    rw [nodup_cons] at distinct
    rw [flatMap_cons, flatMap_cons]
    by_cases same : key = first
    · subst same
      have elsewhere : (others.flatMap fun other =>
          if key = other then value :: rest other else rest other) = others.flatMap rest := by
        refine flatMap_congr fun other present => ?_
        have different : key ≠ other := fun equal => distinct.1 (equal ▸ present)
        simp [different]
      simp [elsewhere]
    · have later : key ∈ others := (mem_cons.mp walked).resolve_left same
      rw [if_neg same]
      exact ((ih distinct.2 later).append_left _).trans perm_middle

/-- The elements of a key, in the order of the list. -/
def elementsOf (pairs : List (κ × α)) (key : κ) : List α :=
  (pairs.filter fun pair => pair.1 = key).map Prod.snd

theorem mem_elementsOf {key : κ} :
    value ∈ elementsOf pairs key ↔ (key, value) ∈ pairs := by
  simp [elementsOf]

theorem flatMap_elementsOf_perm (distinct : keys.Nodup) (walked : ∀ pair ∈ pairs, pair.1 ∈ keys) :
    (keys.flatMap (elementsOf pairs)).Perm (pairs.map Prod.snd) := by
  induction pairs with
  | nil => simp [elementsOf]
  | cons pair rest ih =>
    have tail := ih fun other present => walked other (mem_cons_of_mem _ present)
    refine (List.Perm.of_eq ?_).trans
      ((flatMap_cons_perm distinct (walked pair mem_cons_self)
        (elementsOf rest)).trans (tail.cons pair.2))
    refine flatMap_congr fun key _ => ?_
    by_cases same : pair.1 = key <;> simp [elementsOf, same]

/-- Walking every group once meets every element once. -/
theorem flatMap_group_perm (pairs : List (κ × α))
    (walk : keys.Perm (pairs.foldl appendTo (∅ : Groups κ α)).keys) :
    (keys.flatMap (group (pairs.foldl appendTo ∅))).Perm (pairs.map Prod.snd) := by
  have distinct : keys.Nodup := walk.nodup_iff.mpr (AList.keys_nodup _)
  have walked : ∀ pair ∈ pairs, pair.1 ∈ keys := by
    intro pair present
    rw [walk.mem_iff, ← AList.mem_keys, mem_foldl_appendTo]
    exact .inr (mem_map_of_mem present)
  refine (List.Perm.of_eq (flatMap_congr fun key _ => ?_)).trans
    (flatMap_elementsOf_perm distinct walked)
  rw [group_foldl_appendTo]
  simp [group, elementsOf]

/-! ## A map built from another map -/

section Rebuilt

variable {γ : Type}

/-- One iteration: an entry that does not convert is skipped. -/
def emplaceConverted (convert : β → Option γ) (built : AList fun _ : κ => γ)
    (entry : Sigma fun _ : κ => β) : AList fun _ : κ => γ :=
  match convert entry.2 with
  | none => built
  | some value => if entry.1 ∈ built then built else built.insert entry.1 value

def rebuild (convert : β → Option γ) (map : AList fun _ : κ => β) : AList fun _ : κ => γ :=
  map.entries.foldl (emplaceConverted convert) ∅

theorem lookup_emplaceConverted (convert : β → Option γ) (built : AList fun _ : κ => γ)
    (entry : Sigma fun _ : κ => β) (key : κ) :
    (emplaceConverted convert built entry).lookup key =
      (built.lookup key).or (if key = entry.1 then convert entry.2 else none) := by
  unfold emplaceConverted
  cases convert entry.2 with
  | none => simp
  | some value =>
    by_cases same : key = entry.1
    · subst same
      cases held : built.lookup entry.1 with
      | none =>
        have absent : entry.1 ∉ built := AList.lookup_eq_none.mp held
        simp [absent]
      | some other =>
        have present : entry.1 ∈ built := AList.lookup_isSome.mp (by simp [held])
        simp [present, held]
    · dsimp only
      rw [if_neg same, Option.or_none]
      split
      · rfl
      · exact AList.lookup_insert_ne same

theorem lookup_foldl_emplaceConverted (convert : β → Option γ)
    {entries : List (Sigma fun _ : κ => β)} (distinct : entries.NodupKeys)
    (built : AList fun _ : κ => γ) (key : κ) :
    (entries.foldl (emplaceConverted convert) built).lookup key =
      (built.lookup key).or ((entries.dlookup key).bind convert) := by
  induction entries generalizing built with
  | nil => simp
  | cons entry rest ih =>
    obtain ⟨other, value⟩ := entry
    obtain ⟨fresh, others⟩ := nodupKeys_cons.mp distinct
    rw [foldl_cons, ih others, lookup_emplaceConverted, Option.or_assoc]
    by_cases same : key = other
    · subst same
      have absent : rest.dlookup key = none := dlookup_eq_none.mpr fresh
      simp [absent]
    · have later := dlookup_cons_ne rest (⟨other, value⟩ : Sigma fun _ : κ => β) same
      simp [same, later]

theorem lookup_rebuild (convert : β → Option γ) (map : AList fun _ : κ => β) (key : κ) :
    (rebuild convert map).lookup key = (map.lookup key).bind convert := by
  have walked := lookup_foldl_emplaceConverted convert map.nodupKeys ∅ key
  rw [AList.lookup_empty, Option.none_or] at walked
  exact walked

end Rebuilt

end Mooncake.Library.Keyed
