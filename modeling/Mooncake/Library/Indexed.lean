import Mathlib.Data.List.Nodup

/-!
# Updating a list at a list of positions

A batch loop that writes back through an index vector is a sequence of single
updates.  When the positions are distinct every element sees at most one of
them, so the final list can be read position by position.
-/

namespace Mooncake.Library.Indexed

open List

variable {α β : Type}

/-! ## Loops that change one row at a time -/

section Rows

variable {σ ε ι ρ : Type} {step : σ → ε → σ} {row : ε → ι} (view : σ → ι → ρ)
  (frame : ∀ state entry position, position ≠ row entry →
    view (step state entry) position = view state position)

include frame

variable {entries : List ε}

theorem view_foldl_of_not_mem {position : ι} (absent : position ∉ entries.map row) (state : σ) :
    view (entries.foldl step state) position = view state position := by
  induction entries generalizing state with
  | nil => rfl
  | cons entry rest ih =>
    simp only [map_cons, mem_cons, not_or] at absent
    rw [foldl_cons, ih absent.2, frame state entry position absent.1]

/-- Among distinct rows the named one sees exactly its own step. -/
theorem view_foldl_of_mem (distinct : (entries.map row).Nodup) {entry : ε}
    (present : entry ∈ entries) (state : σ) :
    ∃ before, view before (row entry) = view state (row entry) ∧
      view (entries.foldl step state) (row entry) = view (step before entry) (row entry) := by
  induction entries generalizing state with
  | nil => cases present
  | cons first rest ih =>
    rw [map_cons, nodup_cons] at distinct
    rw [foldl_cons]
    rcases mem_cons.mp present with same | later
    · subst same
      exact ⟨state, rfl, view_foldl_of_not_mem view frame distinct.1 _⟩
    · obtain ⟨before, seen, final⟩ := ih distinct.2 later (step state first)
      have different : row entry ≠ row first := by
        intro same
        exact distinct.1 (same ▸ mem_map_of_mem later)
      exact ⟨before, seen.trans (frame state first _ different), final⟩

end Rows

/-- A property of the elements and their positions, counted from a start. -/
theorem forall_getElem?_cons {P : Nat → α → Prop} {start : Nat} {first : α} {rest : List α} :
    (∀ index value, (first :: rest)[index]? = some value → P (start + index) value) ↔
      P start first ∧ ∀ index value, rest[index]? = some value → P (start + 1 + index) value := by
  simp only [Nat.add_assoc, Nat.add_comm 1]
  constructor
  · exact fun all => ⟨all 0 first rfl, fun index => all (index + 1)⟩
  · rintro ⟨here, later⟩ index value found
    cases index with
    | zero => exact Option.some.inj found ▸ here
    | succ index => exact later index value found

/-! ## Updates -/

/-- Apply each function at its position, from the first pair to the last. -/
def updateAt (updates : List (Nat × (α → α))) (values : List α) : List α :=
  updates.foldl (fun current update => current.modify update.1 update.2) values

@[simp]
theorem updateAt_nil (values : List α) : updateAt [] values = values := rfl

@[simp]
theorem updateAt_cons (update : Nat × (α → α)) (rest : List (Nat × (α → α)))
    (values : List α) :
    updateAt (update :: rest) values = updateAt rest (values.modify update.1 update.2) := rfl

@[simp]
theorem length_updateAt (updates : List (Nat × (α → α))) (values : List α) :
    (updateAt updates values).length = values.length := by
  induction updates generalizing values with
  | nil => rfl
  | cons update rest ih => simp [ih]

variable {position : Nat} {values : List α}

variable {updates : List (Nat × (α → α))} {assignments : List (Nat × α)} {value : α}
  {test : α → Bool}

theorem getElem?_updateAt_of_not_mem (absent : position ∉ updates.map Prod.fst) (values : List α) :
    (updateAt updates values)[position]? = values[position]? := by
  refine view_foldl_of_not_mem (fun values position => values[position]?) ?_ absent values
  exact fun values update position different => getElem?_modify_ne _ _ different.symm

/-- Among distinct positions the named one receives exactly its own update. -/
theorem getElem?_updateAt_of_mem {change : α → α} (distinct : (updates.map Prod.fst).Nodup)
    (present : (position, change) ∈ updates) (values : List α) :
    (updateAt updates values)[position]? = values[position]?.map change := by
  obtain ⟨before, seen, final⟩ := view_foldl_of_mem (fun values position => values[position]?)
    (fun values update position different => getElem?_modify_ne _ _ different.symm)
    distinct present values
  rw [updateAt, final, ← seen]
  exact getElem?_modify_eq ..

/-! ## Assignments -/

/-- Store each value at its position, from the first pair to the last. -/
def assignAt (assignments : List (Nat × α)) (values : List α) : List α :=
  assignments.foldl (fun current assigned => current.set assigned.1 assigned.2) values

theorem assignAt_cons (assigned : Nat × α) (rest : List (Nat × α)) (values : List α) :
    assignAt (assigned :: rest) values = assignAt rest (values.set assigned.1 assigned.2) := rfl

@[simp]
theorem length_assignAt (assignments : List (Nat × α)) (values : List α) :
    (assignAt assignments values).length = values.length := by
  induction assignments generalizing values with
  | nil => rfl
  | cons assigned rest ih => rw [assignAt_cons, ih, length_set]

theorem getElem?_assignAt_of_not_mem (absent : position ∉ assignments.map Prod.fst) :
    (assignAt assignments values)[position]? = values[position]? := by
  refine view_foldl_of_not_mem (fun values position => values[position]?) ?_ absent values
  exact fun values assigned position different => getElem?_set_ne different.symm

/-- What is read at a position was there and is untouched, or was assigned. -/
theorem getElem?_assignAt_cases (read : (assignAt assignments values)[position]? = some value) :
    position ∉ assignments.map Prod.fst ∧ values[position]? = some value ∨
      (position, value) ∈ assignments := by
  induction assignments generalizing values with
  | nil => exact .inl ⟨by simp, read⟩
  | cons assigned rest ih =>
    rw [assignAt_cons] at read
    rcases ih read with ⟨absent, found⟩ | later
    · by_cases same : assigned.1 = position
      · subst same
        rw [getElem?_set_self'] at found
        obtain ⟨_, -, rfl⟩ := Option.map_eq_some_iff.mp found
        exact .inr mem_cons_self
      · rw [getElem?_set_ne same] at found
        refine .inl ⟨?_, found⟩
        rw [map_cons, mem_cons, not_or]
        exact ⟨fun equal => same equal.symm, absent⟩
    · exact .inr (mem_cons_of_mem _ later)

/-! ## Selected positions -/

/-- The entries that pass a test, each with its position. -/
def select (test : α → Bool) (values : List α) : List (α × Nat) :=
  values.zipIdx.filter fun entry => test entry.1

/-- The positions that pass a test, in ascending order. -/
def positions (test : α → Bool) (values : List α) : List Nat :=
  (select test values).map Prod.snd

theorem mem_select :
    (value, position) ∈ select test values ↔
      values[position]? = some value ∧ test value = true := by
  rw [select, mem_filter, mem_zipIdx_iff_getElem?]

theorem mem_positions :
    position ∈ positions test values ↔
      ∃ value, values[position]? = some value ∧ test value = true := by
  rw [positions, mem_map]
  constructor
  · rintro ⟨⟨value, other⟩, selected, rfl⟩
    exact ⟨value, mem_select.mp selected⟩
  · rintro ⟨value, found⟩
    exact ⟨(value, position), mem_select.mpr found, rfl⟩

theorem positions_nodup (test : α → Bool) (values : List α) :
    (positions test values).Nodup := by
  have all : (values.zipIdx.map Prod.snd).Nodup := by
    rw [zipIdx_map_snd]
    exact nodup_range'
  exact all.sublist (List.Sublist.map _ filter_sublist)

theorem select_map_fst (test : α → Bool) (values : List α) :
    (select test values).map Prod.fst = values.filter test := by
  conv_rhs => rw [← zipIdx_map_fst 0 values, filter_map]
  rfl

theorem map_filter_zipIdx_congr {γ : Type} {values : List α} {others : List β}
    {test : α × Nat → Bool} {test' : β × Nat → Bool} {read : α × Nat → γ} {read' : β × Nat → γ}
    (lengths : values.length = others.length) {first : Nat}
    (same : ∀ position value other, values[position]? = some value →
      others[position]? = some other →
      test (value, first + position) = test' (other, first + position) ∧
      read (value, first + position) = read' (other, first + position)) :
    ((values.zipIdx first).filter test).map read =
      ((others.zipIdx first).filter test').map read' := by
  induction values generalizing others first with
  | nil =>
    obtain rfl := eq_nil_of_length_eq_zero lengths.symm
    rfl
  | cons value rest ih =>
    obtain ⟨other, later, rfl⟩ := exists_cons_of_length_eq_add_one lengths.symm
    have head := same 0 value other rfl rfl
    have tail := @ih later (by simpa using lengths) (first + 1) (fun position own match_ => by
      simpa [Nat.add_assoc, Nat.add_comm 1] using same (position + 1) own match_)
    rw [Nat.add_zero] at head
    rw [zipIdx_cons, zipIdx_cons, filter_cons, filter_cons, head.1]
    cases test' (other, first) with
    | true => simpa [head.2] using tail
    | false => simpa using tail

/-! ## Association by position -/

theorem lookup_eq_some_iff_mem {pairs : List (Nat × β)}
    (distinct : (pairs.map Prod.fst).Nodup) (position : Nat) (value : β) :
    pairs.lookup position = some value ↔ (position, value) ∈ pairs := by
  induction pairs with
  | nil => simp
  | cons pair rest ih =>
    rw [map_cons, nodup_cons] at distinct
    obtain ⟨head, first⟩ := pair
    by_cases same : position = head
    · subst same
      have absent : (position, value) ∉ rest := by
        intro later
        exact distinct.1 (mem_map.mpr ⟨_, later, rfl⟩)
      simp [absent, eq_comm]
    · rw [lookup_cons]
      have different : (position == head) = false := by simpa using same
      simp [different, same, ih distinct.2]

theorem zip_map_fst_nodup {positions : List Nat} (distinct : positions.Nodup)
    (values : List β) : ((positions.zip values).map Prod.fst).Nodup := by
  rw [zip_eq_zip_take_min, map_fst_zip (by simp)]
  exact distinct.sublist (take_sublist _ _)

end Mooncake.Library.Indexed
