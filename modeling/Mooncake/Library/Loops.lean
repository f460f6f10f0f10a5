import Mathlib.Data.List.Forall2
import Mathlib.Data.List.Range

/-!
# Counted loops with checked accesses

A loop over `0, 1, …` whose body reads vectors by index.  An access outside a vector
is `none` and ends the whole loop.  When every round succeeds, the loop returns one
value per round; a state that is passed on may be described by an invariant.
-/

namespace Mooncake.Library.Loops

open List

variable {σ α β : Type}

/-! ## Nested vectors -/

/-- The checked access `table[i][j]`. -/
def at2 (table : List (List α)) (i j : Nat) : Option α :=
  table[i]?.bind fun row => row[j]?

def at3 (table : List (List (List α))) (i j k : Nat) : Option α :=
  (at2 table i j).bind fun row => row[k]?

def lengths (table : List (List (List α))) : List (List Nat) :=
  table.map fun row => row.map List.length

theorem at2_eq_some {table : List (List α)} {i j : Nat} {value : α} :
    at2 table i j = some value ↔ ∃ row, table[i]? = some row ∧ row[j]? = some value :=
  Option.bind_eq_some_iff

theorem at3_eq_some {table : List (List (List α))} {i j k : Nat} {value : α} :
    at3 table i j k = some value ↔ ∃ row, at2 table i j = some row ∧ row[k]? = some value :=
  Option.bind_eq_some_iff

theorem at2_lengths (table : List (List (List α))) (i j : Nat) :
    at2 (lengths table) i j = (at2 table i j).map List.length := by
  simp only [at2, lengths, getElem?_map]
  cases table[i]? with
  | none => rfl
  | some row => simp

/-- Tables of one shape have values at the same places. -/
theorem at3_of_lengths_eq {table : List (List (List α))} {other : List (List (List β))}
    (shaped : lengths table = lengths other) {i j k : Nat} {value : α}
    (present : at3 table i j k = some value) : ∃ found, at3 other i j k = some found := by
  obtain ⟨row, located, read⟩ := at3_eq_some.mp present
  have same : (at2 other i j).map List.length = some row.length := by
    rw [← at2_lengths, ← shaped, at2_lengths, located]
    rfl
  obtain ⟨partner, located', length⟩ := Option.map_eq_some_iff.mp same
  have inside : k < partner.length := by
    rw [length]
    exact (List.getElem?_eq_some_iff.mp read).1
  exact ⟨partner[k], at3_eq_some.mpr ⟨partner, located', getElem?_eq_getElem inside⟩⟩

/-! ## Loops -/

/-- One value for each round, in order. -/
structure Tabulates (relation : Nat → α → Prop) (count : Nat) (values : List α) : Prop where
  length : values.length = count
  rounds : ∀ index value, values[index]? = some value → relation index value

variable {relation : Nat → α → Prop} {count : Nat} {body : β → Option α} {indices : List β}

/-- What is measured of each value, as a table over the rounds. -/
theorem Tabulates.map_eq {values : List α} (tabulated : Tabulates relation count values)
    {measure : α → β} {expected : Nat → β}
    (measured : ∀ index value, relation index value → measure value = expected index) :
    values.map measure = (List.range count).map expected := by
  refine ext_getElem (by simp [tabulated.length]) fun index inside _ => ?_
  have bound : index < values.length := by simpa using inside
  have round := tabulated.rounds index values[index] (getElem?_eq_getElem bound)
  simp [measured index _ round]

def tabulate (body : Nat → Option α) (count : Nat) : Option (List α) :=
  (List.range count).mapM body

/-- A loop over the given indices that passes a state on. -/
def collect (body : Nat → σ → Option (α × σ)) : List Nat → σ → Option (List α × σ)
  | [], state => some ([], state)
  | index :: rest, state =>
    (body index state).bind fun round =>
      (collect body rest round.2).map fun tail => (round.1 :: tail.1, tail.2)

theorem tabulates_of_forall₂ {values : List α}
    (related : List.Forall₂ relation (List.range count) values) :
    Tabulates relation count values := by
  obtain ⟨length, rounds⟩ := forall₂_iff_get.mp related
  rw [length_range] at length
  refine ⟨length.symm, fun index value read => ?_⟩
  obtain ⟨inside, same⟩ := List.getElem?_eq_some_iff.mp read
  have round := rounds index (by simpa [length] using inside) inside
  simpa [same] using round

theorem mapM_spec {relation : β → α → Prop}
    (rounds : ∀ index ∈ indices, ∃ value, body index = some value ∧ relation index value) :
    ∃ values, indices.mapM body = some values ∧ List.Forall₂ relation indices values := by
  induction indices with
  | nil => exact ⟨[], rfl, .nil⟩
  | cons index rest ih =>
    obtain ⟨value, ran, related⟩ := rounds index mem_cons_self
    obtain ⟨values, others, tail⟩ := ih fun other later => rounds other (mem_cons_of_mem _ later)
    exact ⟨value :: values, by simp [mapM_cons, ran, others], .cons related tail⟩

theorem tabulate_spec {body : Nat → Option α}
    (rounds : ∀ index < count, ∃ value, body index = some value ∧ relation index value) :
    ∃ values, tabulate body count = some values ∧ Tabulates relation count values := by
  have walked : ∀ index ∈ List.range count,
      ∃ value, body index = some value ∧ relation index value :=
    fun index inside => rounds index (mem_range.mp inside)
  obtain ⟨values, ran, related⟩ := mapM_spec walked
  exact ⟨values, ran, tabulates_of_forall₂ related⟩

theorem collect_forall₂ {body : Nat → σ → Option (α × σ)} {relation : Nat → α → Prop}
    {invariant : σ → Prop} {indices : List Nat}
    (rounds : ∀ index ∈ indices, ∀ state, invariant state →
      ∃ value next, body index state = some (value, next) ∧ relation index value ∧
        invariant next)
    {state : σ} (start : invariant state) :
    ∃ values last, collect body indices state = some (values, last) ∧
      List.Forall₂ relation indices values ∧ invariant last := by
  induction indices generalizing state with
  | nil => exact ⟨[], state, rfl, .nil, start⟩
  | cons index rest ih =>
    obtain ⟨value, next, ran, related, kept⟩ := rounds index mem_cons_self state start
    obtain ⟨values, last, others, tail, settled⟩ :=
      ih (fun other later => rounds other (mem_cons_of_mem _ later)) kept
    exact ⟨value :: values, last, by simp [collect, ran, others], .cons related tail, settled⟩

/-- What one round does under an invariant, the whole loop does. -/
theorem collect_spec {body : Nat → σ → Option (α × σ)} {relation : Nat → α → Prop}
    {invariant : σ → Prop} {count : Nat}
    (rounds : ∀ index < count, ∀ state, invariant state →
      ∃ value next, body index state = some (value, next) ∧ relation index value ∧
        invariant next)
    {state : σ} (start : invariant state) :
    ∃ values last, collect body (List.range count) state = some (values, last) ∧
      Tabulates relation count values ∧ invariant last := by
  obtain ⟨values, last, ran, related, settled⟩ :=
    collect_forall₂ (fun index inside => rounds index (mem_range.mp inside)) start
  exact ⟨values, last, ran, tabulates_of_forall₂ related, settled⟩

end Mooncake.Library.Loops
