import Mathlib.Algebra.BigOperators.Group.List.Basic
import Mathlib.Algebra.Order.Ring.Int

/-!
# Consecutive pieces

A range is cut into pieces, each of which has a start and a size.  The pieces follow one
another without a gap and none of them is empty.
-/

namespace Mooncake.Library

open List

variable {α : Type}

/-- The pieces of the range between two positions, in their order. -/
inductive Spans (start size : α → Nat) : Nat → List α → Nat → Prop where
  | nil (at_ : Nat) : Spans start size at_ [] at_
  | cons {at_ stop : Nat} {piece : α} {rest : List α} (starts : start piece = at_)
      (positive : 0 < size piece) (rest_ : Spans start size (at_ + size piece) rest stop) :
      Spans start size at_ (piece :: rest) stop

namespace Spans

variable {start size : α → Nat} {from_ stop : Nat} {pieces : List α}

theorem singleton {piece : α} (starts : start piece = from_) (positive : 0 < size piece)
    (ends : from_ + size piece = stop) : Spans start size from_ [piece] stop := by
  refine .cons starts positive ?_
  rw [ends]
  exact .nil stop

variable (spans : Spans start size from_ pieces stop)

include spans

theorem total :
    from_ + (pieces.map size).sum = stop := by
  induction spans with
  | nil => simp
  | cons starts positive rest_ ih => simpa [Nat.add_assoc] using ih

theorem start_eq {index : Nat} {piece : α} (found : pieces[index]? = some piece) :
    start piece = from_ + ((pieces.take index).map size).sum := by
  induction spans generalizing index with
  | nil => cases found
  | cons starts positive rest_ ih =>
    cases index with
    | zero =>
      obtain rfl := Option.some.inj found
      simpa using starts
    | succ index =>
      rw [take_succ_cons, map_cons, sum_cons, ← Nat.add_assoc]
      exact ih (by simpa using found)

theorem le_start {piece : α} (present : piece ∈ pieces) : from_ ≤ start piece := by
  obtain ⟨index, found⟩ := mem_iff_getElem?.mp present
  rw [spans.start_eq found]
  exact Nat.le_add_right _ _

theorem increasing :
    pieces.Pairwise fun earlier later => start earlier + size earlier ≤ start later := by
  induction spans with
  | nil => exact .nil
  | cons starts positive rest_ ih =>
    refine pairwise_cons.mpr ⟨fun later present => ?_, ih⟩
    rw [starts]
    exact rest_.le_start present

theorem positive :
    ∀ piece ∈ pieces, 0 < size piece := by
  induction spans with
  | nil => nofun
  | cons starts positive rest_ ih => exact forall_mem_cons.mpr ⟨positive, ih⟩

theorem cover {place : Nat} :
    (∃ piece ∈ pieces, start piece ≤ place ∧ place < start piece + size piece) ↔
      from_ ≤ place ∧ place < stop := by
  induction spans with
  | nil at_ =>
    refine iff_of_false (by simp) ?_
    omega
  | cons starts positive rest_ ih =>
    have ends := rest_.total
    simp only [mem_cons, exists_eq_or_imp, ih, starts]
    omega

theorem nodup : pieces.Nodup := by
  refine spans.increasing.imp_of_mem ?_
  rintro earlier later present - before rfl
  have nonempty := spans.positive earlier present
  omega

end Spans

end Mooncake.Library
