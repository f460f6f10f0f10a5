import Mathlib.Data.List.Chain
import Mooncake.Library.Spans
import Mooncake.Rdma.MemoryLocation

/-!
# The NUMA nodes of a buffer

`getMemoryLocation` asks the kernel for the node of every page of a buffer, and joins
neighbouring pages of one node.  Addresses and lengths are words of 64 bits; apart from the
number of pages nothing that is computed from them can leave their range.
-/

namespace Mooncake.Rdma

open Library

def pagesize : Nat := 4096

def alignPage (address : Nat) : Nat :=
  address - address % pagesize

def genCpuNodeName (node : Int) : String :=
  if 0 ≤ node then "cpu:" ++ toString node else kWildcardLocation

structure MemoryLocationEntry where
  start : Nat
  len : Nat
  location : String
  deriving DecidableEq, Repr

/-- An entry before its node is written as text. -/
structure NodeRange where
  start : Nat
  len : Nat
  node : Int
  deriving DecidableEq, Repr

def NodeRange.entry (range : NodeRange) : MemoryLocationEntry :=
  ⟨range.start, range.len, genCpuNodeName range.node⟩

/-- What `cudaPointerGetAttributes` says, where it is asked. -/
inductive PointerProbe where
  | skipped
  | failed
  | device (location : String)
  | host

def pageCount (start len : Nat) (onlyFirstPage : Bool) : Nat :=
  if onlyFirstPage then 1
  else (start - alignPage start + len + pagesize - 1) % 2 ^ 64 / pagesize

/-- The loop over the pages from `page`, with the open entry. -/
def joinPages (aligned stop : Nat) (status : Nat → Int) :
    Nat → Nat → Nat → Int → List NodeRange
  | 0, _, startAddr, node => [⟨startAddr, stop - startAddr, node⟩]
  | pages + 1, page, startAddr, node =>
      if status page ≠ node then
        ⟨startAddr, aligned + page * pagesize - startAddr, node⟩ ::
          joinPages aligned stop status pages (page + 1) (aligned + page * pagesize) (status page)
      else joinPages aligned stop status pages (page + 1) startAddr node

/-- `getMemoryLocation`, where the kernel answers with the status of each page or fails.
It reads the status of a first page even if it asked for none. -/
def getMemoryLocation (start len : Nat) (onlyFirstPage : Bool) (probe : PointerProbe)
    (movePages : Option (Nat → Int)) : Option (List MemoryLocationEntry) :=
  match probe, movePages with
  | .failed, _ => some [⟨start, len, kWildcardLocation⟩]
  | .device location, _ => some [⟨start, len, location⟩]
  | _, none => some [⟨start, len, kWildcardLocation⟩]
  | _, some status =>
      match pageCount start len onlyFirstPage with
      | 0 => none
      | pages + 1 => some ((joinPages (alignPage start) (start + len) status pages 1 start
          (status 0)).map NodeRange.entry)

/-! ## The loop -/

/-- Ranges that cut the addresses from `from_` to `stop` by the status of their pages. -/
structure Cuts (aligned stop : Nat) (status : Nat → Int) (from_ : Nat)
    (ranges : List NodeRange) : Prop where
  spans : Spans NodeRange.start NodeRange.len from_ ranges stop
  boundaries : ∀ range ∈ ranges, range.start = from_ ∨ pagesize ∣ range.start
  differ : ranges.IsChain fun before after => before.node ≠ after.node
  holds : ∀ range ∈ ranges, ∀ place, range.start ≤ place → place < range.start + range.len →
    range.node = status ((place - aligned) / pagesize)

theorem joinPages_head (aligned stop : Nat) (status : Nat → Int) (pages page startAddr : Nat)
    (node : Int) :
    ∃ len rest, joinPages aligned stop status pages page startAddr node =
      ⟨startAddr, len, node⟩ :: rest := by
  induction pages generalizing page with
  | zero => exact ⟨_, _, rfl⟩
  | succ pages ih =>
    unfold joinPages
    split
    · exact ⟨_, _, rfl⟩
    · exact ih (page + 1)

theorem page_of {aligned page place : Nat} (above : aligned + page * pagesize ≤ place)
    (below : place < aligned + (page + 1) * pagesize) : (place - aligned) / pagesize = page :=
  Nat.div_eq_of_lt_le (by omega) (by omega)

/-- The invariant of the loop: the pages from the open entry to the next one have its node. -/
theorem joinPages_cuts {aligned stop : Nat} {status : Nat → Int} {pages page startAddr : Nat}
    {node : Int} (whole : pagesize ∣ aligned) (low : aligned ≤ startAddr)
    (opened : startAddr < aligned + page * pagesize) (inside : startAddr < stop)
    (more : ∀ next, next < page + pages → page ≤ next → aligned + next * pagesize < stop)
    (last : stop ≤ aligned + (page + pages) * pagesize)
    (same : ∀ place, startAddr ≤ place → place < aligned + page * pagesize →
      node = status ((place - aligned) / pagesize)) :
    Cuts aligned stop status startAddr
      (joinPages aligned stop status pages page startAddr node) := by
  induction pages generalizing page startAddr node with
  | zero =>
    rw [Nat.add_zero] at last
    refine ⟨.singleton rfl (by simp only; omega) (by simp only; omega), by simp [joinPages],
      .singleton _, ?_⟩
    intro range listed place above below
    obtain rfl := List.mem_singleton.mp listed
    exact same place above (by simp only at below; omega)
  | succ pages ih =>
    have next : aligned + page * pagesize < stop := more page (by omega) (by omega)
    have grows : page * pagesize < (page + 1) * pagesize :=
      Nat.mul_lt_mul_of_pos_right (by omega) (by decide)
    rw [show page + (pages + 1) = page + 1 + pages by omega] at last more
    have later : ∀ next, next < page + 1 + pages → page + 1 ≤ next →
        aligned + next * pagesize < stop := fun next below above => more next below (by omega)
    unfold joinPages
    split
    · rename_i changed
      have rest := ih (Nat.le_add_right _ _) (Nat.add_lt_add_left grows _) next later last
        fun place above below => congrArg status (page_of above below).symm
      obtain ⟨len, others, head⟩ := joinPages_head aligned stop status pages (page + 1)
        (aligned + page * pagesize) (status page)
      refine ⟨.cons rfl (by simp only; omega) ?_, ?_, ?_, ?_⟩
      · simp only
        rw [Nat.add_sub_cancel' (by omega)]
        exact rest.spans
      · intro range listed
        rcases List.mem_cons.mp listed with rfl | listed
        · exact .inl rfl
        · rcases rest.boundaries range listed with starts | border
          · exact .inr (starts ▸ Nat.dvd_add whole (Nat.dvd_mul_left _ _))
          · exact .inr border
      · have chain := rest.differ
        rw [head] at chain ⊢
        exact .cons_cons (Ne.symm changed) chain
      · intro range listed place above below
        rcases List.mem_cons.mp listed with rfl | listed
        · exact same place above (by simp only at below; omega)
        · exact rest.holds range listed place above below
    · rename_i kept
      refine ih low (by omega) inside later last fun place above below => ?_
      by_cases before : place < aligned + page * pagesize
      · exact same place above before
      · rw [page_of (by omega) below, not_not.mp kept]

/-! ## The scan -/

theorem pageCount_eq (start len : Nat) :
    pageCount start len false = (start % pagesize + len + (pagesize - 1)) % 2 ^ 64 / pagesize := by
  have offset : start - alignPage start = start % pagesize := by
    have := Nat.mod_le start pagesize
    unfold alignPage
    omega
  rw [pageCount, if_neg (by simp), offset]
  rfl

/-- Unless the sum for the number of pages leaves the range of words, the scan cuts the
buffer by the nodes of its pages. -/
theorem scan_partitions_iff (start len : Nat) (nonempty : 0 < len) (room : start + len < 2 ^ 64)
    (probe : PointerProbe) (cpu : probe = .skipped ∨ probe = .host) (status : Nat → Int) :
    (∃ ranges, getMemoryLocation start len false probe (some status) =
        some (ranges.map NodeRange.entry) ∧
      Cuts (alignPage start) (start + len) status start ranges ∧
      (ranges.map NodeRange.len).sum = len ∧
      ∀ place, start ≤ place → place < start + len →
        ∃ range ∈ ranges, range.start ≤ place ∧ place < range.start + range.len) ↔
      start % pagesize + len + (pagesize - 1) < 2 ^ 64 := by
  have width : pagesize = 4096 := rfl
  have answered : getMemoryLocation start len false probe (some status) =
      match pageCount start len false with
      | 0 => none
      | pages + 1 => some ((joinPages (alignPage start) (start + len) status pages 1 start
          (status 0)).map NodeRange.entry) := by
    rcases cpu with rfl | rfl <;> rfl
  rw [answered, pageCount_eq]
  have below := Nat.mod_le start pagesize
  constructor
  · rintro ⟨ranges, found, -⟩
    by_contra wraps
    have none : (start % pagesize + len + (pagesize - 1)) % 2 ^ 64 / pagesize = 0 := by
      rw [width] at *
      omega
    rw [none] at found
    cases found
  · intro fits
    rw [Nat.mod_eq_of_lt fits]
    obtain ⟨pages, count⟩ : ∃ pages,
        (start % pagesize + len + (pagesize - 1)) / pagesize = pages + 1 := by
      refine Nat.exists_eq_succ_of_ne_zero ?_
      rw [width]
      omega
    have aligned : alignPage start + start % pagesize = start := by
      unfold alignPage
      omega
    have cuts := @joinPages_cuts (alignPage start) (start + len) status pages 1 start (status 0)
      (Nat.dvd_sub_mod _) (by omega) (by rw [width] at *; omega) (by omega)
      (fun next _ _ => by rw [width] at *; omega) (by rw [width] at *; omega)
      fun place above below => by
        rw [Nat.div_eq_of_lt (by omega)]
    refine ⟨_, by rw [count], cuts, ?_, fun place above below => ?_⟩
    · have total := cuts.spans.total
      omega
    · exact cuts.spans.cover.mpr ⟨above, below⟩

/-- Two pages and a part of a third, on two nodes. -/
theorem scan_partitions_two_nodes :
    ∃ ranges, getMemoryLocation 100 8192 false .host (some fun page => if page = 0 then 0 else 1) =
        some (ranges.map NodeRange.entry) ∧
      Cuts 0 8292 (fun page => if page = 0 then 0 else 1) 100 ranges ∧
      (ranges.map NodeRange.len).sum = 8192 ∧
      ∀ place, 100 ≤ place → place < 8292 →
        ∃ range ∈ ranges, range.start ≤ place ∧ place < range.start + range.len :=
  (scan_partitions_iff 100 8192 (by decide) (by decide) .host (.inr rfl) _).mpr (by decide)

/-- For the whole address space no page is asked for. -/
theorem scan_of_all_addresses :
    0 + (2 ^ 64 - 1) < 2 ^ 64 ∧ pageCount 0 (2 ^ 64 - 1) false = 0 ∧
      getMemoryLocation 0 (2 ^ 64 - 1) false .skipped (some fun _ => 0) = none := by
  decide +kernel

end Mooncake.Rdma
