import Mooncake.Rdma.Registration

/-!
# Finding a region by an address

The map of regions is ordered by their start; a lookup takes the last region that starts at
or before the address and tests whether the address lies in it.  Regions that do not meet
are found exactly.
-/

namespace Mooncake.Rdma

open Library

namespace MemoryRegion

variable (region : MemoryRegion) (addr : Nat)

def stop : Nat := region.addr + region.length

def Contains : Prop := region.addr ≤ addr ∧ addr < region.stop

theorem containsAddress_iff {region : MemoryRegion} {addr : Nat} :
    region.containsAddress addr = true ↔ region.Contains addr := by
  simp only [containsAddress, Contains, stop, Bool.and_eq_true, decide_eq_true_eq]
  omega

end MemoryRegion

namespace RdmaContext

/-- Of two regions, one ends before the other starts. -/
def Disjoint (context : RdmaContext) : Prop :=
  ∀ region ∈ context.memoryRegionMap.entries, ∀ other ∈ context.memoryRegionMap.entries,
    region ≠ other → region.stop ≤ other.addr ∨ other.stop ≤ region.addr

variable {context : RdmaContext} (disjoint : context.Disjoint) {addr : Nat}
  {region : MemoryRegion}

include disjoint

theorem Disjoint.find_iff :
    context.findMemoryRegionContaining addr = some region ↔
      region ∈ context.memoryRegionMap.entries ∧ region.Contains addr := by
  have ranges : context.memoryRegionMap.Ranges MemoryRegion.stop :=
    ⟨fun region _ => Nat.le_add_right _ _, disjoint⟩
  rw [findMemoryRegionContaining, Option.filter_eq_some_iff, MemoryRegion.containsAddress_iff]
  refine and_congr_left fun contains => ⟨fun found => ?_, fun present => ?_⟩
  · exact (List.mem_filter.mp (List.mem_of_getLast? found)).1
  · exact ranges.floor_of_covers present contains.1 contains.2

theorem Disjoint.find_eq_none (outside : ∀ region ∈ context.memoryRegionMap.entries,
    ¬ region.Contains addr) : context.findMemoryRegionContaining addr = none := by
  refine Option.eq_none_iff_forall_ne_some.mpr fun region found => ?_
  obtain ⟨present, contains⟩ := disjoint.find_iff.mp found
  exact outside region present contains

omit disjoint in
theorem removeAll_entries (present : region ∈ context.memoryRegionMap.entries) :
    (context.memoryRegionMap.removeAll fun other => other.addr = region.addr).entries =
      context.memoryRegionMap.entries.filter fun other => other ≠ region := by
  refine List.filter_congr fun other listed => ?_
  rw [Bool.eq_iff_iff]
  simp only [Bool.not_eq_true', decide_eq_false_iff_not, decide_eq_true_eq]
  exact not_congr ⟨OrderedTree.key_injective listed present, congrArg _⟩

end RdmaContext

/-- A lookup finds the region that contains the address, and only that.  The keys are its
keys; unregistering deregisters and removes it alone, or nothing when that fails. -/
theorem regionLookup_exact (context : RdmaContext) (disjoint : context.Disjoint) (addr : Nat) :
    (∀ region, context.findMemoryRegionContaining addr = some region ↔
      region ∈ context.memoryRegionMap.entries ∧ region.Contains addr) ∧
    (∀ region ∈ context.memoryRegionMap.entries, region.Contains addr →
      context.lkey addr = region.keys.lkey ∧ context.rkey addr = region.keys.rkey ∧
      (∀ dereg ≠ 0, context.unregisterMemoryRegion addr dereg = (.error .context, context)) ∧
      (context.unregisterMemoryRegion addr 0).1 = .ok () ∧
      (context.unregisterMemoryRegion addr 0).2.live = context.live.erase region ∧
      (context.unregisterMemoryRegion addr 0).2.memoryRegionMap.entries =
        context.memoryRegionMap.entries.filter fun other => other ≠ region) ∧
    ((∀ region ∈ context.memoryRegionMap.entries, ¬ region.Contains addr) →
      context.findMemoryRegionContaining addr = none ∧
      context.lkey addr = 0 ∧ context.rkey addr = 0 ∧
      ∀ dereg, context.unregisterMemoryRegion addr dereg = (.ok (), context)) := by
  refine ⟨fun region => disjoint.find_iff, fun region present contains => ?_, fun outside => ?_⟩
  · have found := disjoint.find_iff.mpr ⟨present, contains⟩
    refine ⟨by rw [RdmaContext.lkey, found], by rw [RdmaContext.rkey, found],
      fun dereg failed => ?_, ?_⟩
    · simp [RdmaContext.unregisterMemoryRegion, found, failed]
    · simp only [RdmaContext.unregisterMemoryRegion, found, ne_eq, not_true_eq_false, if_false,
        true_and]
      exact RdmaContext.removeAll_entries present
  · have found := disjoint.find_eq_none outside
    simp [RdmaContext.lkey, RdmaContext.rkey, RdmaContext.unregisterMemoryRegion, found]

/-- Two regions next to each other. -/
theorem regionLookup_of_two :
    let context : RdmaContext :=
      ⟨(OrderedTree.empty.assign ⟨0, 8, ⟨1, 2⟩⟩).assign ⟨8, 8, ⟨3, 4⟩⟩, []⟩
    context.lkey 7 = 1 ∧ context.lkey 8 = 3 := by
  intro context
  have disjoint : context.Disjoint := by
    unfold RdmaContext.Disjoint
    decide
  exact ⟨((regionLookup_exact context disjoint 7).2.1 ⟨0, 8, ⟨1, 2⟩⟩ (by decide)
      ⟨by decide, by decide⟩).1,
    ((regionLookup_exact context disjoint 8).2.1 ⟨8, 8, ⟨3, 4⟩⟩ (by decide)
      ⟨by decide, by decide⟩).1⟩

end Mooncake.Rdma
