import Mathlib.Data.List.Find
import Mooncake.Spdk.Translate

/-!
# Invalidation of a range

The cache and the regions are walked one after the other, each filtered by its own overlap
with the range.  An MR has the range of its region, so it goes exactly when its region goes,
and what stays is searched and translated as before.
-/

namespace Mooncake.Spdk

open Library List

/-- The MR and the range share a byte. -/
def GpuDmabufMr.Meets (entry : GpuDmabufMr) (addr len : UInt64) : Prop :=
  ∃ byte, (entry.addr.toNat ≤ byte ∧ byte < entry.stop) ∧
    addr.toNat ≤ byte ∧ byte < addr.toNat + len.toNat

def GpuDmabufRegion.Meets (region : GpuDmabufRegion) (addr len : UInt64) : Prop :=
  ∃ byte, (region.addr.toNat ≤ byte ∧ byte < region.stop) ∧
    addr.toNat ≤ byte ∧ byte < addr.toNat + len.toNat

def DmabufCall.RegistersNothing : DmabufCall → Prop
  | .register _ _ _ _ => False
  | _ => True

namespace GpuDmabufDomain

/-- `gpu_dmabuf_invalidate_range`, with the MRs that it deregisters. -/
def sweep (gd : GpuDmabufDomain) (addr len : UInt64) : GpuDmabufDomain × List GpuDmabufMr :=
  if addr = 0 ∨ len = 0 then (gd, [])
  else
    let (mrCache, deregistered) := OrderedTree.sweep (fun entry => entry.overlaps addr len)
      gd.mrCache.entries gd.mrCache []
    let (regions, _) := OrderedTree.sweep (fun region => region.overlaps addr len)
      gd.regions.entries gd.regions []
    ({ gd with mrCache := mrCache, regions := regions }, deregistered)

variable {addr len : UInt64} {calls : List DmabufCall} {region : GpuDmabufRegion}

theorem sweep_eq (gd : GpuDmabufDomain) (nonnull : addr ≠ 0) (nonempty : len ≠ 0) :
    gd.sweep addr len = (gd.invalidateRange addr len,
      gd.mrCache.entries.filter fun entry => entry.overlaps addr len) := by
  simp only [sweep, invalidateRange, nonnull, nonempty, or_self, if_false,
    OrderedTree.sweep_entries]

/-! ## What stays -/

section Invalidate

variable {gd : GpuDmabufDomain} (tidy : gd.Tidy) (nonempty : 0 < len.toNat)
  (proper : addr.toNat + len.toNat < 2 ^ 64)

theorem rangeOverlaps_iff_byte {outerAddr outerLen : UInt64}
    (outer : outerAddr.toNat + outerLen.toNat < 2 ^ 64) (nonempty : 0 < len.toNat)
    (proper : addr.toNat + len.toNat < 2 ^ 64) :
    rangeOverlaps outerAddr outerLen addr len = true ↔
      ∃ byte, (outerAddr.toNat ≤ byte ∧ byte < outerAddr.toNat + outerLen.toNat) ∧
        addr.toNat ≤ byte ∧ byte < addr.toNat + len.toNat := by
  rw [rangeOverlaps_iff outer]
  constructor
  · rintro ⟨-, -, size, left, right⟩
    exact ⟨max outerAddr.toNat addr.toNat, by omega, by omega⟩
  · rintro ⟨byte, inside, within⟩
    omega

include tidy nonempty proper

theorem Tidy.overlaps_iff (present : region ∈ gd.regions.entries) :
    region.overlaps addr len = true ↔ region.Meets addr len :=
  rangeOverlaps_iff_byte (tidy.proper region present) nonempty proper

theorem Tidy.mr_overlaps_iff {entry : GpuDmabufMr} (present : entry ∈ gd.mrCache.entries) :
    entry.overlaps addr len = true ↔ entry.Meets addr len :=
  rangeOverlaps_iff_byte (tidy.mr_proper present) nonempty proper

variable (nonnull : addr ≠ 0)

include nonnull

theorem Tidy.mem_regions_invalidate (region : GpuDmabufRegion) :
    region ∈ (gd.invalidateRange addr len).regions.entries ↔
      region ∈ gd.regions.entries ∧ ¬ region.Meets addr len := by
  rw [mem_invalidateRange]
  refine and_congr_right fun present => ?_
  rw [← tidy.overlaps_iff nonempty proper present]
  have some_ : len ≠ 0 := fun zero => by simp [zero] at nonempty
  simp [nonnull, some_]

theorem Tidy.mem_mrs_invalidate (entry : GpuDmabufMr) :
    entry ∈ (gd.invalidateRange addr len).mrCache.entries ↔
      entry ∈ gd.mrCache.entries ∧ ¬ entry.Meets addr len := by
  have some_ : len ≠ 0 := fun zero => by simp [zero] at nonempty
  rw [invalidateRange, if_neg (by simp [nonnull, some_]), OrderedTree.mem_removeAll]
  refine and_congr_right fun present => ?_
  rw [← tidy.mr_overlaps_iff nonempty proper present, Bool.not_eq_true]

/-- An MR that stays has the range of a region that stays. -/
theorem Tidy.invalidate : (gd.invalidateRange addr len).Tidy := by
  have members := tidy.mem_regions_invalidate nonempty proper nonnull
  refine ⟨fun region present => tidy.proper region ((members region).mp present).1,
    fun region present other listed => tidy.disjoint region ((members region).mp present).1 other
      ((members other).mp listed).1, fun entry present => ?_⟩
  obtain ⟨old, apart⟩ := (tidy.mem_mrs_invalidate nonempty proper nonnull entry).mp present
  obtain ⟨region, listed, sameAddr, sameLen⟩ := tidy.owned entry old
  refine ⟨region, (members region).mpr ⟨listed, fun meets => apart ?_⟩, sameAddr, sameLen⟩
  rw [GpuDmabufMr.Meets, GpuDmabufMr.stop, sameAddr, sameLen]
  exact meets

omit nonempty proper nonnull tidy in
theorem invalidateRange_contexts (gd : GpuDmabufDomain) :
    (gd.invalidateRange addr len).cudaCtx = gd.cudaCtx ∧
      (gd.invalidateRange addr len).cudaCtxs = gd.cudaCtxs := by
  unfold invalidateRange
  split <;> exact ⟨rfl, rfl⟩

theorem Tidy.find?_invalidate (listed : region ∈ gd.regions.entries)
    (apart : ¬ region.Meets addr len) {addr' len' : UInt64} (nonempty' : 0 < len'.toNat)
    (holds : region.Holds addr' len') {pd : Nat} :
    ((gd.invalidateRange addr len).mrCache.entries.find? fun entry =>
        decide (entry.deviceId = region.deviceId) && decide (entry.pd = pd) &&
          entry.contains addr' len') =
      gd.mrCache.entries.find? fun entry => decide (entry.deviceId = region.deviceId) &&
        decide (entry.pd = pd) && entry.contains addr' len' := by
  have some_ : len ≠ 0 := fun zero => by simp [zero] at nonempty
  rw [invalidateRange, if_neg (by simp [nonnull, some_])]
  dsimp only [OrderedTree.removeAll]
  rw [find?_filter]
  refine find?_congr fun entry present => ?_
  cases covers : entry.contains addr' len' with
  | false => simp
  | true =>
    -- the MR has the range of the region, so it stays
    obtain ⟨sameAddr, sameLen⟩ := tidy.owner_of_covers listed nonempty' holds present
      ((tidy.covers_iff present).mp covers)
    have stays : entry.overlaps addr len = false := by
      rw [← Bool.not_eq_true, tidy.mr_overlaps_iff nonempty proper present, GpuDmabufMr.Meets,
        GpuDmabufMr.stop, sameAddr, sameLen]
      exact apart
    simp [stays]

/-- A range inside a region that stays is translated as before. -/
theorem Tidy.translate_invalidate (listed : region ∈ gd.regions.entries)
    (apart : ¬ region.Meets addr len) {dstDomain : RdmaDomain} {driver : Driver}
    {addr' len' : UInt64} (nonempty' : 0 < len'.toNat) (holds : region.Holds addr' len') :
    ((gd.invalidateRange addr len).translate dstDomain driver addr' len').1 =
      (gd.translate dstDomain driver addr' len').1 := by
  cases domain : getRdmaPd dstDomain with
  | error refusal => simp only [translate, domain]
  | ok pd =>
    have left := tidy.invalidate nonempty proper nonnull
    have stays := (tidy.mem_regions_invalidate nonempty proper nonnull region).mpr ⟨listed, apart⟩
    rw [tidy.translate_of_holds listed nonempty' holds domain,
      left.translate_of_holds stays nonempty' holds domain]
    dsimp only
    rw [tidy.requireMr_of_holds listed nonempty' holds,
      left.requireMr_of_holds stays nonempty' holds,
      tidy.find?_invalidate nonempty proper nonnull listed apart nonempty' holds,
      freshMr_congr (invalidateRange_contexts gd).1
        (invalidateRange_contexts gd).2]

end Invalidate

/-! ## Regions that are gone -/

variable {gd : GpuDmabufDomain}

theorem mem_of_mem_afterAll (nothing : ∀ call ∈ calls, call.RegistersNothing)
    (present : region ∈ (gd.afterAll calls).regions.entries) : region ∈ gd.regions.entries := by
  induction calls generalizing gd with
  | nil => exact present
  | cons call rest ih =>
    rw [forall_mem_cons] at nothing
    have later : region ∈ (gd.after call).regions.entries := ih nothing.2 present
    cases call with
    | register rdmaDomain driver addr len => exact nothing.1.elim
    | translate dstDomain driver addr len =>
      rwa [after, translate_regions] at later
    | invalidate addr len => exact (mem_invalidateRange.mp later).1

theorem translate_of_missing {dstDomain : RdmaDomain} {driver : Driver}
    (missing : gd.findRegion addr len = none) :
    ∃ refusal, (gd.translate dstDomain driver addr len).1 = .error refusal := by
  cases domain : getRdmaPd dstDomain with
  | error refusal => exact ⟨refusal, by simp [translate, domain]⟩
  | ok pd => exact ⟨.regionNotFound, by simp [translate, domain, missing]⟩

/-- A range inside a region that was invalidated is not translated before the next
registration. -/
theorem Tidy.not_translated (tidy : gd.Tidy) (nonempty : 0 < len.toNat)
    (proper : addr.toNat + len.toNat < 2 ^ 64) (nonnull : addr ≠ 0)
    (listed : region ∈ gd.regions.entries) (meets : region.Meets addr len)
    (nothing : ∀ call ∈ calls, call.RegistersNothing) {dstDomain : RdmaDomain} {driver : Driver}
    {addr' len' : UInt64} (nonempty' : 0 < len'.toNat) (holds : region.Holds addr' len') :
    ∃ refusal, (((gd.invalidateRange addr len).afterAll calls).translate dstDomain driver addr'
      len').1 = .error refusal := by
  apply translate_of_missing
  cases found : ((gd.invalidateRange addr len).afterAll calls).findRegion addr' len' with
  | none => rfl
  | some other =>
    obtain ⟨present, covers⟩ := OrderedTree.search_eq_some found
    obtain ⟨old, apart⟩ := (tidy.mem_regions_invalidate nonempty proper nonnull other).mp
      (mem_of_mem_afterAll nothing present)
    obtain ⟨starts, ends⟩ := (tidy.contains_iff old).mp covers
    obtain ⟨starts', ends'⟩ := holds
    have same : region = other := tidy.eq_of_byte listed old starts' (by omega) starts (by omega)
    exact absurd (same ▸ meets) apart

/-- An invalidation removes exactly the regions and the MRs that meet the range, and
deregisters each such MR once.  A range inside a removed region is not translated before the
next registration, a range inside another region is translated as before, and every MR that
stays has the range of a region that stays. -/
theorem invalidate_exact (gd : GpuDmabufDomain) (tidy : gd.Tidy) (addr len : UInt64)
    (nonnull : addr ≠ 0) (nonempty : 0 < len.toNat) (proper : addr.toNat + len.toNat < 2 ^ 64) :
    let after := (gd.sweep addr len).1
    (∀ region, region ∈ after.regions.entries ↔
      region ∈ gd.regions.entries ∧ ¬ region.Meets addr len) ∧
    (∀ entry, entry ∈ after.mrCache.entries ↔
      entry ∈ gd.mrCache.entries ∧ ¬ entry.Meets addr len) ∧
    (∀ entry, (gd.sweep addr len).2.count entry ≤ 1 ∧ (entry ∈ (gd.sweep addr len).2 ↔
      entry ∈ gd.mrCache.entries ∧ entry.Meets addr len)) ∧
    (∀ region ∈ gd.regions.entries, region.Meets addr len →
      ∀ calls : List DmabufCall, (∀ call ∈ calls, call.RegistersNothing) →
        ∀ dstDomain driver addr' len', 0 < len'.toNat → region.Holds addr' len' →
          ∃ refusal, ((after.afterAll calls).translate dstDomain driver addr' len').1 =
            .error refusal) ∧
    (∀ region ∈ gd.regions.entries, ¬ region.Meets addr len →
      ∀ dstDomain driver addr' len', 0 < len'.toNat → region.Holds addr' len' →
        (after.translate dstDomain driver addr' len').1 =
          (gd.translate dstDomain driver addr' len').1) ∧
    ∀ entry ∈ after.mrCache.entries, ∃ region ∈ after.regions.entries,
      entry.addr = region.addr ∧ entry.len = region.len := by
  have some_ : len ≠ 0 := fun zero => by simp [zero] at nonempty
  rw [sweep_eq gd nonnull some_]
  refine ⟨tidy.mem_regions_invalidate nonempty proper nonnull,
    tidy.mem_mrs_invalidate nonempty proper nonnull, fun entry => ⟨?_, ?_⟩, ?_, ?_,
    (tidy.invalidate nonempty proper nonnull).owned⟩
  · exact nodup_iff_count_le_one.mp (gd.mrCache.entries_nodup.filter _) entry
  · rw [mem_filter]
    exact and_congr_right fun present => tidy.mr_overlaps_iff nonempty proper present
  · intro region listed meets calls nothing dstDomain driver addr' len' nonempty' holds
    exact tidy.not_translated nonempty proper nonnull listed meets nothing
      nonempty' holds
  · intro region listed apart dstDomain driver addr' len' nonempty' holds
    exact tidy.translate_invalidate nonempty proper nonnull listed apart nonempty'
      holds

/-- The second of two pages is invalidated by one of its bytes. -/
theorem secondPage_invalidated :
    let gd := (created 0 none).afterAll
      [.register sampleRdmaDomain sampleDriver 4096 4096,
        .register sampleRdmaDomain sampleDriver 8192 4096]
    (gd.sweep 9000 1).2 = [⟨8192, 4096, 0, 1, 1, 2⟩] ∧
      ∃ refusal, ((gd.sweep 9000 1).1.translate sampleRdmaDomain sampleDriver 8192 16).1 =
        .error refusal := by
  intro gd
  have registers : ∀ call ∈ [DmabufCall.register sampleRdmaDomain sampleDriver 4096 4096,
      .register sampleRdmaDomain sampleDriver 8192 4096], call.RegistersProper := by
    simp [DmabufCall.RegistersProper]
  have coherent : gd.Coherent := afterAll_coherent (created_coherent 0 none) registers
  have regions : gd.regions.entries = [⟨4096, 4096, 0⟩, ⟨8192, 4096, 0⟩] := rfl
  have swept : (gd.mrCache.entries.filter fun entry => entry.overlaps 9000 1) =
      [⟨8192, 4096, 0, 1, 1, 2⟩] := rfl
  have meets : (⟨8192, 4096, 0⟩ : GpuDmabufRegion).Meets 9000 1 := ⟨9000, by decide⟩
  clear_value gd
  refine ⟨by rw [sweep_eq gd (by decide) (by decide), swept], ?_⟩
  obtain ⟨-, -, -, gone, -⟩ :=
    invalidate_exact gd coherent.tidy 9000 1 (by decide) (by decide) (by decide)
  exact gone ⟨8192, 4096, 0⟩ (by simp [regions]) meets [] (by simp) sampleRdmaDomain sampleDriver
    8192 16 (by decide) ⟨by decide, by decide⟩

/-! ## Ranges that were registered -/

variable {ranges : List (UInt64 × UInt64)}

end GpuDmabufDomain

end Mooncake.Spdk
