import Mooncake.Spdk.Regions

/-!
# Cached MRs belong to regions

Every cached MR has the range and the device of a current region, so MRs of one device
and one protection domain are as far apart as the regions.  A call requires an MR only
for a region and registers one only when none of that region is cached.  Therefore no
insertion meets an entry that is there already.
-/

namespace Mooncake.Spdk

open Library

/-! ## The order of the cache -/

variable {addr : UInt64} {refusal : Refusal}

theorem mrKey_le_iff {deviceId deviceId' : Int} {pd pd' : Nat} {addr' : UInt64} :
    mrKey deviceId pd addr ≤ mrKey deviceId' pd' addr' ↔
      deviceId < deviceId' ∨
        deviceId = deviceId' ∧ (pd < pd' ∨ pd = pd' ∧ addr.toNat ≤ addr'.toNat) := by
  simp only [mrKey, Prod.Lex.toLex_le_toLex]

theorem mrKey_inj {deviceId deviceId' : Int} {pd pd' : Nat} {addr' : UInt64}
    (same : mrKey deviceId pd addr = mrKey deviceId' pd' addr') :
    deviceId = deviceId' ∧ pd = pd' ∧ addr = addr' := by
  simpa [mrKey, UInt64.toNat_inj] using same

namespace GpuDmabufMr

def stop (entry : GpuDmabufMr) : Nat :=
  entry.addr.toNat + entry.len.toNat

structure BelongsTo (entry : GpuDmabufMr) (region : GpuDmabufRegion) : Prop where
  addr : entry.addr = region.addr
  len : entry.len = region.len
  device : entry.deviceId = region.deviceId

namespace BelongsTo

variable {entry : GpuDmabufMr} {region : GpuDmabufRegion} (belongs : entry.BelongsTo region)

include belongs

theorem start_eq : entry.addr.toNat = region.key := by
  rw [belongs.addr]
  rfl

theorem stop_eq : entry.stop = region.stop := by
  rw [stop, belongs.addr, belongs.len]
  rfl

theorem contains_eq (addr len : UInt64) : entry.contains addr len = region.contains addr len := by
  rw [contains, belongs.addr, belongs.len]
  rfl

theorem overlaps_eq (addr len : UInt64) : entry.overlaps addr len = region.overlaps addr len := by
  rw [overlaps, belongs.addr, belongs.len]
  rfl

end BelongsTo

end GpuDmabufMr

namespace GpuDmabufDomain

/-- The regions are apart, and every cached MR belongs to one of them. -/
structure Coherent (gd : GpuDmabufDomain) : Prop where
  apart : Apart gd.regions.entries
  owned : ∀ entry ∈ gd.mrCache.entries, ∃ region ∈ gd.regions.entries, entry.BelongsTo region

theorem mr_unique {gd : GpuDmabufDomain} {entry other : GpuDmabufMr}
    (present : entry ∈ gd.mrCache.entries)
    (listed : other ∈ gd.mrCache.entries) {region : GpuDmabufRegion}
    (belongs : entry.BelongsTo region) (belongs' : other.BelongsTo region)
    (pd : entry.pd = other.pd) : entry = other := by
  refine OrderedTree.key_injective present listed ?_
  rw [GpuDmabufMr.key, GpuDmabufMr.key, pd, belongs.addr, belongs'.addr, belongs.device,
    belongs'.device]

section Search

variable {gd : GpuDmabufDomain} (coherent : gd.Coherent)

include coherent

variable {entry : GpuDmabufMr} {region : GpuDmabufRegion} {pd : Nat}

/-- The MR of a region is found for every range inside the region. -/
theorem findMr_complete (present : entry ∈ gd.mrCache.entries)
    (listed : region ∈ gd.regions.entries) (belongs : entry.BelongsTo region) {len : UInt64}
    (starts : region.key ≤ addr.toNat) (ends : addr.toNat + len.toNat ≤ region.stop) :
    ∃ found, gd.findMr region.deviceId entry.pd addr len = some found := by
  have proper := coherent.apart.proper region listed
  have covers : (decide (entry.deviceId = region.deviceId) && decide (entry.pd = entry.pd) &&
      entry.contains addr len) = true := by
    simp [belongs.device, belongs.contains_eq,
      (GpuDmabufRegion.contains_iff proper.2).mpr ⟨starts, ends⟩]
  have start := belongs.start_eq
  refine OrderedTree.search_isSome present ?_ ?_
  · intro above upper here higher under
    simp only [GpuDmabufMr.key, mrKey_le_iff, belongs.device] at above higher under
    have same : upper = entry := by
      refine OrderedTree.key_injective here present (le_antisymm ?_ ?_)
      · simp only [GpuDmabufMr.key, mrKey_le_iff, belongs.device]
        omega
      · simp only [GpuDmabufMr.key, mrKey_le_iff, belongs.device]
        omega
    rw [same]
    exact covers
  · intro below
    refine ⟨covers, fun lower here higher under => ?_⟩
    rw [← not_le] at under
    simp only [GpuDmabufMr.key, mrKey_le_iff, belongs.device] at higher under
    obtain ⟨other, listed', belongs'⟩ := coherent.owned lower here
    have start' := belongs'.start_eq
    have nonempty := coherent.apart.proper other listed'
    -- the region of the entry between starts inside the region of the range
    have meets : region = other := by
      refine coherent.apart.eq_of_meets listed listed' ?_ (by omega)
      simp only [GpuDmabufRegion.stop, GpuDmabufRegion.key] at *
      omega
    subst meets
    exact mr_unique here present belongs' belongs (by omega)

theorem not_cached_of_findMr (listed : region ∈ gd.regions.entries) {len : UInt64}
    (starts : region.key ≤ addr.toNat) (ends : addr.toNat + len.toNat ≤ region.stop)
    (missing : gd.findMr region.deviceId pd addr len = none) (present : entry ∈ gd.mrCache.entries)
    (same : entry.pd = pd) : ¬ entry.BelongsTo region := by
  intro belongs
  obtain ⟨found, located⟩ := findMr_complete coherent present listed belongs starts ends
  rw [same, missing] at located
  cases located

theorem findOverlappingMr_eq_none (listed : region ∈ gd.regions.entries)
    (free : ∀ entry ∈ gd.mrCache.entries, entry.pd = pd → ¬ entry.BelongsTo region) :
    gd.findOverlappingMr region.deviceId pd region.addr region.len = none := by
  cases outcome : gd.findOverlappingMr region.deviceId pd region.addr region.len with
  | none => rfl
  | some entry =>
    obtain ⟨present, passed⟩ := OrderedTree.search_eq_some outcome
    simp only [Bool.and_eq_true, decide_eq_true_eq] at passed
    obtain ⟨⟨device, same⟩, meets⟩ := passed
    obtain ⟨other, listed', belongs⟩ := coherent.owned entry present
    rw [belongs.overlaps_eq, GpuDmabufRegion.overlaps_iff
      (coherent.apart.proper other listed').2] at meets
    have equal : region = other := coherent.apart.eq_of_meets listed listed' meets.2.2.2.1
      meets.2.2.2.2
    exact absurd (equal ▸ belongs) (free entry present same)

theorem mrCache_insert_ne_none (listed : region ∈ gd.regions.entries)
    (free : ∀ entry ∈ gd.mrCache.entries, entry.pd = pd → ¬ entry.BelongsTo region)
    (lkey rkey : UInt32) :
    gd.mrCache.insert ⟨region.addr, region.len, region.deviceId, pd, lkey, rkey⟩ ≠ none := by
  intro refused
  obtain ⟨entry, present, same⟩ := OrderedTree.insert_eq_none refused
  obtain ⟨device, samePd, addr⟩ := mrKey_inj same
  obtain ⟨other, listed', belongs⟩ := coherent.owned entry present
  have equal : region = other := by
    refine coherent.apart.eq_of_key listed listed' ?_
    rw [← belongs.start_eq, addr]
    rfl
  exact free entry present samePd (equal ▸ belongs)

end Search

/-! ## Branches that are not taken -/

end GpuDmabufDomain

/-- An insertion that meets an entry, or an MR that overlaps a cached one. -/
def Refusal.isConflict : Refusal → Bool
  | regionConflict | mrOverlaps | mrConflict => true
  | _ => false

theorem getRdmaPd_not_conflict {rdmaDomain : RdmaDomain}
    (refused : getRdmaPd rdmaDomain = .error refusal) : refusal.isConflict = false := by
  unfold getRdmaPd at refused
  repeat' split at refused
  all_goals cases refused
  all_goals rfl

theorem exportMr_not_conflict {driver : Driver} {cudaCtx : GpuContext} {len : UInt64}
    (refused : exportMr driver cudaCtx addr len = .error refusal) :
    refusal.isConflict = false := by
  unfold exportMr at refused
  split at refused
  · rename_i switched
    cases refused
    unfold setCudaCtx at switched
    repeat' split at switched
    all_goals cases switched
    all_goals rfl
  · repeat' split at refused
    all_goals cases refused
    all_goals rfl

namespace GpuDmabufDomain

variable {gd : GpuDmabufDomain} {driver : Driver} {deviceId : Int} {len : UInt64}
  {region : GpuDmabufRegion} {call : DmabufCall}

theorem getPtrDeviceId_not_conflict (refused : gd.getPtrDeviceId driver = .error refusal) :
    refusal.isConflict = false := by
  unfold getPtrDeviceId at refused
  repeat' split at refused
  all_goals cases refused
  all_goals rfl

theorem getCudaCtx_not_conflict (refused : gd.getCudaCtx driver deviceId = .error refusal) :
    refusal.isConflict = false := by
  unfold getCudaCtx at refused
  repeat' split at refused
  all_goals cases refused
  all_goals rfl

/-- The region is new or has room: no insertion of a region meets another one. -/
theorem addRegion_not_conflict (apart : Apart gd.regions.entries) (nonempty : 0 < len.toNat)
    (proper : addr.toNat + len.toNat < 2 ^ 64)
    (refused : gd.addRegion driver addr len deviceId = .error refusal) :
    refusal.isConflict = false := by
  unfold addRegion at refused
  split at refused
  · split at refused <;> cases refused
    rfl
  · split at refused
    · cases refused
      rfl
    · rename_i free
      split at refused
      · cases refused
        rfl
      · split at refused
        · rename_i taken
          obtain ⟨other, present, same⟩ := OrderedTree.insert_eq_none taken
          have range := (apart.proper other present).1
          change other.addr.toNat = addr.toNat at same
          have left : addr.toNat < other.stop := by
            simp only [GpuDmabufRegion.stop]
            omega
          have right : other.key < addr.toNat + len.toNat := by
            simp only [GpuDmabufRegion.key]
            omega
          obtain ⟨found, noticed⟩ :=
            findOverlappingRegion_complete apart present proper nonempty left right
          rw [free] at noticed
          cases noticed
        · cases refused

theorem registerMr_not_conflict {pd : Nat}
    (apart : gd.findOverlappingMr deviceId pd addr len = none)
    (room : ∀ lkey rkey, gd.mrCache.insert ⟨addr, len, deviceId, pd, lkey, rkey⟩ ≠ none)
    (refused : (gd.registerMr driver deviceId pd addr len).1 = .error refusal) :
    refusal.isConflict = false := by
  unfold registerMr at refused
  rw [apart] at refused
  simp only [Option.isSome_none, Bool.false_eq_true, if_false] at refused
  split at refused
  · cases refused
    rfl
  · split at refused
    · rename_i inner retained
      cases refused
      exact getCudaCtx_not_conflict retained
    · rename_i cudaCtx next retained
      split at refused
      · rename_i exported
        cases refused
        exact exportMr_not_conflict exported
      · rename_i lkey rkey exported
        split at refused
        · rename_i taken
          rw [(getCudaCtx_regions retained).2] at taken
          exact absurd taken (room lkey rkey)
        · cases refused

/-! ## The calls -/

section Coherent

variable (coherent : gd.Coherent)

include coherent

theorem requireMr_coherent (driver : Driver) (listed : region ∈ gd.regions.entries) (pd : Nat)
    (starts : region.key ≤ addr.toNat) (ends : addr.toNat + len.toNat ≤ region.stop) :
    (gd.requireMr driver region pd addr len).2.Coherent ∧
      ∀ refusal, (gd.requireMr driver region pd addr len).1 = .error refusal →
        refusal.isConflict = false := by
  unfold requireMr
  cases outcome : gd.findMr region.deviceId pd addr len with
  | some entry => exact ⟨coherent, fun _ refused => by cases refused⟩
  | none =>
    have free : ∀ entry ∈ gd.mrCache.entries, entry.pd = pd → ¬ entry.BelongsTo region :=
      fun entry present same =>
        not_cached_of_findMr coherent listed starts ends outcome present same
    refine ⟨?_, fun refusal refused => registerMr_not_conflict
      (findOverlappingMr_eq_none coherent listed free)
      (mrCache_insert_ne_none coherent listed free) refused⟩
    obtain ⟨regions, cached⟩ := registerMr_cases gd driver region.deviceId pd region.addr region.len
    refine ⟨regions ▸ coherent.apart, fun entry present => ?_⟩
    dsimp only at present ⊢
    rw [regions]
    rcases cached with same | ⟨lkey, rkey, inserted⟩
    · rw [same] at present
      exact coherent.owned entry present
    · rcases (OrderedTree.mem_insert inserted).mp present with rfl | old
      · exact ⟨region, listed, rfl, rfl, rfl⟩
      · exact coherent.owned entry old

theorem addRegion_coherent {middle : GpuDmabufDomain} (nonempty : 0 < len.toNat)
    (proper : addr.toNat + len.toNat < 2 ^ 64)
    (added : gd.addRegion driver addr len deviceId = .ok (region, middle)) :
    middle.Coherent ∧ region ∈ middle.regions.entries := by
  obtain ⟨apart, old, listed, -, -⟩ := addRegion_apart coherent.apart nonempty proper added
  refine ⟨⟨apart, fun entry present => ?_⟩, listed⟩
  have same : middle.mrCache = gd.mrCache := by
    rcases addRegion_eq_ok added with ⟨-, -, rfl⟩ | ⟨-, -, regions, -, rfl⟩ <;> rfl
  rw [same] at present
  obtain ⟨owner, present', belongs⟩ := coherent.owned entry present
  exact ⟨owner, old owner present', belongs⟩

theorem register_coherent (rdmaDomain : RdmaDomain) (driver : Driver)
    (proper : addr.toNat + len.toNat < 2 ^ 64) :
    (gd.register rdmaDomain driver addr len).2.Coherent := by
  rcases register_cases gd rdmaDomain driver addr len with
    ⟨refusal, refused⟩ | ⟨-, nonempty, pd, deviceId, region, middle, -, -, added, registered⟩
  · rw [refused]
    exact coherent
  · obtain ⟨between, listed⟩ := addRegion_coherent coherent nonempty proper added
    rw [registered]
    exact (requireMr_coherent between driver listed pd le_rfl le_rfl).1

theorem translate_coherent {dstDomain : RdmaDomain} :
    (gd.translate dstDomain driver addr len).2.Coherent := by
  unfold translate
  split
  · exact coherent
  · rename_i pd _
    split
    · exact coherent
    · rename_i region found
      obtain ⟨listed, starts, ends⟩ := findRegion_eq_some coherent.apart found
      exact (requireMr_coherent coherent driver listed pd starts ends).1

theorem invalidateRange_coherent :
    (gd.invalidateRange addr len).Coherent := by
  refine ⟨coherent.apart.sublist fun region present => (mem_invalidateRange.mp present).1,
    fun entry present => ?_⟩
  have kept : entry ∈ gd.mrCache.entries ∧
      (addr = 0 ∨ len = 0 ∨ entry.overlaps addr len = false) := by
    unfold invalidateRange at present
    split at present
    · rename_i ignored
      rcases ignored with zero | zero <;> simp [zero, present]
    · exact ⟨(OrderedTree.mem_removeAll.mp present).1,
        .inr (.inr (OrderedTree.mem_removeAll.mp present).2)⟩
  obtain ⟨region, listed, belongs⟩ := coherent.owned entry kept.1
  rw [belongs.overlaps_eq] at kept
  exact ⟨region, mem_invalidateRange.mpr ⟨listed, kept.2⟩, belongs⟩

theorem after_coherent (proper : call.RegistersProper) :
    (gd.after call).Coherent := by
  cases call with
  | register rdmaDomain driver addr len => exact register_coherent coherent rdmaDomain driver proper
  | translate dstDomain driver addr len =>
    exact translate_coherent coherent
  | invalidate addr len => exact invalidateRange_coherent coherent

theorem afterAll_coherent {calls : List DmabufCall}
    (proper : ∀ call ∈ calls, call.RegistersProper) :
    (gd.afterAll calls).Coherent := by
  induction calls generalizing gd with
  | nil => exact coherent
  | cons call rest ih =>
    rw [List.forall_mem_cons] at proper
    exact ih (after_coherent coherent proper.1) proper.2

omit coherent in
theorem created_coherent (cudaDeviceId : Int) (cudaCtx : GpuContext) :
    (created cudaDeviceId cudaCtx).Coherent where
  apart := created_apart cudaDeviceId cudaCtx
  owned := fun _ present => absurd present List.not_mem_nil

omit coherent in
theorem error_of_map_error {α β : Type} {outcome : Except Refusal α} {convert : α → β}
    (refused : outcome.map convert = .error refusal) :
    outcome = .error refusal := by
  cases outcome with
  | error inner => exact congrArg _ (Except.error.inj refused)
  | ok value => cases refused

omit coherent in
theorem exists_of_map_ok {α β : Type} {outcome : Except Refusal α} {convert : α → β} {result : β}
    (ok : outcome.map convert = .ok result) :
    ∃ value, outcome = .ok value ∧ convert value = result := by
  cases outcome with
  | error inner => cases ok
  | ok value => exact ⟨value, rfl, Except.ok.inj ok⟩

theorem register_not_conflict {rdmaDomain : RdmaDomain} (proper : addr.toNat + len.toNat < 2 ^ 64)
    (refused : (gd.register rdmaDomain driver addr len).1 = .error refusal) :
    refusal.isConflict = false := by
  unfold register at refused
  split at refused
  · cases refused
    rfl
  · rename_i arguments
    have nonempty : 0 < len.toNat := Nat.pos_of_ne_zero fun zero =>
      arguments (.inr (UInt64.toNat_inj.mp zero))
    split at refused
    · rename_i failed
      cases refused
      exact getRdmaPd_not_conflict failed
    · rename_i pd _
      split at refused
      · rename_i failed
        cases refused
        exact getPtrDeviceId_not_conflict failed
      · split at refused
        · rename_i failed
          cases refused
          exact addRegion_not_conflict coherent.apart nonempty proper failed
        · rename_i region middle added
          obtain ⟨between, listed⟩ := addRegion_coherent coherent nonempty proper added
          refine (requireMr_coherent between driver listed pd le_rfl le_rfl).2 refusal ?_
          exact error_of_map_error refused

theorem translate_not_conflict {dstDomain : RdmaDomain}
    (refused : (gd.translate dstDomain driver addr len).1 = .error refusal) :
    refusal.isConflict = false := by
  unfold translate at refused
  split at refused
  · rename_i failed
    cases refused
    exact getRdmaPd_not_conflict failed
  · rename_i pd _
    split at refused
    · cases refused
      rfl
    · rename_i region found
      obtain ⟨listed, starts, ends⟩ := findRegion_eq_some coherent.apart found
      refine (requireMr_coherent coherent driver listed pd starts ends).2 refusal ?_
      exact error_of_map_error refused

theorem refusal_not_conflict (proper : call.RegistersProper)
    (refused : gd.refusal call = some refusal) :
    refusal.isConflict = false := by
  unfold GpuDmabufDomain.refusal at refused
  split at refused
  · split at refused
    · rename_i failed
      obtain rfl := Option.some.inj refused
      exact register_not_conflict coherent proper failed
    · cases refused
  · split at refused
    · rename_i failed
      obtain rfl := Option.some.inj refused
      exact translate_not_conflict coherent failed
    · cases refused
  · cases refused

end Coherent

/-- After every run whose registrations do not wrap the regions are disjoint, every cached MR
has the address, length and device of exactly one region, cached MRs of one device and one
protection domain are disjoint, and no further such call meets a conflict. -/
theorem gpuDmabuf_invariant (cudaDeviceId : Int) (cudaCtx : GpuContext) (calls : List DmabufCall)
    (proper : ∀ call ∈ calls, call.RegistersProper) :
    let gd := (created cudaDeviceId cudaCtx).afterAll calls
    (∀ region ∈ gd.regions.entries, ∀ other ∈ gd.regions.entries, region ≠ other →
      region.stop ≤ other.addr.toNat ∨ other.stop ≤ region.addr.toNat) ∧
    (∀ entry ∈ gd.mrCache.entries,
      ∃! region, region ∈ gd.regions.entries ∧ entry.BelongsTo region) ∧
    (∀ entry ∈ gd.mrCache.entries, ∀ other ∈ gd.mrCache.entries, entry ≠ other →
      entry.deviceId = other.deviceId → entry.pd = other.pd →
      entry.stop ≤ other.addr.toNat ∨ other.stop ≤ entry.addr.toNat) ∧
    ∀ call refusal, call.RegistersProper → gd.refusal call = some refusal →
      refusal ≠ .mrOverlaps ∧ refusal ≠ .regionConflict ∧ refusal ≠ .mrConflict := by
  intro gd
  have coherent : gd.Coherent := afterAll_coherent (created_coherent cudaDeviceId cudaCtx) proper
  refine ⟨coherent.apart.disjoint, ?_, ?_, ?_⟩
  · intro entry present
    obtain ⟨region, listed, belongs⟩ := coherent.owned entry present
    refine ⟨region, ⟨listed, belongs⟩, fun other owner => ?_⟩
    refine coherent.apart.eq_of_key owner.1 listed ?_
    rw [← owner.2.start_eq, belongs.start_eq]
  · intro entry present other listed different device pd
    obtain ⟨region, owner, belongs⟩ := coherent.owned entry present
    obtain ⟨region', owner', belongs'⟩ := coherent.owned other listed
    rw [belongs.start_eq, belongs.stop_eq, belongs'.start_eq, belongs'.stop_eq]
    refine coherent.apart.disjoint region owner region' owner' fun same => different ?_
    subst same
    exact mr_unique present listed belongs belongs' pd
  · intro call refusal properCall refused
    have fine := refusal_not_conflict coherent properCall refused
    refine ⟨?_, ?_, ?_⟩
    all_goals
      rintro rfl
      cases fine

/-- Two pages are registered, the first is translated, and the second is invalidated. -/
theorem twoPages_invariant :
    let gd := (created 0 none).afterAll
      [.register sampleRdmaDomain sampleDriver 4096 4096,
        .register sampleRdmaDomain sampleDriver 8192 4096,
        .translate sampleRdmaDomain sampleDriver 4100 16,
        .invalidate 8192 1]
    gd.mrCache.entries = [⟨4096, 4096, 0, 1, 1, 2⟩] ∧
    ∃! region, region ∈ gd.regions.entries ∧
      (⟨4096, 4096, 0, 1, 1, 2⟩ : GpuDmabufMr).BelongsTo region := by
  intro gd
  have proper : ∀ call ∈ [DmabufCall.register sampleRdmaDomain sampleDriver 4096 4096,
      .register sampleRdmaDomain sampleDriver 8192 4096,
      .translate sampleRdmaDomain sampleDriver 4100 16,
      .invalidate 8192 1], call.RegistersProper := by
    simp [DmabufCall.RegistersProper]
  have cached : gd.mrCache.entries = [⟨4096, 4096, 0, 1, 1, 2⟩] := rfl
  refine ⟨cached, (gpuDmabuf_invariant 0 none _ proper).2.1 _ ?_⟩
  exact cached ▸ List.mem_singleton.mpr rfl

end GpuDmabufDomain

end Mooncake.Spdk
