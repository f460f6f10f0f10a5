import Mooncake.Spdk.Registration

/-!
# Translation of a range

In a domain whose regions do not meet, both neighbour searches agree with a scan of their
tree.  So a translation finds the region around its range and an MR that covers it, or makes
one for the whole region.
-/

namespace Mooncake.Spdk

open Library List

/-- Every call of the driver and of the verbs library succeeds, and so does every allocation
of memory. -/
structure Driver.AllSucceed (driver : Driver) : Prop where
  memory : driver.callocRegion = true ∧ driver.callocMr = true ∧ driver.callocContext = true
  device : driver.pointerDevice.isSome = true ∧ driver.deviceGet = true
  context : driver.contextRetain.isSome = true ∧ driver.contextGetCurrent.isSome = true ∧
    driver.contextSetCurrent = true
  range : driver.addressRange.isSome = true
  handle : driver.dmabufHandle = true
  registers : ∃ keys, driver.regDmabufMr = .ok keys

def GpuDmabufRegion.Holds (region : GpuDmabufRegion) (addr len : UInt64) : Prop :=
  region.addr.toNat ≤ addr.toNat ∧ addr.toNat + len.toNat ≤ region.stop

def GpuDmabufMr.Covers (entry : GpuDmabufMr) (addr len : UInt64) : Prop :=
  entry.addr.toNat ≤ addr.toNat ∧ addr.toNat + len.toNat ≤ entry.stop

/-- The end of an MR, in the order of the cache. -/
def GpuDmabufMr.stopKey (entry : GpuDmabufMr) : MrKey :=
  toLex (entry.deviceId, toLex (entry.pd, entry.stop))

/-- Every destination without a protection domain is refused with `EINVAL`, except one that is
not an RDMA domain. -/
theorem errno_of_getRdmaPd_error {dstDomain : RdmaDomain} {refusal : Refusal}
    (refused : getRdmaPd dstDomain = .error refusal) :
    refusal.errno = if dstDomain.isRdma then .einval else .enotsup := by
  unfold getRdmaPd at refused
  cases rdma : dstDomain.isRdma with
  | false =>
    rw [rdma] at refused
    cases refused
    rfl
  | true =>
    rw [rdma] at refused
    have bad : refusal = .badRdmaContext := by
      simp only [Bool.not_true, Bool.false_eq_true, if_false] at refused
      split at refused
      · exact (Except.error.inj refused).symm
      · split at refused
        · exact (Except.error.inj refused).symm
        · split at refused
          · exact (Except.error.inj refused).symm
          · cases refused
    rw [bad]
    rfl

theorem isRdma_of_getRdmaPd_ok {dstDomain : RdmaDomain} {pd : Nat}
    (accepted : getRdmaPd dstDomain = .ok pd) : dstDomain.isRdma = true := by
  by_contra other
  rw [getRdmaPd, if_pos (by simpa using other)] at accepted
  cases accepted

namespace GpuDmabufDomain

/-- The regions end within the address space and do not meet, and every cached MR has the
range of a region. -/
structure Tidy (gd : GpuDmabufDomain) : Prop where
  proper : ∀ region ∈ gd.regions.entries, region.stop < 2 ^ 64
  disjoint : ∀ region ∈ gd.regions.entries, ∀ other ∈ gd.regions.entries, region ≠ other →
    region.stop ≤ other.addr.toNat ∨ other.stop ≤ region.addr.toNat
  owned : ∀ entry ∈ gd.mrCache.entries, ∃ region ∈ gd.regions.entries,
    entry.addr = region.addr ∧ entry.len = region.len

theorem Coherent.tidy {gd : GpuDmabufDomain} (coherent : gd.Coherent) : gd.Tidy where
  proper := fun region present => (coherent.apart.proper region present).2
  disjoint := coherent.apart.disjoint
  owned := by
    intro entry present
    obtain ⟨region, listed, belongs⟩ := coherent.owned entry present
    exact ⟨region, listed, belongs.addr, belongs.len⟩

namespace Tidy

variable {gd : GpuDmabufDomain} (tidy : gd.Tidy)

include tidy

variable {region : GpuDmabufRegion} {addr len : UInt64}

theorem eq_of_byte {other : GpuDmabufRegion} (present : region ∈ gd.regions.entries)
    (listed : other ∈ gd.regions.entries) {byte : Nat} (starts : region.addr.toNat ≤ byte)
    (ends : byte < region.stop) (starts' : other.addr.toNat ≤ byte) (ends' : byte < other.stop) :
    region = other := by
  by_contra different
  rcases tidy.disjoint region present other listed different with before | after <;> omega

theorem mr_proper {entry : GpuDmabufMr} (present : entry ∈ gd.mrCache.entries) :
    entry.stop < 2 ^ 64 := by
  obtain ⟨region, listed, addr, len⟩ := tidy.owned entry present
  rw [GpuDmabufMr.stop, addr, len]
  exact tidy.proper region listed

theorem contains_iff (present : region ∈ gd.regions.entries) :
    region.contains addr len = true ↔ region.Holds addr len :=
  GpuDmabufRegion.contains_iff (tidy.proper region present)

theorem covers_iff {entry : GpuDmabufMr} (present : entry ∈ gd.mrCache.entries) :
    entry.contains addr len = true ↔ entry.Covers addr len :=
  rangeContains_iff (tidy.mr_proper present)

theorem mr_disjoint {entry other : GpuDmabufMr} (present : entry ∈ gd.mrCache.entries)
    (listed : other ∈ gd.mrCache.entries) (different : entry ≠ other)
    (device : entry.deviceId = other.deviceId) (pd : entry.pd = other.pd) :
    entry.stop ≤ other.addr.toNat ∨ other.stop ≤ entry.addr.toNat := by
  obtain ⟨region, owner, addr, len⟩ := tidy.owned entry present
  obtain ⟨region', owner', addr', len'⟩ := tidy.owned other listed
  rw [GpuDmabufMr.stop, GpuDmabufMr.stop, addr, len, addr', len']
  refine tidy.disjoint region owner region' owner' fun same => different ?_
  refine OrderedTree.key_injective present listed ?_
  rw [GpuDmabufMr.key, GpuDmabufMr.key, device, pd, addr, addr', same]

/-! ## The searches -/

theorem regions_ranges : gd.regions.Ranges GpuDmabufRegion.stop where
  ordered := fun _ _ => Nat.le_add_right _ _
  apart := tidy.disjoint

/-- `find_region` agrees with a scan of all regions. -/
theorem findRegion_eq_find? (nonempty : 0 < len.toNat) :
    gd.findRegion addr len = gd.regions.entries.find? fun region => region.contains addr len := by
  refine tidy.regions_ranges.search_eq_find? fun region present covers => ?_
  obtain ⟨starts, ends⟩ := (tidy.contains_iff present).mp covers
  exact ⟨starts, by omega⟩

theorem mrs_ranges : gd.mrCache.Ranges GpuDmabufMr.stopKey where
  ordered := by
    intro entry _
    simp only [GpuDmabufMr.key, mrKey, GpuDmabufMr.stopKey, Prod.Lex.toLex_le_toLex]
    exact .inr ⟨trivial, .inr ⟨trivial, Nat.le_add_right _ _⟩⟩
  apart := by
    intro entry present other listed different
    simp only [GpuDmabufMr.key, mrKey, GpuDmabufMr.stopKey, Prod.Lex.toLex_le_toLex]
    rcases lt_trichotomy entry.deviceId other.deviceId with below | device | above
    · exact .inl (.inl below)
    · rcases lt_trichotomy entry.pd other.pd with below | pd | above
      · exact .inl (.inr ⟨device, .inl below⟩)
      · exact (tidy.mr_disjoint present listed different device pd).imp
          (fun before => .inr ⟨device, .inr ⟨pd, before⟩⟩)
          fun after => .inr ⟨device.symm, .inr ⟨pd.symm, after⟩⟩
      · exact .inr (.inr ⟨device.symm, .inl above⟩)
    · exact .inr (.inl above)

theorem findMr_eq_find? (deviceId : Int) (pd : Nat) (nonempty : 0 < len.toNat) :
    gd.findMr deviceId pd addr len = gd.mrCache.entries.find? fun entry =>
      decide (entry.deviceId = deviceId) && decide (entry.pd = pd) &&
        entry.contains addr len := by
  refine tidy.mrs_ranges.search_eq_find? fun entry present passed => ?_
  simp only [Bool.and_eq_true, decide_eq_true_eq] at passed
  obtain ⟨⟨device, samePd⟩, covers⟩ := passed
  obtain ⟨starts, ends⟩ := (tidy.covers_iff present).mp covers
  simp only [GpuDmabufMr.key, mrKey, GpuDmabufMr.stopKey, Prod.Lex.toLex_le_toLex,
    Prod.Lex.toLex_lt_toLex]
  exact ⟨.inr ⟨device, .inr ⟨samePd, starts⟩⟩,
    .inr ⟨device.symm, .inr ⟨samePd.symm, by omega⟩⟩⟩

theorem holds_of_findRegion (found : gd.findRegion addr len = some region) :
    region ∈ gd.regions.entries ∧ region.Holds addr len := by
  obtain ⟨listed, covers⟩ := OrderedTree.search_eq_some found
  exact ⟨listed, (tidy.contains_iff listed).mp covers⟩

section Inside

variable (listed : region ∈ gd.regions.entries) (nonempty : 0 < len.toNat)
  (holds : region.Holds addr len)

include listed nonempty holds

theorem findRegion_of_holds : gd.findRegion addr len = some region := by
  rw [tidy.findRegion_eq_find? nonempty]
  cases found : gd.regions.entries.find? fun region => region.contains addr len with
  | none =>
    exact absurd ((tidy.contains_iff listed).mpr holds)
      (find?_eq_none.mp found region listed)
  | some other =>
    have present := mem_of_find?_eq_some found
    have contains : other.contains addr len = true := by simpa using find?_some found
    obtain ⟨starts, ends⟩ := (tidy.contains_iff present).mp contains
    obtain ⟨starts', ends'⟩ := holds
    rw [tidy.eq_of_byte present listed starts (by omega) starts' (by omega)]

theorem owner_of_covers {entry : GpuDmabufMr} (present : entry ∈ gd.mrCache.entries)
    (covers : entry.Covers addr len) : entry.addr = region.addr ∧ entry.len = region.len := by
  obtain ⟨other, owner, sameAddr, sameLen⟩ := tidy.owned entry present
  obtain ⟨starts, ends⟩ := covers
  obtain ⟨starts', ends'⟩ := holds
  rw [GpuDmabufMr.stop, sameAddr, sameLen] at ends
  rw [sameAddr] at starts
  have same : other = region := tidy.eq_of_byte owner listed starts
    (by rw [GpuDmabufRegion.stop]; omega) starts' (by omega)
  rw [sameAddr, sameLen, same]
  exact ⟨rfl, rfl⟩

/-- Where no MR is found inside the region, none of the device and the protection domain has a
byte of the region. -/
theorem not_byte_of_missing {pd : Nat}
    (missing : gd.findMr region.deviceId pd addr len = none) {entry : GpuDmabufMr}
    (present : entry ∈ gd.mrCache.entries) (device : entry.deviceId = region.deviceId)
    (samePd : entry.pd = pd) {byte : Nat} (low : entry.addr.toNat ≤ byte)
    (high : byte < entry.stop) (low' : region.addr.toNat ≤ byte) : ¬ byte < region.stop := by
  intro high'
  obtain ⟨starts, ends⟩ := holds
  obtain ⟨other, owner, sameAddr, sameLen⟩ := tidy.owned entry present
  rw [GpuDmabufMr.stop, sameAddr, sameLen] at high
  rw [sameAddr] at low
  obtain rfl := (tidy.eq_of_byte owner listed low high low' high').symm
  rw [tidy.findMr_eq_find? region.deviceId pd nonempty, find?_eq_none] at missing
  refine missing entry present ?_
  have covers : entry.contains addr len = true := (tidy.covers_iff present).mpr
    ⟨by rw [sameAddr]; exact starts, by rw [GpuDmabufMr.stop, sameAddr, sameLen]; exact ends⟩
  simp [device, samePd, covers]

/-- Where no MR is found inside the region, there is room for one. -/
theorem hasRoom_of_missing {pd : Nat}
    (missing : gd.findMr region.deviceId pd addr len = none) :
    gd.HasRoom region.deviceId pd region.addr region.len := by
  have apart := @not_byte_of_missing _ tidy _ _ _ listed nonempty holds _ missing
  obtain ⟨starts, ends⟩ := holds
  refine ⟨?_, fun entry present same => ?_⟩
  · cases found : gd.findOverlappingMr region.deviceId pd region.addr region.len with
    | none => rfl
    | some entry =>
      obtain ⟨present, passed⟩ := OrderedTree.search_eq_some found
      simp only [Bool.and_eq_true, decide_eq_true_eq] at passed
      obtain ⟨⟨device, samePd⟩, overlaps⟩ := passed
      obtain ⟨-, -, size, left, right⟩ := (rangeOverlaps_iff (tidy.mr_proper present)).mp overlaps
      refine absurd ?_ (apart present device samePd (Nat.le_max_left entry.addr.toNat
        region.addr.toNat) ?_ (Nat.le_max_right _ _))
      · rw [GpuDmabufRegion.stop] at ends ⊢
        omega
      · rw [GpuDmabufMr.stop]
        omega
  · obtain ⟨device, samePd, start⟩ := mrKey_inj same
    obtain ⟨other, owner, sameAddr, sameLen⟩ := tidy.owned entry present
    have equal : other = region := OrderedTree.key_injective owner listed (by
      rw [GpuDmabufRegion.key, ← sameAddr, start]
      rfl)
    refine absurd (?_ : region.addr.toNat < region.stop)
      (apart present device samePd (by rw [start]) ?_ (Nat.le_refl _))
    · omega
    · rw [GpuDmabufMr.stop, sameAddr, sameLen, equal]
      rw [GpuDmabufRegion.stop] at ends
      omega

theorem translate_of_holds {dstDomain : RdmaDomain} {pd : Nat}
    (domain : getRdmaPd dstDomain = .ok pd) {driver : Driver} :
    gd.translate dstDomain driver addr len =
      ((gd.requireMr driver region pd addr len).1.map fun entry =>
          ⟨addr, len, entry.lkey, entry.rkey⟩,
        (gd.requireMr driver region pd addr len).2) := by
  rw [translate, domain]
  dsimp only
  rw [tidy.findRegion_of_holds listed nonempty holds]

/-- The MR for a range inside the region is found by a scan, or else made by the driver. -/
theorem requireMr_of_holds {driver : Driver} {pd : Nat} :
    (gd.requireMr driver region pd addr len).1 =
      match gd.mrCache.entries.find? fun entry => decide (entry.deviceId = region.deviceId) &&
        decide (entry.pd = pd) && entry.contains addr len with
      | some entry => .ok entry
      | none => gd.freshMr driver region.deviceId pd region.addr region.len := by
  rw [← tidy.findMr_eq_find? region.deviceId pd nonempty, requireMr]
  cases missing : gd.findMr region.deviceId pd addr len with
  | some entry => rfl
  | none =>
    exact (registerMr_of_room (tidy.hasRoom_of_missing listed nonempty holds missing)).1

/-- The MR is cached, belongs to the device and the domain, and covers the range. -/
theorem requireMr_sound {driver : Driver} {pd : Nat} {entry : GpuDmabufMr}
    (required : (gd.requireMr driver region pd addr len).1 = .ok entry) :
    entry ∈ (gd.requireMr driver region pd addr len).2.mrCache.entries ∧ entry.pd = pd ∧
      entry.deviceId = region.deviceId ∧ entry.Covers addr len := by
  unfold requireMr at required ⊢
  cases found : gd.findMr region.deviceId pd addr len with
  | some cached =>
    rw [found] at required
    obtain rfl := Except.ok.inj required
    obtain ⟨present, passed⟩ := OrderedTree.search_eq_some found
    simp only [Bool.and_eq_true, decide_eq_true_eq] at passed
    exact ⟨present, passed.1.2, passed.1.1, (tidy.covers_iff present).mp passed.2⟩
  | none =>
    rw [found] at required
    obtain ⟨same, cached⟩ := @registerMr_of_room gd driver region.deviceId pd region.addr
      region.len (tidy.hasRoom_of_missing listed nonempty holds found)
    have made := same.symm.trans required
    refine ⟨cached entry made, ?_⟩
    obtain ⟨sameAddr, sameLen, device, samePd⟩ := freshMr_spec made
    refine ⟨samePd, device, ?_⟩
    rw [GpuDmabufMr.Covers, GpuDmabufMr.stop, sameAddr, sameLen]
    exact holds

end Inside

section Translation

variable {dstDomain : RdmaDomain} {driver : Driver}

theorem translate_sound (nonempty : 0 < len.toNat) {result : Translation}
    (ok : (gd.translate dstDomain driver addr len).1 = .ok result) :
    ∃ pd, getRdmaPd dstDomain = .ok pd ∧ ∃ region ∈ gd.regions.entries,
      region.Holds addr len ∧
        ∃ entry ∈ (gd.translate dstDomain driver addr len).2.mrCache.entries, entry.pd = pd ∧
          entry.deviceId = region.deviceId ∧ entry.Covers addr len ∧
          result = ⟨addr, len, entry.lkey, entry.rkey⟩ := by
  obtain ⟨pd, domain⟩ : ∃ pd, getRdmaPd dstDomain = .ok pd := by
    cases domain : getRdmaPd dstDomain with
    | error refusal => simp [translate, domain] at ok
    | ok pd => exact ⟨pd, rfl⟩
  obtain ⟨region, found⟩ : ∃ region, gd.findRegion addr len = some region := by
    cases found : gd.findRegion addr len with
    | none => simp [translate, domain, found] at ok
    | some region => exact ⟨region, rfl⟩
  obtain ⟨listed, holds⟩ := tidy.holds_of_findRegion found
  rw [tidy.translate_of_holds listed nonempty holds domain] at ok ⊢
  obtain ⟨entry, required, rfl⟩ := exists_of_map_ok ok
  obtain ⟨cached, samePd, device, covers⟩ := tidy.requireMr_sound listed nonempty holds required
  exact ⟨pd, domain, region, listed, holds, entry, cached, samePd, device, covers, rfl⟩

theorem translate_of_outside (outside : ∀ region ∈ gd.regions.entries, ¬ region.Holds addr len) :
    ∃ refusal, gd.translate dstDomain driver addr len = (.error refusal, gd) ∧
      refusal.errno = if dstDomain.isRdma then .einval else .enotsup := by
  have missing : gd.findRegion addr len = none := by
    cases found : gd.findRegion addr len with
    | none => rfl
    | some region =>
      obtain ⟨listed, holds⟩ := tidy.holds_of_findRegion found
      exact absurd holds (outside region listed)
  cases domain : getRdmaPd dstDomain with
  | error refusal =>
    exact ⟨refusal, by simp [translate, domain], errno_of_getRdmaPd_error domain⟩
  | ok pd =>
    refine ⟨.regionNotFound, by simp [translate, domain, missing], ?_⟩
    rw [isRdma_of_getRdmaPd_ok domain]
    rfl

theorem translate_ok_iff (nonempty : 0 < len.toNat) {pd : Nat}
    (domain : getRdmaPd dstDomain = .ok pd) (listed : region ∈ gd.regions.entries)
    (holds : region.Holds addr len) :
    (∃ result, (gd.translate dstDomain driver addr len).1 = .ok result) ↔
      (∃ entry ∈ gd.mrCache.entries, entry.deviceId = region.deviceId ∧ entry.pd = pd ∧
        entry.Covers addr len) ∨
      gd.Allows driver region.deviceId region.addr region.len := by
  rw [tidy.translate_of_holds listed nonempty holds domain]
  simp only [tidy.requireMr_of_holds listed nonempty holds]
  cases found : gd.mrCache.entries.find? fun entry => decide (entry.deviceId = region.deviceId) &&
      decide (entry.pd = pd) && entry.contains addr len with
  | some entry =>
    have present := mem_of_find?_eq_some found
    have passed := find?_some found
    simp only [Bool.and_eq_true, decide_eq_true_eq] at passed
    exact iff_of_true ⟨_, rfl⟩ (.inl ⟨entry, present, passed.1.1, passed.1.2,
      (tidy.covers_iff present).mp passed.2⟩)
  | none =>
    rw [← @freshMr_ok_iff gd driver region.deviceId pd]
    constructor
    · rintro ⟨result, ok⟩
      obtain ⟨entry, made, -⟩ := exists_of_map_ok ok
      exact .inr ⟨entry, made⟩
    · rintro (⟨entry, present, device, samePd, covers⟩ | ⟨entry, made⟩)
      · refine absurd ?_ (find?_eq_none.mp found entry present)
        simp [device, samePd, (tidy.covers_iff present).mpr covers]
      · exact ⟨_, by rw [made]; rfl⟩

end Translation

end Tidy

/-- A translation returns 0 only with the keys of a cached MR of the destination's protection
domain and the region's device that covers the range.  If no region holds the range it changes
nothing and fails, with `EINVAL` for every RDMA destination and with `ENOTSUP` for another.  If
a region does, it returns 0 exactly when such an MR is cached or the driver allows one for the
region. -/
theorem translate_sound_complete (gd : GpuDmabufDomain) (tidy : gd.Tidy) (dstDomain : RdmaDomain)
    (driver : Driver) (addr len : UInt64) (nonempty : 0 < len.toNat) :
    let outcome := gd.translate dstDomain driver addr len
    (∀ result, outcome.1 = .ok result →
      ∃ pd, getRdmaPd dstDomain = .ok pd ∧ ∃ region ∈ gd.regions.entries,
        region.Holds addr len ∧ ∃ entry ∈ outcome.2.mrCache.entries, entry.pd = pd ∧
          entry.deviceId = region.deviceId ∧ entry.Covers addr len ∧
          result = ⟨addr, len, entry.lkey, entry.rkey⟩) ∧
    ((∀ region ∈ gd.regions.entries, ¬ region.Holds addr len) →
      ∃ refusal, outcome = (.error refusal, gd) ∧
        refusal.errno = if dstDomain.isRdma then .einval else .enotsup) ∧
    (∀ pd, getRdmaPd dstDomain = .ok pd → ∀ region ∈ gd.regions.entries,
      region.Holds addr len →
        ((∃ result, outcome.1 = .ok result) ↔
          (∃ entry ∈ gd.mrCache.entries, entry.deviceId = region.deviceId ∧ entry.pd = pd ∧
            entry.Covers addr len) ∨
          gd.Allows driver region.deviceId region.addr region.len)) ∧
    gd.findRegion addr len = gd.regions.entries.find? (fun region => region.contains addr len) ∧
    ∀ deviceId pd, gd.findMr deviceId pd addr len = gd.mrCache.entries.find? fun entry =>
      decide (entry.deviceId = deviceId) && decide (entry.pd = pd) &&
        entry.contains addr len := by
  exact ⟨fun _ => tidy.translate_sound nonempty, tidy.translate_of_outside,
    fun _ domain _ => tidy.translate_ok_iff nonempty domain,
    tidy.findRegion_eq_find? nonempty,
    fun deviceId pd => tidy.findMr_eq_find? deviceId pd nonempty⟩

/-- The MR of a registered page is used for a range inside the page. -/
theorem onePage_translated :
    let gd := ((created 0 none).register sampleRdmaDomain sampleDriver 4096 4096).2
    ∃ pd, getRdmaPd sampleRdmaDomain = .ok pd ∧ ∃ region ∈ gd.regions.entries,
      region.Holds 4100 16 ∧
      ∃ entry ∈ (gd.translate sampleRdmaDomain sampleDriver 4100 16).2.mrCache.entries,
        entry.pd = pd ∧ entry.deviceId = region.deviceId ∧ entry.Covers 4100 16 ∧
        (⟨4100, 16, 1, 2⟩ : Translation) = ⟨4100, 16, entry.lkey, entry.rkey⟩ := by
  intro gd
  have coherent : gd.Coherent := @register_coherent 4096 _ 4096 (created_coherent 0 none)
    sampleRdmaDomain sampleDriver (by decide)
  exact (translate_sound_complete gd coherent.tidy sampleRdmaDomain sampleDriver 4100 16
    (by decide)).1 _ rfl

/-- A range in no region is refused with `ENOTSUP` for a destination that is not an RDMA domain.
A region that was left behind reaches over the end of its allocation: no range inside it is
translated, although every call of the driver succeeds. -/
theorem notRdma_and_spanningRegion_refused :
    ((created 0 none).Tidy ∧ (created 0 none).regions.entries = [] ∧
      ((created 0 none).translate ⟨false, none⟩ sampleDriver 4096 16).1 = .error .notRdma ∧
      Refusal.notRdma.errno ≠ .einval) ∧
    let gd := ((created 0 none).register sampleRdmaDomain sampleDriver 4096 16384).2
    gd.Tidy ∧ gd.regions.entries = [⟨4096, 16384, 0⟩] ∧
      (⟨4096, 16384, 0⟩ : GpuDmabufRegion).Holds 4096 16 ∧ sampleDriver.AllSucceed ∧
      (gd.translate sampleRdmaDomain sampleDriver 4096 16).1 = .error .outsideAllocation := by
  refine ⟨⟨(created_coherent 0 none).tidy, rfl, rfl, by decide⟩, ?_⟩
  intro gd
  have coherent : gd.Coherent := @register_coherent 4096 _ 16384 (created_coherent 0 none)
    sampleRdmaDomain sampleDriver (by decide)
  have succeeds : sampleDriver.AllSucceed :=
    ⟨⟨rfl, rfl, rfl⟩, ⟨rfl, rfl⟩, ⟨rfl, rfl, rfl⟩, rfl, rfl, ⟨_, rfl⟩⟩
  exact ⟨coherent.tidy, rfl, ⟨by decide, by decide⟩, succeeds, rfl⟩

end GpuDmabufDomain

end Mooncake.Spdk
