import Mooncake.Spdk.GpuDmabuf

/-!
# Registered regions stay translatable

A search looks only at the two neighbours of an address.  That is enough as long as the
regions are proper ranges that do not meet.  A range whose end wraps around is added
without being seen as overlapping, contains nothing, and hides the region around it from
the search, also when the registration that added it fails.
-/

namespace Mooncake.Spdk

open Library List

/-! ## Ranges as numbers -/

variable {outerAddr outerLen : UInt64}

theorem rangeContains_iff {addr len : UInt64} (proper : outerAddr.toNat + outerLen.toNat < 2 ^ 64) :
    rangeContains outerAddr outerLen addr len = true ↔
      outerAddr.toNat ≤ addr.toNat ∧
        addr.toNat + len.toNat ≤ outerAddr.toNat + outerLen.toNat := by
  have small := len.toNat_lt
  have start := addr.toNat_lt
  simp only [rangeContains, Bool.and_eq_true, decide_eq_true_eq, UInt64.le_iff_toNat_le,
    UInt64.toNat_add]
  omega

theorem rangeOverlaps_iff {addr len : UInt64} (proper : outerAddr.toNat + outerLen.toNat < 2 ^ 64) :
    rangeOverlaps outerAddr outerLen addr len = true ↔
      addr.toNat + len.toNat < 2 ^ 64 ∧ 0 < len.toNat ∧ 0 < outerLen.toNat ∧
        addr.toNat < outerAddr.toNat + outerLen.toNat ∧
        outerAddr.toNat < addr.toNat + len.toNat := by
  have small := len.toNat_lt
  have start := addr.toNat_lt
  simp only [rangeOverlaps, Bool.and_eq_true, decide_eq_true_eq, UInt64.lt_iff_toNat_lt,
    UInt64.toNat_add]
  omega

namespace GpuDmabufRegion

/-- The end of the range, which may lie behind the address space. -/
def stop (region : GpuDmabufRegion) : Nat :=
  region.addr.toNat + region.len.toNat

variable {region : GpuDmabufRegion}

theorem contains_iff (proper : region.stop < 2 ^ 64) {addr len : UInt64} :
    region.contains addr len = true ↔
      region.key ≤ addr.toNat ∧ addr.toNat + len.toNat ≤ region.stop :=
  rangeContains_iff proper

theorem overlaps_iff (proper : region.stop < 2 ^ 64) {addr len : UInt64} :
    region.overlaps addr len = true ↔
      addr.toNat + len.toNat < 2 ^ 64 ∧ 0 < len.toNat ∧ 0 < region.len.toNat ∧
        addr.toNat < region.stop ∧ region.key < addr.toNat + len.toNat :=
  rangeOverlaps_iff proper

end GpuDmabufRegion

/-- The regions are proper ranges of the address space, no two of which meet. -/
structure Apart (regions : List GpuDmabufRegion) : Prop where
  proper : ∀ region ∈ regions, 0 < region.len.toNat ∧ region.stop < 2 ^ 64
  disjoint : ∀ region ∈ regions, ∀ other ∈ regions, region ≠ other →
    region.stop ≤ other.key ∨ other.stop ≤ region.key

namespace Apart

variable {regions : List GpuDmabufRegion} (apart : Apart regions)

include apart

variable {region other : GpuDmabufRegion}

theorem eq_of_meets (present : region ∈ regions) (listed : other ∈ regions)
    (left : region.key < other.stop) (right : other.key < region.stop) :
    region = other := by
  by_contra different
  rcases apart.disjoint region present other listed different with before | after
  · omega
  · omega

theorem eq_of_key (present : region ∈ regions) (listed : other ∈ regions)
    (same : region.key = other.key) : region = other := by
  have nonempty := (apart.proper region present).1
  have nonempty' := (apart.proper other listed).1
  refine apart.eq_of_meets present listed ?_ ?_
  · simp only [GpuDmabufRegion.stop, GpuDmabufRegion.key] at *
    omega
  · simp only [GpuDmabufRegion.stop, GpuDmabufRegion.key] at *
    omega

theorem sublist {fewer : List GpuDmabufRegion} (kept : ∀ region ∈ fewer, region ∈ regions) :
    Apart fewer where
  proper := fun region present => apart.proper region (kept region present)
  disjoint := fun region present other listed =>
    apart.disjoint region (kept region present) other (kept other listed)

end Apart

/-! ## The searches -/

namespace GpuDmabufDomain

section Searches

variable {gd : GpuDmabufDomain} (apart : Apart gd.regions.entries)

include apart

variable {region : GpuDmabufRegion}

variable {addr len : UInt64}

theorem findRegion_complete (present : region ∈ gd.regions.entries)
    (starts : region.key ≤ addr.toNat) (ends : addr.toNat + len.toNat ≤ region.stop) :
    ∃ found, gd.findRegion addr len = some found := by
  have proper := apart.proper region present
  have covers : region.contains addr len = true :=
    (GpuDmabufRegion.contains_iff proper.2).mpr ⟨starts, ends⟩
  refine OrderedTree.search_isSome present ?_ ?_
  · intro above upper listed higher under
    have same : upper = region := apart.eq_of_key listed present (by omega)
    rw [same]
    exact covers
  · intro below
    refine ⟨covers, fun lower listed higher under => ?_⟩
    have nonempty := apart.proper lower listed
    refine (apart.eq_of_meets present listed ?_ (by omega)).symm
    simp only [GpuDmabufRegion.stop, GpuDmabufRegion.key] at *
    omega

theorem findRegion_eq_some (found : gd.findRegion addr len = some region) :
    region ∈ gd.regions.entries ∧ region.key ≤ addr.toNat ∧
      addr.toNat + len.toNat ≤ region.stop := by
  obtain ⟨present, covers⟩ := OrderedTree.search_eq_some found
  exact ⟨present, (GpuDmabufRegion.contains_iff (apart.proper region present).2).mp covers⟩

theorem findOverlappingRegion_complete (present : region ∈ gd.regions.entries)
    (proper : addr.toNat + len.toNat < 2 ^ 64) (nonempty : 0 < len.toNat)
    (left : addr.toNat < region.stop) (right : region.key < addr.toNat + len.toNat) :
    ∃ found, gd.findOverlappingRegion addr len = some found := by
  have meets : ∀ other ∈ gd.regions.entries, addr.toNat < other.stop →
      other.key < addr.toNat + len.toNat → other.overlaps addr len = true := by
    intro other listed starts ends
    have range := apart.proper other listed
    exact (GpuDmabufRegion.overlaps_iff range.2).mpr ⟨proper, nonempty, range.1, starts, ends⟩
  refine OrderedTree.search_isSome present ?_ ?_
  · intro above upper listed higher under
    have range := apart.proper upper listed
    refine meets upper listed ?_ (by omega)
    simp only [GpuDmabufRegion.stop, GpuDmabufRegion.key] at *
    omega
  · intro below
    refine ⟨meets region present left right, fun lower listed higher under => ?_⟩
    have range := apart.proper lower listed
    refine (apart.eq_of_meets present listed ?_ (by omega)).symm
    simp only [GpuDmabufRegion.stop, GpuDmabufRegion.key] at *
    omega

end Searches

/-! ## What a call does to the regions -/

variable {gd next : GpuDmabufDomain} {driver : Driver} {addr len : UInt64}
  {region : GpuDmabufRegion}

variable {deviceId : Int}

theorem addRegion_eq_ok (added : gd.addRegion driver addr len deviceId = .ok (region, next)) :
    gd.findRegion addr len = some region ∧ region.deviceId = deviceId ∧ next = gd ∨
      gd.findOverlappingRegion addr len = none ∧ region = ⟨addr, len, deviceId⟩ ∧
        ∃ regions, gd.regions.insert region = some regions ∧
          next = { gd with regions := regions } := by
  unfold addRegion at added
  split at added
  · rename_i found located
    split at added
    · cases added
    · rename_i device
      cases added
      exact .inl ⟨located, not_not.mp device, rfl⟩
  · split at added
    · cases added
    · rename_i free
      split at added
      · cases added
      · split at added
        · cases added
        · rename_i regions inserted
          cases added
          exact .inr ⟨free, rfl, regions, inserted, rfl⟩

theorem getCudaCtx_regions {cudaCtx : GpuContext}
    (retained : gd.getCudaCtx driver deviceId = .ok (cudaCtx, next)) :
    next.regions = gd.regions ∧ next.mrCache = gd.mrCache := by
  unfold getCudaCtx at retained
  split at retained
  · cases retained
    exact ⟨rfl, rfl⟩
  · split at retained
    · cases retained
    · split at retained
      · cases retained
        exact ⟨rfl, rfl⟩
      · split at retained
        · cases retained
        · split at retained
          · cases retained
          · split at retained
            · cases retained
            · cases retained
              exact ⟨rfl, rfl⟩

/-- `gpu_dmabuf_register_mr` changes at most the cache: by the new MR, when it succeeds. -/
theorem registerMr_cases (gd : GpuDmabufDomain) (driver : Driver) (deviceId : Int) (pd : Nat)
    (addr len : UInt64) :
    (gd.registerMr driver deviceId pd addr len).2.regions = gd.regions ∧
      ((gd.registerMr driver deviceId pd addr len).2.mrCache = gd.mrCache ∨
        ∃ lkey rkey, gd.mrCache.insert ⟨addr, len, deviceId, pd, lkey, rkey⟩ =
          some (gd.registerMr driver deviceId pd addr len).2.mrCache) := by
  unfold registerMr
  split
  · exact ⟨rfl, .inl rfl⟩
  · split
    · exact ⟨rfl, .inl rfl⟩
    · split
      · exact ⟨rfl, .inl rfl⟩
      · rename_i cudaCtx next retained
        obtain ⟨regions, mrCache⟩ := getCudaCtx_regions retained
        split
        · exact ⟨regions, .inl mrCache⟩
        · rename_i lkey rkey exported
          split
          · exact ⟨regions, .inl mrCache⟩
          · rename_i extended inserted
            rw [mrCache] at inserted
            exact ⟨regions, .inr ⟨lkey, rkey, inserted⟩⟩

theorem requireMr_regions (gd : GpuDmabufDomain) {pd : Nat} :
    (gd.requireMr driver region pd addr len).2.regions = gd.regions := by
  unfold requireMr
  split
  · rfl
  · exact (registerMr_cases gd driver region.deviceId pd region.addr region.len).1

/-- A call that registers is refused without an effect, or adds its region and then requires
its MR. -/
theorem register_cases (gd : GpuDmabufDomain) (rdmaDomain : RdmaDomain) (driver : Driver)
    (addr len : UInt64) :
    (∃ refusal, gd.register rdmaDomain driver addr len = (.error refusal, gd)) ∨
      addr ≠ 0 ∧ 0 < len.toNat ∧ ∃ pd deviceId region middle,
        getRdmaPd rdmaDomain = .ok pd ∧ gd.getPtrDeviceId driver = .ok deviceId ∧
        gd.addRegion driver addr len deviceId = .ok (region, middle) ∧
        gd.register rdmaDomain driver addr len =
          ((middle.requireMr driver region pd region.addr region.len).1.map fun _ => region,
            (middle.requireMr driver region pd region.addr region.len).2) := by
  unfold register
  split
  · exact .inl ⟨_, rfl⟩
  · rename_i arguments
    split
    · exact .inl ⟨_, rfl⟩
    · rename_i pd domain
      split
      · exact .inl ⟨_, rfl⟩
      · rename_i deviceId device
        split
        · exact .inl ⟨_, rfl⟩
        · rename_i region middle added
          rw [not_or] at arguments
          refine .inr ⟨arguments.1, ?_, pd, deviceId, region, middle, domain, device, added, rfl⟩
          exact Nat.pos_of_ne_zero fun zero => arguments.2 (UInt64.toNat_inj.mp zero)

/-- The region of an added range holds the range, and adding keeps the regions apart. -/
theorem addRegion_apart (apart : Apart gd.regions.entries) (nonempty : 0 < len.toNat)
    (proper : addr.toNat + len.toNat < 2 ^ 64)
    (added : gd.addRegion driver addr len deviceId = .ok (region, next)) :
    Apart next.regions.entries ∧ (∀ other ∈ gd.regions.entries, other ∈ next.regions.entries) ∧
      region ∈ next.regions.entries ∧ region.key ≤ addr.toNat ∧
      addr.toNat + len.toNat ≤ region.stop := by
  rcases addRegion_eq_ok added with ⟨found, -, rfl⟩ | ⟨free, rfl, regions, inserted, rfl⟩
  · exact ⟨apart, fun _ present => present, findRegion_eq_some apart found⟩
  · have members : ∀ other, other ∈ regions.entries ↔
        other = ⟨addr, len, deviceId⟩ ∨ other ∈ gd.regions.entries :=
      fun other => OrderedTree.mem_insert inserted
    -- an old region that meets the new one would have been noticed
    have clear : ∀ other ∈ gd.regions.entries,
        other.stop ≤ addr.toNat ∨ addr.toNat + len.toNat ≤ other.key := by
      intro other present
      by_contra meets
      rw [not_or, not_le, not_le] at meets
      obtain ⟨found, noticed⟩ :=
        findOverlappingRegion_complete apart present proper nonempty meets.1 meets.2
      rw [free] at noticed
      cases noticed
    refine ⟨⟨?_, ?_⟩, fun other present => (members other).mpr (.inr present),
      (members _).mpr (.inl rfl), le_rfl, le_rfl⟩
    · intro other present
      rcases (members other).mp present with rfl | old
      · exact ⟨nonempty, proper⟩
      · exact apart.proper other old
    · intro first present second listed different
      rcases (members first).mp present with rfl | old
      · rcases (members second).mp listed with rfl | old'
        · exact absurd rfl different
        · exact (clear second old').symm
      · rcases (members second).mp listed with rfl | old'
        · exact clear first old
        · exact apart.disjoint first old second old' different

theorem register_apart (apart : Apart gd.regions.entries) (rdmaDomain : RdmaDomain)
    (driver : Driver) (proper : addr.toNat + len.toNat < 2 ^ 64) :
    Apart (gd.register rdmaDomain driver addr len).2.regions.entries ∧
      (∀ other ∈ gd.regions.entries,
        other ∈ (gd.register rdmaDomain driver addr len).2.regions.entries) ∧
      ∀ region, (gd.register rdmaDomain driver addr len).1 = .ok region →
        region ∈ (gd.register rdmaDomain driver addr len).2.regions.entries ∧
          region.key ≤ addr.toNat ∧ addr.toNat + len.toNat ≤ region.stop := by
  rcases register_cases gd rdmaDomain driver addr len with
    ⟨refusal, refused⟩ | ⟨-, nonempty, pd, deviceId, region, middle, -, -, added, registered⟩
  · rw [refused]
    exact ⟨apart, fun _ present => present, fun _ ok => by cases ok⟩
  · obtain ⟨kept, old, inside⟩ := addRegion_apart apart nonempty proper added
    rw [registered]
    simp only [requireMr_regions]
    refine ⟨kept, old, fun found ok => ?_⟩
    cases outcome : (middle.requireMr driver region pd region.addr region.len).1 with
    | error refusal =>
      rw [outcome] at ok
      cases ok
    | ok entry =>
      rw [outcome] at ok
      obtain rfl := Except.ok.inj ok
      exact inside

theorem translate_regions (gd : GpuDmabufDomain) (dstDomain : RdmaDomain) (driver : Driver)
    (addr len : UInt64) :
    (gd.translate dstDomain driver addr len).2.regions = gd.regions := by
  unfold translate
  split
  · rfl
  · split
    · rfl
    · exact requireMr_regions gd

theorem mem_invalidateRange :
    region ∈ (gd.invalidateRange addr len).regions.entries ↔
      region ∈ gd.regions.entries ∧ (addr = 0 ∨ len = 0 ∨ region.overlaps addr len = false) := by
  unfold invalidateRange
  split
  · rename_i ignored
    rcases ignored with zero | zero <;> simp [zero]
  · rename_i arguments
    rw [not_or] at arguments
    simp [arguments]

end GpuDmabufDomain

/-! ## Runs -/

/-- The range of a registration ends within the address space. -/
def DmabufCall.RegistersProper : DmabufCall → Prop
  | .register _ _ addr len => addr.toNat + len.toNat < 2 ^ 64
  | _ => True

/-- The call is no invalidation of a range that meets the region; an empty range meets none. -/
def DmabufCall.Spares (region : GpuDmabufRegion) : DmabufCall → Prop
  | .invalidate addr len =>
    ¬ (0 < len.toNat ∧ addr.toNat < region.stop ∧ region.key < addr.toNat + len.toNat)
  | _ => True

namespace GpuDmabufDomain

variable {gd : GpuDmabufDomain}

variable {call : DmabufCall} {region : GpuDmabufRegion} {calls : List DmabufCall}

theorem after_apart (apart : Apart gd.regions.entries) (proper : call.RegistersProper) :
    Apart (gd.after call).regions.entries := by
  cases call with
  | register rdmaDomain driver addr len =>
    exact (register_apart apart rdmaDomain driver proper).1
  | translate dstDomain driver addr len =>
    rw [after, translate_regions]
    exact apart
  | invalidate addr len =>
    exact apart.sublist fun region present => (mem_invalidateRange.mp present).1

/-- A region stays until a range that meets it is invalidated. -/
theorem mem_after (apart : Apart gd.regions.entries) (proper : call.RegistersProper)
    (spares : call.Spares region) (present : region ∈ gd.regions.entries) :
    region ∈ (gd.after call).regions.entries := by
  cases call with
  | register rdmaDomain driver addr len =>
    exact (register_apart apart rdmaDomain driver proper).2.1 region present
  | translate dstDomain driver addr len =>
    rw [after, translate_regions]
    exact present
  | invalidate addr len =>
    rcases Nat.eq_zero_or_pos len.toNat with empty | nonempty
    · exact mem_invalidateRange.mpr ⟨present, .inr (.inl (UInt64.toNat_inj.mp empty))⟩
    · refine mem_invalidateRange.mpr ⟨present, .inr (.inr ?_)⟩
      rw [Bool.eq_false_iff]
      intro meets
      obtain ⟨-, -, -, left, right⟩ :=
        (GpuDmabufRegion.overlaps_iff (apart.proper region present).2).mp meets
      exact spares ⟨nonempty, left, right⟩

theorem created_apart (cudaDeviceId : Int) (cudaCtx : GpuContext) :
    Apart (created cudaDeviceId cudaCtx).regions.entries where
  proper := fun _ present => absurd present not_mem_nil
  disjoint := fun _ present => absurd present not_mem_nil

theorem afterAll_apart (apart : Apart gd.regions.entries)
    (proper : ∀ call ∈ calls, call.RegistersProper) :
    Apart (gd.afterAll calls).regions.entries := by
  induction calls generalizing gd with
  | nil => exact apart
  | cons call rest ih =>
    rw [forall_mem_cons] at proper
    exact ih (after_apart apart proper.1) proper.2

theorem mem_afterAll (apart : Apart gd.regions.entries)
    (proper : ∀ call ∈ calls, call.RegistersProper) (spares : ∀ call ∈ calls, call.Spares region)
    (present : region ∈ gd.regions.entries) :
    region ∈ (gd.afterAll calls).regions.entries := by
  induction calls generalizing gd with
  | nil => exact present
  | cons call rest ih =>
    rw [forall_mem_cons] at proper spares
    exact ih (after_apart apart proper.1) proper.2 spares.2
      (mem_after apart proper.1 spares.1 present)

/-- Once a range is registered, every part of it is found until a range that meets its region
is invalidated. -/
def StaysTranslatable (gd : GpuDmabufDomain) (calls : List DmabufCall) : Prop :=
  ∀ front rdmaDomain driver addr len back region,
    calls = front ++ .register rdmaDomain driver addr len :: back →
    ((gd.afterAll front).register rdmaDomain driver addr len).1 = .ok region →
    (∀ call ∈ back, call.Spares region) →
    ∀ start size : UInt64, addr.toNat ≤ start.toNat →
      start.toNat + size.toNat ≤ addr.toNat + len.toNat →
      ∃ found, (gd.afterAll calls).findRegion start size = some found

/-- Registered memory stays translatable in every run whose registrations do not wrap. -/
theorem registered_staysTranslatable (cudaDeviceId : Int) (cudaCtx : GpuContext)
    (calls : List DmabufCall) (proper : ∀ call ∈ calls, call.RegistersProper) :
    (created cudaDeviceId cudaCtx).StaysTranslatable calls := by
  rintro front rdmaDomain driver addr len back region rfl registered spares start size starts ends
  rw [forall_mem_append, forall_mem_cons] at proper
  obtain ⟨properFront, properCall, properBack⟩ := proper
  have apart := afterAll_apart (created_apart cudaDeviceId cudaCtx) properFront
  obtain ⟨next, -, inside⟩ := register_apart apart rdmaDomain driver properCall
  obtain ⟨present, left, right⟩ := inside region registered
  have final := afterAll_apart next properBack
  have stays := mem_afterAll next properBack spares present
  have split : (created cudaDeviceId cudaCtx).afterAll
      (front ++ .register rdmaDomain driver addr len :: back) =
      (((created cudaDeviceId cudaCtx).afterAll front).register rdmaDomain driver addr
        len).2.afterAll back := by
    simp [afterAll, after]
  rw [split]
  exact findRegion_complete final stays (by omega) (by omega)

/-- An allocation of two pages on device 0, which everything accepts. -/
def sampleDriver : Driver where
  pointerDevice := some 0
  callocRegion := true
  callocMr := true
  callocContext := true
  deviceGet := true
  contextRetain := some none
  contextGetCurrent := some none
  contextSetCurrent := true
  addressRange := some (4096, 8192)
  dmabufHandle := true
  regDmabufMr := .ok (1, 2)

def sampleRdmaDomain : RdmaDomain :=
  ⟨true, some ⟨true, some 1⟩⟩

/-- The first page is still found after the second one was registered. -/
theorem firstPage_staysTranslatable :
    ∃ found, ((created 0 none).afterAll
      [.register sampleRdmaDomain sampleDriver 4096 4096,
        .register sampleRdmaDomain sampleDriver 8192 4096]).findRegion 6145 1 = some found := by
  have proper : ∀ call ∈ [DmabufCall.register sampleRdmaDomain sampleDriver 4096 4096,
      DmabufCall.register sampleRdmaDomain sampleDriver 8192 4096], call.RegistersProper := by
    simp [DmabufCall.RegistersProper]
  refine registered_staysTranslatable 0 none _ proper [] sampleRdmaDomain sampleDriver 4096 4096
    [.register sampleRdmaDomain sampleDriver 8192 4096] ⟨4096, 4096, 0⟩ rfl rfl ?_ 6145 1
    (by decide) (by decide)
  simp [DmabufCall.Spares]

/-- A registration that wraps fails, and hides the rest of the page in which it starts. -/
theorem wrappingRegistration_hides_region :
    ((created 0 none).afterAll
        [.register sampleRdmaDomain sampleDriver 4096 4096]).refusal
      (.register sampleRdmaDomain sampleDriver 6144 0xffffffffffffffff) = some .outsideAllocation ∧
    ¬ (created 0 none).StaysTranslatable
      [.register sampleRdmaDomain sampleDriver 4096 4096,
        .register sampleRdmaDomain sampleDriver 6144 0xffffffffffffffff] := by
  refine ⟨rfl, fun stays => ?_⟩
  obtain ⟨found, located⟩ := stays [] sampleRdmaDomain sampleDriver 4096 4096
    [.register sampleRdmaDomain sampleDriver 6144 0xffffffffffffffff] ⟨4096, 4096, 0⟩ rfl rfl
    (by simp [DmabufCall.Spares]) 6145 1 (by decide) (by decide)
  have missing : ((created 0 none).afterAll
      [.register sampleRdmaDomain sampleDriver 4096 4096,
        .register sampleRdmaDomain sampleDriver 6144 0xffffffffffffffff]).findRegion 6145 1 =
      none := rfl
  rw [missing] at located
  cases located

end GpuDmabufDomain

end Mooncake.Spdk
