import Mooncake.Spdk.CachedMrs

/-!
# What a registration needs

A registration adds its region first and then requires an MR.  Whether the MR can be
registered is told by the answers of the driver and by the cache before the call.  When it
cannot, the call fails and its region stays, so that a later translation of the range
may succeed.
-/

namespace Mooncake.Spdk

open Library

/-! ## The driver -/

def Driver.Switches (driver : Driver) (cudaCtx : GpuContext) : Prop :=
  cudaCtx = none ∨ ∃ current, driver.contextGetCurrent = some current ∧
    (current = cudaCtx ∨ driver.contextSetCurrent = true)

/-- The driver and the verbs library make an MR of the range: it lies in one allocation. -/
structure Driver.Exports (driver : Driver) (cudaCtx : GpuContext) (addr len : UInt64) : Prop where
  switches : driver.Switches cudaCtx
  allocated : ∃ allocBase allocSize, driver.addressRange = some (allocBase, allocSize) ∧
    allocBase.toNat ≤ addr.toNat ∧
    addr.toNat + len.toNat ≤ allocBase.toNat + allocSize.toNat
  handle : driver.dmabufHandle = true
  registers : ∃ keys, driver.regDmabufMr = .ok keys

variable {cudaCtx : GpuContext}

theorem setCudaCtx_ok_iff {driver : Driver} :
    setCudaCtx driver cudaCtx = .ok () ↔ driver.Switches cudaCtx := by
  unfold setCudaCtx Driver.Switches
  by_cases unset : cudaCtx = none
  · simp [unset]
  · cases driver.contextGetCurrent with
    | none => simp [unset]
    | some current =>
      by_cases same : current = cudaCtx
      · simp [unset, same]
      · cases set : driver.contextSetCurrent <;> simp [unset, same]

theorem inAllocation_iff {allocBase allocSize addr len : UInt64} :
    (¬ addr < allocBase ∧
        ¬ (allocSize < addr - allocBase ∨ allocSize - (addr - allocBase) < len)) ↔
      allocBase.toNat ≤ addr.toNat ∧
        addr.toNat + len.toNat ≤ allocBase.toNat + allocSize.toNat := by
  rw [not_or, UInt64.not_lt, UInt64.not_lt, UInt64.not_lt]
  constructor
  · rintro ⟨above, inside, fits⟩
    have offset := UInt64.toNat_sub_of_le _ _ above
    have rest := UInt64.toNat_sub_of_le _ _ inside
    simp only [UInt64.le_iff_toNat_le] at above inside fits
    omega
  · rintro ⟨above, ends⟩
    have starts : allocBase ≤ addr := UInt64.le_iff_toNat_le.mpr above
    have offset := UInt64.toNat_sub_of_le _ _ starts
    have inside : addr - allocBase ≤ allocSize := by
      rw [UInt64.le_iff_toNat_le]
      omega
    have rest := UInt64.toNat_sub_of_le _ _ inside
    refine ⟨starts, inside, ?_⟩
    rw [UInt64.le_iff_toNat_le]
    omega

theorem exportMr_ok_iff {driver : Driver} {addr len : UInt64} :
    (∃ keys, exportMr driver cudaCtx addr len = .ok keys) ↔ driver.Exports cudaCtx addr len := by
  unfold exportMr
  constructor
  · rintro ⟨keys, exported⟩
    split at exported
    · cases exported
    · rename_i switched
      split at exported
      · cases exported
      · rename_i allocBase allocSize range
        split at exported
        · cases exported
        · rename_i above
          split at exported
          · cases exported
          · rename_i inside
            split at exported
            · cases exported
            · rename_i handle
              refine ⟨setCudaCtx_ok_iff.mp switched, ⟨allocBase, allocSize, range,
                inAllocation_iff.mp ⟨above, inside⟩⟩, by simpa using handle, ?_⟩
              split at exported
              · cases exported
              · rename_i keys registered
                exact ⟨keys, registered⟩
  · rintro ⟨switches, ⟨allocBase, allocSize, range, bounds⟩, handle, keys, registered⟩
    obtain ⟨above, inside⟩ := inAllocation_iff.mpr bounds
    exact ⟨keys, by simp [setCudaCtx_ok_iff.mpr switches, range, above, inside, handle, registered]⟩

namespace GpuDmabufDomain

/-- The context for a device: the one of the domain, one that is kept, or a new one. -/
def Provides (gd : GpuDmabufDomain) (driver : Driver) (deviceId : Int) (cudaCtx : GpuContext) :
    Prop :=
  gd.cudaCtx ≠ none ∧ cudaCtx = gd.cudaCtx ∨
    gd.cudaCtx = none ∧ 0 ≤ deviceId ∧
      match gd.cudaCtxs.find? fun entry => entry.1 = deviceId with
      | some entry => cudaCtx = entry.2
      | none =>
        driver.callocContext = true ∧ driver.deviceGet = true ∧
          driver.contextRetain = some cudaCtx

variable {gd other : GpuDmabufDomain} {driver : Driver} {deviceId : Int} {pd : Nat}
  {addr len : UInt64} {region : GpuDmabufRegion}

theorem getCudaCtx_ok_iff :
    (∃ next, gd.getCudaCtx driver deviceId = .ok (cudaCtx, next)) ↔
      gd.Provides driver deviceId cudaCtx := by
  unfold getCudaCtx Provides
  by_cases own : gd.cudaCtx = none
  · by_cases negative : deviceId < 0
    · simp [own, negative, not_le.mpr negative]
    · cases known : gd.cudaCtxs.find? fun entry => entry.1 = deviceId with
      | some entry => simp [own, negative, not_lt.mp negative, eq_comm]
      | none =>
        cases driver.callocContext <;> cases driver.deviceGet <;>
          cases driver.contextRetain <;> simp [own, negative, not_lt.mp negative]
  · simp only [own, ne_eq, not_false_eq_true, if_true, Except.ok.injEq, Prod.mk.injEq, true_and,
      false_and, or_false, exists_eq_right']
    exact eq_comm

/-- What the registration of an MR finds outside of the cache. -/
structure Allows (gd : GpuDmabufDomain) (driver : Driver) (deviceId : Int) (addr len : UInt64) :
    Prop where
  memory : driver.callocMr = true
  exports : ∃ cudaCtx, gd.Provides driver deviceId cudaCtx ∧ driver.Exports cudaCtx addr len

/-- The outcome of `gpu_dmabuf_register_mr` where the cache has room for the MR. -/
def freshMr (gd : GpuDmabufDomain) (driver : Driver) (deviceId : Int) (pd : Nat)
    (addr len : UInt64) : Except Refusal GpuDmabufMr :=
  if !driver.callocMr then .error .noMemory
  else
    match gd.getCudaCtx driver deviceId with
    | .error refusal => .error refusal
    | .ok (cudaCtx, _) =>
      (exportMr driver cudaCtx addr len).map fun keys =>
        ⟨addr, len, deviceId, pd, keys.1, keys.2⟩

theorem freshMr_ok_iff :
    (∃ entry, gd.freshMr driver deviceId pd addr len = .ok entry) ↔
      gd.Allows driver deviceId addr len := by
  unfold freshMr
  cases memory : driver.callocMr with
  | false =>
    exact iff_of_false (by simp) fun allows =>
      Bool.false_ne_true (memory.symm.trans allows.memory)
  | true =>
    simp only [Bool.not_true, Bool.false_eq_true, if_false]
    constructor
    · rintro ⟨entry, made⟩
      split at made
      · cases made
      · rename_i cudaCtx next retained
        refine ⟨memory, cudaCtx, getCudaCtx_ok_iff.mp ⟨next, retained⟩,
          exportMr_ok_iff.mp ?_⟩
        cases exported : exportMr driver cudaCtx addr len with
        | error refusal =>
          rw [exported] at made
          cases made
        | ok keys => exact ⟨keys, rfl⟩
    · rintro ⟨-, cudaCtx, provides, exports⟩
      obtain ⟨next, retained⟩ := getCudaCtx_ok_iff.mpr provides
      obtain ⟨keys, exported⟩ := exportMr_ok_iff.mpr exports
      refine ⟨⟨addr, len, deviceId, pd, keys.1, keys.2⟩, ?_⟩
      rw [retained]
      dsimp only
      rw [exported]
      rfl

theorem getCudaCtx_congr (own : other.cudaCtx = gd.cudaCtx) (kept : other.cudaCtxs = gd.cudaCtxs)
    (driver : Driver) (deviceId : Int) :
    (other.getCudaCtx driver deviceId).map Prod.fst =
      (gd.getCudaCtx driver deviceId).map Prod.fst := by
  unfold getCudaCtx
  rw [own, kept]
  by_cases given : gd.cudaCtx = none
  · by_cases negative : deviceId < 0
    · simp [given, negative]
    · cases gd.cudaCtxs.find? fun entry => entry.1 = deviceId with
      | some entry => simp [given, negative, Except.map]
      | none =>
        cases driver.callocContext <;> cases driver.deviceGet <;>
          cases driver.contextRetain <;> simp [given, negative, Except.map]
  · simp [given, Except.map]

theorem freshMr_congr (own : other.cudaCtx = gd.cudaCtx) (kept : other.cudaCtxs = gd.cudaCtxs)
    (driver : Driver) (deviceId : Int) (pd : Nat) (addr len : UInt64) :
    other.freshMr driver deviceId pd addr len = gd.freshMr driver deviceId pd addr len := by
  have same := getCudaCtx_congr own kept driver deviceId
  unfold freshMr
  cases here : other.getCudaCtx driver deviceId with
  | error refusal =>
    cases there : gd.getCudaCtx driver deviceId with
    | error refusal' =>
      rw [here, there] at same
      rw [Except.error.inj same]
    | ok result =>
      rw [here, there] at same
      cases same
  | ok result =>
    cases there : gd.getCudaCtx driver deviceId with
    | error refusal' =>
      rw [here, there] at same
      cases same
    | ok result' =>
      rw [here, there] at same
      have context : result.1 = result'.1 := Except.ok.inj same
      dsimp only
      rw [context]

theorem freshMr_spec {entry : GpuDmabufMr}
    (made : gd.freshMr driver deviceId pd addr len = .ok entry) :
    entry.addr = addr ∧ entry.len = len ∧ entry.deviceId = deviceId ∧ entry.pd = pd := by
  unfold freshMr at made
  split at made
  · cases made
  · split at made
    · cases made
    · rename_i cudaCtx next retained
      cases exported : exportMr driver cudaCtx addr len with
      | error refusal =>
        rw [exported] at made
        cases made
      | ok keys =>
        rw [exported] at made
        cases made
        exact ⟨rfl, rfl, rfl, rfl⟩

structure HasRoom (gd : GpuDmabufDomain) (deviceId : Int) (pd : Nat) (addr len : UInt64) :
    Prop where
  clear : gd.findOverlappingMr deviceId pd addr len = none
  fresh : ∀ entry ∈ gd.mrCache.entries, entry.key ≠ mrKey deviceId pd addr

section Register

theorem HasRoom.insert (room : gd.HasRoom deviceId pd addr len) (lkey rkey : UInt32) :
    ∃ mrCache, gd.mrCache.insert ⟨addr, len, deviceId, pd, lkey, rkey⟩ = some mrCache := by
  refine Option.ne_none_iff_exists'.mp fun refused => ?_
  obtain ⟨entry, present, same⟩ := OrderedTree.insert_eq_none refused
  exact room.fresh entry present same

/-- The call is refused without a change of the cache, or caches a new MR. -/
theorem registerMr_outcome (gd : GpuDmabufDomain) (driver : Driver) (deviceId : Int) (pd : Nat)
    (addr len : UInt64) :
    (∃ refusal, (gd.registerMr driver deviceId pd addr len).1 = .error refusal ∧
        (gd.registerMr driver deviceId pd addr len).2.mrCache = gd.mrCache ∧
        (gd.HasRoom deviceId pd addr len →
          gd.freshMr driver deviceId pd addr len = .error refusal)) ∨
      ∃ entry, (gd.registerMr driver deviceId pd addr len).1 = .ok entry ∧
        gd.HasRoom deviceId pd addr len ∧
        gd.freshMr driver deviceId pd addr len = .ok entry ∧
        gd.mrCache.insert entry = some (gd.registerMr driver deviceId pd addr len).2.mrCache := by
  unfold registerMr freshMr
  cases overlapping : gd.findOverlappingMr deviceId pd addr len with
  | some other =>
    refine .inl ⟨_, rfl, rfl, fun room => ?_⟩
    rw [room.clear] at overlapping
    cases overlapping
  | none =>
    simp only [Option.isSome_none, Bool.false_eq_true, if_false]
    cases driver.callocMr with
    | false => exact .inl ⟨_, rfl, rfl, fun _ => rfl⟩
    | true =>
      cases retained : gd.getCudaCtx driver deviceId with
      | error refusal => exact .inl ⟨_, rfl, rfl, fun _ => rfl⟩
      | ok result =>
        obtain ⟨cudaCtx, next⟩ := result
        have same := (getCudaCtx_regions retained).2
        simp only [Bool.not_true, Bool.false_eq_true, if_false, same]
        cases exported : exportMr driver cudaCtx addr len with
        | error refusal => exact .inl ⟨_, rfl, same, fun _ => rfl⟩
        | ok keys =>
          dsimp only
          cases inserted : gd.mrCache.insert
            ⟨addr, len, deviceId, pd, keys.1, keys.2⟩ with
          | none =>
            refine .inl ⟨_, rfl, same, fun room => ?_⟩
            obtain ⟨_, other⟩ := room.insert keys.1 keys.2
            rw [inserted] at other
            cases other
          | some mrCache =>
            refine .inr ⟨_, rfl, ⟨overlapping, fun entry present taken => ?_⟩, rfl,
              inserted⟩
            exact OrderedTree.insert_fresh inserted entry present taken

/-- With room in the cache the driver decides, and a new MR is cached. -/
theorem registerMr_of_room (room : gd.HasRoom deviceId pd addr len) :
    (gd.registerMr driver deviceId pd addr len).1 = gd.freshMr driver deviceId pd addr len ∧
      ∀ entry, gd.freshMr driver deviceId pd addr len = .ok entry →
        entry ∈ (gd.registerMr driver deviceId pd addr len).2.mrCache.entries := by
  rcases registerMr_outcome gd driver deviceId pd addr len with
    ⟨refusal, refused, -, failed⟩ | ⟨entry, registered, -, made, inserted⟩
  · rw [failed room]
    exact ⟨refused, fun _ made => by cases made⟩
  · rw [made]
    refine ⟨registered, fun other same => ?_⟩
    obtain rfl := Except.ok.inj same
    exact (OrderedTree.mem_insert inserted).mpr (.inl rfl)

theorem registerMr_ok_iff :
    (∃ entry, (gd.registerMr driver deviceId pd addr len).1 = .ok entry) ↔
      gd.HasRoom deviceId pd addr len ∧ gd.Allows driver deviceId addr len := by
  rcases registerMr_outcome gd driver deviceId pd addr len with
    ⟨refusal, refused, -, failed⟩ | ⟨entry, registered, room, made, -⟩
  · refine iff_of_false (by simp [refused]) fun ⟨room, allows⟩ => ?_
    obtain ⟨entry, made⟩ := freshMr_ok_iff.mpr allows
    rw [failed room] at made
    cases made
  · exact iff_of_true ⟨entry, registered⟩ ⟨room, freshMr_ok_iff.mp ⟨entry, made⟩⟩

end Register

/-! ## New regions -/

/-- A range that a region is added for. -/
structure NewRegion (gd : GpuDmabufDomain) (driver : Driver) (addr len : UInt64) : Prop where
  uncovered : gd.findRegion addr len = none
  clear : gd.findOverlappingRegion addr len = none
  memory : driver.callocRegion = true
  fresh : ∀ region ∈ gd.regions.entries, region.addr ≠ addr

section AddRegion

theorem addRegion_of_new (new : gd.NewRegion driver addr len) :
    ∃ regions, gd.regions.insert ⟨addr, len, deviceId⟩ = some regions ∧
      gd.addRegion driver addr len deviceId =
        .ok (⟨addr, len, deviceId⟩, { gd with regions := regions }) := by
  obtain ⟨regions, inserted⟩ : ∃ regions, gd.regions.insert ⟨addr, len, deviceId⟩ =
      some regions := by
    refine Option.ne_none_iff_exists'.mp fun refused => ?_
    obtain ⟨region, present, same⟩ := OrderedTree.insert_eq_none refused
    exact new.fresh region present (UInt64.toNat_inj.mp same)
  refine ⟨regions, inserted, ?_⟩
  simp [addRegion, new.uncovered, new.clear, new.memory, inserted]

/-- A range that is added without a new region lies in an old one. -/
theorem addRegion_eq_self_or_new {middle : GpuDmabufDomain}
    (added : gd.addRegion driver addr len deviceId = .ok (region, middle)) :
    gd.findRegion addr len = some region ∧ middle = gd ∨ gd.NewRegion driver addr len := by
  unfold addRegion at added
  split at added
  · rename_i found located
    split at added
    · cases added
    · cases added
      exact .inl ⟨located, rfl⟩
  · rename_i uncovered
    split at added
    · cases added
    · rename_i clear
      split at added
      · cases added
      · rename_i memory
        split at added
        · cases added
        · rename_i regions inserted
          refine .inr ⟨uncovered, clear, by simpa using memory, fun old present same => ?_⟩
          refine OrderedTree.insert_fresh inserted old present ?_
          rw [GpuDmabufRegion.key, same]
          rfl

end AddRegion

/-! ## Failed registrations -/

/-- A registration that fails leaves the regions and the cached MRs as they were.  If no
region was found for the range, it is translated no better than before. -/
structure FailsWithoutEffect (gd : GpuDmabufDomain) (rdmaDomain : RdmaDomain) (driver : Driver)
    (addr len : UInt64) : Prop where
  regions : ∀ refusal, (gd.register rdmaDomain driver addr len).1 = .error refusal →
    (gd.register rdmaDomain driver addr len).2.regions.entries = gd.regions.entries
  mrCache : ∀ refusal, (gd.register rdmaDomain driver addr len).1 = .error refusal →
    (gd.register rdmaDomain driver addr len).2.mrCache.entries = gd.mrCache.entries
  translates : ∀ refusal, (gd.register rdmaDomain driver addr len).1 = .error refusal →
    gd.findRegion addr len = none → ∀ dstDomain later,
      ((gd.register rdmaDomain driver addr len).2.translate dstDomain later addr len).1 =
        (gd.translate dstDomain later addr len).1

/-- A registration that adds a region finds the MR of the range, or can register it. -/
def CompletesNew (gd : GpuDmabufDomain) (rdmaDomain : RdmaDomain) (driver : Driver)
    (addr len : UInt64) : Prop :=
  ∀ pd deviceId, addr ≠ 0 → len ≠ 0 → getRdmaPd rdmaDomain = .ok pd →
    gd.getPtrDeviceId driver = .ok deviceId → gd.NewRegion driver addr len →
      (∃ entry, gd.findMr deviceId pd addr len = some entry) ∨
        gd.HasRoom deviceId pd addr len ∧ gd.Allows driver deviceId addr len

theorem requireMr_ok_iff :
    (∃ entry, (gd.requireMr driver region pd addr len).1 = .ok entry) ↔
      (∃ entry, gd.findMr region.deviceId pd addr len = some entry) ∨
        gd.HasRoom region.deviceId pd region.addr region.len ∧
          gd.Allows driver region.deviceId region.addr region.len := by
  unfold requireMr
  cases found : gd.findMr region.deviceId pd addr len with
  | some entry => simp
  | none => simpa using registerMr_ok_iff

theorem requireMr_of_error {refusal : Refusal}
    (refused : (gd.requireMr driver region pd addr len).1 = .error refusal) :
    (gd.requireMr driver region pd addr len).2.mrCache = gd.mrCache := by
  unfold requireMr at refused ⊢
  cases found : gd.findMr region.deviceId pd addr len with
  | some entry => rfl
  | none =>
    rw [found] at refused
    rcases registerMr_outcome gd driver region.deviceId pd region.addr region.len with
      ⟨_, -, same, -⟩ | ⟨entry, registered, -⟩
    · exact same
    · rw [registered] at refused
      cases refused

theorem requireMr_new_ok_iff (regions : OrderedTree GpuDmabufRegion.key) :
    (∃ entry, ({ gd with regions := regions }.requireMr driver ⟨addr, len, deviceId⟩ pd addr
        len).1 = .ok entry) ↔
      (∃ entry, gd.findMr deviceId pd addr len = some entry) ∨
        gd.HasRoom deviceId pd addr len ∧ gd.Allows driver deviceId addr len := by
  rw [requireMr_ok_iff]
  refine or_congr Iff.rfl (and_congr ?_ ?_)
  · exact ⟨fun room => ⟨room.clear, room.fresh⟩, fun room => ⟨room.clear, room.fresh⟩⟩
  · exact ⟨fun allows => ⟨allows.memory, allows.exports⟩,
      fun allows => ⟨allows.memory, allows.exports⟩⟩

/-- A registration that adds a region goes on to its MR. -/
theorem register_of_new {rdmaDomain : RdmaDomain} (nonnull : addr ≠ 0) (nonempty : len ≠ 0)
    (domain : getRdmaPd rdmaDomain = .ok pd) (device : gd.getPtrDeviceId driver = .ok deviceId)
    (new : gd.NewRegion driver addr len) :
    ∃ regions, gd.regions.insert ⟨addr, len, deviceId⟩ = some regions ∧
      gd.register rdmaDomain driver addr len =
        (({ gd with regions := regions }.requireMr driver ⟨addr, len, deviceId⟩ pd addr len).1.map
            fun _ => ⟨addr, len, deviceId⟩,
          ({ gd with regions := regions }.requireMr driver ⟨addr, len, deviceId⟩ pd addr
            len).2) := by
  obtain ⟨regions, inserted, added⟩ := @addRegion_of_new gd driver deviceId addr len new
  exact ⟨regions, inserted, by simp [register, nonnull, nonempty, domain, device, added]⟩

/-- A registration that fails has no effect exactly when none adds a region whose MR cannot be
registered. -/
theorem register_failsWithoutEffect_iff (gd : GpuDmabufDomain) (rdmaDomain : RdmaDomain)
    (driver : Driver) (addr len : UInt64) :
    gd.FailsWithoutEffect rdmaDomain driver addr len ↔
      gd.CompletesNew rdmaDomain driver addr len := by
  constructor
  · intro fails pd deviceId nonnull nonempty domain device new
    obtain ⟨regions, inserted, registered⟩ := register_of_new nonnull nonempty domain device new
    rw [← requireMr_new_ok_iff regions]
    cases required : ({ gd with regions := regions }.requireMr driver ⟨addr, len, deviceId⟩ pd
        addr len).1 with
    | ok entry => exact ⟨entry, rfl⟩
    | error refusal =>
      -- the region of the failed call is still there
      have kept := fails.regions refusal (by rw [registered, required]; rfl)
      rw [registered] at kept
      dsimp only at kept
      rw [requireMr_regions] at kept
      have present : ⟨addr, len, deviceId⟩ ∈ gd.regions.entries :=
        kept ▸ (OrderedTree.mem_insert inserted).mpr (.inl rfl)
      exact absurd rfl (new.fresh _ present)
  · intro completes
    rcases register_cases gd rdmaDomain driver addr len with
      ⟨refusal, refused⟩ |
        ⟨nonnull, nonempty, pd, deviceId, region, middle, domain, device, added, registered⟩
    · constructor <;> rw [refused] <;> intros <;> rfl
    · rcases addRegion_eq_self_or_new added with ⟨found, rfl⟩ | new
      · refine ⟨fun refusal _ => ?_, fun refusal refused => ?_, fun _ _ missing => ?_⟩
        · rw [registered, requireMr_regions]
        · rw [registered] at refused ⊢
          exact congrArg _ (requireMr_of_error (error_of_map_error refused))
        · rw [found] at missing
          cases missing
      · have nonzero : len ≠ 0 := fun zero => by simp [zero] at nonempty
        obtain ⟨regions, -, same⟩ := register_of_new nonnull nonzero domain device new
        obtain ⟨entry, made⟩ := (requireMr_new_ok_iff regions).mpr
          (completes pd deviceId nonnull nonzero domain device new)
        have succeeds : ∀ refusal,
            (gd.register rdmaDomain driver addr len).1 ≠ .error refusal := by
          intro refusal refused
          rw [same, made] at refused
          cases refused
        exact ⟨fun refusal refused => absurd refused (succeeds refusal),
          fun refusal refused => absurd refused (succeeds refusal),
          fun refusal refused => absurd refused (succeeds refusal)⟩

/-- The MR of the first registration fails, and its region stays: the range is translated
afterwards. -/
theorem failedRegistration_leaves_region :
    let driver := { sampleDriver with regDmabufMr := .error 12 }
    let gd := ((created 0 none).register sampleRdmaDomain driver 4096 4096).2
    ((created 0 none).register sampleRdmaDomain driver 4096 4096).1 = .error (.regMr 12) ∧
      gd.regions.entries = [⟨4096, 4096, 0⟩] ∧
      ((created 0 none).translate sampleRdmaDomain sampleDriver 4096 16).1 =
        .error .regionNotFound ∧
      (gd.translate sampleRdmaDomain sampleDriver 4096 16).1 = .ok ⟨4096, 16, 1, 2⟩ ∧
      ¬ (created 0 none).FailsWithoutEffect sampleRdmaDomain driver 4096 4096 := by
  refine ⟨rfl, rfl, rfl, rfl, fun fails => ?_⟩
  exact absurd (fails.regions _ rfl) (by decide)

end GpuDmabufDomain

end Mooncake.Spdk
