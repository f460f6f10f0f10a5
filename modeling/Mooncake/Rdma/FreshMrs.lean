import Mooncake.Rdma.Registration

/-!
# Registration of one memory region

`registerMemoryRegionInternal` in each build variant.  Its callers hand it a record that
they have not initialised, and it judges the outcome by the pointer in that record.
-/

namespace Mooncake.Rdma

/-- `USE_CUDA`, or another of the GPUs with this driver interface; `USE_HIP_DMABUF`; none. -/
inductive BuildVariant where
  | gpu (cuda : Bool)
  | hipDmabuf
  | plain
  deriving DecidableEq, Repr

/-- What the driver calls a pointer. -/
inductive PointerType where
  | host
  | device
  | unregistered
  | managed
  | other (code : Nat)
  deriving DecidableEq, Repr

/-- The handle is missing for a null pointer. -/
structure MemoryRegionMeta where
  addr : Nat
  mr : Option Nat
  deriving DecidableEq, Repr

/-- What the environment, the driver and the verbs library answer. -/
structure VerbsAnswers where
  pointerType : Option PointerType
  withNvidiaPeermem : Bool
  isKernelDmabufSupported : Bool
  setDevice : Bool
  getAddressRange : Option (Nat × Nat)
  exportDmabuf : Option (Nat × Nat)
  ibvRegMr : Option Nat
  ibvRegDmabufMr : Option Nat

structure RegisterArgs where
  addr : Nat
  length : Nat
  access : Nat
  allowGpuDmabuf : Bool

inductive VerbsEvent where
  | regMr (addr length access : Nat) (mr : Option Nat)
  | exported (fd : Nat)
  | regDmabufMr (offset length iova fd access : Nat) (mr : Option Nat)
  | closed (fd : Nat)
  deriving DecidableEq, Repr

def VerbsEvent.obtained : VerbsEvent → Option Nat
  | .regMr _ _ _ mr => mr
  | .regDmabufMr _ _ _ _ _ mr => mr
  | _ => none

structure Registered where
  code : Outcome
  mrMeta : MemoryRegionMeta
  events : List VerbsEvent

namespace Registered

variable (registered : Registered)

def obtained : List Nat :=
  registered.events.filterMap VerbsEvent.obtained

/-- What `registerMemoryRegion` enters in its map. -/
def recorded : Option MemoryRegionMeta :=
  if registered.code = .ok () then some registered.mrMeta else none

/-- What `preTouchMemory` deregisters. -/
def deregistered : Option Nat :=
  if registered.code = .ok () then registered.mrMeta.mr else none

/-- A success is that of one registration of this call, exports are closed, and the callers
use no other handle. -/
structure Fresh (addr : Nat) : Prop where
  succeeded : registered.code = .ok () →
    ∃ mr, registered.obtained = [mr] ∧ registered.mrMeta = ⟨addr, some mr⟩
  closed : ∀ fd, registered.events.count (.closed fd) = registered.events.count (.exported fd)
  recorded : ∀ region ∈ registered.recorded, ∃ mr ∈ registered.obtained, region.mr = some mr
  deregistered : ∀ mr ∈ registered.deregistered, mr ∈ registered.obtained

end Registered

section Register

variable (variant : BuildVariant) (maxMrSize : Nat) (answers : VerbsAnswers) (args : RegisterArgs)
  (uninitialised : MemoryRegionMeta)

def usedLength : Nat := min args.length maxMrSize

/-- `ibv_reg_mr`. -/
def regMr : Option (MemoryRegionMeta × List VerbsEvent) :=
  some (⟨args.addr, answers.ibvRegMr⟩,
    [.regMr args.addr (usedLength maxMrSize args) args.access answers.ibvRegMr])

/-- `ibv_reg_dmabuf_mr` of the allocation that holds the address; only HIP adds the offset
of the export.  Nothing is returned for an early return. -/
def regDmabufMr (hip : Bool) : Option (MemoryRegionMeta × List VerbsEvent) :=
  match answers.getAddressRange, answers.exportDmabuf with
  | some (allocBase, _), some (fd, exportOffset) =>
      let offset := (args.addr + 2 ^ 64 - allocBase + if hip then exportOffset else 0) % 2 ^ 64
      some (⟨args.addr, answers.ibvRegDmabufMr⟩,
        [.exported fd, .regDmabufMr offset (usedLength maxMrSize args) args.addr fd args.access
          answers.ibvRegDmabufMr, .closed fd])
  | _, _ => none

/-- The branches up to the final test; some pointer types are in none of them. -/
def registerByType : Option (MemoryRegionMeta × List VerbsEvent) :=
  match variant with
  | .plain => regMr maxMrSize answers args
  | .gpu cuda =>
      if !args.allowGpuDmabuf then regMr maxMrSize answers args
      else
        match answers.pointerType with
        | none | some .host => regMr maxMrSize answers args
        | some .device =>
            if cuda && answers.withNvidiaPeermem then regMr maxMrSize answers args
            else regDmabufMr maxMrSize answers args false
        | some _ => some (uninitialised, [])
  | .hipDmabuf =>
      match answers.pointerType with
      | none | some .host | some .unregistered | some .managed => regMr maxMrSize answers args
      | some .device =>
          if !answers.isKernelDmabufSupported then regMr maxMrSize answers args
          else if !answers.setDevice then none
          else regDmabufMr maxMrSize answers args true
      | some (.other _) => some (uninitialised, [])

def registerMemoryRegionInternal : Registered :=
  match registerByType variant maxMrSize answers args uninitialised with
  | none => ⟨.error .context, uninitialised, []⟩
  | some (mrMeta, events) => ⟨if mrMeta.mr = none then .error .context else .ok (), mrMeta, events⟩

/-- No branch is made for the type of the pointer. -/
def Unhandled : Prop :=
  match variant with
  | .plain => False
  | .gpu _ => args.allowGpuDmabuf = true ∧ ∃ type, answers.pointerType = some type ∧
      type ≠ .host ∧ type ≠ .device
  | .hipDmabuf => ∃ code, answers.pointerType = some (.other code)

variable {variant maxMrSize answers args uninitialised}

/-- A branch that registers, with what it leaves for the final test. -/
def RegistersOne (addr : Nat) (made : MemoryRegionMeta × List VerbsEvent) : Prop :=
  made.1.addr = addr ∧ made.2.filterMap VerbsEvent.obtained = made.1.mr.toList ∧
    ∀ fd, made.2.count (.closed fd) = made.2.count (.exported fd)

variable {made : MemoryRegionMeta × List VerbsEvent}

theorem regMr_registers (registers : regMr maxMrSize answers args = some made) :
    RegistersOne args.addr made := by
  cases registers
  refine ⟨rfl, ?_, by simp⟩
  cases answers.ibvRegMr <;> rfl

theorem regDmabufMr_registers {hip : Bool}
    (registers : regDmabufMr maxMrSize answers args hip = some made) :
    RegistersOne args.addr made := by
  unfold regDmabufMr at registers
  split at registers
  · cases registers
    refine ⟨rfl, ?_, fun fd => by simp [List.count_cons]⟩
    cases answers.ibvRegDmabufMr <;> rfl
  · cases registers

theorem registerByType_of_unhandled (unhandled : Unhandled variant answers args) :
    registerByType variant maxMrSize answers args uninitialised = some (uninitialised, []) := by
  cases variant with
  | plain => cases unhandled
  | gpu cuda =>
    obtain ⟨allowed, type, typed, notHost, notDevice⟩ := unhandled
    cases type <;> simp_all [registerByType]
  | hipDmabuf =>
    obtain ⟨code, typed⟩ := unhandled
    simp [registerByType, typed]

theorem registerByType_registers (handled : ¬ Unhandled variant answers args)
    (taken : registerByType variant maxMrSize answers args uninitialised = some made) :
    RegistersOne args.addr made := by
  unfold registerByType at taken
  cases variant with
  | plain => exact regMr_registers taken
  | gpu cuda =>
    dsimp only at taken
    split at taken
    · exact regMr_registers taken
    · rename_i allowed
      split at taken
      · exact regMr_registers taken
      · exact regMr_registers taken
      · split at taken
        · exact regMr_registers taken
        · exact regDmabufMr_registers taken
      · rename_i type notHost notDevice typed
        exact absurd ⟨by simpa using allowed, type, typed, notHost, notDevice⟩ handled
  | hipDmabuf =>
    dsimp only at taken
    split at taken
    · exact regMr_registers taken
    · exact regMr_registers taken
    · exact regMr_registers taken
    · exact regMr_registers taken
    · split at taken
      · exact regMr_registers taken
      · split at taken
        · cases taken
        · exact regDmabufMr_registers taken
    · rename_i code typed
      exact absurd ⟨code, typed⟩ handled

theorem RegistersOne.fresh {addr : Nat} (one : RegistersOne addr made) :
    (Registered.mk (if made.1.mr = none then .error .context else .ok ()) made.1 made.2).Fresh
      addr := by
  obtain ⟨⟨stored, handle⟩, events⟩ := made
  obtain ⟨rfl, obtained, balanced⟩ := one
  cases handle with
  | none => exact ⟨by simp, balanced, by simp [Registered.recorded],
      by simp [Registered.deregistered]⟩
  | some mr =>
    have only : (Registered.mk (.ok ()) ⟨stored, some mr⟩ events).obtained = [mr] := obtained
    refine ⟨fun _ => ⟨mr, only, rfl⟩, balanced, ?_, ?_⟩
    · simp [Registered.recorded, only]
    · simp [Registered.deregistered, only]

end Register

/-- The handle is fresh unless no branch is made for the type of the pointer, and the record
of the caller holds a handle already. -/
theorem registered_fresh_iff (variant : BuildVariant) (maxMrSize : Nat) (answers : VerbsAnswers)
    (args : RegisterArgs) (uninitialised : MemoryRegionMeta) :
    (registerMemoryRegionInternal variant maxMrSize answers args uninitialised).Fresh args.addr ↔
      ¬ (Unhandled variant answers args ∧ uninitialised.mr ≠ none) := by
  by_cases unhandled : Unhandled variant answers args
  · rw [registerMemoryRegionInternal, registerByType_of_unhandled unhandled]
    obtain ⟨addr, handle⟩ := uninitialised
    cases handle with
    | none => exact iff_of_true ⟨by simp, by simp, by simp [Registered.recorded],
        by simp [Registered.deregistered]⟩ (by simp)
    | some stale =>
      refine iff_of_false (fun fresh => ?_) (by simp [unhandled])
      obtain ⟨mr, obtained, -⟩ := fresh.succeeded rfl
      cases obtained
  · refine iff_of_true ?_ (fun both => unhandled both.1)
    unfold registerMemoryRegionInternal
    cases taken : registerByType variant maxMrSize answers args uninitialised with
    | none => exact ⟨by simp, by simp, by simp [Registered.recorded],
        by simp [Registered.deregistered]⟩
    | some made => exact (registerByType_registers unhandled taken).fresh

/-- Memory of a third type is reported as registered with the handle that was on the stack. -/
theorem stale_handle_is_recorded :
    let answers : VerbsAnswers := ⟨some (.other 4), false, false, false, none, none, none, none⟩
    let registered :=
      registerMemoryRegionInternal (.gpu true) 4096 answers ⟨64, 8, 7, true⟩ ⟨0, some 9⟩
    registered.code = .ok () ∧ registered.events = [] ∧ registered.recorded = some ⟨0, some 9⟩ ∧
      registered.deregistered = some 9 := by
  decide +kernel

end Mooncake.Rdma
