import Mooncake.Library.Indexed
import Mooncake.Rdma.Registration

/-!
# The bookkeeping of registrations

A state is consistent when every context has exactly one live MR for each listed buffer
and finds all of them in its map.  A call keeps that, and leaves everything as it was
when it fails, except in the ways that the code does not take back: a registration that
fails after some context has made its MR, and a deregistration that fails after the
metadata was changed.
-/

namespace Mooncake.Rdma

open Library Library.Indexed Library.Runs List

/-! ## Loops over the contexts -/

theorem firstError_ok_iff {outcomes : List Outcome} :
    firstError outcomes = .ok () ↔ ∀ outcome ∈ outcomes, outcome = .ok () := by
  induction outcomes with
  | nil => simp [firstError]
  | cons first rest ih =>
    cases first with
    | error error => simp [firstError]
    | ok done => simpa [firstError] using ih

variable {step : ContextStep} {contexts : List RdmaContext}

/-- The sequential loop succeeds when every step does, and has then made them all. -/
theorem sequentially_ok_iff (start : Nat) :
    (sequentially step start contexts).1 = .ok () ↔
      ∀ index context, contexts[index]? = some context →
        (step (start + index) context).1 = .ok () := by
  induction contexts generalizing start with
  | nil => simp [sequentially]
  | cons first rest ih =>
    rw [forall_getElem?_cons (P := fun index context => (step index context).1 = .ok ()), ← ih,
      sequentially]
    cases outcome : step start first with
    | mk result next => cases result <;> simp

theorem sequentially_of_ok (start : Nat) (done : (sequentially step start contexts).1 = .ok ()) :
    (sequentially step start contexts).2 =
      contexts.mapIdx fun index context => (step (start + index) context).2 := by
  induction contexts generalizing start with
  | nil => rfl
  | cons first rest ih =>
    unfold sequentially at done ⊢
    cases outcome : step start first with
    | mk result next =>
      rw [outcome] at done
      cases result with
      | error error => cases done
      | ok here => simp [outcome, ih _ done, Nat.add_assoc, Nat.add_comm 1]

theorem onContexts_ok_iff {parallel : Bool} :
    (onContexts parallel step contexts).1 = .ok () ↔
      ∀ index context, contexts[index]? = some context → (step index context).1 = .ok () := by
  cases parallel with
  | false => simpa [onContexts] using sequentially_ok_iff 0
  | true =>
    simp only [onContexts, if_true, inParallel, firstError_ok_iff, forall_mem_map]
    constructor
    · intro all index context found
      exact all _ (mem_of_getElem? (i := index) (by simp [found]))
    · intro all result present
      obtain ⟨index, inside, rfl⟩ := mem_mapIdx.mp present
      exact all index _ (getElem?_eq_getElem inside)

theorem onContexts_of_ok {parallel : Bool} (done : (onContexts parallel step contexts).1 = .ok ()) :
    (onContexts parallel step contexts).2 =
      contexts.mapIdx fun index context => (step index context).2 := by
  cases parallel with
  | false => simpa [onContexts] using sequentially_of_ok 0 done
  | true =>
    apply ext_getElem?
    intro index
    simp [onContexts, inParallel, Function.comp_def]

/-! ## What a context holds -/

def MemoryRegion.extent (region : MemoryRegion) : Nat × Nat :=
  (region.addr, region.length)

/-- The address of a buffer and the size of its MRs. -/
def BufferDesc.extent (maxMrSize : Nat) (buffer : BufferDesc) : Nat × Nat :=
  (buffer.addr, min buffer.length maxMrSize)

/-- One live MR for each buffer and no other, all of them found in the map. -/
structure RdmaContext.Holds (context : RdmaContext) (maxMrSize : Nat)
    (buffers : List BufferDesc) : Prop where
  reachable : context.memoryRegionMap.entries.Perm context.live
  matching : (context.live.map MemoryRegion.extent).Perm (buffers.map (BufferDesc.extent maxMrSize))

namespace RdmaContext.Holds

variable {context : RdmaContext} {maxMrSize addr length : Nat} {buffers : List BufferDesc}
  {buffer : BufferDesc} (holds : context.Holds maxMrSize buffers)

include holds

theorem live_length : context.live.length = buffers.length := by
  simpa using holds.matching.length_eq

theorem region_of (listed : buffer ∈ buffers) :
    ∃ region ∈ context.memoryRegionMap.entries, region.extent = buffer.extent maxMrSize := by
  have present := holds.matching.mem_iff.mpr (mem_map_of_mem listed)
  obtain ⟨region, live, same⟩ := mem_map.mp present
  exact ⟨region, holds.reachable.mem_iff.mpr live, same⟩

theorem listed_of {region : MemoryRegion} (present : region ∈ context.memoryRegionMap.entries) :
    ∃ buffer ∈ buffers, buffer.addr = region.addr := by
  have live := mem_map_of_mem (f := MemoryRegion.extent) (holds.reachable.mem_iff.mp present)
  obtain ⟨buffer, listed, same⟩ := mem_map.mp (holds.matching.mem_iff.mp live)
  exact ⟨buffer, listed, congrArg Prod.fst same⟩

theorem register {keys : MrKeys} (fresh : ∀ buffer ∈ buffers, buffer.addr ≠ addr)
    (described : buffer.extent maxMrSize = (addr, min length maxMrSize)) :
    (context.registerMemoryRegion maxMrSize addr length (some keys)).2.Holds maxMrSize
      (buffers ++ [buffer]) where
  reachable := by
    refine (OrderedTree.assign_perm fun entry present same => ?_).trans (holds.reachable.cons _)
    obtain ⟨listed, inside, sameAddr⟩ := holds.listed_of present
    exact fresh listed inside (sameAddr.trans same)
  matching := by
    rw [map_append]
    refine ((holds.matching.cons _).trans ?_).trans perm_append_comm
    exact .of_eq (congrArg (· :: _) described.symm)

/-- A second MR at a listed address takes the place of the first one in the map. -/
theorem not_register {keys : MrKeys} (listed : buffer ∈ buffers) (same : buffer.addr = addr)
    {others : List BufferDesc} :
    ¬ (context.registerMemoryRegion maxMrSize addr length (some keys)).2.Holds maxMrSize
      others := by
  intro after
  obtain ⟨region, present, extent⟩ := holds.region_of listed
  have distinct := (after.reachable.map MemoryRegion.addr).nodup_iff.mp (OrderedTree.keys_nodup _)
  refine (nodup_cons.mp distinct).1 (mem_map.mpr ⟨region, ?_, ?_⟩)
  · exact holds.reachable.mem_iff.mp present
  · exact (congrArg Prod.fst extent).trans same

omit holds in
theorem exists_perm_eraseP (listed : buffer ∈ buffers) (same : buffer.addr = addr) :
    ∃ removed ∈ buffers, removed.addr = addr ∧
      buffers.Perm (removed :: buffers.eraseP fun other => other.addr = addr) := by
  obtain ⟨removed, front, back, -, hit, split, erased⟩ :=
    exists_of_eraseP (p := fun other : BufferDesc => other.addr = addr) listed
      (by simpa using same)
  refine ⟨removed, by simp [split], by simpa using hit, ?_⟩
  rw [erased, split]
  exact perm_middle

theorem find_eq (listed : buffer ∈ buffers) :
    ∃ region ∈ context.memoryRegionMap.entries, region.extent = buffer.extent maxMrSize ∧
      context.findMemoryRegionContaining buffer.addr =
        if 0 < min buffer.length maxMrSize then some region else none := by
  obtain ⟨region, present, extent⟩ := holds.region_of listed
  have sameAddr : region.addr = buffer.addr := congrArg Prod.fst extent
  have sameLength : region.length = min buffer.length maxMrSize := congrArg Prod.snd extent
  refine ⟨region, present, extent, ?_⟩
  rw [findMemoryRegionContaining, ← sameAddr, OrderedTree.floor_eq present]
  simp [MemoryRegion.containsAddress, sameLength, Option.filter]

theorem unregister (listed : buffer ∈ buffers) (same : buffer.addr = addr)
    (sized : ∀ other ∈ buffers, other.addr = addr → 0 < min other.length maxMrSize) :
    (context.unregisterMemoryRegion addr 0).2.Holds maxMrSize
      (buffers.eraseP fun other => other.addr = addr) := by
  obtain ⟨removed, inside, rfl, erased⟩ := exists_perm_eraseP listed same
  obtain ⟨region, present, extent, found⟩ := holds.find_eq inside
  rw [if_pos (sized removed inside rfl)] at found
  have next : (context.unregisterMemoryRegion removed.addr 0).2 =
      { memoryRegionMap := context.memoryRegionMap.removeAll fun other => other.addr = region.addr
        live := context.live.erase region } := by
    simp [unregisterMemoryRegion, found]
  have split := perm_cons_erase (holds.reachable.mem_iff.mp present)
  rw [next]
  constructor
  · exact (((OrderedTree.removeAll_perm present).symm.trans holds.reachable).trans split).cons_inv
  · have regions := (split.map MemoryRegion.extent).symm.trans
      (holds.matching.trans (erased.map (BufferDesc.extent maxMrSize)))
    rw [map_cons, map_cons, extent] at regions
    exact regions.cons_inv

theorem not_unregister (listed : buffer ∈ buffers) (empty : min buffer.length maxMrSize = 0)
    {dereg : Int} :
    ¬ (context.unregisterMemoryRegion buffer.addr dereg).2.Holds maxMrSize
      (buffers.eraseP fun other => other.addr = buffer.addr) := by
  intro after
  obtain ⟨region, -, -, found⟩ := holds.find_eq listed
  rw [if_neg (by omega)] at found
  obtain ⟨removed, -, -, erased⟩ := exists_perm_eraseP listed rfl
  have kept : (context.unregisterMemoryRegion buffer.addr dereg).2 = context := by
    simp [unregisterMemoryRegion, found]
  rw [kept] at after
  have before := holds.live_length
  have fewer := after.live_length
  have lengths := erased.length_eq
  rw [length_cons] at lengths
  omega

end RdmaContext.Holds

/-! ## Calls -/

namespace RdmaTransport

/-- Every context holds the MRs of the listed buffers. -/
def Consistent (transport : RdmaTransport) : Prop :=
  ∀ context ∈ transport.contexts,
    context.Holds transport.config.maxMrSize transport.buffers

/-- The MRs and the metadata are as they were. -/
def Unchanged (transport next : RdmaTransport) : Prop :=
  next.buffers = transport.buffers ∧
    next.contexts.map RdmaContext.live = transport.contexts.map RdmaContext.live

/-- What a call should leave behind. -/
def Sound (transport : RdmaTransport) (result : Outcome × RdmaTransport) : Prop :=
  result.2.Consistent ∧ (result.1 ≠ .ok () → transport.Unchanged result.2)

def AllRegister (transport : RdmaTransport) (answers : RegisterAnswers) : Prop :=
  ∀ index < transport.contexts.length, (answers.reg index).isSome

/-- No context that is asked makes an MR: all of them are asked by the threads, and the loop
asks no other one after the first. -/
def NoneRegisters (transport : RdmaTransport) (length : Nat) (answers : RegisterAnswers) : Prop :=
  if transport.useParallelReg length then
    ∀ index < transport.contexts.length, answers.reg index = none
  else answers.reg 0 = none

def Unlisted (transport : RdmaTransport) (addr : Nat) : Prop :=
  ∀ buffer ∈ transport.buffers, buffer.addr ≠ addr

/-- A registration that all contexts and the metadata accept, or no context. -/
def RegistersWhole (transport : RdmaTransport) (addr length : Nat)
    (answers : RegisterAnswers) : Prop :=
  transport.contexts = [] ∨ transport.NoneRegisters length answers ∨
    transport.AllRegister answers ∧ answers.addLocalMemoryBuffer = 0 ∧ transport.Unlisted addr

def PreTouches (transport : RdmaTransport) (length : Nat) : Prop :=
  transport.doPreTouch length = true ∧ transport.blockSize length ≠ 0

/-- Every MR that the pre-touch makes is deregistered. -/
def NoBlockLeft (transport : RdmaTransport) (length : Nat) (answers : RegisterAnswers) : Prop :=
  transport.PreTouches length → ∀ thread < transport.numThreads,
    (answers.touch thread).isSome → answers.untouch thread = 0

def PreTouchPasses (transport : RdmaTransport) (length : Nat)
    (answers : RegisterAnswers) : Prop :=
  transport.PreTouches length → ∀ thread < transport.numThreads,
    (answers.touch thread).isSome ∧ answers.untouch thread = 0

variable {transport : RdmaTransport} {addr length : Nat} {name : String}

theorem PreTouches.exists_first (touches : transport.PreTouches length) :
    ∃ first rest, transport.contexts = first :: rest := by
  apply exists_cons_of_ne_nil
  intro nobody
  have asked := touches.1
  simp [doPreTouch, nobody] at asked

theorem PreTouchPasses.noBlockLeft {answers : RegisterAnswers}
    (passed : transport.PreTouchPasses length answers) :
    transport.NoBlockLeft length answers :=
  fun touches thread inside _ => (passed touches thread inside).2

/-- A deregistration that every context accepts, of a buffer whose MRs are not empty. -/
def UnregistersWhole (transport : RdmaTransport) (addr : Nat)
    (answers : UnregisterAnswers) : Prop :=
  (∀ index < transport.contexts.length, answers.dereg index = 0) ∧
    ∀ buffer ∈ transport.buffers, buffer.addr = addr →
      0 < min buffer.length transport.config.maxMrSize

/-- The answers that the code copes with, for a call in a given state. -/
def Careful (transport : RdmaTransport) : RdmaCall → Prop
  | .register addr length _ answers =>
    transport.NoBlockLeft length answers ∧
      (transport.PreTouchPasses length answers →
        transport.RegistersWhole addr length answers)
  | .unregister addr answers =>
    answers.removeLocalMemoryBuffer ≠ 0 ∨ transport.Unlisted addr ∨
      transport.contexts = [] ∨ transport.UnregistersWhole addr answers

section Register

variable {answers : RegisterAnswers} {context first : RdmaContext} {rest : List RdmaContext}
  {index : Nat}

theorem registerStep_ok_iff :
    (transport.registerStep addr length answers index context).1 = .ok () ↔
      (answers.reg index).isSome := by
  cases answer : answers.reg index <;>
    simp [registerStep, RdmaContext.registerMemoryRegion, answer]

theorem registerStep_live :
    (transport.registerStep addr length answers index context).2.live = context.live ↔
      answers.reg index = none := by
  cases answer : answers.reg index <;>
    simp [registerStep, RdmaContext.registerMemoryRegion, answer]

theorem registerStep_none (failed : answers.reg index = none) :
    transport.registerStep addr length answers index context = (.error .context, context) := by
  simp [registerStep, RdmaContext.registerMemoryRegion, failed]

/-- What the contexts are after the loop or the threads. -/
abbrev registered (transport : RdmaTransport) (addr length : Nat) (answers : RegisterAnswers) :
    Outcome × List RdmaContext :=
  onContexts (transport.useParallelReg length) (transport.registerStep addr length answers)
    transport.contexts

/-- The transport with these contexts. -/
abbrev withRegistered (transport : RdmaTransport) (addr length : Nat)
    (answers : RegisterAnswers) : RdmaTransport :=
  { transport with contexts := (transport.registered addr length answers).2 }

theorem registered_ok_iff :
    (transport.registered addr length answers).1 = .ok () ↔ transport.AllRegister answers := by
  rw [registered, onContexts_ok_iff]
  constructor
  · intro all index inside
    exact registerStep_ok_iff.mp (all index _ (getElem?_eq_getElem inside))
  · intro all index context found
    exact registerStep_ok_iff.mpr (all index (List.getElem?_eq_some_iff.mp found).1)

theorem registered_of_none (none_ : transport.NoneRegisters length answers) :
    (transport.registered addr length answers).2 = transport.contexts := by
  unfold NoneRegisters at none_
  unfold registered onContexts
  split
  · rename_i parallel
    rw [if_pos parallel] at none_
    apply ext_getElem?
    intro index
    simp only [inParallel, getElem?_map, getElem?_mapIdx, Option.map_map]
    cases found : transport.contexts[index]? with
    | none => rfl
    | some context =>
      have failed := none_ index (List.getElem?_eq_some_iff.mp found).1
      simp [registerStep_none failed]
  · rename_i one
    rw [if_neg one] at none_
    cases transport.contexts with
    | nil => rfl
    | cons first rest => simp [sequentially, registerStep_none none_]

/-- The MRs stay as they were exactly when no context that is asked makes one. -/
theorem registered_live_iff (some_ : transport.contexts ≠ []) :
    (transport.registered addr length answers).2.map RdmaContext.live =
        transport.contexts.map RdmaContext.live ↔
      transport.NoneRegisters length answers := by
  constructor
  · unfold registered NoneRegisters onContexts
    intro same
    split
    · rename_i parallel
      intro index inside
      rw [if_pos parallel] at same
      have here := congrArg (fun lives => lives[index]?) same
      simp only [inParallel, getElem?_map, getElem?_mapIdx,
        getElem?_eq_getElem inside, Option.map_some, Option.some.injEq] at here
      exact registerStep_live.mp here
    · rename_i one
      rw [if_neg one] at same
      obtain ⟨first, rest, contexts⟩ := exists_cons_of_ne_nil some_
      rw [contexts, sequentially] at same
      have live : (transport.registerStep addr length answers 0 first).2.live = first.live := by
        split at same <;> rename_i next outcome <;> rw [outcome] <;>
          exact (List.cons.inj same).1
      exact registerStep_live.mp live
  · intro none_
    rw [registered_of_none none_]

theorem not_noneRegisters (some_ : transport.contexts ≠ [])
    (all : transport.AllRegister answers) : ¬ transport.NoneRegisters length answers := by
  intro none_
  have nonempty := length_pos_of_ne_nil some_
  have failed : answers.reg 0 = none := by
    unfold NoneRegisters at none_
    split at none_
    · exact none_ 0 nonempty
    · exact none_
  simpa [failed] using all 0 nonempty

theorem registerTouched_eq :
    transport.registerTouched addr length name answers =
      match (transport.registered addr length answers).1 with
      | .error error => (.error error, transport.withRegistered addr length answers)
      | .ok () =>
        if answers.addLocalMemoryBuffer ≠ 0 then
          (.error (.metadata answers.addLocalMemoryBuffer),
            transport.withRegistered addr length answers)
        else
          (.ok (),
            { transport.withRegistered addr length answers with
              buffers := transport.buffers ++
                [(transport.withRegistered addr length answers).bufferDesc addr length name
                  answers] }) :=
  rfl

theorem touchBlock_ok_iff :
    touchBlock answers index = .ok () ↔
      (answers.touch index).isSome ∧ answers.untouch index = 0 := by
  cases touched : answers.touch index with
  | none => simp [touchBlock, touched]
  | some keys =>
    by_cases untouched : answers.untouch index = 0 <;> simp [touchBlock, touched, untouched]

theorem leftBlock_eq_none_iff :
    transport.leftBlock addr length answers index = none ↔
      ((answers.touch index).isSome → answers.untouch index = 0) := by
  cases touched : answers.touch index with
  | none => simp [leftBlock, touched]
  | some keys =>
    by_cases untouched : answers.untouch index = 0 <;> simp [leftBlock, touched, untouched]

/-- The MRs that the pre-touch leaves behind in the first context. -/
def leftBlocks (transport : RdmaTransport) (addr length : Nat) (answers : RegisterAnswers) :
    List MemoryRegion :=
  (List.range transport.numThreads).filterMap (transport.leftBlock addr length answers)

theorem leftBlocks_eq_nil_iff (touches : transport.PreTouches length) :
    transport.leftBlocks addr length answers = [] ↔ transport.NoBlockLeft length answers := by
  simp only [leftBlocks, filterMap_eq_nil_iff, mem_range, leftBlock_eq_none_iff]
  exact ⟨fun all _ => all, fun all => all touches⟩

variable (addr) (answers) in
theorem preTouchMemory_ok_iff (contexts : transport.contexts = first :: rest)
    (touches : transport.PreTouches length) :
    (transport.preTouchMemory addr length answers).1 = .ok () ↔
      transport.PreTouchPasses length answers := by
  simp only [preTouchMemory, contexts, if_neg touches.2, firstError_ok_iff, forall_mem_map,
    mem_range, touchBlock_ok_iff]
  exact ⟨fun all _ => all, fun all => all touches⟩

theorem preTouchMemory_next (contexts : transport.contexts = first :: rest)
    (touches : transport.PreTouches length) :
    (transport.preTouchMemory addr length answers).2 =
      { transport with
        contexts := { first with live := transport.leftBlocks addr length answers ++ first.live } ::
            rest } := by
  simp only [preTouchMemory, contexts, if_neg touches.2]
  rfl

variable (addr) in
theorem preTouchMemory_eq_self (contexts : transport.contexts = first :: rest)
    (touches : transport.PreTouches length) (cleared : transport.NoBlockLeft length answers) :
    (transport.preTouchMemory addr length answers).2 = transport := by
  rw [preTouchMemory_next contexts touches, (leftBlocks_eq_nil_iff touches).mpr cleared,
    nil_append, ← contexts]

theorem registerLocalMemory_untouched (untouched : ¬ transport.PreTouches length) :
    transport.registerLocalMemory addr length name answers =
      transport.registerTouched addr length name answers := by
  unfold registerLocalMemory
  split
  · rename_i asked
    have small : transport.blockSize length = 0 :=
      Classical.not_not.mp fun large => untouched ⟨asked, large⟩
    have same : transport.preTouchMemory addr length answers = (.ok (), transport) := by
      unfold preTouchMemory
      split
      · rfl
      · rw [if_pos small]
    rw [same]
  · rfl

variable (consistent : transport.Consistent)

include consistent

theorem sound_unchanged {outcome : Outcome} : transport.Sound (outcome, transport) :=
  ⟨consistent, fun _ => ⟨rfl, rfl⟩⟩

theorem consistent_registered_iff (some_ : transport.contexts ≠ [])
    (all : transport.AllRegister answers) {buffer : BufferDesc}
    (described : buffer.extent transport.config.maxMrSize =
      (addr, min length transport.config.maxMrSize)) :
    Consistent { transport.withRegistered addr length answers with
        buffers := transport.buffers ++ [buffer] } ↔
      transport.Unlisted addr := by
  rw [withRegistered, registered, onContexts_of_ok (registered_ok_iff.mpr all)]
  have made : ∀ index (inside : index < transport.contexts.length), ∃ keys,
      (transport.registerStep addr length answers index (transport.contexts[index])).2 =
        ((transport.contexts[index]).registerMemoryRegion transport.config.maxMrSize addr length
          (some keys)).2 := by
    intro index inside
    obtain ⟨keys, answer⟩ := Option.isSome_iff_exists.mp (all index inside)
    exact ⟨keys, by rw [registerStep, answer]⟩
  constructor
  · intro after listed inside same
    have nonempty := length_pos_of_ne_nil some_
    obtain ⟨keys, first⟩ := made 0 nonempty
    have holds := after _ (mem_mapIdx.mpr ⟨0, nonempty, rfl⟩)
    rw [first] at holds
    exact (consistent _ (getElem_mem nonempty)).not_register inside same holds
  · intro fresh context present
    obtain ⟨index, inside, rfl⟩ := mem_mapIdx.mp present
    obtain ⟨keys, step⟩ := made index inside
    rw [step]
    exact (consistent _ (getElem_mem inside)).register fresh described

/-- A failure is taken back only when there was nothing to take back. -/
theorem sound_failed_iff (some_ : transport.contexts ≠ [])
    {error : RdmaError} :
    transport.Sound (.error error, transport.withRegistered addr length answers) ↔
      transport.NoneRegisters length answers := by
  constructor
  · rintro ⟨-, back⟩
    exact (registered_live_iff some_).mp (back nofun).2
  · intro none_
    rw [withRegistered, registered_of_none none_]
    exact sound_unchanged consistent

/-- Registering without the pre-touch is sound exactly for a whole registration. -/
theorem registerTouched_sound_iff :
    transport.Sound (transport.registerTouched addr length name answers) ↔
      transport.RegistersWhole addr length answers := by
  by_cases nobody : transport.contexts = []
  · refine iff_of_true ?_ (.inl nobody)
    have unasked : transport.registered addr length answers = (.ok (), []) := by
      unfold registered onContexts
      rw [nobody]
      split <;> rfl
    rw [registerTouched_eq, unasked]
    by_cases added : answers.addLocalMemoryBuffer = 0
    · simp [Sound, added, Consistent, unasked]
    · simp [Sound, added, Consistent, Unchanged, nobody, unasked]
  · rw [registerTouched_eq, RegistersWhole, or_iff_right nobody]
    cases outcome : (transport.registered addr length answers).1 with
    | error error =>
      have notAll : ¬ transport.AllRegister answers := by
        intro all
        rw [registered_ok_iff.mpr all] at outcome
        cases outcome
      rw [or_iff_left fun whole => notAll whole.1]
      exact sound_failed_iff consistent nobody
    | ok done =>
      have all := registered_ok_iff.mp outcome
      rw [or_iff_right (not_noneRegisters nobody all), and_iff_right all]
      by_cases added : answers.addLocalMemoryBuffer = 0
      · rw [and_iff_right added, ← consistent_registered_iff consistent nobody all]
        · simp only [added, ne_eq, not_true_eq_false, if_false]
          exact and_iff_left fun failed => absurd rfl failed
        · rfl
      · simp only [added, ne_eq, not_false_eq_true, if_true, false_and, iff_false]
        rw [sound_failed_iff consistent nobody]
        exact not_noneRegisters nobody all

variable (addr) (answers) in
/-- A pre-touch that fails is sound when it leaves no MR behind. -/
theorem preTouch_sound_iff (contexts : transport.contexts = first :: rest)
    (touches : transport.PreTouches length) (error : RdmaError) :
    transport.Sound (.error error, (transport.preTouchMemory addr length answers).2) ↔
      transport.NoBlockLeft length answers := by
  constructor
  · rintro ⟨-, back⟩
    have same := (back nofun).2
    rw [preTouchMemory_next contexts touches, contexts] at same
    have live := (List.cons.inj same).1
    exact (leftBlocks_eq_nil_iff touches).mp (by simpa using live)
  · intro cleared
    rw [preTouchMemory_eq_self addr contexts touches cleared]
    exact sound_unchanged consistent

/-- A registration is sound exactly when the pre-touch leaves no MR behind and what follows
it is whole. -/
theorem register_sound_iff :
    transport.Sound (transport.registerLocalMemory addr length name answers) ↔
      transport.Careful (.register addr length name answers) := by
  by_cases touches : transport.PreTouches length
  · obtain ⟨first, rest, contexts⟩ := touches.exists_first
    have passes := preTouchMemory_ok_iff addr answers contexts touches
    have failing := preTouch_sound_iff addr answers consistent contexts touches
    unfold registerLocalMemory
    rw [if_pos touches.1]
    cases outcome : transport.preTouchMemory addr length answers with
    | mk result touched =>
      rw [outcome] at passes failing
      cases result with
      | error error =>
        have failed : ¬ transport.PreTouchPasses length answers :=
          fun passed => nomatch passes.mpr passed
        exact (failing error).trans (and_iff_left fun passed => absurd passed failed).symm
      | ok done =>
        have passed := passes.mp rfl
        have cleared := passed.noBlockLeft
        have same := preTouchMemory_eq_self addr contexts touches cleared
        rw [outcome] at same
        obtain rfl := same
        refine (registerTouched_sound_iff consistent).trans ?_
        exact ⟨fun whole => ⟨cleared, fun _ => whole⟩, fun careful => careful.2 passed⟩
  · rw [registerLocalMemory_untouched touches, registerTouched_sound_iff consistent]
    constructor
    · exact fun whole => ⟨fun touched => absurd touched touches, fun _ => whole⟩
    · exact fun careful => careful.2 fun touched => absurd touched touches

end Register

/-! ## Unregistering -/

section Unregister

variable {answers : UnregisterAnswers} {buffer : BufferDesc} {parallel : Bool} {index : Nat}
  {context : RdmaContext}

theorem unregisterStep_ok_of_zero (accepted : answers.dereg index = 0) :
    (unregisterStep addr answers index context).1 = .ok () := by
  unfold unregisterStep RdmaContext.unregisterMemoryRegion
  split
  · rfl
  · simp [accepted]

theorem zero_of_unregisterStep_ok {buffers : List BufferDesc} {maxMrSize : Nat}
    (holds : context.Holds maxMrSize buffers) (listed : buffer ∈ buffers)
    (same : buffer.addr = addr) (sized : 0 < min buffer.length maxMrSize)
    (done : (unregisterStep addr answers index context).1 = .ok ()) :
    answers.dereg index = 0 := by
  obtain ⟨region, -, -, found⟩ := holds.find_eq listed
  rw [if_pos sized, same] at found
  by_contra refused
  simp [unregisterStep, RdmaContext.unregisterMemoryRegion, found, refused] at done

/-- What the contexts are after the loop or the threads. -/
abbrev unregistered (transport : RdmaTransport) (parallel : Bool) (addr : Nat)
    (answers : UnregisterAnswers) : Outcome × List RdmaContext :=
  onContexts parallel (unregisterStep addr answers) transport.contexts

variable (consistent : transport.Consistent)

include consistent

theorem consistent_unregistered_iff (listed : buffer ∈ transport.buffers)
    (same : buffer.addr = addr) (some_ : transport.contexts ≠ [])
    (done : (transport.unregistered parallel addr answers).1 = .ok ()) :
    Consistent { transport with
        contexts := (transport.unregistered parallel addr answers).2
        buffers := transport.buffers.eraseP fun other => other.addr = addr } ↔
      transport.UnregistersWhole addr answers := by
  rw [unregistered, onContexts_of_ok done]
  constructor
  · intro after
    have sized : ∀ other ∈ transport.buffers, other.addr = addr →
        0 < min other.length transport.config.maxMrSize := by
      rintro other inside rfl
      have nonempty := length_pos_of_ne_nil some_
      have holds := after _ (mem_mapIdx.mpr ⟨0, nonempty, rfl⟩)
      refine Nat.pos_of_ne_zero fun empty => ?_
      exact (consistent _ (getElem_mem nonempty)).not_unregister inside empty holds
    refine ⟨fun index inside => ?_, sized⟩
    exact zero_of_unregisterStep_ok (consistent _ (getElem_mem inside)) listed same
      (sized buffer listed same)
      (onContexts_ok_iff.mp done index _ (getElem?_eq_getElem inside))
  · rintro ⟨accepted, sized⟩ context present
    obtain ⟨index, inside, rfl⟩ := mem_mapIdx.mp present
    rw [unregisterStep, accepted index inside]
    exact (consistent _ (getElem_mem inside)).unregister listed same sized

/-- Taking a listed buffer away is sound exactly when every context can deregister its MR. -/
theorem unregister_listed_sound_iff (listed : buffer ∈ transport.buffers)
    (same : buffer.addr = addr) (some_ : transport.contexts ≠ []) :
    transport.Sound
        ((transport.unregistered parallel addr answers).1,
          { transport with
            contexts := (transport.unregistered parallel addr answers).2
            buffers := transport.buffers.eraseP fun other => other.addr = addr }) ↔
      transport.UnregistersWhole addr answers := by
  by_cases done : (transport.unregistered parallel addr answers).1 = .ok ()
  · rw [← consistent_unregistered_iff consistent listed same some_ done]
    exact and_iff_left fun failed => absurd done failed
  · refine iff_of_false (fun sound => ?_) fun whole => done ?_
    · obtain ⟨removed, -, -, erased⟩ := RdmaContext.Holds.exists_perm_eraseP listed same
      have lengths := erased.length_eq
      have kept := congrArg List.length (sound.2 done).1
      rw [length_cons] at lengths
      exact absurd (kept.trans lengths) (Nat.ne_of_lt (Nat.lt_succ_self _))
    · refine onContexts_ok_iff.mpr fun index context found => ?_
      exact unregisterStep_ok_of_zero (whole.1 index (List.getElem?_eq_some_iff.mp found).1)

theorem unregister_sound_iff :
    transport.Sound (transport.unregisterLocalMemory addr answers) ↔
      transport.Careful (.unregister addr answers) := by
  unfold unregisterLocalMemory
  by_cases removed : answers.removeLocalMemoryBuffer = 0
  · rw [if_neg (not_not_intro removed)]
    by_cases unlisted : transport.Unlisted addr
    · rw [if_pos (by simpa [Unlisted] using unlisted)]
      exact iff_of_true (sound_unchanged consistent) (.inr (.inl unlisted))
    · obtain ⟨buffer, listed, same⟩ : ∃ buffer ∈ transport.buffers, buffer.addr = addr := by
        simpa [Unlisted] using unlisted
      rw [if_neg (by simpa using ⟨buffer, listed, same⟩)]
      by_cases nobody : transport.contexts = []
      · refine iff_of_true ?_ (.inr (.inr (.inl nobody)))
        have unasked : transport.unregistered transport.useParallelUnreg addr answers =
            (.ok (), []) := by
          unfold unregistered onContexts
          rw [nobody]
          split <;> rfl
        rw [unregistered] at unasked
        rw [unasked]
        exact ⟨fun _ present => absurd present not_mem_nil, fun failed => absurd rfl failed⟩
      · refine (unregister_listed_sound_iff consistent listed same nobody).trans ?_
        simp [Careful, removed, unlisted, nobody]
  · rw [if_pos removed]
    exact iff_of_true (sound_unchanged consistent) (.inl removed)

end Unregister

/-! ## Runs -/

def CallSound (transport : RdmaTransport) (call : RdmaCall) : Prop :=
  transport.Sound (call.run transport)

theorem callSound_iff {call : RdmaCall} (consistent : transport.Consistent) :
    transport.CallSound call ↔ transport.Careful call := by
  cases call with
  | register addr length name answers => exact register_sound_iff consistent
  | unregister addr answers => exact unregister_sound_iff consistent

theorem consistent_after {call : RdmaCall} (consistent : transport.Consistent)
    (careful : transport.Careful call) : (transport.after call).Consistent :=
  ((callSound_iff consistent).mpr careful).1

/-- From a consistent state, all calls of a run are sound exactly when each of them is
answered in a way that the code copes with. -/
theorem bookkeeping_sound_iff {transport : RdmaTransport} (consistent : transport.Consistent)
    (calls : List RdmaCall) :
    Along RdmaTransport.after CallSound transport calls ↔
      Along RdmaTransport.after Careful transport calls :=
  @along_iff _ _ _ _ Consistent CallSound Careful callSound_iff consistent_after consistent calls

end RdmaTransport

/-! ## Two contexts -/

def freshTransport : RdmaTransport where
  config := ⟨4096, 0, 1⟩
  contexts := [⟨.empty, []⟩, ⟨.empty, []⟩]
  buffers := []

theorem freshTransport_consistent : freshTransport.Consistent := by
  intro context present
  obtain rfl : context = ⟨.empty, []⟩ := by simpa [freshTransport] using present
  exact ⟨.nil, .nil⟩

def answersBelow (bound : Nat) : RegisterAnswers where
  touch := fun _ => none
  untouch := fun _ => 0
  reg := fun index => if index < bound then some ⟨1, 1⟩ else none
  location := "cpu:0"
  addLocalMemoryBuffer := 0

/-- A buffer is registered and unregistered with both contexts. -/
theorem wholeCalls_sound :
    freshTransport.Consistent ∧
      Along RdmaTransport.after RdmaTransport.CallSound freshTransport
        [.register 64 16 "cpu:0" (answersBelow 2), .unregister 64 ⟨0, fun _ => 0⟩] := by
  refine ⟨freshTransport_consistent,
    (RdmaTransport.bookkeeping_sound_iff freshTransport_consistent _).mpr ⟨?_, ?_, trivial⟩⟩
  · refine ⟨fun touched => absurd touched.1 (by decide), fun _ => .inr (.inr ⟨?_, rfl, nofun⟩)⟩
    intro index inside
    have below : index < 2 := inside
    simp only [answersBelow, if_pos below, Option.isSome_some]
  · refine .inr (.inr (.inr ⟨fun _ _ => rfl, ?_⟩))
    intro buffer listed same
    obtain rfl := mem_singleton.mp listed
    exact (by decide : 0 < min 16 4096)

/-- The second context fails: the MR of the first one stays without a buffer. -/
theorem failedContext_leaves_mr :
    freshTransport.Consistent ∧
      ((RdmaCall.register 64 16 "cpu:0" (answersBelow 1)).run freshTransport).1 = .error .context ∧
      ¬ freshTransport.Unchanged
        (freshTransport.after (.register 64 16 "cpu:0" (answersBelow 1))) ∧
      ¬ (freshTransport.after (.register 64 16 "cpu:0" (answersBelow 1))).Consistent := by
  refine ⟨freshTransport_consistent, rfl, ?_, ?_⟩
  · intro same
    exact absurd (congrArg (List.map List.length) same.2) (by decide)
  · intro consistent
    exact absurd (consistent _ mem_cons_self).live_length (by decide)

end Mooncake.Rdma
