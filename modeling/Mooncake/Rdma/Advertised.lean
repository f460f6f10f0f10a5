import Mooncake.Rdma.Bookkeeping
import Mooncake.Rdma.SelectDevice

/-!
# Advertised buffers

A registration publishes a buffer with the keys that each context has for its address.  The
MRs behind the keys are cut to the largest size of an MR; the length that is published, and
with it the range check of a transfer, is not.
-/

namespace Mooncake.Rdma

open Library List

/-- The MR whose keys a context put into the buffer contains the byte. -/
def BufferDesc.CoveredAt (buffer : BufferDesc) (index : Nat) (context : RdmaContext)
    (byte : Nat) : Prop :=
  ∃ region ∈ context.live, context.findMemoryRegionContaining buffer.addr = some region ∧
    buffer.lkey[index]? = some region.keys.lkey ∧ buffer.rkey[index]? = some region.keys.rkey ∧
    region.containsAddress byte = true

/-- A published buffer whose keys cover it, and every range that is accepted for it. -/
structure RdmaTransport.Advertises (transport : RdmaTransport) (bufferId : Nat)
    (buffer : BufferDesc) : Prop where
  listed : transport.buffers[bufferId]? = some buffer
  covered : ∀ index context, transport.contexts[index]? = some context →
    ∀ byte, buffer.addr ≤ byte → byte < buffer.addr + buffer.length →
      buffer.CoveredAt index context byte
  accepted : ∀ topology offset length hint retryCount selected,
    selectDevice topology offset length hint retryCount transport.buffers = some selected →
      selected.bufferId = bufferId →
      ∀ index context, transport.contexts[index]? = some context →
        ∀ byte, offset ≤ byte → byte < offset + length → buffer.CoveredAt index context byte

/-- A range that is accepted lies in the buffer, so it is enough to cover the buffer. -/
theorem RdmaTransport.Advertises.of_covered {transport : RdmaTransport} {bufferId : Nat}
    {buffer : BufferDesc} (listed : transport.buffers[bufferId]? = some buffer)
    (covered : ∀ index context, transport.contexts[index]? = some context →
      ∀ byte, buffer.addr ≤ byte → byte < buffer.addr + buffer.length →
        buffer.CoveredAt index context byte) :
    transport.Advertises bufferId buffer where
  listed := listed
  covered := covered
  accepted := by
    rintro topology offset length hint retryCount selected found rfl index context asked byte
      starts ends
    obtain ⟨other, there, accepts, -⟩ := selectDevice_spec found
    obtain rfl := Option.some.inj (there.symm.trans listed)
    have inside := BufferDesc.accepts_iff.mp accepts
    exact covered index context asked byte (by omega) (by omega)

namespace RdmaContext

theorem find_registered (context : RdmaContext) (maxMrSize addr length : Nat) (keys : MrKeys) :
    (context.registerMemoryRegion maxMrSize addr length (some keys)).2.findMemoryRegionContaining
        addr =
      if 0 < min length maxMrSize then some ⟨addr, min length maxMrSize, keys⟩ else none := by
  have present : (⟨addr, min length maxMrSize, keys⟩ : MemoryRegion) ∈
      (context.memoryRegionMap.assign ⟨addr, min length maxMrSize, keys⟩).entries :=
    OrderedTree.mem_assign.mpr (.inl rfl)
  simp [registerMemoryRegion, findMemoryRegionContaining, OrderedTree.floor_eq present,
    MemoryRegion.containsAddress, Option.filter]

end RdmaContext

namespace RdmaTransport

section Register

variable {transport : RdmaTransport} {addr length : Nat} {name : String}
  {answers : RegisterAnswers}

theorem registerLocalMemory_of_ok
    (done : (transport.registerLocalMemory addr length name answers).1 = .ok ()) :
    transport.registerLocalMemory addr length name answers =
      transport.registerTouched addr length name answers := by
  by_cases touches : transport.PreTouches length
  · obtain ⟨first, rest, contexts⟩ := touches.exists_first
    have passes := preTouchMemory_ok_iff addr answers contexts touches
    unfold registerLocalMemory at done ⊢
    rw [if_pos touches.1] at done ⊢
    cases outcome : transport.preTouchMemory addr length answers with
    | mk result touched =>
      rw [outcome] at passes done
      cases result with
      | error error => cases done
      | ok passed =>
        have same := preTouchMemory_eq_self addr contexts touches
          (passes.mp rfl).noBlockLeft
        rw [outcome] at same
        obtain rfl := same
        rfl
  · exact registerLocalMemory_untouched touches

/-- What a registration that succeeds leaves: an MR in each context, and the buffer with the
keys that are found there. -/
theorem registerLocalMemory_spec
    (done : (transport.registerLocalMemory addr length name answers).1 = .ok ()) :
    let next := (transport.registerLocalMemory addr length name answers).2
    next.buffers = transport.buffers ++ [next.bufferDesc addr length name answers] ∧
      next.contexts.length = transport.contexts.length ∧
      ∀ (index : Nat) (context : RdmaContext), next.contexts[index]? = some context →
        ∃ (old : RdmaContext) (keys : MrKeys),
          context = (old.registerMemoryRegion transport.config.maxMrSize addr length
            (some keys)).2 := by
  have touched := registerLocalMemory_of_ok done
  rw [touched, registerTouched_eq] at done ⊢
  cases outcome : (transport.registered addr length answers).1 with
  | error error =>
    rw [outcome] at done
    cases done
  | ok passed =>
    rw [outcome] at done
    by_cases added : answers.addLocalMemoryBuffer = 0
    · have all := registered_ok_iff.mp outcome
      have made := onContexts_of_ok outcome
      simp only [added, ne_eq, not_true_eq_false, if_false]
      refine ⟨rfl, by rw [registered, made, length_mapIdx], ?_⟩
      intro index context found
      rw [registered, made, getElem?_mapIdx] at found
      obtain ⟨old, there, rfl⟩ := Option.map_eq_some_iff.mp found
      obtain ⟨keys, answer⟩ := Option.isSome_iff_exists.mp
        (all index (List.getElem?_eq_some_iff.mp there).1)
      exact ⟨old, keys, by rw [registerStep, answer]⟩
    · simp [added] at done

end Register

/-! ## A key for each context -/

theorem sequentially_length {step : ContextStep} {start : Nat} {contexts : List RdmaContext} :
    (sequentially step start contexts).2.length = contexts.length := by
  induction contexts generalizing start with
  | nil => rfl
  | cons first rest ih =>
    unfold sequentially
    split
    · rfl
    · simp [ih]

theorem onContexts_length (parallel : Bool) (step : ContextStep) (contexts : List RdmaContext) :
    (onContexts parallel step contexts).2.length = contexts.length := by
  cases parallel with
  | false => exact sequentially_length
  | true => simp [onContexts, inParallel]

/-- Every listed buffer has a key for each context. -/
def Keyed (transport : RdmaTransport) : Prop :=
  ∀ buffer ∈ transport.buffers, buffer.lkey.length = transport.contexts.length

variable {transport : RdmaTransport}

theorem Keyed.of_subset {next : RdmaTransport} (keyed : transport.Keyed)
    (listed : ∀ buffer ∈ next.buffers, buffer ∈ transport.buffers)
    (contexts : next.contexts.length = transport.contexts.length) : next.Keyed := by
  intro buffer present
  rw [contexts]
  exact keyed buffer (listed buffer present)

theorem Keyed.registerTouched (keyed : transport.Keyed) (addr length : Nat) (name : String)
    (answers : RegisterAnswers) :
    (transport.registerTouched addr length name answers).2.Keyed := by
  have size := onContexts_length (transport.useParallelReg length)
    (transport.registerStep addr length answers) transport.contexts
  rw [registerTouched_eq]
  split
  · exact keyed.of_subset (fun _ => id) size
  · split
    · exact keyed.of_subset (fun _ => id) size
    · intro buffer present
      rcases mem_append.mp present with old | new
      · exact (keyed buffer old).trans size.symm
      · rw [mem_singleton.mp new]
        simp [bufferDesc]

theorem Keyed.preTouchMemory (keyed : transport.Keyed) (addr length : Nat)
    (answers : RegisterAnswers) :
    (transport.preTouchMemory addr length answers).2.Keyed := by
  unfold RdmaTransport.preTouchMemory
  split
  · exact keyed
  · rename_i first rest contexts
    split
    · exact keyed
    · exact keyed.of_subset (fun _ => id) (by simp [contexts])

theorem Keyed.after (keyed : transport.Keyed) (call : RdmaCall) :
    (transport.after call).Keyed := by
  cases call with
  | register addr length name answers =>
    simp only [RdmaTransport.after, RdmaCall.run, registerLocalMemory]
    split
    · have touched := keyed.preTouchMemory addr length answers
      split
      · rename_i outcome
        rwa [outcome] at touched
      · rename_i outcome
        rw [outcome] at touched
        exact touched.registerTouched addr length name answers
    · exact keyed.registerTouched addr length name answers
  | unregister addr answers =>
    simp only [RdmaTransport.after, RdmaCall.run, unregisterLocalMemory]
    split
    · exact keyed
    · split
      · exact keyed
      · exact keyed.of_subset (fun _ => mem_of_mem_eraseP) (onContexts_length _ _ _)

/-- In every run from a transport without buffers each buffer has a key for each context. -/
theorem keyed_run (none_ : transport.buffers = []) {calls : List RdmaCall} :
    (calls.foldl RdmaTransport.after transport).Keyed := by
  have keyed : transport.Keyed := fun buffer present => by simp [none_] at present
  clear none_
  induction calls generalizing transport with
  | nil => exact keyed
  | cons call rest ih => exact ih (keyed.after call)

/-! ## Covered buffers -/

/-- A buffer that was registered is covered by its keys exactly when there is no context, or
an MR may be as large as the buffer. -/
theorem register_advertises_iff (transport : RdmaTransport) (addr length : Nat) (name : String)
    (answers : RegisterAnswers)
    (done : (transport.registerLocalMemory addr length name answers).1 = .ok ()) :
    (∃ buffer : BufferDesc, buffer.addr = addr ∧ buffer.length = length ∧
      (transport.registerLocalMemory addr length name answers).2.Advertises
        transport.buffers.length buffer) ↔
      transport.contexts = [] ∨ length ≤ transport.config.maxMrSize := by
  obtain ⟨buffers, contexts, made⟩ := registerLocalMemory_spec done
  generalize (transport.registerLocalMemory addr length name answers).2 = next at *
  constructor
  · rintro ⟨buffer, rfl, rfl, advertises⟩
    by_contra neither
    obtain ⟨some_, large⟩ := not_or.mp neither
    have nonempty := length_pos_of_ne_nil some_
    have first : next.contexts[0]? = some _ := getElem?_eq_getElem (contexts ▸ nonempty)
    obtain ⟨old, keys, same⟩ := made 0 _ first
    -- the first byte after the MR is still a byte of the buffer
    obtain ⟨region, -, found, -, -, inside⟩ := advertises.covered 0 _ first
      (buffer.addr + transport.config.maxMrSize) (by omega) (by omega)
    rw [same, RdmaContext.find_registered] at found
    split at found
    · obtain rfl := Option.some.inj found
      simp only [MemoryRegion.containsAddress, Bool.and_eq_true, decide_eq_true_eq] at inside
      omega
    · cases found
  · intro condition
    refine ⟨next.bufferDesc addr length name answers, rfl, rfl, .of_covered ?_ ?_⟩
    · rw [buffers, getElem?_concat_length]
    · intro index context asked byte starts ends
      have fits : length ≤ transport.config.maxMrSize := by
        rcases condition with nobody | fits
        · have inside := (List.getElem?_eq_some_iff.mp asked).1
          simp [contexts, nobody] at inside
        · exact fits
      obtain ⟨old, keys, rfl⟩ := made index context asked
      have found := old.find_registered transport.config.maxMrSize addr length keys
      have nonempty : 0 < min length transport.config.maxMrSize := by
        change byte < addr + length at ends
        change addr ≤ byte at starts
        omega
      rw [if_pos nonempty] at found
      refine ⟨_, mem_cons_self, found, ?_, ?_, ?_⟩
      · simp [bufferDesc, asked, RdmaContext.lkey, found]
      · simp [bufferDesc, asked, RdmaContext.rkey, found]
      · change byte < addr + length at ends
        change addr ≤ byte at starts
        simp only [MemoryRegion.containsAddress, Bool.and_eq_true, decide_eq_true_eq]
        omega

/-- A buffer of 16 bytes in two contexts. -/
theorem smallBuffer_advertised :
    (freshTransport.registerLocalMemory 64 16 "cpu:0" (answersBelow 2)).1 = .ok () ∧
      ∃ buffer : BufferDesc, buffer.addr = 64 ∧ buffer.length = 16 ∧
        (freshTransport.registerLocalMemory 64 16 "cpu:0" (answersBelow 2)).2.Advertises 0
          buffer :=
  ⟨rfl, (register_advertises_iff freshTransport 64 16 "cpu:0" (answersBelow 2) rfl).mpr
    (.inr (by decide))⟩

/-- A buffer of two pages where an MR has one page at most: a transfer of its last byte is
accepted, and no MR of the keys contains it. -/
theorem largeBuffer_not_covered :
    let next := (freshTransport.registerLocalMemory 4096 8192 "cpu:0" (answersBelow 2)).2
    (freshTransport.registerLocalMemory 4096 8192 "cpu:0" (answersBelow 2)).1 = .ok () ∧
      next.buffers.map (fun buffer => (buffer.addr, buffer.length)) = [(4096, 8192)] ∧
      next.contexts.map RdmaContext.live = [[⟨4096, 4096, ⟨1, 1⟩⟩], [⟨4096, 4096, ⟨1, 1⟩⟩]] ∧
      selectDevice (fun _ => ⟨fun _ _ => 0, fun _ _ _ => 0⟩) 12287 1 "" 0 next.buffers =
        some ⟨0, 0⟩ ∧
      ∀ buffer ∈ next.buffers, ∀ context ∈ next.contexts, ∀ index,
        ¬ buffer.CoveredAt index context 12287 := by
  intro next
  have found : ∀ context ∈ next.contexts, context.findMemoryRegionContaining 4096 =
      some ⟨4096, 4096, ⟨1, 1⟩⟩ := by decide
  have start : ∀ buffer ∈ next.buffers, buffer.addr = 4096 := by decide
  refine ⟨rfl, rfl, rfl, by decide, ?_⟩
  rintro buffer listed context asked index ⟨region, -, there, -, -, inside⟩
  rw [start buffer listed, found context asked] at there
  obtain rfl := Option.some.inj there
  exact absurd inside (by decide)

end RdmaTransport

end Mooncake.Rdma
