import Mooncake.Rdma.Registration

/-!
# Batches of registrations

The elements of a batch run in threads; a build with CUDA and without `nvidia-peermem`
registers them one after the other.  The batch waits for the codes of all of them, logs those
that are not 0, and returns the code with which the metadata answers the update of the local
segment.
-/

namespace Mooncake.Rdma

structure BufferEntry where
  addr : Nat
  length : Nat
  deriving DecidableEq, Repr

/-- The elements with the codes that they return, and the answer of the metadata. -/
structure BatchRun (α : Type) where
  futures : List (α × Outcome)
  updateLocalSegmentDesc : Int

namespace BatchRun

variable {α : Type} (run : BatchRun α)

def AllSucceeded : Prop :=
  ∀ future ∈ run.futures, future.2 = .ok ()

def warned : List α :=
  (run.futures.filter fun future => future.2 ≠ .ok ()).map Prod.fst

def returned : Int × List α :=
  (run.updateLocalSegmentDesc, run.warned)

theorem warned_eq_nil_iff : run.warned = [] ↔ run.AllSucceeded := by
  simp [warned, AllSucceeded, List.filter_eq_nil_iff]

theorem reports_iff :
    (run.returned.1 = 0 → run.AllSucceeded ∧ run.updateLocalSegmentDesc = 0) ↔
      run.updateLocalSegmentDesc ≠ 0 ∨ run.AllSucceeded := by
  unfold returned
  tauto

end BatchRun

/-! ## The elements -/

/-- `force_sequential`, with which the contexts are served as with a `parallel_reg_mr` of 0. -/
def RdmaTransport.forceSequential (transport : RdmaTransport) : RdmaTransport :=
  { transport with config := { transport.config with parallelRegMr := 0 } }

/-- A thread of a batch.  It finds each context, and the metadata, as the other threads have
left them when it comes to them. -/
structure BatchThread (α β : Type) where
  element : α
  found : RdmaTransport
  answers : β

/-- The loop that registers one buffer after the other. -/
def registerEach (location : String) :
    RdmaTransport → List (BufferEntry × RegisterAnswers) → List (BufferEntry × Outcome)
  | _, [] => []
  | transport, (buffer, answers) :: rest =>
    let (outcome, next) := transport.registerLocalMemory buffer.addr buffer.length location answers
    (buffer, outcome) :: registerEach location next rest

/-- How the buffers of a batch are registered. -/
inductive RegisterBatch where
  | oneByOne (transport : RdmaTransport) (buffers : List (BufferEntry × RegisterAnswers))
  | concurrent (threads : List (BatchThread BufferEntry RegisterAnswers))

def RegisterBatch.codes (location : String) : RegisterBatch → List (BufferEntry × Outcome)
  | .oneByOne transport buffers => registerEach location transport buffers
  | .concurrent threads => threads.map fun thread =>
    (thread.element, (thread.found.forceSequential.registerLocalMemory thread.element.addr
      thread.element.length location thread.answers).1)

def registerRun (location : String) (batch : RegisterBatch) (updateLocalSegmentDesc : Int) :
    BatchRun BufferEntry :=
  ⟨batch.codes location, updateLocalSegmentDesc⟩

def unregisterRun (threads : List (BatchThread Nat UnregisterAnswers))
    (updateLocalSegmentDesc : Int) : BatchRun Nat where
  futures := threads.map fun thread =>
    (thread.element,
      (thread.found.forceSequential.unregisterLocalMemory thread.element thread.answers).1)
  updateLocalSegmentDesc := updateLocalSegmentDesc

def registerLocalMemoryBatch (location : String) (batch : RegisterBatch)
    (updateLocalSegmentDesc : Int) : Int × List BufferEntry :=
  (registerRun location batch updateLocalSegmentDesc).returned

def unregisterLocalMemoryBatch (threads : List (BatchThread Nat UnregisterAnswers))
    (updateLocalSegmentDesc : Int) : Int × List Nat :=
  (unregisterRun threads updateLocalSegmentDesc).returned

/-- A batch reports its failures by its code exactly if there are none, or the metadata
fails as well; the failures are in the log. -/
theorem batch_reports_iff (location : String) (registers : RegisterBatch)
    (unregisters : List (BatchThread Nat UnregisterAnswers)) (update : Int) :
    (((registerLocalMemoryBatch location registers update).1 = 0 →
        (registerRun location registers update).AllSucceeded ∧ update = 0) ↔
      update ≠ 0 ∨ (registerRun location registers update).AllSucceeded) ∧
    (((unregisterLocalMemoryBatch unregisters update).1 = 0 →
        (unregisterRun unregisters update).AllSucceeded ∧ update = 0) ↔
      update ≠ 0 ∨ (unregisterRun unregisters update).AllSucceeded) ∧
    ((registerLocalMemoryBatch location registers update).2 = [] ↔
      (registerRun location registers update).AllSucceeded) ∧
    ((unregisterLocalMemoryBatch unregisters update).2 = [] ↔
      (unregisterRun unregisters update).AllSucceeded) :=
  ⟨(registerRun location registers update).reports_iff,
    (unregisterRun unregisters update).reports_iff,
    (registerRun location registers update).warned_eq_nil_iff,
    (unregisterRun unregisters update).warned_eq_nil_iff⟩

/-- The only context refuses the only buffer, in a thread or in the loop, and the batch
returns 0. -/
theorem refused_buffer_is_not_reported :
    let transport : RdmaTransport := ⟨⟨1024, 0, 1⟩, [⟨.empty, []⟩], []⟩
    let answers : RegisterAnswers := ⟨fun _ => none, fun _ => 0, fun _ => none, "", 0⟩
    let threads : RegisterBatch := .concurrent [⟨⟨4096, 64⟩, transport, answers⟩]
    let oneByOne : RegisterBatch := .oneByOne transport [(⟨4096, 64⟩, answers)]
    threads.codes "cpu:0" = [(⟨4096, 64⟩, .error .context)] ∧
      oneByOne.codes "cpu:0" = [(⟨4096, 64⟩, .error .context)] ∧
      (registerLocalMemoryBatch "cpu:0" threads 0).1 = 0 ∧
      (registerLocalMemoryBatch "cpu:0" oneByOne 0).1 = 0 := by
  decide +kernel

end Mooncake.Rdma
