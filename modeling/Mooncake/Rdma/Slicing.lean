import Mooncake.Rdma.Advertised
import Mooncake.Rdma.TaskStatus

/-!
# The slices of a request

A submission that succeeds has cut every request into consecutive slices.  Each of them was
handed over once, to the context of a device that was active, with the key which that device
has for a local buffer around the slice.  The topology, the slice cache and the activity of
the contexts may answer differently each time they are asked.
-/

namespace Mooncake.Rdma

open Library List

/-! ## The surroundings of a submission -/

/-- A topology whose devices are contexts of the transport. -/
structure LocalTopology (contexts : Nat) extends Topology where
  device_lt : ∀ location hint retryCount, toTopology.select location hint retryCount < contexts

/-- The buffers of the local segment, with a key for each context. -/
structure LocalSegment (contexts : Nat) where
  buffers : List BufferDesc
  lkeys : ∀ buffer ∈ buffers, buffer.lkey.length = contexts

def RdmaTransport.localSegment (transport : RdmaTransport) (none_ : transport.buffers = [])
    (calls : List RdmaCall) :
    LocalSegment (calls.foldl RdmaTransport.after transport).contexts.length where
  buffers := (calls.foldl RdmaTransport.after transport).buffers
  lkeys := RdmaTransport.keyed_run none_

/-- What a submission is answered; a slice is known by its task and its source address. -/
structure Surroundings (contexts : Nat) where
  fromCache : (task sourceAddr : Nat) → Bool
  requestTopology : (task bufferId : Nat) → LocalTopology contexts
  topology : (task sourceAddr : Nat) → (retryCount : Int) → (bufferId : Nat) →
    LocalTopology contexts
  active : (task sourceAddr : Nat) → (retryCount : Int) → (deviceId : Nat) → Bool
  activeToPost : (task sourceAddr deviceId : Nat) → Bool

namespace Surroundings

variable {contexts : Nat} (surroundings : Surroundings contexts) (config : SubmitConfig)
  (buffers : List BufferDesc) (task : Nat) (request : TransferRequest)

/-- The selection for the whole request, with the retry count that is the default. -/
def requestDevice : Option Selected :=
  selectDevice (fun bufferId => (surroundings.requestTopology task bufferId).toTopology)
    (request.source % 2 ^ 64) request.length "" 0 buffers

def retried (slice : Slice) (retryCount : Int) : Option Selected :=
  selectDevice
    (fun bufferId => (surroundings.topology task slice.sourceAddr retryCount bufferId).toTopology)
    (slice.sourceAddr % 2 ^ 64) slice.length "" retryCount buffers

def sliceAnswers (slice : Slice) (activeToPost : Bool) : SliceAnswers where
  fromCache := surroundings.fromCache task slice.sourceAddr
  selectDevice := surroundings.retried buffers task slice
  active retryCount := (surroundings.retried buffers task slice retryCount).any fun selected =>
    surroundings.active task slice.sourceAddr retryCount selected.deviceId
  activeToPost := activeToPost

/-- The device of a slice; whether it may post does not matter here. -/
def chosenDevice (slice : Slice) : Option Selected :=
  match surroundings.requestDevice buffers task request with
  | some selected => some selected
  | none => retryDevice config request (surroundings.sliceAnswers buffers task slice false)

def taskAnswers : TaskAnswers where
  selectDevice := surroundings.requestDevice buffers task request
  slice index := let slice := sliceAt config task request (index * config.sliceSize)
    surroundings.sliceAnswers buffers task slice
      ((surroundings.chosenDevice config buffers task request slice).any fun selected =>
        surroundings.activeToPost task slice.sourceAddr selected.deviceId)

/-- The answers for a list of tasks; a task without a request asks nothing. -/
def answers (taskList : List TransferTask) (index : Nat) : TaskAnswers :=
  match taskList[index]?.bind TransferTask.request with
  | some request => surroundings.taskAnswers config buffers index request
  | none => ⟨none, fun _ => ⟨false, fun _ => none, fun _ => false, false⟩⟩

end Surroundings

/-- The topology and the set of active contexts do not change during the submission. -/
def Surroundings.fixed {contexts : Nat} (fromCache : (task sourceAddr : Nat) → Bool)
    (topology : LocalTopology contexts) (active : Nat → Bool) : Surroundings contexts where
  fromCache := fromCache
  requestTopology _ _ := topology
  topology _ _ _ _ := topology
  active _ _ _ := active
  activeToPost _ _ := active

/-- `submitTransferTask` with the selection of devices. -/
def submitLocal {contexts : Nat} (config : SubmitConfig) (segment : LocalSegment contexts)
    (surroundings : Surroundings contexts) (taskList : List TransferTask) : Submission :=
  submitTransferTask config segment.buffers
    (surroundings.answers config segment.buffers taskList) taskList

/-! ## All requests -/

/-- What was made of the task with the given index. -/
structure PlacedTask (config : SubmitConfig) (buffers : List BufferDesc)
    (answers : Nat → TaskAnswers) (index : Nat) (task done : TransferTask)
    (request : TransferRequest) (new : List (Nat × Slice)) : Prop where
  requested : task.request = some request
  partition_ : Partition config request 0 request.length (new.map Prod.snd)
  chosen : ∀ placed ∈ new, ChosenFor config buffers index request (answers index) placed
  counted : done = task.counted (new.map Prod.snd)

variable {config : SubmitConfig}

theorem submitTasks_placed {buffers : List BufferDesc} {answers : Nat → TaskAnswers} {start : Nat}
    {tasks : List TransferTask} {posting : Posting}
    (done : (submitTasks config buffers answers start tasks posting).outcome = .ok ()) :
    ∃ created : List (List (Nat × Slice)), created.length = tasks.length ∧
      ((submitTasks config buffers answers start tasks posting).calls.flatMap onDevice).Perm
        (created.flatten ++ posting.placed) ∧
      ∀ index task, tasks[index]? = some task → ∃ after request new,
        (submitTasks config buffers answers start tasks posting).tasks[index]? = some after ∧
        created[index]? = some new ∧
        PlacedTask config buffers answers (start + index) task after request new := by
  induction tasks generalizing start posting with
  | nil => exact ⟨[], rfl, .refl _, nofun⟩
  | cons task rest ih =>
    cases requested : task.request with
    | none =>
      rw [submitTasks, requested] at done
      cases done
    | some request =>
      obtain ⟨outcome, after, next, reach, new, sliced, stops, step⟩ :=
        submitTasks_cons config buffers answers start posting requested rest
      cases outcome with
      | error error =>
        rw [stops error rfl] at done
        cases done
      | ok passed =>
        rw [step rfl] at done ⊢
        obtain rfl := sliced.whole.mp rfl
        obtain ⟨listed, counted, all⟩ := sliced.counted
        obtain rfl := all rfl
        obtain ⟨created, length, more, tasks⟩ := ih done
        refine ⟨new :: created, by simp [length], ?_, ?_⟩
        · refine more.trans ((sliced.placed.append_left _).trans ?_)
          rw [flatten_cons, ← append_assoc]
          exact perm_append_comm.append_right _
        · intro index other found
          cases index with
          | zero =>
            obtain rfl := Option.some.inj found
            exact ⟨after, request, new, rfl, rfl, requested, sliced.cut, sliced.chosen, counted⟩
          | succ index =>
            rw [← Nat.add_assoc, Nat.add_right_comm]
            exact tasks index other found

/-! ## The buffer and the device of a slice -/

/-- Every byte of the slice is a byte of the buffer; addresses are machine words. -/
def BufferDesc.Contains (buffer : BufferDesc) (slice : Slice) : Prop :=
  ∀ byte < slice.length, ∃ position < buffer.length,
    (slice.sourceAddr + byte) % 2 ^ 64 = (buffer.addr + position) % 2 ^ 64

theorem BufferDesc.contains_of_accepts {buffer : BufferDesc} {start length offset : Nat}
    (accepts : buffer.accepts (start % 2 ^ 64) length = true) {slice : Slice}
    (source : slice.sourceAddr = start + offset)
    (bounded : ∀ byte < slice.length, offset + byte < length) : buffer.Contains slice := by
  intro byte inside
  have within := bounded byte inside
  rw [accepts_iff] at accepts
  refine ⟨start % 2 ^ 64 - buffer.addr + offset + byte, by omega, ?_⟩
  rw [source]
  omega

theorem sliceAt_bounded {task : Nat} {request : TransferRequest} {offset byte : Nat}
    (inside : byte < (sliceAt config task request offset).length) :
    offset + byte < request.length := by
  by_cases merged : mergeFinalSlice config request offset = true
  · rw [sliceAt_length_of_merge merged] at inside
    omega
  · obtain ⟨length, space⟩ := sliceAt_length_of_not_merge task merged
    omega

section Chosen

variable {contexts : Nat} {surroundings : Surroundings contexts} {segment : LocalSegment contexts}
  {task : Nat} {request : TransferRequest}

theorem device_lt {topology : Nat → LocalTopology contexts} {offset : Nat} {hint : String}
    {retryCount : Int} {buffer : BufferDesc} {bufferId device : Nat}
    (named : buffer.device (fun bufferId => (topology bufferId).toTopology) offset hint retryCount
      bufferId = some device) : device < contexts := by
  have bound := fun location => (topology bufferId).device_lt location hint retryCount
  unfold BufferDesc.device at named
  dsimp only at named
  split at named
  · obtain rfl := Option.some.inj named
    have := bound (buffer.locationAt (offset - buffer.addr))
    omega
  · split at named
    · obtain rfl := Option.some.inj named
      have := bound kWildcardLocation
      omega
    · cases named

variable {selected : Selected}

/-- The device of a slice was selected for the request or in a retry. -/
theorem chosenDevice_cases {buffers : List BufferDesc} {slice : Slice}
    (chosen : surroundings.chosenDevice config buffers task request slice = some selected) :
    surroundings.requestDevice buffers task request = some selected ∨
      ∃ retryCount, surroundings.retried buffers task slice retryCount = some selected := by
  unfold Surroundings.chosenDevice at chosen
  cases whole : surroundings.requestDevice buffers task request with
  | some other =>
    rw [whole] at chosen
    exact .inl chosen
  | none =>
    rw [whole] at chosen
    obtain ⟨retry, -, found⟩ := exists_of_findSome?_eq_some chosen
    exact .inr ⟨_, (Option.filter_eq_some_iff.mp found).1⟩

/-- The buffer that was selected for a slice contains it, and has a key for the device. -/
theorem chosenDevice_spec {offset : Nat} {selected : Selected}
    (chosen : surroundings.chosenDevice config segment.buffers task request
      (sliceAt config task request offset) = some selected) :
    selected.deviceId < contexts ∧ ∃ buffer ∈ segment.buffers,
      buffer.Contains (sliceAt config task request offset) ∧
      ∃ lkey, buffer.lkey[selected.deviceId]? = some lkey ∧
        sourceLkey segment.buffers selected = some lkey := by
  obtain ⟨buffer, there, contains, below⟩ : ∃ buffer,
      segment.buffers[selected.bufferId]? = some buffer ∧
      buffer.Contains (sliceAt config task request offset) ∧ selected.deviceId < contexts := by
    rcases chosenDevice_cases chosen with whole | ⟨retryCount, retried⟩
    · obtain ⟨buffer, there, accepts, named⟩ := selectDevice_spec whole
      exact ⟨buffer, there, BufferDesc.contains_of_accepts accepts rfl
        fun byte inside => sliceAt_bounded inside, device_lt named⟩
    · obtain ⟨buffer, there, accepts, named⟩ := selectDevice_spec retried
      exact ⟨buffer, there, BufferDesc.contains_of_accepts accepts (Nat.add_zero _).symm
        fun byte inside => by omega, device_lt named⟩
  have listed := mem_of_getElem? there
  have keyed : selected.deviceId < buffer.lkey.length := by rwa [segment.lkeys buffer listed]
  have key := getElem?_eq_getElem keyed
  exact ⟨below, buffer, listed, contains, _, key, by simp [sourceLkey, there, key]⟩

theorem sliceDevice_taskAnswers (buffers : List BufferDesc) (index : Nat) :
    sliceDevice config request (surroundings.taskAnswers config buffers task request) index =
      surroundings.chosenDevice config buffers task request
        (sliceAt config task request (index * config.sliceSize)) := by
  unfold sliceDevice Surroundings.chosenDevice
  rfl

/-- A slice is handed to an active context with the key of a buffer around it. -/
structure WellPlaced (segment : LocalSegment contexts) (surroundings : Surroundings contexts)
    (device : Nat) (slice : Slice) : Prop where
  context : device < contexts
  active : surroundings.activeToPost slice.task slice.sourceAddr device = true
  buffer : ∃ buffer ∈ segment.buffers, buffer.Contains slice ∧
    ∃ lkey, buffer.lkey[device]? = some lkey ∧ slice.sourceLkey = some lkey

theorem ChosenFor.wellPlaced {placed : Nat × Slice}
    (chosen : ChosenFor config segment.buffers task request
      (surroundings.taskAnswers config segment.buffers task request) placed) :
    WellPlaced segment surroundings placed.1 placed.2 := by
  obtain ⟨index, selected, device, active, rfl⟩ := chosen
  rw [sliceDevice_taskAnswers] at device
  obtain ⟨below, buffer, listed, contains, lkey, keyed, taken⟩ := chosenDevice_spec device
  refine ⟨below, ?_, buffer, listed, contains, lkey, keyed, taken⟩
  change (Option.any _ (surroundings.chosenDevice config segment.buffers task request _)) = true
    at active
  rw [device] at active
  exact active

end Chosen

/-! ## Submissions that succeed -/

/-- What a submission makes of one task: its slices are new, cut the request, and are counted. -/
structure SlicedTask (config : SubmitConfig) (request : TransferRequest)
    (task done : TransferTask) (slices : List Slice) : Prop where
  listed : done.sliceList = task.sliceList ++ slices
  partition_ : Partition config request 0 request.length slices
  totalBytes : done.totalBytes = task.totalBytes + request.length
  sliceCount : done.sliceCount = task.sliceCount + slices.length

section Submission

variable {contexts : Nat} {segment : LocalSegment contexts} {surroundings : Surroundings contexts}
  {taskList : List TransferTask}

variable {task : TransferTask} {request : TransferRequest}

variable {index : Nat} {buffers : List BufferDesc} {answers : Nat → TaskAnswers}
  {done : TransferTask} {new : List (Nat × Slice)}

theorem answers_of_request (found : taskList[index]? = some task)
    (requested : task.request = some request) (buffers : List BufferDesc) :
    surroundings.answers config buffers taskList index =
      surroundings.taskAnswers config buffers index request := by
  simp [Surroundings.answers, found, requested]

theorem submitLocal_placed
    (done : (submitLocal config segment surroundings taskList).outcome = .ok ()) :
    ∃ created : List (List (Nat × Slice)), created.length = taskList.length ∧
      ((submitLocal config segment surroundings taskList).calls.flatMap onDevice).Perm
        created.flatten ∧
      ∀ index task, taskList[index]? = some task → ∃ after request new,
        (submitLocal config segment surroundings taskList).tasks[index]? = some after ∧
        created[index]? = some new ∧
        PlacedTask config segment.buffers
          (surroundings.answers config segment.buffers taskList) index task after request new := by
  obtain ⟨created, length, perm, tasks⟩ := submitTasks_placed done
  refine ⟨created, length, perm.trans (.of_eq (append_nil _)), ?_⟩
  intro index task found
  have placed := tasks index task found
  rwa [Nat.zero_add] at placed

theorem PlacedTask.task_eq
    (placed : PlacedTask config buffers answers index task done request new) :
    ∀ slice ∈ new.map Prod.snd, slice.task = index :=
  forall_mem_map.mpr fun entry listed => (placed.chosen entry listed).task_eq

theorem PlacedTask.sliced (placed : PlacedTask config buffers answers index task done request new) :
    SlicedTask config request task done (new.map Prod.snd) := by
  rw [placed.counted]
  refine ⟨rfl, placed.partition_, ?_, rfl⟩
  rw [← placed.partition_.total]
  rfl

theorem nodup_flatten_of_task {created : List (List Slice)}
    (within : ∀ (index : Nat) (slices : List Slice), created[index]? = some slices → slices.Nodup)
    (named : ∀ (index : Nat) (slices : List Slice), created[index]? = some slices →
      ∀ slice ∈ slices, slice.task = index) : created.flatten.Nodup := by
  refine nodup_flatten.mpr ⟨fun slices present => ?_, ?_⟩
  · obtain ⟨index, found⟩ := mem_iff_getElem?.mp present
    exact within index slices found
  · rw [pairwise_iff_getElem]
    intro first second firstInside secondInside before slice one other
    have here := named first _ (getElem?_eq_getElem firstInside) slice one
    have there := named second _ (getElem?_eq_getElem secondInside) slice other
    omega

end Submission

/-- A submission that succeeds has cut every request into slices, and each of them was handed
once to an active context, with the key of a buffer around it. -/
theorem submission_slices {contexts : Nat} (config : SubmitConfig)
    (segment : LocalSegment contexts) (surroundings : Surroundings contexts)
    (taskList : List TransferTask)
    (done : (submitLocal config segment surroundings taskList).outcome = .ok ()) :
    let submission := submitLocal config segment surroundings taskList
    ∃ created : List (List Slice), created.length = taskList.length ∧
      (∀ (index : Nat) task, taskList[index]? = some task →
        ∃ (request : TransferRequest) (after : TransferTask) (slices : List Slice),
        task.request = some request ∧ submission.tasks[index]? = some after ∧
        created[index]? = some slices ∧ SlicedTask config request task after slices) ∧
      created.flatten.Nodup ∧ submission.posted.Perm created.flatten ∧
      ∀ device slices, (device, slices) ∈ submission.calls → ∀ slice ∈ slices,
        WellPlaced segment surroundings device slice := by
  obtain ⟨created, length, perm, tasks⟩ := submitLocal_placed done
  have origin : ∀ index new, created[index]? = some new → ∃ task after request,
      taskList[index]? = some task ∧ PlacedTask config segment.buffers
        (surroundings.answers config segment.buffers taskList) index task after request new := by
    intro index new found
    have inside : index < taskList.length := length ▸ (List.getElem?_eq_some_iff.mp found).1
    obtain ⟨after, request, other, -, there, placed⟩ := tasks index _ (getElem?_eq_getElem inside)
    obtain rfl := Option.some.inj (there.symm.trans found)
    exact ⟨_, after, request, getElem?_eq_getElem inside, placed⟩
  have slicesOf : ∀ (index : Nat) (slices : List Slice),
      (created.map (List.map Prod.snd))[index]? = some slices →
        ∃ new, created[index]? = some new ∧ new.map Prod.snd = slices := fun index slices found =>
    Option.map_eq_some_iff.mp (getElem?_map.symm.trans found)
  refine ⟨created.map (List.map Prod.snd), by simp [length], ?_, ?_, ?_, ?_⟩
  · intro index task found
    obtain ⟨after, request, new, there, listed, placed⟩ := tasks index task found
    exact ⟨request, after, new.map Prod.snd, placed.requested, there, by simp [listed],
      placed.sliced⟩
  · refine nodup_flatten_of_task (fun index slices found => ?_) fun index slices found => ?_
    · obtain ⟨new, there, rfl⟩ := slicesOf index slices found
      obtain ⟨task, after, request, -, placed⟩ := origin index new there
      exact placed.partition_.source.nodup
    · obtain ⟨new, there, rfl⟩ := slicesOf index slices found
      obtain ⟨task, after, request, -, placed⟩ := origin index new there
      exact placed.task_eq
  · rw [← map_flatten]
    refine List.Perm.trans (.of_eq ?_) (perm.map Prod.snd)
    rw [map_snd_onDevice]
    rfl
  · intro device slices called slice inside
    have present : (device, slice) ∈ (submitLocal config segment surroundings
        taskList).calls.flatMap onDevice :=
      mem_flatMap.mpr ⟨_, called, mem_map_of_mem inside⟩
    obtain ⟨new, listed, placed⟩ := mem_flatten.mp (perm.mem_iff.mp present)
    obtain ⟨index, found⟩ := mem_iff_getElem?.mp listed
    obtain ⟨task, after, request, there, made⟩ := origin index new found
    have chosen := made.chosen _ placed
    rw [answers_of_request there made.requested] at chosen
    exact chosen.wellPlaced

def sampleSegment : LocalSegment 2 where
  buffers := [⟨"cpu:0", 4096, 64, [7, 8], [7, 8]⟩]
  lkeys := by simp

/-- The retry count names the device. -/
def sampleTopology : LocalTopology 2 where
  selectDevice _ retryCount := if retryCount = 0 then 0 else 1
  selectDeviceHinted _ _ _ := 0
  device_lt location hint retryCount := by
    simp only [Topology.select]
    split
    · split <;> decide
    · decide

/-- Ten bytes in slices of four. -/
theorem tenBytes_sliced :
    let submission := submitLocal smallSlices sampleSegment
      (.fixed (fun _ _ => false) sampleTopology fun _ => true) [.forRequest (requestOf 10)]
    submission.outcome = .ok () ∧
      submission.posted.map (fun slice => (slice.sourceAddr, slice.length)) =
        [(4096, 4), (4100, 4), (4104, 2)] ∧
      ∃ created : List (List Slice), submission.posted.Perm created.flatten ∧
        ∀ device slices, (device, slices) ∈ submission.calls → ∀ slice ∈ slices,
          WellPlaced sampleSegment (.fixed (fun _ _ => false) sampleTopology fun _ => true)
            device slice := by
  intro submission
  have done : submission.outcome = .ok () := by decide +kernel
  obtain ⟨created, -, -, -, perm, placed⟩ := submission_slices smallSlices sampleSegment
    (.fixed (fun _ _ => false) sampleTopology fun _ => true) [.forRequest (requestOf 10)] done
  exact ⟨done, by decide +kernel, created, perm, placed⟩

end Mooncake.Rdma
