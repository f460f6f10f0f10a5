import Mooncake.Rdma.Slicing

/-!
# Failover at submission

A slice tries one retry count after the other until the topology names an active device.  The
device that is named for the whole request at retry count 0 is taken without a look at its
activity, and then no slice tries another.
-/

namespace Mooncake.Rdma

open Library.Indexed List

/-! ## When a submission succeeds -/

theorem submitTasks_ok_iff {config : SubmitConfig} {buffers : List BufferDesc}
    {answers : Nat → TaskAnswers} {start : Nat} {tasks : List TransferTask} {posting : Posting} :
    (submitTasks config buffers answers start tasks posting).outcome = .ok () ↔
      ∀ index task, tasks[index]? = some task → ∃ request, task.request = some request ∧
        ∀ slice, HasSlice config request slice →
          SliceServed config request (answers (start + index)) slice := by
  induction tasks generalizing start posting with
  | nil => exact iff_of_true rfl (by simp)
  | cons task rest ih =>
    rw [forall_getElem?_cons (P := fun index (task : TransferTask) =>
      ∃ request, task.request = some request ∧ ∀ slice, HasSlice config request slice →
        SliceServed config request (answers index) slice)]
    cases requested : task.request with
    | none =>
      rw [submitTasks, requested]
      simp
    | some request =>
      obtain ⟨outcome, done, next, reach, new, sliced, stops, step⟩ :=
        submitTasks_cons config buffers answers start posting requested rest
      have passes : outcome = .ok () ↔ _ := sliced.served
      cases outcome with
      | error error =>
        rw [stops error rfl]
        refine iff_of_false (by simp) fun all => ?_
        obtain ⟨other, same, served⟩ := all.1
        cases same
        cases passes.mpr fun later _ => served later
      | ok passed => simpa [step rfl, ih] using fun _ => passes

section Served

variable {contexts : Nat} {config : SubmitConfig} {segment : LocalSegment contexts}
  {surroundings : Surroundings contexts} {taskList : List TransferTask} {task : Nat}
  {request : TransferRequest}

theorem sliceServed_iff (buffers : List BufferDesc) (index : Nat) :
    SliceServed config request (surroundings.taskAnswers config buffers task request) index ↔
      ∃ selected, surroundings.chosenDevice config buffers task request
          (sliceAt config task request (index * config.sliceSize)) = some selected ∧
        surroundings.activeToPost task (request.source + index * config.sliceSize)
          selected.deviceId = true := by
  rw [SliceServed, ← sliceDevice_isSome_iff, sliceDevice_taskAnswers]
  change _ ∧ (Option.any _ (surroundings.chosenDevice config buffers task request _)) = true ↔ _
  cases surroundings.chosenDevice config buffers task request
      (sliceAt config task request (index * config.sliceSize)) with
  | none => simp
  | some selected => simp [sliceAt]

theorem submitLocal_ok_iff :
    (submitLocal config segment surroundings taskList).outcome = .ok () ↔
      ∀ index task, taskList[index]? = some task → ∃ request, task.request = some request ∧
        ∀ slice, HasSlice config request slice → SliceServed config request
          (surroundings.taskAnswers config segment.buffers index request) slice := by
  refine submitTasks_ok_iff.trans (forall_congr' fun index => forall_congr' fun task =>
    forall_congr' fun found => exists_congr fun request => and_congr_right fun requested => ?_)
  rw [Nat.zero_add, answers_of_request found requested]

end Served

/-! ## Retries -/

section Failover

variable {contexts : Nat} (config : SubmitConfig) (segment : LocalSegment contexts)
  (fromCache : (task sourceAddr : Nat) → Bool) (topology : LocalTopology contexts)
  (active : Nat → Bool)

/-- Each slice of the request finds an active device at some retry count. -/
def Servable (request : TransferRequest) : Prop :=
  ∀ index, HasSlice config request index →
    ∃ retryCount, request.adviseRetryCnt ≤ retryCount ∧ retryCount < config.retryCnt ∧
      ∃ selected, selectDevice (fun _ => topology.toTopology)
          ((request.source + index * config.sliceSize) % 2 ^ 64)
          (sliceAt config 0 request (index * config.sliceSize)).length "" retryCount
          segment.buffers = some selected ∧
        active selected.deviceId = true

/-- A submission of tasks that succeeds still does so with one more task for the request. -/
def NotBlamed (request : TransferRequest) : Prop :=
  ∀ (earlier : List TransferTask) (task : TransferTask), task.request = some request →
    (submitLocal config segment (.fixed fromCache topology active) earlier).outcome = .ok () →
      (submitLocal config segment (.fixed fromCache topology active)
        (earlier ++ [task])).outcome = .ok ()

/-- The first buffer around the whole request with a device at retry count 0 has an active
one, if there is such a buffer. -/
def FirstChoiceActive (request : TransferRequest) : Prop :=
  ∀ selected, selectDevice (fun _ => topology.toTopology) (request.source % 2 ^ 64)
      request.length "" 0 segment.buffers = some selected → active selected.deviceId = true

variable {config segment fromCache topology active}

theorem retryDevice_active {request : TransferRequest} {task : Nat} {slice : Slice}
    {selected : Selected}
    (retried : retryDevice config request
      ((Surroundings.fixed fromCache topology active).sliceAnswers segment.buffers task slice
        false) = some selected) : active selected.deviceId = true := by
  obtain ⟨retry, -, found⟩ := exists_of_findSome?_eq_some retried
  obtain ⟨named, passes⟩ := Option.filter_eq_some_iff.mp found
  simp only [Surroundings.sliceAnswers] at named passes
  rw [named] at passes
  exact passes

/-- Under the retries that the request allows, a slice is served unless the device for the
whole request is inactive. -/
theorem servable_sliceServed_iff {request : TransferRequest}
    (servable : Servable config segment topology active request) {index : Nat}
    (has : HasSlice config request index) {task : Nat} :
    SliceServed config request ((Surroundings.fixed fromCache topology active).taskAnswers config
        segment.buffers task request) index ↔
      FirstChoiceActive segment topology active request := by
  rw [sliceServed_iff]
  unfold FirstChoiceActive Surroundings.chosenDevice
  change _ ↔ ∀ selected, (Surroundings.fixed fromCache topology active).requestDevice
    segment.buffers task request = some selected → _
  cases (Surroundings.fixed fromCache topology active).requestDevice segment.buffers task
      request with
  | some whole =>
    simp only [Option.some.injEq, forall_eq', exists_eq_left']
    rfl
  | none =>
    refine iff_of_true ?_ nofun
    obtain ⟨retryCount, above, below, selected, named, works⟩ := servable index has
    have retried : (Surroundings.fixed fromCache topology active).retried segment.buffers task
        (sliceAt config task request (index * config.sliceSize)) retryCount = some selected :=
      named
    have found : (retryDevice config request
        ((Surroundings.fixed fromCache topology active).sliceAnswers segment.buffers task
          (sliceAt config task request (index * config.sliceSize)) false)).isSome := by
      refine retryDevice_isSome_iff.mpr ⟨retryCount, above, below, ?_, ?_⟩
      · exact Option.isSome_iff_exists.mpr ⟨selected, retried⟩
      · simp only [Surroundings.sliceAnswers, retried]
        exact works
    obtain ⟨device, chosen⟩ := Option.isSome_iff_exists.mp found
    exact ⟨device, chosen, retryDevice_active chosen⟩

/-- A request whose slices all find an active device at some retry count is never the reason
of an error exactly when it is empty, or the device for the whole request is active. -/
theorem submission_failover_iff {contexts : Nat} (config : SubmitConfig)
    (segment : LocalSegment contexts) (fromCache : (task sourceAddr : Nat) → Bool)
    (topology : LocalTopology contexts) (active : Nat → Bool) (request : TransferRequest)
    (servable : Servable config segment topology active request) :
    NotBlamed config segment fromCache topology active request ↔
      request.length = 0 ∨ FirstChoiceActive segment topology active request := by
  constructor
  · intro fine
    rw [or_iff_not_imp_left]
    intro nonempty
    have has : HasSlice config request 0 := by
      simpa [HasSlice] using Nat.pos_of_ne_zero nonempty
    have alone := fine [] (.forRequest request) rfl (by rfl)
    obtain ⟨other, same, served⟩ := submitLocal_ok_iff.mp alone 0 (.forRequest request) rfl
    obtain rfl := Option.some.inj same
    exact (servable_sliceServed_iff servable has).mp (served 0 has)
  · intro condition earlier task requested passed
    rw [submitLocal_ok_iff] at passed ⊢
    intro index other found
    rcases Nat.lt_or_ge index earlier.length with early | late
    · rw [getElem?_append_left early] at found
      exact passed index other found
    · obtain ⟨same, rfl⟩ : index = earlier.length ∧ task = other := by
        rw [getElem?_append_right late, getElem?_singleton] at found
        split at found
        · exact ⟨by omega, Option.some.inj found⟩
        · cases found
      refine ⟨request, requested, fun slice has => ?_⟩
      rcases condition with empty | works
      · have inside := has.lt rfl
        omega
      · exact (servable_sliceServed_iff servable has).mpr works

end Failover

/-! ## Two devices -/

def twoTries : SubmitConfig :=
  { smallSlices with retryCnt := 2 }

theorem oneSlice_servable {active : Nat → Bool} (some_ : active 0 = true ∨ active 1 = true) :
    Servable twoTries sampleSegment sampleTopology active (requestOf 4) := by
  intro index has
  obtain rfl : index = 0 := by
    by_contra other
    rw [HasSlice, if_neg other] at has
    change index * 4 + 0 < 4 at has
    omega
  rcases some_ with first | second
  · exact ⟨0, by decide, by decide, ⟨0, 0⟩, by decide, first⟩
  · exact ⟨1, by decide, by decide, ⟨0, 1⟩, by decide, second⟩

/-- The first device is active. -/
theorem firstDevice_serves :
    Servable twoTries sampleSegment sampleTopology (fun device => device = 0) (requestOf 4) ∧
      NotBlamed twoTries sampleSegment (fun _ _ => false) sampleTopology
        (fun device => device = 0) (requestOf 4) := by
  have servable := @oneSlice_servable (fun device => device = 0) (.inl rfl)
  refine ⟨servable, (submission_failover_iff twoTries sampleSegment (fun _ _ => false)
    sampleTopology (fun device => device = 0) (requestOf 4) servable).mpr (.inr ?_)⟩
  intro selected found
  have first : selectDevice (fun _ => sampleTopology.toTopology) ((requestOf 4).source % 2 ^ 64)
      (requestOf 4).length "" 0 sampleSegment.buffers = some ⟨0, 0⟩ := by decide
  obtain rfl := Option.some.inj (first.symm.trans found)
  rfl

/-- Only the second device is active: the slice would find it at the first retry, and the
submission ends with an error about the first one. -/
theorem secondDevice_not_tried :
    let active : Nat → Bool := fun device => device = 1
    Servable twoTries sampleSegment sampleTopology active (requestOf 4) ∧
      (submitLocal twoTries sampleSegment (.fixed (fun _ _ => false) sampleTopology active)
        [.forRequest (requestOf 4)]).outcome = .error (.deviceNotActive 0) ∧
      ¬ NotBlamed twoTries sampleSegment (fun _ _ => false) sampleTopology active
        (requestOf 4) := by
  intro active
  have failed : (submitLocal twoTries sampleSegment
      (.fixed (fun _ _ => false) sampleTopology active)
      [.forRequest (requestOf 4)]).outcome = .error (.deviceNotActive 0) := by decide +kernel
  refine ⟨oneSlice_servable (.inr rfl), failed, fun fine => ?_⟩
  cases failed.symm.trans (fine [] (.forRequest (requestOf 4)) rfl rfl)

end Mooncake.Rdma
