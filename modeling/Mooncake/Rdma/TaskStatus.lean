import Mooncake.Rdma.SliceLoop

/-!
# The status of submitted tasks

Until a slice finds no active device, every task has counted the slices that were posted
or wait, and these cover its request up to the next offset.  A submission that ends early
drops the slices that wait and skips the others, which the counters do not tell.  So the
status of every task is faithful exactly when every slice finds its device.
-/

namespace Mooncake.Rdma

open Library.Indexed List

/-! ## What the counters of a task say -/

def Slice.Covers (slice : Slice) (request : TransferRequest) (byte : Nat) : Prop :=
  slice.sourceAddr ≤ request.source + byte ∧
    request.source + byte < slice.sourceAddr + slice.length

def Slice.ofTask (taskIndex : Nat) (slice : Slice) : Bool :=
  decide (slice.task = taskIndex)

/-- The task has counted its slices, and they are the request up to an offset. -/
structure Counted (taskIndex : Nat) (request : TransferRequest) (reach : Nat)
    (task : TransferTask) (slices : List Slice) : Prop where
  count : task.sliceCount = slices.countP (Slice.ofTask taskIndex)
  within : ∀ slice ∈ slices, slice.task = taskIndex →
    slice.sourceAddr + slice.length ≤ request.source + reach
  covers : ∀ byte < reach, ∃ slice ∈ slices, slice.task = taskIndex ∧ slice.Covers request byte

namespace Counted

variable {taskIndex reach : Nat} {request : TransferRequest} {task : TransferTask}
  {slices : List Slice}

variable {more : List Slice}

/-- The slices of other tasks and their order do not matter. -/
theorem congr (counted : Counted taskIndex request reach task slices) {others : List Slice}
    (perm : more.Perm (others ++ slices)) (foreign : ∀ slice ∈ others, slice.task ≠ taskIndex) :
    Counted taskIndex request reach task more where
  count := by
    rw [perm.countP_eq, countP_append, counted.count]
    have none_ : others.countP (Slice.ofTask taskIndex) = 0 :=
      countP_eq_zero.mpr fun slice present => by
        simpa [Slice.ofTask] using foreign slice present
    rw [none_, Nat.zero_add]
  within := by
    intro slice present mine
    rcases mem_append.mp (perm.mem_iff.mp present) with other | own
    · exact absurd mine (foreign slice other)
    · exact counted.within slice own mine
  covers := by
    intro byte inside
    obtain ⟨slice, present, mine, covered⟩ := counted.covers byte inside
    exact ⟨slice, perm.mem_iff.mpr (mem_append_right _ present), mine, covered⟩

end Counted

/-! ## One task -/

variable {config : SubmitConfig} {request : TransferRequest} {index : Nat} {posted : List Slice}
  {completed : List (Slice × Bool)}

/-- The same request and the same slices that have completed. -/
def TransferTask.SameRecord (task next : TransferTask) : Prop :=
  next.request = task.request ∧ next.successSliceCount = task.successSliceCount ∧
    next.failedSliceCount = task.failedSliceCount

/-- No slice of this task or of a later one was handed over. -/
def Posting.Before (posting : Posting) (start : Nat) : Prop :=
  ∀ slice ∈ posting.handed, slice.task < start

namespace Sliced

variable {buffers : List BufferDesc} {answers : TaskAnswers} {start reach : Nat}
  {task : TransferTask} {posting : Posting} {result : SubmitOutcome × TransferTask × Posting}
  {new : List (Nat × Slice)}
  (sliced : Sliced config buffers start request answers 0 0 task posting result reach new)

include sliced

theorem handed : result.2.2.handed.Perm (new.map Prod.snd ++ posting.handed) := by
  rw [Posting.handed_eq, Posting.handed_eq, ← map_append]
  exact sliced.placed.map Prod.snd

theorem task_eq : ∀ slice ∈ new.map Prod.snd, slice.task = start :=
  forall_mem_map.mpr fun placed present => (sliced.chosen placed present).task_eq

theorem sameRecord : task.SameRecord result.2.1 := by
  obtain ⟨listed, left, -⟩ := sliced.counted
  rw [left]
  exact ⟨rfl, rfl, rfl⟩

theorem counts (fresh : task.sliceCount = 0) (before : posting.Before start) :
    Counted start request reach result.2.1 result.2.2.handed := by
  obtain ⟨listed, left, -⟩ := sliced.counted
  have own : Counted start request reach result.2.1 (new.map Prod.snd) := by
    refine ⟨?_, fun slice present _ => ?_, fun byte inside => ?_⟩
    · have all : (new.map Prod.snd).countP (Slice.ofTask start) = (new.map Prod.snd).length :=
        countP_eq_length.mpr fun slice present => decide_eq_true (sliced.task_eq slice present)
      rw [all, left]
      simp [TransferTask.counted, fresh]
    · have positive := sliced.cut.source.positive slice present
      have covered := sliced.cut.source.cover.mp
        ⟨slice, present, (by omega : _ ≤ slice.sourceAddr + slice.length - 1), by omega⟩
      omega
    · obtain ⟨slice, present, covered⟩ :=
        sliced.cut.source.cover.mpr ⟨by omega, (by omega : request.source + byte < _)⟩
      exact ⟨slice, present, sliced.task_eq slice present, covered⟩
  exact own.congr (sliced.handed.trans perm_append_comm) fun slice present =>
    (before slice present).ne

theorem before (earlier : posting.Before start) : result.2.2.Before (start + 1) := by
  intro slice present
  rcases mem_append.mp (sliced.handed.mem_iff.mp present) with fresh | old
  · exact Nat.lt_succ_of_le (Nat.le_of_eq (sliced.task_eq slice fresh))
  · exact Nat.lt_succ_of_lt (earlier slice old)

end Sliced

/-! ## All tasks -/

def TransferTask.forRequest (request : TransferRequest) : TransferTask where
  request := some request

theorem TransferTask.request_forRequest (request : TransferRequest) :
    (forRequest request).request = some request :=
  rfl

section Tasks

variable {buffers : List BufferDesc} {answers : Nat → TaskAnswers}

def AllServed (config : SubmitConfig) (answers : Nat → TaskAnswers) (start : Nat)
    (requests : List TransferRequest) : Prop :=
  ∀ index request, requests[index]? = some request → ∀ slice,
    HasSlice config request slice →
      SliceServed config request (answers (start + index)) slice

variable {start : Nat} {posting : Posting} {requests : List TransferRequest}

theorem allServed_cons {rest : List TransferRequest} :
    AllServed config answers start (request :: rest) ↔
      (∀ slice, HasSlice config request slice →
        SliceServed config request (answers start) slice) ∧
      AllServed config answers (start + 1) rest :=
  forall_getElem?_cons (P := fun index request => ∀ slice, HasSlice config request slice →
    SliceServed config request (answers index) slice)

variable (config) (buffers) (answers) (start) (posting) in
/-- A task with a request is sliced, and the others follow if it is sliced as a whole. -/
theorem submitTasks_cons {task : TransferTask} (requested : task.request = some request)
    (rest : List TransferTask) :
    ∃ outcome done next reach new, Sliced config buffers start request (answers start) 0 0 task
        posting (outcome, done, next) reach new ∧
      (∀ error, outcome = .error error →
        submitTasks config buffers answers start (task :: rest) posting =
          ⟨.error error, done :: rest, next.calls⟩) ∧
      (outcome = .ok () →
        let later := submitTasks config buffers answers (start + 1) rest next
        submitTasks config buffers answers start (task :: rest) posting =
          { later with tasks := done :: later.tasks }) := by
  obtain ⟨reach, new, sliced⟩ := submitSlices_start config request buffers start (answers start)
    task { posting with nrSlices := 0 }
  refine ⟨_, _, _, reach, new, { sliced with }, fun error failed => ?_, fun passed => ?_⟩ <;>
    simp only [submitTasks, requested]
  · split <;> simp_all
  · split <;> simp_all

variable (buffers) in
/-- When every slice finds its device, every task is posted as a whole. -/
theorem submitTasks_served (before : posting.Before start)
    (served : AllServed config answers start requests) :
    let result := submitTasks config buffers answers start
      (requests.map .forRequest) posting
    (∃ new, result.posted.Perm (new ++ posting.handed) ∧ ∀ slice ∈ new, start ≤ slice.task) ∧
      ∀ index task, result.tasks[index]? = some task → ∃ request,
        requests[index]? = some request ∧
        (TransferTask.forRequest request).SameRecord task ∧
        Counted (start + index) request request.length task result.posted := by
  induction requests generalizing start posting with
  | nil => exact ⟨⟨[], .of_eq posting.posted_post, nofun⟩, nofun⟩
  | cons request rest ih =>
    obtain ⟨first, others⟩ := allServed_cons.mp served
    obtain ⟨outcome, done, next, reach, own, sliced, -, step⟩ := submitTasks_cons config buffers
      answers start posting (TransferTask.request_forRequest request) (rest.map .forRequest)
    obtain rfl : outcome = .ok () := sliced.served.mpr fun later _ => first later
    obtain rfl := sliced.whole.mp rfl
    obtain ⟨⟨new, perm, late⟩, tasks⟩ := ih (sliced.before before) others
    rw [map_cons, step rfl]
    refine ⟨⟨new ++ own.map Prod.snd, ?_, ?_⟩, ?_⟩
    · rw [append_assoc]
      exact perm.trans (sliced.handed.append_left new)
    · intro slice present
      rcases mem_append.mp present with later | here
      · exact Nat.le_of_succ_le (late slice later)
      · exact Nat.le_of_eq (sliced.task_eq slice here).symm
    · intro index task found
      cases index with
      | zero =>
        obtain rfl := Option.some.inj found
        refine ⟨request, rfl, sliced.sameRecord,
          (sliced.counts rfl before).congr perm fun slice later same => ?_⟩
        have := late slice later
        omega
      | succ index =>
        rw [← Nat.add_assoc, Nat.add_right_comm]
        exact tasks index task found

variable (buffers) in
/-- When a slice finds no device, its task has counted exactly the slices up to it, and some of
them may have been dropped. -/
theorem submitTasks_unserved (before : posting.Before start)
    (unserved : ¬ AllServed config answers start requests) :
    let result := submitTasks config buffers answers start
      (requests.map .forRequest) posting
    ∃ index task request reach dropped, result.tasks[index]? = some task ∧
      (TransferTask.forRequest request).SameRecord task ∧ reach < request.length ∧
      Counted (start + index) request reach task (result.posted ++ dropped) := by
  induction requests generalizing start posting with
  | nil => exact absurd nofun unserved
  | cons request rest ih =>
    obtain ⟨outcome, done, next, reach, own, sliced, stops, step⟩ := submitTasks_cons config
      buffers answers start posting (TransferTask.request_forRequest request)
      (rest.map .forRequest)
    rw [map_cons]
    cases outcome with
    | error error =>
      rw [stops error rfl]
      have short : reach ≠ request.length := fun same => nomatch sliced.whole.mpr same
      exact ⟨0, done, request, reach, next.waiting, rfl, sliced.sameRecord,
        Nat.lt_of_le_of_ne sliced.bounded short, sliced.counts rfl before⟩
    | ok passed =>
      rw [step rfl]
      have others : ¬ AllServed config answers (start + 1) rest := fun others =>
        unserved (allServed_cons.mpr
          ⟨fun slice => sliced.served.mp rfl slice (Nat.zero_le _), others⟩)
      obtain ⟨index, task, other, reach, dropped, found, same, short, counted⟩ :=
        ih (sliced.before before) others
      refine ⟨index + 1, task, other, reach, dropped, found, same, short, ?_⟩
      rwa [← Nat.add_assoc, Nat.add_right_comm]

end Tasks

/-! ## Completion -/

/-- What the completions of its own slices make of a task. -/
def TransferTask.markAll (index : Nat) (task : TransferTask) (completed : List (Slice × Bool)) :
    TransferTask :=
  completed.foldl
    (fun task entry => if entry.1.ofTask index then task.mark entry.1 entry.2 else task) task

theorem completeAll_getElem? (tasks : List TransferTask) (completed : List (Slice × Bool))
    (index : Nat) :
    (completeAll tasks completed)[index]? =
      tasks[index]?.map fun task => task.markAll index completed := by
  induction completed generalizing tasks with
  | nil => exact Option.map_id'.symm
  | cons entry rest ih =>
    refine (ih _).trans ?_
    rw [getElem?_modify]
    cases tasks[index]? with
    | none => rfl
    | some task => simp [TransferTask.markAll, Slice.ofTask]

/-- The completion of a slice of the task, with the given outcome. -/
def completionOf (index : Nat) (success : Bool) (entry : Slice × Bool) : Bool :=
  entry.1.ofTask index && entry.2 == success

theorem TransferTask.markAll_counts (index : Nat) (task : TransferTask)
    (completed : List (Slice × Bool)) :
    (task.markAll index completed).request = task.request ∧
      (task.markAll index completed).sliceCount = task.sliceCount ∧
      (task.markAll index completed).successSliceCount =
        task.successSliceCount + completed.countP (completionOf index true) ∧
      (task.markAll index completed).failedSliceCount =
        task.failedSliceCount + completed.countP (completionOf index false) := by
  induction completed generalizing task with
  | nil => exact ⟨rfl, rfl, rfl, rfl⟩
  | cons entry rest ih =>
    obtain ⟨slice, success⟩ := entry
    cases mine : slice.ofTask index with
    | false =>
      have step : task.markAll index ((slice, success) :: rest) =
          task.markAll index rest := by simp [markAll, mine]
      rw [step]
      simpa [completionOf, mine] using ih task
    | true =>
      have step : task.markAll index ((slice, success) :: rest) =
          (task.mark slice success).markAll index rest := by simp [markAll, mine]
      obtain ⟨request, count, successes, failures⟩ := ih (task.mark slice success)
      rw [step, request, count, successes, failures]
      cases success <;> simp [completionOf, mine, mark] <;> omega

/-! ## Faithful status -/

/-- The status of a task whose slices have completed: it is decided, a completed task was
transferred as a whole, and exactly the posted slices were counted. -/
structure TaskFaithful (index : Nat) (request : TransferRequest) (task : TransferTask)
    (status : TransferStatus) (completed : List (Slice × Bool)) : Prop where
  decided : status.s = .completed ∨ status.s = .failed
  whole : status.s = .completed → ∀ byte < request.length, ∃ entry ∈ completed,
    entry.1.task = index ∧ entry.1.Covers request byte ∧ entry.2 = true
  count : task.sliceCount = completed.countP fun entry => entry.1.ofTask index

/-- However the posted slices complete, and in whatever order, the status of every task is
faithful after that. -/
def Submission.Faithful (submission : Submission) : Prop :=
  ∀ completed : List (Slice × Bool), (completed.map Prod.fst).Perm submission.posted →
    ∀ index task request status,
      (completeAll submission.tasks completed)[index]? = some task →
      task.request = some request →
      (getTransferStatus (completeAll submission.tasks completed)).1[index]? = some status →
      TaskFaithful index request task status completed

theorem countP_completionOf (index : Nat) (completed : List (Slice × Bool)) :
    completed.countP (fun entry => entry.1.ofTask index) =
      completed.countP (completionOf index true) +
        completed.countP (completionOf index false) := by
  induction completed with
  | nil => rfl
  | cons entry rest ih =>
    obtain ⟨slice, success⟩ := entry
    cases mine : slice.ofTask index <;> cases success <;>
      simp [completionOf, mine, ih] <;> omega

theorem getTransferStatus_getElem? {tasks : List TransferTask} {task : TransferTask}
    {status : TransferStatus} (found : tasks[index]? = some task)
    (reported : (getTransferStatus tasks).1[index]? = some status) : status = task.status := by
  rw [getTransferStatus, getElem?_map, found] at reported
  exact (Option.some.inj reported).symm

theorem Submission.Faithful.task {submission : Submission} (faithful : submission.Faithful)
    (completed : List (Slice × Bool)) (perm : (completed.map Prod.fst).Perm submission.posted)
    {task : TransferTask} (found : submission.tasks[index]? = some task)
    (requested : task.request = some request) :
    TaskFaithful index request (task.markAll index completed)
      (task.markAll index completed).status completed := by
  have marked : (completeAll submission.tasks completed)[index]? =
      some (task.markAll index completed) := by
    rw [completeAll_getElem?, found]
    rfl
  refine faithful completed perm index _ request _ marked ?_ ?_
  · exact (task.markAll_counts index completed).1.trans requested
  · rw [getTransferStatus, getElem?_map, marked]
    rfl

/-- A task that was posted as a whole has a faithful status. -/
theorem taskFaithful_of_counted {task : TransferTask} (perm : (completed.map Prod.fst).Perm posted)
    (same : (TransferTask.forRequest request).SameRecord task)
    (counted : Counted index request request.length task posted) :
    TaskFaithful index request (task.markAll index completed)
      (task.markAll index completed).status completed := by
  obtain ⟨-, count, successes, failures⟩ := task.markAll_counts index completed
  obtain ⟨-, noSuccess, noFailure⟩ := same
  have total : task.sliceCount = completed.countP fun entry => entry.1.ofTask index := by
    rw [counted.count, ← perm.countP_eq, countP_map]
    rfl
  have split := countP_completionOf index completed
  have start : task.successSliceCount = 0 ∧ task.failedSliceCount = 0 := ⟨noSuccess, noFailure⟩
  have all : (task.markAll index completed).successSliceCount +
      (task.markAll index completed).failedSliceCount =
        (task.markAll index completed).sliceCount := by omega
  refine ⟨?_, ?_, count.trans total⟩
  · simp only [TransferTask.status, all, if_true]
    split
    · exact .inr rfl
    · exact .inl rfl
  · intro finished byte inside
    have clean : completed.countP (completionOf index false) = 0 := by
      by_contra some_
      have failed : (task.markAll index completed).failedSliceCount ≠ 0 := by omega
      simp [TransferTask.status, all, failed] at finished
    obtain ⟨slice, present, mine, covered⟩ := counted.covers byte inside
    obtain ⟨entry, listed, rfl⟩ := mem_map.mp (perm.mem_iff.mpr present)
    refine ⟨entry, listed, mine, covered, ?_⟩
    simpa [completionOf, Slice.ofTask, mine] using countP_eq_zero.mp clean entry listed

/-- A task that lacks a slice is reported as completed when all its slices were posted and
succeed. -/
theorem not_taskFaithful_of_short {reach : Nat} {task : TransferTask} {dropped : List Slice}
    (allSucceed : completed = posted.map fun slice => (slice, true))
    (same : (TransferTask.forRequest request).SameRecord task) (short : reach < request.length)
    (counted : Counted index request reach task (posted ++ dropped)) :
    ¬ TaskFaithful index request (task.markAll index completed)
      (task.markAll index completed).status completed := by
  intro faithful
  obtain ⟨-, count, successes, failures⟩ := task.markAll_counts index completed
  have start : task.successSliceCount = 0 ∧ task.failedSliceCount = 0 := ⟨same.2.1, same.2.2⟩
  have clean : completed.countP (completionOf index false) = 0 := by
    rw [allSucceed, countP_eq_zero]
    simp [completionOf]
  have split := countP_completionOf index completed
  have total := faithful.count
  have finished : (task.markAll index completed).status.s = .completed := by
    have all : (task.markAll index completed).successSliceCount =
        (task.markAll index completed).sliceCount := by omega
    have none_ : (task.markAll index completed).failedSliceCount = 0 := by omega
    simp [TransferTask.status, all, none_]
  obtain ⟨entry, listed, mine, covered, -⟩ := faithful.whole finished reach short
  have posted_ : entry.1 ∈ posted := by
    rw [allSucceed] at listed
    obtain ⟨slice, present, rfl⟩ := mem_map.mp listed
    exact present
  have bound := counted.within entry.1 (mem_append_left _ posted_) mine
  have beyond := covered.2
  omega

/-- After a submission and the completion of what was posted, every status is faithful exactly
when every slice of every task finds an active device. -/
theorem submission_faithful_iff (config : SubmitConfig) (buffers : List BufferDesc)
    (answers : Nat → TaskAnswers) (requests : List TransferRequest) :
    (submitTransferTask config buffers answers (requests.map .forRequest)).Faithful ↔
      AllServed config answers 0 requests := by
  have before : ({} : Posting).Before 0 := nofun
  constructor
  · intro faithful
    by_contra unserved
    obtain ⟨index, task, request, reach, dropped, found, same, short, counted⟩ :=
      submitTasks_unserved buffers before unserved
    rw [Nat.zero_add] at counted
    refine not_taskFaithful_of_short rfl same short counted (faithful.task _ ?_ found same.1)
    rw [map_map]
    exact .of_eq (map_id _)
  · intro served completed perm index task request status found requested reported
    obtain ⟨-, whole⟩ := submitTasks_served buffers before served
    obtain rfl := getTransferStatus_getElem? found reported
    rw [completeAll_getElem?] at found
    obtain ⟨done, present, rfl⟩ := Option.map_eq_some_iff.mp found
    obtain ⟨other, -, same, counted⟩ := whole index done present
    rw [(TransferTask.markAll_counts index done completed).1, same.1] at requested
    obtain rfl := Option.some.inj requested
    rw [Nat.zero_add] at counted
    exact taskFaithful_of_counted perm same counted

/-- Slices of four bytes, which are posted ten at a time. -/
def smallSlices : SubmitConfig where
  sliceSize := 4
  fragmentLimit := 0
  retryCnt := 1
  maxWr := 10
  numQpPerEp := 1
  sliceSize_pos := by decide
  limit_lt := by decide

def requestOf (length : Nat) : TransferRequest where
  opcode := .write
  source := 4096
  targetId := 1
  targetOffset := 0
  length := length
  adviseRetryCnt := 0

/-- Only the first slice of a task finds a device. -/
def firstSliceOnly : TaskAnswers where
  selectDevice := none
  slice index :=
    { fromCache := false
      selectDevice := fun _ => if index = 0 then some ⟨0, 0⟩ else none
      active := fun _ => true
      activeToPost := true }

/-- The second slice of the first task finds no device: no slice is posted, the first task
waits for ever and the second one is reported as completed. -/
theorem droppedSlices_status :
    let submission := submitTransferTask smallSlices [] (fun _ => firstSliceOnly)
      [.forRequest (requestOf 8), .forRequest (requestOf 4)]
    submission.outcome = .error (.addressNotRegistered 4100) ∧ submission.posted = [] ∧
      (getTransferStatus (completeAll submission.tasks [])).1.map TransferStatus.s =
        [.waiting, .completed] ∧
      ¬ submission.Faithful := by
  intro submission
  have posted : submission.posted = [] := by decide +kernel
  refine ⟨by decide +kernel, posted, by decide +kernel, fun faithful => ?_⟩
  have first : submission.tasks[0]?.map (fun task => (task.request, task.status.s)) =
      some (some (requestOf 8), .waiting) := by decide +kernel
  obtain ⟨task, found, fields⟩ := Option.map_eq_some_iff.mp first
  have decided := (faithful.task [] (by rw [posted]; exact .nil) found
    (congrArg Prod.fst fields)).decided
  have waiting : task.status.s = .waiting := congrArg Prod.snd fields
  exact decided.elim (fun done => nomatch waiting.symm.trans done)
    fun failed => nomatch waiting.symm.trans failed

/-! ## New entries -/

/-- One new task for each entry, with the entry as its request; exactly these are handed over,
and the earlier tasks stay as they are. -/
structure SubmitsNew (batch : BatchDesc) (entries : List TransferRequest)
    (submission : Submission) : Prop where
  created : (submission.tasks.drop batch.taskList.length).map TransferTask.request =
    entries.map some
  handed : batch.submittedTasks entries = entries.map .forRequest
  earlier : submission.tasks.take batch.taskList.length = batch.taskList

/-- Within the capacity of the batch, only the empty submission to an empty batch does what it
should: the requests of the new tasks are never set, and the earlier tasks are handed over
again. -/
theorem submitTransfer_submitsNew_iff (config : SubmitConfig) (buffers : List BufferDesc)
    (answers : Nat → TaskAnswers) (batch : BatchDesc) (entries : List TransferRequest) :
    SubmitsNew batch entries (submitTransfer config buffers answers batch entries) ↔
      batch.taskList = [] ∧ entries = [] := by
  constructor
  · intro submits
    have handed := submits.handed
    rw [BatchDesc.submittedTasks, BatchDesc.resized] at handed
    have lengths := congrArg List.length handed
    simp only [length_append, length_replicate, length_map] at lengths
    have none_ : batch.taskList = [] := eq_nil_of_length_eq_zero (by omega)
    refine ⟨none_, ?_⟩
    cases entries with
    | nil => rfl
    | cons entry rest =>
      rw [none_, nil_append, length_cons, replicate_succ, map_cons] at handed
      exact nomatch congrArg TransferTask.request (List.cons.inj handed).1
  · rintro ⟨none_, rfl⟩
    have empty : batch.submittedTasks [] = [] := by
      simp [BatchDesc.submittedTasks, BatchDesc.resized, none_]
    have result : submitTransfer config buffers answers batch [] =
        submitTransferTask config buffers answers [] := by
      simp [submitTransfer, none_, empty]
    rw [result]
    exact ⟨by simp [submitTransferTask, submitTasks], empty, by simp [none_]⟩

/-- A task of an earlier submission is sliced once more, and the new task has no request. -/
theorem secondSubmission_repeats :
    let served : TaskAnswers := ⟨some ⟨0, 0⟩, fun _ => ⟨false, fun _ => none, fun _ => true, true⟩⟩
    let batch : BatchDesc := ⟨2, [{ request := some (requestOf 4), sliceCount := 1 }]⟩
    let submission := submitTransfer smallSlices [] (fun _ => served) batch [requestOf 4]
    submission.outcome = .error .nullRequest ∧
      submission.tasks.map TransferTask.sliceCount = [2, 0] ∧
      submission.tasks.map TransferTask.request = [some (requestOf 4), none] ∧
      ¬ SubmitsNew batch [requestOf 4] submission := by
  refine ⟨by decide +kernel, by decide +kernel, by decide +kernel, fun submits => ?_⟩
  exact absurd submits.created (by decide +kernel)

end Mooncake.Rdma
