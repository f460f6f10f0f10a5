import Mooncake.Rdma.Registration

/-!
# Submission of transfers

A task is cut into slices.  Each slice looks for an active device, joins the slices that
wait for that device, and is counted by its task.  The waiting slices are posted when
enough of them were allocated, and at the end.  The selection of devices, the slice cache
and the activity of the devices answer each question in an arbitrary way.
-/

namespace Mooncake.Rdma

inductive Opcode where
  | read
  | write
  deriving DecidableEq, Repr

structure TransferRequest where
  opcode : Opcode
  source : Nat
  targetId : Nat
  targetOffset : Nat
  length : Nat
  adviseRetryCnt : Int
  deriving DecidableEq, Repr

/-- A slice; its task is given by the position in the list of tasks. -/
structure Slice where
  task : Nat
  sourceAddr : Nat
  length : Nat
  opcode : Opcode
  destAddr : Nat
  retryCnt : Int
  maxRetryCnt : Int
  targetId : Nat
  sourceLkey : Option UInt32
  deriving DecidableEq, Repr

structure TransferTask where
  request : Option TransferRequest := none
  sliceList : List Slice := []
  totalBytes : Nat := 0
  sliceCount : Nat := 0
  successSliceCount : Nat := 0
  failedSliceCount : Nat := 0
  transferredBytes : Nat := 0
  isFinished : Bool := false
  deriving DecidableEq, Repr

/-- The parts of the global configuration that are read; slices are not empty, and the limit
of the last one is a machine word. -/
structure SubmitConfig where
  sliceSize : Nat
  fragmentLimit : Nat
  retryCnt : Int
  maxWr : Nat
  numQpPerEp : Nat
  sliceSize_pos : 0 < sliceSize
  limit_lt : sliceSize + fragmentLimit < 2 ^ 64

def SubmitConfig.submitWatermark (config : SubmitConfig) : Nat :=
  config.maxWr * config.numQpPerEp

/-- A buffer and a device, as `selectDevice` returns them with code 0. -/
structure Selected where
  bufferId : Nat
  deviceId : Nat
  deriving DecidableEq, Repr

/-- What a slice is answered: by the slice cache, by `selectDevice` for each retry count, by
the selected device after that, and by its device before it joins the others. -/
structure SliceAnswers where
  fromCache : Bool
  selectDevice : Int → Option Selected
  active : Int → Bool
  activeToPost : Bool

/-- The device that is selected for the whole request, and the answers for each slice. -/
structure TaskAnswers where
  selectDevice : Option Selected
  slice : Nat → SliceAnswers

inductive SubmitError where
  | addressNotRegistered (sourceAddr : Nat)
  | deviceNotActive (deviceId : Nat)
  | exceedsCapacity
  | nullRequest
  deriving DecidableEq, Repr

abbrev SubmitOutcome := Except SubmitError Unit

/-! ## Slices that wait -/

/-- The slices that wait for each device, the calls of `submitPostSend` with their device, and
the number of slices that were allocated since the last post. -/
structure Posting where
  slicesToPost : List (Nat × List Slice) := []
  calls : List (Nat × List Slice) := []
  nrSlices : Nat := 0

/-- `slices_to_post[context].push_back(slice)`. -/
def pushSlice (device : Nat) (slice : Slice) :
    List (Nat × List Slice) → List (Nat × List Slice)
  | [] => [(device, [slice])]
  | (other, slices) :: rest =>
    if other = device then (other, slices ++ [slice]) :: rest
    else (other, slices) :: pushSlice device slice rest

namespace Posting

variable (posting : Posting)

def waiting : List Slice :=
  posting.slicesToPost.flatMap Prod.snd

def posted : List Slice :=
  posting.calls.flatMap Prod.snd

def allocate (fromCache : Bool) : Posting :=
  if fromCache then posting else { posting with nrSlices := posting.nrSlices + 1 }

def push (device : Nat) (slice : Slice) : Posting :=
  { posting with slicesToPost := pushSlice device slice posting.slicesToPost }

def post : Posting where
  slicesToPost := []
  calls := posting.calls ++ posting.slicesToPost
  nrSlices := 0

def postAt (watermark : Nat) : Posting :=
  if watermark ≤ posting.nrSlices then posting.post else posting

end Posting

/-! ## One task -/

section Task

variable (config : SubmitConfig) (buffers : List BufferDesc) (taskIndex : Nat)
  (request : TransferRequest) (answers : TaskAnswers)

/-- The retries: the first selected device that is active. -/
def retryDevice (slice : SliceAnswers) : Option Selected :=
  (List.range (config.retryCnt - request.adviseRetryCnt).toNat).findSome? fun (retry : Nat) =>
    (slice.selectDevice (request.adviseRetryCnt + retry)).filter fun _ =>
      slice.active (request.adviseRetryCnt + retry)

/-- The device of the request, or else one for the slice. -/
def sliceDevice (index : Nat) : Option Selected :=
  match answers.selectDevice with
  | some selected => some selected
  | none => retryDevice config request (answers.slice index)

def mergeFinalSlice (offset : Nat) : Bool :=
  decide (request.length - offset ≤ config.sliceSize + config.fragmentLimit)

def sliceAt (offset : Nat) : Slice where
  task := taskIndex
  sourceAddr := request.source + offset
  length := if mergeFinalSlice config request offset then request.length - offset
    else config.sliceSize
  opcode := request.opcode
  destAddr := request.targetOffset + offset
  retryCnt := request.adviseRetryCnt
  maxRetryCnt := config.retryCnt
  targetId := request.targetId
  sourceLkey := none

def sourceLkey (selected : Selected) : Option UInt32 :=
  buffers[selected.bufferId]?.bind fun buffer => buffer.lkey[selected.deviceId]?

/-- The loop over the slices of a task.  After an error the slices that wait are dropped. -/
def submitSlices (index offset : Nat) (task : TransferTask) (posting : Posting) :
    SubmitOutcome × TransferTask × Posting :=
  if offset < request.length then
    let allocated := posting.allocate (answers.slice index).fromCache
    let slice := sliceAt config taskIndex request offset
    let listed := { task with sliceList := task.sliceList ++ [slice] }
    match sliceDevice config request answers index with
    | none => (.error (.addressNotRegistered slice.sourceAddr), listed, allocated)
    | some selected =>
      if !(answers.slice index).activeToPost then
        (.error (.deviceNotActive selected.deviceId), listed, allocated)
      else
        let ready := { slice with sourceLkey := sourceLkey buffers selected }
        let counted :=
          { task with
            sliceList := task.sliceList ++ [ready]
            totalBytes := task.totalBytes + slice.length
            sliceCount := task.sliceCount + 1 }
        let pushed := (allocated.push selected.deviceId ready).postAt config.submitWatermark
        if mergeFinalSlice config request offset then (.ok (), counted, pushed)
        else submitSlices (index + 1) (offset + config.sliceSize) counted pushed
  else (.ok (), task, posting)
termination_by request.length - offset
decreasing_by have := config.sliceSize_pos; omega

end Task

/-! ## All tasks -/

/-- The tasks after a submission, and the calls of `submitPostSend` with their device. -/
structure Submission where
  outcome : SubmitOutcome
  tasks : List TransferTask
  calls : List (Nat × List Slice)

def Submission.posted (submission : Submission) : List Slice :=
  submission.calls.flatMap Prod.snd

/-- The loop over the tasks; the count of allocated slices starts again with each of them. -/
def submitTasks (config : SubmitConfig) (buffers : List BufferDesc)
    (answers : Nat → TaskAnswers) : Nat → List TransferTask → Posting → Submission
  | _, [], posting => ⟨.ok (), [], posting.post.calls⟩
  | index, task :: rest, posting =>
    match task.request with
    | none => ⟨.error .nullRequest, task :: rest, posting.calls⟩
    | some request =>
      match submitSlices config buffers index request (answers index) 0 0 task
          { posting with nrSlices := 0 } with
      | (.error error, done, stopped) => ⟨.error error, done :: rest, stopped.calls⟩
      | (.ok (), done, next) =>
        let later := submitTasks config buffers answers (index + 1) rest next
        { later with tasks := done :: later.tasks }

def submitTransferTask (config : SubmitConfig) (buffers : List BufferDesc)
    (answers : Nat → TaskAnswers) (taskList : List TransferTask) : Submission :=
  submitTasks config buffers answers 0 taskList {}

/-! ## Completion and status -/

/-- `markSuccess` and `markFailed`, as they count in the task of the slice. -/
def TransferTask.mark (task : TransferTask) (slice : Slice) (success : Bool) : TransferTask :=
  if success then
    { task with
      transferredBytes := task.transferredBytes + slice.length
      successSliceCount := task.successSliceCount + 1 }
  else { task with failedSliceCount := task.failedSliceCount + 1 }

def completeAll (tasks : List TransferTask) (completed : List (Slice × Bool)) :
    List TransferTask :=
  completed.foldl
    (fun tasks entry => tasks.modify entry.1.task fun task => task.mark entry.1 entry.2) tasks

inductive TransferStatusEnum where
  | waiting
  | completed
  | failed
  deriving DecidableEq, Repr

structure TransferStatus where
  s : TransferStatusEnum
  transferredBytes : Nat
  deriving DecidableEq, Repr

def TransferTask.status (task : TransferTask) : TransferStatus where
  s := if task.successSliceCount + task.failedSliceCount = task.sliceCount then
      if task.failedSliceCount ≠ 0 then .failed else .completed
    else .waiting
  transferredBytes := task.transferredBytes

def TransferTask.finish (task : TransferTask) : TransferTask :=
  if task.successSliceCount + task.failedSliceCount = task.sliceCount then
    { task with isFinished := true }
  else task

def getTransferStatus (tasks : List TransferTask) : List TransferStatus × List TransferTask :=
  (tasks.map TransferTask.status, tasks.map TransferTask.finish)

/-- `getTransferStatus` of one task, which fails for an invalid index. -/
def getTransferStatusAt (tasks : List TransferTask) (taskId : Nat) :
    Option (TransferStatus × List TransferTask) :=
  tasks[taskId]?.map fun task => (task.status, tasks.modify taskId TransferTask.finish)

/-- Both report the same status for a task, and finish it alike. -/
theorem getTransferStatusAt_eq (tasks : List TransferTask) (taskId : Nat) :
    (getTransferStatusAt tasks taskId).map
        (fun result => (some result.1, result.2[taskId]?)) =
      tasks[taskId]?.map fun _ =>
        ((getTransferStatus tasks).1[taskId]?, (getTransferStatus tasks).2[taskId]?) := by
  cases found : tasks[taskId]? with
  | none => simp [getTransferStatusAt, found]
  | some task => simp [getTransferStatusAt, getTransferStatus, found]

/-! ## Batches -/

structure BatchDesc where
  batchSize : Nat
  taskList : List TransferTask

/-- The tasks of the batch after it was made larger by the number of entries. -/
def BatchDesc.resized (batch : BatchDesc) (entries : List TransferRequest) : List TransferTask :=
  batch.taskList ++ List.replicate entries.length ({} : TransferTask)

/-- The tasks whose addresses `submitTransfer` collects. -/
def BatchDesc.submittedTasks (batch : BatchDesc) (entries : List TransferRequest) :
    List TransferTask :=
  batch.resized entries

def submitTransfer (config : SubmitConfig) (buffers : List BufferDesc)
    (answers : Nat → TaskAnswers) (batch : BatchDesc) (entries : List TransferRequest) :
    Submission :=
  if batch.batchSize < batch.taskList.length + entries.length then
    ⟨.error .exceedsCapacity, batch.taskList, []⟩
  else submitTransferTask config buffers answers (batch.submittedTasks entries)

end Mooncake.Rdma
