import Mooncake.Types

/-!
# Execution of replication tasks

A task that the master assigns is executed by the thread pool of the client.  When no handle
is available it is enqueued again, as a copy with its own counter; otherwise its end is
reported.  Every task that is enqueued runs, so the executions of one assignment are a chain.
-/

namespace Mooncake.Replication

inductive TaskType where
  | replicaCopy
  | replicaMove
  | other
  deriving DecidableEq, Repr

structure TaskAssignment where
  id : Nat
  type : TaskType
  maxRetryAttempts : Nat

structure ClientTask where
  assignment : TaskAssignment
  retryCount : Nat

/-- How the payload is decoded and copied or moved in one execution.  An error that is
returned is not `OK`. -/
inductive Attempt where
  | succeeded
  | failed (error : ErrorCode) (genuine : error ≠ .ok)
  | threw

inductive TaskStatus where
  | success
  | failed
  deriving DecidableEq, Repr

structure TaskCompleteRequest where
  id : Nat
  status : TaskStatus
  message : String

inductive TaskEvent where
  | executed (retryCount : Nat) (attempt : Attempt)
  | markTaskToComplete (request : TaskCompleteRequest)

section Execute

variable (toString : ErrorCode → String)

/-- The code with which an execution ends. -/
def taskResult (type : TaskType) (attempt : Attempt) : ErrorCode :=
  match type, attempt with
  | .other, _ => .invalidParams
  | _, .succeeded => .ok
  | _, .failed error _ => error
  | _, .threw => .internalError

/-- `ExecuteTask`: the request that it sends to the master, or the task that it enqueues. -/
def executeTask (task : ClientTask) (attempt : Attempt) : TaskCompleteRequest ⊕ ClientTask :=
  let result := taskResult task.assignment.type attempt
  if result = .ok then
    .inl ⟨task.assignment.id, .success, "Task completed successfully"⟩
  else if result = .noAvailableHandle ∧ task.retryCount < task.assignment.maxRetryAttempts then
    .inr { task with retryCount := task.retryCount + 1 }
  else
    .inl ⟨task.assignment.id, .failed, toString result ++ " (max retries reached: " ++
      s!"{task.assignment.maxRetryAttempts}" ++ ")"⟩

variable {toString} in
theorem executeTask_retry {task next : ClientTask} {attempt : Attempt}
    (retried : executeTask toString task attempt = .inr next) :
    taskResult task.assignment.type attempt = .noAvailableHandle ∧
      task.retryCount < task.assignment.maxRetryAttempts ∧
      next = { task with retryCount := task.retryCount + 1 } := by
  unfold executeTask at retried
  dsimp only at retried
  split at retried
  · cases retried
  · split at retried
    · rename_i again
      exact ⟨again.1, again.2, (Sum.inr.inj retried).symm⟩
    · cases retried

/-- The executions of a task and of the copies that are enqueued after it. -/
def runTask (attempts : Nat → Attempt) (task : ClientTask) : List TaskEvent :=
  .executed task.retryCount (attempts task.retryCount) ::
    match _done : executeTask toString task (attempts task.retryCount) with
    | .inl request => [.markTaskToComplete request]
    | .inr next => runTask attempts next
termination_by task.assignment.maxRetryAttempts - task.retryCount
decreasing_by
  obtain ⟨-, below, rfl⟩ := executeTask_retry _done
  dsimp only
  omega

/-- `SubmitTask`, and what the pool then runs. -/
def submitTask (taskRunning : Bool) (assignment : TaskAssignment) (attempts : Nat → Attempt) :
    List TaskEvent :=
  if !taskRunning then [] else runTask toString attempts ⟨assignment, 0⟩

end Execute

/-! ## The chain -/

variable {toString : ErrorCode → String}

theorem executeTask_report {task : ClientTask} {attempt : Attempt} {request : TaskCompleteRequest}
    (reported : executeTask toString task attempt = .inl request) :
    request.id = task.assignment.id ∧
      (request.status = .success ↔ task.assignment.type ≠ .other ∧ attempt = .succeeded) := by
  have succeeds : taskResult task.assignment.type attempt = .ok ↔
      task.assignment.type ≠ .other ∧ attempt = .succeeded := by
    cases task.assignment.type <;> cases attempt <;> simp_all [taskResult]
  unfold executeTask at reported
  dsimp only at reported
  split at reported
  · rename_i done
    obtain rfl := Sum.inl.inj reported
    exact ⟨rfl, iff_of_true rfl (succeeds.mp done)⟩
  · rename_i failed
    split at reported
    · cases reported
    · obtain rfl := Sum.inl.inj reported
      exact ⟨rfl, iff_of_false (by simp) fun done => failed (succeeds.mpr done)⟩

theorem runTask_chain (attempts : Nat → Attempt) (task : ClientTask)
    (bounded : task.retryCount ≤ task.assignment.maxRetryAttempts) :
    ∃ last ≥ task.retryCount, last ≤ task.assignment.maxRetryAttempts ∧
      (∀ k, task.retryCount ≤ k → k < last →
        taskResult task.assignment.type (attempts k) = .noAvailableHandle) ∧
      ∃ request, executeTask toString ⟨task.assignment, last⟩ (attempts last) = .inl request ∧
        runTask toString attempts task =
          (List.range' task.retryCount (last + 1 - task.retryCount)).map
            (fun k => .executed k (attempts k)) ++ [.markTaskToComplete request] := by
  induction remaining : task.assignment.maxRetryAttempts - task.retryCount using
    Nat.strongRecOn generalizing task with
  | ind left ih =>
    rw [runTask]
    split
    · rename_i request reported
      refine ⟨task.retryCount, Nat.le_refl _, bounded, fun k above below => ?_, request, reported,
        ?_⟩
      · omega
      · simp
    · rename_i next retried
      obtain ⟨failed, below, rfl⟩ := executeTask_retry retried
      have fewer : task.assignment.maxRetryAttempts - (task.retryCount + 1) < left := by omega
      obtain ⟨last, above, stopped, later, request, reported, events⟩ :=
        ih _ fewer { task with retryCount := task.retryCount + 1 } below rfl
      dsimp only at above later events
      refine ⟨last, by omega, stopped, fun k start stop => ?_, request, reported, ?_⟩
      · rcases Nat.eq_or_lt_of_le start with rfl | more
        · exact failed
        · exact later k more stop
      · have length : last + 1 - task.retryCount = last + 1 - (task.retryCount + 1) + 1 := by
          omega
        rw [events, length, List.range'_succ]
        rfl

/-- Every accepted task is executed at most `maxRetryAttempts + 1` times, each time but the
last without an available handle, and its end is reported once, after the last one. -/
theorem submitTask_reports_once (toString : ErrorCode → String) (assignment : TaskAssignment)
    (attempts : Nat → Attempt) :
    ∃ last ≤ assignment.maxRetryAttempts, ∃ request : TaskCompleteRequest,
      submitTask toString true assignment attempts =
        (List.range (last + 1)).map (fun k => .executed k (attempts k)) ++
          [.markTaskToComplete request] ∧
      request.id = assignment.id ∧
      (request.status = .success ↔ assignment.type ≠ .other ∧ attempts last = .succeeded) ∧
      ∀ k < last, taskResult assignment.type (attempts k) = .noAvailableHandle := by
  obtain ⟨last, -, bounded, retried, request, reported, events⟩ :=
    @runTask_chain toString attempts ⟨assignment, 0⟩ (Nat.zero_le _)
  refine ⟨last, bounded, request, ?_, (executeTask_report reported).1,
    (executeTask_report reported).2, fun k below => retried k (Nat.zero_le _) below⟩
  rw [submitTask, if_neg (by simp), events, List.range_eq_range']
  rfl

end Mooncake.Replication
