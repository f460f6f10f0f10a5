import Mooncake.Library.Runs
import Mooncake.Segment.Client

/-!
# Graceful unmount

An accepted graceful unmount leaves the segment to a timer task.  The task looks the
segment up, asks the master without holding the lock, and looks it up again before it
takes the cleanup callback, which it runs without the lock.  The destructor stops the
task pool, which waits for the running tasks and drops the queued ones, and then cleans up
what is left.  An action here is one critical section or one request between two of them, so
a run over all lists of actions covers every interleaving.
-/

namespace Mooncake.Segment

open Library.Runs

variable {γ : Type}

/-! ## The system -/

/-- Where a timer task stands: it waits for its delay, it is about to query the master, the
master has removed the segment, or it is about to run the callback. -/
inductive TimerTask (γ : Type) where
  | waiting (id : UUID) (retryLeft : Nat)
  | querying (id : UUID) (retryLeft : Nat)
  | finishing (id : UUID)
  | calling (id : UUID) (callback : γ)

inductive SegmentEvent (γ : Type) where
  | mounted (id : UUID)
  | accepted (id : UUID) (callback : Option γ)
  | unregisterLocalMemory (id : UUID)
  | cleanup (id : UUID) (callback : γ) (client : ClientState γ)

inductive Phase where
  | alive
  | stopping
  | destroyed
  deriving DecidableEq, Repr

structure System (γ : Type) where
  client : ClientState γ := {}
  tasks : List (TimerTask γ) := []
  phase : Phase := .alive
  trace : List (SegmentEvent γ) := []

/-- Of the status only `UNDEFINED` is told apart. -/
inductive SegmentStatus where
  | undefined
  | defined
  deriving DecidableEq, Repr

inductive Action (γ : Type) where
  | mount (maxMrSize : Nat) (answers : MountAnswers) (buffer size : Nat)
  | unmountById (answers : UnmountAnswers) (id : UUID) (gracePeriodMs : Nat)
      (cleanupCallback : Option γ)
  | fire (task : Nat)
  | drop (task : Nat)
  | query (task : Nat) (status : Expected SegmentStatus) (enqueued : Bool)
  | finish (task : Nat) (unregister : UnregisterOutcome)
  | call (task : Nat)
  | stop
  | destroy (unmounts : Nat → UnmountAnswers) (unregisters : Nat → UnregisterOutcome)

/-- The id was given to a segment of this client. -/
def System.used (system : System γ) (id : UUID) : Bool :=
  system.trace.any fun event =>
    match event with
    | .mounted other => other = id
    | _ => false

/-- A task that is replaced by what follows from it. -/
def System.advance (system : System γ) (task : Nat) (next : List (TimerTask γ)) : System γ :=
  { system with tasks := system.tasks.eraseIdx task ++ next }

/-! ## The actions -/

/-- `generate_uuid` does not repeat an id. -/
def System.mount (system : System γ) (maxMrSize : Nat) (answers : MountAnswers)
    (buffer size : Nat) : Option (System γ) :=
  if system.phase ≠ .alive ∨ system.used answers.uuid then none
  else
    let (result, client) := mountSegmentAndGetId maxMrSize answers system.client buffer size
    some
      { system with
        client := client
        trace := system.trace ++
          match result with
          | .error _ => []
          | .ok id => [.mounted id] }

/-- What an unmount leaves in the trace: the attempt to unregister, or the acceptance. -/
def unmountEvents (answers : UnmountAnswers) (state : ClientState γ) (id : UUID)
    (gracePeriodMs : Nat) (cleanupCallback : Option γ) : List (SegmentEvent γ) :=
  match state.mountedSegments.lookup id with
  | none => []
  | some _ =>
    if gracePeriodMs = 0 then
      match answers.unmountSegment with
      | .error _ => []
      | .ok () => [.unregisterLocalMemory id]
    else
      match answers.gracefulUnmountSegment with
      | .error _ => []
      | .ok () => [.accepted id cleanupCallback]

/-- `StartGracefulUnmountTimer`. -/
def startedTimers (events : List (SegmentEvent γ)) : List (TimerTask γ) :=
  events.filterMap fun event =>
    match event with
    | .accepted id _ => some (.waiting id 3)
    | _ => none

def System.unmountById (system : System γ) (answers : UnmountAnswers) (id : UUID)
    (gracePeriodMs : Nat) (cleanupCallback : Option γ) : Option (System γ) :=
  if system.phase ≠ .alive then none
  else
    let events := unmountEvents answers system.client id gracePeriodMs cleanupCallback
    some
      { system with
        client := (unmountSegmentById answers system.client id gracePeriodMs cleanupCallback).2
        tasks := system.tasks ++ startedTimers events
        trace := system.trace ++ events }

/-- The delay is over: the first critical section of `OnGracefulUnmountTimer`.  The delay may
have ended just before the destructor began. -/
def System.fire (system : System γ) (task : Nat) : Option (System γ) :=
  match system.tasks[task]? with
  | some (.waiting id retryLeft) =>
    if id ∈ system.client.gracefullyUnmountingSegments then
      some (system.advance task [.querying id retryLeft])
    else some (system.advance task [])
  | _ => none

/-- A stopped pool drops a queued task, and a waiting one returns. -/
def System.drop (system : System γ) (task : Nat) : Option (System γ) :=
  match system.tasks[task]? with
  | some (.waiting _ _) =>
    if system.phase = .stopping then some (system.advance task []) else none
  | _ => none

def statusRemoved (status : Expected SegmentStatus) : Bool :=
  match status with
  | .error error => error = .segmentNotFound
  | .ok status => status = .undefined

/-- `QuerySegmentStatusById` and the retry, which a stopped pool may refuse. -/
def System.query (system : System γ) (task : Nat) (status : Expected SegmentStatus)
    (enqueued : Bool) : Option (System γ) :=
  match system.tasks[task]? with
  | some (.querying id retryLeft) =>
    if statusRemoved status then some (system.advance task [.finishing id])
    else if 0 < retryLeft ∧ enqueued then
      some (system.advance task [.waiting id (retryLeft - 1)])
    else some (system.advance task [])
  | _ => none

def System.finish (system : System γ) (task : Nat) (unregister : UnregisterOutcome) :
    Option (System γ) :=
  match system.tasks[task]? with
  | some (.finishing id) =>
    let (callback, client) := finishGracefulUnmount system.client id unregister
    some
      { client := client
        tasks := system.tasks.eraseIdx task ++
          (callback.map fun callback => TimerTask.calling id callback).toList
        phase := system.phase
        trace := system.trace ++
          if id ∈ system.client.gracefullyUnmountingSegments then [.unregisterLocalMemory id]
          else [] }
  | _ => none

def System.call (system : System γ) (task : Nat) : Option (System γ) :=
  match system.tasks[task]? with
  | some (.calling id callback) =>
    some
      { system with
        tasks := system.tasks.eraseIdx task
        trace := system.trace ++ [.cleanup id callback system.client] }
  | _ => none

/-! ## The destructor -/

/-- `UnmountSegment` finds the segment by its range. -/
def unmountSegment (answers : UnmountAnswers) (state : ClientState γ) (buffer size : Nat) :
    Expected Unit × ClientState γ :=
  match state.mountedSegments.entries.find? fun entry => entry.2 = ⟨buffer, size⟩ with
  | none => (.error .invalidParams, state)
  | some entry => unmountSegmentImpl answers state entry.1 entry.2

/-- The first loop: every segment of the copy is unmounted. -/
def destroyMounted (unmounts : Nat → UnmountAnswers) (state : ClientState γ)
    (copies : List Region) : ClientState γ :=
  copies.zipIdx.foldl
    (fun state copy => (unmountSegment (unmounts copy.2) state copy.1.base copy.1.size).2) state

/-- The second loop: the segments on their way out are unregistered. -/
def destroyUnmounting (unregisters : Nat → UnregisterOutcome) (state : ClientState γ)
    (copies : List Region) : ClientState γ :=
  copies.zipIdx.foldl
    (fun state copy => state.unregister copy.1.base (unregisters copy.2)) state

/-- The destructor after the pool has stopped: no task is left. -/
def System.destroy (system : System γ) (unmounts : Nat → UnmountAnswers)
    (unregisters : Nat → UnregisterOutcome) : Option (System γ) :=
  if system.phase ≠ .stopping ∨ system.tasks ≠ [] then none
  else
    let client := system.client
    let mounted := client.mountedSegments.entries.map Sigma.snd
    let unmounting := client.gracefullyUnmountingSegments.entries
    let callbacks := client.cleanupCallbacks.entries
    let client := { client with cleanupCallbacks := ∅ }
    let client := destroyMounted unmounts client mounted
    let client := destroyUnmounting unregisters client (unmounting.map Sigma.snd)
    let client := { client with mountedSegments := ∅, gracefullyUnmountingSegments := ∅ }
    some
      { client := client
        tasks := []
        phase := .destroyed
        trace := system.trace ++
          unmounting.map (fun entry => .unregisterLocalMemory entry.1) ++
          callbacks.map fun entry => .cleanup entry.1 entry.2 client }

def System.step (system : System γ) : Action γ → Option (System γ)
  | .mount maxMrSize answers buffer size => system.mount maxMrSize answers buffer size
  | .unmountById answers id gracePeriodMs cleanupCallback =>
    system.unmountById answers id gracePeriodMs cleanupCallback
  | .fire task => system.fire task
  | .drop task => system.drop task
  | .query task status enqueued => system.query task status enqueued
  | .finish task unregister => system.finish task unregister
  | .call task => system.call task
  | .stop => if system.phase = .alive then some { system with phase := .stopping } else none
  | .destroy unmounts unregisters => system.destroy unmounts unregisters

end Mooncake.Segment
