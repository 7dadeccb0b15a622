import Newbro.RunManager
import Newbro.SessionCommands
import Mathlib.Data.List.Sort

/-!
# The execution loop

`ReconcileLoop.tick` claims the runnable tasks and drives one `_execute_task` coroutine
for each. This module holds what a coroutine does between two of its awaits; the session
runtime interleaves these stretches with everything else.
-/
namespace Newbro.Reconcile

open Library Protocol SessionManager SummaryManager
  SessionCommands

variable (task : Task)

def isRunnable : Bool := task.status = .created || task.status = .queued

/-- The sort key `(-task.priority, task.task_id)` of the scheduler. -/
def schedulesBefore (t t' : Task) : Bool :=
  t.priority > t'.priority || (t.priority = t'.priority && t.taskId ≤ t'.taskId)

variable (b : Blackboard)

/-- `Scheduler.list_runnable_tasks`: by descending priority, then by task id. -/
def listRunnableTasks : List Task :=
  (b.tasks.entries.filter isRunnable).insertionSort fun t t' => schedulesBefore t t'

/-- The statuses in which a task occupies its persona. -/
def isActive (status : TaskStatus) : Bool :=
  status = .created || status = .queued || status = .running || status = .waitingExecutor ||
    status = .waitingUserInput || status = .paused

/-- The event types after which every executor of the repository ends its stream. -/
def isTerminalEvent : ExecutorEventType → Bool
  | .progress => false
  | .plan => false
  | _ => true

/-- Another active task names the persona. -/
def occupiedByOther (taskId personaId : String) : Bool :=
  b.tasks.entries.any fun candidate =>
    candidate.taskId ≠ taskId && isActive candidate.status &&
      candidate.personaId = some personaId

def releasePersona (task : Task) : Blackboard :=
  match task.personaId.bind b.getPersona with
  | none => b
  | some persona =>
    if occupiedByOther b task.taskId persona.personaId then b
    else if persona.status = .busy then b.putPersona { persona with status := .idle }
    else b

/-- `task.preferred_executor or self._default_executor_type` -/
def executorTypeOf (cfg : Config) (task : Task) : String :=
  Text.orElse task.preferredExecutor cfg.defaultExecutorType

/-- `_fail_unknown_executor`: the task fails, its persona is not released. -/
def failUnknownExecutor (task : Task) (claimed : SessionBinding)
    (executorType : String) : Blackboard :=
  ((b.putTask { task with status := .failed }).putSummary
    (unknownExecutorSummary task executorType)).putBinding (releasedBinding claimed)

/-- `str(exc).strip() or f"{type(exc).__name__} during execution."` -/
def exceptionMessage (text errorType : String) : String :=
  if Text.strip text = "" then errorType ++ " during execution." else Text.strip text

/-- The event by which an exception ends a run. -/
def exceptionEvent (run : ExecutionRun) (text errorType : String) : ExecutorEvent :=
  { runId := run.runId
    sessionId := run.executionSessionId
    eventType := .failed
    message := some (exceptionMessage text errorType)
    metadata := Dict.set (Dict.set Table.empty "reason_code" (.str "execution_exception"))
      "error_type" (.str errorType) }

/-- The run and the execution session a coroutine works with once they exist. -/
structure RunHandle where
  executorType : String
  sessionId : String
  executorSessionId : String
  runId : String
  deriving Repr, DecidableEq

/-- How far an `_execute_task` coroutine has come; each stage is an await point. -/
inductive Stage where
  | spawned
  | ready (executorType : String)
  | sessionReady (executorType sessionId executorSessionId : String)
  | runCreated (handle : RunHandle)
  | dispatching (handle : RunHandle)
  | draining (handle : RunHandle)
  deriving Repr, DecidableEq

/-- The run of a coroutine, once created. -/
def Stage.handle? : Stage → Option RunHandle
  | .runCreated handle => some handle
  | .dispatching handle => some handle
  | .draining handle => some handle
  | _ => none

/-- Whether the executor may still be asked to start the run. -/
def Stage.beforeDispatch : Stage → Bool
  | .draining _ => false
  | _ => true

/-- Whether the coroutine is inside the `try` block of `_execute_task`. -/
def Stage.insideTry : Stage → Bool
  | .spawned => false
  | _ => true

/-- An `_execute_task` coroutine: its task by reference, its claim as a copy. -/
structure Coroutine where
  taskId : String
  claimed : SessionBinding
  stage : Stage

/-- The run object a coroutine holds. -/
def Coroutine.run? (c : Coroutine) (b : Blackboard) : Option ExecutionRun :=
  c.stage.handle?.bind fun handle => b.getRun handle.runId

/-- `_fail_execution_exception` after the run was created. -/
def failRun (b : Blackboard) (task : Task) (run : ExecutionRun) (text errorType : String) :
    Blackboard :=
  let b := RunManager.applyEvent b task run (exceptionEvent run text errorType)
  match b.getTask task.taskId, b.getRun run.runId with
  | some task, some run => b.putSummary (buildSummary task run)
  | _, _ => b

/-- `_fail_execution_exception` before a run exists: the task fails whatever its status. -/
def failBeforeRun (b : Blackboard) (task : Task) (text errorType : String) : Blackboard :=
  (b.putTask { task with status := .failed }).putSummary
    (executionFailedSummary task (exceptionMessage text errorType))

def failExecutionException (task : Task) (claimed : SessionBinding)
    (run : Option ExecutionRun) (text errorType : String) : Blackboard :=
  let failed :=
    match run with
    | some run => failRun b task run text errorType
    | none => failBeforeRun b task text errorType
  releasePersona (failed.putBinding (releasedBinding claimed)) task

variable (live : LiveSessions)

def syncExecutorSession (handle : RunHandle) :
    Blackboard :=
  match b.getSession handle.sessionId,
      (live.objects.get? handle.executorSessionId).bind ExecutorSession.latestResumeHandle with
  | some session, some resume => b.putSession { session with latestResumeHandle := some resume }
  | _, _ => b

/-- The statuses of a run after which the persona of its task is released. -/
def releasesPersona (status : RunStatus) : Bool :=
  status = .completed || status = .failed || status = .cancelled

variable (claimed : SessionBinding)

/-- A run that waits for its executor gives back the session and the claim. -/
def parkWaitingRun (handle : RunHandle)
    (run : ExecutionRun) : Blackboard :=
  if run.status = .waitingExecutor then
    let b :=
      match b.getSession handle.sessionId with
      | none => b
      | some session => b.putSession { session with activeRunId := none }
    b.putBinding (releasedBinding claimed)
  else b

/-- The rest of `_execute_task` after the last event of the stream. -/
def settleRun (claimed : SessionBinding)
    (handle : RunHandle) (task : Task) (run : ExecutionRun) : Blackboard :=
  let b := (syncExecutorSession b live handle).putSummary (buildSummary task run)
  let b := parkWaitingRun b claimed handle run
  if releasesPersona run.status then releasePersona b task else b

/-- One event of the stream. No await lies between a terminal event and the end of the
stream, so a terminal event settles the run at once. -/
def drainEvent (claimed : SessionBinding)
    (handle : RunHandle) (task : Task) (run : ExecutionRun) (event : ExecutorEvent) :
    Blackboard :=
  let b := RunManager.applyEvent b task run event
  if isTerminalEvent event.eventType then
    match b.getTask task.taskId, b.getRun run.runId with
    | some task, some run => settleRun b live claimed handle task run
    | _, _ => b
  else b

/-- A terminal event settles the run as the event left it. -/
theorem drainEvent_of_terminal {b : Blackboard} {task : Task} {run : ExecutionRun}
    {event : ExecutorEvent} (ht : b.getTask task.taskId = some task)
    (hr : b.getRun run.runId = some run) (he : isTerminalEvent event.eventType = true)
    (live : LiveSessions) (claimed : SessionBinding) (handle : RunHandle) :
    drainEvent b live claimed handle task run event =
      settleRun (RunManager.applyEvent b task run event) live claimed handle
        (RunManager.appliedTask task event) (RunManager.appliedRun task run event) := by
  simp only [drainEvent, he, if_true, RunManager.getTask_applyEvent ht,
    RunManager.getRun_applyEvent hr]

theorem drainEvent_of_not_terminal {event : ExecutorEvent}
    (he : isTerminalEvent event.eventType = false) (b : Blackboard) (live : LiveSessions)
    (claimed : SessionBinding) (handle : RunHandle) (task : Task) (run : ExecutionRun) :
    drainEvent b live claimed handle task run event = RunManager.applyEvent b task run event := by
  simp [drainEvent, he]

end Newbro.Reconcile
