import Newbro.SessionManager
import Newbro.SummaryManager

/-!
# Task commands

`SessionRuntime.apply_command` in the three stretches between its awaits: the command is
validated and its run selected; the task is marked and the executor is told; the run, the
session, the binding and the summary follow. A whole command is the three in sequence.
-/
namespace Newbro.SessionCommands

open Library Protocol SessionManager SummaryManager

/-- What a session runtime is built with. -/
structure Config where
  registry : ExecutorRegistry
  defaultExecutorType : String
  workerId : String

/-- A call that a command makes on an executor. -/
inductive Signal where
  | cancelRun (runId : String)
  | pauseRun (runId : String)
  deriving Repr, DecidableEq

def Signal.runId : Signal → String
  | .cancelRun runId => runId
  | .pauseRun runId => runId

/-- The run statuses on which a command can still act. -/
def isLive (status : RunStatus) : Bool :=
  status = .created || status = .assigned || status = .running || status = .blocked ||
    status = .paused

/-- The active run of a session, then its latest one. -/
def candidateRunIds (session : ExecutionSession) : List String :=
  let active := session.activeRunId.filter (· ≠ "")
  let latest := session.latestRunId.filter fun runId => runId ≠ "" && some runId ≠ active
  active.toList ++ latest.toList

variable (b : Blackboard)

/-- `_select_command_run`: the first candidate that is live. Its task is not looked at. -/
def selectCommandRun (session : Option ExecutionSession) :
    Option ExecutionRun :=
  session.bind fun session =>
    ((candidateRunIds session).filterMap b.getRun).find? fun run => isLive run.status

/-- `_resolve_task_command_target`, by the session that was opened for the task. -/
def resolveTaskCommandTarget (task : Task) :
    Option ExecutionRun × Option String :=
  match b.sessions.entries.find? fun session => session.taskId = task.taskId with
  | none => (none, task.preferredExecutor)
  | some session =>
    let runs := (candidateRunIds session).map b.getRun
    match (runs.find? fun run => run.any fun run => isLive run.status).join with
    | some run => (some run, some run.executorType)
    | none => (runs.getLast?.join, task.preferredExecutor)

variable (cfg : Config)

def validatePause (b : Blackboard) (task : Task) : Option String :=
  if task.status = .created || task.status = .queued then none
  else
    match resolveTaskCommandTarget b task with
    | (none, none) => some "Task is not actively running."
    | (some _, none) => some "Task executor could not be determined."
    | (_, some executorType) =>
      match cfg.registry.get? executorType with
      | none => some ("Executor '" ++ executorType ++ "' is not available.")
      | some capabilities =>
        if capabilities.supportsPause then none
        else some ("Executor '" ++ executorType ++ "' does not support pause.")

/-- `validate_task_command`; cancel and retry are never refused. -/
def validateTaskCommand (b : Blackboard) (task : Task) :
    TaskCommandType → Option String
  | .pauseTask => validatePause cfg b task
  | .preemptTask => validatePause cfg b task
  | .resumeTask =>
    if task.status = .waitingUserInput then
      some ("This task is waiting for user input. Resolve the pending interaction request " ++
        "instead of using resume.")
    else if task.status ≠ .paused then some "Only paused tasks can be resumed."
    else none
  | .cancelTask => none
  | .retryTask => none

variable (taskId : String)

/-- The execution session that the binding of a task names. -/
def boundSession : Option ExecutionSession :=
  ((b.getBinding taskId).bind SessionBinding.executionSessionId).bind b.getSession

/-- The run on which a command on a task acts. -/
def commandRun : Option ExecutionRun :=
  selectCommandRun b (boundSession b taskId)

/-- A command under way: the binding is a copy, the session and the run are references. -/
structure CommandInFlight where
  command : TaskCommand
  binding : Option SessionBinding
  sessionId : Option String
  runId : Option String
  marked : Bool := false

def CommandInFlight.commandId (c : CommandInFlight) : String := c.command.commandId

/-- A command with the session and the run it will act on. -/
def issuedCommand (command : TaskCommand) : CommandInFlight :=
  { command := command
    binding := b.getBinding command.taskId
    sessionId := (boundSession b command.taskId).map ExecutionSession.executionSessionId
    runId := (commandRun b command.taskId).map ExecutionRun.runId }

/-- Validate a command, log it and select its run; `ok none` when the task is unknown. -/
def beginCommand (b : Blackboard) (command : TaskCommand) :
    Except String (Option (Blackboard × CommandInFlight)) :=
  match b.getTask command.taskId with
  | none => .ok none
  | some task =>
    match validateTaskCommand cfg b task command.commandType with
    | some message => .error message
    | none => .ok (some (b.appendCommand command, issuedCommand b command))

/-- The status a command gives to its task. -/
def commandStatus : TaskCommandType → TaskStatus
  | .pauseTask => .paused
  | .preemptTask => .paused
  | .cancelTask => .cancelled
  | .resumeTask => .queued
  | .retryTask => .queued

def setTaskStatus (status : TaskStatus) : Blackboard :=
  match b.getTask taskId with
  | none => b
  | some task => b.putTask { task with status := status }

def setRunStatus (runId : String) (status : RunStatus) : Blackboard :=
  match b.getRun runId with
  | none => b
  | some run => b.putRun { run with status := status }

variable (live : LiveSessions)

/-- `_capture_pause_resume_handle` for the sessions the control plane holds. -/
def capturePauseResumeHandle (b : Blackboard)
    (sessionId runId : Option String) : Blackboard :=
  match sessionId.bind b.getSession, runId.bind b.getRun with
  | some session, some run =>
    let resumable := (cfg.registry.get? run.executorType).any ExecutorCapabilities.supportsResume
    let handle := (live.get session.executionSessionId).bind ExecutorSession.latestResumeHandle
    match resumable, handle with
    | true, some handle => b.putSession { session with latestResumeHandle := some handle }
    | _, _ => b
  | _, _ => b

/-- The call on the executor of the selected run: `_pause_live_run` or `_cancel_live_run`. -/
def commandSignals (b : Blackboard) (commandType : TaskCommandType)
    (runId : Option String) : List Signal :=
  match runId.bind b.getRun with
  | none => []
  | some run =>
    match cfg.registry.get? run.executorType, commandType with
    | some capabilities, .pauseTask =>
      if capabilities.supportsPause then [.pauseRun run.runId] else []
    | some capabilities, .preemptTask =>
      if capabilities.supportsPause then [.pauseRun run.runId] else []
    | some capabilities, .cancelTask =>
      if capabilities.supportsCancel then [.cancelRun run.runId] else []
    | _, _ => []

def isPause : TaskCommandType → Bool
  | .pauseTask => true
  | .preemptTask => true
  | _ => false

/-- Mark the task and tell the executor. -/
def markCommand (b : Blackboard) (c : CommandInFlight) :
    Blackboard × List Signal :=
  let b :=
    if isPause c.command.commandType then capturePauseResumeHandle cfg live b c.sessionId c.runId
    else b
  (setTaskStatus b c.command.taskId (commandStatus c.command.commandType),
    commandSignals cfg b c.command.commandType c.runId)

/-- `cancel_requests_for_task`: pending interaction requests of the task are cancelled. -/
def cancelRequestsForTask : Blackboard :=
  (b.requests.entries.filter fun request =>
      request.taskId = some taskId && request.status = .pending).foldl
    (fun b request => b.putInteractionRequest { request with status := .cancelled }) b

/-- Forget the active run of a session when it is the given one. -/
def clearActiveRun (sessionId runId : Option String) : Blackboard :=
  match sessionId.bind b.getSession with
  | none => b
  | some session =>
    if session.activeRunId = runId then b.putSession { session with activeRunId := none } else b

/-- Bring the run, the session, the binding and the summary in line with the command. -/
def finishCommand (c : CommandInFlight) : Blackboard :=
  match b.getTask c.command.taskId with
  | none => b
  | some task =>
    let putBinding (b : Blackboard) (update : SessionBinding → SessionBinding) : Blackboard :=
      match c.binding with
      | none => b
      | some binding => b.putBinding (update binding)
    let putRunStatus (b : Blackboard) (status : RunStatus) : Blackboard :=
      match c.runId with
      | none => b
      | some runId => setRunStatus b runId status
    match c.command.commandType with
    | .pauseTask =>
      (putBinding (putRunStatus b .paused) pausedBinding).putSummary (pausedSummary task)
    | .preemptTask =>
      (putBinding (putRunStatus b .paused) pausedBinding).putSummary (pausedSummary task)
    | .cancelTask =>
      let b := clearActiveRun (putRunStatus b .cancelled) c.sessionId c.runId
      cancelRequestsForTask
        ((putBinding b releasedBinding).putSummary (cancelledSummary task)) task.taskId
    | .resumeTask =>
      let b := if c.runId.isSome then clearActiveRun b c.sessionId c.runId else b
      (putBinding b releasedBinding).putSummary (queuedSummary task)
    | .retryTask =>
      let b := if c.runId.isSome then clearActiveRun b c.sessionId c.runId else b
      (putBinding b releasedBinding).putSummary (queuedSummary task)

/-- `apply_command` without another step in between. -/
def applyCommand (b : Blackboard) (command : TaskCommand) :
    Except String (Blackboard × List Signal) :=
  match beginCommand cfg b command with
  | .error message => .error message
  | .ok none => .ok (b, [])
  | .ok (some (b, c)) =>
    let marked := markCommand cfg live b c
    .ok (finishCommand marked.1 c, marked.2)

end Newbro.SessionCommands
