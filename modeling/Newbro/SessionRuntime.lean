import Newbro.InteractionRequests
import Newbro.Library.Transition
import Newbro.Reconcile

/-!
# The session runtime

Everything that happens in one session, as a transition system. A label is one stretch of
some coroutine between two of its awaits. Commands and answers to interaction requests
are under way while they wait for an executor node; the execution loop is a single task
that ticks until nothing is runnable, and a tick waits for all its coroutines.

Three lists are history only and no step reads them: `effects` logs the calls on
executors, `halted` the runs whose task was cancelled or paused after they were created,
`superseded` those of them whose task was then retried or resumed.
-/
namespace Newbro.SessionRuntime

open Library Protocol SessionManager SummaryManager
  SessionCommands InteractionRequests Reconcile

/-- Where the single execution loop stands. -/
inductive Loop where
  | idle
  | checking
  | listing
  | claiming (listed : List String) (claimed : Table Coroutine.taskId)
  | gathering (coroutines : Table Coroutine.taskId)

/-- The callers that create tasks. Only the first two refuse a busy persona. -/
inductive CreationSource where
  | sendDraft
  | createTask
  | directInput
  deriving Repr, DecidableEq

/-- A task creation under way: the persona was read before other awaits. -/
structure Creation where
  creationId : String
  source : CreationSource
  persona : Option Persona

/-- An answer under way: the request is resolved, the native attempt is not. -/
structure AnswerInFlight where
  request : InteractionRequest
  answer : Answer

def AnswerInFlight.requestId (a : AnswerInFlight) : String := a.request.requestId

/-- A call on an executor. -/
inductive Effect where
  | signal (signal : Signal)
  | runTask (taskId runId : String)
  | dispatchRun (taskId runId : String)
  deriving Repr, DecidableEq

structure SessionState where
  board : Blackboard
  live : LiveSessions
  loop : Loop
  creations : Table Creation.creationId
  commands : Table CommandInFlight.commandId
  answers : Table AnswerInFlight.requestId
  effects : List Effect
  halted : List String
  superseded : List String

/-- The fields of `update_task` that a patch sets. -/
structure TaskPatch where
  title : Option String := none
  goal : Option String := none
  priority : Option Int := none
  interruptible : Option Bool := none
  requiresConfirmation : Option Bool := none
  preferredExecutor : Option (Option String) := none
  sessionAffinity : Option (Option String) := none
  latestInstruction : Option (Option String) := none
  deriving Repr, DecidableEq

inductive Label where
  | startCreation (creationId : String) (source : CreationSource) (personaId : Option String)
  | finishCreation (creationId : String) (template : Task)
  | updateTask (taskId : String) (patch : TaskPatch)
  | annotateTask (taskId key : String) (value : Option Value)
  | syncPersonas (persisted : Table Persona.personaId)
  | beginCommand (command : TaskCommand)
  | markCommand (commandId : String)
  | finishCommand (commandId : String)
  | agentEvent (taskId type : String)
  | raiseRequest (request : InteractionRequest)
  | beginAnswer (requestId : String) (answer : Answer)
  | finishAnswer (requestId : String) (nativeResolved : Bool)
  | requeueWaiting (connected : String → Option String → Bool)
  | scheduleExecution
  | checkRunnable
  | listRunnable
  | claimNext (now : Nat)
  | gather
  | lookupExecutor (taskId : String)
  | ensureSession (taskId : String) (created : ExecutorSession) (freshId : String)
  | createRun (taskId runId : String)
  | beginRunTask (taskId : String)
  | sendDispatch (taskId : String)
  | skipDispatch (taskId : String)
  | runEvent (taskId : String) (event : ExecutorEvent) (handle : Option AgentResumeHandle)
  | raiseException (taskId text errorType : String)
  | finishTick

/-- The metadata by which a task names its persona. -/
def personaMetadata (metadata : Metadata) (persona : Persona) : Metadata :=
  let metadata := Dict.set metadata "persona_name" (.str persona.name)
  let metadata := Dict.set metadata "persona_avatar" (.str persona.avatar)
  let metadata := Dict.set metadata "bro_detail_session_id" (.str persona.broDetailSessionId)
  let metadata :=
    match persona.executorNodeId.filter (· ≠ "") with
    | none => metadata
    | some nodeId => Dict.set metadata "executor_node_id" (.str nodeId)
  Dict.set metadata "persona_id" (.str persona.personaId)

/-- The status in which each caller creates its task. -/
def creationStatus : CreationSource → TaskStatus
  | .sendDraft => .queued
  | .createTask => .created
  | .directInput => .queued

/-- The bro id of a draft that is assigned to nobody. -/
def defaultBroId : String := "codex"

variable (b : Blackboard)

/-- Whether a caller goes on with the persona it found. Drafts and the `create_task` tool
refuse a busy one; a draft tolerates a missing one only when it names nobody. -/
def admitsPersona (source : CreationSource) (personaId : Option String)
    (persona : Option Persona) : Bool :=
  match source with
  | .sendDraft =>
    match persona with
    | some persona => persona.status ≠ .busy
    | none =>
      b.personas.entries.isEmpty || personaId = none || personaId = some "" ||
        personaId = some defaultBroId
  | .createTask =>
    match persona with
    | some persona => persona.status ≠ .busy
    | none => personaId = none || personaId = some ""
  | .directInput => persona.isSome

variable (s : SessionState)

/-- Read the persona of a new task. -/
def startCreation (creationId : String) (source : CreationSource)
    (personaId : Option String) : Option SessionState :=
  let persona := personaId.bind s.board.getPersona
  if admitsPersona s.board source personaId persona && !s.creations.contains creationId then
    some { s with creations := s.creations.put ⟨creationId, source, persona⟩ }
  else none

/-- The task that a creation stores: the caller's template under the persona it found. -/
def createdTask (creation : Creation) (template : Task) : Task :=
  { template with
    status := creationStatus creation.source
    metadata :=
      match creation.persona with
      | none => template.metadata
      | some persona => personaMetadata template.metadata persona }

def occupyPersona (persona : Option Persona) : Blackboard :=
  match persona with
  | none => b
  | some persona => b.putPersona { persona with status := .busy }

/-- Store the new task, with its persona marked busy. -/
def finishCreation (creationId : String) (template : Task) :
    Option SessionState :=
  match s.creations.get? creationId with
  | none => none
  | some creation =>
    if s.board.tasks.contains template.taskId ||
        template.metadata.contains "persona_id" then none
    else
      some { s with
        board := (occupyPersona s.board creation.persona).putTask
          (createdTask creation template)
        creations := s.creations.erase creationId }

variable (task : Task)

/-- The attributes that `update_task` sets, and the revision its mutation bumps. -/
def patchTask (patch : TaskPatch) : Task :=
  { task with
    title := patch.title.getD task.title
    goal := patch.goal.getD task.goal
    priority := patch.priority.getD task.priority
    interruptible := patch.interruptible.getD task.interruptible
    requiresConfirmation := patch.requiresConfirmation.getD task.requiresConfirmation
    preferredExecutor := patch.preferredExecutor.getD task.preferredExecutor
    sessionAffinity := patch.sessionAffinity.getD task.sessionAffinity
    latestInstruction := patch.latestInstruction.getD task.latestInstruction
    taskRevision := task.taskRevision + 1 }

variable (cfg : Config)

/-- A preferred executor must be one of the registered types. -/
def patchAllowed (patch : TaskPatch) : Bool :=
  patch.preferredExecutor.join.all fun executorType => cfg.registry.contains executorType

def updateTask (s : SessionState) (taskId : String) (patch : TaskPatch) :
    Option SessionState :=
  match s.board.getTask taskId with
  | none => none
  | some task =>
    if patchAllowed cfg patch then
      some { s with board := s.board.putTask (patchTask task patch) }
    else none

/-- The metadata keys that the tools and the direct executor write on an existing task. -/
def annotationKeys : List String :=
  ["notes", "constraints", "recreated_from_task_id", "replaced_by_task_id",
    "replacement_for_task_id", "correction_new_value", "correction_old_value",
    "correction_target_group", "client_request_id", "plan_mode", "mode", "skill",
    "skill_dropped", "bro_thread_id", "target_thread_id", "source_audio_instruction_id",
    "audio_transcript_task_ids", "direct_executor_input_sources", "updated_at",
    "suppress_communication_notifications"]

variable (taskId : String)

def annotateTask (key : String) (value : Option Value) :
    Option SessionState :=
  match s.board.getTask taskId with
  | none => none
  | some task =>
    if key ∈ annotationKeys then
      let metadata :=
        match value with
        | none => Table.erase task.metadata key
        | some value => Dict.set task.metadata key value
      some { s with board := s.board.putTask { task with metadata := metadata } }
    else none

/-- A persisted persona as it is synced: a known one keeps its status. -/
def syncedPersona (persisted : Persona) : Persona :=
  match b.getPersona persisted.personaId with
  | none => { persisted with status := .idle }
  | some current => { persisted with status := current.status }

/-- `sync_user_personas`: known personas keep their status, a busy one is not deleted. -/
def syncPersonas (persisted : Table Persona.personaId) : Blackboard :=
  let current := b.personas.entries
  let added := persisted.entries.foldl (fun b' persona => b'.putPersona (syncedPersona b persona)) b
  let dropped := current.filter fun persona =>
    !persisted.contains persona.personaId && persona.status ≠ .busy
  dropped.foldl (fun b persona => b.deletePersona persona.personaId) added

def beginCommandStep (s : SessionState) (command : TaskCommand) :
    Option SessionState :=
  if s.commands.contains command.commandId then none
  else
    match beginCommand cfg s.board command with
    | .error _ => none
    | .ok none => some s
    | .ok (some (board, c)) => some { s with board := board, commands := s.commands.put c }

/-- The session after the middle stretch of a command. -/
def markedCommand (s : SessionState) (c : CommandInFlight) : SessionState :=
  let marked := markCommand cfg s.live s.board c
  { s with
    board := marked.1
    commands := s.commands.put { c with marked := true }
    effects := s.effects ++ marked.2.map Effect.signal }

def markCommandStep (s : SessionState) (commandId : String) :
    Option SessionState :=
  match s.commands.get? commandId with
  | none => none
  | some c => if c.marked then none else some (markedCommand cfg s c)

/-- The runs that were created for a task. -/
def runIdsOf : List String :=
  (b.runs.entries.filter fun run => run.taskId = taskId).map ExecutionRun.runId

/-- A command that takes its task away from its runs. -/
def haltsRuns (commandType : TaskCommandType) : Bool :=
  commandType = .cancelTask || isPause commandType

/-- A command that queues its task again. -/
def requeues (commandType : TaskCommandType) : Bool :=
  commandType = .retryTask || commandType = .resumeTask

/-- The session after the last stretch of a command. -/
def finishedCommand (c : CommandInFlight) : SessionState :=
  let runIds := runIdsOf s.board c.command.taskId
  { s with
    board := finishCommand s.board c
    commands := s.commands.erase c.commandId
    halted := if haltsRuns c.command.commandType then s.halted ++ runIds else s.halted
    superseded :=
      if requeues c.command.commandType then
        s.superseded ++ runIds.filter fun runId => runId ∈ s.halted
      else s.superseded }

def finishCommandStep (commandId : String) : Option SessionState :=
  match s.commands.get? commandId with
  | none => none
  | some c => if c.marked then some (finishedCommand s c) else none

/-- The status that `ingest_agent_event` writes, whatever the task's status is. -/
def agentEventStatus : String → Option TaskStatus
  | "agent.blocked" => some .waitingUserInput
  | "task.blocked" => some .waitingUserInput
  | "task.completed" => some .completed
  | "agent.completed" => some .completed
  | _ => none

def ingestAgentEvent (type : String) : Blackboard :=
  match agentEventStatus type with
  | none => b
  | some status => setTaskStatus b taskId status

/-- `handle_blackboard_write`: a blocked run, or a summary that needs input, raises one
request at a time. -/
def raiseRequest (request : InteractionRequest) : Option Blackboard :=
  match request.taskId.bind b.getTask with
  | none => none
  | some task =>
    let grounded :=
      match request.runId with
      | some runId => (b.getRun runId).any fun run =>
        run.status = .blocked && run.taskId = task.taskId
      | none => (b.getSummary task.taskId).any TaskSummary.needsUserInput
    let pending := b.requests.entries.any fun other =>
      other.status = .pending &&
        (match request.runId with
        | some runId => other.runId = some runId
        | none => other.taskId = some task.taskId)
    if grounded && !pending && request.status = .pending &&
        request.availableActions = actionsForKind request.kind &&
        !b.requests.contains request.requestId then
      some (b.putInteractionRequest request)
    else none

def beginAnswerStep (requestId : String) (answer : Answer) :
    Option SessionState :=
  match resolveRequest s.board requestId answer with
  | .error _ => none
  | .ok (board, request) =>
    some { s with board := board, answers := s.answers.put ⟨request, answer⟩ }

/-- After the native attempt: nothing more, or a follow-up turn, or a follow-up run. -/
def finishAnswer (a : AnswerInFlight) (nativeResolved : Bool) : Blackboard :=
  if nativeResolved || a.request.outboundTurnRequestId.isSome then b
  else
    match a.request.taskId.bind b.getTask with
    | none => b
    | some task => queueFollowUp b task a.request a.answer

def finishAnswerStep (requestId : String) (nativeResolved : Bool) :
    Option SessionState :=
  match s.answers.get? requestId with
  | none => none
  | some a =>
    some { s with
      board := finishAnswer s.board a nativeResolved
      answers := s.answers.erase requestId }

variable (connected : String → Option String → Bool)

/-- A waiting task whose preferred executor is connected on its node. -/
def requeueable (task : Task) : Bool :=
  task.status = .waitingExecutor &&
    task.preferredExecutor.any fun executorType =>
      connected executorType (task.metadata.str? "executor_node_id")

def requeueTask (b : Blackboard) (task : Task) :
    Blackboard :=
  if requeueable connected task then
    (b.putTask { task with status := .queued }).putSummary (queuedSummary task)
  else b

/-- `requeue_waiting_executor_tasks`, given what `executor_availability` reports. -/
def requeueWaitingExecutorTasks
    : Blackboard :=
  b.tasks.entries.foldl (requeueTask connected) b

/-- The coroutines that the current tick is waiting for. -/
def Loop.running : Loop → Option (Table Coroutine.taskId)
  | .gathering coroutines => some coroutines
  | _ => none

/-- The running coroutine of a task. -/
def SessionState.coroutine? : Option Coroutine :=
  s.loop.running.bind fun coroutines => coroutines.get? taskId

variable (c : Coroutine)

def SessionState.setStage (stage : Stage) : SessionState :=
  match s.loop with
  | .gathering coroutines => { s with loop := .gathering (coroutines.put { c with stage := stage }) }
  | _ => s

def SessionState.dropCoroutine : SessionState :=
  match s.loop with
  | .gathering coroutines => { s with loop := .gathering (coroutines.erase taskId) }
  | _ => s

/-- `_run_execution_loop` and `tick`, up to the gathering of the coroutines. -/
def loopStep (s : SessionState) : Label → Option SessionState
  | .scheduleExecution =>
    match s.loop with
    | .idle => some { s with loop := .checking }
    | _ => some s
  | .checkRunnable =>
    match s.loop with
    | .checking =>
      if s.board.tasks.entries.any isRunnable then some { s with loop := .listing }
      else some { s with loop := .idle }
    | _ => none
  | .listRunnable =>
    match s.loop with
    | .listing =>
      some { s with
        loop := .claiming ((listRunnableTasks s.board).map Task.taskId) Table.empty }
    | _ => none
  | .claimNext now =>
    match s.loop with
    | .claiming (taskId :: listed) claimed =>
      match s.board.getTask taskId with
      | none => none
      | some task =>
        match claimTask s.board cfg.workerId now task with
        | none => some { s with loop := .claiming listed claimed }
        | some (board, binding) =>
          some { s with
            board := board
            loop := .claiming listed (claimed.put ⟨taskId, binding, .spawned⟩) }
    | _ => none
  | .gather =>
    match s.loop with
    | .claiming [] claimed =>
      if claimed.entries.isEmpty then some { s with loop := .checking }
      else some { s with loop := .gathering claimed }
    | _ => none
  | .finishTick =>
    match s.loop with
    | .gathering coroutines =>
      if coroutines.entries.isEmpty then some { s with loop := .checking } else none
    | _ => none
  | _ => none

/-- The session after `ensure_session` handed its results to `c`. -/
def ensuredSession (executorType : String)
    (ensured : Ensured) : SessionState :=
  { s with board := ensured.board, live := ensured.live }.setStage
    { c with claimed := ensured.binding }
    (.sessionReady executorType ensured.session.executionSessionId
      ensured.executorSession.sessionId)

/-- The session after one event of the stream of `c`: the executor keeps the resume handle
of the envelope, then the event is applied. -/
def drainedEvent (handle : RunHandle) (task : Task)
    (run : ExecutionRun) (event : ExecutorEvent) (resume : Option AgentResumeHandle) :
    SessionState :=
  let live :=
    match resume with
    | none => s.live
    | some resume => s.live.setResumeHandle handle.executorSessionId resume
  { s with
    live := live
    board := drainEvent s.board live c.claimed handle task run event }

/-- One stretch of the `_execute_task` coroutine `c` of `task`. -/
def executeStep (s : SessionState) (c : Coroutine) (task : Task) :
    Label → Option SessionState
  | .lookupExecutor _ =>
    match c.stage with
    | .spawned =>
      let executorType := executorTypeOf cfg task
      if cfg.registry.contains executorType then some (s.setStage c (.ready executorType))
      else
        some ({ s with board := failUnknownExecutor s.board task c.claimed executorType
                }.dropCoroutine c.taskId)
    | _ => none
  | .ensureSession _ created freshId =>
    match c.stage with
    | .ready executorType =>
      if s.board.sessions.contains freshId || freshId = "" ||
          s.live.objects.contains created.sessionId then none
      else
        some (ensuredSession s c executorType
          (ensureSession s.board s.live executorType task c.claimed created freshId))
    | _ => none
  | .createRun _ runId =>
    match c.stage with
    | .sessionReady executorType sessionId executorSessionId =>
      match s.board.getSession sessionId with
      | none => none
      | some session =>
        if s.board.runs.contains runId || runId = "" then none
        else
          some ({ s with
            board := RunManager.createRun s.board task session c.claimed.claimedBy
              executorType runId }.setStage c
            (.runCreated ⟨executorType, sessionId, executorSessionId, runId⟩))
    | _ => none
  | .beginRunTask _ =>
    match c.stage with
    | .runCreated handle =>
      some ({ s with effects := s.effects ++ [Effect.runTask c.taskId handle.runId]
              }.setStage c (.dispatching handle))
    | _ => none
  | .sendDispatch _ =>
    match c.stage with
    | .dispatching handle =>
      some ({ s with effects := s.effects ++ [Effect.dispatchRun c.taskId handle.runId]
              }.setStage c (.draining handle))
    | _ => none
  | .skipDispatch _ =>
    match c.stage with
    | .dispatching handle => some (s.setStage c (.draining handle))
    | _ => none
  | .runEvent _ event resume =>
    match c.stage with
    | .draining handle =>
      match s.board.getRun handle.runId with
      | none => none
      | some run =>
        let s' := drainedEvent s c handle task run event resume
        some (if isTerminalEvent event.eventType then s'.dropCoroutine c.taskId else s')
    | _ => none
  | .raiseException _ text errorType =>
    if c.stage.insideTry then
      some ({ s with
        board := failExecutionException s.board task c.claimed (c.run? s.board) text errorType
        }.dropCoroutine c.taskId)
    else none
  | _ => none

/-- The task whose coroutine takes the label. -/
def Label.coroutineTask : Label → Option String
  | .lookupExecutor taskId => some taskId
  | .ensureSession taskId _ _ => some taskId
  | .createRun taskId _ => some taskId
  | .beginRunTask taskId => some taskId
  | .sendDispatch taskId => some taskId
  | .skipDispatch taskId => some taskId
  | .runEvent taskId _ _ => some taskId
  | .raiseException taskId _ _ => some taskId
  | _ => none

/-- A step of some `_execute_task` coroutine of the current tick. -/
def coroutineStep (s : SessionState) (label : Label) : Option SessionState :=
  match label.coroutineTask with
  | none => none
  | some taskId =>
    match s.coroutine? taskId, s.board.getTask taskId with
    | some c, some task => executeStep cfg s c task label
    | _, _ => none

/-- One step of the session. -/
def step (s : SessionState) (label : Label) : Option SessionState :=
  match label with
  | .startCreation creationId source personaId => startCreation s creationId source personaId
  | .finishCreation creationId template => finishCreation s creationId template
  | .updateTask taskId patch => updateTask cfg s taskId patch
  | .annotateTask taskId key value => annotateTask s taskId key value
  | .syncPersonas persisted => some { s with board := syncPersonas s.board persisted }
  | .beginCommand command => beginCommandStep cfg s command
  | .markCommand commandId => markCommandStep cfg s commandId
  | .finishCommand commandId => finishCommandStep s commandId
  | .agentEvent taskId type => some { s with board := ingestAgentEvent s.board taskId type }
  | .raiseRequest request =>
    (raiseRequest s.board request).map fun board => { s with board := board }
  | .beginAnswer requestId answer => beginAnswerStep s requestId answer
  | .finishAnswer requestId nativeResolved => finishAnswerStep s requestId nativeResolved
  | .requeueWaiting connected =>
    some { s with board := requeueWaitingExecutorTasks s.board connected }
  | .scheduleExecution => loopStep cfg s label
  | .checkRunnable => loopStep cfg s label
  | .listRunnable => loopStep cfg s label
  | .claimNext _ => loopStep cfg s label
  | .gather => loopStep cfg s label
  | .finishTick => loopStep cfg s label
  | _ => coroutineStep cfg s label

/-- A new session: no task, and no persona synced yet. -/
def initialState : SessionState :=
  { board := Blackboard.empty
    live := LiveSessions.empty
    loop := .idle
    creations := Table.empty
    commands := Table.empty
    answers := Table.empty
    effects := []
    halted := []
    superseded := [] }

/-- The transition system of a session with the given executors. -/
def system : System SessionState Label where
  initial s := s = initialState
  step := step cfg

/-! ## A small session

One hosted executor and one task, for the runs that show a law fail. -/

def codexConfig : Config :=
  { registry := Table.empty.put
      { executorType := "codex", supportsResume := true, supportsPause := true }
    defaultExecutorType := "codex"
    workerId := "worker-s1" }

/-- Send a draft without a bro as a task. -/
def createLabels (creationId taskId : String) : List Label :=
  [.startCreation creationId .sendDraft none,
    .finishCreation creationId
      { taskId := taskId, rootTaskId := taskId, title := "Build", goal := "Build it"
        preferredExecutor := some "codex" }]

/-- Run the loop up to the first stretch of its coroutines. -/
def tickLabels : List Label :=
  [.scheduleExecution, .checkRunnable, .listRunnable, .claimNext 0, .gather]

/-- Drive the coroutine of a task until it drains the events of its run. -/
def executeLabels (sessionId runId : String) : List Label :=
  [.lookupExecutor taskId, .ensureSession taskId ⟨"executor-" ++ sessionId, "codex", none⟩ sessionId,
    .createRun taskId runId, .beginRunTask taskId, .sendDispatch taskId]

/-- The session that the labels lead to from a new one. -/
def reached (labels : List Label) : SessionState :=
  (system cfg).target initialState labels

theorem reachable_reached (labels : List Label) : (system cfg).Reachable (reached cfg labels) :=
  .target rfl labels

theorem run_reached {cfg : Config} {labels labels' : List Label}
    (h : ((system cfg).run initialState (labels ++ labels')).isSome) :
    (system cfg).run (reached cfg labels) labels' = some (reached cfg (labels ++ labels')) :=
  System.run_target h

/-- A whole command. -/
def commandLabels (commandId taskId : String) (commandType : TaskCommandType) : List Label :=
  [.beginCommand ⟨commandId, taskId, commandType, "user", none⟩, .markCommand commandId,
    .finishCommand commandId]

end Newbro.SessionRuntime
