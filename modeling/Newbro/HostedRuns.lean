import Newbro.ExecutorNodes
import Newbro.SessionRuntime

/-!
# Runs on executor nodes

The control plane and the nodes as a transition system: the `run_task` coroutine of each
hosted run, the endpoint of each websocket, the cleanups after lost connections and the
turns on the nodes. A label is one stretch between two awaits, and every await of
`dispatch_run`, `disconnect`, `register_connection`, `publish_run_event` and the requeue
scan is a boundary. Each websocket delivers its messages in order.

What the rest of a session does to the tasks is left open: any task may be started, and
commands, answers and agent events may write any status but `waiting_executor`.
`detached`, `emitted` and `applied` are history only, and no step reads them.
-/
namespace Newbro.HostedRuns

open Library Protocol ExecutorNodes Reconcile

/-- How far the `run_task` coroutine of a run has come. -/
inductive RunStage where
  | connecting
  | sending
  | dropping (cleanupId : String)
  | draining
  | ending
  | finished
  deriving Repr, DecidableEq

/-- A `run_task` coroutine with its queue, and the websocket that its command was or will
be sent on, once it has one. -/
structure HostedRun where
  state : RunDispatchState
  taskId : String
  stage : RunStage
  websocket : Option String
  queue : List ExecutorEvent

def HostedRun.runId (run : HostedRun) : String := run.state.runId

/-- What the endpoint of a websocket is at: the scan after the registration, then one
message after the other. -/
inductive SocketPhase where
  | scanDue
  | scanning (taskIds : List String)
  | receiving
  | publishing (runId : String) (event : ExecutorEvent)

/-- The endpoint of a websocket and the messages that are under way to it. -/
structure Socket where
  websocket : String
  phase : SocketPhase
  inbox : List (String × ExecutorEvent)

inductive CleanupStage where
  | popped
  | detaching (runIds : List String)

/-- A `_handle_node_disconnected` under way. -/
structure Cleanup where
  cleanupId : String
  nodeId : String
  reason : String
  stage : CleanupStage

inductive TurnPhase where
  | streaming
  | awaitingAnswer
  | ended
  deriving Repr, DecidableEq

/-- The turn of a run on its node. -/
structure NodeTurn where
  runId : String
  websocket : String
  phase : TurnPhase
  followUps : Bool

structure HostedState where
  manager : NodeManager
  sockets : Table Socket.websocket
  cleanups : Table Cleanup.cleanupId
  runs : Table HostedRun.runId
  turns : Table NodeTurn.runId
  board : Blackboard
  detached : List String
  emitted : List (String × ExecutorEvent)
  applied : List (String × ExecutorEvent)

inductive Label where
  | createTask (task : Task)
  | writeStatus (taskId : String) (status : TaskStatus)
  | dispatchRun (run : ExecutionRun)
  | readConnection (runId : String)
  | sent (runId : String)
  | sendFails (runId cleanupId : String)
  | dropped (runId : String)
  | drain (runId : String)
  | finishRun (runId : String)
  | register (connection : NodeConnection)
  | beginScan (websocket : String)
  | scanNext (websocket : String)
  | receive (websocket : String)
  | publish (websocket : String)
  | disconnect (websocket cleanupId reason : String)
  | snapshotRuns (cleanupId : String)
  | detachNext (cleanupId : String)
  | emit (runId : String) (event : ExecutorEvent)
  | supplyAnswer (runId : String)
  | acceptFollowUp (runId : String)
  | followUpEvent (runId : String) (event : ExecutorEvent)

variable (s : HostedState) (task : Task)

def createTask : Option HostedState :=
  if s.board.tasks.contains task.taskId || task.status = .waitingExecutor then none
  else some { s with board := s.board.putTask task }

def writeStatus (taskId : String) (status : TaskStatus) : Option HostedState :=
  match s.board.getTask taskId with
  | none => none
  | some task =>
    if status = .waitingExecutor then none
    else some { s with board := s.board.putTask { task with status := status } }

/-! ## `dispatch_run` and `run_task` -/

def nodeIdFromTask : Option String := task.metadata.nonemptyStr? "executor_node_id"

variable (m : NodeManager)

/-- The first stretch of `dispatch_run`: a run without a connected node waits at once. -/
def dispatchOutcome (state : RunDispatchState) :
    RunStage × List ExecutorEvent :=
  match state.nodeId with
  | none => (.draining, [unboundEvent state])
  | some nodeId =>
    if m.isExecutorConnected state.executorType (some nodeId) then (.connecting, [])
    else
      (.draining, [disconnectedEvent state nodeId
        (m.executorAvailability state.executorType (some nodeId)).availabilityReason])

variable (run : ExecutionRun)

def dispatchState (task : Task) : RunDispatchState :=
  ⟨run.runId, run.executionSessionId, run.executorType, nodeIdFromTask task⟩

def startedRun (task : Task) : HostedRun :=
  let outcome := dispatchOutcome m (dispatchState run task)
  ⟨dispatchState run task, run.taskId, outcome.1, none, outcome.2⟩

/-- `run_task` of a run that the loop has created, up to the connection table. -/
def dispatchRun : Option HostedState :=
  match s.board.getTask run.taskId with
  | none => none
  | some task =>
    if s.runs.contains run.runId || s.board.runs.contains run.runId ||
        !s.manager.isDetachedExecutor run.executorType then none
    else
      some { s with
        manager := s.manager.fileRun (dispatchState run task)
        runs := s.runs.put (startedRun s.manager run task)
        board := s.board.putRun run }

variable (runId : String)

/-- The connection table is read again: the command goes to the connection found now. -/
def readConnection : Option HostedState :=
  match s.runs.get? runId with
  | none => none
  | some run =>
    match run.stage, run.state.nodeId with
    | .connecting, some nodeId =>
      match s.manager.connectionsByNode.get? nodeId with
      | none =>
        some { s with runs := s.runs.put { run with
          stage := .draining
          queue := run.queue ++
            [disconnectedEvent run.state nodeId (some "node_disconnected")] } }
      | some c =>
        some { s with runs := s.runs.put { run with
          stage := .sending
          websocket := some c.websocket } }
    | _, _ => none

/-- The command reaches the node, which starts the turn. -/
def sent : Option HostedState :=
  match s.runs.get? runId with
  | none => none
  | some run =>
    match run.stage, run.websocket with
    | .sending, some websocket =>
      some { s with
        runs := s.runs.put { run with stage := .draining }
        turns := s.turns.put ⟨runId, websocket, .streaming, false⟩ }
    | _, _ => none

variable (websocket cleanupId : String)

/-- The first stretch of `disconnect`. -/
def disconnect (reason : String) : Option HostedState :=
  if s.cleanups.contains cleanupId then none
  else
    match s.manager.popConnection websocket with
    | none => some s
    | some (nodeId, manager) =>
      some { s with
        manager := manager
        cleanups := s.cleanups.put ⟨cleanupId, nodeId, reason, .popped⟩ }

/-- The send fails, and `dispatch_run` drops the connection and waits for the cleanup. -/
def sendFails : Option HostedState :=
  match s.runs.get? runId with
  | none => none
  | some run =>
    match run.stage, run.websocket with
    | .sending, some websocket =>
      disconnect { s with runs := s.runs.put { run with stage := .dropping cleanupId } }
        websocket cleanupId "dispatch_failed"
    | _, _ => none

def dropped : Option HostedState :=
  match s.runs.get? runId with
  | none => none
  | some run =>
    match run.stage with
    | .dropping cleanupId =>
      if s.cleanups.contains cleanupId then none
      else some { s with runs := s.runs.put { run with stage := .draining } }
    | _ => none

/-- One turn of the loop of `run_task`: the event is yielded and applied to the task. -/
def drain : Option HostedState :=
  match s.runs.get? runId, s.board.getRun runId with
  | some run, some record =>
    match run.stage, run.queue, s.board.getTask run.taskId with
    | .draining, event :: queue, some task =>
      some { s with
        runs := s.runs.put { run with
          stage := if isTerminalEvent event.eventType then .ending else .draining
          queue := queue }
        board := RunManager.applyEvent s.board task record event
        applied := s.applied ++ [(runId, event)] }
    | _, _, _ => none
  | _, _ => none

/-- The `finally` of `run_task`. -/
def finishRun : Option HostedState :=
  match s.runs.get? runId with
  | none => none
  | some run =>
    match run.stage with
    | .ending =>
      some { s with
        manager := s.manager.finishRun runId
        runs := s.runs.put { run with stage := .finished } }
    | _ => none

/-! ## The endpoint of a websocket -/

def register (c : NodeConnection) : Option HostedState :=
  if s.sockets.contains c.websocket then none
  else
    (s.manager.registerConnection c).map fun manager =>
      { s with manager := manager, sockets := s.sockets.put ⟨c.websocket, .scanDue, []⟩ }

def HostedState.setPhase (socket : Socket) (phase : SocketPhase) :
    HostedState :=
  { s with sockets := s.sockets.put { socket with phase := phase } }

/-- `handle_executor_node_connected` lists the tasks of the session. -/
def beginScan : Option HostedState :=
  match s.sockets.get? websocket with
  | none => none
  | some socket =>
    match socket.phase with
    | .scanDue => some (s.setPhase socket (.scanning (s.board.tasks.entries.map Task.taskId)))
    | _ => none

/-- What the requeue scan asks `executor_availability`. -/
def available (executorType : String) (nodeId : Option String) : Bool :=
  (m.executorAvailability executorType nodeId).connected

/-- The scan looks at one of the tasks it listed. -/
def scanNext : Option HostedState :=
  match s.sockets.get? websocket with
  | none => none
  | some socket =>
    match socket.phase with
    | .scanning [] => some (s.setPhase socket .receiving)
    | .scanning (taskId :: taskIds) =>
      let board :=
        match s.board.getTask taskId with
        | none => s.board
        | some task => SessionRuntime.requeueTask (available s.manager) s.board task
      some ({ s with board := board }.setPhase socket (.scanning taskIds))
    | _ => none

/-- `publish_run_event` of the next message, up to the registry call. -/
def receive : Option HostedState :=
  match s.sockets.get? websocket with
  | none => none
  | some socket =>
    match socket.phase, socket.inbox with
    | .receiving, (runId, event) :: inbox =>
      let phase :=
        match s.manager.judgeRunEvent websocket runId with
        | .accepted => .publishing runId event
        | .unknownRun => .receiving
        | .unauthorizedRun => .receiving
      some (s.setPhase { socket with inbox := inbox } phase)
    | _, _ => none

/-- `queue.put`, on the queue that the coroutine of the run still reads. -/
def putEvent (runs : Table HostedRun.runId) (runId : String) (event : ExecutorEvent) :
    Table HostedRun.runId :=
  match runs.get? runId with
  | none => runs
  | some run => runs.put { run with queue := run.queue ++ [event] }

variable (event : ExecutorEvent)

def HostedState.enqueue :
    HostedState :=
  { s with runs := putEvent s.runs runId event }

def publish : Option HostedState :=
  match s.sockets.get? websocket with
  | none => none
  | some socket =>
    match socket.phase with
    | .publishing runId event => some ((s.setPhase socket .receiving).enqueue runId event)
    | _ => none

/-! ## `_handle_node_disconnected` -/

def HostedState.setCleanup (cleanup : Cleanup) (stage : CleanupStage) :
    HostedState :=
  { s with cleanups := s.cleanups.put { cleanup with stage := stage } }

def snapshotRuns : Option HostedState :=
  match s.cleanups.get? cleanupId with
  | none => none
  | some cleanup =>
    match cleanup.stage with
    | .popped => some (s.setCleanup cleanup (.detaching (s.manager.runsOfNode cleanup.nodeId)))
    | _ => none

/-- The run waits for its node again and is forgotten. -/
def HostedState.detach (state : RunDispatchState) (nodeId reason : String) :
    HostedState :=
  let s := s.enqueue state.runId (lostEvent state nodeId reason)
  { s with
    manager := s.manager.finishRun state.runId
    detached := s.detached ++ [state.runId] }

def detachNext : Option HostedState :=
  match s.cleanups.get? cleanupId with
  | none => none
  | some cleanup =>
    match cleanup.stage with
    | .detaching [] => some { s with cleanups := s.cleanups.erase cleanupId }
    | .detaching (runId :: runIds) =>
      let s := s.setCleanup cleanup (.detaching runIds)
      match s.manager.runStates.get? runId with
      | none => some s
      | some state => some (s.detach state cleanup.nodeId cleanup.reason)
    | _ => none

/-! ## The nodes -/

/-- The phase of a turn after it has emitted an event. -/
def phaseAfter (eventType : ExecutorEventType) : TurnPhase :=
  match eventType with
  | .progress => .streaming
  | .plan => .streaming
  | .waitingExecutor => .streaming
  | .blocked => .awaitingAnswer
  | _ => .ended

def deliver (sockets : Table Socket.websocket) (websocket : String)
    (message : String × ExecutorEvent) : Table Socket.websocket :=
  match sockets.get? websocket with
  | none => sockets
  | some socket => sockets.put { socket with inbox := socket.inbox ++ [message] }

/-- A message of a turn goes on its way. -/
def HostedState.send (turn : NodeTurn) (event : ExecutorEvent) :
    HostedState :=
  { s with
    sockets := deliver s.sockets turn.websocket (turn.runId, event)
    emitted := s.emitted ++ [(turn.runId, event)] }

def emit : Option HostedState :=
  match s.turns.get? runId with
  | none => none
  | some turn =>
    if turn.phase = .streaming then
      some { s.send turn event with
        turns := s.turns.put { turn with phase := phaseAfter event.eventType } }
    else none

/-- An answer to the question of a turn is sent to its node and resolved natively: the same
turn goes on. -/
def supplyAnswer : Option HostedState :=
  match s.turns.get? runId with
  | none => none
  | some turn =>
    if turn.phase = .awaitingAnswer && s.manager.isConnected turn.websocket then
      some { s with turns := s.turns.put { turn with phase := .streaming } }
    else none

/-- The node accepts a text instruction for a run that is still active. -/
def acceptFollowUp : Option HostedState :=
  match s.turns.get? runId with
  | none => none
  | some turn =>
    if turn.phase = .ended then none
    else some { s with turns := s.turns.put { turn with followUps := true } }

def followUpEvent :
    Option HostedState :=
  match s.turns.get? runId with
  | none => none
  | some turn => if turn.followUps then some (s.send turn event) else none

def step : Label → Option HostedState
  | .createTask task => createTask s task
  | .writeStatus taskId status => writeStatus s taskId status
  | .dispatchRun run => dispatchRun s run
  | .readConnection runId => readConnection s runId
  | .sent runId => sent s runId
  | .sendFails runId cleanupId => sendFails s runId cleanupId
  | .dropped runId => dropped s runId
  | .drain runId => drain s runId
  | .finishRun runId => finishRun s runId
  | .register connection => register s connection
  | .beginScan websocket => beginScan s websocket
  | .scanNext websocket => scanNext s websocket
  | .receive websocket => receive s websocket
  | .publish websocket => publish s websocket
  | .disconnect websocket cleanupId reason => disconnect s websocket cleanupId reason
  | .snapshotRuns cleanupId => snapshotRuns s cleanupId
  | .detachNext cleanupId => detachNext s cleanupId
  | .emit runId event => emit s runId event
  | .supplyAnswer runId => supplyAnswer s runId
  | .acceptFollowUp runId => acceptFollowUp s runId
  | .followUpEvent runId event => followUpEvent s runId event

/-! ## Quiescence -/

def HostedRun.atRest (run : HostedRun) : Bool :=
  match run.stage with
  | .draining => run.queue.isEmpty
  | .finished => true
  | _ => false

/-- A lost websocket delivers nothing, but a message that was accepted is still put. -/
def Socket.atRest (socket : Socket) : Bool :=
  match socket.phase with
  | .publishing _ _ => false
  | .receiving => !m.isConnected socket.websocket || socket.inbox.isEmpty
  | _ => !m.isConnected socket.websocket

/-- No coroutine of the control plane has a stretch to run. -/
def NoStepPending : Prop :=
  s.cleanups.entries.isEmpty = true ∧ (∀ run ∈ s.runs.entries, run.atRest = true) ∧
    ∀ socket ∈ s.sockets.entries, socket.atRest s.manager = true

instance (s : HostedState) : Decidable (NoStepPending s) :=
  inferInstanceAs (Decidable (_ ∧ _ ∧ _))

/-- A control plane without nodes, runs or tasks. -/
def initialState (detachedExecutorTypes : List String) : HostedState :=
  { manager := ⟨detachedExecutorTypes, Table.empty, Table.empty⟩
    sockets := Table.empty
    cleanups := Table.empty
    runs := Table.empty
    turns := Table.empty
    board := Blackboard.empty
    detached := []
    emitted := []
    applied := [] }

def system (detachedExecutorTypes : List String) : System HostedState Label where
  initial s := s = initialState detachedExecutorTypes
  step := step

/-! ## Runs to try things on -/

/-- Where the labels lead from a control plane that hosts `codex` on its nodes. -/
def reached (labels : List Label) : HostedState :=
  (system ["codex"]).target (initialState ["codex"]) labels

def exampleTask : Task :=
  { taskId := "task-1"
    rootTaskId := "task-1"
    title := "Summarize"
    goal := "Summarize the notes"
    preferredExecutor := some "codex"
    metadata := Dict.set Table.empty "executor_node_id" (.str "node-1") }

def exampleRun : ExecutionRun :=
  { runId := "run-1"
    taskId := "task-1"
    executionSessionId := "session-1"
    executorType := "codex" }

/-- A node connects and the scan looks at the tasks there are. -/
def connectLabels (tasks : Nat) : List Label :=
  [.register ⟨"node-1", websocket, ["codex"]⟩, .beginScan websocket] ++
    List.replicate (tasks + 1) (.scanNext websocket)

/-- The run is dispatched to the node. -/
def dispatchLabels : List Label := [.dispatchRun exampleRun, .readConnection "run-1", .sent "run-1"]

/-- A connection is lost while the run is under way. -/
def disconnectLabels : List Label :=
  [.disconnect websocket "cleanup-1" "connection_closed", .snapshotRuns "cleanup-1",
    .detachNext "cleanup-1", .detachNext "cleanup-1"]

end Newbro.HostedRuns
