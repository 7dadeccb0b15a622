import Newbro.HostedRuns
import Newbro.Snapshots

/-!
# What a session asks of executor nodes

Every command that is sent to a node on behalf of a session, from the request or the
background step that leads to it to the node that it is for: the persona, the task, the
execution session, the imported thread or the subscription that records the node. What an
executor has to support for a request, and its time-outs, only make it fail and are left
out, and so are the times by which threads are ordered.
-/
namespace Newbro.NodeRequests

open Library Protocol BroThreads OutboundTurns
  ExecutorNodes Snapshots

/-- `SelectedCodexThreadSubscription` -/
structure Subscription where
  personaId : String
  publicThreadId : String
  nodeId : String
  codexThreadId : String
  deriving Repr, DecidableEq

/-- A session of a user. Ids are fresh, so what a session looks up in the run table of the
node manager is its own, and that part of the table is kept here. -/
structure UserSession where
  sessionId : String
  owner : String
  state : Snapshots.State
  subscriptions : Table Subscription.personaId
  runStates : Table RunDispatchState.runId

variable (session : UserSession)

def UserSession.board : Blackboard := session.state.session.board

def newSession (sessionId owner : String) : UserSession :=
  ⟨sessionId, owner, Snapshots.initialState, Table.empty, Table.empty⟩

/-! ## The threads of a snapshot -/

/-- A thread of the projection, as far as its node is concerned. -/
structure ProjectedThread where
  threadId : String
  personaId : String
  executorNodeId : Option String
  codexThreadId : Option String
  deriving Repr, DecidableEq

/-- `_task_metadata_string(task, "persona_id")`, or else the assigned bro. -/
def taskPersonaId (task : Task) : Option String :=
  (task.metadata.nonemptyStr? "persona_id").or (task.metadata.nonemptyStr? "assigned_bro_id")

variable (b : Blackboard)

/-- The last run of a session, by its id or else by the order of its runs. -/
def latestRun (session : ExecutionSession) : Option ExecutionRun :=
  match session.latestRunId.filter (· ≠ "") with
  | some runId => b.getRun runId
  | none => (session.runIds.filterMap b.getRun).getLast?

/-- The tasks of a session: those of its runs, and the one it was opened for in front. -/
def sessionTaskIds (session : ExecutionSession) : List String :=
  let runs := session.runIds.filterMap b.getRun
  let runs := if runs.isEmpty then (session.latestRunId.bind b.getRun).toList else runs
  let taskIds := (runs.map ExecutionRun.taskId).eraseDups
  if session.taskId ≠ "" && !taskIds.contains session.taskId then session.taskId :: taskIds
  else taskIds

def latestTask (session : ExecutionSession) : Option Task :=
  match latestRun b session with
  | some run => b.getTask run.taskId
  | none => (((sessionTaskIds b session).filterMap b.getTask).getLast?).or (b.getTask session.taskId)

/-- The persona of a session's thread: the one its latest task names, or the one whose
detail session the key is. -/
def sessionPersonaId (session : ExecutionSession) : Option String :=
  ((latestTask b session).bind taskPersonaId).or
    ((b.personas.entries.find? fun persona =>
      session.continuityKey = some persona.broDetailSessionId).map Persona.personaId)

/-- The native thread that a session resumes. -/
def sessionCodexThreadId (session : ExecutionSession) : Option String :=
  ((session.latestResumeHandle.filter fun handle => handle.executorId = "codex").bind
    AgentResumeHandle.sessionHandle).filter (· ≠ "")

/-- The thread of a Codex session of a known persona. -/
def sessionThread (session : ExecutionSession) : Option ProjectedThread :=
  if session.baseExecutorId ≠ "codex" then none
  else
    ((sessionPersonaId b session).filter fun personaId => b.personas.contains personaId).map
      fun personaId =>
        { threadId := publicThreadId session
          personaId := personaId
          executorNodeId := session.executorNodeId
          codexThreadId := sessionCodexThreadId session }

def importedThread (thread : BroThread) : ProjectedThread :=
  ⟨thread.threadId, thread.personaId, thread.executorNodeId, thread.codexThreadId⟩

/-- The thread of a task that has no session yet; the persona's node stands in for one that
the task does not name. -/
def taskThread (task : Task) : Option ProjectedThread :=
  match taskThreadPublicId task, (taskPersonaId task).bind b.getPersona with
  | some threadId, some persona =>
    some
      { threadId := threadId
        personaId := persona.personaId
        executorNodeId :=
          (task.metadata.nonemptyStr? "executor_node_id").or persona.executorNodeId
        codexThreadId := none }
  | _, _ => none

variable (imported : ImportedThreads)

/-- `_build_bro_thread_projection`, in no order: a thread of several tasks has the data of
its latest one and is listed once for each of them. -/
def projectedThreads : List ProjectedThread :=
  let ofSessions := b.sessions.entries.filterMap (sessionThread b)
  let ofImports := (imported.threads.entries.map importedThread).filter fun thread =>
    !(ofSessions.any fun other => other.threadId = thread.threadId ||
      (other.codexThreadId.isSome && other.personaId = thread.personaId &&
        other.codexThreadId = thread.codexThreadId))
  let known := ofSessions ++ ofImports
  known ++ (b.tasks.entries.filterMap (taskThread b)).filter fun thread =>
    !(known.any fun other => other.threadId = thread.threadId)

variable (threadId : String)

/-- The thread that the projection has first under an id. -/
def isFirstThread :
    Option ProjectedThread → Bool
  | some thread => projectedThreads b imported |>.any fun other =>
    other.threadId = threadId && other = thread
  | none => (projectedThreads b imported).all fun other => other.threadId ≠ threadId

/-! ## Commands and the requests that lead to them -/

/-- The commands of the node protocol. -/
inductive NodeCommand where
  | dispatchRun | cancelRun | dispatchTextInstruction | dispatchAudioInstruction
  | transcribeAudioInstruction | startCodexTurn | listCodexThreads | listCodexThreadTurns
  | subscribeCodexThread | unsubscribeCodexThread | supplyInteractionResponse
  | readWorkspaceFile
  deriving Repr, DecidableEq

/-- The commands that an instruction for a persona leads to. -/
inductive InstructionCommand where
  | text | audio | transcribe
  deriving Repr, DecidableEq

def InstructionCommand.command : InstructionCommand → NodeCommand
  | text => .dispatchTextInstruction
  | audio => .dispatchAudioInstruction
  | transcribe => .transcribeAudioInstruction

/-- What asks for a node: requests of the API, and steps of the session by itself. The sync
of threads belongs to a node that connects, and file downloads have no await in between:
they are steps of their own. -/
inductive Request where
  | runTask (taskId runId executionSessionId executorType : String)
  | cancelRun (runId : String)
  | instruct (command : InstructionCommand) (personaId : String)
  | startTurn (personaId : String) (request : OutboundTurnRequest)
  | threadPage (personaId : String)
  | timelinePage (personaId threadId : String)
  | subscribe (personaId threadId : String)
  | unsubscribe (personaId : String)
  | supplyAnswer (interactionId : String)

/-- A request whose node is found: the session it leaves, the command, the nodes it is for,
and the personas whose threads are listed. -/
structure Prepared where
  session : UserSession
  command : NodeCommand
  nodeIds : List String
  personas : List Persona := []

variable (persona : Persona)

/-- The node that a persona is bound to, if it is. -/
def personaNode : Option String := persona.executorNodeId.filter (· ≠ "")

variable (personaId : String)

def boundPersona : Option (Persona × String) :=
  (b.getPersona personaId).bind fun persona =>
    (personaNode persona).map fun nodeId => (persona, nodeId)

/-- `run_task`: the node that the task names, or none, and then the run waits. -/
def prepareRun (taskId runId executionSessionId executorType : String) :
    Option Prepared :=
  (session.board.getTask taskId).map fun task =>
    let nodeId := HostedRuns.nodeIdFromTask task
    let runStates := session.runStates.put ⟨runId, executionSessionId, executorType, nodeId⟩
    ⟨{ session with runStates := runStates }, .dispatchRun, nodeId.toList, []⟩

variable (m : NodeManager)

/-- The direct executor: the persona has to be bound to a node that offers Codex. -/
def prepareInstruction (session : UserSession) (command : NodeCommand)
    (personaId : String) : Option Prepared :=
  (boundPersona session.board personaId).bind fun bound =>
    if m.isExecutorConnected "codex" (some bound.2) then some ⟨session, command, [bound.2], []⟩
    else none

/-- `start_turn`: the outbound request records the node of the persona. -/
def prepareTurn (session : UserSession) (personaId : String)
    (request : OutboundTurnRequest) : Option Prepared :=
  (prepareInstruction m session .startCodexTurn personaId).bind fun prepared =>
    if session.state.turns.requests.contains request.requestId then none
    else
      prepared.nodeIds.head?.map fun nodeId =>
        let outbound := { request with personaId := personaId, executorNodeId := nodeId }
        let turns := session.state.turns
        let turns := { turns with requests := turns.requests.put outbound }
        { prepared with session := { session with state := { session.state with turns := turns } } }

/-- `list_bro_thread_page` -/
def prepareThreadPage : Option Prepared :=
  (boundPersona session.board personaId).map fun bound =>
    ⟨session, .listCodexThreads, [bound.2], [bound.1]⟩

/-- The personas whose threads are synced: they are bound to a node that offers Codex and is
one of those that can list its threads. -/
def eligiblePersonas (b : Blackboard) (listing : List String) : List Persona :=
  b.personas.entries.filter fun persona =>
    (personaNode persona).any fun nodeId =>
      m.isExecutorConnected "codex" (some nodeId) && listing.contains nodeId

/-- `sync_imported_codex_threads` up to its requests: without an eligible persona nothing
is imported any more. -/
def prepareThreadSync (session : UserSession) (listing : List String) :
    Prepared :=
  let personas := eligiblePersonas m session.board listing
  let imported : ImportedThreads :=
    if personas.isEmpty then ⟨Table.empty, Table.empty⟩ else session.state.imported
  ⟨{ session with state := { session.state with imported := imported } }, .listCodexThreads,
    personas.filterMap personaNode, personas⟩

/-- `list_bro_timeline_page`: the thread has to be imported, the node is the persona's. -/
def prepareTimelinePage (threadId : String) :
    Option Prepared :=
  (boundPersona session.board personaId).bind fun bound =>
    let imported := session.state.imported
    if imported.threads.contains threadId && (imported.resumeHandles.lookup threadId).isSome then
      some ⟨session, .listCodexThreadTurns, [bound.2], []⟩
    else none

/-- `subscribe_bro_thread`: the node of the thread's execution session, if it has one, else
the persona's. -/
def prepareSubscription (session : UserSession) (personaId threadId : String) :
    Option Prepared :=
  (boundPersona session.board personaId).bind fun bound =>
    if m.isExecutorConnected "codex" (some bound.2) then
      let threads : BroSession :=
        { sessionId := session.sessionId
          board := session.board
          importedCodexThreads := session.state.imported.threads
          importedCodexThreadResumeHandles := session.state.imported.resumeHandles }
      match resolveBroThreadTarget threads bound.1 (some threadId) with
      | .error _ => none
      | .ok target =>
        let handle := target.resumeHandle.or
          (target.executionSession.bind ExecutionSession.latestResumeHandle)
        let codexThreadId := ((handle.filter fun handle => handle.executorId = "codex").bind
          AgentResumeHandle.sessionHandle).filter (· ≠ "")
        let nodeId := match target.executionSession with
          | some selected => selected.executorNodeId.filter (· ≠ "")
          | none => some bound.2
        match codexThreadId, nodeId with
        | some codexThreadId, some nodeId =>
          let subscription : Subscription :=
            ⟨bound.1.personaId, target.publicThreadId, nodeId, codexThreadId⟩
          let subscriptions := session.subscriptions.put subscription
          some ⟨{ session with subscriptions := subscriptions }, .subscribeCodexThread,
            [nodeId], []⟩
        | _, _ => none
    else none

/-- `stop_selected_codex_thread_subscription`: the node that was subscribed at. -/
def prepareUnsubscription : Option Prepared :=
  (session.subscriptions.get? personaId).map fun subscription =>
    let subscriptions := session.subscriptions.erase personaId
    ⟨{ session with subscriptions := subscriptions }, .unsubscribeCodexThread,
      [subscription.nodeId], []⟩

/-- The run state by which `supply_interaction_response` finds a run, or else its session. -/
def answeredRunState (request : InteractionRequest) :
    Option RunDispatchState :=
  (request.runId.bind session.runStates.get?).or
    (request.executionSessionId.bind fun executionSessionId =>
      session.runStates.entries.find? fun state => state.executionSessionId = executionSessionId)

/-- `supply_interaction_response`: the node of the run, if it is under way, else the one of
the request or of the execution session. -/
def answerNode (request : InteractionRequest) : Option String :=
  match answeredRunState session request with
  | some state => state.nodeId
  | none =>
    (request.executorNodeId.filter (· ≠ "")).or
      ((request.executionSessionId.bind session.board.getSession).bind
        ExecutionSession.executorNodeId)

/-- The node of a request. -/
def prepare (session : UserSession) : Request → Option Prepared
  | .runTask taskId runId executionSessionId executorType =>
    prepareRun session taskId runId executionSessionId executorType
  | .cancelRun runId =>
    (session.runStates.get? runId).map fun state => ⟨session, .cancelRun, state.nodeId.toList, []⟩
  | .instruct command personaId => prepareInstruction m session command.command personaId
  | .startTurn personaId request => prepareTurn m session personaId request
  | .threadPage personaId => prepareThreadPage session personaId
  | .timelinePage personaId threadId => prepareTimelinePage session personaId threadId
  | .subscribe personaId threadId => prepareSubscription m session personaId threadId
  | .unsubscribe personaId => prepareUnsubscription session personaId
  | .supplyAnswer interactionId =>
    (session.board.getRequest interactionId).map fun request =>
      ⟨session, .supplyInteractionResponse, (answerNode session request).toList, []⟩

/-! ## Imported threads -/

/-- A native thread as a node lists it, with the public id that aliases or its hash give
it. -/
structure CodexThreadItem where
  publicThreadId : String
  codexThreadId : String
  cwd : Option String
  deriving Repr, DecidableEq

def projectImportedCodexThread (item : CodexThreadItem) :
    BroThread × AgentResumeHandle :=
  (⟨item.publicThreadId, persona.personaId, personaNode persona, item.cwd,
      some item.codexThreadId⟩,
    { executorId := "codex"
      sessionHandle := some item.codexThreadId
      opaqueFields := [("cwd", .str (item.cwd.getD ""))] })

def addImported (item : CodexThreadItem) :
    ImportedThreads :=
  let projected := projectImportedCodexThread persona item
  ⟨imported.threads.put projected.1,
    imported.resumeHandles.set projected.1.threadId projected.2⟩

/-- The threads that the nodes have listed, each under a persona of the request. -/
def importListed (listed : List (Persona × CodexThreadItem)) :
    ImportedThreads :=
  listed.foldl (fun imported entry => addImported imported entry.1 entry.2) imported

/-- `attach_outbound_new_thread_resume_handle` -/
def attachNewThread (outbound : OutboundTurnRequest)
    (threadId executorThreadId : String) : ImportedThreads :=
  ⟨imported.threads.put
      ⟨threadId, outbound.personaId, some outbound.executorNodeId, none, some executorThreadId⟩,
    imported.resumeHandles.set threadId
      { executorId := outbound.executorId
        sessionHandle := some executorThreadId }⟩

end Newbro.NodeRequests
