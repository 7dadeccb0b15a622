import Newbro.BroThreads
import Newbro.ExecutorNodes
import Newbro.OutboundTurns

/-!
# Control messages of executor nodes

The receiving side of the control websocket: `_handle_control_message`, the `publish_*`
methods of `ExecutorNodeManager` with their tables of pending requests and file streams, the
session that a message is for, and what the endpoint does about an exception. An entry of
a request table is kept with its reply once the future is set; `nodeId` records where the
command of the request was sent, which the source does not keep.
-/
namespace Newbro.ControlMessages

open Library Protocol BroThreads ExecutorNodes OutboundTurns

/-- One table of pending requests each. -/
inductive RequestKind where
  | audioTranscription | threadList | threadTurns | threadRead | subscribe | unsubscribe
  deriving Repr, DecidableEq

structure PendingRequest where
  kind : RequestKind
  requestId : String
  nodeId : String
  reply : Option Value

def PendingRequest.key (request : PendingRequest) : RequestKind × String :=
  (request.kind, request.requestId)

inductive FileMessage where
  | chunk (seq : Nat) (data : String)
  | eof (totalBytes : Nat)
  | error (code message : String)
  deriving Repr, DecidableEq

/-- The queue of a `read_workspace_file` that is being read. -/
structure FileStream where
  requestId : String
  nodeId : String
  queue : List FileMessage
  deriving Repr, DecidableEq

structure CodexThreadEvent where
  subscriptionId : String
  nodeId : String
  sessionId : String
  targetPersonaId : String
  targetThreadId : String
  threadId : String
  method : String
  params : Fields

inductive ControlMessage where
  | runEvent (event : ExecutorEvent)
  | interactionState
  | nodeStatus
  | reply (kind : RequestKind) (requestId : String) (payload : Value)
  | workspaceFile (requestId : String) (message : FileMessage)
  | codexThreadEvent (event : CodexThreadEvent)
  | codexTurnEvent (event : CodexTurnEvent)

structure SelectedCodexThreadSubscription where
  subscriptionId : String
  personaId : String
  publicThreadId : String
  nodeId : String
  codexThreadId : String
  deriving Repr, DecidableEq

/-- A session, as far as messages of nodes reach it. `threadEvents` are the events that
passed for the subscription of a persona, with the persona. -/
structure Session where
  bro : BroSession
  turns : TurnBoard
  subscriptions : Table SelectedCodexThreadSubscription.personaId
  threadEvents : List (String × CodexThreadEvent)

def Session.sessionId (session : Session) : String := session.bro.sessionId

structure Server where
  manager : NodeManager
  requests : Table PendingRequest.key
  fileStreams : Table FileStream.requestId
  /-- The events put in the queues of the runs. -/
  runEvents : List ExecutorEvent
  sessions : Table Session.sessionId

structure Ack where
  ok : Bool
  detail : String
  deriving Repr, DecidableEq

/-- What is given from outside to the handling of one message: `str.lower`, the ids that it
makes, and the exception, if any, that the session raises past what is followed here. -/
structure Handling where
  lower : String → String
  newTaskId : String
  interactionId : String
  fault : Option String

namespace Server

/-! ## The manager -/

variable (server : Server)

/-- A future is set once, and its entry popped with it. -/
def publishReply (kind : RequestKind) (requestId : String) (payload : Value) :
    Server × Ack :=
  match (server.requests.get? (kind, requestId)).filter (·.reply.isNone) with
  | none => (server, ⟨false, "unknown_request"⟩)
  | some request =>
    let answered := { request with reply := some payload }
    ({ server with requests := server.requests.put answered }, ⟨true, "queued"⟩)

def publishWorkspaceFile (requestId : String) (message : FileMessage) :
    Server × Ack :=
  match server.fileStreams.get? requestId with
  | none => (server, ⟨false, "unknown_request"⟩)
  | some stream =>
    let fed := { stream with queue := stream.queue ++ [message] }
    ({ server with fileStreams := server.fileStreams.put fed }, ⟨true, "ok"⟩)

variable (websocket : String)

def publishRunEvent (event : ExecutorEvent) :
    Server × Ack :=
  match server.manager.judgeRunEvent websocket event.runId with
  | .unknownRun => (server, ⟨false, "unknown_run"⟩)
  | .unauthorizedRun => (server, ⟨false, "unauthorized_run"⟩)
  | .accepted => ({ server with runEvents := server.runEvents ++ [event] }, ⟨true, "queued"⟩)

/-- `publish_codex_thread_event` and `publish_codex_turn_event` -/
def publishNodeEvent (nodeId : String) : Ack :=
  if server.manager.nodeIdForWebsocket websocket ≠ some nodeId then ⟨false, "unauthorized_node"⟩
  else ⟨true, "queued"⟩

/-! ## The sessions -/

variable (session : Session)

def putSession : Server :=
  { server with sessions := server.sessions.put session }

def findSessionByRun (runId : String) : Option Session :=
  server.sessions.entries.find? fun session => (session.bro.board.getRun runId).isSome

def findSessionByOutboundTurnRequest (requestId : String) : Option Session :=
  server.sessions.entries.find? fun session => (session.turns.requests.get? requestId).isSome

/-- The event is for the subscription that the session has now. -/
def isFor (event : CodexThreadEvent) (current : SelectedCodexThreadSubscription) : Bool :=
  current.subscriptionId = event.subscriptionId && current.publicThreadId = event.targetThreadId &&
    current.codexThreadId = event.threadId && current.nodeId = event.nodeId

/-- `handle_codex_thread_event`, up to what is made of an event that passes. -/
def handleCodexThreadEvent (event : CodexThreadEvent) : Session :=
  match (session.subscriptions.get? event.targetPersonaId).filter (isFor event) with
  | none => session
  | some current =>
    { session with threadEvents := session.threadEvents ++ [(current.personaId, event)] }

/-- The session's part in a run event. -/
def handleTranscript (handling : Handling) (session : Session) (event : ExecutorEvent) :
    Session × Except String Unit :=
  let handled := session.bro.handleAudioTranscriptEvent handling.newTaskId event.runId
    event.metadata
  ({ session with bro := handled.1 }, handled.2)

/-- The session's part in a turn event. -/
def handleTurn (handling : Handling) (session : Session) (event : CodexTurnEvent) : Session :=
  let handled := handleCodexTurnEvent handling.lower session.bro.board session.turns
    handling.interactionId event
  { session with bro := { session.bro with board := handled.1 }, turns := handled.2 }

/-! ## One message -/

/-- The acknowledgement, unless the session has raised. -/
def acknowledge (handling : Handling) (ack : Ack) : Except String Ack :=
  match handling.fault with
  | some fault => .error fault
  | none => .ok ack

/-- `_handle_control_message`; what the session raises is not caught. -/
def handleControlMessage (handling : Handling) (websocket : String) :
    ControlMessage → Server × Except String Ack
  | .runEvent event =>
    let published := server.publishRunEvent websocket event
    if published.2.ok then
      match published.1.findSessionByRun event.runId with
      | none => (published.1, .ok published.2)
      | some session =>
        let handled := handleTranscript handling session event
        (published.1.putSession handled.1,
          handled.2.bind fun _ => acknowledge handling published.2)
    else (published.1, .ok published.2)
  | .interactionState => (server, .ok ⟨true, "ignored"⟩)
  | .nodeStatus => (server, .ok ⟨true, "ok"⟩)
  | .reply kind requestId payload =>
    let published := server.publishReply kind requestId payload
    (published.1, .ok published.2)
  | .workspaceFile requestId message =>
    let published := server.publishWorkspaceFile requestId message
    (published.1, .ok published.2)
  | .codexThreadEvent event =>
    let ack := server.publishNodeEvent websocket event.nodeId
    if ack.ok then
      match server.sessions.get? event.sessionId with
      | none => (server, .ok ⟨false, "unknown_session"⟩)
      | some session =>
        (server.putSession (handleCodexThreadEvent session event), acknowledge handling ack)
    else (server, .ok ack)
  | .codexTurnEvent event =>
    let ack := server.publishNodeEvent websocket event.nodeId
    if ack.ok then
      match server.findSessionByOutboundTurnRequest event.requestId with
      | none => (server, .ok ⟨false, "unknown_request"⟩)
      | some session =>
        (server.putSession (handleTurn handling session event), acknowledge handling ack)
    else (server, .ok ack)

/-- `_handle_node_disconnected`: the runs of the node are parked and forgotten. -/
def handleNodeDisconnected (nodeId reason : String) : Server :=
  let gone := server.manager.runStates.entries.filter fun state => state.nodeId = some nodeId
  { server with
    manager := gone.foldl (fun manager state => manager.finishRun state.runId) server.manager
    runEvents := server.runEvents ++
      gone.map fun state => lostEvent state nodeId reason }

def disconnect (reason : String) : Server :=
  match server.manager.popConnection websocket with
  | none => server
  | some (nodeId, manager) => { server with manager }.handleNodeDisconnected nodeId reason

/-- One turn of the loop of `executor_control`: an exception leaves the loop, and the
`finally` of the endpoint disconnects the websocket. -/
def receive (handling : Handling) (websocket : String)
    (message : ControlMessage) : Server :=
  match server.handleControlMessage handling websocket message with
  | (server, .ok _) => server
  | (server, .error _) => server.disconnect websocket "connection_closed"

end Server

end Newbro.ControlMessages
