import Newbro.Library.Transition
import Newbro.ExecutorNodes
import Newbro.OutboundTurns

/-!
# Starting outbound turns

`DirectTurnStarter.start_turn` with the connections that its commands go over, the endpoint of
each connection and the turns that the nodes work on. A label is one stretch between two
awaits, as for the runs. What a turn reports is left to its node; a node answers for a turn
over the connection that the command came over, and cancels its turns when it loses that
connection. What a disconnect does to runs is not repeated here: it looks at runs only.
`startedOver` and `recorded` are history, and no step reads them.
-/
namespace Newbro.TurnStarts

open Library Protocol ExecutorNodes OutboundTurns

/-- What `start_turn` is called with. -/
structure TurnInstruction where
  personaId : String
  executorNodeId : Option String
  publicThreadId : String
  createNewThread : Bool
  hasResumeHandle : Bool
  clientRequestId : Option String
  inputModality : InputModality
  text : Option String
  audioInstructionId : Option String
  instructionId : Value
  nodeNotReadyLabel : String
  requestedAt : String

/-- `StartCodexTurnCommand` -/
structure TurnCommand where
  requestId : String
  targetPersonaId : String
  targetThreadId : String

/-- What the endpoint of a connection is at with a `codex_turn_event`, and its end. -/
inductive EndpointPhase where
  | receiving
  | checking (event : CodexTurnEvent)
  | handling (event : CodexTurnEvent)
  | cleaning
  | closed

/-- A connection: the commands under way to its node, the turns that the node works on for
them, the events under way to the endpoint and the endpoint. -/
structure Link where
  websocket : String
  nodeId : String
  commands : List TurnCommand
  turns : List TurnCommand
  inbox : List CodexTurnEvent
  phase : EndpointPhase

inductive StartStage where
  | connecting
  | sending (websocket : String)
  | dropping
  deriving DecidableEq

/-- A `start_turn` under way, with the request that it has put on the board. -/
structure TurnStart where
  request : OutboundTurnRequest
  message : String
  stage : StartStage

def TurnStart.requestId (start : TurnStart) : String := start.request.requestId

/-- What the events of a turn have recorded so far, and whether one of them was its
completion with an answer. -/
structure Recorded where
  executorThreadId : Option String
  executorTurnId : Option String
  status : OutboundStatus
  answered : Bool
  deriving DecidableEq

structure TurnState where
  board : Blackboard
  turns : TurnBoard
  manager : NodeManager
  links : Table Link.websocket
  starts : Table TurnStart.requestId
  startedOver : Dict String String
  recorded : Dict String Recorded

inductive Label where
  | startTurn (requestId : String) (instruction : TurnInstruction)
  | readConnection (requestId : String)
  | sent (requestId : String)
  | sendFails (requestId : String)
  | dropped (requestId : String)
  | register (connection : NodeConnection)
  | receive (websocket : String)
  | publish (websocket : String)
  | handle (websocket interactionId : String)
  | otherSendFails (websocket : String)
  | endpointEnds (websocket : String)
  | cleanedUp (websocket : String)
  | nodeReads (websocket : String)
  | nodeReports (websocket requestId : String) (report : CodexTurnEvent)
  | nodeEnds (websocket requestId : String)
  | nodeLoses (websocket : String)

/-! ## `start_turn` -/

variable (requestId : String)

def newRequest (nodeId : String) (i : TurnInstruction) : OutboundTurnRequest :=
  { requestId := requestId
    personaId := i.personaId
    executorId := "codex"
    executorNodeId := nodeId
    targetThreadId := some i.publicThreadId
    clientRequestId := i.clientRequestId
    inputModality := i.inputModality
    text := i.text
    audioInstructionId := i.audioInstructionId
    instructionId := i.instructionId
    status := .pending
    error := none
    executorThreadId := none
    executorTurnId := none
    createdAt := some i.requestedAt }

def notReadyMessage (i : TurnInstruction) : String :=
  "Selected Bro's Codex executor node is not ready for " ++ i.nodeNotReadyLabel ++ "."

variable (s : TurnState)

def TurnState.putRequest (request : OutboundTurnRequest) : TurnState :=
  { s with turns := { s.turns with requests := s.turns.requests.put request } }

/-- Up to the connection table. A thread without a resume handle is refused, and so is a
persona without a node, which the request cannot name. -/
def startTurn (requestId : String) (i : TurnInstruction) : Option TurnState :=
  match i.executorNodeId with
  | none => none
  | some nodeId =>
    if (s.turns.requests.contains requestId || s.starts.contains requestId) ||
        (!i.createNewThread && !i.hasResumeHandle) then none
    else
      let request := newRequest requestId nodeId i
      some { s.putRequest request with
        starts := s.starts.put ⟨request, notReadyMessage i, .connecting⟩ }

/-- The last write of `start_turn`: the request that it began with, under another status. -/
def finishStart (start : TurnStart) (status : OutboundStatus)
    (error : Option String) : TurnState :=
  { s.putRequest { start.request with status := status, error := error } with
    starts := s.starts.erase start.requestId }

def failStart (start : TurnStart) : TurnState :=
  finishStart s start .failed (some start.message)

def commandOf (request : OutboundTurnRequest) : TurnCommand :=
  ⟨request.requestId, request.personaId, request.targetThreadId.getD ""⟩

def TurnState.putLink (link : Link) : TurnState :=
  { s with links := s.links.put link }

/-- `start_codex_turn` up to the end of the send: the command is under way to the node. -/
def readConnection (requestId : String) : Option TurnState :=
  match s.starts.get? requestId with
  | none => none
  | some start =>
    match start.stage with
    | .connecting =>
      match (s.manager.connectionsByNode.get? start.request.executorNodeId).filter fun c =>
          "codex" ∈ c.executors with
      | none => some (failStart s start)
      | some c =>
        match s.links.get? c.websocket with
        | none => none
        | some link =>
          some { s.putLink { link with
              commands := link.commands ++ [commandOf start.request] } with
            starts := s.starts.put { start with stage := .sending c.websocket }
            startedOver := s.startedOver.set requestId c.websocket }
    | _ => none

def sent (requestId : String) : Option TurnState :=
  match s.starts.get? requestId with
  | none => none
  | some start =>
    match start.stage with
    | .sending _ => some (finishStart s start .accepted start.request.error)
    | _ => none

variable (websocket : String)

/-- `disconnect`, up to the runs of the node. -/
def dropConnection : TurnState :=
  match s.manager.popConnection websocket with
  | none => s
  | some (_, manager) => { s with manager := manager }

def sendFails (requestId : String) : Option TurnState :=
  match s.starts.get? requestId with
  | none => none
  | some start =>
    match start.stage with
    | .sending websocket =>
      some { dropConnection s websocket with
        starts := s.starts.put { start with stage := .dropping } }
    | _ => none

def dropped (requestId : String) : Option TurnState :=
  match s.starts.get? requestId with
  | none => none
  | some start =>
    match start.stage with
    | .dropping => some (failStart s start)
    | _ => none

/-! ## The endpoint of a connection -/

def register (c : NodeConnection) : Option TurnState :=
  if s.links.contains c.websocket then none
  else
    (s.manager.registerConnection c).map fun manager =>
      { s with
        manager := manager
        links := s.links.put ⟨c.websocket, c.nodeId, [], [], [], .receiving⟩ }

def receive : Option TurnState :=
  match s.links.get? websocket with
  | none => none
  | some link =>
    match link.phase, link.inbox with
    | .receiving, event :: inbox =>
      some (s.putLink { link with phase := .checking event, inbox := inbox })
    | _, _ => none

/-- `publish_codex_turn_event`: the connection is still that of the node. -/
def publish : Option TurnState :=
  match s.links.get? websocket with
  | none => none
  | some link =>
    match link.phase with
    | .checking event =>
      if s.manager.nodeIdForWebsocket websocket = some event.nodeId then
        some (s.putLink { link with phase := .handling event })
      else some (s.putLink { link with phase := .receiving })
    | _ => none

variable (event : CodexTurnEvent)

/-- The request that an event is for. -/
def requestOf : Option OutboundTurnRequest :=
  (s.turns.requests.get? event.requestId).filter fun request => answersRequest request event

variable (lower : String → String)

/-- A completion that carries an answer text. -/
def isAnswer (event : CodexTurnEvent) : Bool :=
  outboundStatusOf lower event = .completed && (Text.stripped? event.message).isSome

def recordEvent (old : Option Recorded) (event : CodexTurnEvent) :
    Recorded :=
  { executorThreadId := orText event.executorThreadId (old.bind Recorded.executorThreadId)
    executorTurnId := orText event.executorTurnId (old.bind Recorded.executorTurnId)
    status := outboundStatusOf lower event
    answered := old.any Recorded.answered || isAnswer lower event }

def TurnState.record (s : TurnState) (event : CodexTurnEvent) :
    TurnState :=
  { s with
    recorded :=
      match requestOf s event with
      | none => s.recorded
      | some request =>
        s.recorded.set request.requestId
          (recordEvent lower (s.recorded.lookup request.requestId) event) }

def handle (s : TurnState) (websocket interactionId : String) :
    Option TurnState :=
  match s.links.get? websocket with
  | none => none
  | some link =>
    match link.phase with
    | .handling event =>
      let handled := handleCodexTurnEvent lower s.board s.turns interactionId event
      let s := (s.record lower event).putLink { link with phase := .receiving }
      some { s with board := handled.1, turns := handled.2 }
    | _ => none

/-- A send of somebody else over the connection fails. -/
def otherSendFails : Option TurnState :=
  if s.links.contains websocket then some (dropConnection s websocket) else none

/-- The connection ends under the endpoint. -/
def endpointEnds : Option TurnState :=
  match s.links.get? websocket with
  | none => none
  | some link =>
    match link.phase with
    | .receiving => some ((dropConnection s websocket).putLink { link with phase := .cleaning })
    | _ => none

/-- `_handle_node_disconnected` and `handle_executor_node_disconnected`: the runs of the node
wait, and snapshots and bro lists are published. -/
def cleanedUp : Option TurnState :=
  match s.links.get? websocket with
  | none => none
  | some link =>
    match link.phase with
    | .cleaning => some (s.putLink { link with phase := .closed })
    | _ => none

/-! ## The node -/

/-- The command becomes a background command. -/
def nodeReads : Option TurnState :=
  match s.links.get? websocket with
  | none => none
  | some link =>
    match link.commands with
    | [] => none
    | command :: commands =>
      some (s.putLink { link with commands := commands, turns := link.turns ++ [command] })

/-- `_send_codex_turn_event`: what the turn reports, under the names of its command. -/
def turnEvent (nodeId : String) (command : TurnCommand) (report : CodexTurnEvent) :
    CodexTurnEvent :=
  { report with
    requestId := command.requestId
    nodeId := nodeId
    targetPersonaId := command.targetPersonaId
    targetThreadId := command.targetThreadId }

def turnAt (link : Link) (requestId : String) : Option TurnCommand :=
  link.turns.find? fun command => command.requestId = requestId

def nodeReports (requestId : String) (report : CodexTurnEvent) :
    Option TurnState :=
  match s.links.get? websocket with
  | none => none
  | some link =>
    (turnAt link requestId).map fun command =>
      s.putLink { link with inbox := link.inbox ++ [turnEvent link.nodeId command report] }

def nodeEnds (requestId : String) : Option TurnState :=
  match s.links.get? websocket with
  | none => none
  | some link =>
    some (s.putLink { link with
      turns := link.turns.filter fun command => command.requestId ≠ requestId })

/-- The receive loop of the node fails: `_cancel_background_commands`. -/
def nodeLoses : Option TurnState :=
  match s.links.get? websocket with
  | none => none
  | some link => some (s.putLink { link with commands := [], turns := [] })

/-! ## The system -/

def step (s : TurnState) : Label → Option TurnState
  | .startTurn requestId instruction => startTurn s requestId instruction
  | .readConnection requestId => readConnection s requestId
  | .sent requestId => sent s requestId
  | .sendFails requestId => sendFails s requestId
  | .dropped requestId => dropped s requestId
  | .register connection => register s connection
  | .receive websocket => receive s websocket
  | .publish websocket => publish s websocket
  | .handle websocket interactionId => handle lower s websocket interactionId
  | .otherSendFails websocket => otherSendFails s websocket
  | .endpointEnds websocket => endpointEnds s websocket
  | .cleanedUp websocket => cleanedUp s websocket
  | .nodeReads websocket => nodeReads s websocket
  | .nodeReports websocket requestId report => nodeReports s websocket requestId report
  | .nodeEnds websocket requestId => nodeEnds s websocket requestId
  | .nodeLoses websocket => nodeLoses s websocket

/-- No turn and no connection. -/
def initialState : TurnState :=
  { board := Blackboard.empty
    turns := ⟨Table.empty, Table.empty⟩
    manager := ⟨["codex"], Table.empty, Table.empty⟩
    links := Table.empty
    starts := Table.empty
    startedOver := Table.empty
    recorded := Table.empty }

def system : System TurnState Label where
  initial s := s = initialState
  step := step lower

end Newbro.TurnStarts
