import Newbro.CodexTurn

/-!
# The Codex app-server and its readers

`JsonRpcPeer`, the event dispatcher of `CodexExecutor` and the consumers of its queues: the
read loop puts the notifications of an app-server into the queue of its peer, the dispatcher
takes them from there to the queues of turns and of thread subscriptions, and a stream of
turn events or a subscription reads its own queue. A queue object is kept with its reader;
the tables of the executor say which queue an event goes to. A label is one stretch of a
coroutine, or a line of an app-server.
-/
namespace Newbro.AppServer

open Library Protocol
open CodexTurn (CodexEvent Notification Reaction StreamState react)

/-- The id of a JSON-RPC request. -/
inductive RequestId where
  | int (i : Int)
  | str (s : String)
  deriving Repr, DecidableEq

/-- A notification or request of an app-server: its parameters, what the streams find in it,
and the id of a request. -/
structure AppEvent where
  params : Fields
  notification : Notification
  requestId : Option RequestId := none

/-! ## Where an event goes -/

/-- `isinstance(value, str) and value` -/
def nonemptyStr (value : Option Value) : Option String :=
  (value.bind Value.str?).filter (· ≠ "")

def eventTurnId (params : Fields) : Option String :=
  let turn := (params.dict? "turn").bind fun turn =>
    nonemptyStr (Value.orGet (turn.lookup "id") (turn.lookup "turnId"))
  let item := (params.dict? "item").bind fun item => nonemptyStr (item.lookup "turnId")
  (nonemptyStr (params.lookup "turnId")).or (turn.or item)

def eventThreadId (params : Fields) : Option String :=
  let thread := (params.dict? "thread").bind fun thread =>
    nonemptyStr (Value.orGet (thread.lookup "id") (thread.lookup "threadId"))
  let turn := (params.dict? "turn").bind fun turn => nonemptyStr (turn.lookup "threadId")
  let item := (params.dict? "item").bind fun item => nonemptyStr (item.lookup "threadId")
  (nonemptyStr (params.lookup "threadId")).or (thread.or (turn.or item))

def AppEvent.turnId (event : AppEvent) : Option String := eventTurnId event.params

def AppEvent.threadId (event : AppEvent) : Option String := eventThreadId event.params

/-! ## State -/

/-- A line of an app-server: `json.loads` raises on a malformed one. Responses are not lines
here but steps of the streams that wait for them. -/
inductive OutputLine where
  | event (event : AppEvent)
  | ignored
  | malformed
  | endOfStream

def OutputLine.ends : OutputLine → Bool
  | malformed | endOfStream => true
  | _ => false

/-- `JsonRpcPeer`, with the process behind it. -/
structure Peer where
  peerId : String
  events : List AppEvent := []
  readerDone : Bool := false
  exited : Bool := false

/-- Where a `_stream_turn_events` waits. A request for the final message fails when the read
loop ends; one that is made afterwards is never answered. -/
inductive TurnPhase where
  | reading
  | waitingAnswer
  | readingFinal
  | finalFailed
  | ended
  deriving Repr, DecidableEq

/-- A `_stream_turn_events` with its queue, and the peer of its session. -/
structure TurnStream where
  streamId : String
  peerId : String
  turnId : String
  planMode : Bool
  completedMessage : String
  stream : StreamState := .empty
  queue : List AppEvent := []
  phase : TurnPhase := .reading
  yielded : List CodexEvent := []

/-- The consumer of `next_thread_event`, with its queue. -/
structure ThreadStream where
  sessionId : String
  peerId : String
  threadId : String
  queue : List AppEvent := []
  ended : Bool := false

/-- How far `_ensure_app_session` has come while it holds the lock. -/
inductive Restart where
  | idle
  | closing (peerId : String)
  | starting
  deriving Repr, DecidableEq

structure State where
  peers : Table Peer.peerId
  /-- The app session, by its peer. -/
  appSession : Option String
  /-- The peer that the dispatcher reads. -/
  eventTask : Option String
  restart : Restart
  turnEventQueues : Dict String String
  turnEventBacklog : Dict String (List AppEvent)
  /-- The sessions in `_thread_subscription_queues`. -/
  threadSubscriptions : List String
  turns : Table TurnStream.streamId
  subscriptions : Table ThreadStream.sessionId

inductive Answer where
  | resolved
  | aborted
  | timedOut
  deriving Repr, DecidableEq

inductive Label where
  | output (peerId : String) (line : OutputLine)
  | exit (peerId : String)
  | dispatch
  | createSession
  | closed
  | started (peerId : String)
  | startFails
  | register (turn : TurnStream)
  | read (streamId : String)
  | answer (streamId : String) (answer : Answer)
  | finalMessage (streamId : String) (text : Option String)
  | finalMessageFails (streamId : String)
  | cancelTurn (streamId : String)
  | subscribe (subscription : ThreadStream)
  | nextThreadEvent (sessionId : String)
  | unsubscribe (sessionId : String)

/-! ## The read loop and the dispatcher -/

/-- The end of a read loop fails the requests that are pending. -/
def TurnStream.failRequest (turn : TurnStream) (peerId : String) : TurnStream :=
  if turn.peerId = peerId ∧ turn.phase = .readingFinal then { turn with phase := .finalFailed }
  else turn

theorem TurnStream.failRequest_streamId (turn : TurnStream) (peerId : String) :
    (turn.failRequest peerId).streamId = turn.streamId := by
  unfold failRequest
  split <;> rfl

/-- An event joins the queue of the stream. -/
def TurnStream.push (turn : TurnStream) (event : AppEvent) : TurnStream :=
  { turn with queue := turn.queue ++ [event] }

def ThreadStream.push (subscription : ThreadStream) (event : AppEvent) : ThreadStream :=
  { subscription with queue := subscription.queue ++ [event] }

namespace State

variable (s : State) (peerId : String)

def peerDone : Bool :=
  (s.peers.get? peerId).any Peer.readerDone

/-- The `finally` of `_read_loop`. -/
def stopReader (peer : Peer) : State :=
  { s with
    peers := s.peers.put { peer with readerDone := true }
    turns := s.turns.mapValues (TurnStream.failRequest · peer.peerId) fun turn =>
      turn.failRequest_streamId peer.peerId }

/-- The read loop of a peer ends, unless it has ended already. -/
def endReader : State :=
  match (s.peers.get? peerId).filter (!·.readerDone) with
  | none => s
  | some peer => s.stopReader peer

/-- One line of `_read_loop`. -/
def output (line : OutputLine) : Option State :=
  ((s.peers.get? peerId).filter (!·.readerDone)).map fun peer =>
    match line with
    | .event event => { s with peers := s.peers.put { peer with events := peer.events ++ [event] } }
    | .ignored => s
    | .malformed => s.stopReader peer
    | .endOfStream => s.stopReader peer

def exit : Option State :=
  (s.peers.get? peerId).map fun peer => { s with peers := s.peers.put { peer with exited := true } }

variable (event : AppEvent)

/-- The part of `_route_app_event` for the turn: its queue, or the backlog of the last hundred
events while it has none. -/
def routeToTurn (turnId : String) : State :=
  match s.turnEventQueues.lookup turnId with
  | some streamId =>
    match s.turns.get? streamId with
    | none => s
    | some turn => { s with turns := s.turns.put (turn.push event) }
  | none =>
    let backlog := (s.turnEventBacklog.lookup turnId).getD [] ++ [event]
    let kept := backlog.drop (backlog.length - CodexTurn.backlogLimit)
    { s with turnEventBacklog := s.turnEventBacklog.set turnId kept }

/-- The queue of a subscription gets the events of its thread as long as it is in the table. -/
def pushIfSubscribed (subscribed : List String) (event : AppEvent) (threadId : String)
    (subscription : ThreadStream) : ThreadStream :=
  if subscription.sessionId ∈ subscribed ∧ subscription.threadId = threadId then
    subscription.push event
  else subscription

theorem pushIfSubscribed_sessionId (subscribed : List String) (event : AppEvent)
    (threadId : String) (subscription : ThreadStream) :
    (pushIfSubscribed subscribed event threadId subscription).sessionId =
      subscription.sessionId := by
  unfold pushIfSubscribed
  split <;> rfl

def routeToThread (threadId : String) : State :=
  { s with
    subscriptions := s.subscriptions.mapValues
      (pushIfSubscribed s.threadSubscriptions event threadId)
      (pushIfSubscribed_sessionId s.threadSubscriptions event threadId) }

def routeAppEvent : State :=
  let s := (event.turnId.map (s.routeToTurn event)).getD s
  (event.threadId.map (s.routeToThread event)).getD s

/-- The dispatcher takes the next event of its peer; it is not told that there is none to
come. -/
def dispatch : Option State :=
  (s.eventTask.bind s.peers.get?).bind fun peer =>
    match peer.events with
    | [] => none
    | event :: events =>
      some ({ s with peers := s.peers.put { peer with events := events } }.routeAppEvent event)

/-! ## The app session -/

/-- `_ensure_app_session`, up to where it waits for an old app-server to be closed or for a
new one to start. -/
def createSession : Option State :=
  match s.restart, s.appSession with
  | .idle, none => some { s with restart := .starting }
  | .idle, some peerId =>
    if (s.peers.get? peerId).any fun peer => !peer.exited then
      some { s with eventTask := s.eventTask.or (some peerId) }
    else some { s with eventTask := none, restart := .closing peerId }
  | _, _ => none

/-- The rest of `_close_app_session`. -/
def closed : Option State :=
  match s.restart with
  | .closing peerId =>
    some { s.endReader peerId with
      appSession := none
      restart := .starting
      turnEventQueues := Table.empty
      turnEventBacklog := Table.empty
      threadSubscriptions := [] }
  | _ => none

def started : Option State :=
  if s.restart ≠ .starting ∨ s.peers.contains peerId then none
  else
    some { s with
      peers := s.peers.put { peerId := peerId }
      appSession := some peerId
      eventTask := s.eventTask.or (some peerId)
      restart := .idle }

def startFails : Option State :=
  if s.restart = .starting then some { s with restart := .idle } else none

/-! ## Turns -/

variable (turn : TurnStream)

/-- A stream at its start, with the events that came before it. -/
def opened (backlog : List AppEvent) : TurnStream :=
  { turn with stream := .empty, queue := backlog, phase := .reading, yielded := [] }

/-- `_register_turn_queue`, for a turn whose start the peer has answered. App-servers give
every turn an id of its own. -/
def register : Option State :=
  if s.turns.contains turn.streamId || !s.peers.contains turn.peerId ||
      s.turns.entries.any (·.turnId = turn.turnId) then none
  else
    let backlog := (s.turnEventBacklog.lookup turn.turnId).getD []
    some { s with
      turns := s.turns.put (opened turn backlog)
      turnEventQueues := s.turnEventQueues.set turn.turnId turn.streamId
      turnEventBacklog := s.turnEventBacklog.erase turn.turnId }

/-- The stream returns, and `_unregister_turn_queue` forgets its queue. -/
def endTurn : State :=
  let queues :=
    if s.turnEventQueues.lookup turn.turnId = some turn.streamId then
      s.turnEventQueues.erase turn.turnId
    else s.turnEventQueues
  { s with turns := s.turns.put { turn with phase := .ended }, turnEventQueues := queues }

def tell (event : CodexEvent) : TurnStream :=
  { turn with yielded := turn.yielded ++ [event] }

/-- What the loop of `_stream_turn_events` does with an event of its queue. -/
def readEvent (event : AppEvent) (queue : List AppEvent) :
    State :=
  let reaction :=
    react turn.stream turn.planMode turn.turnId turn.completedMessage event.notification
  let turn := { turn with stream := reaction.1, queue := queue }
  match reaction.2 with
  | .skip => { s with turns := s.turns.put turn }
  | .tell event => { s with turns := s.turns.put (tell turn event) }
  | .propose event =>
    s.endTurn (tell (tell turn event)
      ⟨.blocked, some "Review the proposed plan before execution."⟩)
  | .ask event => { s with turns := s.turns.put { tell turn event with phase := .waitingAnswer } }
  | .finish event => s.endTurn (tell turn event)
  | .readFinalMessage => { s with turns := s.turns.put { turn with phase := .readingFinal } }

variable (streamId : String)

def read : Option State :=
  (s.turns.get? streamId).bind fun turn =>
    match turn.phase, turn.queue with
    | .reading, event :: queue => some (s.readEvent turn event queue)
    | _, _ => none

/-- `wait_for_blocked_resolution` returns. -/
def answer (answer : Answer) : Option State :=
  ((s.turns.get? streamId).filter (·.phase = .waitingAnswer)).map fun turn =>
    match answer with
    | .resolved => { s with turns := s.turns.put { turn with phase := .reading } }
    | .aborted => s.endTurn turn
    | .timedOut => s.endTurn (tell turn ⟨.failed, some "Timed out waiting for user input."⟩)

def complete (text : Option String) : State :=
  s.endTurn (tell turn ⟨.completed, some (Text.orElse text turn.completedMessage)⟩)

/-- The app-server answers the request for the final message. -/
def finalMessage (text : Option String) : Option State :=
  ((s.turns.get? streamId).filter fun turn =>
    turn.phase = .readingFinal && !s.peerDone turn.peerId).map fun turn => s.complete turn text

/-- `_read_final_assistant_message` returns nothing when its request fails. -/
def finalMessageFails : Option State :=
  ((s.turns.get? streamId).filter (·.phase = .finalFailed)).map fun turn => s.complete turn none

def cancelTurn : Option State :=
  ((s.turns.get? streamId).filter (·.phase ≠ .ended)).map fun turn => s.endTurn turn

/-! ## Thread subscriptions -/

/-- The end of `subscribe_thread`, with the first `next_thread_event`. -/
def subscribe (subscription : ThreadStream) : Option State :=
  if s.subscriptions.contains subscription.sessionId ||
      !s.peers.contains subscription.peerId then none
  else
    let fresh := { subscription with queue := [], ended := false }
    some { s with
      subscriptions := s.subscriptions.put fresh
      threadSubscriptions := s.threadSubscriptions ++ [subscription.sessionId] }

/-- `next_thread_event` returns, and is called again: it raises when the subscription is in
the table no more. -/
def nextThreadEvent (sessionId : String) : Option State :=
  ((s.subscriptions.get? sessionId).filter (!·.ended)).bind fun subscription =>
    match subscription.queue with
    | [] => none
    | _ :: queue =>
      let ended := decide (sessionId ∉ s.threadSubscriptions)
      let next := { subscription with queue := queue, ended := ended }
      some { s with subscriptions := s.subscriptions.put next }

/-- `unsubscribe_thread`: the node cancels the consumer. -/
def unsubscribe (sessionId : String) : Option State :=
  (s.subscriptions.get? sessionId).map fun subscription =>
    { s with
      subscriptions := s.subscriptions.put { subscription with ended := true }
      threadSubscriptions := s.threadSubscriptions.filter (· ≠ sessionId) }

def step : Label → Option State
  | .output peerId line => s.output peerId line
  | .exit peerId => s.exit peerId
  | .dispatch => s.dispatch
  | .createSession => s.createSession
  | .closed => s.closed
  | .started peerId => s.started peerId
  | .startFails => s.startFails
  | .register turn => s.register turn
  | .read streamId => s.read streamId
  | .answer streamId answer => s.answer streamId answer
  | .finalMessage streamId text => s.finalMessage streamId text
  | .finalMessageFails streamId => s.finalMessageFails streamId
  | .cancelTurn streamId => s.cancelTurn streamId
  | .subscribe subscription => s.subscribe subscription
  | .nextThreadEvent sessionId => s.nextThreadEvent sessionId
  | .unsubscribe sessionId => s.unsubscribe sessionId

end State

def emptyState : State :=
  { peers := Table.empty
    appSession := none
    eventTask := none
    restart := .idle
    turnEventQueues := Table.empty
    turnEventBacklog := Table.empty
    threadSubscriptions := []
    turns := Table.empty
    subscriptions := Table.empty }

def appServerSystem : System State Label where
  initial s := s = emptyState
  step := State.step

end Newbro.AppServer
