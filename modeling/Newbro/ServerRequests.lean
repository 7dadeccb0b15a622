import Newbro.DeadAppServer

/-!
# Requests of the app-server

A question or an approval that the app-server sends in the middle of a turn passes the read
loop, the dispatcher, the backlog of a turn that is not registered yet and the queue of its
stream, which asks it with a BLOCKED event. A response is written only for a request that was
asked. Each stage drops what it does not know. `sent` and `asked` are history.
-/
namespace Newbro.AppServer

open Library Protocol
open CodexTurn (Notification Reaction StreamState isBlockedRequest react)

/-- The methods that the loop of `_stream_turn_events` takes for its own. -/
def ownMethods : List String :=
  ["turn/completed", "error", "turn/plan/updated", "item/plan/delta", "item/agentMessage/delta",
    "item/started", "item/completed", "thread/status/changed"]

/-- A message with an id and a method: its other members, the text of its question and what
the stream finds in it if the method is one of its own. -/
structure ServerRequest where
  id : RequestId
  method : String
  members : Fields
  question : String
  own : Notification
  own_ne : ∀ method message, own ≠ .request method message

namespace ServerRequest

variable (r : ServerRequest)

/-- What `_read_loop` takes for a response. -/
def isResponse : Bool :=
  (r.members.lookup "result").isSome || (r.members.lookup "error").isSome

def params? : Option Fields := r.members.dict? "params"

def notification : Notification :=
  match r.params? with
  | none => .otherItem
  | some _ => if ownMethods.contains r.method then r.own else .request r.method r.question

def event : AppEvent :=
  { params := r.params?.getD []
    notification := r.notification
    requestId := some r.id }

def line : OutputLine := if r.isResponse then .ignored else .event r.event

end ServerRequest

/-- A request about a turn. -/
structure TurnRequest where
  turnId : String
  id : RequestId
  deriving DecidableEq

structure RequestState where
  app : State
  sent : List TurnRequest
  asked : List TurnRequest

inductive RequestLabel where
  | send (peerId turnId : String) (request : ServerRequest)
  | app (label : Label)

def TurnStream.isOpen (turn : TurnStream) : Bool :=
  turn.phase = .reading || turn.phase = .waitingAnswer

namespace RequestState

variable (s : RequestState)

/-- The turn is one of the app-server's: its stream is registered, or it is not there yet. -/
def hasTurn (peerId turnId : String) : Bool :=
  s.app.turns.entries.all fun turn =>
    turn.turnId ≠ turnId || (turn.peerId = peerId && turn.phase ≠ .ended &&
      s.app.turnEventQueues.lookup turn.turnId = some turn.streamId)

/-- The app-server sends a request about a turn, under an id that it has not used for it. -/
def send (peerId turnId : String) (r : ServerRequest) :
    Option RequestState :=
  if !s.hasTurn peerId turnId || s.sent.contains ⟨turnId, r.id⟩ then none
  else
    (s.app.output peerId r.line).map fun app =>
      { s with app := app, sent := s.sent ++ [⟨turnId, r.id⟩] }

/-- The request that a stream asks with the event that it reads next. -/
def askedBy (s : State) (streamId : String) : Option TurnRequest :=
  (s.turns.get? streamId).bind fun turn =>
    match turn.phase, turn.queue with
    | .reading, event :: _ =>
      match (react turn.stream turn.planMode turn.turnId turn.completedMessage
          event.notification).2 with
      | .ask _ => event.requestId.map fun id => ⟨turn.turnId, id⟩
      | _ => none
    | _, _ => none

/-- A step of the executor. The lines that are no requests have no id. -/
def appStep (label : Label) : Option RequestState :=
  match label with
  | .output _ (.event event) =>
    if event.requestId.isSome then none
    else (s.app.step label).map fun app => { s with app := app }
  | .read streamId =>
    (s.app.step label).map fun app =>
      { s with app := app, asked := s.asked ++ (askedBy s.app streamId).toList }
  | _ => (s.app.step label).map fun app => { s with app := app }

def step : RequestLabel → Option RequestState
  | .send peerId turnId r => s.send peerId turnId r
  | .app label => s.appStep label

end RequestState

def noRequests : RequestState := ⟨emptyState, [], []⟩

def requestSystem : System RequestState RequestLabel where
  initial s := s = noRequests
  step := RequestState.step

/-! ## The property -/

/-- When no step is pending, each request about a turn that has a stream has been asked. -/
def NoneSwallowed (s : RequestState) : Prop :=
  Quiet s.app → ∀ request ∈ s.sent,
    (∃ turn ∈ s.app.turns.entries, turn.turnId = request.turnId) → request ∈ s.asked

/-! ## The condition -/

/-- No stage drops the request: it is no response, it has params with the id of its turn, and
its method is one that the stream asks for. -/
def ServerRequest.isKnown (r : ServerRequest) (turnId : String) : Bool :=
  !r.isResponse && (r.params?.any fun params => eventTurnId params = some turnId) &&
    !ownMethods.contains r.method && isBlockedRequest r.method

namespace RequestState

variable (s : RequestState)

/-- The event is a request that is still to be asked. -/
def isAwaited (event : AppEvent) : Bool :=
  s.sent.any fun request => event.requestId = some request.id &&
    event.turnId = some request.turnId && !s.asked.contains request

/-- Every request about the turn has been asked. -/
def allAsked (turnId : String) : Bool :=
  s.sent.all fun request => request.turnId ≠ turnId || s.asked.contains request

/-- The event that the dispatcher takes pushes no request out of the backlog. -/
def backlogHolds : Bool :=
  (s.app.eventTask.bind s.app.peers.get?).all fun peer =>
    (peer.events.head?).all fun event =>
      event.turnId.all fun turnId =>
        (s.app.turnEventQueues.lookup turnId).isSome ||
          (let backlog := (s.app.turnEventBacklog.lookup turnId).getD [] ++ [event]
          (backlog.take (backlog.length - CodexTurn.backlogLimit)).all (!s.isAwaited ·))

/-- The event that the stream reads next ends it, or makes it ask for the final message. -/
def endsTurn (turn : TurnStream) : Bool :=
  match turn.phase, turn.queue with
  | .reading, event :: _ =>
    match (react turn.stream turn.planMode turn.turnId turn.completedMessage
        event.notification).2 with
    | .finish _ | .propose _ | .readFinalMessage => true
    | _ => false
  | _, _ => false

/-- A request is known to every stage, the dispatcher runs and the stream goes on when it is
sent; the backlog pushes out none; a stream ends only when all requests about its turn have
been asked; and the executor closes an app-server only when none is with the dispatcher or in
the backlog. -/
def letsNoneDrop : RequestLabel → Bool
  | .send peerId turnId r =>
    r.isKnown turnId && s.app.eventTask = some peerId &&
      s.app.turns.entries.all fun turn => turn.turnId ≠ turnId || turn.isOpen
  | .app .dispatch => s.backlogHolds
  | .app .createSession =>
    !s.app.closesAppSession ||
      (s.app.eventTask.bind s.app.peers.get?).all fun peer => peer.events.all (!s.isAwaited ·)
  | .app .closed => s.app.turnEventBacklog.entries.all fun entry => entry.2.all (!s.isAwaited ·)
  | .app (.read streamId) =>
    (s.app.turns.get? streamId).all fun turn => !endsTurn turn || s.allAsked turn.turnId
  | .app (.answer streamId answer) =>
    answer = .resolved || (s.app.turns.get? streamId).all fun turn => s.allAsked turn.turnId
  | .app (.cancelTurn streamId) =>
    (s.app.turns.get? streamId).all fun turn => s.allAsked turn.turnId
  | _ => true

end RequestState

end Newbro.AppServer
