import Newbro.Library.Table
import Newbro.Library.Transition

/-!
# Thread subscriptions

The subscriptions of the threads that users look at: the record of each persona in
`BroDetailThreadProjection`, the calls that open and stop them, and the streams of the nodes.
A step is one stretch of a coroutine. A call is there once it holds its persona's lock, with
the thread and the node that it has resolved; the request of a subscribe command goes by the
name of its subscription. Replies and events of a connection arrive in order.
-/
namespace Newbro.ThreadSubscriptions

open Library

/-! ## The server -/

/-- `SelectedCodexThreadSubscription` -/
structure Subscription where
  subscriptionId : String
  personaId : String
  publicThreadId : String
  codexThreadId : String
  nodeId : String
  deriving Repr, DecidableEq

/-- What a call of `subscribe_bro_thread` has resolved. -/
structure Target where
  personaId : String
  publicThreadId : String
  codexThreadId : String
  nodeId : String
  deriving Repr, DecidableEq

/-- `same` in `_subscribe_bro_thread_locked` -/
def Subscription.same (subscription : Subscription) (target : Target) : Bool :=
  subscription.publicThreadId = target.publicThreadId &&
    subscription.codexThreadId = target.codexThreadId && subscription.nodeId = target.nodeId

def Target.subscription (target : Target) (subscriptionId : String) : Subscription :=
  ⟨subscriptionId, target.personaId, target.publicThreadId, target.codexThreadId, target.nodeId⟩

/-- Where `replace_selected_codex_thread_subscription` is suspended. -/
inductive Point where
  | connecting
  | sending (connectionId : String)
  | waiting
  | replied (ok : Bool)
  deriving Repr, DecidableEq

def Point.unsent : Point → Bool
  | .connecting | .sending _ => true
  | _ => false

structure Opening where
  subscription : Subscription
  point : Point
  deriving Repr, DecidableEq

def Opening.personaId (opening : Opening) : String := opening.subscription.personaId

/-- Who awaits `_unsubscribe_selected_codex_thread`. -/
inductive Waiter where
  | nobody
  /-- A call that holds the lock of its persona. -/
  | caller (personaId : String) (shielded : Bool)
  /-- The receive loop of a connection, in `handle_codex_thread_event`. -/
  | receiveLoop (connectionId : String)
  deriving Repr, DecidableEq

inductive StopPoint where
  | asked
  | sending (connectionId : String)
  | waiting
  deriving Repr, DecidableEq

/-- A call of `_unsubscribe_selected_codex_thread`. -/
structure Stop where
  stopId : String
  subscription : Subscription
  waiter : Waiter
  point : StopPoint
  deriving Repr, DecidableEq

/-! ## The nodes -/

inductive Command where
  | subscribe (subscription : Subscription)
  | unsubscribe (subscriptionId : String)
  deriving Repr, DecidableEq

inductive Message where
  | subscribed (subscriptionId : String) (ok : Bool)
  /-- A `thread/closed` event. -/
  | closed (subscription : Subscription)
  deriving Repr, DecidableEq

/-- A control connection: `alive` until the node loses it. -/
structure Link where
  connectionId : String
  nodeId : String
  codex : Bool
  canSubscribe : Bool
  alive : Bool := true
  toNode : List Command := []
  toServer : List Message := []
  deriving Repr, DecidableEq

inductive Stream where
  | resuming
  | streaming
  | broken
  deriving Repr, DecidableEq

/-- `CodexThreadSubscriptionContext` -/
structure Context where
  subscription : Subscription
  connectionId : String
  stream : Stream
  deriving Repr, DecidableEq

def Context.subscriptionId (context : Context) : String := context.subscription.subscriptionId

/-! ## The system -/

/-- What the server has done: recorded a subscription, sent its subscribe command, and called
for its end. -/
inductive Entry where
  | recorded (subscription : Subscription)
  | sent (nodeId connectionId subscriptionId : String)
  | issued (subscriptionId : String)
  deriving Repr, DecidableEq

def Entry.subscriptionId : Entry → String
  | .recorded subscription => subscription.subscriptionId
  | .sent _ _ subscriptionId | .issued subscriptionId => subscriptionId

/-- `records` is `selected_codex_thread_subscriptions`; `journal` has the newest entry first.
`answered` is the subscription that the last step answered `subscribed` for, and `gaveUp` has
the subscriptions whose resume failed or whose stream broke off. -/
structure State where
  records : Table Subscription.personaId
  openings : Table Opening.personaId
  stops : Table Stop.stopId
  connections : Dict String String
  links : Table Link.connectionId
  contexts : Table Context.subscriptionId
  journal : List Entry
  gaveUp : List String
  answered : Option Subscription

def initialState : State :=
  ⟨Table.empty, Table.empty, Table.empty, Table.empty, Table.empty, Table.empty, [], [], none⟩

inductive Label where
  | connect (link : Link)
  | disconnect (nodeId : String)
  | lose (connectionId : String)
  | subscribe (target : Target) (subscriptionId stopId : String)
  | findConnection (personaId stopId : String)
  | send (personaId stopId : String) (ok : Bool)
  | receive (connectionId stopId : String)
  | resume (personaId stopId : String)
  | timeOut (personaId stopId : String)
  | cancel (personaId stopId : String)
  | unsubscribe (personaId stopId : String) (publicThreadId : Option String)
  | stopFinds (stopId : String)
  | stopSends (stopId : String) (ok : Bool)
  | stopEnds (stopId : String)
  | cancelWaiter (stopId : String)
  | handle (connectionId : String)
  | resumed (subscriptionId : String)
  | resumeFails (subscriptionId : String)
  | breaksOff (subscriptionId : String)
  | threadCloses (subscriptionId : String)
  | cancelContext (subscriptionId : String)
  deriving Repr, DecidableEq

namespace State

variable (s : State)

variable (nodeId : String)

def connectionForNode : Option Link :=
  (s.connections.lookup nodeId).bind s.links.get?

variable (link : Link)

def putLink : State := { s with links := s.links.put link }

def putOpening (opening : Opening) : State :=
  { s with openings := s.openings.put opening }

/-! ### Stopping -/

variable (stopId : String)

variable (subscription : Subscription)

/-- `_unsubscribe_selected_codex_thread` is called, or a task for it is created. -/
def issue (waiter : Waiter) : State :=
  { s with
    stops := s.stops.put ⟨stopId, subscription, waiter, .asked⟩
    journal := .issued subscription.subscriptionId :: s.journal }

variable (personaId : String)

/-- The record that `stop_selected_codex_thread_subscription` takes away. -/
def selected (publicThreadId : Option String) :
    Option Subscription :=
  (s.records.get? personaId).filter fun current =>
    publicThreadId.all fun threadId => current.publicThreadId = threadId

def stopSelected (current : Subscription) (waiter : Waiter) : State :=
  { s with records := s.records.erase current.personaId }.issue stopId current waiter

def stopFinds : Option State :=
  ((s.stops.get? stopId).filter (·.point = .asked)).map fun stop =>
    match (s.connectionForNode stop.subscription.nodeId).filter (·.codex) with
    | some link => { s with stops := s.stops.put { stop with point := .sending link.connectionId } }
    | none => { s with stops := s.stops.erase stopId }

def stopSends (ok : Bool) : Option State :=
  (s.stops.get? stopId).bind fun stop =>
    match stop.point with
    | .sending connectionId =>
      if ok = true then
        (s.links.get? connectionId).map fun link =>
          { s with stops := s.stops.put { stop with point := .waiting } }.putLink
            { link with toNode := link.toNode ++ [Command.unsubscribe stop.subscription.subscriptionId] }
      else some { s with stops := s.stops.erase stopId }
    | _ => none

/-- The node answers, or `wait_for` gives up; nobody looks at the answer. -/
def stopEnds : Option State :=
  ((s.stops.get? stopId).filter (·.point = .waiting)).map fun _ =>
    { s with stops := s.stops.erase stopId }

/-- The call that awaits the stop is cancelled, and the stop with it unless it is shielded. -/
def cancelWaiter : Option State :=
  (s.stops.get? stopId).bind fun stop =>
    match stop.waiter with
    | .caller _ true => some { s with stops := s.stops.put { stop with waiter := .nobody } }
    | .caller _ false => some { s with stops := s.stops.erase stopId }
    | _ => none

/-! ### Subscribing -/

def lockFree : Bool :=
  !s.openings.contains personaId && s.stops.entries.all fun stop =>
    match stop.waiter with
    | .caller holder _ => holder ≠ personaId
    | _ => true

/-- `replace_selected_codex_thread_subscription`, up to its first suspension. -/
def replaceSelected : State :=
  { s with
    records := s.records.put subscription
    openings := s.openings.put ⟨subscription, .connecting⟩
    journal := .recorded subscription :: s.journal }

variable (subscriptionId : String)

/-- A new `uuid4`. -/
def fresh : Bool :=
  s.journal.all fun entry => entry.subscriptionId ≠ subscriptionId

/-- `_subscribe_bro_thread_locked` -/
def subscribe (target : Target) (subscriptionId stopId : String) : Option State :=
  if s.lockFree target.personaId = true ∧ s.fresh subscriptionId = true ∧
      s.stops.contains stopId = false then
    match s.records.get? target.personaId with
    | none => some (s.replaceSelected (target.subscription subscriptionId))
    | some current =>
      if current.same target = true then some { s with answered := some current }
      else
        some ((s.stopSelected stopId current .nobody).replaceSelected
          (target.subscription subscriptionId))
  else none

/-- The two `except` clauses; only the one for a cancelled call shields the stop. -/
def abandon (opening : Opening) (stopId : String) (shielded : Bool) : State :=
  { s with
    openings := s.openings.erase opening.personaId
    records :=
      if s.records.get? opening.personaId = some opening.subscription then
        s.records.erase opening.personaId
      else s.records }.issue stopId opening.subscription (.caller opening.personaId shielded)

def opening? (stopId : String) : Option Opening :=
  if s.stops.contains stopId = false then s.openings.get? personaId else none

def findConnection (stopId : String) : Option State :=
  ((s.opening? personaId stopId).filter (·.point = .connecting)).map fun opening =>
    match (s.connectionForNode opening.subscription.nodeId).filter (·.codex) with
    | some link => s.putOpening { opening with point := .sending link.connectionId }
    | none => s.abandon opening stopId false

def send (stopId : String) (ok : Bool) : Option State :=
  (s.opening? personaId stopId).bind fun opening =>
    match opening.point with
    | .sending connectionId =>
      if ok = true then
        (s.links.get? connectionId).map fun link =>
          { s.putOpening { opening with point := .waiting } with
            links := s.links.put
              { link with toNode := link.toNode ++ [Command.subscribe opening.subscription] }
            journal := .sent opening.subscription.nodeId connectionId
              opening.subscription.subscriptionId :: s.journal }
      else some (s.abandon opening stopId false)
    | _ => none

/-- `wait_for` returns: the subscription stands, or `ok` is false and the call fails. -/
def resume (stopId : String) : Option State :=
  (s.opening? personaId stopId).bind fun opening =>
    match opening.point with
    | .replied true =>
      some { s with
        openings := s.openings.erase personaId
        answered := some opening.subscription }
    | .replied false => some (s.abandon opening stopId false)
    | _ => none

/-- The time is up, perhaps just when the reply is there. -/
def timeOut (stopId : String) : Option State :=
  ((s.opening? personaId stopId).filter (·.point.unsent = false)).map fun opening =>
    s.abandon opening stopId false

def cancel (stopId : String) : Option State :=
  (s.opening? personaId stopId).map fun opening => s.abandon opening stopId true

/-- `unsubscribe_bro_thread` -/
def unsubscribe (stopId : String) (publicThreadId : Option String) :
    Option State :=
  if s.lockFree personaId = true ∧ s.stops.contains stopId = false then
    some (match s.selected personaId publicThreadId with
      | none => s
      | some current => s.stopSelected stopId current (.caller personaId false))
  else none

/-! ### Messages of a node -/

/-- `publish_codex_thread_subscribed` -/
def publishSubscribed (ok : Bool) : State :=
  match s.openings.entries.find? fun opening =>
      opening.subscription.subscriptionId = subscriptionId && opening.point = .waiting with
  | none => s
  | some opening => s.putOpening { opening with point := .replied ok }

variable (connectionId : String)

/-- `handle_codex_thread_event` with a `thread/closed` event -/
def handleThreadClosed (stopId : String) (closed : Subscription) :
    State :=
  match s.records.get? closed.personaId with
  | none => s
  | some current =>
    if current.subscriptionId = closed.subscriptionId ∧
        current.publicThreadId = closed.publicThreadId ∧
        current.codexThreadId = closed.codexThreadId ∧ current.nodeId = closed.nodeId then
      s.stopSelected stopId current (.receiveLoop connectionId)
    else s

def handleControlMessage (stopId : String) : Message → State
  | .subscribed subscriptionId ok => s.publishSubscribed subscriptionId ok
  | .closed subscription => s.handleThreadClosed connectionId stopId subscription

/-- The receive loop of a registered connection, unless it is busy with a closed thread. -/
def receive (stopId : String) : Option State :=
  if s.stops.contains stopId = false ∧
      s.stops.entries.all (fun stop => stop.waiter ≠ .receiveLoop connectionId) = true then
    (s.links.get? connectionId).bind fun link =>
      if s.connections.lookup link.nodeId = some connectionId then
        match link.toServer with
        | [] => none
        | message :: rest =>
          some ((s.putLink { link with toServer := rest }).handleControlMessage connectionId stopId
            message)
      else none
  else none

/-! ### Connections -/

def connect : Option State :=
  if s.connections.lookup link.nodeId = none ∧ s.links.contains link.connectionId = false ∧
      link.toNode = [] ∧ link.toServer = [] then
    some { s.putLink link with connections := s.connections.set link.nodeId link.connectionId }
  else none

def disconnect : Option State :=
  if (s.connections.lookup nodeId).isSome then
    some { s with connections := s.connections.erase nodeId }
  else none

def lose : Option State :=
  (s.links.get? connectionId).map fun link => s.putLink { link with alive := false }

def aliveLink : Option Link :=
  (s.links.get? connectionId).filter (·.alive)

/-! ### The service of a node -/

def subscribeCodexThread : State :=
  if link.canSubscribe = true then
    { s with contexts := s.contexts.put ⟨subscription, link.connectionId, .resuming⟩ }.putLink
      { link with toServer := link.toServer ++ [Message.subscribed subscription.subscriptionId true] }
  else
    s.putLink
      { link with toServer := link.toServer ++ [Message.subscribed subscription.subscriptionId false] }

/-- `_handle_message`, with the first stretch of the task that it creates. -/
def handle : Option State :=
  (s.aliveLink connectionId).bind fun link =>
    match link.toNode with
    | [] => none
    | .subscribe subscription :: rest =>
      some (s.subscribeCodexThread { link with toNode := rest } subscription)
    | .unsubscribe subscriptionId :: rest =>
      some ({ s with contexts := s.contexts.erase subscriptionId }.putLink
        { link with toNode := rest })

def setStream (context : Context) (stream : Stream) : State :=
  { s with contexts := s.contexts.put { context with stream := stream } }

def resumed : Option State :=
  ((s.contexts.get? subscriptionId).filter (·.stream = .resuming)).map fun context =>
    s.setStream context .streaming

/-- A failed resume is logged. -/
def resumeFails : Option State :=
  ((s.contexts.get? subscriptionId).filter (·.stream = .resuming)).map fun _ =>
    { s with
      contexts := s.contexts.erase subscriptionId
      gaveUp := subscriptionId :: s.gaveUp }

/-- An exception of `_stream_codex_thread_events` is logged. -/
def breaksOff : Option State :=
  ((s.contexts.get? subscriptionId).filter (·.stream = .streaming)).map fun context =>
    { s.setStream context .broken with gaveUp := subscriptionId :: s.gaveUp }

def threadCloses : Option State :=
  ((s.contexts.get? subscriptionId).filter (·.stream = .streaming)).bind fun context =>
    (s.aliveLink context.connectionId).map fun link =>
      s.putLink { link with toServer := link.toServer ++ [Message.closed context.subscription] }

/-- `_cancel_codex_thread_subscriptions`, one after the other. -/
def cancelContext : Option State :=
  (s.contexts.get? subscriptionId).bind fun context =>
    if (s.aliveLink context.connectionId).isNone then
      some { s with contexts := s.contexts.erase subscriptionId }
    else none

def act : Label → Option State
  | .connect link => s.connect link
  | .disconnect nodeId => s.disconnect nodeId
  | .lose connectionId => s.lose connectionId
  | .subscribe target subscriptionId stopId => s.subscribe target subscriptionId stopId
  | .findConnection personaId stopId => s.findConnection personaId stopId
  | .send personaId stopId ok => s.send personaId stopId ok
  | .receive connectionId stopId => s.receive connectionId stopId
  | .resume personaId stopId => s.resume personaId stopId
  | .timeOut personaId stopId => s.timeOut personaId stopId
  | .cancel personaId stopId => s.cancel personaId stopId
  | .unsubscribe personaId stopId publicThreadId => s.unsubscribe personaId stopId publicThreadId
  | .stopFinds stopId => s.stopFinds stopId
  | .stopSends stopId ok => s.stopSends stopId ok
  | .stopEnds stopId => s.stopEnds stopId
  | .cancelWaiter stopId => s.cancelWaiter stopId
  | .handle connectionId => s.handle connectionId
  | .resumed subscriptionId => s.resumed subscriptionId
  | .resumeFails subscriptionId => s.resumeFails subscriptionId
  | .breaksOff subscriptionId => s.breaksOff subscriptionId
  | .threadCloses subscriptionId => s.threadCloses subscriptionId
  | .cancelContext subscriptionId => s.cancelContext subscriptionId

def step (label : Label) : Option State := { s with answered := none }.act label

/-! ## What the answers and the journal promise -/

/-- The stream of the subscription is there on the connection, or is being opened. -/
def holds (subscriptionId : String) : Bool :=
  (s.contexts.get? subscriptionId).any fun context =>
    context.connectionId = connectionId && context.stream ≠ .broken

/-- The connection of the node, while both ends have it. -/
def currentConnection : Option String :=
  ((s.connectionForNode nodeId).filter (·.alive)).map (·.connectionId)

/-- Every subscription that the node was told of is the recorded one, or was called off. -/
def Accounted : Prop :=
  ∀ newer older nodeId connectionId subscriptionId,
    s.journal = newer ++ .sent nodeId connectionId subscriptionId :: older →
      (∃ record ∈ s.records.entries, record.subscriptionId = subscriptionId) ∨
        .issued subscriptionId ∈ newer

/-- A positive answer means that the node streams the recorded subscription. -/
def AnswersTruly : Prop :=
  ∀ subscription, s.answered = some subscription →
    ∃ record, s.records.get? subscription.personaId = some record ∧
      ∃ connectionId, s.currentConnection record.nodeId = some connectionId ∧
        .sent record.nodeId connectionId record.subscriptionId ∈ s.journal ∧
        s.holds connectionId record.subscriptionId = true

/-- A positive answer means that the node was told of its subscription; while that is the
recorded one and the connection lasts, the node streams it unless it gave up. -/
def AnswersTrulyAtFirst : Prop :=
  ∀ subscription, s.answered = some subscription →
    ∃ connectionId,
      .sent subscription.nodeId connectionId subscription.subscriptionId ∈ s.journal ∧
        (s.records.get? subscription.personaId = some subscription →
          s.currentConnection subscription.nodeId = some connectionId →
            s.holds connectionId subscription.subscriptionId = true ∨
              subscription.subscriptionId ∈ s.gaveUp)

end State

def system : System State Label where
  initial s := s = initialState
  step := State.step

end Newbro.ThreadSubscriptions
