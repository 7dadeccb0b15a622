import Newbro.CodexTurn

/-!
# The receive loop and the turns of a node

The receive loop of `ExecutorNodeService` with the commands that it handles itself, the turns
of `CodexExecutor` that run beside it, and the turn locks of their sessions. A step is one
stretch of a coroutine. The loop is the consumer of a text instruction; a run and an outbound
turn have tasks of their own. A session shares the client of the app-server, so closing it
only ends its blocked wait. Tasks and sessions have names of their own.
-/
namespace Newbro.NodeTurns

open Library CodexTurn

/-! ## Sessions and turns -/

/-- `CodexExecutorSession`, with those that wait for its `turn_lock`. -/
structure Session where
  sessionId : String
  threadReady : Bool
  turnLock : Option String := none
  waiters : List String := []
  blockedWait : Option (Option WaitResult) := none
  deriving Repr, DecidableEq

variable (session : Session)

/-- `mark_blocked_resolved` and `abort_blocked_wait` -/
def Session.endWait (result : WaitResult) : Session :=
  { session with blockedWait := session.blockedWait.map fun _ => some result }

/-- A turn leaves its `async with`, or the line before it. -/
def Session.release (turnId : String) : Session :=
  { session with
    turnLock := if session.turnLock = some turnId then none else session.turnLock
    waiters := session.waiters.erase turnId }

/-- Where a turn is suspended: `asking` while its BLOCKED event is sent, `ending` once the lock
is released. -/
inductive Point where
  | created
  | waitingLock
  | working
  | asking
  | blocked
  | ending
  deriving Repr, DecidableEq

/-- Inside the `async with`. -/
def Point.locked : Point → Bool
  | .working | .asking | .blocked => true
  | _ => false

/-- Between `begin_blocked_wait` and the end of `wait_for_blocked_resolution`. -/
def Point.inBlockedWait : Point → Bool
  | .asking | .blocked => true
  | _ => false

inductive TurnKind where
  | run
  | instruction
  | outbound
  deriving Repr, DecidableEq

structure Turn where
  turnId : String
  runId : String
  sessionId : String
  kind : TurnKind
  point : Point
  deriving Repr, DecidableEq

inductive Move where
  | acquire
  | setThread
  | ask
  | await
  | wake
  | timeOut
  | leave
  deriving Repr, DecidableEq

/-- `async with session.turn_lock`: those that wait already go first. -/
def enterLock (turn : Turn) : Session × Turn :=
  if session.turnLock = none ∧ session.waiters = [] then
    ({ session with turnLock := some turn.turnId }, { turn with point := .working })
  else
    ({ session with waiters := session.waiters ++ [turn.turnId] },
      { turn with point := .waitingLock })

/-- One stretch of a turn that has begun. -/
def moveTurn (turn : Turn) : Move → Option (Session × Turn)
  | .acquire =>
    if turn.point = .waitingLock ∧ session.turnLock = none ∧
        session.waiters.head? = some turn.turnId then
      some ({ session with turnLock := some turn.turnId, waiters := session.waiters.tail },
        { turn with point := .working })
    else none
  | .setThread =>
    if turn.point = .working then some ({ session with threadReady := true }, turn) else none
  | .ask =>
    if turn.point = .working then
      some ({ session with blockedWait := some none }, { turn with point := .asking })
    else none
  | .await => if turn.point = .asking then some (session, { turn with point := .blocked }) else none
  | .wake =>
    if turn.point = .blocked then
      match session.blockedWait with
      | some none => none
      | some (some .aborted) =>
        some ({ session with blockedWait := none }.release turn.turnId,
          { turn with point := .ending })
      | _ => some ({ session with blockedWait := none }, { turn with point := .working })
    else none
  | .timeOut =>
    if turn.point = .blocked ∧ session.blockedWait = some none then
      some ({ session with blockedWait := none }.release turn.turnId,
        { turn with point := .ending })
    else none
  | .leave =>
    if turn.point = .working then
      some (session.release turn.turnId, { turn with point := .ending })
    else none

/-! ## The service -/

structure DispatchRun where
  turnId : String
  runId : String
  executionSessionId : String
  deriving Repr, DecidableEq

inductive Command where
  | dispatchRun (command : DispatchRun)
  | dispatchText (turnId runId executionSessionId text : String)
  | startCodexTurn (turnId requestId sessionId : String)
  | cancelRun (runId : String)
  | supplyInteractionResponse (executionSessionId outboundTurnRequestId : Option String)
      (hasNativeResponse : Bool)
  | releaseRun (executionSessionId : String)
  /-- The commands that touch no session of a turn. -/
  | other
  deriving Repr, DecidableEq

/-- Where the receive loop is suspended. -/
inductive Loop where
  | receiving
  | ensuringSession (command : DispatchRun)
  | instructing (turn : Turn)
  | responding (sessionId : String)
  | handlingOther
  | reconnecting
  deriving Repr, DecidableEq

/-- `liveSessions` and `activeRuns` are the service's tables, `executorRuns` is
`CodexExecutor._active_runs`. -/
structure State where
  loop : Loop
  sessions : Table Session.sessionId
  turns : Table Turn.turnId
  liveSessions : Dict String String
  activeRuns : Dict String String
  executorRuns : Dict String String

def initialState : State :=
  ⟨.receiving, Table.empty, Table.empty, Table.empty, Table.empty, Table.empty⟩

inductive Label where
  | receive (command : Command)
  | sessionCreated (sessionId : String) (resumed : Bool)
  | responded (ok : Bool)
  | otherHandled
  /-- The loop raises, the connection is lost, or it is there again. -/
  | loopFails
  | reconnected
  | begin (turnId : String)
  | turn (turnId : String) (move : Move)
  | finish (turnId : String)
  | cancelTask (turnId : String)
  | instruction (move : Move)
  | instructionEnds
  | instructionFails
  deriving Repr, DecidableEq

namespace State

variable (s : State)

/-- The end of `_dispatch_run`. -/
def startRun (command : DispatchRun) (sessionId : String) : State :=
  { s with
    loop := .receiving
    turns := s.turns.put ⟨command.turnId, command.runId, sessionId, .run, .created⟩
    activeRuns := s.activeRuns.set command.runId command.turnId }

/-- `_dispatch_run`; every session stays alive with the client it shares. -/
def dispatchRun (command : DispatchRun) : Option State :=
  if s.turns.contains command.turnId = true then none
  else
    match s.liveSessions.lookup command.executionSessionId with
    | some sessionId => some (s.startRun command sessionId)
    | none => some { s with loop := .ensuringSession command }

/-- The session of an instruction that `_dispatch_text_instruction` and
`handle_text_instruction` let pass. -/
def acceptsText (runId executionSessionId text : String) : Option Session :=
  if s.activeRuns.contains runId = true then
    (s.liveSessions.lookup executionSessionId).bind fun sessionId =>
      if s.executorRuns.lookup runId = some sessionId then
        (s.sessions.get? sessionId).filter fun session =>
          session.threadReady && Text.strip text ≠ ""
      else none
  else none

/-- `_dispatch_text_instruction`; a failure is told to the server and the loop goes on. -/
def dispatchText (s : State) (turnId runId executionSessionId text : String) : Option State :=
  if s.turns.contains turnId = true then none
  else
    match s.acceptsText runId executionSessionId text with
    | none => some s
    | some session =>
      let entered :=
        enterLock session ⟨turnId, runId, session.sessionId, .instruction, .waitingLock⟩
      some { s with
        loop := .instructing entered.2
        sessions := s.sessions.put entered.1 }

/-- The background task of `start_codex_turn`, with the session that it creates. -/
def startCodexTurn (s : State) (turnId requestId sessionId : String) : Option State :=
  if s.turns.contains turnId = true ∨ s.sessions.contains sessionId = true then none
  else
    some { s with
      turns := s.turns.put ⟨turnId, requestId, sessionId, .outbound, .created⟩
      sessions := s.sessions.put { sessionId := sessionId, threadReady := false } }

variable (sessionId : String)

def endWaitOf (result : WaitResult) : State :=
  match s.sessions.get? sessionId with
  | none => s
  | some session => { s with sessions := s.sessions.put (session.endWait result) }

/-- `_cancel_run` with `CodexExecutor.cancel_run` -/
def cancelRun (runId : String) : State :=
  if s.activeRuns.contains runId = true then
    match s.executorRuns.lookup runId with
    | none => s
    | some sessionId =>
      { s with executorRuns := s.executorRuns.erase runId }.endWaitOf sessionId .aborted
  else s

/-- `_resolve_interaction_target_session` -/
def resolveTarget (executionSessionId outboundTurnRequestId : Option String) :
    Option String :=
  (executionSessionId.bind s.liveSessions.lookup).or
    (outboundTurnRequestId.bind s.executorRuns.lookup)

def receive (s : State) : Command → Option State
  | .dispatchRun command => s.dispatchRun command
  | .dispatchText turnId runId executionSessionId text =>
    s.dispatchText turnId runId executionSessionId text
  | .startCodexTurn turnId requestId sessionId => s.startCodexTurn turnId requestId sessionId
  | .cancelRun runId => some (s.cancelRun runId)
  | .supplyInteractionResponse executionSessionId outboundTurnRequestId hasNativeResponse =>
    if hasNativeResponse = true then
      match s.resolveTarget executionSessionId outboundTurnRequestId with
      | none => some s
      | some sessionId => some { s with loop := .responding sessionId }
    else some s
  | .releaseRun executionSessionId =>
    some { s with liveSessions := s.liveSessions.erase executionSessionId }
  | .other => some { s with loop := .handlingOther }

/-- The rest of `_ensure_session` and of `_dispatch_run`. -/
def sessionCreated (resumed : Bool) : Option State :=
  match s.loop with
  | .ensuringSession command =>
    if s.sessions.contains sessionId = true then none
    else
      some ({ s with
        sessions := s.sessions.put { sessionId := sessionId, threadReady := resumed }
        liveSessions := s.liveSessions.set command.executionSessionId sessionId }.startRun command
          sessionId)
  | _ => none

/-- `respond_to_request` returns, or raises and is logged. -/
def responded (ok : Bool) : Option State :=
  match s.loop with
  | .responding sessionId =>
    let s := { s with loop := .receiving }
    some (if ok = true then s.endWaitOf sessionId .resolved else s)
  | _ => none

/-- The loop leaves `_handle_message` with an exception; an instruction raises by its own step. -/
def loopFails : Option State :=
  match s.loop with
  | .receiving | .ensuringSession _ | .handlingOther => some { s with loop := .reconnecting }
  | _ => none

/-! ## Turns with a task -/

variable (turnId : String)

/-- A turn begins: it is recorded by the executor and asks for the lock. -/
def begin : Option State :=
  ((s.turns.get? turnId).filter (·.point = .created)).bind fun turn =>
    (s.sessions.get? turn.sessionId).map fun session =>
      let entered := enterLock session turn
      { s with
        sessions := s.sessions.put entered.1
        turns := s.turns.put entered.2
        executorRuns := s.executorRuns.set turn.runId turn.sessionId }

def turnMoves (move : Move) : Option State :=
  (s.turns.get? turnId).bind fun turn =>
    (s.sessions.get? turn.sessionId).bind fun session =>
      (moveTurn session turn move).map fun moved =>
        { s with sessions := s.sessions.put moved.1, turns := s.turns.put moved.2 }

variable (turn : Turn)

/-- A turn that has begun leaves the tables that it was recorded in. -/
def forgetTurn : State :=
  { s with
    turns := s.turns.erase turn.turnId
    activeRuns := if turn.kind = .run then s.activeRuns.erase turn.runId else s.activeRuns
    executorRuns :=
      if turn.point = .created then s.executorRuns else s.executorRuns.erase turn.runId }

/-- The `finally` clauses of a turn; an outbound turn closes its session. -/
def dropTurn : State :=
  if turn.kind = .outbound ∧ turn.point ≠ .created then
    (s.forgetTurn turn).endWaitOf turn.sessionId .aborted
  else s.forgetTurn turn

def finish : Option State :=
  ((s.turns.get? turnId).filter (·.point = .ending)).map s.dropTurn

def releaseLock : State :=
  match s.sessions.get? turn.sessionId with
  | none => s
  | some session => { s with sessions := s.sessions.put (session.release turn.turnId) }

/-- `_cancel_active_runs` and `_cancel_background_commands` cancel one task after the other. -/
def cancelTask : Option State :=
  if s.loop = .reconnecting then
    (s.turns.get? turnId).map fun turn => (s.releaseLock turn).dropTurn turn
  else none

/-! ## The turn of an instruction -/

def instructionMoves (move : Move) : Option State :=
  match s.loop with
  | .instructing turn =>
    (s.sessions.get? turn.sessionId).bind fun session =>
      (moveTurn session turn move).map fun moved =>
        { s with loop := .instructing moved.2, sessions := s.sessions.put moved.1 }
  | _ => none

def instructionEnds : Option State :=
  match s.loop with
  | .instructing turn => if turn.point = .ending then some { s with loop := .receiving } else none
  | _ => none

/-- An event of the instruction cannot be sent. -/
def instructionFails : Option State :=
  match s.loop with
  | .instructing turn =>
    if turn.point = .waitingLock then none
    else some { s.releaseLock turn with loop := .reconnecting }
  | _ => none

def step : Label → Option State
  | .receive command => if s.loop = .receiving then s.receive command else none
  | .sessionCreated sessionId resumed => s.sessionCreated sessionId resumed
  | .responded ok => s.responded ok
  | .otherHandled => if s.loop = .handlingOther then some { s with loop := .receiving } else none
  | .loopFails => s.loopFails
  | .reconnected => if s.loop = .reconnecting then some { s with loop := .receiving } else none
  | .begin turnId => s.begin turnId
  | .turn turnId move => s.turnMoves turnId move
  | .finish turnId => s.finish turnId
  | .cancelTask turnId => s.cancelTask turnId
  | .instruction move => s.instructionMoves move
  | .instructionEnds => s.instructionEnds
  | .instructionFails => s.instructionFails

/-! ## Waiting on oneself -/

/-- The loop is suspended on the turn lock of the session. -/
def loopAwaits : Bool :=
  match s.loop with
  | .instructing turn => turn.sessionId = sessionId && turn.point = .waitingLock
  | _ => false

/-- The turn that holds the lock of the session waits for an answer that is not there. -/
def holderAwaitsAnswer (session : Session) : Bool :=
  session.blockedWait = some none &&
    (session.turnLock.bind s.turns.get?).any fun holder =>
      holder.sessionId = session.sessionId && holder.point.inBlockedWait

/-- The loop waits for a lock that only an answer releases, which it would have to receive. -/
def WaitsOnItself : Prop :=
  ∃ session ∈ s.sessions.entries,
    s.loopAwaits session.sessionId = true ∧ s.holderAwaitsAnswer session = true

end State

def system : System State Label where
  initial s := s = initialState
  step := State.step

end Newbro.NodeTurns
