import Newbro.Library.Transition
import Newbro.Protocol

/-!
# The turn of a Codex run

`CodexExecutor.run_task` as a transition system: the generator with the points at which
it is suspended, its session, and the app-server that executes the native turn. A label
is one stretch of the generator, or what its surroundings do while it is suspended.
What the extraction functions find in a notification is a field of the notification,
and an event is its type and its message.
-/
namespace Newbro.CodexTurn

open Library Protocol

/-! ## The session -/

inductive WaitResult where
  | resolved
  | aborted
  deriving Repr, DecidableEq

inductive LockHolder where
  | thisRun
  | otherTurn
  deriving Repr, DecidableEq

/-- `CodexExecutorSession`. `blockedWait` is `_blocked_resolution_event` with
`_blocked_wait_result`, and `processAlive` is about an app-server of the session's own. -/
structure CodexSession where
  threadId : Option String
  threadResumed : Bool
  codexModel : Option String
  planModel : Option String
  turnLock : Option LockHolder
  blockedWait : Option (Option WaitResult)
  ownsClient : Bool
  processAlive : Bool
  deriving Repr, DecidableEq

namespace CodexSession

/-- `create_session`: the session shares the client of the app session. -/
def createSession : CodexSession :=
  ⟨none, false, none, none, none, none, false, false⟩

variable (session : CodexSession)

def beginBlockedWait : CodexSession :=
  { session with blockedWait := some none }

def markBlockedResolved : CodexSession :=
  { session with blockedWait := session.blockedWait.map fun _ => some .resolved }

def abortBlockedWait : CodexSession :=
  { session with blockedWait := session.blockedWait.map fun _ => some .aborted }

def close : CodexSession :=
  let session := session.abortBlockedWait
  if session.ownsClient then { session with processAlive := false } else session

/-- The `async with` of the turn is left. -/
def releaseLock : CodexSession :=
  if session.turnLock = some .thisRun then { session with turnLock := none } else session

end CodexSession

/-! ## Notifications -/

structure CodexEvent where
  eventType : ExecutorEventType
  message : Option String
  deriving Repr, DecidableEq

/-- The `turn` of a `turn/completed` notification. -/
structure CompletedTurn where
  id : Option String
  status : Option String
  errorMessage : Option String
  deriving Repr, DecidableEq

/-- A notification of the app-server about the turn. -/
inductive Notification where
  | turnCompleted (turn : Option CompletedTurn)
  | error
  | planUpdated (plan : Option (Option String))
  | planDelta (itemId delta : String)
  | messageDelta (itemId delta : String)
  | planItem (plan : Option (Option String))
  | messageItem (itemId phase text : Option String)
  | otherItem
  | request (method message : String)
  | threadStatus (statusType : Option String)
  deriving Repr, DecidableEq

/-- What the stream remembers of the notifications it has read. -/
structure StreamState where
  lastAssistantMessage : Option String
  assistantItemPhases : Dict String (Option String)
  assistantItemText : Dict String String
  assistantItemEmittedText : Dict String String
  planItemText : Dict String String
  planItemEmittedText : Dict String String

def StreamState.empty : StreamState :=
  ⟨none, Table.empty, Table.empty, Table.empty, Table.empty, Table.empty⟩

def endsWith (ending text : String) : Bool := ending.toList.isSuffixOf text.toList

/-- A text is told again when enough was added to it or when it ends like a sentence. -/
def shouldEmit (enough : Nat) (endings : List String) (candidate previous : String) : Bool :=
  if candidate = previous then false
  else candidate.length - previous.length ≥ enough || endings.any fun e => endsWith e candidate

def shouldEmitCodexDeltaProgress (candidate previous : String) : Bool :=
  shouldEmit 24 [".", "。", "!", "！", "?", "？", "\n"] candidate previous

def shouldEmitCodexPlanDelta (candidate previous : String) : Bool :=
  shouldEmit 240 ["\n\n", ".", "。", "!", "！", "?", "？"] candidate previous

def hasText (part whole : String) : Bool :=
  whole.toList.tails.any fun rest => part.toList.isPrefixOf rest

/-- The methods for which `_extract_blocked_request` finds a question. -/
def isBlockedRequest (method : String) : Bool :=
  let normalized := method.toLower
  hasText "user_input" normalized || hasText "requestuserinput" normalized ||
    hasText "request_user_input" normalized ||
    (hasText "request" normalized && hasText "question" normalized) ||
    ["item/commandexecution/requestapproval", "item/filechange/requestapproval",
      "item/permissions/requestapproval", "execcommandapproval",
      "applypatchapproval"].contains normalized

/-- What the loop of `_stream_turn_events` does about a notification. -/
inductive Reaction where
  | skip
  | tell (event : CodexEvent)
  | propose (event : CodexEvent)
  | ask (event : CodexEvent)
  | finish (event : CodexEvent)
  | readFinalMessage
  deriving Repr, DecidableEq

def planEvent (message : Option String) : CodexEvent := ⟨.plan, message⟩

/-- `text.strip()`, when something is left of it. -/
def planFromText (text : String) : Option String :=
  if Text.strip text = "" then none else some (Text.strip text)

variable (st : StreamState)

def reactToCompletion (turnId completedMessage : String)
    (turn : Option CompletedTurn) : Reaction :=
  if turn.any fun turn => turn.id ≠ some turnId then .skip
  else if turn.bind CompletedTurn.status = some "completed" then
    if Text.orElse st.lastAssistantMessage "" = "" then .readFinalMessage
    else .finish ⟨.completed, some (Text.orElse st.lastAssistantMessage completedMessage)⟩
  else
    .finish ⟨.failed,
      some (Text.orElse (turn.bind CompletedTurn.errorMessage) "Codex turn failed.")⟩

def reactToPlanDelta (itemId delta : String) : StreamState × Reaction :=
  if itemId = "" || delta = "" then (st, .skip)
  else
    let text := (Dict.lookup st.planItemText itemId).getD "" ++ delta
    let st := { st with planItemText := Dict.set st.planItemText itemId text }
    let candidate := Text.strip text
    let previous := (Dict.lookup st.planItemEmittedText itemId).getD ""
    if candidate = "" || !shouldEmitCodexPlanDelta candidate previous then (st, .skip)
    else
      ({ st with planItemEmittedText := Dict.set st.planItemEmittedText itemId candidate },
        .tell (planEvent (planFromText text)))

def reactToMessageDelta (itemId delta : String) : StreamState × Reaction :=
  if delta = "" then (st, .skip)
  else if Dict.lookup st.assistantItemPhases itemId ≠ some (some "commentary") then (st, .skip)
  else
    let accumulated := (Dict.lookup st.assistantItemText itemId).getD "" ++ delta
    let st := { st with assistantItemText := Dict.set st.assistantItemText itemId accumulated }
    let candidate := Text.strip accumulated
    let previous := (Dict.lookup st.assistantItemEmittedText itemId).getD ""
    if candidate ≠ "" && shouldEmitCodexDeltaProgress candidate previous then
      ({ st with
        assistantItemEmittedText := Dict.set st.assistantItemEmittedText itemId candidate },
        .tell ⟨.progress, some candidate⟩)
    else (st, .skip)

def setIfNamed {α : Type} (d : Dict String α) (itemId : Option String) (value : α) :
    Dict String α :=
  match itemId with
  | some itemId => Dict.set d itemId value
  | none => d

def reactToMessageItem (itemId phase text : Option String) :
    StreamState × Reaction :=
  let st := { st with assistantItemPhases := setIfNamed st.assistantItemPhases itemId phase }
  match text with
  | none => (st, .skip)
  | some text =>
    if text = "" then (st, .skip)
    else
      let st := { st with lastAssistantMessage := some text }
      if itemId.any fun itemId =>
          Dict.lookup st.assistantItemEmittedText itemId = some text then (st, .skip)
      else if phase = some "final_answer" then (st, .skip)
      else
        ({ st with
          assistantItemEmittedText := setIfNamed st.assistantItemEmittedText itemId text },
          .tell ⟨.progress, some text⟩)

def react (planMode : Bool) (turnId completedMessage : String) :
    Notification → StreamState × Reaction
  | .turnCompleted turn => (st, reactToCompletion st turnId completedMessage turn)
  | .error => (st, .skip)
  | .planUpdated plan => (st, (plan.map fun message => .tell (planEvent message)).getD .skip)
  | .planDelta itemId delta => reactToPlanDelta st itemId delta
  | .messageDelta itemId delta => reactToMessageDelta st itemId delta
  | .planItem none => (st, .skip)
  | .planItem (some message) =>
    (st, if planMode then .propose (planEvent message) else .tell (planEvent message))
  | .messageItem itemId phase text => reactToMessageItem st itemId phase text
  | .otherItem => (st, .skip)
  | .request method message =>
    (st, if isBlockedRequest method then .ask ⟨.blocked, some message⟩ else .skip)
  | .threadStatus statusType =>
    (st, if statusType = some "systemError" then
        .finish ⟨.failed, some "Codex thread entered systemError state."⟩
      else .skip)

/-! ## The generator -/

/-- What the generator does when the consumer takes it up again after an event. -/
inductive Next where
  | readOn
  | block
  | awaitAnswer
  | leave
  deriving Repr, DecidableEq

/-- The points at which the generator is suspended. -/
inductive Point where
  | waitingLock
  | ensuringThread (method : String)
  | listingModes
  | startingTurn
  | streaming (turnId : String)
  | yielding (event : CodexEvent) (next : Next) (turnId : Option String)
  | readingFinal (turnId : String)
  | waitingAnswer (turnId : String)
  | finished
  deriving Repr, DecidableEq

/-- What is sent to the app-server. -/
inductive AppMessage where
  | request (method : String)
  | response
  deriving Repr, DecidableEq

/-- The request by which a client of the app-server ends a turn. -/
def AppMessage.endsTurn (message : AppMessage) : Bool := message = .request "turn/interrupt"

inductive NativeTurn where
  | notStarted
  | running
  | ended
  deriving Repr, DecidableEq

/-- The task of a run, as far as its turn depends on it. -/
structure TurnTask where
  title : String
  planMode : Bool
  forkExisting : Bool

structure TurnState where
  session : CodexSession
  activeRun : Bool
  point : Point
  stream : StreamState
  queue : List Notification
  native : NativeTurn
  sent : List AppMessage
  yielded : List CodexEvent

inductive Label where
  | acquireLock
  | otherTakesLock
  | otherReleasesLock
  | threadAnswered (threadId : Option String) (model : Option String)
  | modesListed (planModel : Option String)
  | turnStarted (turnId : Option String)
  | requestFails (text : String)
  | notify (notification : Notification)
  | read
  | resume
  | finalMessageRead (text : Option String)
  | answerSupplied
  | wake
  | timeOut
  | cancelRun
  | pauseRun
  deriving DecidableEq

def TurnState.request (s : TurnState) (method : String) (point : Point) : TurnState :=
  { s with sent := s.sent ++ [.request method], point := point }

/-- The generator yields an event and is suspended. -/
def TurnState.yieldEvent (s : TurnState) (event : CodexEvent) (next : Next)
    (turnId : Option String) : TurnState :=
  { s with point := .yielding event next turnId, yielded := s.yielded ++ [event] }

/-- The `except` of `run_task`: the lock is released before the event is yielded. -/
def TurnState.fail (s : TurnState) (text : String) : TurnState :=
  { s with session := s.session.releaseLock }.yieldEvent ⟨.failed, some text⟩ .leave none

/-- The generator returns. -/
def TurnState.leave (s : TurnState) : TurnState :=
  { s with session := s.session.releaseLock, activeRun := false, point := .finished }

def TurnState.startTurn (s : TurnState) : TurnState :=
  { s with native := .running }.request "turn/start" .startingTurn

/-- `_collaboration_kwargs_for_turn`, once the modes need not be listed any more. -/
def TurnState.startWithModel (s : TurnState) (task : TurnTask) : TurnState :=
  if task.planMode && s.session.planModel.isNone && s.session.codexModel.isNone then
    s.fail "Codex plan mode is unavailable: collaboration mode settings have no model."
  else s.startTurn

def TurnState.collaborate (s : TurnState) (task : TurnTask) : TurnState :=
  if task.planMode && s.session.planModel.isNone then
    s.request "collaborationMode/list" .listingModes
  else s.startWithModel task

/-- `_ensure_thread`, up to its request. -/
def ensureThread (s : TurnState) (task : TurnTask) : TurnState :=
  match s.session.threadId with
  | none => s.request "thread/start" (.ensuringThread "thread/start")
  | some _ =>
    if task.forkExisting then s.request "thread/fork" (.ensuringThread "thread/fork")
    else if s.session.threadResumed then s.collaborate task
    else s.request "thread/resume" (.ensuringThread "thread/resume")

def acquireLock (s : TurnState) (task : TurnTask) : Option TurnState :=
  match s.point, s.session.turnLock with
  | .waitingLock, none =>
    some (ensureThread { s with session := { s.session with turnLock := some .thisRun } } task)
  | _, _ => none

def threadAnswered (s : TurnState) (task : TurnTask) (threadId model : Option String) :
    Option TurnState :=
  match s.point with
  | .ensuringThread method =>
    let captured : CodexSession :=
      { s.session with
        threadResumed := true
        codexModel := model.orElse fun _ => s.session.codexModel }
    if method = "thread/resume" then some ({ s with session := captured }.collaborate task)
    else
      match threadId with
      | none => some (s.fail "Codex did not return a thread id.")
      | some threadId =>
        some ({ s with session := { captured with threadId := some threadId } }.collaborate
          task)
  | _ => none

def modesListed (s : TurnState) (task : TurnTask) (planModel : Option String) :
    Option TurnState :=
  match s.point with
  | .listingModes =>
    some ({ s with session := { s.session with planModel := planModel } }.startWithModel task)
  | _ => none

def turnStarted (s : TurnState) (turnId : Option String) : Option TurnState :=
  match s.point, turnId with
  | .startingTurn, some turnId => some { s with point := .streaming turnId }
  | .startingTurn, none => some (s.fail "Codex turn/start did not return a turn id.")
  | _, _ => none

/-- A request of the generator fails; a fork that fails is made up for by a new thread. -/
def requestFails (s : TurnState) (task : TurnTask) (text : String) : Option TurnState :=
  match s.point with
  | .ensuringThread method =>
    if method = "thread/fork" then
      some (s.request "thread/start" (.ensuringThread "thread/start"))
    else some (s.fail text)
  | .listingModes => some (s.fail text)
  | .startingTurn => some (s.fail text)
  | .readingFinal turnId =>
    some (s.yieldEvent ⟨.completed, some ("Completed: " ++ task.title)⟩ .leave turnId)
  | _ => none

/-- The events of a turn that nobody reads yet are kept up to a hundred. -/
def backlogLimit : Nat := 100

def Point.readsQueue : Point → Bool
  | .streaming _ => true
  | .yielding _ _ turnId => turnId.isSome
  | .readingFinal _ => true
  | .waitingAnswer _ => true
  | _ => false

def notify (s : TurnState) (notification : Notification) : Option TurnState :=
  if s.native ≠ .running then none
  else
    let queue := s.queue ++ [notification]
    some { s with
      queue :=
        if s.point.readsQueue then queue else queue.drop (queue.length - backlogLimit)
      native :=
        match notification with
        | .turnCompleted _ => .ended
        | _ => .running }

/-- One turn of the loop of `_stream_turn_events`. -/
def read (s : TurnState) (task : TurnTask) : Option TurnState :=
  match s.point, s.queue with
  | .streaming turnId, notification :: queue =>
    let reaction :=
      react s.stream task.planMode turnId ("Completed: " ++ task.title) notification
    let s := { s with stream := reaction.1, queue := queue }
    match reaction.2 with
    | .skip => some s
    | .tell event => some (s.yieldEvent event .readOn turnId)
    | .propose event => some (s.yieldEvent event .block turnId)
    | .ask event =>
      some ({ s with session := s.session.beginBlockedWait }.yieldEvent event .awaitAnswer
        turnId)
    | .finish event => some (s.yieldEvent event .leave turnId)
    | .readFinalMessage => some (s.request "thread/read" (.readingFinal turnId))
  | _, _ => none

def resume (s : TurnState) : Option TurnState :=
  match s.point with
  | .yielding _ .readOn (some turnId) => some { s with point := .streaming turnId }
  | .yielding _ .block turnId =>
    some (s.yieldEvent ⟨.blocked, some "Review the proposed plan before execution."⟩ .leave
      turnId)
  | .yielding _ .awaitAnswer (some turnId) => some { s with point := .waitingAnswer turnId }
  | .yielding _ .leave _ => some s.leave
  | _ => none

def finalMessageRead (s : TurnState) (task : TurnTask) (text : Option String) :
    Option TurnState :=
  match s.point with
  | .readingFinal turnId =>
    some (s.yieldEvent ⟨.completed, some (Text.orElse text ("Completed: " ++ task.title))⟩
      .leave turnId)
  | _ => none

/-- The answer to a question is sent to the app-server, and the wait is resolved. -/
def answerSupplied (s : TurnState) : Option TurnState :=
  some { s with session := s.session.markBlockedResolved, sent := s.sent ++ [.response] }

/-- `wait_for_blocked_resolution` returns. -/
def wake (s : TurnState) : Option TurnState :=
  match s.point, s.session.blockedWait with
  | .waitingAnswer turnId, some (some .resolved) =>
    some { s with session := { s.session with blockedWait := none }, point := .streaming turnId }
  | .waitingAnswer _, some (some .aborted) =>
    some { s with session := { s.session with blockedWait := none } }.leave
  | _, _ => none

def timeOut (s : TurnState) : Option TurnState :=
  match s.point, s.session.blockedWait with
  | .waitingAnswer turnId, some none =>
    some ({ s with session := { s.session with blockedWait := none } }.yieldEvent
      ⟨.failed, some "Timed out waiting for user input."⟩ .leave turnId)
  | _, _ => none

def cancelRun (s : TurnState) : TurnState :=
  if s.activeRun then { s with activeRun := false, session := s.session.close } else s

def pauseRun (s : TurnState) : TurnState := cancelRun s

def step (task : TurnTask) (s : TurnState) : Label → Option TurnState
  | .acquireLock => acquireLock s task
  | .otherTakesLock =>
    if s.session.turnLock = none then
      some { s with session := { s.session with turnLock := some .otherTurn } }
    else none
  | .otherReleasesLock =>
    if s.session.turnLock = some .otherTurn then
      some { s with session := { s.session with turnLock := none } }
    else none
  | .threadAnswered threadId model => threadAnswered s task threadId model
  | .modesListed planModel => modesListed s task planModel
  | .turnStarted turnId => turnStarted s turnId
  | .requestFails text => requestFails s task text
  | .notify notification => notify s notification
  | .read => read s task
  | .resume => resume s
  | .finalMessageRead text => finalMessageRead s task text
  | .answerSupplied => answerSupplied s
  | .wake => wake s
  | .timeOut => timeOut s
  | .cancelRun => some (cancelRun s)
  | .pauseRun => some (pauseRun s)

/-- `run_task` is called for a run on a session. -/
def TurnState.start (session : CodexSession) : TurnState :=
  ⟨session, true, .waitingLock, .empty, [], .notStarted, [], []⟩

/-- A run on a session of `create_session`, which may have had turns before. -/
def system (task : TurnTask) : System TurnState Label where
  initial s := ∃ session : CodexSession,
    session.ownsClient = CodexSession.createSession.ownsClient ∧
      session.turnLock ≠ some .thisRun ∧ s = TurnState.start session
  step := step task

/-! ## What cancelling a run is to do -/

/-- The steps that the generator takes by itself or that the answer to its own request lets
it take. -/
def Label.isOwn : Label → Bool
  | .acquireLock => true
  | .threadAnswered _ _ => true
  | .modesListed _ => true
  | .turnStarted _ => true
  | .requestFails _ => true
  | .read => true
  | .resume => true
  | .finalMessageRead _ => true
  | .wake => true
  | _ => false

def isTerminalType : ExecutorEventType → Bool
  | .completed => true
  | .failed => true
  | .cancelled => true
  | _ => false

/-- No event follows but one terminal event. -/
def Quiet (task : TurnTask) (s : TurnState) : Prop :=
  ∀ s', (system task).Steps (fun _ _ => True) s s' →
    s'.yielded = s.yielded ∨
      ∃ event, isTerminalType event.eventType = true ∧ s'.yielded = s.yielded ++ [event]

/-- While the turn holds the lock, the generator goes on and can still release it. -/
def ReleasesLock (task : TurnTask) (s : TurnState) : Prop :=
  ∀ s', (system task).Steps (fun _ _ => True) s s' → s'.session.turnLock = some .thisRun →
    ∃ l, Label.isOwn l = true ∧ (step task s' l).isSome = true

def AskedToEnd (s : TurnState) : Prop := ∃ message ∈ s.sent, message.endsTurn = true

/-- Once `cancel_run` has returned, the turn is over for the run, its lock and the
app-server. -/
def CancelStopsTurn (task : TurnTask) (s : TurnState) : Prop :=
  Quiet task (cancelRun s) ∧ ReleasesLock task (cancelRun s) ∧ AskedToEnd (cancelRun s)

/-! ## What it does -/

section steps

variable {task : TurnTask} {s s' : TurnState}

/-- The messages that a run on a shared session sends. -/
structure NeverAsked (s : TurnState) : Prop where
  shared : s.session.ownsClient = false
  sent : ∀ message ∈ s.sent, message.endsTurn = false

theorem NeverAsked.frame (h : NeverAsked s) (hsession : s'.session.ownsClient = s.session.ownsClient)
    (hsent : s'.sent = s.sent) : NeverAsked s' :=
  ⟨hsession.trans h.shared, by rw [hsent]; exact h.sent⟩

theorem NeverAsked.send {message : AppMessage} (h : NeverAsked s)
    (hmessage : message.endsTurn = false) (hsession : s'.session.ownsClient = s.session.ownsClient)
    (hsent : s'.sent = s.sent ++ [message]) : NeverAsked s' := by
  refine ⟨hsession.trans h.shared, fun other hother => ?_⟩
  rw [hsent] at hother
  rcases List.mem_append.mp hother with hold | hnew
  · exact h.sent other hold
  · rwa [List.mem_singleton.mp hnew]

@[simp] theorem ownsClient_releaseLock (session : CodexSession) :
    session.releaseLock.ownsClient = session.ownsClient := by
  unfold CodexSession.releaseLock
  split <;> rfl

@[simp] theorem ownsClient_close (session : CodexSession) :
    session.close.ownsClient = session.ownsClient := by
  unfold CodexSession.close CodexSession.abortBlockedWait
  dsimp only
  split <;> rfl

section

variable (h : NeverAsked s)
include h

theorem NeverAsked.fail (text : String) : NeverAsked (s.fail text) :=
  h.frame (ownsClient_releaseLock s.session) rfl

theorem NeverAsked.leave : NeverAsked s.leave :=
  h.frame (ownsClient_releaseLock s.session) rfl

theorem NeverAsked.startWithModel : NeverAsked (s.startWithModel task) := by
  unfold TurnState.startWithModel
  split
  · exact h.fail _
  · exact h.send (by decide) rfl rfl

theorem NeverAsked.collaborate : NeverAsked (s.collaborate task) := by
  unfold TurnState.collaborate
  split
  · exact h.send (by decide) rfl rfl
  · exact h.startWithModel

theorem NeverAsked.ensureThread : NeverAsked (ensureThread s task) := by
  unfold CodexTurn.ensureThread
  split
  · exact h.send (by decide) rfl rfl
  · split
    · exact h.send (by decide) rfl rfl
    · split
      · exact h.collaborate
      · exact h.send (by decide) rfl rfl

theorem NeverAsked.threadAnswered {threadId model : Option String}
    (hstep : threadAnswered s task threadId model = some s') : NeverAsked s' := by
  unfold CodexTurn.threadAnswered at hstep
  split at hstep
  · dsimp only at hstep
    split at hstep
    · cases hstep
      exact NeverAsked.collaborate (h.frame rfl rfl)
    · split at hstep
      · cases hstep
        exact h.fail _
      · cases hstep
        exact NeverAsked.collaborate (h.frame rfl rfl)
  · cases hstep

theorem NeverAsked.requestFails {text : String}
    (hstep : requestFails s task text = some s') : NeverAsked s' := by
  unfold CodexTurn.requestFails at hstep
  split at hstep
  · split at hstep
    · cases hstep
      exact h.send (by decide) rfl rfl
    · cases hstep
      exact h.fail text
  · cases hstep
    exact h.fail text
  · cases hstep
    exact h.fail text
  · cases hstep
    exact h.frame rfl rfl
  · cases hstep

theorem NeverAsked.read (hstep : read s task = some s') : NeverAsked s' := by
  unfold CodexTurn.read at hstep
  split at hstep
  · dsimp only at hstep
    split at hstep <;> cases hstep
    · exact h.frame rfl rfl
    · exact h.frame rfl rfl
    · exact h.frame rfl rfl
    · exact h.frame rfl rfl
    · exact h.frame rfl rfl
    · exact h.send (by decide) rfl rfl
  · cases hstep

theorem NeverAsked.cancelRun : NeverAsked (cancelRun s) := by
  unfold CodexTurn.cancelRun
  split
  · exact h.frame (ownsClient_close s.session) rfl
  · exact h

theorem neverAsked_step {l : Label} (hstep : step task s l = some s') : NeverAsked s' := by
  cases l with
  | acquireLock =>
    change acquireLock s task = some s' at hstep
    unfold acquireLock at hstep
    split at hstep
    · cases hstep
      exact NeverAsked.ensureThread (h.frame rfl rfl)
    · cases hstep
  | otherTakesLock | otherReleasesLock =>
    simp only [step] at hstep
    split at hstep <;> cases hstep
    exact h.frame rfl rfl
  | threadAnswered threadId model => exact h.threadAnswered hstep
  | modesListed planModel =>
    change modesListed s task planModel = some s' at hstep
    unfold modesListed at hstep
    split at hstep <;> cases hstep
    exact NeverAsked.startWithModel (h.frame rfl rfl)
  | turnStarted turnId =>
    change turnStarted s turnId = some s' at hstep
    unfold turnStarted at hstep
    split at hstep <;> cases hstep
    · exact h.frame rfl rfl
    · exact h.fail _
  | requestFails text => exact h.requestFails hstep
  | notify notification =>
    change notify s notification = some s' at hstep
    unfold notify at hstep
    split at hstep <;> cases hstep
    exact h.frame rfl rfl
  | read => exact h.read hstep
  | resume =>
    change resume s = some s' at hstep
    unfold resume at hstep
    split at hstep <;> cases hstep
    · exact h.frame rfl rfl
    · exact h.frame rfl rfl
    · exact h.frame rfl rfl
    · exact h.leave
  | finalMessageRead text =>
    change finalMessageRead s task text = some s' at hstep
    unfold finalMessageRead at hstep
    split at hstep <;> cases hstep
    exact h.frame rfl rfl
  | answerSupplied =>
    cases hstep
    exact h.send (by decide) rfl rfl
  | wake =>
    change wake s = some s' at hstep
    unfold wake at hstep
    split at hstep <;> cases hstep
    · exact h.frame rfl rfl
    · exact NeverAsked.leave (h.frame rfl rfl)
  | timeOut =>
    change timeOut s = some s' at hstep
    unfold timeOut at hstep
    split at hstep <;> cases hstep
    exact h.frame rfl rfl
  | cancelRun | pauseRun =>
    cases hstep
    exact h.cancelRun

end

theorem neverAsked_inductive (task : TurnTask) : (system task).Inductive NeverAsked where
  initially s hs := by
    obtain ⟨session, hshared, -, rfl⟩ := hs
    exact ⟨hshared, fun message hmem => by cases hmem⟩
  preserved s l s' h hstep := neverAsked_step h hstep

/-- What a cancellation leaves as it is. -/
theorem cancelRun_frame (s : TurnState) :
    (cancelRun s).point = s.point ∧ (cancelRun s).queue = s.queue ∧
      (cancelRun s).native = s.native ∧ (cancelRun s).yielded = s.yielded := by
  unfold cancelRun
  split <;> exact ⟨rfl, rfl, rfl, rfl⟩

/-- A run that waits for the next notification of its native turn is not reached: it goes
on to tell what the turn does. -/
theorem streaming_not_quiet {turnId : String} (hpoint : s.point = .streaming turnId)
    (hqueue : s.queue = []) (hnative : s.native = .running) : ¬ Quiet task (cancelRun s) := by
  intro hquiet
  obtain ⟨hpoint', hqueue', hnative', -⟩ := cancelRun_frame s
  rw [hpoint] at hpoint'
  rw [hqueue] at hqueue'
  rw [hnative] at hnative'
  let message : Notification := .messageItem none none (some "Working.")
  let event : CodexEvent := ⟨.progress, some "Working."⟩
  let told := { cancelRun s with queue := [message], native := .running }
  let stream := { (cancelRun s).stream with
    lastAssistantMessage := some "Working." }
  let after := { told with stream := stream, queue := [] }.yieldEvent event .readOn (some turnId)
  have hnotify : (system task).step (cancelRun s) (.notify message) = some told := by
    simp [system, step, notify, hpoint', hqueue', hnative', Point.readsQueue, told, message]
  have hreact : react told.stream task.planMode turnId ("Completed: " ++ task.title) message =
      (stream, .tell event) := by
    simp [react, reactToMessageItem, setIfNamed, message, event, stream, told]
  have hread : (system task).step told .read = some after := by
    have hpoint : told.point = .streaming turnId := hpoint'
    have hqueue : told.queue = [message] := rfl
    simp only [system, step, read, hpoint, hqueue, hreact]
    rfl
  have hyielded : after.yielded = (cancelRun s).yielded ++ [event] := rfl
  have hsteps : (system task).Steps (fun _ _ => True) (cancelRun s) after :=
    ((System.Steps.refl _).tail trivial hnotify).tail trivial hread
  rcases hquiet after hsteps with hsame | ⟨other, hterminal, hother⟩
  · rw [hyielded] at hsame
    simp at hsame
  · rw [hyielded, List.append_cancel_left_eq, List.cons.injEq] at hother
    rw [← hother.1] at hterminal
    cases hterminal

end steps

/-- On a session of `create_session`, cancelling a run never stops its turn: at no point is
the app-server asked to end it. -/
theorem cancel_never_stops_turn (task : TurnTask) {s : TurnState}
    (hreach : (system task).Reachable s) : ¬ CancelStopsTurn task s := by
  rintro ⟨-, -, message, hmem, hends⟩
  have hnever := ((neverAsked_inductive task).of_reachable hreach).cancelRun
  rw [hnever.sent message hmem] at hends
  cases hends

def exampleTask : TurnTask := ⟨"Tidy up", false, false⟩

/-- The labels of a run up to the point at which its native turn is under way. -/
def startedTurnLabels : List Label :=
  [.acquireLock, .threadAnswered (some "thread-1") none, .turnStarted (some "turn-1")]

def reached (ls : List Label) : TurnState :=
  (system exampleTask).target (TurnState.start CodexSession.createSession) ls

theorem reachable_reached (ls : List Label) : (system exampleTask).Reachable (reached ls) := by
  have hinitial : (system exampleTask).initial (TurnState.start CodexSession.createSession) :=
    ⟨CodexSession.createSession, rfl, by decide, rfl⟩
  exact .target hinitial ls

theorem cancel_never_stops_turn_started :
    ¬ CancelStopsTurn exampleTask (reached startedTurnLabels) :=
  cancel_never_stops_turn exampleTask (reachable_reached startedTurnLabels)

/-- A run that is cancelled while its native turn is under way goes on to tell its
progress. -/
theorem cancelled_run_goes_on : ¬ ∀ (task : TurnTask) (s : TurnState), (system task).Reachable s →
      CancelStopsTurn task s := by
  intro hclaim
  have hstops := hclaim exampleTask _ (reachable_reached startedTurnLabels)
  exact streaming_not_quiet (show _ = Point.streaming "turn-1" from rfl) rfl rfl hstops.1

end Newbro.CodexTurn
