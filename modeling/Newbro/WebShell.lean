import Newbro.Library.Table
import Newbro.Library.Transition

/-!
# The web shell

The state of `useNewbroShellState` that the loads and the stream write: `loadShellSession`,
`openRuntimeBroThread` and the `onMessage` of the session stream, with the server's side of
the conversation. Updates take effect in the order in which they are queued, which is how
React leaves them in the end, and the shell stays mounted. Bros, drafts, further pages and the
closing of a thread are left out; `α` is what a snapshot shows besides its threads and turns.
-/
namespace Newbro.WebShell

open Library

variable {α : Type}

/-! ## What the server sends -/

inductive Role where
  | user
  | assistant
  deriving Repr, DecidableEq

/-- `ConversationEntry`, with the session and the moment at which it joined the history. -/
structure ConversationEntry where
  messageId : String
  role : Role
  text : String
  createdAt : String
  sessionId : String
  producedAt : Nat
  deriving Repr, DecidableEq

structure ConversationSnapshot where
  conversationHistory : List ConversationEntry
  producedAt : Nat
  deriving Repr, DecidableEq

inductive TimelineStatus where
  | notLoaded
  | loading
  | loaded
  | failed
  deriving Repr, DecidableEq

structure BroThread where
  threadId : String
  timelineStatus : TimelineStatus
  timelineError : Option String
  deriving Repr, DecidableEq

structure BroTimelineTurn where
  turnId : String
  threadId : String
  deriving Repr, DecidableEq

structure SessionSnapshot (α : Type) where
  broThreads : List BroThread
  broTimelineTurns : List BroTimelineTurn
  content : α
  producedAt : Nat
  deriving Repr, DecidableEq

/-- The events of the stream that the chat and the lists are made of. -/
inductive StreamEvent (α : Type) where
  | snapshot (snapshot : SessionSnapshot α)
  | userMessageAppended (entry : ConversationEntry)
  | assistantResponseCompleted (entry : ConversationEntry)
  | conversationAppended (entry : ConversationEntry)
  deriving Repr, DecidableEq

/-- An open websocket, with the events on their way. -/
structure SessionStream (α : Type) where
  sessionId : String
  queue : List (StreamEvent α)
  deriving Repr, DecidableEq

/-! ## What the shell shows -/

/-- A message of the chat, with where it comes from. -/
structure ChatMessage where
  id : String
  role : Role
  text : String
  createdAt : String
  streamed : Bool
  producedAt : Nat
  deriving Repr, DecidableEq

/-- A thread of the list; `marked` while it carries the loading mark of the shell. -/
structure ShownThread where
  thread : BroThread
  marked : Bool := false
  deriving Repr, DecidableEq

def ShownThread.threadId (shown : ShownThread) : String := shown.thread.threadId

/-- The snapshot that the lists show, and whether the stream brought it. -/
structure Shown (α : Type) where
  content : α
  streamed : Bool
  producedAt : Nat
  deriving Repr, DecidableEq

/-- `threadOpenKey` -/
structure OpenKey where
  targetPersonaId : String
  threadId : String
  deriving Repr, DecidableEq

/-- A call of `loadShellSession`, with the responses that it has. -/
structure ShellLoad (α : Type) where
  loadSequence : Nat
  sessionId : String
  snapshot : Option (SessionSnapshot α) := none
  conversation : Option ConversationSnapshot := none
  deriving Repr, DecidableEq

/-- What a load replaced and what it put there. -/
structure Commit (α : Type) where
  chatBefore : List ChatMessage
  shownBefore : Option (Shown α)
  conversation : ConversationSnapshot
  snapshot : SessionSnapshot α
  deriving Repr, DecidableEq

/-- The history of the server, its clock, and the shell. `threadOpenInFlight` is also the
calls of `openRuntimeBroThread` that wait; `commit` is what the last step did, if it was the
end of a load. -/
structure State (α : Type) where
  clock : Nat
  history : List ConversationEntry
  stream : Option (SessionStream α)
  loads : Table (ShellLoad.loadSequence (α := α))
  shellLoadSequence : Nat
  threadOpenInFlight : List OpenKey
  threadOpenLatestKey : Option OpenKey
  activeShellSessionId : Option String
  shown : Option (Shown α)
  broThreads : List ShownThread
  broTimelineTurns : List BroTimelineTurn
  chatMessages : List ChatMessage
  openingThreadId : Option String
  threadOpenError : Option String
  commit : Option (Commit α)

def initialState : State α :=
  { clock := 0, history := [], stream := none, loads := Table.empty, shellLoadSequence := 0,
    threadOpenInFlight := [], threadOpenLatestKey := none, activeShellSessionId := none,
    shown := none, broThreads := [], broTimelineTurns := [], chatMessages := [],
    openingThreadId := none, threadOpenError := none, commit := none }

inductive Label (α : Type) where
  | appendMessage (sessionId messageId : String) (role : Role) (text createdAt : String)
  | publishMessage (entry : ConversationEntry)
  | publishFallback (entry : ConversationEntry)
  | publishSnapshot (threads : List BroThread) (turns : List BroTimelineTurn) (content : α)
  | openStream
  | closeStream
  | onMessage
  | loadShellSession (sessionId : String)
  | serveSnapshot (loadSequence : Nat) (threads : List BroThread) (turns : List BroTimelineTurn)
      (content : α)
  | serveConversation (loadSequence : Nat)
  | finishLoad (loadSequence : Nat) (pages : List (List BroThread))
  | failLoad (loadSequence : Nat)
  | openThread (key : OpenKey)
  | pageArrives (key : OpenKey) (status : TimelineStatus) (error : Option String)
      (turns : List BroTimelineTurn)
  | openFails (key : OpenKey) (message : String)
  deriving Repr, DecidableEq

/-! ## Threads -/

def upsertThread (threads : List ShownThread) (thread : BroThread) : List ShownThread :=
  if threads.any (·.threadId = thread.threadId) = true then
    threads.map fun candidate =>
      if candidate.threadId = thread.threadId then ⟨thread, false⟩ else candidate
  else ⟨thread, false⟩ :: threads

def markThreadTimeline (threads : List ShownThread) (threadId : String) (status : TimelineStatus)
    (error : Option String) : List ShownThread :=
  threads.map fun candidate =>
    if candidate.threadId = threadId then
      { thread := { candidate.thread with timelineStatus := status, timelineError := error }
        marked := status = .loading }
    else candidate

def replaceTimelineTurnsForThread (turns : List BroTimelineTurn) (threadId : String)
    (nextTurns : List BroTimelineTurn) : List BroTimelineTurn :=
  (turns.filter fun turn => turn.threadId ≠ threadId) ++ nextTurns

namespace State

/-! ## The server -/

variable (s : State α) (sessionId : String)

def appendMessage (messageId : String) (role : Role)
    (text createdAt : String) : Option (State α) :=
  if s.history.any (·.messageId = messageId) = true then none
  else
    some { s with
      history := s.history ++ [⟨messageId, role, text, createdAt, sessionId, s.clock⟩] }

/-- `conversation_snapshot`, with the fifty entries of `get_recent`. -/
def conversationSnapshot : ConversationSnapshot :=
  let entries := s.history.filter (·.sessionId = sessionId)
  ⟨entries.drop (entries.length - 50), s.clock⟩

def broadcast (event : StreamEvent α) : Option (State α) :=
  s.stream.map fun stream =>
    { s with stream := some { stream with queue := stream.queue ++ [event] } }

variable (entry : ConversationEntry)

def publishMessage : Option (State α) :=
  if entry ∈ s.history then
    match entry.role with
    | .user => s.broadcast (.userMessageAppended entry)
    | .assistant => s.broadcast (.assistantResponseCompleted entry)
  else none

/-- A notification or the answer of a failed turn. -/
def publishFallback : Option (State α) :=
  if entry ∈ s.history ∧ entry.role = .assistant then s.broadcast (.conversationAppended entry)
  else none

/-! ## The stream -/

def openStream : Option (State α) :=
  s.activeShellSessionId.map fun sessionId => { s with stream := some ⟨sessionId, []⟩ }

def applySnapshot (snapshot : SessionSnapshot α) (streamed : Bool) : State α :=
  { s with
    shown := some ⟨snapshot.content, streamed, snapshot.producedAt⟩
    broThreads := snapshot.broThreads.map fun thread => { thread := thread }
    broTimelineTurns := snapshot.broTimelineTurns }

/-- The three handlers of a message leave out what the chat has already. -/
def appendChatMessage (role : Role) (entry : ConversationEntry) : State α :=
  if s.chatMessages.any (·.id = entry.messageId) = true then s
  else
    { s with
      chatMessages := s.chatMessages ++
        [⟨entry.messageId, role, entry.text, entry.createdAt, true, entry.producedAt⟩] }

def handleEvent : StreamEvent α → State α
  | .snapshot snapshot => s.applySnapshot snapshot true
  | .userMessageAppended entry => s.appendChatMessage .user entry
  | .assistantResponseCompleted entry => s.appendChatMessage .assistant entry
  | .conversationAppended entry => s.appendChatMessage .assistant entry

def onMessage : Option (State α) :=
  s.stream.bind fun stream =>
    match stream.queue with
    | [] => none
    | event :: queue => some ({ s with stream := some { stream with queue := queue } }.handleEvent
        event)

/-! ## Loading the session -/

/-- `loadShellSession`, up to its requests. -/
def loadShellSession : State α :=
  { s with
    shellLoadSequence := s.shellLoadSequence + 1
    loads := s.loads.put { loadSequence := s.shellLoadSequence + 1, sessionId := sessionId } }

variable (loadSequence : Nat)

def serveSnapshot (snapshot : SessionSnapshot α) :
    Option (State α) :=
  ((s.loads.get? loadSequence).filter (·.snapshot.isNone)).map fun load =>
    { s with loads := s.loads.put { load with snapshot := some snapshot } }

def serveConversation : Option (State α) :=
  ((s.loads.get? loadSequence).filter (·.conversation.isNone)).map fun load =>
    { s with
      loads := s.loads.put
        { load with conversation := some (s.conversationSnapshot load.sessionId) } }

def hydrate : ChatMessage :=
  ⟨entry.messageId, entry.role, entry.text, entry.createdAt, false, entry.producedAt⟩

/-- The transition at the end of `loadShellSession`. -/
def commitLoad (snapshot : SessionSnapshot α)
    (conversation : ConversationSnapshot) (pages : List (List BroThread)) : State α :=
  let shown := s.applySnapshot snapshot false
  { shown with
    activeShellSessionId := some sessionId
    broThreads := pages.foldl (fun threads page => page.foldl upsertThread threads)
      shown.broThreads
    chatMessages := conversation.conversationHistory.map hydrate
    commit := some ⟨s.chatMessages, s.shown, conversation, snapshot⟩ }

/-- The rest of `loadShellSession`: a load that is not the latest is dropped. -/
def finishLoad (pages : List (List BroThread)) :
    Option (State α) :=
  match s.loads.get? loadSequence with
  | some ⟨_, sessionId, some snapshot, some conversation⟩ =>
    let ended := { s with loads := s.loads.erase loadSequence }
    some (if s.shellLoadSequence = loadSequence then
        ended.commitLoad sessionId snapshot conversation pages
      else ended)
  | _ => none

/-- A request of the load fails. -/
def failLoad : Option (State α) :=
  (s.loads.get? loadSequence).map fun _ => { s with loads := s.loads.erase loadSequence }

/-! ## Opening a thread -/

variable (key : OpenKey)

/-- `openRuntimeBroThread`, up to its requests. -/
def openThread : State α :=
  if s.activeShellSessionId = none then s
  else
    let opening := { s with
      threadOpenLatestKey := some key
      openingThreadId := some key.threadId
      threadOpenError := none }
    if key ∈ s.threadOpenInFlight then opening
    else
      { opening with
        threadOpenInFlight := s.threadOpenInFlight ++ [key]
        broThreads := markThreadTimeline s.broThreads key.threadId .loading none }

/-- The `finally` clause. -/
def finishThreadOpen : State α :=
  { s with
    threadOpenInFlight := s.threadOpenInFlight.erase key
    openingThreadId :=
      if s.openingThreadId = some key.threadId then none else s.openingThreadId }

/-- The page is that of the thread which was asked for; one that is not the latest is dropped. -/
def pageArrives (thread : BroThread)
    (turns : List BroTimelineTurn) : State α :=
  if s.threadOpenLatestKey = some key then
    { s with
      broThreads := upsertThread s.broThreads thread
      broTimelineTurns := replaceTimelineTurnsForThread s.broTimelineTurns key.threadId turns
      }.finishThreadOpen key
  else s.finishThreadOpen key

def openFails (message : String) : State α :=
  if s.threadOpenLatestKey = some key then
    { s with
      broThreads := markThreadTimeline s.broThreads key.threadId .failed (some message)
      threadOpenError := some message }.finishThreadOpen key
  else s.finishThreadOpen key

def act : Label α → Option (State α)
  | .appendMessage sessionId messageId role text createdAt =>
    s.appendMessage sessionId messageId role text createdAt
  | .publishMessage entry => s.publishMessage entry
  | .publishFallback entry => s.publishFallback entry
  | .publishSnapshot threads turns content =>
    s.broadcast (.snapshot ⟨threads, turns, content, s.clock⟩)
  | .openStream => s.openStream
  | .closeStream => some { s with stream := none }
  | .onMessage => s.onMessage
  | .loadShellSession sessionId => some (s.loadShellSession sessionId)
  | .serveSnapshot loadSequence threads turns content =>
    s.serveSnapshot loadSequence ⟨threads, turns, content, s.clock⟩
  | .serveConversation loadSequence => s.serveConversation loadSequence
  | .finishLoad loadSequence pages => s.finishLoad loadSequence pages
  | .failLoad loadSequence => s.failLoad loadSequence
  | .openThread key => some (s.openThread key)
  | .pageArrives key status error turns =>
    if key ∈ s.threadOpenInFlight then
      some (s.pageArrives key ⟨key.threadId, status, error⟩ turns)
    else none
  | .openFails key message =>
    if key ∈ s.threadOpenInFlight then some (s.openFails key message) else none

def step (label : Label α) : Option (State α) :=
  (({ s with commit := none } : State α).act label).map fun s => { s with clock := s.clock + 1 }

/-! ## A view that never regresses -/

/-- A load takes no message out of the chat that the stream brought and that is younger than
its conversation. -/
def ChatKept : Prop :=
  ∀ commit, s.commit = some commit → ∀ message ∈ commit.chatBefore,
    message.streamed = true → commit.conversation.producedAt < message.producedAt →
      ∃ kept ∈ s.chatMessages, kept.id = message.id

/-- A load replaces no younger snapshot of the stream. -/
def ListsKept : Prop :=
  ∀ commit, s.commit = some commit → ∀ shown, commit.shownBefore = some shown →
    shown.streamed = true → shown.producedAt ≤ commit.snapshot.producedAt

/-- With no load in flight nothing is marked as loading. -/
def Settled : Prop :=
  s.loads.entries = [] → s.threadOpenInFlight = [] →
    (∀ shown ∈ s.broThreads, shown.marked = false) ∧ s.openingThreadId = none

/-- The latest load, with all its responses, finds nothing from the stream that is younger. -/
def CommitsNewest : Label α → Prop
  | .finishLoad loadSequence _ => ∀ load snapshot conversation,
    s.loads.get? loadSequence = some load → s.shellLoadSequence = loadSequence →
      load.snapshot = some snapshot → load.conversation = some conversation →
        (∀ message ∈ s.chatMessages, message.streamed = true →
          message.producedAt ≤ conversation.producedAt) ∧
        ∀ shown, s.shown = some shown → shown.streamed = true →
          shown.producedAt ≤ snapshot.producedAt
  | _ => True

/-- An open that ends is still the latest, or its thread has lost the mark by a snapshot. -/
def EndsLatest : Label α → Prop
  | .pageArrives key _ _ _ | .openFails key _ =>
    s.threadOpenLatestKey = some key ∨
      ∀ shown ∈ s.broThreads, shown.threadId = key.threadId → shown.marked = false
  | _ => True

end State

def system (α : Type) : System (State α) (Label α) where
  initial s := s = initialState
  step := State.step

end Newbro.WebShell
