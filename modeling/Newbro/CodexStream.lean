import Newbro.CodexEvents

/-!
# The stream of a Codex turn

`_stream_turn_events` over the events that the queue of a turn brings. It is to yield one
COMPLETED or FAILED event at most and nothing after it, to complete with the last answer of its
own turn, and to end with a question on every plan of plan mode. The first always holds. The
others fail where commentary comes last, where the thread that is read back does not have the
turn, and where a plan item is empty.
-/
namespace Newbro.CodexTurn

open Library Protocol
open Acpx (Json JsonFields)

/-! ## The stream -/

/-- What the app-server makes of `thread/read`. -/
inductive ThreadAnswer where
  | fails
  | answered (response : JsonFields)

/-- A call of `_stream_turn_events`, with the thread of its session and what the thread is when
it is read back. -/
structure StreamCall where
  str : Json → String
  turnId : String
  completedMessage : String
  planMode : Bool
  threadId : Option String
  threadRead : ThreadAnswer

/-- What `wait_for_blocked_resolution` returns. -/
inductive WaitOutcome where
  | resolved
  | aborted
  | timedOut
  deriving Repr, DecidableEq

inductive Ending where
  | listening
  | waiting
  | returned
  | raised (error : PyError)
  deriving Repr, DecidableEq

/-- The events that the stream has yielded, and where it is. -/
structure Streamed where
  yielded : List CodexEvent
  ending : Ending
  deriving Repr, DecidableEq

def Streamed.after (told : List CodexEvent) (s : Streamed) : Streamed :=
  ⟨told ++ s.yielded, s.ending⟩

def readFinalAssistantMessage (call : StreamCall) : Except PyError (Option String) :=
  if Text.orElse call.threadId "" = "" then .ok none
  else
    match call.threadRead with
    | .fails => .ok none
    | .answered response => extractAssistantTextFromThread response call.turnId

/-- What becomes of the loop with an event. -/
inductive LoopStep where
  | readOn (st : StreamState) (told : List CodexEvent)
  | awaitAnswer (st : StreamState) (question : CodexEvent)
  | stop (told : List CodexEvent) (ending : Ending)

def proposalEvent : CodexEvent :=
  ⟨.blocked, some "Review the proposed plan before execution."⟩

def timedOutEvent : CodexEvent := ⟨.failed, some "Timed out waiting for user input."⟩

def completedEvent (call : StreamCall) (text : Option String) : CodexEvent :=
  ⟨.completed, some (Text.orElse text call.completedMessage)⟩

/-- The body of the loop. -/
def loopStep (call : StreamCall) (st : StreamState) (event : AppEvent) : LoopStep :=
  match notificationOf call.str call.planMode event with
  | .error error => .stop [] (.raised error)
  | .ok notification =>
    let reaction := react st call.planMode call.turnId call.completedMessage notification
    match reaction.2 with
    | .skip => .readOn reaction.1 []
    | .tell event => .readOn reaction.1 [event]
    | .propose plan => .stop [plan, proposalEvent] .returned
    | .ask question => .awaitAnswer reaction.1 question
    | .finish event => .stop [event] .returned
    | .readFinalMessage =>
      match readFinalAssistantMessage call with
      | .error error => .stop [] (.raised error)
      | .ok text => .stop [completedEvent call text] .returned

/-- `_stream_turn_events`: what it yields for the events of its queue, when its waits for an
answer end in the given way. -/
@[grind =] def streamTurnEvents (call : StreamCall) :
    StreamState → List AppEvent → List WaitOutcome → Streamed
  | _, [], _ => ⟨[], .listening⟩
  | st, event :: events, waits =>
    match loopStep call st event with
    | .readOn st told => (streamTurnEvents call st events waits).after told
    | .stop told ending => ⟨told, ending⟩
    | .awaitAnswer st question =>
      match waits with
      | [] => ⟨[question], .waiting⟩
      | .resolved :: waits => (streamTurnEvents call st events waits).after [question]
      | .aborted :: _ => ⟨[question], .returned⟩
      | .timedOut :: _ => ⟨[question, timedOutEvent], .returned⟩

/-! ## What the stream is to yield -/

/-- A message of the assistant that an item tells. -/
structure ToldMessage where
  text : String
  commentary : Bool
  deriving Repr, DecidableEq

def messageOf (item : JsonFields) : Option ToldMessage :=
  if (strField item "type").any assistantItemTypes.contains then
    (extractItemText item).map fun text => ⟨text, strField item "phase" = some "commentary"⟩
  else none

def messageIn (item : Json) : Option ToldMessage := item.dict?.bind messageOf

def itemOf (event : AppEvent) : Option JsonFields :=
  (dictField event "params").bind fun params => dictField params "item"

section Events

variable (call : StreamCall)

/-- The message that an event tells. -/
def toldMessage (event : AppEvent) : Option ToldMessage :=
  if itemMethods.contains (methodOf call.str event) then (itemOf event).bind messageOf else none

/-- The item of an event is a plan that is completed. -/
def isPlanItem (event : AppEvent) : Bool :=
  methodOf call.str event = "item/completed" &&
    (itemOf event).any fun item => strField item "type" = some "plan"

/-- There is something to review in the plan of an event. -/
def holdsPlan (event : AppEvent) : Bool := ((itemOf event).bind extractCodexPlanItem).isSome

/-- The `turn` of an event that the turn ends with. -/
def endingTurn (event : AppEvent) : Option (Option CompletedTurn) :=
  if methodOf call.str event = "turn/completed" then
    ((dictField event "params").map (completedTurnOf call.str)).filter fun turn =>
      turn.all fun turn => turn.id = some call.turnId
  else none

/-- The turn is completed with an event, and has not failed. -/
def completesTurn (event : AppEvent) : Bool :=
  (endingTurn call event).any fun turn => turn.bind CompletedTurn.status = some "completed"

/-- The messages that are told before the turn ends. -/
def toldMessages (events : List AppEvent) : List ToldMessage :=
  (events.takeWhile fun event => (endingTurn call event).isNone).filterMap (toldMessage call)

/-- The thread as it can be read back. -/
def threadReadBack : JsonFields :=
  match call.threadRead with
  | .answered response => if Text.orElse call.threadId "" = "" then [] else response
  | .fails => []

def messagesIn (turns : List JsonFields) : List ToldMessage :=
  (itemsOf turns).filterMap messageIn

/-- The messages of the turn in the thread. -/
def recordedMessages : List ToldMessage :=
  messagesIn (turnsNamed (threadReadBack call) call.turnId)

end Events

def answers (messages : List ToldMessage) : List ToldMessage :=
  messages.filter fun message => !message.commentary

/-- The last message that is no commentary: one that was told, else one of the record. -/
def lastAnswer (told recorded : List ToldMessage) : Option String :=
  ((answers told).getLast?.or (answers recorded).getLast?).map ToldMessage.text

def isEnd (event : CodexEvent) : Bool :=
  event.eventType = .completed || event.eventType = .failed

/-- The message of a COMPLETED event is the last answer of the turn, and never that of another
turn. -/
structure OwnAnswer (call : StreamCall) (told : List ToldMessage) (message : Option String) :
    Prop where
  answer : ∀ text, lastAnswer told (recordedMessages call) = some text → message = some text
  own : message = some call.completedMessage ∨
    ∃ own ∈ told ++ recordedMessages call, message = some own.text

/-- The event makes the stream end with a question, whatever comes after it. -/
def EndsWithQuestion (call : StreamCall) (before : List AppEvent) (event : AppEvent)
    (waits : List WaitOutcome) : Prop :=
  ∃ told message, ∀ after,
    streamTurnEvents call .empty (before ++ event :: after) waits =
      ⟨told ++ [⟨.blocked, message⟩], .returned⟩

/-- What the stream of a turn is to yield. -/
structure StreamLaw (call : StreamCall) (events : List AppEvent) (waits : List WaitOutcome) :
    Prop where
  once : ∀ event ∈ (streamTurnEvents call .empty events waits).yielded.dropLast,
    isEnd event = false
  completed : ∀ message,
    ⟨.completed, message⟩ ∈ (streamTurnEvents call .empty events waits).yielded →
      OwnAnswer call (toldMessages call events) message
  planned : call.planMode = true → ∀ before event after, events = before ++ event :: after →
    (streamTurnEvents call .empty before waits).ending = .listening →
      isPlanItem call event = true → EndsWithQuestion call before event waits

/-! ## When it does -/

/-- How the loop goes on after an event. -/
inductive EventKind where
  | passes
  | asks
  | closes
  deriving Repr, DecidableEq

def eventKind (call : StreamCall) (event : AppEvent) : EventKind :=
  match notificationOf call.str call.planMode event with
  | .error _ => .closes
  | .ok (.turnCompleted turn) =>
    if turn.all fun turn => turn.id = some call.turnId then .closes else .passes
  | .ok (.planItem (some _)) => if call.planMode then .closes else .passes
  | .ok (.request method _) => if isBlockedRequest method then .asks else .passes
  | .ok (.threadStatus statusType) => if statusType = some "systemError" then .closes else .passes
  | .ok _ => .passes

/-- The loop reads all the events, and goes on. -/
def goesOn (call : StreamCall) : List AppEvent → List WaitOutcome → Bool
  | [], _ => true
  | event :: events, waits =>
    match eventKind call event, waits with
    | .passes, waits => goesOn call events waits
    | .asks, .resolved :: waits => goesOn call events waits
    | _, _ => false

/-- Commentary is the last of the messages only where there is no answer, or the answer has the
same text. -/
def EndInAnswer (messages : List ToldMessage) (answer : Option String) : Prop :=
  ∀ last, messages.getLast? = some last → last.commentary = true →
    ∀ text, answer = some text → last.text = text

/-- The messages of all turns, of a thread that does not have the turn. -/
def messagesElsewhere (call : StreamCall) : List ToldMessage :=
  if (turnsNamed (threadReadBack call) call.turnId).isEmpty then
    messagesIn (turnsIn (threadReadBack call))
  else []

/-- The messages that are told end in an answer. Without any, those of the record do, and a
thread without the turn has no message, or its last one is the default text. -/
structure Answered (call : StreamCall) (told : List ToldMessage) : Prop where
  spoken : EndInAnswer told (lastAnswer told (recordedMessages call))
  record : told = [] → (∃ text, readFinalAssistantMessage call = .ok text) →
    EndInAnswer (recordedMessages call) (lastAnswer [] (recordedMessages call))
  elsewhere : told = [] → (∃ text, readFinalAssistantMessage call = .ok text) →
    ∀ other, (messagesElsewhere call).getLast? = some other → other.text = call.completedMessage

/-- The events under which the stream yields what it is to. -/
structure Answerable (call : StreamCall) (events : List AppEvent) (waits : List WaitOutcome) :
    Prop where
  planned : call.planMode = true → ∀ before event after, events = before ++ event :: after →
    goesOn call before waits = true → isPlanItem call event = true → holdsPlan event = true
  completed : ∀ before event after, events = before ++ event :: after →
    goesOn call before waits = true → completesTurn call event = true →
      Answered call (before.filterMap (toldMessage call))

/-! ## What an event does -/

/-- The notifications that neither tell a message, nor bring a plan item, nor end a turn. -/
def Notification.isPlain : Notification → Bool
  | .turnCompleted _ => false
  | .planItem _ => false
  | .messageItem _ _ _ => false
  | _ => true

/-- The notification in an event, by the event's method. -/
inductive Found (call : StreamCall) (event : AppEvent) : Except PyError Notification → Prop
  | turn {params : JsonFields} :
      methodOf call.str event = "turn/completed" → dictField event "params" = some params →
        Found call event (.ok (.turnCompleted (completedTurnOf call.str params)))
  | item {item : JsonFields} :
      itemMethods.contains (methodOf call.str event) = true → itemOf event = some item →
        Found call event (itemNotification (methodOf call.str event = "item/completed") item)
  | plain {notification : Notification} :
      endingTurn call event = none →
        (itemMethods.contains (methodOf call.str event) = true → itemOf event = none) →
          notification.isPlain = true → Found call event (.ok notification)
  | raised {error : PyError} :
      endingTurn call event = none → itemMethods.contains (methodOf call.str event) = false →
        Found call event (.error error)

section found

variable {call : StreamCall} {event : AppEvent}

theorem isPlain_planDeltaOf (params : JsonFields) : (planDeltaOf params).isPlain = true := by
  unfold planDeltaOf
  split <;> rfl

theorem isPlain_messageDeltaOf (params : JsonFields) : (messageDeltaOf params).isPlain = true := by
  unfold messageDeltaOf
  split <;> rfl

theorem endingTurn_of_method_ne (h : methodOf call.str event ≠ "turn/completed") :
    endingTurn call event = none := if_neg h

theorem found (call : StreamCall) (event : AppEvent) :
    Found call event (notificationOf call.str call.planMode event) := by
  unfold notificationOf
  cases hparams : dictField event "params" with
  | none =>
    refine .plain ?_ (fun _ => ?_) rfl
    · simp [endingTurn, hparams]
    · simp [itemOf, hparams]
  | some params =>
    dsimp only
    unfold notificationIn
    by_cases hturn : methodOf call.str event = "turn/completed"
    · rw [if_pos hturn]
      exact .turn hturn hparams
    have hending := endingTurn_of_method_ne hturn
    rw [if_neg hturn]
    by_cases hitem : itemMethods.contains (methodOf call.str event) = true
    · have hmethods : methodOf call.str event = "item/started" ∨
          methodOf call.str event = "item/completed" := by
        simpa [itemMethods] using hitem
      have hitems : ∀ α : Type, ∀ a b c d e : α,
          (if methodOf call.str event = "error" then a
            else if methodOf call.str event = "turn/plan/updated" then b
            else if methodOf call.str event = "item/plan/delta" then c
            else if methodOf call.str event = "item/agentMessage/delta" then d
            else e) = e := by
        intro α a b c d e
        rcases hmethods with h | h <;> rw [h] <;> rfl
      rw [hitems, if_pos hitem]
      cases hfield : dictField params "item" with
      | none => exact .plain hending (fun _ => by simp [itemOf, hparams, hfield]) rfl
      | some item => exact .item hitem (by simp [itemOf, hparams, hfield])
    · have hnone : itemMethods.contains (methodOf call.str event) = true →
          itemOf event = none := fun h => absurd h hitem
      have hplain : ∀ notification : Notification, notification.isPlain = true →
          Found call event (.ok notification) := fun _ h => .plain hending hnone h
      rw [if_neg hitem]
      split_ifs
      · exact hplain _ rfl
      · exact hplain _ rfl
      · exact hplain _ (isPlain_planDeltaOf params)
      · exact hplain _ (isPlain_messageDeltaOf params)
      · cases blockedMessage call.planMode (methodOf call.str event) params with
        | error error => exact .raised hending (by simpa using hitem)
        | ok message => exact hplain _ rfl
      · exact hplain _ rfl
      · exact hplain _ rfl

theorem toldMessage_of_method (h : itemMethods.contains (methodOf call.str event) = false) :
    toldMessage call event = none := by
  rw [toldMessage, h]
  rfl

theorem toldMessage_of_item (h : itemOf event = none) : toldMessage call event = none := by
  rw [toldMessage, h]
  exact ite_self none

theorem isPlanItem_of_method (h : itemMethods.contains (methodOf call.str event) = false) :
    isPlanItem call event = false := by
  have hne : methodOf call.str event ≠ "item/completed" := by
    intro heq
    rw [heq] at h
    exact absurd h (by decide)
  simp [isPlanItem, hne]

theorem isPlanItem_of_item (h : itemOf event = none) : isPlanItem call event = false := by
  simp [isPlanItem, h]

theorem endingTurn_of_item (h : itemMethods.contains (methodOf call.str event) = true) :
    endingTurn call event = none := by
  refine endingTurn_of_method_ne fun heq => ?_
  rw [heq] at h
  exact absurd h (by decide)

theorem completesTurn_of_none (h : endingTurn call event = none) :
    completesTurn call event = false := by
  rw [completesTurn, h]
  rfl

end found

/-- The text that the stream completes with. -/
def finalText (call : StreamCall) (st : StreamState) : Except PyError (Option String) :=
  if Text.orElse st.lastAssistantMessage "" = "" then readFinalAssistantMessage call
  else .ok st.lastAssistantMessage

/-- The body of the loop, by the kind of the event. -/
inductive Stepped (call : StreamCall) (st : StreamState) (event : AppEvent) : LoopStep → Prop
  | passes {st' : StreamState} {told : List CodexEvent} :
      eventKind call event = .passes → (∀ event ∈ told, isEnd event = false) →
        st'.lastAssistantMessage =
          ((toldMessage call event).map ToldMessage.text).or st.lastAssistantMessage →
        (call.planMode = true → isPlanItem call event = true → holdsPlan event = false) →
          endingTurn call event = none → Stepped call st event (.readOn st' told)
  | asks {st' : StreamState} {question : CodexEvent} :
      eventKind call event = .asks → isEnd question = false →
        st'.lastAssistantMessage = st.lastAssistantMessage → toldMessage call event = none →
          isPlanItem call event = false → endingTurn call event = none →
            Stepped call st event (.awaitAnswer st' question)
  | fails {told : List CodexEvent} {ending : Ending} :
      eventKind call event = .closes → completesTurn call event = false →
        isPlanItem call event = false → told.length ≤ 1 →
          (∀ event ∈ told, event.eventType = .failed) → ending ≠ .listening →
            Stepped call st event (.stop told ending)
  | proposes {plan : CodexEvent} :
      eventKind call event = .closes → isPlanItem call event = true → holdsPlan event = true →
        endingTurn call event = none → isEnd plan = false →
          Stepped call st event (.stop [plan, proposalEvent] .returned)
  | completes {text : Option String} :
      eventKind call event = .closes → completesTurn call event = true →
        isPlanItem call event = false → finalText call st = .ok text →
          Stepped call st event (.stop [completedEvent call text] .returned)
  | unread {error : PyError} :
      eventKind call event = .closes → completesTurn call event = true →
        isPlanItem call event = false → finalText call st = .error error →
          Stepped call st event (.stop [] (.raised error))

/-- A reaction after which the loop reads on, with no message told. -/
structure ReadsOn (st : StreamState) (result : StreamState × Reaction) : Prop where
  message : result.1.lastAssistantMessage = st.lastAssistantMessage
  reaction : result.2 = .skip ∨ ∃ event, result.2 = .tell event ∧ isEnd event = false

variable (st : StreamState)

theorem readsOn_reactToPlanDelta (itemId delta : String) :
    ReadsOn st (reactToPlanDelta st itemId delta) := by
  unfold reactToPlanDelta
  split
  · exact ⟨rfl, .inl rfl⟩
  · dsimp only
    split
    · exact ⟨rfl, .inl rfl⟩
    · exact ⟨rfl, .inr ⟨_, rfl, rfl⟩⟩

theorem readsOn_reactToMessageDelta (itemId delta : String) :
    ReadsOn st (reactToMessageDelta st itemId delta) := by
  unfold reactToMessageDelta
  split
  · exact ⟨rfl, .inl rfl⟩
  split
  · exact ⟨rfl, .inl rfl⟩
  · dsimp only
    split
    · exact ⟨rfl, .inr ⟨_, rfl, rfl⟩⟩
    · exact ⟨rfl, .inl rfl⟩

theorem reactToMessageItem_cases (itemId phase text : Option String) (htext : text ≠ some "") :
    (reactToMessageItem st itemId phase text).1.lastAssistantMessage =
        text.or st.lastAssistantMessage ∧
      ((reactToMessageItem st itemId phase text).2 = .skip ∨
        ∃ event, (reactToMessageItem st itemId phase text).2 = .tell event ∧
          isEnd event = false) := by
  unfold reactToMessageItem
  cases text with
  | none => exact ⟨rfl, .inl rfl⟩
  | some text =>
    have hne : text ≠ "" := fun h => htext (congrArg some h)
    dsimp only
    rw [if_neg hne]
    split
    · exact ⟨rfl, .inl rfl⟩
    split
    · exact ⟨rfl, .inl rfl⟩
    · exact ⟨rfl, .inr ⟨_, rfl, rfl⟩⟩

theorem extractItemText_ne_empty (item : JsonFields) : extractItemText item ≠ some "" := by
  have hstripped : ∀ text : Option String, Text.stripped? text ≠ some "" := by
    intro text
    unfold Text.stripped?
    cases text with
    | none => simp
    | some text =>
      dsimp only
      split
      · simp
      · rename_i hne
        simpa using hne
  unfold extractItemText Acpx.optionalTrimmedString
  dsimp only
  cases htext : Text.stripped? ((item.lookup "text").bind Json.str?) with
  | none =>
    rw [Option.none_or]
    exact hstripped _
  | some text =>
    rw [Option.some_or, ← htext]
    exact hstripped _

variable {item : JsonFields} {assistant : Bool}

/-- The type of an item, where looking it up does not raise. -/
theorem any_of_lookUp (h : lookUpIn assistantItemTypes (item.lookup "type") = .ok assistant) :
    (strField item "type").any assistantItemTypes.contains = assistant := by
  unfold strField
  cases htype : item.lookup "type" with
  | none =>
    rw [htype] at h
    cases h
    rfl
  | some value =>
    rw [htype] at h
    cases value <;> first | (cases h; rfl) | cases h

theorem messageOf_of_lookUp
    (h : lookUpIn assistantItemTypes (item.lookup "type") = .ok assistant) :
    messageOf item = if assistant = true then
      (extractItemText item).map fun text => ⟨text, strField item "phase" = some "commentary"⟩
      else none := by
  rw [messageOf, any_of_lookUp h]

section stepped

variable {call : StreamCall} {event : AppEvent}

theorem loopStep_of_error {error : PyError} (st : StreamState)
    (h : notificationOf call.str call.planMode event = .error error) :
    loopStep call st event = .stop [] (.raised error) := by
  rw [loopStep, h]

/-- The body of the loop for a notification, by the loop's reaction. -/
def afterReaction (call : StreamCall) (reaction : StreamState × Reaction) : LoopStep :=
  match reaction.2 with
  | .skip => .readOn reaction.1 []
  | .tell event => .readOn reaction.1 [event]
  | .propose plan => .stop [plan, proposalEvent] .returned
  | .ask question => .awaitAnswer reaction.1 question
  | .finish event => .stop [event] .returned
  | .readFinalMessage =>
    match readFinalAssistantMessage call with
    | .error error => .stop [] (.raised error)
    | .ok text => .stop [completedEvent call text] .returned

theorem loopStep_of_ok {notification : Notification} (st : StreamState)
    (h : notificationOf call.str call.planMode event = .ok notification) :
    loopStep call st event = afterReaction call
      (react st call.planMode call.turnId call.completedMessage notification) := by
  rw [loopStep, h]
  rfl

theorem ReadsOn.stepped {st : StreamState} {result : StreamState × Reaction}
    (h : ReadsOn st result) (hkind : eventKind call event = .passes)
    (htold : toldMessage call event = none) (hplan : isPlanItem call event = false)
    (hending : endingTurn call event = none) :
    Stepped call st event (afterReaction call result) := by
  have hnoplan : call.planMode = true → isPlanItem call event = true → holdsPlan event = false :=
    fun _ hitem => absurd hitem (by simp [hplan])
  have hlast : result.1.lastAssistantMessage =
      ((toldMessage call event).map ToldMessage.text).or st.lastAssistantMessage := by
    rw [htold, h.message]
    rfl
  unfold afterReaction
  rcases h.reaction with hskip | ⟨told, htell, hquiet⟩
  · rw [hskip]
    exact .passes hkind (by simp) hlast hnoplan hending
  · rw [htell]
    refine .passes hkind (fun other hother => ?_) hlast hnoplan hending
    rwa [List.mem_singleton.mp hother]

/-- A notification that is plain makes the loop read on, ask, or fail. -/
theorem stepped_plain {notification : Notification} (st : StreamState)
    (hnotified : notificationOf call.str call.planMode event = .ok notification)
    (hplain : notification.isPlain = true) (htold : toldMessage call event = none)
    (hplan : isPlanItem call event = false) (hending : endingTurn call event = none) :
    Stepped call st event (loopStep call st event) := by
  have hskip : ReadsOn st (st, .skip) := ⟨rfl, .inl rfl⟩
  rw [loopStep_of_ok st hnotified]
  cases notification with
  | turnCompleted | planItem | messageItem => exact absurd hplain (by simp [Notification.isPlain])
  | error | otherItem => exact hskip.stepped (by simp [eventKind, hnotified]) htold hplan hending
  | planDelta itemId delta =>
    exact (readsOn_reactToPlanDelta st itemId delta).stepped
      (by simp [eventKind, hnotified]) htold hplan hending
  | messageDelta itemId delta =>
    exact (readsOn_reactToMessageDelta st itemId delta).stepped
      (by simp [eventKind, hnotified]) htold hplan hending
  | planUpdated plan =>
    have hpasses : eventKind call event = .passes := by simp [eventKind, hnotified]
    cases plan with
    | none => exact hskip.stepped hpasses htold hplan hending
    | some message =>
      have htell : ReadsOn st (st, .tell (planEvent message)) :=
        ⟨rfl, .inr ⟨_, rfl, rfl⟩⟩
      exact htell.stepped hpasses htold hplan hending
  | request method message =>
    cases hblocked : isBlockedRequest method with
    | true =>
      have hasks : eventKind call event = .asks := by simp [eventKind, hnotified, hblocked]
      simp only [react, hblocked, if_true]
      exact .asks hasks rfl rfl htold hplan hending
    | false =>
      have hpasses : eventKind call event = .passes := by simp [eventKind, hnotified, hblocked]
      simp only [react, hblocked]
      exact hskip.stepped hpasses htold hplan hending
  | threadStatus statusType =>
    by_cases herror : statusType = some "systemError"
    · have hcloses : eventKind call event = .closes := by simp [eventKind, hnotified, herror]
      simp only [react, herror, if_true]
      exact .fails hcloses (completesTurn_of_none hending) hplan (Nat.le_refl 1)
        (by simp) (by simp)
    · have hpasses : eventKind call event = .passes := by simp [eventKind, hnotified, herror]
      simp only [react, herror, if_false]
      exact hskip.stepped hpasses htold hplan hending

/-- The end of the turn, or of another one. -/
theorem stepped_turn {turn : Option CompletedTurn} (st : StreamState)
    (hnotified : notificationOf call.str call.planMode event = .ok (.turnCompleted turn))
    (hending : endingTurn call event =
      if turn.all fun turn => turn.id = some call.turnId then some turn else none)
    (htold : toldMessage call event = none) (hplan : isPlanItem call event = false) :
    Stepped call st event (loopStep call st event) := by
  have hskip : ReadsOn st (st, .skip) := ⟨rfl, .inl rfl⟩
  rw [loopStep_of_ok st hnotified]
  simp only [react, reactToCompletion]
  cases hown : turn.all fun turn => turn.id = some call.turnId with
  | false =>
    have hother : (turn.any fun turn => turn.id ≠ some call.turnId) = true := by
      cases turn with
      | none => simp at hown
      | some turn => simpa using hown
    have hpasses : eventKind call event = .passes := by simp [eventKind, hnotified, hown]
    rw [if_pos hother]
    rw [hown] at hending
    exact hskip.stepped hpasses htold hplan hending
  | true =>
    have hother : ¬ (turn.any fun turn => turn.id ≠ some call.turnId) = true := by
      cases turn with
      | none => simp
      | some turn => simpa using hown
    have hcloses : eventKind call event = .closes := by simp [eventKind, hnotified, hown]
    rw [if_neg hother]
    rw [hown] at hending
    have hcompletes : completesTurn call event =
        decide (turn.bind CompletedTurn.status = some "completed") := by
      rw [completesTurn, hending]
      rfl
    by_cases hstatus : turn.bind CompletedTurn.status = some "completed"
    · have hcompleted : completesTurn call event = true := by
        rw [hcompletes, hstatus]
        rfl
      rw [if_pos hstatus]
      by_cases hempty : Text.orElse st.lastAssistantMessage "" = ""
      · have hfinal : finalText call st = readFinalAssistantMessage call := if_pos hempty
        rw [if_pos hempty]
        unfold afterReaction
        dsimp only
        cases hread : readFinalAssistantMessage call with
        | error error => exact .unread hcloses hcompleted hplan (hfinal.trans hread)
        | ok text => exact .completes hcloses hcompleted hplan (hfinal.trans hread)
      · have hfinal : finalText call st = .ok st.lastAssistantMessage := if_neg hempty
        rw [if_neg hempty]
        exact .completes hcloses hcompleted hplan hfinal
    · have hfailed : completesTurn call event = false := by
        rw [hcompletes]
        simpa using hstatus
      rw [if_neg hstatus]
      exact .fails hcloses hfailed hplan (Nat.le_refl 1) (by simp) (by simp)

/-- A plan item that is completed. -/
theorem stepped_planItem (hnotified : notificationOf call.str call.planMode event =
      .ok (.planItem ((extractCodexPlanItem item).map codexPlanMessage)))
    (hitem : itemOf event = some item) (hplan : isPlanItem call event = true)
    (hnone : toldMessage call event = none) (hending : endingTurn call event = none) :
    Stepped call st event (loopStep call st event) := by
  have hholds : holdsPlan event = (extractCodexPlanItem item).isSome := by
    rw [holdsPlan, hitem]
    rfl
  have hlast : st.lastAssistantMessage =
      ((toldMessage call event).map ToldMessage.text).or st.lastAssistantMessage := by
    rw [hnone]
    rfl
  rw [loopStep_of_ok st hnotified]
  cases hextracted : extractCodexPlanItem item with
  | none =>
    rw [hextracted] at hnotified hholds
    have hpasses : eventKind call event = .passes := by simp [eventKind, hnotified]
    exact .passes hpasses (by simp) hlast (fun _ _ => hholds) hending
  | some plan =>
    rw [hextracted] at hnotified hholds
    have hkind : eventKind call event = if call.planMode = true then .closes else .passes := by
      simp only [eventKind, hnotified]
      rfl
    cases hmode : call.planMode with
    | true => exact .proposes (hkind.trans (if_pos hmode)) hplan hholds hending rfl
    | false =>
      exact .passes (hkind.trans (if_neg (by simp [hmode]))) (by simp [planEvent, isEnd])
        hlast (fun h => absurd h (by simp [hmode])) hending

/-- An item that may be a message of the assistant. -/
theorem stepped_messageItem
    (hnotified : notificationOf call.str call.planMode event = .ok (if assistant = true then
      .messageItem (strField item "id") (strField item "phase") (extractItemText item)
      else .otherItem))
    (hmessage : toldMessage call event = if assistant = true then
      (extractItemText item).map fun text => ⟨text, strField item "phase" = some "commentary"⟩
      else none)
    (hplan : isPlanItem call event = false) (hending : endingTurn call event = none) :
    Stepped call st event (loopStep call st event) := by
  rw [loopStep_of_ok st hnotified]
  cases assistant with
  | false =>
    have hskip : ReadsOn st (st, .skip) := ⟨rfl, .inl rfl⟩
    have hpasses : eventKind call event = .passes := by
      simp only [eventKind, hnotified]
      rfl
    exact hskip.stepped hpasses hmessage hplan hending
  | true =>
    have hpasses : eventKind call event = .passes := by
      simp only [eventKind, hnotified]
      rfl
    obtain ⟨hlast, hreaction⟩ := reactToMessageItem_cases st (strField item "id")
      (strField item "phase") (extractItemText item) (extractItemText_ne_empty item)
    have hlast' : (reactToMessageItem st (strField item "id") (strField item "phase")
        (extractItemText item)).1.lastAssistantMessage =
          ((toldMessage call event).map ToldMessage.text).or st.lastAssistantMessage := by
      rw [hlast, hmessage, if_pos rfl, Option.map_map]
      congr 1
      exact (Option.map_id' (x := extractItemText item)).symm
    have hnoplan : call.planMode = true → isPlanItem call event = true →
        holdsPlan event = false := fun _ h => absurd h (by simp [hplan])
    simp only [if_true, react, afterReaction]
    rcases hreaction with hskipped | ⟨told, htell, hquiet⟩
    · rw [hskipped]
      exact .passes hpasses (by simp) hlast' hnoplan hending
    · rw [htell]
      refine .passes hpasses (fun other hother => ?_) hlast' hnoplan hending
      rwa [List.mem_singleton.mp hother]

/-- An item that starts or completes. -/
theorem stepped_item (hnotified : notificationOf call.str call.planMode event =
      itemNotification (methodOf call.str event = "item/completed") item)
    (hmethod : itemMethods.contains (methodOf call.str event) = true)
    (hitem : itemOf event = some item) : Stepped call st event (loopStep call st event) := by
  have hending : endingTurn call event = none := endingTurn_of_item hmethod
  have htold : toldMessage call event = messageOf item := by
    rw [toldMessage, if_pos hmethod, hitem]
    rfl
  have hplan : isPlanItem call event =
      (methodOf call.str event = "item/completed" && strField item "type" = some "plan") := by
    rw [isPlanItem, hitem]
    rfl
  unfold itemNotification at hnotified
  rw [← hplan] at hnotified
  cases hitemPlan : isPlanItem call event with
  | true =>
    rw [hitemPlan, if_pos rfl] at hnotified
    have htype : strField item "type" = some "plan" := by
      have hboth := hplan.symm.trans hitemPlan
      simp only [Bool.and_eq_true, decide_eq_true_eq] at hboth
      exact hboth.2
    have hnone : toldMessage call event = none := by
      rw [htold, messageOf, htype]
      rfl
    exact stepped_planItem st hnotified hitem hitemPlan hnone hending
  | false =>
    rw [hitemPlan, if_neg (by simp)] at hnotified
    cases htypes : lookUpIn assistantItemTypes (item.lookup "type") with
    | error error =>
      rw [htypes] at hnotified
      have hcloses : eventKind call event = .closes := by
        simp only [eventKind, hnotified]
        rfl
      rw [loopStep_of_error st hnotified]
      exact .fails hcloses (completesTurn_of_none hending) hitemPlan (Nat.zero_le 1)
        (by simp) (by simp)
    | ok assistant =>
      rw [htypes] at hnotified
      have hmessage := htold.trans (messageOf_of_lookUp htypes)
      exact stepped_messageItem st hnotified hmessage hitemPlan hending

theorem stepped : Stepped call st event (loopStep call st event) := by
  have hfound := found call event
  generalize hnotified : notificationOf call.str call.planMode event = notified at hfound
  cases hfound with
  | @turn params hmethod hparams =>
    have hno : itemMethods.contains (methodOf call.str event) = false := by
      rw [hmethod]
      decide
    refine stepped_turn st hnotified ?_ (toldMessage_of_method hno) (isPlanItem_of_method hno)
    rw [endingTurn, if_pos hmethod, hparams]
    rfl
  | item hmethod hitem => exact stepped_item st hnotified hmethod hitem
  | plain hending hitem hplain =>
    cases hmethod : itemMethods.contains (methodOf call.str event) with
    | false =>
      exact stepped_plain st hnotified hplain (toldMessage_of_method hmethod)
        (isPlanItem_of_method hmethod) hending
    | true =>
      exact stepped_plain st hnotified hplain (toldMessage_of_item (hitem hmethod))
        (isPlanItem_of_item (hitem hmethod)) hending
  | @raised error hending hmethod =>
    have hcloses : eventKind call event = .closes := by simp [eventKind, hnotified]
    rw [loopStep_of_error st hnotified]
    exact .fails hcloses (completesTurn_of_none hending) (isPlanItem_of_method hmethod)
      (Nat.zero_le 1) (by simp) (by simp)

end stepped

end Newbro.CodexTurn
