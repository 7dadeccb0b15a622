import Newbro.BroTimeline

/-!
# The live events of a selected thread

What the events of a native thread do to the turns that are kept for it
(`apply_codex_thread_timeline_event`): the items of a turn as they start and complete, the
deltas of its messages and plans, the end of a turn, and the goal of the thread. The parsing of
times and of letters comes as parameters.
-/
namespace Newbro.OutboundTurns

open Library Protocol BlockedRequests
open BroTimeline (text? clientRequestIdForSelectedThreadTurn)

/-- `str.lower`, the parsed value of a time, and the text of a time given in seconds. -/
structure Formats where
  lower : String → String
  parse : String → WithBot Int
  isoFromEpochSeconds : Int → Option String

/-- `SelectedCodexThreadSubscription` -/
structure ThreadSubscription where
  publicThreadId : String
  personaId : String
  codexThreadId : String
  deriving Repr, DecidableEq

/-- `CodexThreadEventMessage`; `receivedAt` is the time at which it is handled. -/
structure CodexThreadEvent where
  method : String
  params : Fields
  receivedAt : String := ""

/-! ## Reading an item -/

def nonempty? (fields : Fields) (key : String) : Option String := text? (fields.str? key)

/-- `_thread_timestamp_from_turn`: the first of the keys that holds a time decides. -/
def threadTimestampFromTurn (f : Formats) (turn : Fields) : Option String :=
  let read := fun key : String => match turn.lookup key with
    | some (.str value) => if Text.strip value = "" then none else some (some value)
    | some (.int seconds) => some (f.isoFromEpochSeconds seconds)
    | some (.bool b) => some (f.isoFromEpochSeconds (if b then 1 else 0))
    | _ => none
  (["createdAt", "created_at", "timestamp", "updatedAt", "updated_at"].findSome? read).join

def codexThreadEventTimestamp (f : Formats) (event : CodexThreadEvent) : String :=
  let ofItem := (event.params.dict? "item").bind (threadTimestampFromTurn f)
  (text? ((threadTimestampFromTurn f event.params).or ofItem)).getD event.receivedAt

def contentText (item : Fields) : Option String :=
  let part : Value → Option String := fun
    | .dict fields => Fields.str? fields "text"
    | .str text => some text
    | _ => none
  (item.list? "content").bind fun content =>
    Text.stripped? (some (String.join (content.filterMap part)))

def extractCodexItemText (item : Fields) : Option String :=
  let payload := (item.dict? "payload").bind fun payload =>
    ["message", "text", "content"].findSome? (Fields.text? payload)
  (item.text? "text").or ((contentText item).or
    (payload.or (["message", "input"].findSome? item.text?)))

inductive ItemRole where
  | user | assistant
  deriving Repr, DecidableEq

def ItemRole.name : ItemRole → String
  | user => "user"
  | assistant => "assistant"

def codexItemRole (item : Fields) : Option ItemRole :=
  let type := (item.str? "type").getD ""
  if ["assistantMessage", "agentMessage"].contains type then some .assistant
  else if ["userMessage", "user_message"].contains type then some .user
  else if ((item.dict? "payload").bind fun payload => payload.str? "type") = some "user_message"
    then some .user
  else if item.str? "role" = some "user" then some .user
  else if item.str? "role" = some "assistant" then some .assistant
  else none

variable (lower : String → String)

def normalizeCodexPlanStatus (value : Option Value) : String :=
  let plain := fun text : String =>
    lower (String.ofList (text.toList.filter fun c => c ≠ '_' ∧ c ≠ '-'))
  match value with
  | some (.str text) =>
    if ["inprogress", "running", "active"].contains (plain text) then "inProgress"
    else if ["completed", "complete", "done"].contains (plain text) then "completed"
    else "pending"
  | _ => "pending"

def extractCodexPlanStep (value : Value) : Option Value :=
  match value with
  | .str text => (Text.stripped? (some text)).map fun step =>
    .dict [("step", .str step), ("status", .str "pending")]
  | .dict fields =>
    (["step", "text", "title", "description", "content"].findSome?
      (Fields.text? fields)).map fun step =>
        .dict [("step", .str step),
          ("status", .str (normalizeCodexPlanStatus lower (fields.lookup "status")))]
  | _ => none

def extractCodexPlan (item : Fields) : Option Fields :=
  let rawPlan := item.lookup "plan"
  let source := (rawPlan.bind Value.dict?).getD item
  let rawSteps := match rawPlan with
    | some (.dict plan) =>
      Value.orGet (Value.orGet (plan.lookup "plan") (plan.lookup "steps")) (plan.lookup "items")
    | _ => Value.orGet (Value.orGet rawPlan (item.lookup "steps")) (item.lookup "items")
  let steps := match rawSteps with
    | some (.list items) => items.filterMap (extractCodexPlanStep lower)
    | _ => []
  let text := (["text", "content"].findSome? (Fields.text? source)).or (extractCodexItemText item)
  let explanation := ["explanation", "summary"].findSome? (Fields.text? source)
  if steps.isEmpty && text.isNone && explanation.isNone then none
  else some ([("steps", .list steps)] ++ (text.map fun text => ("text", .str text)).toList ++
    (explanation.map fun text => ("explanation", .str text)).toList)

/-- `_mark_timeline_message_plan_mode` -/
def markPlanMode (message : TimelineMessage) : TimelineMessage :=
  { message with metadata := Dict.set message.metadata "plan_mode" (.bool true) }

/-- `_mark_timeline_message_skill` -/
def markSkill (skill : Option Value) (message : TimelineMessage) : TimelineMessage :=
  match skill with
  | some (.dict (entry :: rest)) =>
    { message with metadata := Dict.set message.metadata "skill" (.dict (entry :: rest)) }
  | _ => message

def codexThreadGoal (thread : Fields) : Option String :=
  (["goal", "objective"].findSome? thread.text?).or
    ((thread.dict? "goal").bind fun goal => ["text", "objective", "goal"].findSome? goal.text?)

/-! ## A turn of the thread -/

/-- Where an event of a turn belongs: the subscription, the turn, and what is known beside. -/
structure EventTurn where
  subscription : ThreadSubscription
  turnId : String
  clientRequestId : Option String
  codexGoal : Option String
  timestamp : String

def EventTurn.metadata (here : EventTurn) : Fields :=
  [("source", .str "selected_thread_event"),
    ("executor_thread_id", .str here.subscription.codexThreadId),
    ("executor_turn_id", .str here.turnId),
    ("client_request_id", optionValue here.clientRequestId),
    ("codex_goal", optionValue here.codexGoal)]

/-- The turn of an event that brings no message: it keeps the turn live. -/
def EventTurn.turn (here : EventTurn) : TimelineTurn where
  turnId := here.subscription.publicThreadId ++ ":codex:" ++ here.turnId
  threadId := here.subscription.publicThreadId
  personaId := here.subscription.personaId
  executorId := "codex"
  clientRequestId := here.clientRequestId
  executorThreadId := some here.subscription.codexThreadId
  executorTurnId := some here.turnId
  inputModality := .unknown
  user := none
  assistant := none
  status := .running
  metadata := metadataOf here.metadata
  createdAt := some here.timestamp
  updatedAt := some here.timestamp

def EventTurn.message (here : EventTurn) (role : ItemRole) (text status : String)
    (metadata : Fields) : TimelineMessage where
  messageId := here.subscription.publicThreadId ++ ":" ++ here.turnId ++ ":" ++ role.name
  audio := false
  text := some text
  transcript := none
  audioId := none
  status := status
  metadata := metadataOf metadata
  createdAt := some here.timestamp

def EventTurn.key (here : EventTurn) (itemId : String) : ItemKey :=
  (here.subscription.publicThreadId, here.turnId, itemId)

/-! ## What an event does -/

namespace ThreadProjection

/-- The last entry with a property, and the others. -/
def takeLast? {α : Type*} (p : α → Bool) : List α → Option (α × List α)
  | [] => none
  | a :: rest =>
    match takeLast? p rest with
    | some (b, rest') => some (b, a :: rest')
    | none => if p a then some (a, rest) else none

/-- The order of parsed times, a time that does not parse first. -/
def notAfter (a b : WithBot Int) : Bool := (WithBot.decidableLE a b).decide

variable (f : Formats)

/-- A turn with a user message only, which a plan of a later turn may answer. -/
def awaitsPlan (here : EventTurn) (candidate : TimelineTurn) : Bool :=
  candidate.executorId = "codex" &&
    candidate.executorThreadId = some here.subscription.codexThreadId &&
    candidate.executorTurnId ≠ some here.turnId && candidate.user.isSome &&
    candidate.assistant.isNone && candidate.task.isNone &&
    candidate.metadata.str? "source" = some "selected_thread_event" &&
    (match Dict.lookup candidate.metadata "codex_plan" with
      | none => true
      | some .null => true
      | some _ => false) &&
    notAfter (f.parse ((orText candidate.createdAt candidate.updatedAt).getD ""))
      (f.parse here.timestamp)

variable (s : ThreadProjection)

def popSelectedThreadPendingUserTurn (here : EventTurn) :
    ThreadProjection × Option TimelineMessage × Option String :=
  let threadId := here.subscription.publicThreadId
  match takeLast? (awaitsPlan f here) (s.turnsOf threadId) with
  | none => (s, none, none)
  | some (candidate, rest) =>
    let turns := s.broThreadExecutorTurns
    ({ s with
      broThreadExecutorTurns := if rest.isEmpty then turns.erase threadId
        else turns.set threadId rest }, candidate.user, candidate.executorTurnId)

/-- `_selected_thread_item_is_commentary` -/
def isCommentary (here : EventTurn) (itemId : Option String) : Bool :=
  (text? itemId).any fun itemId =>
    s.broThreadLiveItemPhase.lookup (here.key itemId) = some "commentary"

def keepSelectedThreadTurnLive (here : EventTurn) :
    ThreadProjection :=
  s.upsertBroThreadExecutorTurn f.lower here.turn

/-- A turn settles: it is completed, and so is an answer that still streams. -/
def settleTurn (lower : String → String) (turn : TimelineTurn) : TimelineTurn :=
  { turn with
    status := .completed
    assistant := turn.assistant.map fun message =>
      if isStreaming lower (some message) then { message with status := "completed" }
      else message }

def isOpenTurn (executorTurnId : String) (turn : TimelineTurn) : Bool :=
  turn.executorTurnId = some executorTurnId &&
    (turn.status = .pending || turn.status = .running)

def settleSelectedThreadTurn (lower : String → String) (s : ThreadProjection)
    (publicThreadId executorTurnId : String) : ThreadProjection × Bool :=
  let turns := s.turnsOf publicThreadId
  if turns.any (isOpenTurn executorTurnId) then
    (s.setTurns publicThreadId (turns.map fun turn =>
      if isOpenTurn executorTurnId turn then settleTurn lower turn else turn), true)
  else (s, false)

/-- The goal of the thread is written on all its turns. -/
def applyGoal (subscription : ThreadSubscription)
    (event : CodexThreadEvent) : ThreadProjection × Bool :=
  let threadId := subscription.publicThreadId
  let cleared : Bool := event.method = "thread/goal/cleared"
  let given := (Value.orGet (Value.orGet (event.params.lookup "goal") (event.params.lookup "text"))
    (event.params.lookup "objective")).bind Value.str?
  let goals :=
    if cleared then s.broThreadGoals.erase threadId
    else match (codexThreadGoal event.params).or (Text.stripped? given) with
      | some goal => s.broThreadGoals.set threadId goal
      | none => s.broThreadGoals
  let mark := fun turn : TimelineTurn =>
    { turn with
      metadata := if cleared then Table.erase turn.metadata "codex_goal"
        else Dict.set turn.metadata "codex_goal" (optionValue (Dict.lookup goals threadId)) }
  let marked := { s with broThreadGoals := goals }
  if (s.turnsOf threadId).isEmpty then (marked, false)
  else (marked.setTurns threadId ((s.turnsOf threadId).map mark), true)

/-- A plan item; a turn with only the user's message is taken for the question. -/
def applyPlanItem (here : EventTurn) (started : Bool)
    (item : Fields) : ThreadProjection × Bool :=
  match extractCodexPlan f.lower item with
  | none => (s, false)
  | some plan =>
    let (s, paired, originalTurnId) := s.popSelectedThreadPendingUserTurn f here
    let skill := paired.bind fun message => Dict.lookup message.metadata "skill"
    let title := paired.bind TimelineMessage.text
    let metadata := here.metadata ++
      [("codex_plan", .dict plan), ("plan_mode", .bool true),
        ("assistant_title", optionValue title),
        ("original_user_executor_turn_id", optionValue originalTurnId)]
    let turn : TimelineTurn :=
      { here.turn with
        inputModality := if paired.isSome then .text else .unknown
        user := paired.map fun message => markSkill skill (markPlanMode message)
        status := if started then .running else .completed
        metadata := metadataOf metadata
        createdAt := (paired.map TimelineMessage.createdAt).getD (some here.timestamp) }
    (s.upsertBroThreadExecutorTurn f.lower turn, true)

variable (item : Fields)

def itemStatus : String := (nonempty? item "status").getD "completed"

/-- The phase of a message is recorded, since its deltas carry none. -/
def recordPhase (here : EventTurn) (role : Option ItemRole)
    (item : Fields) : ThreadProjection :=
  match nonempty? item "id", nonempty? item "phase" with
  | some itemId, some phase =>
    if role = some .assistant then
      { s with
        broThreadLiveItemPhase := s.broThreadLiveItemPhase.set (here.key itemId) phase }
    else s
  | _, _ => s

/-- The turn that a message item brings. -/
def messageTurn (here : EventTurn) (role : ItemRole) (item : Fields) (text : String) :
    TimelineTurn :=
  let status := itemStatus item
  let message := here.message role text status
    [("executor_turn_id", .str here.turnId),
      ("codex_item_id", .str ((nonempty? item "id").getD "completed")),
      ("codex_item_type", optionValue (item.str? "type")),
      ("codex_agent_message_phase", optionValue (item.str? "phase")),
      ("source", .str "selected_thread_event")]
  match role with
  | .user => { here.turn with inputModality := .text, user := some message }
  | .assistant =>
    { here.turn with
      assistant := some message
      status := if ["running", "inProgress"].contains status then .running else .completed }

/-- A message item: commentary only keeps the turn live. -/
def applyMessageItem (here : EventTurn) (item : Fields) :
    ThreadProjection × Bool :=
  let s := s.recordPhase here (codexItemRole item) item
  match codexItemRole item with
  | none => (s, false)
  | some role =>
    if role = .assistant ∧ s.isCommentary here (item.str? "id") = true then
      (s.keepSelectedThreadTurnLive f here, true)
    else
      match extractCodexItemText item with
      | none => (s, false)
      | some text => (s.upsertBroThreadExecutorTurn f.lower (messageTurn here role item text), true)

/-- `_should_emit_selected_thread_plan_delta` -/
def shouldEmitPlanDelta (candidate previous : String) : Bool :=
  let ends := ["\n\n", ".", "。", "!", "！", "?", "？"].any fun ending =>
    ending.toList.isSuffixOf candidate.toList
  if candidate = previous then false
  else candidate.length - previous.length ≥ 240 || ends

/-- The item and the text of a delta. -/
def deltaOf (params : Fields) : Option (String × String) := do
  let itemId ← text? ((Value.orGet (params.lookup "itemId") (params.lookup "item_id")).bind
    Value.str?)
  let delta ← nonempty? params "delta"
  some (itemId, delta)

/-- A plan that streams in. -/
def applyPlanDelta (here : EventTurn) (params : Fields) :
    ThreadProjection × Bool :=
  match deltaOf params with
  | none => (s, false)
  | some (itemId, delta) =>
    let key := here.key itemId
    let text := (s.broThreadLivePlanDeltas.lookup key).getD "" ++ delta
    let s := { s with broThreadLivePlanDeltas := s.broThreadLivePlanDeltas.set key text }
    let candidate := Text.strip text
    let previous := (s.broThreadLivePlanEmittedText.lookup key).getD ""
    if candidate = "" || !shouldEmitPlanDelta candidate previous then (s, false)
    else
      let s := { s with
        broThreadLivePlanEmittedText := s.broThreadLivePlanEmittedText.set key candidate }
      let turn := { here.turn with
        metadata := metadataOf (here.metadata ++
          [("codex_plan", .dict [("text", .str text), ("steps", .list [])]),
            ("plan_mode", .bool true)]) }
      (s.upsertBroThreadExecutorTurn f.lower turn, true)

/-- A message that streams in. -/
def applyMessageDelta (here : EventTurn) (params : Fields) :
    ThreadProjection × Bool :=
  match deltaOf params with
  | none => (s, false)
  | some (itemId, delta) =>
    if s.isCommentary here (some itemId) then (s.keepSelectedThreadTurnLive f here, true)
    else
      let key := here.key itemId
      let text := (s.broThreadLiveMessageDeltas.lookup key).getD "" ++ delta
      let s := { s with broThreadLiveMessageDeltas := s.broThreadLiveMessageDeltas.set key text }
      let message := here.message .assistant text "running"
        [("executor_turn_id", .str here.turnId), ("codex_item_id", .str itemId),
          ("codex_item_type", .str "agentMessage"), ("source", .str "selected_thread_event")]
      (s.upsertBroThreadExecutorTurn f.lower { here.turn with assistant := some message }, true)

/-- An event of a turn: with an item, or a delta of one. -/
def applyTurnEvent (here : EventTurn)
    (event : CodexThreadEvent) : ThreadProjection × Bool :=
  match event.params.dict? "item" with
  | some item =>
    if item.str? "type" = some "plan" then
      s.applyPlanItem f here (event.method = "item/started") item
    else s.applyMessageItem f here item
  | none =>
    if event.method = "item/plan/delta" then s.applyPlanDelta f here event.params
    else if event.method = "item/agentMessage/delta" then s.applyMessageDelta f here event.params
    else (s, false)

/-- `apply_codex_thread_timeline_event`, and whether something changed. -/
def applyCodexThreadTimelineEvent (tasks : List Task) (runs : List ExecutionRun)
    (subscription : ThreadSubscription) (s : ThreadProjection) (event : CodexThreadEvent) :
    ThreadProjection × Bool :=
  if ["thread/goal/updated", "thread/goal/cleared"].contains event.method then
    s.applyGoal subscription event
  else if event.method = "turn/completed" then
    match (event.params.dict? "turn").bind fun turn => nonempty? turn "id" with
    | none => (s, false)
    | some turnId => s.settleSelectedThreadTurn f.lower subscription.publicThreadId turnId
  else
    match text? ((Value.orGet (event.params.lookup "turnId")
      (event.params.lookup "turn_id")).bind Value.str?) with
    | none => (s, false)
    | some turnId =>
      let here : EventTurn :=
        { subscription := subscription
          turnId := turnId
          clientRequestId := clientRequestIdForSelectedThreadTurn tasks runs
            subscription.publicThreadId subscription.codexThreadId turnId
          codexGoal := s.broThreadGoals.lookup subscription.publicThreadId
          timestamp := codexThreadEventTimestamp f event }
      s.applyTurnEvent f here event

end ThreadProjection

end Newbro.OutboundTurns
