import Newbro.ThreadEvents

/-!
# The history of a thread

The turns of a native thread as its history lists them (`_timeline_turns_from_codex_thread`).
The items of a turn are read as a whole. A turn with a user message only waits for a later one
that has none, and is listed as a turn of its own when none comes.
-/
namespace Newbro.OutboundTurns

open Library Protocol BlockedRequests
open BroTimeline (text?)

/-- The thread that is read, and how it is known to the session. -/
structure HistoryThread where
  publicThreadId : String
  executorThreadId : String
  personaId : String
  executorId : String := "codex"
  goal : Option String

/-- What the items of a turn come to. -/
structure ItemScan where
  user : Option TimelineMessage
  assistant : Option TimelineMessage
  plan : Option Fields
  hasPlanItem : Bool
  hasAssistantItem : Bool

namespace ItemScan

def empty : ItemScan := ⟨none, none, none, false, false⟩

end ItemScan

namespace HistoryThread

def message (thread : HistoryThread) (turnId : String) (timestamp : Option String)
    (role : ItemRole) (itemIndex : Nat) (item : Fields) (text : String) : TimelineMessage where
  messageId := thread.publicThreadId ++ ":" ++ turnId ++ ":" ++ role.name
  audio := false
  text := some text
  transcript := none
  audioId := none
  status := (nonempty? item "status").getD "completed"
  metadata := metadataOf
    [("executor_turn_id", .str turnId),
      ("codex_item_id", .str ((nonempty? item "id").getD ("item-" ++ toString itemIndex))),
      ("codex_item_type", optionValue (item.str? "type"))]
  createdAt := timestamp

/-- One item: the last message of each role and the last plan stand; commentary is no answer. -/
def scanItem (thread : HistoryThread) (lower : String → String) (turnId : String)
    (timestamp : Option String) (scan : ItemScan) (entry : Value × Nat) : ItemScan :=
  match entry.1 with
  | .dict item =>
    if Fields.str? item "type" = some "plan" then
      { scan with hasPlanItem := true, plan := extractCodexPlan lower item }
    else
      match codexItemRole item, extractCodexItemText item with
      | some .user, some text =>
        { scan with user := some (thread.message turnId timestamp .user entry.2 item text) }
      | some .assistant, some text =>
        if Fields.str? item "phase" = some "commentary" then
          { scan with hasAssistantItem := true }
        else
          { scan with
            hasAssistantItem := true
            assistant := some (thread.message turnId timestamp .assistant entry.2 item text) }
      | _, _ => scan
  | _ => scan

def scanItems (thread : HistoryThread) (lower : String → String) (turnId : String)
    (timestamp : Option String) (items : List Value) : ItemScan :=
  items.zipIdx.foldl (thread.scanItem lower turnId timestamp) ItemScan.empty

/-- The status of a turn in the history. -/
def turnStatus (lower : String → String) (turn : Fields) : TimelineStatus :=
  let status := lower ((turn.str? "status").getD "")
  if ["running", "inprogress", "in_progress"].contains status then .running
  else if status = "failed" then .failed
  else if ["cancelled", "canceled"].contains status then .cancelled
  else .completed

end HistoryThread

/-- A turn with a user message only, which waits for its answer. -/
structure PendingUser where
  message : TimelineMessage
  turnId : String
  timestamp : Option String

structure HistoryScan where
  turns : List TimelineTurn
  pending : Option PendingUser

namespace HistoryThread

variable (thread : HistoryThread)

def baseTurn (turnId : String) : TimelineTurn where
  turnId := thread.publicThreadId ++ ":" ++ thread.executorId ++ ":" ++ turnId
  threadId := thread.publicThreadId
  personaId := thread.personaId
  executorId := thread.executorId
  clientRequestId := none
  executorThreadId := some thread.executorThreadId
  executorTurnId := some turnId
  inputModality := .unknown
  user := none
  assistant := none
  status := .completed
  metadata := Table.empty

def appendUserOnlyTurn (scan : HistoryScan) : HistoryScan :=
  match scan.pending with
  | none => scan
  | some pending =>
    let turn : TimelineTurn :=
      { thread.baseTurn pending.turnId with
        inputModality := .text
        user := some pending.message
        metadata := metadataOf
          [("source", .str "native_history"),
            ("executor_thread_id", .str thread.executorThreadId),
            ("executor_turn_id", .str pending.turnId),
            ("assistant_title", optionValue pending.message.text),
            ("codex_goal", optionValue thread.goal)]
        createdAt := pending.timestamp
        updatedAt := pending.timestamp }
    ⟨scan.turns ++ [turn], none⟩

/-- A turn that is more than a user message. -/
def answeredTurn (lower : String → String) (turn : Fields)
    (turnId : String) (timestamp : Option String) (items : ItemScan)
    (paired : Option TimelineMessage) (originalTurnId : Option String) : TimelineTurn :=
  let planned := if items.hasPlanItem then paired.map markPlanMode else paired
  let user := planned.map (markSkill (turn.lookup "skill"))
  let plan := (items.plan.map Value.dict).getD .null
  let planMode := if items.hasPlanItem then [("plan_mode", Value.bool true)] else []
  { thread.baseTurn turnId with
    inputModality := if user.isSome then .text else .unknown
    user := user
    assistant := items.assistant
    status := turnStatus lower turn
    metadata := metadataOf
      ([("source", .str "native_history"),
        ("executor_thread_id", .str thread.executorThreadId),
        ("executor_turn_id", .str turnId),
        ("assistant_title", optionValue (user.bind TimelineMessage.text)),
        ("original_user_executor_turn_id", optionValue originalTurnId),
        ("codex_goal", optionValue thread.goal),
        ("codex_plan", plan)] ++ planMode)
    createdAt := (user.map TimelineMessage.createdAt).getD timestamp
    updatedAt := timestamp }

/-- The user's message of a turn: its own, or the one that waits for an answer. -/
def pairUser (scan : HistoryScan) (found : ItemScan) :
    HistoryScan × Option TimelineMessage × Option String :=
  match scan.pending with
  | none => (scan, found.user, none)
  | some pending =>
    if (found.assistant.isSome || found.hasPlanItem) && found.user.isNone then
      (⟨scan.turns, none⟩, some pending.message, some pending.turnId)
    else if found.assistant.isSome || found.hasAssistantItem then
      (thread.appendUserOnlyTurn scan, found.user, none)
    else (scan, found.user, none)

/-- One turn of the history. -/
def scanTurn (f : Formats) (scan : HistoryScan) (entry : Value × Nat) :
    HistoryScan :=
  match entry.1 with
  | .dict turn =>
    match Fields.list? turn "items" with
    | none => scan
    | some items =>
      let turnId := (nonempty? turn "id").getD ("turn-" ++ toString entry.2)
      let timestamp := threadTimestampFromTurn f turn
      let found := thread.scanItems f.lower turnId timestamp items
      if found.user.isNone && found.assistant.isNone && found.plan.isNone then scan
      else
        match found.user.filter fun _ => found.assistant.isNone && !found.hasPlanItem &&
            !found.hasAssistantItem with
        | some message =>
          ⟨(thread.appendUserOnlyTurn scan).turns, some ⟨message, turnId, timestamp⟩⟩
        | none =>
          let (scan, paired, originalTurnId) := thread.pairUser scan found
          ⟨scan.turns ++ [thread.answeredTurn f.lower turn turnId timestamp found paired
            originalTurnId], scan.pending⟩
  | _ => scan

def timelineTurnsFromCodexThread (f : Formats) (turns : List Value) :
    List TimelineTurn :=
  let scanned := turns.zipIdx.foldl (thread.scanTurn f) ⟨[], none⟩
  (thread.appendUserOnlyTurn scanned).turns

end HistoryThread

end Newbro.OutboundTurns
