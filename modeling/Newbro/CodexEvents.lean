import Newbro.AcpxEvents
import Newbro.CodexTurn

/-!
# The events of the Codex app-server

What the loop of `_stream_turn_events` finds in an event of the app-server: the notification
that it reacts to, or the exception that ends the loop. Plans are kept as far as their message
depends on them, and `str` is a parameter for values that are no texts.
-/
namespace Newbro.CodexTurn

open Library Protocol
open Acpx (Json JsonFields optionalTrimmedString firstText)

/-- An event as the app-server sends it: `method`, `params`, and the `id` of a request. -/
abbrev AppEvent := JsonFields

/-- The exceptions that a malformed event raises in the loop. -/
inductive PyError where
  /-- A list or a dict is looked up in a set. -/
  | unhashable
  /-- `chr` is given more than the last code point. -/
  | chrRange
  deriving Repr, DecidableEq

/-- `bool(value)`; a key that is missing is `None`. -/
def truthy : Option Json → Bool
  | none => false
  | some .null => false
  | some (.bool b) => b
  | some (.int i) => i ≠ 0
  | some (.float printed) => printed ≠ "0.0" && printed ≠ "-0.0"
  | some (.str s) => s ≠ ""
  | some (.list items) => !items.isEmpty
  | some (.dict fields) => !fields.isEmpty

/-- `a or b` -/
def orGet (a b : Option Json) : Option Json := if truthy a then a else b

def getNested : Option Json → List String → Option Json
  | value, [] => value
  | value, key :: keys =>
    (value.bind Json.dict?).bind fun fields => getNested (fields.lookup key) keys

variable (fields : JsonFields) (key : String)

def dictField : Option JsonFields :=
  (fields.lookup key).bind Json.dict?

def strField : Option String :=
  (fields.lookup key).bind Json.str?

def listField : List Json :=
  match fields.lookup key with
  | some (.list items) => items
  | _ => []

section Reading

variable (str : Json → String)

/-- `str(value)` -/
def textOf : Json → String
  | .str s => s
  | value => str value

/-- `str(event.get("method", ""))` -/
def methodOf (event : AppEvent) : String := ((event.lookup "method").map (textOf str)).getD ""

end Reading

/-! ## Items and plans -/

variable (item : JsonFields)

def extractItemText : Option String :=
  let part : Json → Option String := fun entry =>
    entry.dict?.bind fun fields => strField fields "text"
  let content := String.join ((listField item "content").filterMap part)
  (optionalTrimmedString (item.lookup "text")).or (Text.stripped? (some content))

structure CodexPlan where
  text : Option String
  explanation : Option String
  steps : List String

/-- `_extract_codex_plan_step` -/
def planStep : Json → Option String
  | .str text => Text.stripped? (some text)
  | .dict fields => firstText fields ["step", "text", "title", "description", "content"]
  | _ => none

/-- `_extract_codex_plan_steps` -/
def planSteps : Option Json → List String
  | some (.list items) => items.filterMap planStep
  | _ => []

/-- `_codex_plan_from_text` -/
def CodexPlan.ofText (text : String) : CodexPlan := ⟨Text.stripped? (some text), none, []⟩

variable (params : JsonFields)

def extractCodexStructuredPlan : Option CodexPlan :=
  let rawPlan := params.lookup "plan"
  let source := (rawPlan.bind Json.dict?).getD params
  let rawSteps := match rawPlan with
    | some (.dict plan) => orGet (orGet (plan.lookup "plan") (plan.lookup "steps"))
        (plan.lookup "items")
    | _ => orGet (orGet rawPlan (params.lookup "steps")) (params.lookup "items")
  let steps := planSteps rawSteps
  let explanation := firstText source ["explanation", "summary"]
  let text := firstText source ["text", "content"]
  if steps.isEmpty && explanation.isNone && text.isNone then none
  else some ⟨text, explanation, steps⟩

def extractCodexPlanItem : Option CodexPlan :=
  match extractCodexStructuredPlan item with
  | none => (extractItemText item).map CodexPlan.ofText
  | some plan => some { plan with text := plan.text.or (extractItemText item) }

def codexPlanMessage (plan : CodexPlan) : Option String :=
  let steps := plan.steps.filterMap fun step => Text.stripped? (some step)
  (Text.stripped? plan.text).or ((Text.stripped? plan.explanation).or
    (if steps.isEmpty then none else some ("\n".intercalate steps)))

/-! ## Requests -/

/-- The methods by which the user is asked for input. -/
def asksForInput (normalized : String) : Bool :=
  hasText "user_input" normalized || hasText "requestuserinput" normalized ||
    hasText "request_user_input" normalized ||
    (hasText "request" normalized && hasText "question" normalized)

def extractQuestionText : Option String :=
  let prompt : Json → Option String := fun question => question.dict?.bind fun fields =>
    optionalTrimmedString (orGet (fields.lookup "question") (fields.lookup "prompt"))
  (firstText params ["question", "message", "prompt"]).or
    ((listField params "questions").findSome? prompt)

/-- The option of a question that `_extract_plan_proposal` gives the letter `chr(65 + index)`. -/
def isLettered (option : Json) : Bool :=
  (option.dict?.bind fun fields => optionalTrimmedString (fields.lookup "label")).isSome

/-- `_extract_plan_proposal` comes to an option that no letter is left for. -/
def lettersFail : Bool :=
  (listField params "questions").any fun question =>
    question.dict?.any fun fields =>
      (listField fields "options").zipIdx.any fun entry =>
        isLettered entry.1 && 0x10ffff < 65 + entry.2

def commandText : Option String :=
  match params.lookup "command" with
  | some (.str command) => Text.stripped? (some command)
  | some (.list parts) =>
    let parts := (parts.filterMap Json.str?).filter fun part => Text.strip part ≠ ""
    if parts.isEmpty then none else some (" ".intercalate parts)
  | _ => none

def fileChangesText : Option String :=
  match params.lookup "fileChanges" with
  | some (.dict (change :: changes)) =>
    let names := (change :: changes).map Prod.fst
    some (", ".intercalate (names.take 3) ++ if names.length > 3 then "..." else "")
  | _ => none

def permissionsText : Option String :=
  (dictField params "permissions").bind fun permissions =>
    let parts := (if (dictField permissions "fileSystem").isSome then ["file system access"]
        else []) ++
      (if (dictField permissions "network").isSome then ["network access"] else [])
    if parts.isEmpty then none else some (", ".intercalate parts)

def extractApprovalText (normalized : String) (params : JsonFields) : String :=
  let text :=
    if ["item/commandexecution/requestapproval", "execcommandapproval"].contains normalized then
      ((commandText params).map fun command => "Allow command execution? " ++ command).getD
        "Codex needs approval to run a command."
    else if ["item/filechange/requestapproval", "applypatchapproval"].contains normalized then
      (((optionalTrimmedString (params.lookup "grantRoot")).map fun root =>
          "Allow file changes under " ++ root ++ "?").or
        ((fileChangesText params).map fun names => "Allow file changes to " ++ names ++ "?")).getD
        "Codex needs approval to change files."
    else if normalized = "item/permissions/requestapproval" then
      ((permissionsText params).map fun parts =>
        "Allow additional permissions: " ++ parts ++ "?").getD
        "Codex needs additional permissions to continue."
    else "Codex needs approval to continue."
  (optionalTrimmedString (params.lookup "reason")).getD text

/-- The message of `_extract_blocked_request`, for a method that it blocks on. -/
def blockedMessage (planMode : Bool) (method : String) (params : JsonFields) :
    Except PyError String :=
  let normalized := method.toLower
  if asksForInput normalized then
    if planMode && lettersFail params then .error .chrRange
    else .ok ((extractQuestionText params).getD "Codex is waiting for user input.")
  else .ok (extractApprovalText normalized params)

/-! ## Notifications -/

/-- A lookup of the value in a set of texts. -/
def lookUpIn (texts : List String) : Option Json → Except PyError Bool
  | some (.list _) => .error .unhashable
  | some (.dict _) => .error .unhashable
  | some (.str s) => .ok (texts.contains s)
  | _ => .ok false

def assistantItemTypes : List String := ["assistantMessage", "agentMessage"]

def planDeltaOf : Notification :=
  match orGet (params.lookup "itemId") (params.lookup "item_id"), params.lookup "delta" with
  | some (.str itemId), some (.str delta) => .planDelta itemId delta
  | _, _ => .otherItem

def messageDeltaOf : Notification :=
  match params.lookup "itemId", params.lookup "delta" with
  | some (.str itemId), some (.str delta) => .messageDelta itemId delta
  | _, _ => .otherItem

def completedTurnOf (str : Json → String) (params : JsonFields) : Option CompletedTurn :=
  (dictField params "turn").map fun turn =>
    { id := strField turn "id"
      status := strField turn "status"
      errorMessage :=
        let message := getNested (some (.dict turn)) ["error", "message"]
        if truthy message then message.map (textOf str) else none }

def itemNotification (completed : Bool) (item : JsonFields) : Except PyError Notification :=
  if completed && strField item "type" = some "plan" then
    .ok (.planItem ((extractCodexPlanItem item).map codexPlanMessage))
  else
    (lookUpIn assistantItemTypes (item.lookup "type")).map fun assistant =>
      if assistant then
        .messageItem (strField item "id") (strField item "phase") (extractItemText item)
      else .otherItem

def itemMethods : List String := ["item/started", "item/completed"]

/-- The notification in an event whose `params` are a dict. -/
def notificationIn (str : Json → String) (planMode : Bool) (method : String)
    (params : JsonFields) : Except PyError Notification :=
  if method = "turn/completed" then .ok (.turnCompleted (completedTurnOf str params))
  else if method = "error" then .ok .error
  else if method = "turn/plan/updated" then
    .ok (.planUpdated ((extractCodexStructuredPlan params).map codexPlanMessage))
  else if method = "item/plan/delta" then .ok (planDeltaOf params)
  else if method = "item/agentMessage/delta" then .ok (messageDeltaOf params)
  else if itemMethods.contains method then
    match dictField params "item" with
    | some item => itemNotification (method = "item/completed") item
    | none => .ok .otherItem
  else if isBlockedRequest method then
    (blockedMessage planMode method params).map (.request method)
  else if method = "thread/status/changed" then
    .ok (.threadStatus ((dictField params "status").bind fun status => strField status "type"))
  else .ok .otherItem

/-- What the loop finds in an event. -/
def notificationOf (str : Json → String) (planMode : Bool) (event : AppEvent) :
    Except PyError Notification :=
  match dictField event "params" with
  | some params => notificationIn str planMode (methodOf str event) params
  | none => .ok .otherItem

/-! ## Reading the thread back -/

def assistantText : List Json → Except PyError (Option String)
  | [] => .ok none
  | .dict item :: rest =>
    match lookUpIn assistantItemTypes (item.lookup "type") with
    | .error error => .error error
    | .ok true => ((extractItemText item).map fun text => .ok (some text)).getD
        (assistantText rest)
    | .ok false => assistantText rest
  | _ :: rest => assistantText rest

variable (response : JsonFields)

/-- The turns of a thread that are dicts. -/
def turnsIn : List JsonFields :=
  ((dictField response "thread").map fun thread =>
    (listField thread "turns").filterMap Json.dict?).getD []

/-- The turns with the id. -/
def turnsNamed (turnId : String) : List JsonFields :=
  (turnsIn response).filter fun turn => strField turn "id" = some turnId

def itemsOf (turns : List JsonFields) : List Json := turns.flatMap (listField · "items")

/-- `_extract_assistant_text_from_thread`: from the last item to the first. -/
def extractAssistantTextFromThread (targetTurnId : String) :
    Except PyError (Option String) :=
  let named := turnsNamed response targetTurnId
  assistantText (itemsOf (if named.isEmpty then turnsIn response else named)).reverse

end Newbro.CodexTurn
