import Newbro.NativeRequests

/-!
# The event lines of acpx

What a line on the standard output of an `acpx` prompt comes to
(`_parse_prompt_event_line`): text of the agent, a status, a tool call, or one of the ends of
the prompt. The `json` library is a parameter, a number keeps the text that Python prints.
-/
namespace Newbro.Acpx

open Library Protocol
open NativeRequests (isIn classifyWords kindName)

inductive Json where
  | null
  | bool (b : Bool)
  | int (i : Int)
  | float (printed : String)
  | str (s : String)
  | list (items : List Json)
  | dict (fields : List (String × Json))

abbrev JsonFields := List (String × Json)

namespace Json

def str? : Json → Option String
  | str s => some s
  | _ => none

def dict? : Json → Option JsonFields
  | dict fields => some fields
  | _ => none

/-- The text of a number, where `bool` is a kind of `int`. -/
def number? : Json → Option String
  | bool true => some "True"
  | bool false => some "False"
  | int i => some (toString i)
  | float printed => some printed
  | _ => none

end Json

/-- What `json.loads` does with a text: a value, a `JSONDecodeError`, or another exception. -/
inductive Loads where
  | value (json : Json)
  | decodeError
  | raises (error : String)

/-- The parts of Python that the parser is written with; `str` is the conversion of a value. -/
structure Python where
  lower : String → String
  loads : String → Loads
  str : Json → Except String String

def optionalString (value : Option Json) : Option String :=
  (value.bind Json.str?).filter (· ≠ "")

def optionalTrimmedString (value : Option Json) : Option String :=
  Text.stripped? (value.bind Json.str?)

variable (py : Python)

def safeParseJson (line : String) : Except String (Option JsonFields) :=
  match py.loads line with
  | .value json => .ok json.dict?
  | .decodeError => .ok none
  | .raises error => .error error

inductive PromptEvent where
  | textDelta (text : String) (output : Bool)
  | status (text : String)
  | toolCall (text : String)
  | blocked (message : String)
  | error (message : String) (code : Option String)
  | done (stopReason : Option String)
  deriving Repr, DecidableEq

def extractQuestionText (params : JsonFields) : Option String :=
  let asked := match params.lookup "questions" with
    | some (.list questions) => questions.findSome? fun question =>
      question.dict?.bind fun fields =>
        (optionalTrimmedString (fields.lookup "question")).or
          (optionalTrimmedString (fields.lookup "prompt"))
    | _ => none
  (["question", "message", "prompt"].findSome? fun key =>
    optionalTrimmedString (params.lookup key)).or asked

variable (parsed : JsonFields)

def parseBlockedEvent : Option PromptEvent := do
  let method ← optionalTrimmedString (parsed.lookup "method")
  let normalized := py.lower method
  guard (isIn "request_user_input" normalized ||
    (isIn "question" normalized && isIn "request" normalized))
  let text := ((parsed.lookup "params").bind Json.dict?).bind extractQuestionText
  some (.blocked (text.getD "Agent is waiting for user input."))

def parseTopLevelError :
    Except String (Option PromptEvent) :=
  match (parsed.lookup "error").bind Json.dict? with
  | none => .ok none
  | some error =>
    let message := (optionalTrimmedString (error.lookup "message")).getD "acpx runtime error"
    match error.lookup "code" with
    | none | some .null => .ok (some (.error message none))
    | some code => (py.str code).map fun code => some (.error message (some code))

def resolveStructuredPromptPayload : String × JsonFields :=
  let update := if optionalTrimmedString (parsed.lookup "method") = some "session/update" then
      (((parsed.lookup "params").bind Json.dict?).bind fun params => params.lookup "update").bind
        Json.dict?
    else none
  match update with
  | some update => ((optionalTrimmedString (update.lookup "sessionUpdate")).getD "", update)
  | none =>
    match optionalTrimmedString (parsed.lookup "sessionUpdate") with
    | some sessionUpdate => (sessionUpdate, parsed)
    | none => ((optionalTrimmedString (parsed.lookup "type")).getD "", parsed)

variable (payload : JsonFields)

def resolveTextChunk : Option String :=
  match (payload.lookup "content").bind Json.dict? with
  | none => optionalString (payload.lookup "text")
  | some content =>
    if (optionalTrimmedString (content.lookup "type")).any (· ≠ "text") then none
    else (optionalString (content.lookup "text")).or (optionalString (payload.lookup "text"))

/-- The first of the fields that holds a text. -/
def firstText (keys : List String) : Option String :=
  keys.findSome? fun key => optionalTrimmedString (payload.lookup key)

def resolveStatusText (structuredType : String) (payload : JsonFields) : Option String :=
  match structuredType with
  | "available_commands_update" =>
    match payload.lookup "availableCommands" with
    | some (.list (command :: commands)) =>
      some ("available commands updated (" ++ toString (command :: commands).length ++ ")")
    | _ => some "available commands updated"
  | "current_mode_update" =>
    match firstText payload ["currentModeId", "modeId", "mode"] with
    | some mode => some ("mode updated: " ++ mode)
    | none => some "mode updated"
  | "config_option_update" =>
    match firstText payload ["id", "configOptionId"],
        firstText payload ["currentValue", "value", "optionValue"] with
    | some configId, some value => some ("config updated: " ++ configId ++ "=" ++ value)
    | some configId, none => some ("config updated: " ++ configId)
    | none, _ => some "config updated"
  | "session_info_update" => some ((firstText payload ["summary", "message"]).getD
      "session updated")
  | "plan" =>
    match payload.lookup "entries" with
    | some (.list entries) => (entries.findSome? fun entry => entry.dict?.bind fun fields =>
      optionalTrimmedString (fields.lookup "content")).map ("plan: " ++ ·)
    | _ => none
  | "client_operation" =>
    let parts := ["method", "status", "summary"].filterMap fun key =>
      optionalTrimmedString (payload.lookup key)
    if parts.isEmpty then none else some (" ".intercalate parts)
  | "update" => optionalTrimmedString (payload.lookup "update")
  | _ => none

/-- The event of a structured payload. -/
def structuredEvent (structuredType : String) (payload : JsonFields) : Option PromptEvent :=
  if structuredType = "text" then
    (optionalString (payload.lookup "content")).map (.textDelta · true)
  else if structuredType = "thought" then
    (optionalString (payload.lookup "content")).map (.textDelta · false)
  else if structuredType = "agent_message_chunk" ∨ structuredType = "agent_thought_chunk" then
    (resolveTextChunk payload).map (.textDelta · (structuredType ≠ "agent_thought_chunk"))
  else if structuredType = "tool_call" ∨ structuredType = "tool_call_update" then
    let title := (optionalTrimmedString (payload.lookup "title")).getD "tool call"
    match optionalTrimmedString (payload.lookup "status") with
    | some status => some (.toolCall (title ++ " (" ++ status ++ ")"))
    | none => some (.toolCall title)
  else if structuredType = "usage_update" then
    match (payload.lookup "used").bind Json.number?, (payload.lookup "size").bind Json.number? with
    | some used, some size => some (.status ("usage updated: " ++ used ++ "/" ++ size))
    | _, _ => some (.status "usage updated")
  else if structuredType = "done" then
    some (.done (optionalTrimmedString (payload.lookup "stopReason")))
  else if structuredType = "error" then
    some (.error ((optionalTrimmedString (payload.lookup "message")).getD "acpx runtime error")
      (optionalTrimmedString (payload.lookup "code")))
  else (resolveStatusText structuredType payload).map .status

def parsePromptEventLine (line : String) : Except String (Option PromptEvent) :=
  if Text.strip line = "" then .ok none
  else do
    match ← safeParseJson py (Text.strip line) with
    | none => .ok (some (.status (Text.strip line)))
    | some parsed =>
      match parseBlockedEvent py parsed with
      | some blocked => .ok (some blocked)
      | none =>
        match ← parseTopLevelError py parsed with
        | some error => .ok (some error)
        | none =>
          let (structuredType, payload) := resolveStructuredPromptPayload parsed
          .ok (structuredEvent structuredType payload)

def classifyBlockedPrompt (prompt : String) : String :=
  kindName (classifyWords py.lower prompt)

end Newbro.Acpx
