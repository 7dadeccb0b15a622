import Newbro.Library.Effects
import Newbro.Protocol
import Newbro.StreamFragments

/-!
# The tool loop of a reply

`run_tool_calling` asks the model, carries out the tool calls of its reply and asks again, until a
reply is a text. A tool that raises `ToolInputError` is answered with the error; an argument string
that is no JSON raises out of the loop. The streamed form does the same with the calls and the text
that it has put together of the deltas, and differs in which text ends the loop.
-/
namespace Newbro.ToolCalling

open Library Library.Effect Protocol

/-! ## Replies -/

/-- The message of a completion: its content and its function calls. -/
structure Reply where
  content : Option String
  toolCalls : List ToolCall

/-- The delta of a chunk. -/
structure Delta where
  content : Option String := none
  toolCalls : List ToolCallDelta := []

/-- The chunks of a streamed completion; one without choices has no delta. -/
abbrev Chunks := List (Option Delta)

/-- What the loop makes of a reply: the content that goes with tool calls, the calls, and the text
that ends the loop where there are none, told in these pieces. -/
structure Round where
  content : Option String
  calls : List ToolCall
  text : Option String
  told : List String

def Reply.round (reply : Reply) : Round := ⟨reply.content, reply.toolCalls, reply.content, []⟩

variable (chunks : Chunks)

/-- The texts of the deltas. -/
def textChunks : List String :=
  (chunks.filterMap fun delta => delta.bind Delta.content).filter (· ≠ "")

/-- The tool call deltas, in their order. -/
def toolCallDeltas : List ToolCallDelta :=
  chunks.flatMap fun delta => (delta.map Delta.toolCalls).getD []

def streamedText : String := (textChunks chunks).foldr (· ++ ·) ""

def streamedCalls : List ToolCall :=
  finalizeToolCallChunks ((toolCallDeltas chunks).foldl accumulateToolCallDelta Table.empty)

def streamedRound : Round :=
  ⟨some (streamedText chunks), streamedCalls chunks,
    (some (streamedText chunks)).filter (· ≠ ""), textChunks chunks⟩

/-! ## The loop -/

/-- How a call of the tool runner ends. -/
inductive ToolOutcome (ρ : Type) where
  | answers (result : ρ)
  | inputError (payload : Fields)
  | raises (error : String)

/-- What `on_tool_call` is told. -/
inductive ToolEvent (ρ : Type) where
  | failed (name : String) (args error : Fields)
  | succeeded (name : String) (args : Fields) (result : ρ)

structure Invocation (ρ : Type) where
  name : String
  args : Fields
  result : ρ

/-- The json library, `_jsonable`, the tools and the callback, over the world that the tools
change. -/
structure Surroundings (σ ρ : Type) where
  loads : String → Except String Value
  dumps : Value → Except String String
  jsonable : ρ → Except String Value
  toolRunner : σ → String → Fields → ToolOutcome ρ × σ
  onToolCall : σ → ToolEvent ρ → Except String Unit × σ

/-- A message of a request: one that the caller has given, one of the assistant with tool calls, or
the answer to a call. -/
inductive ChatMessage where
  | given (message : Fields)
  | assistant (content : Option String) (toolCalls : List ToolCall)
  | tool (toolCallId content : String)

/-- Why a loop raises. -/
inductive Raised where
  | arguments (error : String)
  | tool (error : String)
  | callback (error : String)
  | message (error : String)
  | noReply
  deriving Repr, DecidableEq

/-- The state of a loop, with the calls of the tool runner, the requests that were sent and the
texts that were told. -/
structure Conversation (σ ρ : Type) where
  world : σ
  messages : List ChatMessage
  invocations : List (Invocation ρ) := []
  runnerCalls : List (String × Fields) := []
  requests : List (List ChatMessage) := []
  told : List String := []

abbrev Loop (σ ρ : Type) := Effect (Conversation σ ρ) Raised

variable {σ ρ α : Type}

/-- A part that may raise. -/
def orRaise (raised : String → Raised) : Except String α → Loop σ ρ α
  | .ok value => pure value
  | .error error => throw (raised error)

def parseToolArgs (loads : String → Except String Value) (raw : String) : Except String Fields :=
  (loads (if raw = "" then "\x7b\x7d" else raw)).map fun parsed => parsed.dict?.getD []

variable (e : Surroundings σ ρ)

def runTool (name : String) (args : Fields) : Loop σ ρ (ToolOutcome ρ) := do
  let before ← get
  let ended := e.toolRunner before.world name args
  modify fun c => { c with world := ended.2, runnerCalls := c.runnerCalls ++ [(name, args)] }
  pure ended.1

def emitToolCall (event : ToolEvent ρ) : Loop σ ρ Unit := do
  let before ← get
  let ended := e.onToolCall before.world event
  modify fun c => { c with world := ended.2 }
  orRaise .callback ended.1

/-- `_tool_message`, appended. -/
def appendToolMessage (toolCallId : String)
    (payload : Except String Value) : Loop σ ρ Unit := do
  let content ← orRaise .message (payload.bind e.dumps)
  modify fun c => { c with messages := c.messages ++ [.tool toolCallId content] }

/-- One tool call of a reply. -/
def answerCall (call : ToolCall) : Loop σ ρ Unit := do
  let args ← orRaise .arguments (parseToolArgs e.loads call.arguments)
  let outcome ← runTool e call.name args
  match outcome with
  | .raises error => throw (.tool error)
  | .inputError payload => do
      emitToolCall e (.failed call.name args payload)
      appendToolMessage e call.id (.ok (.dict [("error", .dict payload)]))
  | .answers result => do
      modify fun c => { c with invocations := c.invocations ++ [⟨call.name, args, result⟩] }
      emitToolCall e (.succeeded call.name args result)
      appendToolMessage e call.id (e.jsonable result)

/-- The tool calls of a reply, one after another. -/
def answerCalls (e : Surroundings σ ρ) : List ToolCall → Loop σ ρ Unit
  | [] => pure ()
  | call :: calls => do
      answerCall e call
      answerCalls e calls

/-- A request is sent. -/
def Conversation.ask (c : Conversation σ ρ) : Conversation σ ρ :=
  { c with requests := c.requests ++ [c.messages] }

/-- `_assistant_tool_call_message`, appended; an empty content is left out. -/
def Conversation.say (c : Conversation σ ρ) (round : Round) : Conversation σ ρ :=
  { c with messages := c.messages ++ [.assistant (round.content.filter (· ≠ "")) round.calls] }

/-- The loop, for at most so many rounds. -/
def rounds (e : Surroundings σ ρ) :
    Nat → (Nat → Round) → Loop σ ρ (String × List (Invocation ρ))
  | 0, _ => throw .noReply
  | count + 1, replies => do
      modify Conversation.ask
      if (replies 0).calls = [] then
        match (replies 0).text with
        | some text => do
            modify fun c => { c with told := c.told ++ (replies 0).told }
            let c ← get
            pure (Text.strip text, c.invocations)
        | none => rounds e count fun i => replies (i + 1)
      else do
        modify fun c => c.say (replies 0)
        answerCalls e (replies 0).calls
        rounds e count fun i => replies (i + 1)

/-- How a loop ends, and where it leaves the conversation. -/
abbrev Ended (σ ρ : Type) := Except Raised (String × List (Invocation ρ)) × Conversation σ ρ

def runToolCalling (maxRounds : Nat) (replies : Nat → Reply) (world : σ)
    (messages : List Fields) : Ended σ ρ :=
  exec (rounds e maxRounds fun i => (replies i).round)
    { world := world, messages := messages.map .given }

def runToolCallingStreamed (maxRounds : Nat) (replies : Nat → Chunks)
    (world : σ) (messages : List Fields) : Ended σ ρ :=
  exec (rounds e maxRounds fun i => streamedRound (replies i))
    { world := world, messages := messages.map .given }

end Newbro.ToolCalling
