import Newbro.Library.Table
import Newbro.Library.Text

/-!
# Protocol records

The enumerations and records that the session, its execution loop and the executor
nodes exchange. Identifiers are strings, as on the wire. The source field `opaque` is
called `opaqueFields` here.
-/
namespace Newbro.Protocol

open Library

/-- JSON-like values, as they occur in metadata. -/
inductive Value where
  | null
  | bool (b : Bool)
  | int (i : Int)
  | str (s : String)
  | list (items : List Value)
  | dict (fields : List (String × Value))
  deriving Repr

namespace Value

/-- The text of a string value: the `isinstance(value, str)` test of the source. -/
def str? : Value → Option String
  | str s => some s
  | _ => none

/-- The fields of a dictionary value: the `isinstance(value, dict)` test of the source. -/
def dict? : Value → Option (List (String × Value))
  | dict fields => some fields
  | _ => none

/-- The truth value of a JSON value. -/
def truthy : Value → Bool
  | null => false
  | bool b => b
  | int i => i ≠ 0
  | str s => s ≠ ""
  | list items => !items.isEmpty
  | dict fields => !fields.isEmpty

/-- `a or b`, for two results of `dict.get`. -/
def orGet (a b : Option Value) : Option Value := if a.any truthy then a else b

end Value

/-- The entries of a dictionary value. -/
abbrev Fields := List (String × Value)

namespace Fields

variable (fields : Fields) (key : String)

def str? : Option String :=
  (fields.lookup key).bind Value.str?

/-- `isinstance(value, str) and value.strip()`, and the stripped text. -/
def text? : Option String := Text.stripped? (fields.str? key)

def list? : Option (List Value) :=
  match fields.lookup key with
  | some (.list items) => some items
  | _ => none

def dict? : Option Fields := (fields.lookup key).bind Value.dict?

end Fields

abbrev Metadata := Dict String Value

variable (m : Metadata)

/-- `metadata.get(key)` when it is a string. -/
def Metadata.str? (key : String) : Option String :=
  (Dict.lookup m key).bind Value.str?

/-- `metadata.get(key)` when it is a nonempty string. -/
def Metadata.nonemptyStr? (key : String) : Option String :=
  (m.str? key).filter (· ≠ "")

theorem Metadata.str?_set_of_ne {key key' : String} (v : Value)
    (h : key' ≠ key) : Metadata.str? (Dict.set m key' v) key = m.str? key := by
  simp only [Metadata.str?]
  rw [Dict.lookup_set_of_ne m v h]

theorem Metadata.str?_erase_of_ne {key key' : String} (h : key' ≠ key) :
    Metadata.str? (Table.erase m key') key = m.str? key := by
  simp only [Metadata.str?]
  rw [Dict.lookup_erase_of_ne m h]

inductive TaskStatus where
  | created | queued | waitingExecutor | running | waitingUserInput | paused
  | completed | failed | cancelled | stopped
  deriving Repr, DecidableEq

inductive RunStatus where
  | created | assigned | waitingExecutor | running | blocked | paused
  | completed | failed | cancelled
  deriving Repr, DecidableEq

inductive BindingStatus where
  | created | claimed | active | paused | released
  deriving Repr, DecidableEq

inductive TaskCommandType where
  | pauseTask | cancelTask | preemptTask | resumeTask | retryTask
  deriving Repr, DecidableEq

inductive InteractionRequestKind where
  | permission | question | confirmation | planProposal
  deriving Repr, DecidableEq

inductive InteractionRequestStatus where
  | pending | approved | denied | answered | resolved | cancelled | expired
  deriving Repr, DecidableEq

inductive PersonaStatus where
  | idle | busy
  deriving Repr, DecidableEq

inductive ExecutorEventType where
  | progress | plan | waitingExecutor | blocked | completed | failed | cancelled
  deriving Repr, DecidableEq

/-- The wire name of an event type, recorded in execution details. -/
def ExecutorEventType.value : ExecutorEventType → String
  | progress => "progress"
  | plan => "plan"
  | waitingExecutor => "waiting_executor"
  | blocked => "blocked"
  | completed => "completed"
  | failed => "failed"
  | cancelled => "cancelled"

/-- The wire name of a task status. -/
def TaskStatus.value : TaskStatus → String
  | created => "created"
  | queued => "queued"
  | waitingExecutor => "waiting_executor"
  | running => "running"
  | waitingUserInput => "waiting_user_input"
  | paused => "paused"
  | completed => "completed"
  | failed => "failed"
  | cancelled => "cancelled"
  | stopped => "stopped"

/-- The wire name of a run status. -/
def RunStatus.value : RunStatus → String
  | created => "created"
  | assigned => "assigned"
  | waitingExecutor => "waiting_executor"
  | running => "running"
  | blocked => "blocked"
  | paused => "paused"
  | completed => "completed"
  | failed => "failed"
  | cancelled => "cancelled"

structure Task where
  taskId : String
  rootTaskId : String
  parentTaskId : Option String := none
  title : String
  goal : String
  status : TaskStatus := .created
  priority : Int := 5
  interruptible : Bool := true
  requiresConfirmation : Bool := false
  preferredExecutor : Option String := none
  sessionAffinity : Option String := none
  taskRevision : Nat := 0
  latestInstruction : Option String := none
  metadata : Metadata := Table.empty

/-- `task.metadata.get("persona_id")` when it is a string. -/
def Task.personaId (task : Task) : Option String := task.metadata.str? "persona_id"

structure ExecutionRun where
  runId : String
  taskId : String
  executionSessionId : String
  executorType : String
  status : RunStatus := .created
  claimedBy : Option String := none
  runRevision : Nat := 0
  latestProgressMessage : Option String := none
  outputSummary : Option String := none
  blockReason : Option String := none
  failureReason : Option String := none
  metadata : Metadata := Table.empty

structure AgentResumeHandle where
  executorId : String
  sessionHandle : Option String := none
  turnHandle : Option String := none
  opaqueFields : List (String × Value) := []

structure ExecutionSession where
  executionSessionId : String
  taskId : String
  baseExecutorId : String
  executorNodeId : Option String := none
  continuityKey : Option String := none
  runIds : List String := []
  activeRunId : Option String := none
  latestRunId : Option String := none
  latestResumeHandle : Option AgentResumeHandle := none

structure SessionBinding where
  taskId : String
  executionSessionId : Option String := none
  executorNodeId : Option String := none
  sessionId : Option String := none
  claimedBy : Option String := none
  claimExpiresAt : Option Nat := none
  executionRevision : Nat := 0
  bindingStatus : BindingStatus := .created
  deriving Repr, DecidableEq

structure TaskSummary where
  taskId : String
  operationalSummary : Option String := none
  conversationalSummary : Option String := none
  latestUserVisibleStatus : Option String := none
  needsUserInput : Bool := false
  deriving Repr, DecidableEq

structure Persona where
  personaId : String
  name : String
  avatar : String := ""
  basePrompt : String := ""
  executorNodeId : Option String := none
  broDetailSessionId : String := ""
  status : PersonaStatus := .idle
  deriving Repr, DecidableEq

structure TaskCommand where
  commandId : String
  taskId : String
  commandType : TaskCommandType
  createdBy : String
  reason : Option String := none
  deriving Repr, DecidableEq

structure InteractionRequest where
  requestId : String
  taskId : Option String := none
  outboundTurnRequestId : Option String := none
  executionSessionId : Option String := none
  runId : Option String := none
  executorType : Option String := none
  executorNodeId : Option String := none
  kind : InteractionRequestKind
  status : InteractionRequestStatus := .pending
  prompt : String
  details : Metadata := Table.empty
  availableActions : List String := []
  opaqueFields : Metadata := Table.empty

structure TaskExecutionDetailEntry where
  taskId : String
  runId : String
  executionSessionId : String
  eventType : String
  text : String
  payload : List (String × Value)

structure ExecutorEvent where
  runId : String
  sessionId : String
  eventType : ExecutorEventType
  message : Option String := none
  metadata : Metadata := Table.empty

/-- The session object of an executor. Of its metadata only `latest_resume_handle` is read;
every writer puts a dumped `AgentResumeHandle` there, so the entry is typed. -/
structure ExecutorSession where
  sessionId : String
  executorType : String
  latestResumeHandle : Option AgentResumeHandle := none

structure ExecutorCapabilities where
  executorType : String
  supportsResume : Bool := false
  supportsPause : Bool := false
  supportsCancel : Bool := true
  deriving Repr, DecidableEq

/-- Executors by their type, as `ExecutorRegistry.register` files them. -/
abbrev ExecutorRegistry := Table ExecutorCapabilities.executorType

end Newbro.Protocol
