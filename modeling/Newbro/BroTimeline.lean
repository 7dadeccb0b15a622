import Mathlib
import Newbro.BroThreads
import Newbro.ThreadProjection

/-!
# The timeline of a Bro

The tasks of a session as timeline turns (`_build_newbro_timeline_turns`), the client request
that a native turn of a selected thread is taken to answer, and the merge of both kinds of
turns into one timeline (`_build_bro_timeline_projection`). A time is parsed by a parameter,
which has no value for what is no time. The tests of a status go by its wire name, as a run
and a task have statuses of one name.
-/
namespace Newbro.BroTimeline

open Library Protocol BlockedRequests OutboundTurns
open BroThreads (taskThreadPublicId)

/-! ## Statuses -/

variable (task : Task) (run : Option ExecutionRun)

def threadStatus : String :=
  let status := (run.map fun run => run.status.value).getD task.status.value
  if status = "completed" then "completed"
  else if status = "failed" then "failed"
  else if ["cancelled", "stopped"].contains status then "cancelled"
  else if ["blocked", "waiting_user_input"].contains status then "blocked"
  else if ["running", "assigned"].contains status then "running"
  else if ["waiting_executor", "queued", "created"].contains status then "queued"
  else "pending"

def timelineStatus : TimelineStatus :=
  match threadStatus task run with
  | "blocked" => .running
  | "running" => .running
  | "completed" => .completed
  | "failed" => .failed
  | "cancelled" => .cancelled
  | _ => .pending

def timelineTaskProgress : TimelineStatus → Nat
  | .completed => 100
  | .running => 60
  | .failed => 30
  | .cancelled => 30
  | .pending => 15

def taskStatusLabel (status : String) : String :=
  String.ofList (status.toList.map fun c => if c = '_' then ' ' else c)

/-! ## What a task and its run say -/

def text? (text : Option String) : Option String := text.filter (· ≠ "")

variable (key : String)

def runMetadataDict : Fields :=
  ((run.bind fun run => Dict.lookup run.metadata key).bind Value.dict?).getD []

def eventMetadataString : Option String :=
  ["latest_terminal_event", "latest_progress_event", "blocked_event"].findSome? fun eventKey =>
    (Fields.str? (runMetadataDict run eventKey) key).filter fun text => Text.strip text ≠ ""

def taskUpdatedAt : Option String :=
  ["updated_at", "completed_at", "created_at"].findSome? task.metadata.nonemptyStr?

def taskInputModality : InputModality :=
  let sourceKind := task.metadata.str? "source_kind"
  if sourceKind = some "bro_detail_ptt" then .audio
  else if sourceKind = some "bro_detail_text" then .text
  else if (Dict.lookup task.metadata "source_audio_instruction_id").any Value.truthy then .audio
  else if (text? task.latestInstruction).isSome || task.goal ≠ "" then .text
  else .unknown

def directUserText : String :=
  let goal := Text.strip task.goal
  let title := Text.strip task.title
  let instruction := Text.strip (task.latestInstruction.getD "")
  match task.metadata.nonemptyStr? "user_visible_text" with
  | some visible => visible
  | none =>
    if instruction = "" then (if goal = "" then title else goal)
    else if goal ≠ "" ∧ goal.toList <:+: instruction.toList then goal
    else if title ≠ "" ∧ title.toList <:+: instruction.toList then title
    else instruction

def audioTranscriptForTask : Option String :=
  (task.metadata.nonemptyStr? "source_audio_instruction_id").bind fun audioId =>
    (Fields.text? (runMetadataDict run "audio_transcripts") audioId).or
      (Text.stripped? task.latestInstruction)

def summaryTextForTimeline
    (summary : Option TaskSummary) : String :=
  let ofSummary := summary.bind fun summary =>
    (text? summary.conversationalSummary).or (text? summary.operationalSummary)
  let ofRun := run.bind fun run =>
    [run.outputSummary, run.failureReason, run.blockReason, run.latestProgressMessage].findSome?
      text?
  (ofSummary.or ofRun).getD (Text.orElse (some task.goal) task.title)

/-- A field that is a text or nothing; no value for anything else. -/
def optionalText (fields : Fields) (key : String) : Option (Option String) :=
  match fields.lookup key with
  | none => some none
  | some .null => some none
  | some (.str text) => some (some text)
  | some _ => none

/-- `BroTimelinePlanStep` -/
def planStep? : Value → Option TimelinePlanStep
  | .dict fields => do
      let step ← Fields.str? fields "step"
      let status ← match fields.lookup "status" with
        | none => some "pending"
        | some (.str status) =>
          if ["pending", "inProgress", "completed"].contains status then some status else none
        | some _ => none
      some ⟨step, status⟩
  | _ => none

/-- `_timeline_plan`: a plan that is well formed and not empty. -/
def timelinePlan (value : Value) : Option TimelinePlan := do
  let fields ← value.dict?
  let text ← optionalText fields "text"
  let explanation ← optionalText fields "explanation"
  let steps ← match fields.lookup "steps" with
    | none => some []
    | some (.list items) => items.mapM planStep?
    | some _ => none
  if (text? text).isSome || (text? explanation).isSome || !steps.isEmpty then
    some ⟨text, explanation, steps⟩
  else none

def runTimelinePlan : Option TimelinePlan :=
  ((runMetadataDict run "latest_plan_event").lookup "codex_plan").bind timelinePlan

/-! ## The turn of a task -/

/-- The records of a session that its timeline is made of. -/
structure TimelineInputs where
  tasks : List Task
  sessions : List ExecutionSession
  runs : List ExecutionRun
  summaries : List TaskSummary

variable (inputs : TimelineInputs)

/-- The last run of a task. -/
def TimelineInputs.runOf (task : Task) : Option ExecutionRun :=
  (inputs.runs.filter fun run => run.taskId = task.taskId).getLast?

/-- The native thread of a task: named by its run, by the task, or by its session. -/
def TimelineInputs.executorThreadId (task : Task)
    (run : Option ExecutionRun) : Option String :=
  let session := run.bind fun run =>
    inputs.sessions.reverse.find? fun session => session.executionSessionId = run.executionSessionId
  let handle := session.bind ExecutionSession.latestResumeHandle
  (((eventMetadataString run "executor_thread_id").or (eventMetadataString run "thread_id")).or
      (task.metadata.nonemptyStr? "codex_import_thread_id")).or
    (handle.bind fun handle => text? handle.sessionHandle)

def planModeEntry (planMode : Bool) : Fields :=
  if planMode then [("plan_mode", .bool true)] else []

def sourceKindEntry : String × Value :=
  ("source_kind", (Dict.lookup task.metadata "source_kind").getD .null)

def newbroUserMessage (status : TimelineStatus)
    (planMode : Bool) : TimelineMessage :=
  let audio : Bool := taskInputModality task = .audio
  let userText := text? (some (directUserText task))
  { messageId := task.taskId ++ ":user"
    audio := audio
    text := if audio then none else userText
    transcript := if audio then (audioTranscriptForTask task run).or userText else none
    audioId := if audio then task.metadata.nonemptyStr? "source_audio_instruction_id" else none
    status := if status = .failed then "failed" else "sent"
    metadata := metadataOf (sourceKindEntry task :: planModeEntry planMode)
    createdAt := task.metadata.nonemptyStr? "created_at" }

def newbroAssistantMessage (status : TimelineStatus) :
    Option TimelineMessage :=
  let text := run.bind fun run =>
    [run.outputSummary, run.failureReason, run.blockReason, run.latestProgressMessage].findSome?
      text?
  text.map fun text =>
    { messageId := task.taskId ++ ":assistant"
      audio := false
      text := some text
      transcript := none
      audioId := none
      status := statusName status
      metadata := metadataOf [("source", .str "newbro_task")]
      createdAt := taskUpdatedAt task }

def timelineTask (summary : Option TaskSummary)
    (publicThreadId : String) (status : TimelineStatus) (planMode : Bool) : TimelineTask :=
  let taskStatus := (run.map fun run => run.status.value).getD task.status.value
  let summaryText := summaryTextForTimeline task run summary
  { taskId := task.taskId
    runId := run.map ExecutionRun.runId
    title := task.title
    status := taskStatus
    statusLabel := taskStatusLabel taskStatus
    progress := timelineTaskProgress status
    goal := text? (some (Text.strip task.goal))
    plan := runTimelinePlan run
    description := some summaryText
    summary := some summaryText
    metadata := metadataOf
      ([sourceKindEntry task, ("target_thread_id", .str publicThreadId)] ++
        planModeEntry planMode) }

/-- The turn of one task, if the task is in a thread of a persona. -/
def TimelineInputs.newbroTurn? (task : Task) : Option TimelineTurn := do
  let publicThreadId ← taskThreadPublicId task
  let personaId ← (task.metadata.nonemptyStr? "persona_id").or
    (task.metadata.nonemptyStr? "assigned_bro_id")
  let run := inputs.runOf task
  let summary := inputs.summaries.reverse.find? fun summary => summary.taskId = task.taskId
  let status := timelineStatus task run
  let clientRequestId := task.metadata.nonemptyStr? "client_request_id"
  let planMode : Bool := match Dict.lookup task.metadata "plan_mode" with
    | some (.bool true) => true
    | _ => false
  some
    { turnId := publicThreadId ++ ":newbro:" ++ clientRequestId.getD task.taskId
      threadId := publicThreadId
      personaId := personaId
      executorId := (text? task.preferredExecutor).getD
        ((run.map ExecutionRun.executorType).getD "codex")
      clientRequestId := clientRequestId
      executorThreadId := inputs.executorThreadId task run
      executorTurnId := (eventMetadataString run "executor_turn_id").or
        (eventMetadataString run "turn_id")
      inputModality := taskInputModality task
      user := some (newbroUserMessage task run status planMode)
      assistant := newbroAssistantMessage task run status
      status := status
      metadata := metadataOf
        ([("source", .str "newbro_task"), ("task_id", .str task.taskId)] ++
          planModeEntry planMode ++ (run.map fun run => ("run_id", .str run.runId)).toList)
      task := some (timelineTask task run summary publicThreadId status planMode)
      createdAt := task.metadata.nonemptyStr? "created_at"
      updatedAt := taskUpdatedAt task }

def buildNewbroTimelineTurns : List TimelineTurn :=
  inputs.tasks.filterMap inputs.newbroTurn?

/-! ## The client request of a native turn -/

variable (publicThreadId : String)

/-- A task that was started directly in the thread. -/
def isDirectTask (task : Task) : Bool :=
  taskThreadPublicId task = some publicThreadId &&
    ["bro_detail_text", "bro_detail_ptt"].contains
      ((task.metadata.nonemptyStr? "source_kind").getD "")

/-- The statuses of a task that is not over. -/
def isPending (status : TaskStatus) : Bool :=
  match status with
  | .created | .queued | .waitingExecutor | .running | .waitingUserInput => true
  | _ => false

/-- The client request of a task whose run names the native turn. -/
def exactClientRequestId (tasks : List Task) (runs : List ExecutionRun)
    (publicThreadId executorThreadId executorTurnId : String) : Option String :=
  runs.findSome? fun run => do
    let task ← tasks.reverse.find? fun task => task.taskId = run.taskId
    let threadId := (eventMetadataString (some run) "executor_thread_id").or
      (eventMetadataString (some run) "thread_id")
    let turnId := (eventMetadataString (some run) "executor_turn_id").or
      (eventMetadataString (some run) "turn_id")
    if isDirectTask publicThreadId task ∧ threadId = some executorThreadId ∧
        turnId = some executorTurnId then
      task.metadata.nonemptyStr? "client_request_id"
    else none

/-- The only one of these texts, if they are all the same. -/
def onlyText : List String → Option String
  | [] => none
  | first :: rest => if rest.all (· = first) then some first else none

/-- `client_request_id_for_selected_thread_turn`: else the one client request that is pending in
the thread, else the only one that the thread has. -/
def clientRequestIdForSelectedThreadTurn (tasks : List Task) (runs : List ExecutionRun)
    (publicThreadId executorThreadId executorTurnId : String) : Option String :=
  let direct := tasks.filter fun task =>
    isDirectTask publicThreadId task && (task.metadata.nonemptyStr? "client_request_id").isSome
  let requestsOf := fun tasks : List Task =>
    tasks.filterMap fun task => task.metadata.nonemptyStr? "client_request_id"
  (exactClientRequestId tasks runs publicThreadId executorThreadId executorTurnId).or
    ((onlyText (requestsOf (direct.filter fun task => isPending task.status))).or
      (onlyText (requestsOf direct)))

/-! ## One timeline -/

/-- The turns so far, and where an identity and a client request are found. -/
structure Merging where
  merged : Table TimelineTurn.turnId
  byExecutorIdentity : Dict (String × String × String) String
  byClientRequestId : Dict String String

namespace Merging

def empty : Merging := ⟨Table.empty, Table.empty, Table.empty⟩

variable (p : Merging) (turn : TimelineTurn)

def noteIdentity (turnId : String) : Merging :=
  match timelineIdentity turn with
  | some identity => { p with byExecutorIdentity := p.byExecutorIdentity.set identity turnId }
  | none => p

/-- A turn of its own: it is put under its id, its client request and its identity. -/
def keepTurn : Merging :=
  let kept := { p with merged := p.merged.put turn }
  let noted := match text? turn.clientRequestId with
    | some requestId =>
      { kept with byClientRequestId := kept.byClientRequestId.set requestId turn.turnId }
    | none => kept
  noted.noteIdentity turn turn.turnId

def byRequest : Option TimelineTurn :=
  ((text? turn.clientRequestId).bind p.byClientRequestId.lookup).bind p.merged.get?

def byIdentity : Option TimelineTurn :=
  ((timelineIdentity turn).bind p.byExecutorIdentity.lookup).bind p.merged.get?

/-- A turn of an executor: merged by its client request, else by its identity, else kept. -/
def placeExecutorTurn (lower : String → String) (p : Merging) (turn : TimelineTurn) : Merging :=
  match p.byRequest turn with
  | some existing =>
    let merged := mergeTimelineTurn lower existing turn
    ({ p with merged := p.merged.put merged } : Merging).noteIdentity merged existing.turnId
  | none =>
    match p.byIdentity turn with
    | some existing => { p with merged := p.merged.put (mergeTimelineTurn lower existing turn) }
    | none => p.keepTurn turn

end Merging

variable (parse : String → WithBot Int)

/-- The time of a turn and its id. -/
def timelineKey (turn : TimelineTurn) : WithBot Int ×ₗ String :=
  toLex (parse ((orText turn.createdAt turn.updatedAt).getD ""), turn.turnId)

def sortTimelineTurns (turns : List TimelineTurn) :
    List TimelineTurn :=
  turns.insertionSort fun a b => timelineKey parse a ≤ timelineKey parse b

/-- The two loops of `_build_bro_timeline_projection`. -/
def mergeTurns (lower : String → String) (newbro executorTurns : List TimelineTurn) : Merging :=
  executorTurns.foldl (Merging.placeExecutorTurn lower)
    (newbro.foldl Merging.keepTurn Merging.empty)

def buildBroTimelineProjection (lower : String → String) (parse : String → WithBot Int)
    (inputs : TimelineInputs) (executorTurns : List TimelineTurn) : List TimelineTurn :=
  sortTimelineTurns parse
    (mergeTurns lower (buildNewbroTimelineTurns inputs) executorTurns).merged.entries

end Newbro.BroTimeline
