import Newbro.Blackboard

/-!
# Runs and their events

`RunManager` creates the run of a claimed task and applies the events of an executor to
the task and the run. Both objects are shared with the store, so the update of a field
and the later `put` of the object are one change here.
-/
namespace Newbro.RunManager

open Library Protocol

/-- Record a fresh run of a task and make it the active one of its execution session. -/
def createRun (b : Blackboard) (task : Task) (session : ExecutionSession)
    (claimedBy : Option String) (executorType runId : String) : Blackboard :=
  let run : ExecutionRun :=
    { runId := runId
      taskId := task.taskId
      executionSessionId := session.executionSessionId
      executorType := executorType
      status := .assigned
      claimedBy := claimedBy
      runRevision := task.taskRevision }
  let session : ExecutionSession :=
    { session with
      runIds := session.runIds ++ [runId]
      activeRunId := some runId
      latestRunId := some runId }
  (b.putRun run).putSession session

/-- The status an applied event gives to the task. -/
def taskStatusOf : ExecutorEventType → TaskStatus
  | .progress => .running
  | .plan => .running
  | .waitingExecutor => .waitingExecutor
  | .blocked => .waitingUserInput
  | .completed => .completed
  | .failed => .failed
  | .cancelled => .cancelled

/-- The status an applied event gives to the run. -/
def runStatusOf : ExecutorEventType → RunStatus
  | .progress => .running
  | .plan => .running
  | .waitingExecutor => .waitingExecutor
  | .blocked => .blocked
  | .completed => .completed
  | .failed => .failed
  | .cancelled => .cancelled

/-- A progress message that is not blank and differs from the last one. -/
def isNewProgress (run : ExecutionRun) (event : ExecutorEvent) : Bool :=
  (Text.stripped? event.message).isSome && event.message ≠ run.latestProgressMessage

/-- Set a field of a dictionary value kept as a list of fields. -/
def setField (fields : List (String × Value)) (name : String) (value : Value) :
    List (String × Value) :=
  if fields.any (fun field => field.1 = name) then
    fields.map fun field => if field.1 = name then (name, value) else field
  else fields ++ [(name, value)]

theorem lookup_setField_self (fields : List (String × Value)) (name : String) (value : Value) :
    (setField fields name value).lookup name = some value := by
  rw [setField, lookup_setEntry, if_pos rfl]

theorem lookup_setField_of_ne (fields : List (String × Value)) {name name' : String} (value : Value)
    (h : name' ≠ name) : (setField fields name' value).lookup name = fields.lookup name := by
  rw [setField, lookup_setEntry, if_neg h]

theorem setField_ne_nil (fields : List (String × Value)) (name : String) (value : Value) :
    setField fields name value ≠ [] := by
  intro hnil
  have hself := lookup_setField_self fields name value
  rw [hnil] at hself
  cases hself

/-- Keep a whisper transcript under its audio instruction. -/
def recordTranscript (metadata : Metadata) (event : ExecutorEvent) : Metadata :=
  match event.metadata.nonemptyStr? "source_audio_instruction_id",
      Text.stripped? (event.metadata.str? "transcript_text") with
  | some audioId, some transcript =>
    let transcripts := ((Dict.lookup metadata "audio_transcripts").bind Value.dict?).getD []
    Dict.set metadata "audio_transcripts"
      (.dict (setField transcripts audioId (.str transcript)))
  | _, _ => metadata

/-- `if event.metadata: run.metadata[key] = dict(event.metadata)` -/
def recordEventMetadata (metadata : Metadata) (key : String) (event : ExecutorEvent) : Metadata :=
  if event.metadata.entries.isEmpty then metadata
  else Dict.set metadata key (.dict event.metadata.entries)

/-- The run after an applied event. -/
def updateRun (run : ExecutionRun) (event : ExecutorEvent) : ExecutionRun :=
  match event.eventType with
  | .progress =>
    { run with
      status := .running
      latestProgressMessage :=
        if isNewProgress run event then event.message else run.latestProgressMessage
      metadata :=
        if event.metadata.entries.isEmpty then run.metadata
        else recordTranscript (recordEventMetadata run.metadata "latest_progress_event" event)
          event }
  | .plan =>
    { run with
      status := .running
      metadata := recordEventMetadata run.metadata "latest_plan_event" event }
  | .waitingExecutor =>
    { run with
      status := .waitingExecutor
      latestProgressMessage :=
        if (Text.stripped? event.message).isSome then event.message
        else run.latestProgressMessage
      metadata := recordEventMetadata run.metadata "executor_wait_event" event }
  | .blocked =>
    { run with
      status := .blocked
      blockReason := event.message
      metadata := recordEventMetadata run.metadata "blocked_event" event }
  | .completed =>
    { run with
      status := .completed
      outputSummary := event.message
      metadata := recordEventMetadata run.metadata "latest_terminal_event" event }
  | .failed =>
    { run with
      status := .failed
      failureReason := event.message
      metadata := recordEventMetadata run.metadata "latest_terminal_event" event }
  | .cancelled => { run with status := .cancelled }

variable (task : Task) (event : ExecutorEvent)

/-- The text of the execution detail that an event leaves. -/
def detailText : String :=
  match Text.stripped? event.message with
  | some text => text
  | none =>
    match event.eventType with
    | .progress => "Running: " ++ task.title
    | .plan => "Plan updated: " ++ task.title
    | .waitingExecutor => "Waiting for executor: " ++ task.title
    | .blocked => "Blocked: " ++ task.title
    | .completed => "Completed: " ++ task.title
    | .failed => "Failed: " ++ task.title
    | .cancelled => "Cancelled: " ++ task.title

def detailEntry (run : ExecutionRun) (event : ExecutorEvent) :
    TaskExecutionDetailEntry :=
  { taskId := task.taskId
    runId := run.runId
    executionSessionId := run.executionSessionId
    eventType := event.eventType.value
    text := detailText task event
    payload :=
      [("session_id", .str event.sessionId),
        ("message", (event.message.map Value.str).getD .null),
        ("metadata", .dict event.metadata.entries)] }

/-- Every applied event leaves a detail, except a progress without news. -/
def appendsDetail (run : ExecutionRun) (event : ExecutorEvent) : Bool :=
  event.eventType ≠ .progress || isNewProgress run event

/-- A cancelled task takes no event but a cancellation. -/
def ignores : Bool :=
  task.status = .cancelled && event.eventType ≠ .cancelled

/-- Apply one executor event to a task and a run. -/
def applyEvent (b : Blackboard) (task : Task) (run : ExecutionRun) (event : ExecutorEvent) :
    Blackboard :=
  if ignores task event then b
  else
    let b :=
      if appendsDetail run event then b.appendTaskExecutionDetail (detailEntry task run event)
      else b
    (b.putRun (updateRun run event)).putTask
      { task with status := taskStatusOf event.eventType }

@[simp] theorem updateRun_runId (run : ExecutionRun) (event : ExecutorEvent) :
    (updateRun run event).runId = run.runId := by
  unfold updateRun
  cases event.eventType <;> rfl

@[simp] theorem updateRun_taskId (run : ExecutionRun) (event : ExecutorEvent) :
    (updateRun run event).taskId = run.taskId := by
  unfold updateRun
  cases event.eventType <;> rfl

@[simp] theorem updateRun_status (run : ExecutionRun) (event : ExecutorEvent) :
    (updateRun run event).status = runStatusOf event.eventType := by
  unfold updateRun
  cases event.eventType <;> rfl

/-- The task after an event. -/
def appliedTask : Task :=
  if ignores task event then task else { task with status := taskStatusOf event.eventType }

/-- The run after an event. -/
def appliedRun (task : Task) (run : ExecutionRun) (event : ExecutorEvent) : ExecutionRun :=
  if ignores task event then run else updateRun run event

theorem getTask_applyEvent {b : Blackboard} {task : Task}
    (ht : b.getTask task.taskId = some task) (run : ExecutionRun) (event : ExecutorEvent) :
    (applyEvent b task run event).getTask task.taskId = some (appliedTask task event) := by
  unfold applyEvent appliedTask
  by_cases hi : ignores task event
  · simpa [hi] using ht
  · simp [hi, Blackboard.getTask]

theorem getRun_applyEvent {b : Blackboard} {run : ExecutionRun}
    (hr : b.getRun run.runId = some run) (task : Task) (event : ExecutorEvent) :
    (applyEvent b task run event).getRun run.runId = some (appliedRun task run event) := by
  unfold applyEvent appliedRun
  by_cases hi : ignores task event
  · simpa [hi] using hr
  · simp [hi, Blackboard.getRun, Table.get?_put]

end Newbro.RunManager
