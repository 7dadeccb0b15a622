import Newbro.RunHistory

/-!
# Who writes a task summary

Commands, follow-up answers and requeue scans write one of three fixed summaries. The
other writers are the ends of coroutines: the last event of a run, an unknown executor
and an exception. No run ends in a summary that a command would write.
-/
namespace Newbro.SessionRuntime

open Library Protocol SessionManager SummaryManager
  SessionCommands InteractionRequests Reconcile Option

/-- A summary as commands, follow-up answers and requeue scans write it. -/
def CommandSummary (summary : Option TaskSummary) : Prop :=
  ∃ task, summary = some (queuedSummary task) ∨ summary = some (pausedSummary task) ∨
    summary = some (cancelledSummary task)

variable {task : Task}

theorem plainSummary_not_commandSummary {text : Option String} {status : String}
    {needsUserInput : Bool} (hq : status ≠ "queued") (hp : status ≠ "paused")
    (hc : status = "cancelled" → text = some ("Cancelled: " ++ task.title)) :
    ¬ CommandSummary (some (plainSummary task text status needsUserInput)) := by
  rintro ⟨other, h | h | h⟩
  · have hs := congrArg TaskSummary.latestUserVisibleStatus (some.inj h)
    exact hq (some.inj hs)
  · have hs := congrArg TaskSummary.latestUserVisibleStatus (some.inj h)
    exact hp (some.inj hs)
  · have hs := congrArg TaskSummary.latestUserVisibleStatus (some.inj h)
    have ht := congrArg TaskSummary.conversationalSummary (some.inj h)
    have htext : text = some ("I won't continue with " ++ other.title ++ ".") := ht
    rw [hc (some.inj hs)] at htext
    -- the two texts differ in their first character
    have hchars := congrArg String.toList (some.inj htext)
    simp at hchars

/-- The summary of an ended run is not one that a command writes. -/
theorem buildSummary_not_commandSummary (run : ExecutionRun)
    (hq : task.status ≠ .queued) (hp : task.status ≠ .paused) :
    ¬ CommandSummary (some (buildSummary task run)) := by
  unfold buildSummary
  split
  · contradiction
  · exact plainSummary_not_commandSummary (by decide) (by decide) (by simp)
  · contradiction
  · split <;>
      exact plainSummary_not_commandSummary (by decide) (by decide) (by simp)

/-! ## The pieces that write a summary -/

variable (b : Blackboard)

theorem getSummary_putSummary (summary : TaskSummary) (taskId : String) :
    (b.putSummary summary).getSummary taskId =
      if summary.taskId = taskId then some summary else b.getSummary taskId := by
  simp only [Blackboard.getSummary, Blackboard.summaries_putSummary, Table.get?_put]

/-- The summary that a command writes for its task. -/
def commandSummary (commandType : TaskCommandType) (task : Task) : TaskSummary :=
  match commandType with
  | .pauseTask => pausedSummary task
  | .preemptTask => pausedSummary task
  | .cancelTask => cancelledSummary task
  | .resumeTask => queuedSummary task
  | .retryTask => queuedSummary task

theorem commandSummary_spec (commandType : TaskCommandType) (task : Task) :
    CommandSummary (some (commandSummary commandType task)) ∧
      (commandSummary commandType task).taskId = task.taskId := by
  cases commandType
  case cancelTask => exact ⟨⟨task, .inr (.inr rfl)⟩, rfl⟩
  case pauseTask => exact ⟨⟨task, .inr (.inl rfl)⟩, rfl⟩
  case preemptTask => exact ⟨⟨task, .inr (.inl rfl)⟩, rfl⟩
  case resumeTask => exact ⟨⟨task, .inl rfl⟩, rfl⟩
  case retryTask => exact ⟨⟨task, .inl rfl⟩, rfl⟩

theorem getSummary_finishCommand {b : Blackboard} {c : CommandInFlight}
    (ht : b.getTask c.command.taskId = some task) (taskId : String) :
    (finishCommand b c).getSummary taskId =
      if task.taskId = taskId then some (commandSummary c.command.commandType task)
      else b.getSummary taskId := by
  have hput : (finishCommand b c).summaries =
      b.summaries.put (commandSummary c.command.commandType task) := by
    unfold finishCommand
    simp only [ht]
    cases c.binding <;> cases c.runId <;> cases c.command.commandType <;>
      simp [commandSummary, setRunStatus_frame Blackboard.summaries fun _ _ => rfl,
        clearActiveRun_frame Blackboard.summaries fun _ _ => rfl,
        cancelRequestsForTask_frame Blackboard.summaries fun _ _ => rfl]
  have hid := (commandSummary_spec c.command.commandType task).2
  rw [Blackboard.getSummary, hput, Table.get?_put, hid]
  rfl

theorem getSummary_queueFollowUp (task : Task) (request : InteractionRequest)
    (answer : Answer) (taskId : String) :
    (queueFollowUp b task request answer).getSummary taskId =
      if task.taskId = taskId then some (queuedSummary (followUpTask task request answer))
      else b.getSummary taskId := by
  have hput : (queueFollowUp b task request answer).summaries =
      b.summaries.put (queuedSummary (followUpTask task request answer)) := by
    unfold queueFollowUp
    simp only [Blackboard.summaries_putTask, Blackboard.summaries_putSummary]
    split
    · split
      · split_ifs <;> rfl
      · rfl
    · split
      · split_ifs <;> rfl
      · rfl
  rw [Blackboard.getSummary, hput, Table.get?_put]
  rfl

/-- A requeue scan leaves a summary or queues its task. -/
theorem getSummary_requeueWaitingExecutorTasks
    (connected : String → Option String → Bool) (taskId : String) :
    (requeueWaitingExecutorTasks b connected).getSummary taskId = b.getSummary taskId ∨
      CommandSummary ((requeueWaitingExecutorTasks b connected).getSummary taskId) := by
  suffices h : ∀ (tasks : List Task) (b₀ : Blackboard),
      (tasks.foldl (requeueTask connected) b₀).getSummary taskId = b₀.getSummary taskId ∨
        CommandSummary ((tasks.foldl (requeueTask connected) b₀).getSummary taskId) from
    h b.tasks.entries b
  intro tasks
  induction tasks with
  | nil => exact fun b₀ => .inl rfl
  | cons task tasks ih =>
    intro b₀
    rw [List.foldl_cons]
    rcases ih (requeueTask connected b₀ task) with hrest | hrest
    · rw [hrest]
      unfold requeueTask
      split_ifs
      · rw [getSummary_putSummary]
        split_ifs
        · exact .inr ⟨task, .inl rfl⟩
        · exact .inl rfl
      · exact .inl rfl
    · exact .inr hrest

theorem getSummary_settleRun (live : LiveSessions) (claimed : SessionBinding)
    (handle : RunHandle) (task : Task) (run : ExecutionRun) (taskId : String) :
    (settleRun b live claimed handle task run).getSummary taskId =
      if task.taskId = taskId then some (buildSummary task run) else b.getSummary taskId := by
  have hput : (settleRun b live claimed handle task run).summaries =
      b.summaries.put (buildSummary task run) := by
    unfold settleRun
    split_ifs <;>
      simp [releasePersona_frame Blackboard.summaries fun _ _ => rfl,
        parkWaitingRun_frame Blackboard.summaries (fun _ _ => rfl) fun _ _ => rfl,
        syncExecutorSession_frame Blackboard.summaries fun _ _ => rfl]
  rw [Blackboard.getSummary, hput, Table.get?_put, buildSummary_taskId]
  rfl

theorem getSummary_applyEvent (task : Task) (run : ExecutionRun)
    (event : ExecutorEvent) (taskId : String) :
    (RunManager.applyEvent b task run event).getSummary taskId = b.getSummary taskId :=
  applyEvent_frame (fun b => b.getSummary taskId) (fun _ _ => rfl) (fun _ _ => rfl)
    (fun _ _ => rfl) ..

theorem taskStatusOf_ne_queued (eventType : ExecutorEventType) :
    RunManager.taskStatusOf eventType ≠ .queued := by
  cases eventType <;> decide

theorem taskStatusOf_ne_paused (eventType : ExecutorEventType) :
    RunManager.taskStatusOf eventType ≠ .paused := by
  cases eventType <;> decide

/-- After an event the task is cancelled still, or has the status of the event. -/
theorem appliedTask_status (task : Task) (event : ExecutorEvent) :
    (RunManager.appliedTask task event).status ≠ .queued ∧
      (RunManager.appliedTask task event).status ≠ .paused := by
  unfold RunManager.appliedTask
  by_cases hi : RunManager.ignores task event
  · have hcancelled : task.status = .cancelled := by
      simp only [RunManager.ignores, Bool.and_eq_true, decide_eq_true_eq] at hi
      exact hi.1
    simp [hi, hcancelled]
  · simp [hi, taskStatusOf_ne_queued, taskStatusOf_ne_paused]

@[simp] theorem appliedTask_taskId (task : Task) (event : ExecutorEvent) :
    (RunManager.appliedTask task event).taskId = task.taskId := by
  unfold RunManager.appliedTask
  split_ifs <;> rfl

/-- The last event of a run writes a summary of its own. -/
theorem getSummary_drainEvent_of_terminal {b : Blackboard} {run : ExecutionRun}
    {event : ExecutorEvent} (ht : b.getTask task.taskId = some task)
    (hr : b.getRun run.runId = some run) (he : isTerminalEvent event.eventType = true)
    (live : LiveSessions) (claimed : SessionBinding) (handle : RunHandle) (taskId : String) :
    (drainEvent b live claimed handle task run event).getSummary taskId =
      if task.taskId = taskId then
        some (buildSummary (RunManager.appliedTask task event)
          (RunManager.appliedRun task run event))
      else b.getSummary taskId := by
  rw [drainEvent_of_terminal ht hr he, getSummary_settleRun, appliedTask_taskId,
    getSummary_applyEvent]

theorem getSummary_failExecutionException
    (claimed : SessionBinding) (run : Option ExecutionRun) (text errorType : String) {taskId : String}
    (hne : task.taskId ≠ taskId) :
    (failExecutionException b task claimed run text errorType).getSummary taskId =
      b.getSummary taskId := by
  unfold failExecutionException
  rw [releasePersona_frame (fun b => b.getSummary taskId) fun _ _ => rfl]
  cases run with
  | none => exact (getSummary_putSummary ..).trans (if_neg hne)
  | some run =>
    have happly := getSummary_applyEvent b task run (exceptionEvent run text errorType) taskId
    have hfail : (failRun b task run text errorType).getSummary taskId = b.getSummary taskId := by
      unfold failRun
      simp only
      split
      · rename_i task' run' ht' hr'
        have hid : task'.taskId = task.taskId := getTask_taskId ht'
        rw [getSummary_putSummary, buildSummary_taskId, hid, if_neg hne]
        exact happly
      · exact happly
    exact hfail

/-! ## Every step of the session -/

/-- A stretch of a coroutine writes no summary, unless it is the last one of its task. -/
theorem getSummary_executeStep {cfg : Config} {s s' : SessionState} {label : Label}
    {taskId : String} {c : Coroutine} (hl : label.coroutineTask = some taskId)
    (hc : s.coroutine? taskId = some c) (ht : s.board.getTask taskId = some task)
    (h : executeStep cfg s c task label = some s') (u : String) :
    s'.board.getSummary u = s.board.getSummary u ∨ (u = taskId ∧ s'.coroutine? u = none) := by
  obtain ⟨coroutines, hloop, hget⟩ := coroutine?_eq_some hc
  have hid : c.taskId = taskId := Table.key_of_get? hget
  have htask : task.taskId = taskId := getTask_taskId ht
  have ended : ∀ s₀ : SessionState, s₀.loop = .gathering coroutines →
      (s₀.dropCoroutine c.taskId).coroutine? taskId = none := by
    intro s₀ hl₀
    simp [SessionState.coroutine?, loop_dropCoroutine hl₀, Loop.running, hid]
  cases label <;> simp only [Label.coroutineTask, some.injEq, reduceCtorEq] at hl
  case lookupExecutor =>
    obtain ⟨-, ⟨-, rfl⟩ | ⟨-, rfl⟩⟩ := lookupExecutor_cases h
    · left
      rw [board_setStage]
    · by_cases hu : u = taskId
      · subst hu
        exact .inr ⟨rfl, ended _ hloop⟩
      · left
        rw [board_dropCoroutine]
        refine (getSummary_putSummary ..).trans (if_neg ?_)
        rw [show (unknownExecutorSummary task _).taskId = task.taskId from rfl, htask]
        exact fun he => hu he.symm
  case ensureSession =>
    obtain ⟨executorType, -, -, -, rfl⟩ := ensureSession_cases h
    left
    simp only [ensuredSession, board_setStage]
    exact congrArg (fun summaries => summaries.get? u) (ensureSession_frame ..).2.2.1
  case createRun =>
    obtain ⟨_, _, _, _, -, -, -, -, rfl⟩ := createRun_cases h
    left
    rw [board_setStage]
    rfl
  case beginRunTask =>
    obtain ⟨handle, -, rfl⟩ := beginRunTask_cases h
    left
    rw [board_setStage]
  case sendDispatch =>
    obtain ⟨handle, -, rfl⟩ := sendDispatch_cases h
    left
    rw [board_setStage]
  case skipDispatch =>
    obtain ⟨handle, -, rfl⟩ := skipDispatch_cases h
    left
    rw [board_setStage]
  case runEvent t event resume =>
    obtain ⟨handle, run, -, hrun, rfl⟩ := runEvent_cases h
    have hrid : run.runId = handle.runId := Table.key_of_get? hrun
    split_ifs with he
    · by_cases hu : u = taskId
      · subst hu
        exact .inr ⟨rfl, ended _ hloop⟩
      · left
        rw [board_dropCoroutine]
        refine (getSummary_drainEvent_of_terminal (htask ▸ ht) (hrid ▸ hrun) he ..).trans
          (if_neg ?_)
        rw [htask]
        exact fun he => hu he.symm
    · left
      refine Eq.trans ?_ (getSummary_applyEvent s.board task run event u)
      exact congrArg (fun b => b.getSummary u)
        (drainEvent_of_not_terminal (by simpa using he) ..)
  case raiseException =>
    obtain ⟨-, rfl⟩ := raiseException_cases h
    by_cases hu : u = taskId
    · subst hu
      exact .inr ⟨rfl, ended _ hloop⟩
    · left
      rw [board_dropCoroutine]
      refine getSummary_failExecutionException _ _ _ _ _ ?_
      rw [htask]
      exact fun he => hu he.symm

/-- A step leaves the summary of a task, writes it as a command does, or ends the
coroutine of the task. -/
theorem step_summary {cfg : Config} {s s' : SessionState} {label : Label}
    (h : step cfg s label = some s') (u : String) :
    s'.board.getSummary u = s.board.getSummary u ∨ CommandSummary (s'.board.getSummary u) ∨
      s'.coroutine? u = none := by
  cases step_cases h with
  | finishCreation hc ht hp =>
    exact .inl (occupyPersona_frame (fun b => b.getSummary u) (fun _ _ => rfl) ..)
  | syncPersonas =>
    exact .inl (syncPersonas_frame (fun b => b.getSummary u) (fun _ _ => rfl)
      (fun _ _ => rfl) ..)
  | markCommand hc hm =>
    exact .inl (markCommand_frame (fun b => b.getSummary u) (fun _ _ => rfl)
      (fun _ _ => rfl) ..)
  | @finishCommand commandId c hc hm =>
    cases ht : s.board.getTask c.command.taskId with
    | none => exact .inl (by simp [finishedCommand, finishCommand, ht])
    | some task =>
      have hput : (finishedCommand s c).board.getSummary u = _ :=
        getSummary_finishCommand ht u
      by_cases hid : task.taskId = u
      · rw [if_pos hid] at hput
        exact .inr (.inl (hput ▸ (commandSummary_spec ..).1))
      · exact .inl (hput.trans (if_neg hid))
  | agentEvent => exact .inl (ingestAgentEvent_frame (fun b => b.getSummary u) (fun _ _ => rfl) ..)
  | @finishAnswer requestId nativeResolved a ha =>
    simp only [finishAnswer]
    split_ifs with hn
    · exact .inl rfl
    · split
      · exact .inl rfl
      · rename_i task ht
        rw [getSummary_queueFollowUp]
        split_ifs
        · exact .inr (.inl ⟨_, .inl rfl⟩)
        · exact .inl rfl
  | requeueWaiting =>
    rcases getSummary_requeueWaitingExecutorTasks s.board _ u with hr | hr
    · exact .inl hr
    · exact .inr (.inl hr)
  | loop hl hmove =>
    cases hmove with
    | claim _ _ hc => exact .inl (claimTask_frame (fun b => b.getSummary u) (fun _ _ => rfl) hc)
    | _ => exact .inl rfl
  | coroutine hl hc ht hstep =>
    rcases getSummary_executeStep hl hc ht hstep u with hr | ⟨-, hr⟩
    · exact .inl hr
    · exact .inr (.inr hr)
  | _ => exact .inl rfl

end Newbro.SessionRuntime
