import Newbro.SessionMoves

/-!
# Who writes a task status

Task statuses are written from many places: run events, agent events, commands, answers,
requeue scans and failures before a run. `statusWritten` says which step writes what, and
`step_taskView` says that no step does anything else to the status or the persona of a
task that exists. The laws about task statuses rest on this one inversion.
-/
namespace Newbro.SessionRuntime

open Library Protocol SessionManager SummaryManager
  SessionCommands InteractionRequests Reconcile Option

/-- The status of a task and the persona it names. -/
def taskView (b : Blackboard) (taskId : String) : Option (TaskStatus × Option String) :=
  (b.getTask taskId).map fun task => (task.status, task.personaId)

/-- Overwrite the status of a view, if there is something to write. -/
def overwrite (written : Option TaskStatus) (view : Option (TaskStatus × Option String)) :
    Option (TaskStatus × Option String) :=
  view.map fun view => (written.getD view.1, view.2)

@[simp] theorem overwrite_none (view : Option (TaskStatus × Option String)) :
    overwrite none view = view := by
  cases view <;> rfl

variable {b : Blackboard} {taskId : String} {task : Task}

theorem getTask_taskId
    (h : b.getTask taskId = some task) : task.taskId = taskId := Table.key_of_get? h

theorem taskView_congr {b' : Blackboard} (h : b'.tasks = b.tasks) (taskId : String) :
    taskView b' taskId = taskView b taskId := by
  simp [taskView, Blackboard.getTask, h]

theorem taskView_putTask (b : Blackboard) (task : Task) (taskId : String) :
    taskView (b.putTask task) taskId =
      if task.taskId = taskId then some (task.status, task.personaId) else taskView b taskId := by
  simp only [taskView, Blackboard.getTask, Blackboard.tasks_putTask, Table.get?_put]
  split_ifs <;> rfl

/-- A stored task whose status, at most, is replaced. -/
theorem taskView_putTask_of_getTask
    (h : b.getTask taskId = some task) (task' : Task) (hid : task'.taskId = task.taskId)
    (hp : task'.personaId = task.personaId) (u : String) :
    taskView (b.putTask task') u =
      overwrite (if taskId = u then some task'.status else none) (taskView b u) := by
  rw [taskView_putTask, hid, getTask_taskId h]
  by_cases hu : taskId = u
  · subst hu
    simp [taskView, h, overwrite, hp]
  · simp [hu]

theorem taskView_setTaskStatus (b : Blackboard) (taskId : String) (status : TaskStatus)
    (u : String) :
    taskView (setTaskStatus b taskId status) u =
      overwrite (if taskId = u then some status else none) (taskView b u) := by
  unfold setTaskStatus
  cases h : b.getTask taskId with
  | none =>
    by_cases hu : taskId = u
    · subst hu; simp [taskView, h, overwrite]
    · simp [hu]
  | some task => exact taskView_putTask_of_getTask h { task with status := status } rfl rfl u

/-! ## The pieces that touch no task -/

@[simp] theorem tasks_finishCommand (b : Blackboard) (c : CommandInFlight) :
    (finishCommand b c).tasks = b.tasks :=
  finishCommand_frame Blackboard.tasks (fun _ _ => rfl) (fun _ _ => rfl) (fun _ _ => rfl)
    (fun _ _ => rfl) (fun _ _ => rfl) b c

@[simp] theorem tasks_capturePauseResumeHandle (cfg : Config) (live : LiveSessions)
    (b : Blackboard) (sessionId runId : Option String) :
    (capturePauseResumeHandle cfg live b sessionId runId).tasks = b.tasks :=
  capturePauseResumeHandle_frame Blackboard.tasks (fun _ _ => rfl) ..

@[simp] theorem tasks_releasePersona (b : Blackboard) (task : Task) :
    (releasePersona b task).tasks = b.tasks :=
  releasePersona_frame Blackboard.tasks (fun _ _ => rfl) b task

@[simp] theorem tasks_settleRun (b : Blackboard) (live : LiveSessions) (claimed : SessionBinding)
    (handle : RunHandle) (task : Task) (run : ExecutionRun) :
    (settleRun b live claimed handle task run).tasks = b.tasks :=
  settleRun_frame Blackboard.tasks (fun _ _ => rfl) (fun _ _ => rfl) (fun _ _ => rfl)
    (fun _ _ => rfl) ..

/-! ## The pieces that write a status -/

theorem taskView_applyEvent
    (h : b.getTask taskId = some task) (run : ExecutionRun) (event : ExecutorEvent)
    (u : String) :
    taskView (RunManager.applyEvent b task run event) u =
      overwrite
        (if taskId = u ∧ RunManager.ignores task event = false then
          some (RunManager.taskStatusOf event.eventType) else none)
        (taskView b u) := by
  unfold RunManager.applyEvent
  by_cases hi : RunManager.ignores task event
  · simp [hi]
  · simp only [hi, if_false, Bool.false_eq_true, and_true]
    have hb : ∀ b' : Blackboard, b'.tasks = b.tasks →
        taskView (b'.putTask { task with status := RunManager.taskStatusOf event.eventType }) u =
          overwrite (if taskId = u then some (RunManager.taskStatusOf event.eventType) else none)
            (taskView b u) := by
      intro b' hb'
      have h' : b'.getTask taskId = some task := by rw [Blackboard.getTask, hb']; exact h
      rw [← taskView_congr hb' u]
      exact taskView_putTask_of_getTask h'
        { task with status := RunManager.taskStatusOf event.eventType } rfl rfl u
    refine hb _ ?_
    split_ifs <;> rfl

theorem taskView_drainEvent
    (h : b.getTask taskId = some task) (live : LiveSessions) (claimed : SessionBinding)
    (handle : RunHandle) (run : ExecutionRun) (event : ExecutorEvent) (u : String) :
    taskView (drainEvent b live claimed handle task run event) u =
      overwrite
        (if taskId = u ∧ RunManager.ignores task event = false then
          some (RunManager.taskStatusOf event.eventType) else none)
        (taskView b u) := by
  rw [← taskView_applyEvent h run event u]
  unfold drainEvent
  simp only
  split_ifs
  · split
    · exact taskView_congr (by simp) u
    · rfl
  · rfl

theorem taskView_failUnknownExecutor
    (h : b.getTask taskId = some task) (claimed : SessionBinding) (executorType u : String) :
    taskView (failUnknownExecutor b task claimed executorType) u =
      overwrite (if taskId = u then some .failed else none) (taskView b u) := by
  have hput := taskView_putTask_of_getTask h { task with status := .failed } rfl rfl u
  exact (taskView_congr rfl u).trans hput

/-- What an exception writes: with a run it goes through the guard of `apply_event`,
without one it does not. -/
def exceptionStatus (task : Task) (run : Option ExecutionRun) : Option TaskStatus :=
  if run.isSome && task.status = .cancelled then none else some .failed

theorem taskView_failExecutionException
    (h : b.getTask taskId = some task) (claimed : SessionBinding) (run : Option ExecutionRun)
    (text errorType u : String) :
    taskView (failExecutionException b task claimed run text errorType) u =
      overwrite (if taskId = u then exceptionStatus task run else none) (taskView b u) := by
  unfold failExecutionException
  rw [taskView_congr (tasks_releasePersona _ _)]
  cases run with
  | none =>
    have hput :=
      taskView_putTask_of_getTask h { task with status := .failed } rfl rfl u
    exact (taskView_congr rfl u).trans hput
  | some run =>
    have hv := taskView_applyEvent h run (exceptionEvent run text errorType) u
    have he : taskView (failRun b task run text errorType) u =
        taskView (RunManager.applyEvent b task run (exceptionEvent run text errorType)) u := by
      unfold failRun
      simp only
      split
      · exact taskView_congr rfl u
      · rfl
    refine (taskView_congr (b := failRun b task run text errorType) rfl u).trans ?_
    rw [he, hv]
    by_cases hc : task.status = .cancelled
    · simp [RunManager.ignores, exceptionEvent, exceptionStatus, hc]
    · simp [RunManager.ignores, exceptionEvent, exceptionStatus, hc, RunManager.taskStatusOf]

theorem taskView_markCommand (cfg : Config) (live : LiveSessions) (b : Blackboard)
    (c : CommandInFlight) (u : String) :
    taskView (markCommand cfg live b c).1 u =
      overwrite
        (if c.command.taskId = u then some (commandStatus c.command.commandType) else none)
        (taskView b u) := by
  simp only [markCommand]
  rw [taskView_setTaskStatus]
  congr 1
  split_ifs
  · exact taskView_congr (by simp) u
  · rfl

/-- Whether an answer ends in a follow-up run of its task. -/
def queuesFollowUp (a : AnswerInFlight) (nativeResolved : Bool) : Bool :=
  !nativeResolved && a.request.outboundTurnRequestId.isNone

theorem taskView_queueFollowUp
    (h : b.getTask taskId = some task) (request : InteractionRequest) (answer : Answer)
    (u : String) :
    taskView (queueFollowUp b task request answer) u =
      overwrite (if taskId = u then some .queued else none) (taskView b u) := by
  have hb : ∀ b' : Blackboard, b'.tasks = b.tasks →
      taskView (b'.putTask (followUpTask task request answer)) u =
        overwrite (if taskId = u then some .queued else none) (taskView b u) := by
    intro b' hb'
    have h' : b'.getTask taskId = some task := by rw [Blackboard.getTask, hb']; exact h
    rw [← taskView_congr hb' u]
    exact taskView_putTask_of_getTask h' _ (followUpTask_taskId task request answer)
      (followUpTask_personaId task request answer) u
  unfold queueFollowUp
  refine hb _ ?_
  simp only [Blackboard.tasks_putSummary]
  split
  · split
    · split_ifs <;> rfl
    · rfl
  · split
    · split_ifs <;> rfl
    · rfl

theorem taskView_finishAnswer (b : Blackboard) (a : AnswerInFlight) (nativeResolved : Bool)
    (u : String) :
    taskView (finishAnswer b a nativeResolved) u =
      overwrite
        (if queuesFollowUp a nativeResolved ∧ a.request.taskId = some u then some .queued
          else none)
        (taskView b u) := by
  unfold finishAnswer
  by_cases hq : queuesFollowUp a nativeResolved
  · have hn : (nativeResolved || a.request.outboundTurnRequestId.isSome) = false := by
      simp only [queuesFollowUp, Bool.and_eq_true, Bool.not_eq_true'] at hq
      simp [hq.1, isNone_iff_eq_none.mp hq.2]
    simp only [hn, hq, true_and, if_false, Bool.false_eq_true]
    cases ht : a.request.taskId with
    | none => simp
    | some taskId =>
      cases hb : b.getTask taskId with
      | none =>
        simp only [bind_some, hb]
        by_cases hu : taskId = u
        · subst hu; simp [taskView, hb, overwrite]
        · simp [hu]
      | some task =>
        simp only [bind_some, hb, some.injEq]
        exact taskView_queueFollowUp hb a.request a.answer u
  · have hn : (nativeResolved || a.request.outboundTurnRequestId.isSome) = true := by
      cases nativeResolved <;>
        cases ho : a.request.outboundTurnRequestId <;> simp_all [queuesFollowUp]
    simp [hn, hq]

/-- A waiting task as the requeue scan leaves it. -/
def requeuedTask (connected : String → Option String → Bool) (task : Task) : Task :=
  if requeueable connected task then { task with status := .queued } else task

theorem getTask_requeueTask (connected : String → Option String → Bool) (b : Blackboard)
    (h : b.getTask task.taskId = some task) (u : String) :
    (requeueTask connected b task).getTask u =
      if task.taskId = u then some (requeuedTask connected task) else b.getTask u := by
  unfold requeueTask requeuedTask
  by_cases hr : requeueable connected task
  · simp only [hr, if_true, Blackboard.getTask, Blackboard.tasks_putSummary,
      Blackboard.tasks_putTask, Table.get?_put]
  · simp only [hr, if_false, Bool.false_eq_true]
    by_cases hu : task.taskId = u
    · subst hu; simpa using h
    · simp [hu]

/-- The requeue scan changes each stored task on its own. -/
theorem getTask_requeueWaitingExecutorTasks (b : Blackboard)
    (connected : String → Option String → Bool) (u : String) :
    (requeueWaitingExecutorTasks b connected).getTask u =
      (b.getTask u).map (requeuedTask connected) := by
  suffices h : ∀ (tasks : List Task) (b₀ : Blackboard), (tasks.map Task.taskId).Nodup →
      (∀ task ∈ tasks, b₀.getTask task.taskId = some task) →
      (tasks.foldl (requeueTask connected) b₀).getTask u =
        if u ∈ tasks.map Task.taskId then (b₀.getTask u).map (requeuedTask connected)
        else b₀.getTask u by
    have hb := h b.tasks.entries b b.tasks.keys_nodup fun task ht => Table.get?_of_mem ht
    rw [requeueWaitingExecutorTasks, hb]
    by_cases hu : u ∈ b.tasks.entries.map Task.taskId
    · simp [hu]
    · have hn : b.getTask u = none := by
        refine Table.get?_eq_none_iff.mpr fun task ht he => hu ?_
        exact List.mem_map.mpr ⟨task, ht, he⟩
      simp [hn]
  intro tasks
  induction tasks with
  | nil => intro b₀ _ _; simp
  | cons task tasks ih =>
    intro b₀ hnd hall
    rw [List.map_cons, List.nodup_cons] at hnd
    have htask : b₀.getTask task.taskId = some task := hall task (by simp)
    have hget := getTask_requeueTask connected b₀ htask
    rw [List.foldl_cons, ih _ hnd.2]
    · by_cases hu : task.taskId = u
      · subst hu
        simp [hnd.1, hget, htask]
      · have hu' : u ≠ task.taskId := fun h => hu h.symm
        simp [hget, hu, hu']
    · intro other ho
      have hne : task.taskId ≠ other.taskId := by
        intro he
        exact hnd.1 (he ▸ List.mem_map.mpr ⟨other, ho, rfl⟩)
      rw [hget, if_neg hne]
      exact hall other (by simp [ho])

theorem taskView_requeueWaitingExecutorTasks (b : Blackboard)
    (connected : String → Option String → Bool) (u : String) :
    taskView (requeueWaitingExecutorTasks b connected) u =
      overwrite (if (b.getTask u).any (requeueable connected) then some .queued else none)
        (taskView b u) := by
  simp only [taskView, getTask_requeueWaitingExecutorTasks]
  cases b.getTask u with
  | none => rfl
  | some task =>
    by_cases hr : requeueable connected task
    · simp only [map_some, requeuedTask, hr, if_true, any_some, overwrite]
      rfl
    · simp [requeuedTask, hr, overwrite]

/-! ## Every step of the session -/

/-- What a step writes into the status of an existing task `u`. -/
def statusWritten (cfg : Config) (s : SessionState) (label : Label) (u : String) :
    Option TaskStatus :=
  match label with
  | .markCommand commandId =>
    (s.commands.get? commandId).bind fun c =>
      if c.command.taskId = u then some (commandStatus c.command.commandType) else none
  | .agentEvent taskId type => if taskId = u then agentEventStatus type else none
  | .finishAnswer requestId nativeResolved =>
    (s.answers.get? requestId).bind fun a =>
      if queuesFollowUp a nativeResolved ∧ a.request.taskId = some u then some .queued else none
  | .requeueWaiting connected =>
    if (s.board.getTask u).any (requeueable connected) then some .queued else none
  | .lookupExecutor taskId =>
    if taskId = u ∧ (s.board.getTask u).any (fun task =>
      !cfg.registry.contains (executorTypeOf cfg task)) then some .failed else none
  | .raiseException taskId _ _ =>
    if taskId = u then
      (s.coroutine? u).bind fun c =>
        (s.board.getTask u).bind fun task => exceptionStatus task (c.run? s.board)
    else none
  | .runEvent taskId event _ =>
    if taskId = u ∧ (s.board.getTask u).any (fun task => !RunManager.ignores task event) then
      some (RunManager.taskStatusOf event.eventType) else none
  | _ => none

theorem taskView_ingestAgentEvent (b : Blackboard) (taskId type u : String) :
    taskView (ingestAgentEvent b taskId type) u =
      overwrite (if taskId = u then agentEventStatus type else none) (taskView b u) := by
  unfold ingestAgentEvent
  cases agentEventStatus type with
  | none => simp
  | some status => exact taskView_setTaskStatus b taskId status u

variable {cfg : Config} {s s' : SessionState}

theorem tasks_loopMove (h : LoopMove cfg s s') : s'.board.tasks = s.board.tasks := by
  cases h with
  | claim _ _ hc => exact claimTask_frame Blackboard.tasks (fun _ _ => rfl) hc
  | _ => rfl

variable {label : Label}

/-- The stretches of a coroutine before the first event write nothing, except that an
unknown executor fails the task. -/
theorem taskView_executeStep {c : Coroutine} (hl : label.coroutineTask = some taskId)
    (hc : s.coroutine? taskId = some c) (ht : s.board.getTask taskId = some task)
    (h : executeStep cfg s c task label = some s') (u : String) :
    taskView s'.board u = overwrite (statusWritten cfg s label u) (taskView s.board u) := by
  cases label <;> simp only [Label.coroutineTask, some.injEq, reduceCtorEq] at hl
  case lookupExecutor taskId =>
    subst hl
    obtain ⟨-, ⟨hr, rfl⟩ | ⟨hr, rfl⟩⟩ := lookupExecutor_cases h
    · by_cases hu : taskId = u
      · subst hu; simp [statusWritten, ht, hr]
      · simp [statusWritten, hu]
    · simp only [board_dropCoroutine]
      rw [taskView_failUnknownExecutor ht]
      by_cases hu : taskId = u
      · subst hu; simp [statusWritten, ht, hr]
      · simp [statusWritten, hu]
  case ensureSession =>
    obtain ⟨executorType, -, -, -, rfl⟩ := ensureSession_cases h
    simp only [ensuredSession, board_setStage, statusWritten, overwrite_none]
    exact taskView_congr (ensureSession_frame ..).1 u
  case createRun =>
    obtain ⟨_, _, _, _, -, -, -, -, rfl⟩ := createRun_cases h
    simp only [board_setStage, statusWritten, overwrite_none]
    exact taskView_congr rfl u
  case beginRunTask =>
    obtain ⟨handle, -, rfl⟩ := beginRunTask_cases h
    simp [statusWritten]
  case sendDispatch =>
    obtain ⟨handle, -, rfl⟩ := sendDispatch_cases h
    simp [statusWritten]
  case skipDispatch =>
    obtain ⟨handle, -, rfl⟩ := skipDispatch_cases h
    simp [statusWritten]
  case runEvent taskId event resume =>
    subst hl
    obtain ⟨handle, run, -, -, rfl⟩ := runEvent_cases h
    have hv : taskView (drainedEvent s c handle task run event resume).board u =
        overwrite (statusWritten cfg s (.runEvent taskId event resume) u)
          (taskView s.board u) := by
      simp only [drainedEvent]
      rw [taskView_drainEvent ht]
      by_cases hu : taskId = u
      · subst hu; simp [statusWritten, ht]
      · simp [statusWritten, hu]
    split_ifs
    · rwa [board_dropCoroutine]
    · exact hv
  case raiseException taskId text errorType =>
    subst hl
    obtain ⟨-, rfl⟩ := raiseException_cases h
    simp only [board_dropCoroutine]
    rw [taskView_failExecutionException ht]
    by_cases hu : taskId = u
    · subst hu; simp [statusWritten, hc, ht]
    · simp [statusWritten, hu]

theorem statusWritten_loop (cfg : Config) (s : SessionState)
    (hl : label.isLoop = true) (u : String) : statusWritten cfg s label u = none := by
  cases label <;> first | rfl | cases hl

/-- The step stores a new task `u`. -/
def Label.creates (label : Label) (u : String) : Bool :=
  match label with
  | .finishCreation _ template => template.taskId = u
  | _ => false

/-- A step that does not create the task `u` writes `statusWritten` into its status and
nothing else into its status or persona. -/
theorem step_taskView_of_not_creates
    (h : step cfg s label = some s') {u : String} (hu : label.creates u = false) :
    taskView s'.board u = overwrite (statusWritten cfg s label u) (taskView s.board u) := by
  have unchanged : s'.board.tasks = s.board.tasks → statusWritten cfg s label u = none →
      taskView s'.board u = overwrite (statusWritten cfg s label u) (taskView s.board u) := by
    intro ht hn
    rw [hn, overwrite_none]
    exact taskView_congr ht u
  cases step_cases h with
  | @finishCreation creationId template creation hc ht hp =>
    have hne : (createdTask creation template).taskId ≠ u := of_decide_eq_false hu
    simp only [statusWritten, overwrite_none, taskView_putTask, if_neg hne]
    exact taskView_congr (occupyPersona_frame Blackboard.tasks (fun _ _ => rfl) ..) u
  | @amendTask _ task task' ht hid hstatus hpersona hlabel =>
    have hn : statusWritten cfg s label u = none := by
      rcases hlabel with ⟨patch, rfl⟩ | ⟨key, value, rfl⟩ <;> rfl
    rw [hn, overwrite_none, taskView_putTask_of_getTask ht task' hid hpersona]
    by_cases he : task.taskId = u
    · subst he
      simp [taskView, ht, overwrite, hstatus]
    · simp [he]
  | syncPersonas =>
    exact unchanged (syncPersonas_frame Blackboard.tasks (fun _ _ => rfl) (fun _ _ => rfl) ..)
      rfl
  | @markCommand commandId c hc hm =>
    simp only [statusWritten, hc, bind_some]
    exact taskView_markCommand cfg s.live s.board c u
  | @finishCommand commandId c hc hm => exact unchanged (tasks_finishCommand s.board c) rfl
  | agentEvent => exact taskView_ingestAgentEvent ..
  | finishAnswer ha =>
    simp only [statusWritten, ha, bind_some]
    exact taskView_finishAnswer ..
  | requeueWaiting => exact taskView_requeueWaitingExecutorTasks ..
  | loop hl hmove => exact unchanged (tasks_loopMove hmove) (statusWritten_loop cfg s hl u)
  | coroutine hl hc ht hstep => exact taskView_executeStep hl hc ht hstep u
  | _ => exact unchanged rfl rfl

theorem step_taskView
    (h : step cfg s label = some s') {u : String} (hu : (taskView s.board u).isSome) :
    taskView s'.board u = overwrite (statusWritten cfg s label u) (taskView s.board u) := by
  refine step_taskView_of_not_creates h ?_
  cases label
  case finishCreation creationId template =>
    obtain ⟨creation, -, ht, -, -⟩ := finishCreation_cases h
    refine decide_eq_false fun he => ?_
    rw [← he, taskView, ht] at hu
    cases hu
  all_goals rfl

end Newbro.SessionRuntime
