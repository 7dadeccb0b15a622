import Newbro.StatusWrites

/-!
# Cancelled tasks

What keeps a cancelled task cancelled, and what starts work for one all the same. Run
events respect a cancellation; agent events, answers to interaction requests and failures
before a run do not look at the status they overwrite.
-/
namespace Newbro.SessionRuntime

open Library Protocol SessionManager SummaryManager
  SessionCommands InteractionRequests Reconcile Option

def taskStatus (b : Blackboard) (taskId : String) : Option TaskStatus :=
  (taskView b taskId).map Prod.fst

variable {taskId : String} {status : TaskStatus}

variable {b : Blackboard}

theorem taskView_isSome_of_taskStatus
    (h : taskStatus b taskId = some status) : (taskView b taskId).isSome := by
  cases hv : taskView b taskId with
  | none => simp [taskStatus, hv] at h
  | some view => rfl

theorem taskStatus_eq_getTask (b : Blackboard) (taskId : String) :
    taskStatus b taskId = (b.getTask taskId).map Task.status := by
  simp only [taskStatus, taskView, map_map]
  rfl

variable {cfg : Config} {s s' : SessionState} {label : Label}

/-- The status after a step is what the step wrote, else what it was. -/
theorem step_taskStatus (h : step cfg s label = some s')
    (hs : taskStatus s.board taskId = some status) :
    taskStatus s'.board taskId = some ((statusWritten cfg s label taskId).getD status) := by
  have hv := step_taskView h (taskView_isSome_of_taskStatus hs)
  obtain ⟨view, hview, hfst⟩ := map_eq_some_iff.mp hs
  rw [taskStatus, hv, hview]
  simp [overwrite, hfst]

/-- A command other than a cancellation takes hold of the task. -/
def commandedOtherwise (s : SessionState) (label : Label) (taskId : String) : Bool :=
  match label with
  | .markCommand commandId => (s.commands.get? commandId).any fun c =>
    c.command.taskId = taskId && c.command.commandType ≠ .cancelTask
  | _ => false

/-- The steps that write a task status without looking at the one they overwrite. -/
def overwritesCancellation (cfg : Config) (s : SessionState) (label : Label) (taskId : String) :
    Bool :=
  match label with
  | .agentEvent t type => t = taskId && (agentEventStatus type).isSome
  | .finishAnswer requestId nativeResolved => (s.answers.get? requestId).any fun a =>
    queuesFollowUp a nativeResolved && a.request.taskId = some taskId
  | .lookupExecutor t => t = taskId && (s.board.getTask t).any fun task =>
    !cfg.registry.contains (executorTypeOf cfg task)
  | .raiseException t _ _ => t = taskId && (s.coroutine? t).any fun c => (c.run? s.board).isNone
  | _ => false

theorem agentEventStatus_ne_cancelled {type : String}
    (h : agentEventStatus type = some status) : status ≠ .cancelled := by
  unfold agentEventStatus at h
  split at h
  all_goals
    cases h
    try decide

/-- On a cancelled task, a step writes another status exactly if it is one of the
unguarded ones. -/
theorem statusWritten_of_cancelled (hs : taskStatus s.board taskId = some .cancelled)
    (hq : commandedOtherwise s label taskId = false) :
    (statusWritten cfg s label taskId).getD .cancelled = .cancelled ↔
      overwritesCancellation cfg s label taskId = false := by
  rw [taskStatus_eq_getTask] at hs
  obtain ⟨task, htask, hstatus⟩ := map_eq_some_iff.mp hs
  cases label with
  | markCommand commandId =>
    simp only [overwritesCancellation, iff_true, statusWritten]
    cases hc : s.commands.get? commandId with
    | none => rfl
    | some c =>
      simp only [commandedOtherwise, hc, any_some, Bool.and_eq_false_iff,
        decide_eq_false_iff_not, not_not] at hq
      simp only [bind_some]
      split_ifs with ht
      · have hcancel := hq.resolve_left fun hne => hne ht
        rw [hcancel]
        rfl
      · rfl
  | agentEvent t type =>
    by_cases ht : t = taskId
    · cases ha : agentEventStatus type with
      | none => simp [statusWritten, overwritesCancellation, ht, ha]
      | some status =>
        simpa [statusWritten, overwritesCancellation, ht, ha] using agentEventStatus_ne_cancelled ha
    · simp [statusWritten, overwritesCancellation, ht]
  | finishAnswer requestId nativeResolved =>
    cases ha : s.answers.get? requestId with
    | none => simp [statusWritten, overwritesCancellation, ha]
    | some a =>
      by_cases hf : queuesFollowUp a nativeResolved = true ∧ a.request.taskId = some taskId
      · simp [statusWritten, overwritesCancellation, ha, hf]
      · have hb : (queuesFollowUp a nativeResolved &&
            decide (a.request.taskId = some taskId)) = false := by
          simpa [Bool.and_eq_false_iff, not_and_or] using hf
        simp [statusWritten, overwritesCancellation, ha, hf, hb]
  | requeueWaiting connected =>
    have hn : requeueable connected task = false := by simp [requeueable, hstatus]
    simp [statusWritten, overwritesCancellation, htask, hn]
  | lookupExecutor t =>
    by_cases ht : t = taskId
    · subst ht
      by_cases hr : cfg.registry.contains (executorTypeOf cfg task)
      · simp [statusWritten, overwritesCancellation, htask, hr]
      · simp [statusWritten, overwritesCancellation, htask, hr]
    · simp [statusWritten, overwritesCancellation, ht]
  | raiseException t text errorType =>
    by_cases ht : t = taskId
    · subst ht
      cases hc : s.coroutine? t with
      | none => simp [statusWritten, overwritesCancellation, hc]
      | some c =>
        cases hr : c.run? s.board with
        | none => simp [statusWritten, overwritesCancellation, hc, htask, hr, exceptionStatus]
        | some run =>
          simp [statusWritten, overwritesCancellation, hc, htask, hr, exceptionStatus, hstatus]
    · simp [statusWritten, overwritesCancellation, ht]
  | runEvent t event resume =>
    simp only [overwritesCancellation, iff_true, statusWritten]
    split_ifs with hw
    · obtain ⟨rfl, hi⟩ := hw
      simp only [htask, any_some, Bool.not_eq_true', RunManager.ignores, hstatus,
        decide_true, Bool.true_and, decide_eq_false_iff_not, not_not] at hi
      rw [hi]
      rfl
    · rfl
  | _ => simp [statusWritten, overwritesCancellation]

/-- The cancellation itself marks the task. -/
theorem taskStatus_after_cancel_mark {commandId : String}
    {c : CommandInFlight} (hc : s.commands.get? commandId = some c)
    (hcancel : c.command.commandType = .cancelTask)
    (hs : taskStatus s.board c.command.taskId = some status)
    (h : step cfg s (.markCommand commandId) = some s') :
    taskStatus s'.board c.command.taskId = some .cancelled := by
  rw [step_taskStatus h hs]
  simp [statusWritten, hc, hcancel, commandStatus]

/-- Along every run without other commands on it, a cancelled task stays cancelled exactly
if no step of the run is an agent event, a follow-up answer or a failure before a run. -/
theorem cancelled_always_iff (cfg : Config) (s : SessionState) (taskId : String)
    (labels : List Label) (hs : taskStatus s.board taskId = some .cancelled)
    (hq : (system cfg).Along (fun s l => commandedOtherwise s l taskId = false) s labels) :
    (system cfg).Always (fun s => taskStatus s.board taskId = some .cancelled) s labels ↔
      (system cfg).Along (fun s l => overwritesCancellation cfg s l taskId = false) s labels := by
  refine System.always_iff_along ?_ hs hq
  intro s label s' hs hq h
  rw [step_taskStatus h hs, some.injEq]
  exact statusWritten_of_cancelled hs hq

/-- A task cancelled before its first run. -/
def cancelledLabels : List Label :=
  createLabels "creation-1" "task-1" ++ commandLabels "cmd-1" "task-1" .cancelTask

theorem cancelled_always_iff_agent_event :
    (system codexConfig).Always (fun s => taskStatus s.board "task-1" = some .cancelled)
        (reached codexConfig cancelledLabels) [.agentEvent "task-1" "agent.progress"] ↔
      (system codexConfig).Along
        (fun s l => overwritesCancellation codexConfig s l "task-1" = false)
        (reached codexConfig cancelledLabels) [.agentEvent "task-1" "agent.progress"] :=
  cancelled_always_iff codexConfig (reached codexConfig cancelledLabels) "task-1"
    [.agentEvent "task-1" "agent.progress"] (by decide) fun _ _ => ⟨by decide, trivial⟩

/-- A cancelled task that an agent event completes. -/
theorem cancelled_not_always :
    ¬ ∀ (cfg : Config) (s : SessionState) (taskId : String) (labels : List Label),
      (system cfg).Reachable s → taskStatus s.board taskId = some .cancelled →
      (system cfg).Along (fun s l => commandedOtherwise s l taskId = false) s labels →
      (system cfg).Always (fun s => taskStatus s.board taskId = some .cancelled) s labels := by
  intro h
  have hall := h codexConfig (reached codexConfig cancelledLabels) "task-1"
    [.agentEvent "task-1" "agent.completed"] (reachable_reached _ _) (by decide)
    fun _ _ => ⟨by decide, trivial⟩
  have hlast : taskStatus (ingestAgentEvent (reached codexConfig cancelledLabels).board "task-1"
      "agent.completed") "task-1" = some .cancelled := hall.2 _ rfl
  exact absurd hlast (by decide)

/-! ## Work for a cancelled task -/

/-- The current tick has listed the task, or one of its coroutines has yet to dispatch it. -/
def holdsBeforeDispatch (loop : Loop) (taskId : String) : Bool :=
  match loop with
  | .claiming listed claimed =>
    taskId ∈ listed || (claimed.get? taskId).any fun c => c.stage.beforeDispatch
  | .gathering coroutines => (coroutines.get? taskId).any fun c => c.stage.beforeDispatch
  | _ => false

def isQueuedStatus (status : TaskStatus) : Bool := status = .created || status = .queued

theorem not_mem_listRunnableTasks
    (hs : taskStatus b taskId = some status) (hq : isQueuedStatus status = false) :
    taskId ∉ (listRunnableTasks b).map Task.taskId := by
  intro hmem
  obtain ⟨task, hmem, hid⟩ := List.mem_map.mp hmem
  rw [listRunnableTasks, List.mem_insertionSort, List.mem_filter] at hmem
  have hget : b.getTask taskId = some task := hid ▸ Table.get?_of_mem hmem.1
  rw [taskStatus_eq_getTask, hget, map_some, some.injEq] at hs
  rw [← hs] at hq
  exact absurd hmem.2 (by simpa [isRunnable, isQueuedStatus] using hq)

theorem holdsBeforeDispatch_loopMove (hs : taskStatus s.board taskId = some status)
    (hq : isQueuedStatus status = false) (hn : holdsBeforeDispatch s.loop taskId = false)
    (h : LoopMove cfg s s') :
    holdsBeforeDispatch s'.loop taskId = false ∧ s'.effects = s.effects := by
  cases h with
  | stay => exact ⟨hn, rfl⟩
  | rest loop hl => rcases hl with rfl | rfl | rfl <;> exact ⟨rfl, rfl⟩
  | list =>
    refine ⟨?_, rfl⟩
    have hnot := not_mem_listRunnableTasks hs hq
    simp only [holdsBeforeDispatch, Table.get?_empty, any_none, Bool.or_false,
      decide_eq_false_iff_not]
    exact hnot
  | skip hl =>
    rw [hl] at hn
    simp only [holdsBeforeDispatch, Bool.or_eq_false_iff, decide_eq_false_iff_not,
      List.mem_cons, not_or] at hn ⊢
    exact ⟨⟨hn.1.2, hn.2⟩, trivial⟩
  | claim hl ht hc =>
    rw [hl] at hn
    simp only [holdsBeforeDispatch, Bool.or_eq_false_iff, decide_eq_false_iff_not,
      List.mem_cons, not_or] at hn ⊢
    refine ⟨⟨hn.1.2, ?_⟩, trivial⟩
    rw [Table.get?_put_of_ne _ (fun he => hn.1.1 he.symm)]
    exact hn.2
  | gather hl =>
    rw [hl] at hn
    simp only [holdsBeforeDispatch, List.not_mem_nil, decide_false, Bool.false_or] at hn ⊢
    exact ⟨hn, trivial⟩

variable {coroutines : Table Coroutine.taskId} {c : Coroutine}

theorem holdsBeforeDispatch_put
    (hn : holdsBeforeDispatch (.gathering coroutines) taskId = false)
    (hc : c.taskId = taskId → c.stage.beforeDispatch = false) :
    holdsBeforeDispatch (.gathering (coroutines.put c)) taskId = false := by
  simp only [holdsBeforeDispatch, Table.get?_put] at hn ⊢
  by_cases ht : c.taskId = taskId
  · simp [ht, hc ht]
  · simpa [ht] using hn

theorem holdsBeforeDispatch_erase
    (other : String) (hn : holdsBeforeDispatch (.gathering coroutines) taskId = false) :
    holdsBeforeDispatch (.gathering (coroutines.erase other)) taskId = false := by
  simp only [holdsBeforeDispatch, Table.get?_erase] at hn ⊢
  by_cases ht : other = taskId
  · simp [ht]
  · simpa [ht] using hn

variable {other : String}

theorem workFor_append_other {effects : List Effect} {runId : String} (h : other ≠ taskId) :
    workFor (effects ++ [Effect.runTask other runId]) taskId = workFor effects taskId ∧
      workFor (effects ++ [Effect.dispatchRun other runId]) taskId = workFor effects taskId := by
  simp [workFor, h]

/-- A coroutine that starts work holds its task before the dispatch. -/
theorem holdsBeforeDispatch_executeStep {task : Task}
    (hc : s.coroutine? other = some c) (hn : holdsBeforeDispatch s.loop taskId = false)
    (h : executeStep cfg s c task label = some s') : holdsBeforeDispatch s'.loop taskId = false ∧
      workFor s'.effects taskId = workFor s.effects taskId := by
  obtain ⟨coroutines, hl, hget⟩ := coroutine?_eq_some hc
  have hid : c.taskId = other := Table.key_of_get? hget
  rw [hl] at hn
  have hstage : c.taskId = taskId → c.stage.beforeDispatch = false := by
    intro ht
    rw [hid] at ht
    simpa [holdsBeforeDispatch, ← ht, hget] using hn
  have advance : ∀ (s₀ : SessionState) (c' : Coroutine) (stage : Stage),
      s₀.loop = .gathering coroutines → c'.taskId = c.taskId →
      c.stage.beforeDispatch = true →
      holdsBeforeDispatch (s₀.setStage c' stage).loop taskId = false := by
    intro s₀ c' stage hl₀ hid' hbefore
    rw [loop_setStage hl₀]
    refine holdsBeforeDispatch_put hn fun ht => ?_
    rw [hstage (hid'.symm.trans ht)] at hbefore
    cases hbefore
  have drop : ∀ s₀ : SessionState, s₀.loop = .gathering coroutines →
      holdsBeforeDispatch (s₀.dropCoroutine c.taskId).loop taskId = false := by
    intro s₀ hl₀
    rw [loop_dropCoroutine hl₀]
    exact holdsBeforeDispatch_erase _ hn
  have hne : c.stage.beforeDispatch = true → c.taskId ≠ taskId := by
    intro hbefore ht
    rw [hstage ht] at hbefore
    cases hbefore
  cases label
  case lookupExecutor =>
    obtain ⟨hst, ⟨-, rfl⟩ | ⟨-, rfl⟩⟩ := lookupExecutor_cases h
    · exact ⟨advance _ _ _ hl rfl (by rw [hst]; rfl), by simp⟩
    · exact ⟨drop _ hl, by simp⟩
  case ensureSession =>
    obtain ⟨_, hst, -, -, rfl⟩ := ensureSession_cases h
    exact ⟨advance _ _ _ hl rfl (by rw [hst]; rfl), by simp [ensuredSession]⟩
  case createRun =>
    obtain ⟨_, _, _, _, hst, -, -, -, rfl⟩ := createRun_cases h
    exact ⟨advance _ _ _ hl rfl (by rw [hst]; rfl), by simp⟩
  case beginRunTask =>
    obtain ⟨_, hst, rfl⟩ := beginRunTask_cases h
    have hbefore : c.stage.beforeDispatch = true := by rw [hst]; rfl
    refine ⟨advance _ _ _ hl rfl hbefore, ?_⟩
    rw [effects_setStage]
    exact (workFor_append_other (hne hbefore)).1
  case sendDispatch =>
    obtain ⟨_, hst, rfl⟩ := sendDispatch_cases h
    have hbefore : c.stage.beforeDispatch = true := by rw [hst]; rfl
    refine ⟨advance _ _ _ hl rfl hbefore, ?_⟩
    rw [effects_setStage]
    exact (workFor_append_other (hne hbefore)).2
  case skipDispatch =>
    obtain ⟨_, hst, rfl⟩ := skipDispatch_cases h
    exact ⟨advance _ _ _ hl rfl (by rw [hst]; rfl), by simp⟩
  case runEvent =>
    obtain ⟨_, _, -, -, rfl⟩ := runEvent_cases h
    split_ifs
    · exact ⟨drop _ hl, by simp [drainedEvent]⟩
    · refine ⟨?_, rfl⟩
      rw [show (drainedEvent s c _ task _ _ _).loop = s.loop from rfl, hl]
      exact hn
  case raiseException =>
    obtain ⟨-, rfl⟩ := raiseException_cases h
    exact ⟨drop _ hl, by simp⟩
  all_goals cases h

theorem outsideLoop_loopMove (h : LoopMove cfg s s') : s'.outsideLoop = s.outsideLoop := by
  cases h <;> rfl

/-- A command under way after a step was under way before, or its task exists. -/
theorem step_commands
    (h : step cfg s label = some s') {c' : CommandInFlight} (hc' : c' ∈ s'.commands.entries) :
    (∃ c ∈ s.commands.entries, c.command = c'.command) ∨
      (s.board.getTask c'.command.taskId).isSome := by
  have outside : s'.outsideLoop = s.outsideLoop → s'.commands = s.commands := by
    intro he
    exact congrArg (fun p => p.2.1) he
  cases step_cases h with
  | beginCommand hm ht =>
    rcases Table.mem_put.mp hc' with rfl | ⟨hc, -⟩
    · exact .inr ht
    · exact .inl ⟨c', hc, rfl⟩
  | markCommand hc hm =>
    rcases Table.mem_put.mp hc' with rfl | ⟨hc', -⟩
    · exact .inl ⟨_, Table.mem_of_get? hc, rfl⟩
    · exact .inl ⟨c', hc', rfl⟩
  | finishCommand hc hm => exact .inl ⟨c', (Table.mem_erase.mp hc').1, rfl⟩
  | loop hl hmove => exact .inl ⟨c', outside (outsideLoop_loopMove hmove) ▸ hc', rfl⟩
  | coroutine hl hc ht hstep => exact .inl ⟨c', outside (outsideLoop_executeStep hstep) ▸ hc', rfl⟩
  | _ => exact .inl ⟨c', hc', rfl⟩

theorem taskView_isSome_step
    (h : step cfg s label = some s') {u : String} (hu : (taskView s.board u).isSome) :
    (taskView s'.board u).isSome := by
  rw [step_taskView h hu]
  simpa [overwrite] using hu

/-- Every command under way is on a task that exists. -/
theorem commands_name_tasks (cfg : Config) :
    (system cfg).Inductive fun s =>
      ∀ c ∈ s.commands.entries, (taskView s.board c.command.taskId).isSome where
  initially := by
    rintro s rfl c hc
    exact absurd hc (List.not_mem_nil)
  preserved := by
    intro s label s' hI h c' hc'
    refine taskView_isSome_step h ?_
    rcases step_commands h hc' with ⟨c, hc, he⟩ | ht
    · rw [← he]
      exact hI c hc
    · simpa [taskView] using ht

/-- The task is neither queued nor about to be started by the current tick. -/
def NotStarting (taskId : String) (s : SessionState) : Prop :=
  (∃ status, taskStatus s.board taskId = some status ∧ isQueuedStatus status = false) ∧
    holdsBeforeDispatch s.loop taskId = false

/-- The step queues the task: a retry, a resume, a follow-up answer or a requeue scan. -/
def queuesTask (cfg : Config) (s : SessionState) (label : Label) (taskId : String) : Bool :=
  (statusWritten cfg s label taskId).any isQueuedStatus

theorem step_status_not_queued (h : step cfg s label = some s')
    (hs : ∃ status, taskStatus s.board taskId = some status ∧ isQueuedStatus status = false)
    (hq : queuesTask cfg s label taskId = false) :
    ∃ status, taskStatus s'.board taskId = some status ∧ isQueuedStatus status = false := by
  obtain ⟨status, hs, hn⟩ := hs
  refine ⟨_, step_taskStatus h hs, ?_⟩
  cases hw : statusWritten cfg s label taskId with
  | none => exact hn
  | some written => simpa [queuesTask, hw] using hq

/-- Until something queues the task, no step starts work for it. -/
theorem step_not_starting (h : step cfg s label = some s') (hn : NotStarting taskId s)
    (hq : queuesTask cfg s label taskId = false) :
    NotStarting taskId s' ∧ workFor s'.effects taskId = workFor s.effects taskId := by
  have hstatus := step_status_not_queued h hn.1 hq
  have keep : s'.loop = s.loop → workFor s'.effects taskId = workFor s.effects taskId →
      NotStarting taskId s' ∧ workFor s'.effects taskId = workFor s.effects taskId := by
    intro hl hw
    exact ⟨⟨hstatus, by rw [hl]; exact hn.2⟩, hw⟩
  cases step_cases h with
  | markCommand hc hm => exact keep rfl (workFor_append_signals ..)
  | loop hl hmove =>
    obtain ⟨status, hs, hnot⟩ := hn.1
    obtain ⟨hholds, heff⟩ := holdsBeforeDispatch_loopMove hs hnot hn.2 hmove
    exact ⟨⟨hstatus, hholds⟩, by rw [heff]⟩
  | coroutine hl hc ht hstep =>
    obtain ⟨hholds, hw⟩ := holdsBeforeDispatch_executeStep hc hn.2 hstep
    exact ⟨⟨hstatus, hholds⟩, hw⟩
  | _ => exact keep rfl rfl

theorem always_not_starting
    {labels : List Label} (hn : NotStarting taskId s)
    (hq : (system cfg).Along (fun s l => queuesTask cfg s l taskId = false) s labels) :
    (system cfg).Always (fun s' => workFor s'.effects taskId = workFor s.effects taskId) s
      labels := by
  suffices h : ∀ (s' : SessionState), NotStarting taskId s' →
      workFor s'.effects taskId = workFor s.effects taskId →
      (system cfg).Along (fun s l => queuesTask cfg s l taskId = false) s' labels →
      (system cfg).Always (fun s' => workFor s'.effects taskId = workFor s.effects taskId) s'
        labels from h s hn rfl hq
  clear hq hn
  induction labels with
  | nil => exact fun s' _ hw _ => hw
  | cons label labels ih =>
    intro s' hn hw hq
    refine ⟨hw, fun s'' hstep => ?_⟩
    have hlabel := hq s'' hstep
    obtain ⟨hn', hw'⟩ := step_not_starting hstep hn hlabel.1
    exact ih s'' hn' (hw'.trans hw) hlabel.2

/-- The labels of a cancellation from its mark to its return, with other steps between. -/
def cancelling (commandId : String) (between : List Label) : List Label :=
  .markCommand commandId :: between ++ [.finishCommand commandId]

/-- Once a cancellation has returned and the current tick neither lists the task nor has
yet to dispatch it, no work is started for it until something queues it again, whatever
happened since the task was marked. -/
theorem no_work_after_cancel (cfg : Config) {s₀ s₁ : SessionState} {commandId taskId : String}
    {between after : List Label} (hreach : (system cfg).Reachable s₀)
    (hcancel : (s₀.commands.get? commandId).any (fun c =>
      c.command.taskId = taskId && c.command.commandType = .cancelTask) = true)
    (hrun : (system cfg).run s₀ (cancelling commandId between) = some s₁)
    (hq : (system cfg).Along (fun s l => queuesTask cfg s l taskId = false) s₀
      (cancelling commandId between ++ after))
    (hholds : holdsBeforeDispatch s₁.loop taskId = false) :
    (system cfg).Always (fun s => workFor s.effects taskId = workFor s₁.effects taskId) s₁
      after := by
  obtain ⟨s₂, hmark, hrest⟩ := bind_eq_some_iff.mp hrun
  have hqmark := hq s₂ hmark
  cases hc : s₀.commands.get? commandId with
  | none => simp [hc] at hcancel
  | some c =>
    simp only [hc, any_some, Bool.and_eq_true, decide_eq_true_eq] at hcancel
    obtain ⟨rfl, hcancel⟩ := hcancel
    have hexists := (commands_name_tasks cfg).of_reachable hreach c (Table.mem_of_get? hc)
    obtain ⟨view, hview⟩ := isSome_iff_exists.mp hexists
    have hstatus : taskStatus s₀.board c.command.taskId = some view.1 := by simp [taskStatus, hview]
    have hmarked := taskStatus_after_cancel_mark hc hcancel hstatus hmark
    have hqrest : (system cfg).Along
        (fun s l => queuesTask cfg s l c.command.taskId = false) s₂
        ((between ++ [.finishCommand commandId]) ++ after) := hqmark.2
    have hlast : ∃ status, taskStatus s₁.board c.command.taskId = some status ∧
        isQueuedStatus status = false :=
      hqrest.invariant (I := fun s => ∃ status,
          taskStatus s.board c.command.taskId = some status ∧ isQueuedStatus status = false)
        hrest ⟨.cancelled, hmarked, rfl⟩ fun s l s' hs hl h => step_status_not_queued h hs hl
    exact always_not_starting ⟨hlast, hholds⟩ (hq.drop hrun)

/-- A queued task whose cancellation is about to mark it. -/
def queuedCancelLabels : List Label :=
  createLabels "creation-1" "task-1" ++
    [.beginCommand ⟨"cmd-1", "task-1", .cancelTask, "user", none⟩]

theorem no_work_after_cancel_queued :
    (system codexConfig).Always
      (fun s => workFor s.effects "task-1" =
        workFor (reached codexConfig
          (queuedCancelLabels ++ cancelling "cmd-1" [.scheduleExecution])).effects "task-1")
      (reached codexConfig (queuedCancelLabels ++ cancelling "cmd-1" [.scheduleExecution]))
      [.checkRunnable] :=
  no_work_after_cancel codexConfig (reachable_reached codexConfig queuedCancelLabels)
    (by decide) (run_reached (by decide))
    ((System.along_of_check (C := fun s l => !queuesTask codexConfig s l "task-1")
      (by decide)).mono fun _ _ => by simp)
    (by decide)

/-- A cancellation that lands before the run of its task is created. -/
def windowLabels : List Label :=
  createLabels "creation-1" "task-1" ++ tickLabels ++
    [.lookupExecutor "task-1",
      .ensureSession "task-1" ⟨"executor-session-1", "codex", none⟩ "session-1",
      .beginCommand ⟨"cmd-1", "task-1", .cancelTask, "user", none⟩]

def windowAfter : List Label :=
  [.createRun "task-1" "run-1", .beginRunTask "task-1", .sendDispatch "task-1"]

theorem work_after_cancel :
    ¬ ∀ (cfg : Config) (s₀ s₁ : SessionState) (commandId taskId : String)
        (between after : List Label), (system cfg).Reachable s₀ →
      (s₀.commands.get? commandId).any (fun c =>
        c.command.taskId = taskId && c.command.commandType = .cancelTask) = true →
      (system cfg).run s₀ (cancelling commandId between) = some s₁ →
      (system cfg).Along (fun s l => queuesTask cfg s l taskId = false) s₀
        (cancelling commandId between ++ after) →
      (system cfg).Always (fun s => workFor s.effects taskId = workFor s₁.effects taskId) s₁
        after := by
  intro h
  have hall := h codexConfig (reached codexConfig windowLabels)
    (reached codexConfig (windowLabels ++ cancelling "cmd-1" [])) "cmd-1" "task-1" [] windowAfter
    (reachable_reached _ _) (by decide) (run_reached (by decide))
    ((System.along_of_check (C := fun s l => !queuesTask codexConfig s l "task-1")
      (by decide)).mono fun _ _ => by simp)
  have hlast := hall.at_end (run_reached (by decide))
  exact absurd hlast (by decide)

end Newbro.SessionRuntime
