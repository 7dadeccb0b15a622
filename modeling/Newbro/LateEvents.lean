import Newbro.SummaryWrites

/-!
# Events of runs that were taken away

A pause, or a cancellation followed by a retry, leaves the coroutine of the old run
draining its events. `apply_event` looks at no run identity and guards cancelled tasks
only, so a late event still writes the task. Since the loop is a single one, the run that
is drained is always the latest of its task.
-/
namespace Newbro.SessionRuntime

open Library Protocol SessionManager SummaryManager
  SessionCommands InteractionRequests Reconcile

/-! ## Paused tasks -/

/-- The step applies an event of a run of the task. -/
def isRunEventOf (label : Label) (taskId : String) : Bool :=
  match label with
  | .runEvent t _ _ => t = taskId
  | _ => false

variable {cfg : Config} {s s' : SessionState} {label : Label}

/-- Every applied event takes a paused task out of its pause. -/
theorem statusWritten_of_paused {taskId : String} (hs : taskStatus s.board taskId = some .paused)
    (h : step cfg s label = some s')
    (hq : isRunEventOf label taskId = true ∨ statusWritten cfg s label taskId = none) :
    (statusWritten cfg s label taskId).getD .paused = .paused ↔
      isRunEventOf label taskId = false := by
  by_cases he : isRunEventOf label taskId
  · cases label <;> simp only [isRunEventOf, Bool.false_eq_true] at he
    case runEvent t event resume =>
      obtain rfl := of_decide_eq_true he
      rw [taskStatus_eq_getTask] at hs
      obtain ⟨task, htask, hstatus⟩ := Option.map_eq_some_iff.mp hs
      have hi : RunManager.ignores task event = false := by simp [RunManager.ignores, hstatus]
      simp [statusWritten, htask, hi, isRunEventOf, taskStatusOf_ne_paused]
  · rcases hq with hq | hq
    · exact absurd hq he
    · simp [hq, he]

/-- Along every run in which only events of its run write the status of a paused task, the
task stays paused exactly if no event of its run is applied. -/
theorem paused_always_iff (cfg : Config) (s : SessionState) (taskId : String)
    (labels : List Label) (hs : taskStatus s.board taskId = some .paused)
    (hq : (system cfg).Along (fun s l => isRunEventOf l taskId = true ∨
      statusWritten cfg s l taskId = none) s labels) :
    (system cfg).Always (fun s => taskStatus s.board taskId = some .paused) s labels ↔
      (system cfg).Along (fun _ l => isRunEventOf l taskId = false) s labels := by
  have hq' : (system cfg).Along (fun s l => (isRunEventOf l taskId = true ∨
      statusWritten cfg s l taskId = none)) s labels := hq
  refine System.always_iff_along ?_ hs hq'
  intro s label s' hs hq h
  rw [step_taskStatus h hs, Option.some.injEq]
  exact statusWritten_of_paused hs h hq

/-- A running task that is paused while its run goes on. -/
def pausedLabels : List Label :=
  createLabels "creation-1" "task-1" ++ tickLabels ++ executeLabels "task-1" "session-1" "run-1" ++
    commandLabels "cmd-1" "task-1" .pauseTask

theorem paused_always_iff_without_events :
    (system codexConfig).Always (fun s => taskStatus s.board "task-1" = some .paused)
        (reached codexConfig pausedLabels) [.scheduleExecution] ↔
      (system codexConfig).Along (fun _ l => isRunEventOf l "task-1" = false)
        (reached codexConfig pausedLabels) [.scheduleExecution] :=
  paused_always_iff codexConfig (reached codexConfig pausedLabels) "task-1" [.scheduleExecution]
    (by decide) fun _ _ => ⟨.inr rfl, trivial⟩

/-- The event that ends the interrupted turn of a paused task cancels the task. -/
theorem paused_not_always :
    ¬ ∀ (cfg : Config) (s : SessionState) (taskId : String) (labels : List Label),
      (system cfg).Reachable s → taskStatus s.board taskId = some .paused →
      (system cfg).Along (fun _ l => isRunEventOf l taskId = true) s labels →
      (system cfg).Always (fun s => taskStatus s.board taskId = some .paused) s labels := by
  intro h
  have hall := h codexConfig (reached codexConfig pausedLabels) "task-1"
    [.runEvent "task-1" ⟨"run-1", "session-1", .cancelled, none, Table.empty⟩ none]
    (reachable_reached _ _) (by decide) fun _ _ => ⟨by decide, trivial⟩
  have hlast := hall.at_end (run_reached (by decide))
  exact absurd hlast (by decide)

/-! ## Superseded runs -/

/-- The status or the summary of a task differs. -/
def TaskChanged (b b' : Blackboard) (taskId : String) : Prop :=
  taskStatus b' taskId ≠ taskStatus b taskId ∨ b'.getSummary taskId ≠ b.getSummary taskId

/-- An event of a run changes a task only if the run is the latest one of that task and was
not superseded by a retry or a resume. -/
def StaleRunIsolated (cfg : Config) (s : SessionState) (label : Label) : Prop :=
  match label with
  | .runEvent taskId event resume =>
    ∀ s' runId changed, step cfg s (.runEvent taskId event resume) = some s' →
      s.runOf taskId = some runId → TaskChanged s.board s'.board changed →
      latestRunOf s.board changed = some runId ∧ runId ∉ s.superseded
  | _ => True

/-- The run of the event was not superseded, or the event is a progress or a plan and the
task is running or cancelled already. -/
def CurrentOrSilent (s : SessionState) (label : Label) : Prop :=
  match label with
  | .runEvent taskId event _ =>
    ∀ runId ∈ s.runOf taskId, runId ∉ s.superseded ∨
      (isTerminalEvent event.eventType = false ∧
        (taskStatus s.board taskId = some .running ∨
          taskStatus s.board taskId = some .cancelled))
  | _ => True

/-- A superseded run whose events still arrive has a task whose summary speaks of a command. -/
structure StaleRuns (s : SessionState) : Prop where
  latest : LatestRuns s
  known : ∀ runId ∈ s.superseded, ∃ taskId, (taskId, runId) ∈ runHistory s.board
  summaries : ∀ taskId runId, s.runOf taskId = some runId → runId ∈ s.superseded →
    CommandSummary (s.board.getSummary taskId)

theorem step_superseded {runId : String}
    (h : step cfg s label = some s') (hr : runId ∈ s'.superseded) :
    runId ∈ s.superseded ∨ ∃ c ∈ s.commands.entries, s' = finishedCommand s c ∧
      runId ∈ runIdsOf s.board c.command.taskId := by
  have outside : s'.outsideLoop = s.outsideLoop → runId ∈ s.superseded := by
    intro he
    have hsup : s'.superseded = s.superseded := congrArg (fun p => p.2.2.2.2) he
    exact hsup ▸ hr
  cases step_cases h with
  | @finishCommand commandId c hc hm =>
    simp only [finishedCommand] at hr
    split_ifs at hr
    · rcases List.mem_append.mp hr with hr | hr
      · exact .inl hr
      · exact .inr ⟨c, Table.mem_of_get? hc, rfl, (List.mem_filter.mp hr).1⟩
    · exact .inl hr
  | loop hl hmove => exact .inl (outside (outsideLoop_loopMove hmove))
  | coroutine hl hc ht hstep => exact .inl (outside (outsideLoop_executeStep hstep))
  | _ => exact .inl hr

/-- The task of a command under way has a command summary when the command is finished. -/
theorem commandSummary_finishedCommand {c : CommandInFlight}
    (ht : (taskView s.board c.command.taskId).isSome) :
    CommandSummary ((finishedCommand s c).board.getSummary c.command.taskId) := by
  cases htask : s.board.getTask c.command.taskId with
  | none => simp [taskView, htask] at ht
  | some task =>
    have hput : (finishedCommand s c).board.getSummary c.command.taskId = _ :=
      getSummary_finishCommand htask c.command.taskId
    rw [if_pos (getTask_taskId htask)] at hput
    rw [hput]
    exact (commandSummary_spec ..).1

theorem staleRuns_step
    (hcommands : ∀ c ∈ s.commands.entries, (taskView s.board c.command.taskId).isSome)
    (hs : StaleRuns s) (h : step cfg s label = some s') : StaleRuns s' where
  latest := (latestRuns_inductive cfg).preserved s label s' hs.latest h
  known := by
    intro runId hr
    rw [step_runHistory h]
    rcases step_superseded h hr with hr | ⟨c, -, -, hr⟩
    · obtain ⟨taskId, hmem⟩ := hs.known runId hr
      exact ⟨taskId, List.mem_append_left _ hmem⟩
    · exact ⟨c.command.taskId, List.mem_append_left _ (mem_runIdsOf.mp hr)⟩
  summaries := by
    intro taskId runId hrun hr
    have hlatest := (latestRuns_inductive cfg).preserved s label s' hs.latest h
    have hmem : (taskId, runId) ∈ runHistory s'.board :=
      mem_runIdsOf.mp (List.mem_of_getLast? (hlatest.latestRunOf hrun))
    rcases step_superseded h hr with hr | ⟨c, hc, rfl, hids⟩
    · -- an old entry: the run was driven before, since its id is not fresh
      have hbefore : s.runOf taskId = some runId := by
        rcases step_runOf hs.latest h hrun with hbefore | hcreated
        · exact hbefore
        · obtain ⟨other, hold⟩ := hs.known runId hr
          have hnodup := runHistory_runIds_nodup s'.board
          rw [step_runHistory h, hcreated, List.map_append, List.nodup_append] at hnodup
          exact absurd rfl
            (hnodup.2.2 runId (List.mem_map.mpr ⟨_, hold, rfl⟩) runId (by simp))
      have hsummary := hs.summaries taskId runId hbefore hr
      rcases step_summary h taskId with he | hcommand | hended
      · rw [he]
        exact hsummary
      · exact hcommand
      · simp [SessionState.runOf, hended] at hrun
    · -- the command that supersedes the run writes the summary
      have hown : (c.command.taskId, runId) ∈ runHistory (finishedCommand s c).board := by
        rw [step_runHistory h]
        exact List.mem_append_left _ (mem_runIdsOf.mp hids)
      obtain rfl := runHistory_task_unique hmem hown
      exact commandSummary_finishedCommand (hcommands c hc)

theorem staleRuns_inductive (cfg : Config) :
    (system cfg).Inductive fun s =>
      (∀ c ∈ s.commands.entries, (taskView s.board c.command.taskId).isSome) ∧ StaleRuns s := by
  refine (commands_name_tasks cfg).and ?_ fun s label s' hc hs h => staleRuns_step hc hs h
  rintro s rfl
  exact ⟨trivial, fun _ hr => absurd hr List.not_mem_nil, fun _ _ hr => by cases hr⟩

/-- What an event of a run does: nothing to other tasks; a progress or a plan sets the
status alone; any other event writes a summary of its own. -/
theorem runEvent_changes {taskId : String}
    {event : ExecutorEvent} {resume : Option AgentResumeHandle}
    (h : step cfg s (.runEvent taskId event resume) = some s') :
    (∀ other, other ≠ taskId → ¬ TaskChanged s.board s'.board other) ∧
      (isTerminalEvent event.eventType = true → ¬ CommandSummary (s'.board.getSummary taskId)) ∧
      (isTerminalEvent event.eventType = false →
        (TaskChanged s.board s'.board taskId ↔
          ¬ (taskStatus s.board taskId = some .running ∨
            taskStatus s.board taskId = some .cancelled))) := by
  cases step_cases h with
  | amendTask ht hid hstatus hpersona hlabel =>
    rcases hlabel with ⟨patch, hl⟩ | ⟨key, value, hl⟩ <;> cases hl
  | loop hl hmove => cases hl
  | @coroutine _ _ t c task hl hc ht hstep =>
    obtain rfl : taskId = t := Option.some.inj hl
    have htask : task.taskId = taskId := getTask_taskId ht
    have hstatus : ∀ u, taskStatus s'.board u = (overwrite (statusWritten cfg s
        (.runEvent taskId event resume) u) (taskView s.board u)).map Prod.fst := by
      intro u
      rw [taskStatus, taskView_executeStep hl hc ht hstep u]
    have hsummary := getSummary_executeStep hl hc ht hstep
    obtain ⟨handle, run, -, hrun, hs'⟩ := runEvent_cases hstep
    have hrid : run.runId = handle.runId := Table.key_of_get? hrun
    refine ⟨?_, ?_, ?_⟩
    · intro other hne hchanged
      rcases hchanged with hchanged | hchanged
      · rw [hstatus, show statusWritten cfg s (.runEvent taskId event resume) other = none by
          simp [statusWritten, hne.symm], overwrite_none] at hchanged
        exact hchanged rfl
      · exact hchanged ((hsummary other).resolve_right fun he => hne he.1)
    · intro he
      have hsettled := getSummary_drainEvent_of_terminal (htask ▸ ht) (hrid ▸ hrun) he
        (drainedEvent s c handle task run event resume).live c.claimed handle taskId
      rw [if_pos htask] at hsettled
      rw [hs', if_pos he, board_dropCoroutine]
      refine hsettled.symm ▸ buildSummary_not_commandSummary _ ?_ ?_
      · exact (appliedTask_status task event).1
      · exact (appliedTask_status task event).2
    · intro he
      have hsame : s'.board.getSummary taskId = s.board.getSummary taskId := by
        rw [hs', if_neg (by simp [he])]
        refine Eq.trans ?_ (getSummary_applyEvent s.board task run event taskId)
        exact congrArg (fun b => b.getSummary taskId) (drainEvent_of_not_terminal he ..)
      have hrunning : RunManager.taskStatusOf event.eventType = .running := by
        cases hty : event.eventType <;> rw [hty] at he <;> first | rfl | cases he
      have hne : event.eventType ≠ .cancelled := by
        intro hc
        rw [hc] at he
        cases he
      have hafter : taskStatus s'.board taskId =
          some (if task.status = .cancelled then .cancelled else .running) := by
        rw [hstatus]
        by_cases hcancelled : task.status = .cancelled <;>
          simp [statusWritten, ht, taskView, overwrite, RunManager.ignores, hcancelled, hne,
            hrunning]
      rw [TaskChanged, hsame, hafter, taskStatus_eq_getTask, ht]
      simp only [Option.map_some, ne_eq, Option.some.injEq, not_true_eq_false, or_false]
      by_cases hcancelled : task.status = .cancelled
      · simp [hcancelled]
      · simp [hcancelled, eq_comm]

/-- One event is isolated to its latest, not superseded run exactly if its run is current or
it tells the task nothing new. -/
theorem staleRunIsolated_iff_step (hs : StaleRuns s) (h : step cfg s label = some s') :
    StaleRunIsolated cfg s label ↔ CurrentOrSilent s label := by
  cases label
  case runEvent taskId event resume =>
    obtain ⟨hother, hterminal, hsilent⟩ := runEvent_changes h
    constructor
    · intro hiso runId hr
      by_cases hsup : runId ∈ s.superseded
      · right
        have hkept : ¬ TaskChanged s.board s'.board taskId := by
          intro hchanged
          exact (hiso s' runId taskId h hr hchanged).2 hsup
        have hcommand := hs.summaries taskId runId hr hsup
        cases he : isTerminalEvent event.eventType with
        | true =>
          refine absurd (.inr fun hsame => ?_) hkept
          exact hterminal he (hsame ▸ hcommand)
        | false =>
          refine ⟨rfl, ?_⟩
          by_contra hstatus
          exact hkept ((hsilent he).mpr hstatus)
      · exact .inl hsup
    · intro hcond s'' runId changed hstep hr hchanged
      obtain rfl : s' = s'' := Option.some.inj (h.symm.trans hstep)
      obtain rfl : changed = taskId := by
        by_contra hne
        exact hother changed hne hchanged
      refine ⟨hs.latest.latestRunOf hr, ?_⟩
      rcases hcond runId hr with hsup | ⟨he, hstatus⟩
      · exact hsup
      · exact absurd hstatus ((hsilent he).mp hchanged)
  all_goals exact Iff.rfl

/-- Along every run, the events of old runs change nothing exactly if each event that
arrives for a superseded run is a progress or a plan and tells the task nothing new. -/
theorem staleRunIsolated_along_iff (cfg : Config) (labels : List Label) :
    (system cfg).Along (StaleRunIsolated cfg) initialState labels ↔
      (system cfg).Along CurrentOrSilent initialState labels := by
  refine System.along_congr (staleRuns_inductive cfg) ?_
    ((staleRuns_inductive cfg).initially initialState rfl)
  intro s label s' hs h
  exact staleRunIsolated_iff_step hs.2 h

/-- A task that is cancelled while its run goes on, and retried. -/
def retriedLabels : List Label :=
  createLabels "creation-1" "task-1" ++ tickLabels ++ executeLabels "task-1" "session-1" "run-1" ++
    commandLabels "cmd-1" "task-1" .cancelTask ++ commandLabels "cmd-2" "task-1" .retryTask

/-- The late event of the cancelled run cancels the retried task. -/
theorem stale_run_not_isolated :
    ¬ ∀ (cfg : Config) (s : SessionState) (label : Label), (system cfg).Reachable s →
      StaleRunIsolated cfg s label := by
  intro h
  have hiso := h codexConfig (reached codexConfig retriedLabels)
    (.runEvent "task-1" ⟨"run-1", "session-1", .cancelled, none, Table.empty⟩ none)
    (reachable_reached _ _)
  have hrun : (step codexConfig (reached codexConfig retriedLabels)
      (.runEvent "task-1" ⟨"run-1", "session-1", .cancelled, none, Table.empty⟩ none)).map
        (fun s => taskStatus s.board "task-1") = some (some .cancelled) := by decide
  obtain ⟨s', hs', hstatus⟩ := Option.map_eq_some_iff.mp hrun
  have hchanged : TaskChanged (reached codexConfig retriedLabels).board s'.board "task-1" := by
    left
    rw [hstatus]
    decide
  have hold := (hiso s' "run-1" "task-1" hs' (by decide) hchanged).2
  exact hold (by decide)

end Newbro.SessionRuntime
