import Newbro.RunHistory

/-!
# The runs that the web client shows

A snapshot lists the runs in the order of their creation. The client takes one run of each
task for the task's record and its card (`latestRunsByTaskId`), and one for the steps of
a turn (`buildTurnRenderModel`). The first ranks the runs by the revision of the task
that `create_run` stamps on them, the second by their statuses and their places.
-/
namespace Newbro.SessionRuntime

open Library Protocol SessionManager SummaryManager
  SessionCommands InteractionRequests Reconcile

/-- One round of the loop: only a higher revision takes the place of a run. -/
def keepLatestRun (runsByTaskId : Table ExecutionRun.taskId) (run : ExecutionRun) :
    Table ExecutionRun.taskId :=
  match runsByTaskId.get? run.taskId with
  | none => runsByTaskId.put run
  | some existing =>
    if run.runRevision > existing.runRevision then runsByTaskId.put run else runsByTaskId

variable (executionRuns : List ExecutionRun)

def latestRunsByTaskId : Table ExecutionRun.taskId :=
  executionRuns.foldl keepLatestRun Table.empty

/-- The run of a task's record. -/
def recordRun (taskId : String) : Option ExecutionRun :=
  (latestRunsByTaskId executionRuns).get? taskId

/-- The statuses of the run whose steps are shown as they come. -/
def activeStatuses : List RunStatus := [.running, .created, .waitingExecutor]

def activeRun (taskId : String) : Option ExecutionRun :=
  if taskId = "" then none
  else executionRuns.find? fun run => run.taskId = taskId && run.status ∈ activeStatuses

/-- `anyRun`: the active run, or else the first run of the task. -/
def turnRun (taskId : String) : Option ExecutionRun :=
  (activeRun executionRuns taskId).or
    (if taskId = "" then none else executionRuns.find? fun run => run.taskId = taskId)

/-- The client shows the run of each task that was created last. -/
structure ShowsLatest (b : Blackboard) : Prop where
  record : ∀ taskId, taskId ≠ "" →
    (recordRun b.runs.entries taskId).map ExecutionRun.runId = latestRunOf b taskId
  turn : ∀ taskId, taskId ≠ "" →
    (turnRun b.runs.entries taskId).map ExecutionRun.runId = latestRunOf b taskId

/-- The step creates no second run of a task. -/
def FirstRun (s : SessionState) : Label → Prop
  | .createRun taskId _ => taskId = "" ∨ latestRunOf s.board taskId = none
  | _ => True

/-! ## Tasks with one run -/

variable {runs : List ExecutionRun} {taskId : String}

theorem find?_of_task
    (p : ExecutionRun → Bool) :
    (runs.find? fun run => run.taskId = taskId && p run) =
      (runs.filter fun run => run.taskId = taskId).find? p := by
  simp [List.find?_filter]

/-- Runs of other tasks do not count for the record of a task. -/
theorem recordRun_eq (runs : List ExecutionRun) (taskId : String) :
    recordRun runs taskId = recordRun (runs.filter fun run => run.taskId = taskId) taskId := by
  have hfold : ∀ t t' : Table ExecutionRun.taskId, t.get? taskId = t'.get? taskId →
      (runs.foldl keepLatestRun t).get? taskId =
        ((runs.filter fun run => run.taskId = taskId).foldl keepLatestRun t').get? taskId := by
    induction runs with
    | nil => exact fun _ _ h => h
    | cons run runs ih =>
      intro t t' h
      rw [List.foldl_cons]
      by_cases htask : run.taskId = taskId
      · have hkept : (run :: runs).filter (fun run => run.taskId = taskId) =
            run :: runs.filter fun run => run.taskId = taskId := by simp [htask]
        rw [hkept, List.foldl_cons]
        apply ih
        simp only [keepLatestRun, htask, h]
        split
        · rw [Table.get?_put, Table.get?_put, if_pos htask, if_pos htask]
        · split
          · rw [Table.get?_put, Table.get?_put, if_pos htask, if_pos htask]
          · exact h
      · have hdropped : (run :: runs).filter (fun run => run.taskId = taskId) =
            runs.filter fun run => run.taskId = taskId := by simp [htask]
        rw [hdropped]
        apply ih
        rw [← h, keepLatestRun]
        split
        · exact Table.get?_put_of_ne t htask
        · split
          · exact Table.get?_put_of_ne t htask
          · rfl
  exact hfold Table.empty Table.empty rfl

/-- No task has two runs. -/
def OneRunEach (b : Blackboard) : Prop :=
  ∀ taskId, taskId ≠ "" → (runIdsOf b taskId).length ≤ 1

variable {b : Blackboard}

theorem showsLatest_of_oneRunEach (h : OneRunEach b) : ShowsLatest b := by
  have hone : ∀ taskId, taskId ≠ "" →
      (b.runs.entries.filter fun run => run.taskId = taskId) = [] ∨
        ∃ run, (b.runs.entries.filter fun run => run.taskId = taskId) = [run] := by
    intro taskId htask
    have hlength := h taskId htask
    rw [runIdsOf, List.length_map] at hlength
    rcases Nat.le_one_iff_eq_zero_or_eq_one.mp hlength with hzero | hsingle
    · exact .inl (List.length_eq_zero_iff.mp hzero)
    · exact .inr (List.length_eq_one_iff.mp hsingle)
  constructor
  · intro taskId htask
    rw [recordRun_eq, latestRunOf, runIdsOf]
    rcases hone taskId htask with hnone | ⟨run, hrun⟩
    · rw [hnone]
      rfl
    · have hmem : run ∈ b.runs.entries.filter fun run => run.taskId = taskId := by
        rw [hrun]
        exact List.mem_singleton_self run
      have hid : run.taskId = taskId := of_decide_eq_true (List.mem_filter.mp hmem).2
      rw [hrun, ← hid]
      exact congrArg (Option.map ExecutionRun.runId) (Table.get?_put_self Table.empty run)
  · intro taskId htask
    have hfirst : (b.runs.entries.find? fun run => run.taskId = taskId) =
        (b.runs.entries.filter fun run => run.taskId = taskId).head? := by
      rw [List.head?_filter]
    rw [turnRun, activeRun, if_neg htask, if_neg htask, find?_of_task, hfirst, latestRunOf,
      runIdsOf]
    rcases hone taskId htask with hnone | ⟨run, hrun⟩
    · rw [hnone]
      rfl
    · rw [hrun, List.find?_singleton]
      split <;> rfl

/-! ## A second run -/

variable {run : ExecutionRun}

/-- A fresh run is assigned, so a turn goes on showing the steps of an earlier one. -/
theorem turnRun_append {earlier : ExecutionRun}
    (hstatus : run.status = .assigned) (hmem : earlier ∈ runs)
    (hearlier : earlier.taskId = taskId) :
    turnRun (runs ++ [run]) taskId = turnRun runs taskId := by
  by_cases htask : taskId = ""
  · rw [turnRun, turnRun, activeRun, activeRun, if_pos htask, if_pos htask, if_pos htask,
      if_pos htask]
  · have hinactive : ([run].find? fun run => run.taskId = taskId && run.status ∈ activeStatuses) =
        none := by
      rw [List.find?_singleton, hstatus]
      simp [activeStatuses]
    have hfound : (runs.find? fun run => run.taskId = taskId).isSome = true := by
      rw [List.find?_isSome]
      exact ⟨earlier, hmem, decide_eq_true hearlier⟩
    rw [turnRun, turnRun, activeRun, activeRun, if_neg htask, if_neg htask, if_neg htask,
      if_neg htask, List.find?_append, List.find?_append, hinactive, Option.or_none,
      Option.or_of_isSome hfound]

theorem mem_of_turnRun (h : turnRun runs taskId = some run) : run ∈ runs := by
  rw [turnRun, Option.or_eq_some_iff] at h
  rcases h with hactive | ⟨-, hany⟩
  · rw [activeRun] at hactive
    split at hactive
    · cases hactive
    · exact List.mem_of_find?_eq_some hactive
  · split at hany
    · cases hany
    · exact List.mem_of_find?_eq_some hany

theorem latestRunOf_eq_none : latestRunOf b taskId = none ↔ runIdsOf b taskId = [] :=
  List.getLast?_eq_none_iff

variable {runId : String}

/-- The store lists a fresh run last. -/
theorem entries_createRun (task : Task) (session : ExecutionSession)
    (claimedBy : Option String) (executorType : String)
    (hfresh : b.getRun runId = none) :
    ∃ run, (RunManager.createRun b task session claimedBy executorType runId).runs.entries =
      b.runs.entries ++ [run] ∧ run.runId = runId ∧ run.taskId = task.taskId ∧
      run.status = .assigned := by
  refine ⟨_, Table.entries_put_of_not_contains ?_, rfl, rfl, rfl⟩
  rw [Table.contains]
  have hnone : b.runs.get? runId = none := hfresh
  simp [hnone]

/-- A second run of a task is not the one that its turns show. -/
theorem latestRunOf_of_showsLatest {task : Task} {session : ExecutionSession}
    {claimedBy : Option String} {executorType : String} (hfresh : b.getRun runId = none)
    (htask : task.taskId ≠ "")
    (hshows : ShowsLatest (RunManager.createRun b task session claimedBy executorType runId)) :
    latestRunOf b task.taskId = none := by
  obtain ⟨run, hentries, hrunId, hrunTask, hstatus⟩ :=
    entries_createRun task session claimedBy executorType hfresh
  rw [latestRunOf_eq_none, runIdsOf, List.map_eq_nil_iff]
  by_contra hruns
  obtain ⟨earlier, hearlier⟩ := List.exists_mem_of_ne_nil _ hruns
  obtain ⟨hmem, hof⟩ := List.mem_filter.mp hearlier
  have hturn := hshows.turn task.taskId htask
  have hlast : ([run].filter fun run => run.taskId = task.taskId) = [run] := by simp [hrunTask]
  rw [latestRunOf, runIdsOf, hentries, List.filter_append,
    turnRun_append hstatus hmem (of_decide_eq_true hof), hlast, List.map_append,
    List.map_singleton, List.getLast?_concat, Option.map_eq_some_iff] at hturn
  obtain ⟨shown, hshown, hsame⟩ := hturn
  have hold := Table.get?_of_mem (mem_of_turnRun hshown)
  rw [hsame, hrunId] at hold
  have hnone : b.runs.get? runId = none := hfresh
  rw [hnone] at hold
  cases hold

variable {cfg : Config} {s s' : SessionState} {label : Label}

theorem firstRun_of_showsLatest
    (h : step cfg s label = some s') (hshows : ShowsLatest s'.board) : FirstRun s label := by
  cases step_cases h with
  | @coroutine _ _ taskId c task hl hc ht hstep =>
    cases label with
    | createRun named runId =>
      obtain ⟨_, _, _, session, -, -, hfresh, -, rfl⟩ := createRun_cases hstep
      have hid := getTask_taskId ht
      have hnamed : named = taskId := Option.some_inj.mp hl
      rw [board_setStage] at hshows
      rw [FirstRun, hnamed, ← hid]
      by_cases htask : task.taskId = ""
      · exact .inl htask
      · exact .inr (latestRunOf_of_showsLatest hfresh htask hshows)
    | _ => trivial
  | amendTask ht hid hstatus hpersona hlabel =>
    rcases hlabel with ⟨patch, rfl⟩ | ⟨key, value, rfl⟩ <;> trivial
  | loop hl hmove => cases label <;> trivial
  | _ => trivial

theorem runIdsOf_append {b' : Blackboard} {entries : List (String × String)}
    (h : runHistory b' = runHistory b ++ entries) (taskId : String) :
    runIdsOf b' taskId =
      runIdsOf b taskId ++ (entries.filter fun entry => entry.1 = taskId).map Prod.snd := by
  rw [runIdsOf_eq, runIdsOf_eq, h, List.filter_append, List.map_append]

theorem oneRunEach_step
    (h : step cfg s label = some s') (hone : OneRunEach s.board) (hfirst : FirstRun s label) :
    OneRunEach s'.board := by
  intro taskId htask
  rw [runIdsOf_append (step_runHistory h), List.length_append, List.length_map]
  have hbefore := hone taskId htask
  cases label with
  | createRun named runId =>
    by_cases hnamed : named = taskId
    · subst hnamed
      rw [FirstRun, latestRunOf_eq_none] at hfirst
      rw [hfirst.resolve_left htask]
      simp [runCreated]
    · simpa [runCreated, hnamed] using hbefore
  | _ => simpa [runCreated] using hbefore

/-- In every state of a run of the server the client shows the latest runs exactly if no task is
run a second time. -/
theorem client_shows_latest_iff (cfg : Config) (labels : List Label) :
    (system cfg).Always (fun s => ShowsLatest s.board) initialState labels ↔
      (system cfg).Along FirstRun initialState labels := by
  have hinitial : OneRunEach initialState.board := fun _ _ => Nat.zero_le 1
  constructor
  · intro hshows
    refine System.Always.along (I := fun s => OneRunEach s.board) (Q := fun _ _ => True) ?_ ?_
      hshows hinitial (System.along_true _ _)
    · exact fun s label s' hone hfirst h => oneRunEach_step h hone hfirst
    · exact fun s label s' _ _ h hlater => firstRun_of_showsLatest h hlater
  · intro hfirst
    have hone : (system cfg).Always (fun s => OneRunEach s.board) initialState labels :=
      hfirst.always hinitial fun s label s' hone hlabel h => oneRunEach_step h hone hlabel
    exact hone.mono fun _ h => showsLatest_of_oneRunEach h

/-! ## A task that is retried -/

/-- The run of a task is stopped by the user, who retries the task. -/
def retriedRunLabels : List Label :=
  createLabels "creation-1" "task-1" ++ tickLabels ++
    executeLabels "task-1" "session-1" "run-1" ++
    [.runEvent "task-1" ⟨"run-1", "session-1", .completed, none, Table.empty⟩ none, .finishTick] ++
    commandLabels "cmd-1" "task-1" .retryTask ++ tickLabels ++
    executeLabels "task-1" "session-2" "run-2"

/-- The record and the turn of the retried task show its first run. -/
theorem retried_task_shows_first_run :
    ¬ ∀ (cfg : Config) (labels : List Label),
      (system cfg).Always (fun s => ShowsLatest s.board) initialState labels := by
  intro hall
  have hrun : (system codexConfig).run initialState retriedRunLabels =
      some (reached codexConfig retriedRunLabels) := System.run_eq_target (by decide)
  have hshows := (hall codexConfig retriedRunLabels).at_end hrun
  have hrecord := hshows.record "task-1" (by decide)
  exact absurd hrecord (by decide)

end Newbro.SessionRuntime
