import Newbro.CommandIsolation

/-!
# The runs of a task

Runs are appended to the store and never removed, and only `create_run` appends one. The
loop is a single one and a tick waits for all its coroutines, so the run that a coroutine
drives is always the latest run of its task.
-/
namespace Newbro.SessionRuntime

open Library Protocol SessionManager SummaryManager
  SessionCommands InteractionRequests Reconcile Option Table

/-- Which run was created for which task, in the order of creation. -/
def runHistory (b : Blackboard) : List (String × String) :=
  b.runs.entries.map fun run => (run.taskId, run.runId)

/-- The most recently created run of a task. -/
def latestRunOf (b : Blackboard) (taskId : String) : Option String :=
  (runIdsOf b taskId).getLast?

theorem runIdsOf_eq (b : Blackboard) (taskId : String) :
    runIdsOf b taskId = ((runHistory b).filter fun entry => entry.1 = taskId).map Prod.snd := by
  simp only [runIdsOf, runHistory, List.filter_map, List.map_map]
  rfl

variable {b b' : Blackboard}

theorem runHistory_congr (h : b'.runs = b.runs) : runHistory b' = runHistory b := by
  simp [runHistory, h]

variable {run : ExecutionRun}

theorem runHistory_putRun {run' : ExecutionRun}
    (h : b.getRun run'.runId = some run) (ht : run'.taskId = run.taskId) :
    runHistory (b.putRun run') = runHistory b := by
  have hid : run.runId = run'.runId := key_of_get? h
  exact map_entries_put _ h (by rw [ht, hid])

theorem runHistory_setRunStatus (b : Blackboard) (runId : String) (status : RunStatus) :
    runHistory (setRunStatus b runId status) = runHistory b := by
  unfold setRunStatus
  cases h : b.getRun runId with
  | none => rfl
  | some run =>
    have hid : run.runId = runId := key_of_get? h
    have hget : b.getRun { run with status := status }.runId = some run := by
      rw [← hid] at h
      exact h
    exact runHistory_putRun hget rfl

theorem runHistory_finishCommand (b : Blackboard) (c : CommandInFlight) :
    runHistory (finishCommand b c) = runHistory b := by
  cases ht : b.getTask c.command.taskId with
  | none => simp [finishCommand, ht]
  | some task =>
    have hruns := runs_finishCommand (b := b) (c := c) (by simp [ht])
    split at hruns
    · rw [runHistory_congr hruns]
      exact runHistory_setRunStatus ..
    · exact runHistory_congr hruns

theorem runHistory_applyEvent
    (h : b.getRun run.runId = some run) (task : Task) (event : ExecutorEvent) :
    runHistory (RunManager.applyEvent b task run event) = runHistory b := by
  have hget : b.getRun (RunManager.updateRun run event).runId = some run := by
    rw [RunManager.updateRun_runId]
    exact h
  have hput := runHistory_putRun hget (RunManager.updateRun_taskId run event)
  unfold RunManager.applyEvent
  split_ifs
  · rfl
  · exact (runHistory_congr rfl).trans hput
  · exact (runHistory_congr rfl).trans hput

theorem runHistory_drainEvent
    (h : b.getRun run.runId = some run) (live : LiveSessions) (claimed : SessionBinding)
    (handle : RunHandle) (task : Task) (event : ExecutorEvent) :
    runHistory (drainEvent b live claimed handle task run event) = runHistory b := by
  have happly := runHistory_applyEvent h task event
  unfold drainEvent
  simp only
  split_ifs
  · split
    · rw [settleRun_frame runHistory (fun _ _ => rfl) (fun _ _ => rfl) (fun _ _ => rfl)
        (fun _ _ => rfl), happly]
    · exact happly
  · exact happly

theorem runHistory_failExecutionException {run : Option ExecutionRun}
    (h : ∀ r ∈ run, b.getRun r.runId = some r) (task : Task) (claimed : SessionBinding)
    (text errorType : String) :
    runHistory (failExecutionException b task claimed run text errorType) = runHistory b := by
  unfold failExecutionException
  rw [releasePersona_frame runHistory fun _ _ => rfl]
  cases run with
  | none => exact runHistory_congr rfl
  | some run =>
    have happly := runHistory_applyEvent (h run rfl) task (exceptionEvent run text errorType)
    refine (runHistory_congr (b := failRun b task run text errorType) rfl).trans ?_
    unfold failRun
    simp only
    split
    · exact (runHistory_congr rfl).trans happly
    · exact happly

variable {cfg : Config} {s s' : SessionState}

theorem runHistory_loopMove (h : LoopMove cfg s s') : runHistory s'.board = runHistory s.board := by
  cases h with
  | claim _ _ hc => exact claimTask_frame runHistory (fun _ _ => rfl) hc
  | _ => rfl

variable {c : Coroutine}

theorem getRun_of_run? : ∀ run ∈ c.run? b, b.getRun run.runId = some run := by
  intro run hrun
  obtain ⟨handle, -, hget⟩ := bind_eq_some_iff.mp hrun
  have hid : run.runId = handle.runId := key_of_get? hget
  rw [hid]
  exact hget

/-- The entry that a step adds to the run history. -/
def runCreated (label : Label) : List (String × String) :=
  match label with
  | .createRun taskId runId => [(taskId, runId)]
  | _ => []

variable {label : Label} {taskId : String} {task : Task}

theorem runHistory_executeStep (hl : label.coroutineTask = some taskId)
    (ht : s.board.getTask taskId = some task) (h : executeStep cfg s c task label = some s') :
    runHistory s'.board = runHistory s.board ++ runCreated label := by
  cases label <;> simp only [Label.coroutineTask, some.injEq, reduceCtorEq] at hl
  case lookupExecutor =>
    obtain ⟨-, ⟨-, rfl⟩ | ⟨-, rfl⟩⟩ := lookupExecutor_cases h
    · simp [runCreated]
    · simp only [board_dropCoroutine, runCreated, List.append_nil]
      exact runHistory_congr rfl
  case ensureSession =>
    obtain ⟨executorType, -, -, -, rfl⟩ := ensureSession_cases h
    simp only [ensuredSession, board_setStage, runCreated, List.append_nil]
    exact runHistory_congr (ensureSession_frame ..).2.1
  case createRun t runId =>
    subst hl
    obtain ⟨_, _, _, _, -, -, hfresh, -, rfl⟩ := createRun_cases h
    have hid : task.taskId = t := getTask_taskId ht
    simp only [board_setStage, runCreated, ← hid]
    exact map_entries_put_fresh _ hfresh
  case beginRunTask =>
    obtain ⟨handle, -, rfl⟩ := beginRunTask_cases h
    simp [runCreated]
  case sendDispatch =>
    obtain ⟨handle, -, rfl⟩ := sendDispatch_cases h
    simp [runCreated]
  case skipDispatch =>
    obtain ⟨handle, -, rfl⟩ := skipDispatch_cases h
    simp [runCreated]
  case runEvent t event resume =>
    obtain ⟨handle, run, -, hrun, rfl⟩ := runEvent_cases h
    have hid : run.runId = handle.runId := key_of_get? hrun
    have hdrained : runHistory (drainedEvent s c handle task run event resume).board =
        runHistory s.board := runHistory_drainEvent (by rw [hid]; exact hrun) ..
    simp only [runCreated, List.append_nil]
    split_ifs
    · rwa [board_dropCoroutine]
    · exact hdrained
  case raiseException =>
    obtain ⟨-, rfl⟩ := raiseException_cases h
    simp only [board_dropCoroutine, runCreated, List.append_nil]
    exact runHistory_failExecutionException getRun_of_run? ..

/-- Only `create_run` adds a run, and no step removes or reassigns one. -/
theorem step_runHistory (h : step cfg s label = some s') :
    runHistory s'.board = runHistory s.board ++ runCreated label := by
  have unchanged : runHistory s'.board = runHistory s.board → runCreated label = [] →
      runHistory s'.board = runHistory s.board ++ runCreated label := by
    intro hsame hn
    rw [hn, List.append_nil, hsame]
  cases step_cases h with
  | finishCreation hc ht hp =>
    exact unchanged (occupyPersona_frame runHistory (fun _ _ => rfl) ..) rfl
  | amendTask ht hid hstatus hpersona hlabel =>
    refine unchanged rfl ?_
    rcases hlabel with ⟨patch, rfl⟩ | ⟨key, value, rfl⟩ <;> rfl
  | syncPersonas =>
    exact unchanged (syncPersonas_frame runHistory (fun _ _ => rfl) (fun _ _ => rfl) ..) rfl
  | markCommand hc hm =>
    exact unchanged (markCommand_frame runHistory (fun _ _ => rfl) (fun _ _ => rfl) ..) rfl
  | finishCommand hc hm => exact unchanged (runHistory_finishCommand ..) rfl
  | agentEvent => exact unchanged (ingestAgentEvent_frame runHistory (fun _ _ => rfl) ..) rfl
  | finishAnswer ha =>
    exact unchanged (finishAnswer_frame runHistory (fun _ _ => rfl) (fun _ _ => rfl)
      (fun _ _ => rfl) (fun _ _ => rfl) ..) rfl
  | requeueWaiting =>
    exact unchanged (requeueWaitingExecutorTasks_frame runHistory (fun _ _ => rfl)
      (fun _ _ => rfl) ..) rfl
  | loop hl hmove =>
    refine unchanged (runHistory_loopMove hmove) ?_
    cases label <;> first | rfl | cases hl
  | coroutine hl hc ht hstep => exact runHistory_executeStep hl ht hstep
  | _ => exact unchanged rfl rfl

/-- The latest run of a task changes only when a run is created for it. -/
theorem latestRunOf_append {entries : List (String × String)}
    (h : runHistory b' = runHistory b ++ entries) (taskId : String) :
    latestRunOf b' taskId =
      (((entries.filter fun entry => entry.1 = taskId).map Prod.snd).getLast?).or
        (latestRunOf b taskId) := by
  simp only [latestRunOf, runIdsOf_eq, h, List.filter_append, List.map_append, List.getLast?_append]

theorem latestRunOf_congr (h : runHistory b' = runHistory b)
    (taskId : String) : latestRunOf b' taskId = latestRunOf b taskId := by
  simp only [latestRunOf, runIdsOf_eq, h]

variable {runId : String}

theorem mem_runIdsOf : runId ∈ runIdsOf b taskId ↔ (taskId, runId) ∈ runHistory b := by
  rw [runIdsOf_eq, List.mem_map]
  constructor
  · rintro ⟨⟨t, r⟩, hmem, rfl⟩
    rw [List.mem_filter, decide_eq_true_eq] at hmem
    obtain ⟨hmem, rfl⟩ := hmem
    exact hmem
  · intro hmem
    exact ⟨(taskId, runId), List.mem_filter.mpr ⟨hmem, by simp⟩, rfl⟩

/-- A run belongs to one task. -/
theorem runHistory_task_unique {other : String}
    (h : (taskId, runId) ∈ runHistory b) (h' : (other, runId) ∈ runHistory b) : taskId = other := by
  obtain ⟨run, hrun, he⟩ := List.mem_map.mp h
  obtain ⟨run', hrun', he'⟩ := List.mem_map.mp h'
  simp only [Prod.mk.injEq] at he he'
  have hsame : run = run' := b.runs.eq_of_key_eq hrun hrun' (he.2.trans he'.2.symm)
  rw [← he.1, ← he'.1, hsame]

/-! ## The runs that are driven -/

/-- Run ids are used once. -/
theorem runHistory_runIds_nodup (b : Blackboard) : ((runHistory b).map Prod.snd).Nodup := by
  rw [runHistory, List.map_map]
  exact b.runs.keys_nodup

/-- What a stretch of the coroutine `c` does to the tick it belongs to. -/
inductive TickMove (coroutines : Table Coroutine.taskId) (c : Coroutine) (label : Label) :
    Table Coroutine.taskId → Prop
  | ends (hn : runCreated label = []) : TickMove coroutines c label (coroutines.erase c.taskId)
  | stays (hn : runCreated label = []) : TickMove coroutines c label coroutines
  | advances {c' : Coroutine} (hn : runCreated label = []) (hid : c'.taskId = c.taskId)
      (hhandle : c'.stage.handle? = c.stage.handle?) :
      TickMove coroutines c label (coroutines.put c')
  | creates {c' : Coroutine} {handle : RunHandle}
      (hn : runCreated label = [(c.taskId, handle.runId)]) (hid : c'.taskId = c.taskId)
      (hhandle : c'.stage.handle? = some handle) :
      TickMove coroutines c label (coroutines.put c')

theorem loop_executeStep {coroutines : Table Coroutine.taskId}
    (hl : s.loop = .gathering coroutines) (hlabel : label.coroutineTask = some c.taskId)
    (h : executeStep cfg s c task label = some s') :
    ∃ coroutines', s'.loop = .gathering coroutines' ∧ TickMove coroutines c label coroutines' := by
  have advance : ∀ (s₀ : SessionState) (c' : Coroutine) (stage : Stage),
      s₀.loop = .gathering coroutines → c'.taskId = c.taskId → runCreated label = [] →
      stage.handle? = c.stage.handle? →
      ∃ coroutines', (s₀.setStage c' stage).loop = .gathering coroutines' ∧
        TickMove coroutines c label coroutines' :=
    fun s₀ c' stage hl₀ hid hn hhandle => ⟨_, loop_setStage hl₀ c' stage, .advances hn hid hhandle⟩
  have drop : ∀ s₀ : SessionState, s₀.loop = .gathering coroutines → runCreated label = [] →
      ∃ coroutines', (s₀.dropCoroutine c.taskId).loop = .gathering coroutines' ∧
        TickMove coroutines c label coroutines' :=
    fun s₀ hl₀ hn => ⟨_, loop_dropCoroutine hl₀ c.taskId, .ends hn⟩
  cases label <;> simp only [Label.coroutineTask, some.injEq, reduceCtorEq] at hlabel
  case lookupExecutor =>
    obtain ⟨hst, ⟨-, rfl⟩ | ⟨-, rfl⟩⟩ := lookupExecutor_cases h
    · exact advance _ _ _ hl rfl rfl (by rw [hst]; rfl)
    · exact drop _ hl rfl
  case ensureSession =>
    obtain ⟨executorType, hst, -, -, rfl⟩ := ensureSession_cases h
    exact advance _ _ _ hl rfl rfl (by rw [hst]; rfl)
  case createRun t runId =>
    subst hlabel
    obtain ⟨_, _, _, _, hst, -, -, -, rfl⟩ := createRun_cases h
    exact ⟨_, loop_setStage (by exact hl) _ _, .creates (by rfl) rfl rfl⟩
  case beginRunTask =>
    obtain ⟨handle, hst, rfl⟩ := beginRunTask_cases h
    exact advance _ _ _ hl rfl rfl (by rw [hst]; rfl)
  case sendDispatch =>
    obtain ⟨handle, hst, rfl⟩ := sendDispatch_cases h
    exact advance _ _ _ hl rfl rfl (by rw [hst]; rfl)
  case skipDispatch =>
    obtain ⟨handle, hst, rfl⟩ := skipDispatch_cases h
    exact advance _ _ _ hl rfl rfl (by rw [hst]; rfl)
  case runEvent t event resume =>
    obtain ⟨handle, run, hst, hrun, rfl⟩ := runEvent_cases h
    split_ifs
    · exact drop _ hl rfl
    · exact ⟨_, hl, .stays rfl⟩
  case raiseException =>
    obtain ⟨-, rfl⟩ := raiseException_cases h
    exact drop _ hl rfl

/-- A coroutine that has a run drives the latest run of its task. -/
def DrivesLatest (b : Blackboard) (c : Coroutine) : Prop :=
  ∀ handle ∈ c.stage.handle?, latestRunOf b c.taskId = some handle.runId

/-- Claimed coroutines have no run yet, running ones drive the latest run of their task. -/
def LatestRuns (s : SessionState) : Prop :=
  match s.loop with
  | .claiming _ claimed => ∀ c ∈ claimed.entries, c.stage.handle? = none
  | .gathering coroutines => ∀ c ∈ coroutines.entries, DrivesLatest s.board c
  | _ => True

theorem latestRuns_congr (hl : s'.loop = s.loop)
    (hb : runHistory s'.board = runHistory s.board) (h : LatestRuns s) : LatestRuns s' := by
  unfold LatestRuns at h ⊢
  rw [hl]
  split
  · rename_i hloop
    rw [hloop] at h
    exact h
  · rename_i hloop
    rw [hloop] at h
    intro c hc handle hhandle
    rw [latestRunOf_congr hb]
    exact h c hc handle hhandle
  · trivial

theorem latestRuns_loopMove (h : LoopMove cfg s s') (hs : LatestRuns s) : LatestRuns s' := by
  unfold LatestRuns at hs
  cases h with
  | stay => exact hs
  | rest loop hl => rcases hl with rfl | rfl | rfl <;> trivial
  | list => exact fun c hc => absurd hc (List.not_mem_nil)
  | skip hl =>
    rw [hl] at hs
    exact hs
  | claim hl ht hc =>
    rw [hl] at hs
    intro c hc
    rcases mem_put.mp hc with rfl | ⟨hc, -⟩
    · rfl
    · exact hs c hc
  | gather hl =>
    rw [hl] at hs
    intro c hc handle hhandle
    rw [hs c hc] at hhandle
    cases hhandle

theorem latestRuns_executeStep (hlabel : label.coroutineTask = some taskId)
    (hc : s.coroutine? taskId = some c) (ht : s.board.getTask taskId = some task)
    (h : executeStep cfg s c task label = some s') (hs : LatestRuns s) : LatestRuns s' := by
  obtain ⟨coroutines, hl, hget⟩ := coroutine?_eq_some hc
  have hid : c.taskId = taskId := key_of_get? hget
  have hmem : c ∈ coroutines.entries := mem_of_get? hget
  obtain ⟨coroutines', hl', hmove⟩ := loop_executeStep hl (by rw [hid]; exact hlabel) h
  have hlatest := latestRunOf_append (runHistory_executeStep hlabel ht h)
  simp only [LatestRuns, hl] at hs
  simp only [LatestRuns, hl']
  have keeps : runCreated label = [] → ∀ c ∈ coroutines.entries, DrivesLatest s'.board c := by
    intro hn c hc handle hhandle
    rw [hlatest, hn]
    exact hs c hc handle hhandle
  cases hmove with
  | ends hn => exact fun c hc => keeps hn c (mem_erase.mp hc).1
  | stays hn => exact keeps hn
  | advances hn hid hhandle =>
    intro c' hc'
    rcases mem_put.mp hc' with rfl | ⟨hc', -⟩
    · intro handle hh
      rw [hid]
      exact keeps hn c hmem handle (hhandle ▸ hh)
    · exact keeps hn c' hc'
  | @creates c' created hn hid hhandle =>
    intro other hother handle hh
    rcases mem_put.mp hother with rfl | ⟨hother, hne⟩
    · rw [hhandle, mem_def, some.injEq] at hh
      rw [hlatest, hn, hid, hh]
      simp
    · rw [hid] at hne
      rw [hlatest, hn]
      have hnot : ¬ c.taskId = other.taskId := fun he => hne he.symm
      simp only [hnot, decide_false, List.filter_cons, Bool.false_eq_true, if_false,
        List.filter_nil, List.map_nil, List.getLast?_nil, none_or]
      exact hs other hother handle hh

/-- In every reachable state, each running coroutine drives the latest run of its task. -/
theorem latestRuns_inductive (cfg : Config) : (system cfg).Inductive LatestRuns where
  initially := by
    rintro s rfl
    trivial
  preserved := by
    intro s label s' hs h
    have hhistory := step_runHistory h
    have same : s'.loop = s.loop → runCreated label = [] → LatestRuns s' := by
      intro hl hn
      rw [hn, List.append_nil] at hhistory
      exact latestRuns_congr hl hhistory hs
    cases step_cases h with
    | loop hl hmove => exact latestRuns_loopMove hmove hs
    | coroutine hl hc ht hstep => exact latestRuns_executeStep hl hc ht hstep hs
    | amendTask ht hid hstatus hpersona hlabel =>
      refine same rfl ?_
      rcases hlabel with ⟨patch, rfl⟩ | ⟨key, value, rfl⟩ <;> rfl
    | _ => exact same rfl rfl

/-- The run that the coroutine of a task drives. -/
def SessionState.runOf (s : SessionState) (taskId : String) : Option String :=
  (s.coroutine? taskId).bind fun c => c.stage.handle?.map RunHandle.runId

theorem runOf_eq_some_iff :
    s.runOf taskId = some runId ↔ ∃ coroutines c handle, s.loop = .gathering coroutines ∧
      coroutines.get? taskId = some c ∧ c.stage.handle? = some handle ∧
      handle.runId = runId := by
  constructor
  · intro h
    obtain ⟨c, hc, hh⟩ := bind_eq_some_iff.mp h
    obtain ⟨handle, hhandle, hid⟩ := map_eq_some_iff.mp hh
    obtain ⟨coroutines, hl, hget⟩ := coroutine?_eq_some hc
    exact ⟨coroutines, c, handle, hl, hget, hhandle, hid⟩
  · rintro ⟨coroutines, c, handle, hl, hget, hhandle, hid⟩
    simp [SessionState.runOf, SessionState.coroutine?, hl, Loop.running, hget, hhandle, hid]

theorem LatestRuns.latestRunOf (h : LatestRuns s)
    (hr : s.runOf taskId = some runId) : latestRunOf s.board taskId = some runId := by
  obtain ⟨coroutines, c, handle, hl, hget, hhandle, rfl⟩ := runOf_eq_some_iff.mp hr
  simp only [LatestRuns, hl] at h
  have hid : c.taskId = taskId := key_of_get? hget
  rw [← hid]
  exact h c (mem_of_get? hget) handle hhandle

/-- A coroutine keeps its run until it ends. -/
theorem step_runOf
    (hs : LatestRuns s) (h : step cfg s label = some s') (hr : s'.runOf taskId = some runId) :
    s.runOf taskId = some runId ∨ runCreated label = [(taskId, runId)] := by
  have same : s'.loop = s.loop → s.runOf taskId = some runId ∨
      runCreated label = [(taskId, runId)] := by
    intro hl
    left
    rw [← hr, SessionState.runOf, SessionState.runOf, SessionState.coroutine?,
      SessionState.coroutine?, hl]
  obtain ⟨coroutines, c, handle, hl', hget, hhandle, rfl⟩ := runOf_eq_some_iff.mp hr
  cases step_cases h with
  | loop hloop hmove =>
    cases hmove with
    | stay => exact .inl hr
    | rest loop hl => rcases hl with rfl | rfl | rfl <;> cases hl'
    | list => cases hl'
    | skip => cases hl'
    | claim => cases hl'
    | gather hl =>
      cases hl'
      simp only [LatestRuns, hl] at hs
      rw [hs c (mem_of_get? hget)] at hhandle
      cases hhandle
  | @coroutine _ _ other d task hlabel hd ht hstep =>
    obtain ⟨before, hbefore, hdget⟩ := coroutine?_eq_some hd
    have hdid : d.taskId = other := key_of_get? hdget
    obtain ⟨after, hafter, hmove⟩ :=
      loop_executeStep hbefore (by rw [hdid]; exact hlabel) hstep
    rw [hafter] at hl'
    cases hl'
    have kept : before.get? taskId = some c → s.runOf taskId = some handle.runId :=
      fun hc => runOf_eq_some_iff.mpr ⟨before, c, handle, hbefore, hc, hhandle, rfl⟩
    cases hmove with
    | ends hn =>
      rw [Table.get?_erase] at hget
      split_ifs at hget
      exact .inl (kept hget)
    | stays hn => exact .inl (kept hget)
    | advances hn hid hh =>
      rw [Table.get?_put] at hget
      split_ifs at hget with he
      · cases hget
        rw [hid, hdid] at he
        subst he
        rw [hh] at hhandle
        exact .inl (runOf_eq_some_iff.mpr ⟨before, d, handle, hbefore, hdget, hhandle, rfl⟩)
      · exact .inl (kept hget)
    | creates hn hid hh =>
      rw [Table.get?_put] at hget
      split_ifs at hget with he
      · cases hget
        rw [hh, some.injEq] at hhandle
        right
        rw [hn, hhandle, ← hid, he]
      · exact .inl (kept hget)
  | _ => exact same rfl

/-- Whatever commands and events come in between. -/
theorem coroutines_drive_latest (cfg : Config) (labels : List Label) :
    (system cfg).Always LatestRuns initialState labels :=
  (latestRuns_inductive cfg).always rfl

end Newbro.SessionRuntime
