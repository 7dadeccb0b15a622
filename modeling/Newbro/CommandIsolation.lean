import Newbro.CancelledTasks

/-!
# Commands and the runs of other tasks

A command finds its run through the binding of its task, the execution session and the
session's active or latest run. Tasks of one thread share an execution session, so that
run may belong to another task. This module says exactly when a command leaves the other
tasks alone.
-/
namespace Newbro.SessionRuntime

open Library Protocol SessionManager SummaryManager
  SessionCommands InteractionRequests Reconcile Option

/-- Nothing of another task's runs is changed, signalled or forgotten. -/
structure Isolated (b b' : Blackboard) (signals : List Signal) (taskId : String) : Prop where
  runs_kept : ∀ run ∈ b.runs.entries, run.taskId ≠ taskId → b'.getRun run.runId = some run
  signals_own : ∀ signal ∈ signals, ∀ run, b.getRun signal.runId = some run →
    run.taskId = taskId
  active_kept : ∀ session ∈ b.sessions.entries, ∀ run ∈ b.runs.entries,
    session.activeRunId = some run.runId → run.taskId ≠ taskId →
    ∃ session', b'.getSession session.executionSessionId = some session' ∧
      session'.activeRunId = some run.runId

/-- `apply_command` of the command, where it is carried out, is isolated to its task. -/
def CommandIsolated (cfg : Config) (live : LiveSessions) (b : Blackboard)
    (command : TaskCommand) : Prop :=
  ∀ b' signals, applyCommand cfg live b command = .ok (b', signals) →
    Isolated b b' signals command.taskId

/-- The executor of the run takes a pause. -/
def pausable (cfg : Config) (run : ExecutionRun) : Bool :=
  (cfg.registry.get? run.executorType).any ExecutorCapabilities.supportsPause

/-- A command on a run of another task that still leaves that run alone: a pause of a run
that is paused already and gets no signal, or a requeue that forgets no active run. -/
def leavesRunAlone (cfg : Config) (b : Blackboard) (command : TaskCommand)
    (run : ExecutionRun) : Prop :=
  match command.commandType with
  | .pauseTask => run.status = .paused ∧ pausable cfg run = false
  | .preemptTask => run.status = .paused ∧ pausable cfg run = false
  | .cancelTask => False
  | .resumeTask => ∀ session ∈ boundSession b command.taskId, session.activeRunId ≠ some run.runId
  | .retryTask => ∀ session ∈ boundSession b command.taskId, session.activeRunId ≠ some run.runId

/-- The command finds no run, or one of its own task, or one it leaves alone. -/
def StaysWithinTask (cfg : Config) (b : Blackboard) (command : TaskCommand) : Prop :=
  ∀ run ∈ commandRun b command.taskId,
    run.taskId = command.taskId ∨ leavesRunAlone cfg b command run

/-- The command is refused, or its task is unknown. -/
def NotCarriedOut (cfg : Config) (b : Blackboard) (command : TaskCommand) : Prop :=
  ∀ task ∈ b.getTask command.taskId,
    (validateTaskCommand cfg b task command.commandType).isSome

variable {b : Blackboard}

variable {taskId : String} {run : ExecutionRun}

theorem commandRun_spec
    (h : commandRun b taskId = some run) :
    b.getRun run.runId = some run ∧ isLive run.status = true ∧
      ∃ session, boundSession b taskId = some session := by
  unfold commandRun selectCommandRun at h
  obtain ⟨session, hsession, hfind⟩ := bind_eq_some_iff.mp h
  have hlive : isLive run.status = true := by simpa using List.find?_some hfind
  obtain ⟨runId, -, hget⟩ := List.mem_filterMap.mp (List.mem_of_find?_eq_some hfind)
  have hid : run.runId = runId := Table.key_of_get? hget
  exact ⟨hid ▸ hget, hlive, session, hsession⟩

variable {session : ExecutionSession}

theorem boundSession_spec (h : boundSession b taskId = some session) :
    b.getSession session.executionSessionId = some session := by
  obtain ⟨sessionId, -, hget⟩ := bind_eq_some_iff.mp h
  have hid : session.executionSessionId = sessionId := Table.key_of_get? hget
  exact hid ▸ hget

/-! ## What a carried-out command changes -/

/-- The status a command gives to its run, if it sets one. -/
def commandRunStatus : TaskCommandType → Option RunStatus
  | .pauseTask => some .paused
  | .preemptTask => some .paused
  | .cancelTask => some .cancelled
  | .resumeTask => none
  | .retryTask => none

variable {id : String}

/-- Capturing a resume handle keeps the active run of every session. -/
theorem active_capture (cfg : Config) (live : LiveSessions) (b : Blackboard)
    (sessionId runId : Option String) (h : b.getSession id = some session) :
    ∃ session', (capturePauseResumeHandle cfg live b sessionId runId).getSession id =
      some session' ∧ session'.activeRunId = session.activeRunId := by
  unfold capturePauseResumeHandle
  split
  · rename_i captured run hcaptured hrun
    simp only
    split
    · rename_i handle _ _
      simp only [Blackboard.getSession, Blackboard.sessions_putSession, Table.get?_put]
      by_cases hid : captured.executionSessionId = id
      · obtain ⟨sid, -, hsid⟩ := bind_eq_some_iff.mp hcaptured
        have hsid' : captured.executionSessionId = sid := Table.key_of_get? hsid
        rw [← hsid', hid, h] at hsid
        obtain rfl := some.inj hsid
        exact ⟨{ session with latestResumeHandle := some handle }, by simp [hid], rfl⟩
      · exact ⟨session, by simpa [hid, Blackboard.getSession] using h, rfl⟩
    · exact ⟨session, h, rfl⟩
  · exact ⟨session, h, rfl⟩

theorem runs_markCommand (cfg : Config) (live : LiveSessions) (b : Blackboard)
    (c : CommandInFlight) : (markCommand cfg live b c).1.runs = b.runs :=
  markCommand_frame Blackboard.runs (fun _ _ => rfl) (fun _ _ => rfl) ..

theorem active_markCommand (cfg : Config) (live : LiveSessions) (b : Blackboard)
    (c : CommandInFlight) (h : b.getSession id = some session) :
    ∃ session', (markCommand cfg live b c).1.getSession id = some session' ∧
      session'.activeRunId = session.activeRunId := by
  simp only [markCommand, Blackboard.getSession,
    setTaskStatus_frame Blackboard.sessions fun _ _ => rfl]
  split_ifs
  · exact active_capture cfg live b c.sessionId c.runId h
  · exact ⟨session, h, rfl⟩

theorem signals_markCommand (cfg : Config) (live : LiveSessions) (b : Blackboard)
    (c : CommandInFlight) :
    (markCommand cfg live b c).2 = commandSignals cfg b c.command.commandType c.runId := by
  simp only [markCommand, commandSignals]
  split_ifs
  · have hr : (capturePauseResumeHandle cfg live b c.sessionId c.runId).getRun = b.getRun := by
      funext runId
      rw [Blackboard.getRun, capturePauseResumeHandle_frame Blackboard.runs fun _ _ => rfl,
        Blackboard.getRun]
    rw [hr]
  · rfl

variable {c : CommandInFlight}

/-- The runs after a command: the selected one takes the status of the command. -/
theorem runs_finishCommand
    (ht : (b.getTask c.command.taskId).isSome) :
    (finishCommand b c).runs = match commandRunStatus c.command.commandType, c.runId with
      | some status, some runId => (setRunStatus b runId status).runs
      | _, _ => b.runs := by
  obtain ⟨task, htask⟩ := isSome_iff_exists.mp ht
  unfold finishCommand
  simp only [htask]
  cases c.binding <;> cases c.runId <;> cases c.command.commandType <;>
    simp [commandRunStatus, clearActiveRun_frame Blackboard.runs fun _ _ => rfl,
      cancelRequestsForTask_frame Blackboard.runs fun _ _ => rfl]

/-- Whether a command forgets the active run of its session. -/
def clearsActiveRun (commandType : TaskCommandType) (runId : Option String) : Bool :=
  commandType = .cancelTask || (requeues commandType && runId.isSome)

theorem clearActiveRun_sessions_congr {b' : Blackboard} (h : b'.sessions = b.sessions)
    (sessionId runId : Option String) :
    (clearActiveRun b' sessionId runId).sessions = (clearActiveRun b sessionId runId).sessions := by
  have hg : b'.getSession = b.getSession := by
    funext id
    rw [Blackboard.getSession, h, Blackboard.getSession]
  unfold clearActiveRun
  rw [hg]
  split
  · exact h
  · split_ifs
    · simp [h]
    · exact h

/-- The sessions after a command: the bound one may forget its active run. -/
theorem sessions_finishCommand
    (ht : (b.getTask c.command.taskId).isSome) :
    (finishCommand b c).sessions =
      if clearsActiveRun c.command.commandType c.runId then
        (clearActiveRun b c.sessionId c.runId).sessions
      else b.sessions := by
  obtain ⟨task, htask⟩ := isSome_iff_exists.mp ht
  have hc : ∀ runId status, (clearActiveRun (setRunStatus b runId status) c.sessionId
      (some runId)).sessions = (clearActiveRun b c.sessionId (some runId)).sessions :=
    fun runId status => clearActiveRun_sessions_congr
      (setRunStatus_frame Blackboard.sessions (fun _ _ => rfl) ..) _ _
  unfold finishCommand
  simp only [htask]
  cases c.binding <;> cases c.runId <;> cases c.command.commandType <;>
    simp [clearsActiveRun, requeues, setRunStatus_frame Blackboard.sessions fun _ _ => rfl,
      cancelRequestsForTask_frame Blackboard.sessions fun _ _ => rfl, hc]

/-- The runs after the last stretch of a command, by id. -/
theorem getRun_finishCommand
    (ht : (b.getTask c.command.taskId).isSome) (runId : String) :
    (finishCommand b c).getRun runId =
      match commandRunStatus c.command.commandType, c.runId.bind b.getRun with
      | some status, some run =>
        if run.runId = runId then some { run with status := status } else b.getRun runId
      | _, _ => b.getRun runId := by
  rw [Blackboard.getRun, runs_finishCommand ht]
  cases commandRunStatus c.command.commandType with
  | none => rfl
  | some status =>
    cases hid : c.runId with
    | none => rfl
    | some selected =>
      simp only [setRunStatus, bind_some]
      cases hr : b.getRun selected with
      | none => rfl
      | some run => simp only [Blackboard.getRun, Blackboard.runs_putRun, Table.get?_put]

variable {commandType : TaskCommandType}

section carriedOut

variable {cfg : Config} {live : LiveSessions} {b : Blackboard} {command : TaskCommand}
  {task : Task}

section

variable (ht : b.getTask command.taskId = some task)
include ht

/-- The store and the signals of a command that is carried out. -/
theorem applyCommand_carriedOut (hv : validateTaskCommand cfg b task command.commandType = none) :
    applyCommand cfg live b command =
      .ok (finishCommand (markCommand cfg live (b.appendCommand command)
            (issuedCommand b command)).1 (issuedCommand b command),
          (markCommand cfg live (b.appendCommand command) (issuedCommand b command)).2) := by
  simp only [applyCommand, beginCommand, ht, hv]

/-- The marked task still exists. -/
theorem getTask_marked : ((markCommand cfg live (b.appendCommand command)
      (issuedCommand b command)).1.getTask (issuedCommand b command).command.taskId).isSome := by
  have hmark := taskView_markCommand cfg live (b.appendCommand command) (issuedCommand b command)
    command.taskId
  have hb : taskView (b.appendCommand command) command.taskId = taskView b command.taskId :=
    taskView_congr rfl _
  have hsome : (taskView (markCommand cfg live (b.appendCommand command)
      (issuedCommand b command)).1 command.taskId).isSome := by
    rw [hmark, hb]
    simp [overwrite, taskView, ht]
  simpa [taskView, issuedCommand] using hsome

/-- The runs of a carried-out command: the selected run takes its status. -/
theorem getRun_carriedOut (runId : String) :
    (finishCommand (markCommand cfg live (b.appendCommand command)
        (issuedCommand b command)).1 (issuedCommand b command)).getRun runId =
      match commandRunStatus command.commandType, commandRun b command.taskId with
      | some status, some run =>
        if run.runId = runId then some { run with status := status } else b.getRun runId
      | _, _ => b.getRun runId := by
  have hruns : (markCommand cfg live (b.appendCommand command)
      (issuedCommand b command)).1.getRun = b.getRun := by
    funext id
    rw [Blackboard.getRun, runs_markCommand]
    rfl
  have hrun : (issuedCommand b command).runId.bind b.getRun = commandRun b command.taskId := by
    cases hr : commandRun b command.taskId with
    | none => simp [issuedCommand, hr]
    | some run => simpa [issuedCommand, hr] using (commandRun_spec hr).1
  rw [getRun_finishCommand (getTask_marked ht), hruns, hrun]
  rfl

end

theorem signals_carriedOut :
    (markCommand cfg live (b.appendCommand command) (issuedCommand b command)).2 =
      commandSignals cfg b command.commandType
        ((commandRun b command.taskId).map ExecutionRun.runId) := by
  rw [signals_markCommand]
  rfl

/-- The active run of a session after a carried-out command. -/
theorem active_carriedOut (cfg : Config) (live : LiveSessions)
    (ht : b.getTask command.taskId = some task)
    (h : b.getSession id = some session) :
    ∃ session', (finishCommand (markCommand cfg live (b.appendCommand command)
        (issuedCommand b command)).1 (issuedCommand b command)).getSession id = some session' ∧
      session'.activeRunId =
        if clearsActiveRun command.commandType (issuedCommand b command).runId = true ∧
            (issuedCommand b command).sessionId = some id ∧
            session.activeRunId = (issuedCommand b command).runId then none
        else session.activeRunId := by
  have hlogged : (b.appendCommand command).getSession id = some session := h
  obtain ⟨marked, hmarked, hactive⟩ :=
    active_markCommand cfg live (b.appendCommand command) (issuedCommand b command) hlogged
  rw [Blackboard.getSession, sessions_finishCommand (getTask_marked ht)]
  by_cases hclear : clearsActiveRun command.commandType (issuedCommand b command).runId = true
  · have hclear' : clearsActiveRun (issuedCommand b command).command.commandType
        (issuedCommand b command).runId = true := hclear
    simp only [hclear', hclear, if_true, true_and]
    unfold clearActiveRun
    by_cases hid : (issuedCommand b command).sessionId = some id
    · simp only [hid, bind_some, hmarked, hactive, true_and]
      split_ifs with ha
      · have hmid : marked.executionSessionId = id := Table.key_of_get? hmarked
        exact ⟨{ marked with activeRunId := none }, by simp [hmid], rfl⟩
      · exact ⟨marked, hmarked, hactive⟩
    · simp only [hid, false_and, if_false]
      split
      · exact ⟨marked, hmarked, hactive⟩
      · rename_i other hother
        split_ifs
        · obtain ⟨sid, hsid, hget⟩ := bind_eq_some_iff.mp hother
          have hoid : other.executionSessionId = sid := Table.key_of_get? hget
          have hne : other.executionSessionId ≠ id := by
            rw [hoid]
            rintro rfl
            exact hid hsid
          refine ⟨marked, ?_, hactive⟩
          rw [Blackboard.sessions_putSession, Table.get?_put, if_neg hne]
          exact hmarked
        · exact ⟨marked, hmarked, hactive⟩
  · have hclear' : ¬ clearsActiveRun (issuedCommand b command).command.commandType
        (issuedCommand b command).runId = true := hclear
    simp only [hclear', hclear, if_false, false_and, Bool.false_eq_true]
    exact ⟨marked, hmarked, hactive⟩

theorem commandSignals_runId {runId : Option String}
    {signal : Signal} (h : signal ∈ commandSignals cfg b commandType runId) :
    ∃ run, runId.bind b.getRun = some run ∧ signal.runId = run.runId := by
  unfold commandSignals at h
  split at h
  · exact absurd h (List.not_mem_nil)
  · rename_i run hrun
    refine ⟨run, hrun, ?_⟩
    split at h
    all_goals try split_ifs at h
    all_goals first
      | exact absurd h (List.not_mem_nil)
      | (obtain rfl := List.mem_singleton.mp h; rfl)

/-- A pause sends no signal exactly if the executor of the run takes none. -/
theorem pause_silent_iff (h : b.getRun run.runId = some run)
    (hp : isPause commandType = true) :
    commandSignals cfg b commandType (some run.runId) = [] ↔ pausable cfg run = false := by
  unfold commandSignals pausable
  simp only [bind_some, h]
  cases hc : cfg.registry.get? run.executorType with
  | none => simp
  | some capabilities => cases commandType <;> simp [isPause] at hp ⊢

/-- A command that stays within its task is isolated to it. -/
theorem isolated_of_stays (ht : b.getTask command.taskId = some task)
    (hstay : StaysWithinTask cfg b command) :
    Isolated b (finishCommand (markCommand cfg live (b.appendCommand command)
        (issuedCommand b command)).1 (issuedCommand b command))
      (commandSignals cfg b command.commandType
        ((commandRun b command.taskId).map ExecutionRun.runId)) command.taskId where
  runs_kept := by
    intro other hmem hne
    have hother : b.getRun other.runId = some other := Table.get?_of_mem hmem
    rw [getRun_carriedOut ht]
    split
    · rename_i status run hst hrun
      split_ifs with hid
      · have heq : run = other := by
          have hget := (commandRun_spec hrun).1
          rw [hid, hother] at hget
          exact (some.inj hget).symm
        subst heq
        have hleft := (hstay run hrun).resolve_left hne
        unfold leavesRunAlone at hleft
        cases hct : command.commandType <;> rw [hct] at hst hleft <;> cases hst
        · rw [← hleft.1]
        · exact hleft.elim
        · rw [← hleft.1]
      · exact hother
    · exact hother
  signals_own := by
    intro signal hsignal other hother
    obtain ⟨run, hbind, hid⟩ := commandSignals_runId hsignal
    obtain ⟨selected, hsel, hget⟩ := bind_eq_some_iff.mp hbind
    obtain ⟨run', hrun, rfl⟩ := map_eq_some_iff.mp hsel
    have hrun' : run' = run := by
      rw [(commandRun_spec hrun).1] at hget
      exact some.inj hget
    subst hrun'
    have heq : other = run' := by
      rw [hid, (commandRun_spec hrun).1] at hother
      exact (some.inj hother).symm
    subst heq
    rw [hid] at hother
    rcases hstay other hrun with hown | hleft
    · exact hown
    · rw [hrun, map_some] at hsignal
      unfold leavesRunAlone at hleft
      cases hct : command.commandType <;> rw [hct] at hsignal hleft
      · rw [(pause_silent_iff hother rfl).mpr hleft.2] at hsignal
        exact absurd hsignal (List.not_mem_nil)
      · exact hleft.elim
      · rw [(pause_silent_iff hother rfl).mpr hleft.2] at hsignal
        exact absurd hsignal (List.not_mem_nil)
      all_goals
        unfold commandSignals at hsignal
        split at hsignal
        · exact absurd hsignal (List.not_mem_nil)
        · split at hsignal <;> contradiction
  active_kept := by
    intro session hmem run hrun hactive hne
    have hsession : b.getSession session.executionSessionId = some session :=
      Table.get?_of_mem hmem
    obtain ⟨session', hget, hafter⟩ := active_carriedOut cfg live ht hsession
    refine ⟨session', hget, ?_⟩
    rw [hafter]
    split_ifs with hcleared
    · obtain ⟨hclear, hbound, hsel⟩ := hcleared
      rw [hactive] at hsel
      obtain ⟨selected, hselected, hid⟩ := map_eq_some_iff.mp hsel.symm
      have heq : selected = run := by
        have hg := (commandRun_spec hselected).1
        rw [hid, Blackboard.getRun, Table.get?_of_mem hrun] at hg
        exact (some.inj hg).symm
      subst heq
      obtain ⟨bound, hb, hbid⟩ := map_eq_some_iff.mp hbound
      have hbs : bound = session := by
        have hg := boundSession_spec hb
        rw [hbid, hsession] at hg
        exact (some.inj hg).symm
      subst hbs
      have hleft := (hstay selected hselected).resolve_left hne
      unfold leavesRunAlone at hleft
      unfold clearsActiveRun requeues at hclear
      cases hct : command.commandType <;> rw [hct] at hclear hleft
      · simp at hclear
      · exact hleft.elim
      · simp at hclear
      · exact absurd hactive (hleft bound hb)
      · exact absurd hactive (hleft bound hb)
    · exact hactive

/-- A carried-out command that is isolated to its task stays within it. -/
theorem stays_of_isolated (ht : b.getTask command.taskId = some task)
    (h : Isolated b (finishCommand (markCommand cfg live (b.appendCommand command)
        (issuedCommand b command)).1 (issuedCommand b command))
      (commandSignals cfg b command.commandType
        ((commandRun b command.taskId).map ExecutionRun.runId)) command.taskId) :
    StaysWithinTask cfg b command := by
  intro run hrun
  by_cases hown : run.taskId = command.taskId
  · exact .inl hown
  right
  obtain ⟨hget, hlive, -⟩ := commandRun_spec hrun
  have hmem : run ∈ b.runs.entries := Table.mem_of_get? hget
  have hkept := h.runs_kept run hmem hown
  rw [getRun_carriedOut ht, mem_def.mp hrun] at hkept
  have hsilent : ∀ signal ∈ commandSignals cfg b command.commandType (some run.runId), False := by
    intro signal hsignal
    obtain ⟨run', hbind, hid⟩ := commandSignals_runId hsignal
    have hrun' : run' = run := by
      rw [bind_some, hget] at hbind
      exact (some.inj hbind).symm
    subst hrun'
    refine hown (h.signals_own signal ?_ run' (by rw [hid]; exact hget))
    rw [mem_def.mp hrun]
    exact hsignal
  have hforgets : requeues command.commandType = true →
      ∀ session ∈ boundSession b command.taskId, session.activeRunId ≠ some run.runId := by
    intro hreq session hsession hactive
    have hs := boundSession_spec hsession
    obtain ⟨kept, hkeptget, hkeptactive⟩ :=
      h.active_kept session (Table.mem_of_get? hs) run hmem hactive hown
    obtain ⟨session', hget', hafter⟩ := active_carriedOut cfg live ht hs
    rw [hget'] at hkeptget
    obtain rfl := some.inj hkeptget
    have hcleared : clearsActiveRun command.commandType (issuedCommand b command).runId = true ∧
        (issuedCommand b command).sessionId = some session.executionSessionId ∧
        session.activeRunId = (issuedCommand b command).runId := by
      refine ⟨?_, ?_, ?_⟩
      · simp [clearsActiveRun, hreq, issuedCommand, mem_def.mp hrun]
      · simp [issuedCommand, mem_def.mp hsession]
      · simp [issuedCommand, mem_def.mp hrun, hactive]
    rw [hafter, if_pos hcleared] at hkeptactive
    cases hkeptactive
  unfold leavesRunAlone
  cases hct : command.commandType <;> rw [hct] at hkept hsilent hforgets
  · exact ⟨by simpa [commandRunStatus] using congrArg (Option.map ExecutionRun.status) hkept.symm,
      (pause_silent_iff hget rfl).mp (List.eq_nil_iff_forall_not_mem.mpr hsilent)⟩
  · have hst := congrArg (Option.map ExecutionRun.status) hkept.symm
    simp only [commandRunStatus, if_true, map_some, some.injEq] at hst
    rw [hst] at hlive
    exact absurd hlive (by decide)
  · exact ⟨by simpa [commandRunStatus] using congrArg (Option.map ExecutionRun.status) hkept.symm,
      (pause_silent_iff hget rfl).mp (List.eq_nil_iff_forall_not_mem.mpr hsilent)⟩
  · exact hforgets rfl
  · exact hforgets rfl

end carriedOut

/-- A command leaves the runs of all other tasks alone exactly if it is not carried out,
finds no run, finds a run of its own task, or finds another task's run and leaves it as
it is. -/
theorem commandIsolated_iff (cfg : Config) (live : LiveSessions) (b : Blackboard)
    (command : TaskCommand) : CommandIsolated cfg live b command ↔
      NotCarriedOut cfg b command ∨ StaysWithinTask cfg b command := by
  cases ht : b.getTask command.taskId with
  | none =>
    refine iff_of_true ?_ (.inl ?_)
    · intro b' signals h
      simp only [applyCommand, beginCommand, ht, Except.ok.injEq, Prod.mk.injEq] at h
      obtain ⟨rfl, rfl⟩ := h
      exact ⟨fun run hr _ => Table.get?_of_mem hr, by simp,
        fun session hs run _ ha _ => ⟨session, Table.get?_of_mem hs, ha⟩⟩
    · simp [NotCarriedOut, ht]
  | some task =>
    cases hv : validateTaskCommand cfg b task command.commandType with
    | some message =>
      refine iff_of_true ?_ (.inl ?_)
      · intro b' signals h
        simp [applyCommand, beginCommand, ht, hv] at h
      · simp [NotCarriedOut, ht, hv]
    | none =>
      have hcarried : ¬ NotCarriedOut cfg b command := by simp [NotCarriedOut, ht, hv]
      rw [or_iff_right hcarried]
      constructor
      · intro h
        have hiso := h _ _ (applyCommand_carriedOut ht hv)
        rw [signals_carriedOut] at hiso
        exact stays_of_isolated ht hiso
      · intro hstay b' signals h
        rw [applyCommand_carriedOut ht hv, signals_carriedOut] at h
        simp only [Except.ok.injEq, Prod.mk.injEq] at h
        obtain ⟨rfl, rfl⟩ := h
        exact isolated_of_stays ht hstay

/-- Two tasks of one bro, one after the other, on the same execution session. -/
def sharedSessionLabels : List Label :=
  [.syncPersonas (Table.empty.put
      { personaId := "persona-1", name := "Ada", broDetailSessionId := "detail-1" }),
    .startCreation "creation-1" .sendDraft (some "persona-1"),
    .finishCreation "creation-1"
      { taskId := "task-1", rootTaskId := "task-1", title := "First", goal := "First"
        preferredExecutor := some "codex" }] ++
  tickLabels ++ executeLabels "task-1" "session-1" "run-1" ++
  [.runEvent "task-1" ⟨"run-1", "session-1", .completed, some "Done.", Table.empty⟩ none,
    .finishTick, .checkRunnable,
    .startCreation "creation-2" .sendDraft (some "persona-1"),
    .finishCreation "creation-2"
      { taskId := "task-2", rootTaskId := "task-2", title := "Second", goal := "Second"
        preferredExecutor := some "codex" }] ++
  tickLabels ++ executeLabels "task-2" "session-2" "run-2"

/-- Cancelling the completed first task cancels the run of the second. -/
theorem command_not_isolated : ¬ ∀ (cfg : Config) (s : SessionState) (command : TaskCommand),
      (system cfg).Reachable s → CommandIsolated cfg s.live s.board command := by
  intro h
  have hiso := h codexConfig (reached codexConfig sharedSessionLabels)
    ⟨"cmd-1", "task-1", .cancelTask, "user", none⟩ (reachable_reached _ _)
  have hexists : ((reached codexConfig sharedSessionLabels).board.getTask "task-1").isSome := by
    decide
  obtain ⟨task, ht⟩ := isSome_iff_exists.mp hexists
  have hall := hiso _ _ (applyCommand_carriedOut ht rfl)
  rw [signals_carriedOut] at hall
  have hstay := stays_of_isolated ht hall
  have hrun : (commandRun (reached codexConfig sharedSessionLabels).board "task-1").map
      ExecutionRun.taskId = some "task-2" := by decide
  obtain ⟨run, hselected, htask⟩ := map_eq_some_iff.mp hrun
  rcases hstay run hselected with hown | hleft
  · rw [htask] at hown
    exact absurd hown (by decide)
  · exact hleft

end Newbro.SessionRuntime
