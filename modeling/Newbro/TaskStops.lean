import Newbro.LiveTranscripts
import Newbro.SummaryWrites

/-!
# Stopping a task

`stop_active_task_decision` cancels the task that is named, and otherwise the latest task in
one of the four preferred statuses, and otherwise the latest task whatever its status is. The
cancel command is not validated, so the task may be a finished one.
-/
namespace Newbro.SessionRuntime

open Library Protocol SessionManager SummaryManager
  SessionCommands Reconcile

inductive RuntimeSessionState where
  | idle | drafting | waitingForConfirmation | taskRunning | taskBlocked | taskComplete
  | userReviewingArtifact
  deriving Repr, DecidableEq

/-- An update of the interface about one task. -/
structure UiUpdate where
  type : String
  taskId : String
  deriving Repr, DecidableEq

/-- What the runtime answers, as far as decisions about tasks set it. -/
structure RuntimeDecision where
  shouldSpeak : Bool := false
  responseText : String := ""
  interactionType : Drafts.InteractionType := .communication
  sessionState : RuntimeSessionState := .idle
  uiUpdates : List UiUpdate := []
  taskId : Option String := none
  deriving Repr, DecidableEq

/-- The statuses in which `_resolve_status_task` prefers a task. -/
def isPreferredStatus (status : TaskStatus) : Bool :=
  status = .running || status = .queued || status = .waitingUserInput || status = .paused

def resolveStatusTask (b : Blackboard) (taskId : Option String) : Option Task :=
  match taskId with
  | some taskId => b.getTask taskId
  | none =>
    match b.tasks.entries.reverse.find? fun task => isPreferredStatus task.status with
    | some task => some task
    | none => b.tasks.entries.getLast?

def noTaskDecision : RuntimeDecision :=
  { shouldSpeak := true
    responseText := "No active task to stop."
    interactionType := .taskControl
    sessionState := .idle }

def stoppedDecision (task : Task) : RuntimeDecision :=
  { shouldSpeak := true
    responseText := "Stopped."
    interactionType := .taskControl
    sessionState := .idle
    uiUpdates := [⟨"task.stopped", task.taskId⟩]
    taskId := some task.taskId }

/-- A stop that found a task never answers that there is none. -/
theorem stoppedDecision_ne (task : Task) : stoppedDecision task ≠ noTaskDecision := by
  intro h
  have htask : some task.taskId = none := congrArg RuntimeDecision.taskId h
  cases htask

/-- The command that stops a task. -/
def stopCommand (commandId : String) (task : Task) (reason : Option String) : TaskCommand :=
  { commandId := commandId
    taskId := task.taskId
    commandType := .cancelTask
    createdBy := "runtime"
    reason := reason }

/-- What a stop leaves behind. -/
structure StopResult where
  board : Blackboard
  signals : List Signal
  decision : RuntimeDecision

/-- `stop_active_task_decision`; `commandId` is the fresh id of its command. -/
def stopActiveTaskDecision (cfg : Config) (live : LiveSessions) (b : Blackboard)
    (commandId : String) (taskId reason : Option String) : Except String StopResult :=
  match resolveStatusTask b taskId with
  | none => .ok ⟨b, [], noTaskDecision⟩
  | some task =>
    match applyCommand cfg live b (stopCommand commandId task reason) with
    | .error message => .error message
    | .ok (board, signals) => .ok ⟨board, signals, stoppedDecision task⟩

def isFinished (status : TaskStatus) : Bool :=
  status = .completed || status = .failed || status = .cancelled

/-- Some task is in an active status. -/
def hasActiveTask (b : Blackboard) : Bool := b.tasks.entries.any fun task => isActive task.status

/-- A stop keeps the status and the summary of every finished task, and without an id and
an active task it changes nothing and says so. -/
structure StopsNothingFinished (b : Blackboard) (taskId : Option String)
    (result : StopResult) : Prop where
  finished_kept : ∀ task ∈ b.tasks.entries, isFinished task.status = true →
    (result.board.getTask task.taskId).map Task.status = some task.status ∧
      result.board.getSummary task.taskId = b.getSummary task.taskId
  nothing_active : taskId = none → hasActiveTask b = false →
    result.board = b ∧ result.signals = [] ∧ result.decision = noTaskDecision

/-- The task is unfinished, or a cancelled one whose summary says nothing but that. -/
def StopsAsItIs (b : Blackboard) (task : Task) : Prop :=
  isFinished task.status = true →
    task.status = .cancelled ∧ b.getSummary task.taskId = some (cancelledSummary task)

/-- The stop falls on a task it can stop, and without an id on one only if some task of
the session is active. -/
structure FallsOnUnfinished (b : Blackboard) (taskId : Option String) : Prop where
  stoppable : ∀ task ∈ resolveStatusTask b taskId, StopsAsItIs b task
  active : taskId = none → b.tasks.entries = [] ∨ hasActiveTask b = true

/-! ## What a stop writes -/

variable {b : Blackboard} {taskId : Option String}

theorem getTask_of_resolveStatusTask {task : Task}
    (h : resolveStatusTask b taskId = some task) : b.getTask task.taskId = some task := by
  have hmem : task ∈ b.tasks.entries := by
    unfold resolveStatusTask at h
    split at h
    · exact Table.mem_of_get? h
    · split at h
      · rename_i found hfind
        have hin := List.mem_of_find?_eq_some hfind
        rw [List.mem_reverse] at hin
        cases h
        exact hin
      · exact List.mem_of_getLast? h
  exact Table.get?_of_mem hmem

/-- Without an id a task is found exactly if there is one. -/
theorem resolveStatusTask_eq_none :
    resolveStatusTask b none = none ↔ b.tasks.entries = [] := by
  constructor
  · intro h
    simp only [resolveStatusTask] at h
    split at h
    · cases h
    · exact List.getLast?_eq_none_iff.mp h
  · intro h
    simp [resolveStatusTask, h]

section carriedOut

variable {cfg : Config} {live : LiveSessions} {b : Blackboard} {commandId : String}
  {reason : Option String} {task : Task}

/-- The store after the cancel command of a stop. -/
def stoppedBoard (cfg : Config) (live : LiveSessions) (b : Blackboard) (commandId : String)
    (reason : Option String) (task : Task) : Blackboard :=
  let command := stopCommand commandId task reason
  finishCommand (markCommand cfg live (b.appendCommand command) (issuedCommand b command)).1
    (issuedCommand b command)

/-- The cancel command is carried out, whatever the status of its task is. -/
theorem stopActiveTaskDecision_eq (cfg : Config) (live : LiveSessions) (commandId : String)
    (reason : Option String) (h : resolveStatusTask b taskId = some task) :
    ∃ signals, stopActiveTaskDecision cfg live b commandId taskId reason =
      .ok ⟨stoppedBoard cfg live b commandId reason task, signals, stoppedDecision task⟩ := by
  have ht := getTask_of_resolveStatusTask h
  have hcarried : applyCommand cfg live b (stopCommand commandId task reason) = .ok (_, _) :=
    applyCommand_carriedOut ht rfl
  unfold stopActiveTaskDecision
  rw [h]
  simp only [hcarried]
  exact ⟨_, rfl⟩

section

variable (ht : b.getTask task.taskId = some task)
include ht

/-- The middle stretch of the command marks the task. -/
theorem markCommand_stop :
    (markCommand cfg live (b.appendCommand (stopCommand commandId task reason))
      (issuedCommand b (stopCommand commandId task reason))).1 =
      (b.appendCommand (stopCommand commandId task reason)).putTask
        { task with status := .cancelled } := by
  have hlogged : (b.appendCommand (stopCommand commandId task reason)).getTask task.taskId =
      some task := ht
  have hmark : (markCommand cfg live (b.appendCommand (stopCommand commandId task reason))
      (issuedCommand b (stopCommand commandId task reason))).1 =
      setTaskStatus (b.appendCommand (stopCommand commandId task reason)) task.taskId .cancelled :=
    rfl
  rw [hmark, setTaskStatus, hlogged]

/-- Only the task of the stop is written, and only its status. -/
theorem getTask_stoppedBoard (taskId : String) :
    (stoppedBoard cfg live b commandId reason task).getTask taskId =
      if task.taskId = taskId then some { task with status := .cancelled }
      else b.getTask taskId := by
  rw [Blackboard.getTask, stoppedBoard, tasks_finishCommand, markCommand_stop ht]
  simp only [Blackboard.tasks_putTask, Table.get?_put]
  rfl

/-- Only the summary of that task is written. -/
theorem getSummary_stoppedBoard (taskId : String) :
    (stoppedBoard cfg live b commandId reason task).getSummary taskId =
      if task.taskId = taskId then some (cancelledSummary task) else b.getSummary taskId := by
  have hmarked : ((b.appendCommand (stopCommand commandId task reason)).putTask
      { task with status := .cancelled }).getTask task.taskId =
      some { task with status := .cancelled } := by
    simp [Blackboard.getTask]
  rw [stoppedBoard, markCommand_stop ht, getSummary_finishCommand hmarked]
  rfl

/-- A finished task outlives the stop exactly if it is not the one that is stopped, or is
cancelled in status and in summary already. -/
theorem finished_kept_iff : (∀ other ∈ b.tasks.entries, isFinished other.status = true →
        ((stoppedBoard cfg live b commandId reason task).getTask other.taskId).map Task.status =
            some other.status ∧
          (stoppedBoard cfg live b commandId reason task).getSummary other.taskId =
            b.getSummary other.taskId) ↔
      StopsAsItIs b task := by
  constructor
  · intro h hfinished
    have hkept := h task (Table.mem_of_get? ht) hfinished
    rw [getTask_stoppedBoard ht, getSummary_stoppedBoard ht, if_pos rfl, if_pos rfl] at hkept
    exact ⟨(Option.some.inj hkept.1).symm, hkept.2.symm⟩
  · intro h other hmem hfinished
    have hother : b.getTask other.taskId = some other := Table.get?_of_mem hmem
    rw [getTask_stoppedBoard ht, getSummary_stoppedBoard ht]
    by_cases hid : task.taskId = other.taskId
    · have heq : task = other := by
        rw [← hid, ht] at hother
        exact Option.some.inj hother
      subst heq
      obtain ⟨hstatus, hsummary⟩ := h hfinished
      simp [hstatus, hsummary]
    · simp [hid, hother]

end

end carriedOut

/-- Whatever session and command id a stop is given, it leaves every finished task alone, and
without an active task the whole session, exactly if it falls on no finished task, other than a
cancelled one whose summary is that of a cancellation, and finds without an id no task at all
when none is active. -/
theorem stop_spares_finished_iff (cfg : Config) (live : LiveSessions) (b : Blackboard)
    (commandId : String) (taskId reason : Option String) :
    (∃ result, stopActiveTaskDecision cfg live b commandId taskId reason = .ok result ∧
        StopsNothingFinished b taskId result) ↔
      FallsOnUnfinished b taskId := by
  cases hresolve : resolveStatusTask b taskId with
  | none =>
    have hnothing : stopActiveTaskDecision cfg live b commandId taskId reason =
        .ok ⟨b, [], noTaskDecision⟩ := by
      simp only [stopActiveTaskDecision, hresolve]
    refine iff_of_true ⟨_, hnothing, ?_, ?_⟩ ⟨?_, ?_⟩
    · intro task hmem _
      have htask : b.getTask task.taskId = some task := Table.get?_of_mem hmem
      simp [htask]
    · intro _ _
      exact ⟨rfl, rfl, rfl⟩
    · simp [hresolve]
    · rintro rfl
      exact .inl (resolveStatusTask_eq_none.mp hresolve)
  | some task =>
    have ht := getTask_of_resolveStatusTask hresolve
    obtain ⟨signals, hstop⟩ :=
      stopActiveTaskDecision_eq cfg live commandId reason hresolve
    rw [hstop]
    constructor
    · rintro ⟨result, hresult, hkept⟩
      obtain rfl := Except.ok.inj hresult
      refine ⟨?_, ?_⟩
      · intro found hfound
        obtain rfl : task = found := by simpa [hresolve] using hfound
        exact (finished_kept_iff ht).mp hkept.finished_kept
      · intro hnone
        right
        by_contra hidle
        have hdecision := (hkept.nothing_active hnone (by simpa using hidle)).2.2
        exact stoppedDecision_ne task hdecision
    · intro hfalls
      refine ⟨_, rfl, ?_, ?_⟩
      · exact (finished_kept_iff ht).mpr (hfalls.stoppable task hresolve)
      · intro hnone hidle
        subst hnone
        rcases hfalls.active rfl with hempty | hactive
        · rw [resolveStatusTask_eq_none.mpr hempty] at hresolve
          cases hresolve
        · rw [hidle] at hactive
          cases hactive

/-- One task that has completed. -/
def completedTaskLabels : List Label :=
  createLabels "creation-1" "task-1" ++ [.agentEvent "task-1" "task.completed"]

/-- A stop without an id cancels a completed task when it is all there is. -/
theorem stop_cancels_completed_task :
    ¬ ∀ (cfg : Config) (s : SessionState) (commandId : String) (taskId reason : Option String),
      (system cfg).Reachable s →
        ∃ result, stopActiveTaskDecision cfg s.live s.board commandId taskId reason = .ok result ∧
          StopsNothingFinished s.board taskId result := by
  intro h
  have hspared := h codexConfig (reached codexConfig completedTaskLabels) "cmd-1" none none
    (reachable_reached _ _)
  obtain ⟨result, hresult, hkept⟩ := hspared
  have hidle : hasActiveTask (reached codexConfig completedTaskLabels).board = false := by decide
  have hfound : (resolveStatusTask (reached codexConfig completedTaskLabels).board none).isSome := by
    decide
  obtain ⟨task, hresolve⟩ := Option.isSome_iff_exists.mp hfound
  obtain ⟨signals, hstop⟩ := stopActiveTaskDecision_eq codexConfig
    (reached codexConfig completedTaskLabels).live "cmd-1" none hresolve
  rw [hstop] at hresult
  obtain rfl := Except.ok.inj hresult
  have hdecision := (hkept.nothing_active rfl hidle).2.2
  exact stoppedDecision_ne task hdecision

end Newbro.SessionRuntime
