import Newbro.SessionRuntime

/-!
# What the pieces of the session leave alone

Every piece of the session writes the store through a few of its `put`s. A view of the
store that these puts do not show is therefore kept by the piece: one rule for each piece,
for any such view.
-/
namespace Newbro.SessionRuntime

open Library Protocol SessionManager SummaryManager
  SessionCommands InteractionRequests Reconcile

section frames

variable {α : Type*} (view : Blackboard → α)

/-! ## Commands -/

theorem setTaskStatus_frame (htask : ∀ b task, view (b.putTask task) = view b) (b : Blackboard)
    (taskId : String) (status : TaskStatus) : view (setTaskStatus b taskId status) = view b := by
  unfold setTaskStatus
  split
  · rfl
  · exact htask ..

theorem setRunStatus_frame (hrun : ∀ b run, view (b.putRun run) = view b) (b : Blackboard)
    (runId : String) (status : RunStatus) : view (setRunStatus b runId status) = view b := by
  unfold setRunStatus
  split
  · rfl
  · exact hrun ..

theorem clearActiveRun_frame (hsession : ∀ b session, view (b.putSession session) = view b)
    (b : Blackboard) (sessionId runId : Option String) :
    view (clearActiveRun b sessionId runId) = view b := by
  unfold clearActiveRun
  split
  · rfl
  · split_ifs
    · exact hsession ..
    · rfl

theorem capturePauseResumeHandle_frame
    (hsession : ∀ b session, view (b.putSession session) = view b) (cfg : Config)
    (live : LiveSessions) (b : Blackboard) (sessionId runId : Option String) :
    view (capturePauseResumeHandle cfg live b sessionId runId) = view b := by
  unfold capturePauseResumeHandle
  split
  · simp only
    split
    · exact hsession ..
    · rfl
  · rfl

theorem markCommand_frame (htask : ∀ b task, view (b.putTask task) = view b)
    (hsession : ∀ b session, view (b.putSession session) = view b) (cfg : Config)
    (live : LiveSessions) (b : Blackboard) (c : CommandInFlight) :
    view (markCommand cfg live b c).1 = view b := by
  simp only [markCommand, setTaskStatus_frame view htask]
  split_ifs
  · exact capturePauseResumeHandle_frame view hsession ..
  · rfl

theorem cancelRequestsForTask_frame
    (hrequest : ∀ b request, view (b.putInteractionRequest request) = view b) (b : Blackboard)
    (taskId : String) : view (cancelRequestsForTask b taskId) = view b :=
  foldl_frame view (fun _ _ => hrequest ..) _ _

theorem finishCommand_frame (hrun : ∀ b run, view (b.putRun run) = view b)
    (hsession : ∀ b session, view (b.putSession session) = view b)
    (hbinding : ∀ b binding, view (b.putBinding binding) = view b)
    (hsummary : ∀ b summary, view (b.putSummary summary) = view b)
    (hrequest : ∀ b request, view (b.putInteractionRequest request) = view b)
    (b : Blackboard) (c : CommandInFlight) : view (finishCommand b c) = view b := by
  unfold finishCommand
  cases b.getTask c.command.taskId with
  | none => rfl
  | some task =>
    cases c.binding <;> cases c.runId <;> cases c.command.commandType <;>
      simp [hbinding, hsummary, setRunStatus_frame view hrun, clearActiveRun_frame view hsession,
        cancelRequestsForTask_frame view hrequest]

/-! ## Runs -/

theorem applyEvent_frame (htask : ∀ b task, view (b.putTask task) = view b)
    (hrun : ∀ b run, view (b.putRun run) = view b)
    (hdetail : ∀ b entry, view (b.appendTaskExecutionDetail entry) = view b) (b : Blackboard)
    (task : Task) (run : ExecutionRun) (event : ExecutorEvent) :
    view (RunManager.applyEvent b task run event) = view b := by
  unfold RunManager.applyEvent
  split_ifs
  · rfl
  · simp only [htask, hrun, hdetail]
  · simp only [htask, hrun]

theorem releasePersona_frame (hpersona : ∀ b persona, view (b.putPersona persona) = view b)
    (b : Blackboard) (task : Task) : view (releasePersona b task) = view b := by
  unfold releasePersona
  split
  · rfl
  · split_ifs
    · rfl
    · exact hpersona ..
    · rfl

section

variable (hsession : ∀ b session, view (b.putSession session) = view b)
include hsession

theorem syncExecutorSession_frame (b : Blackboard) (live : LiveSessions) (handle : RunHandle) :
    view (syncExecutorSession b live handle) = view b := by
  unfold syncExecutorSession
  split
  · exact hsession ..
  · rfl

theorem parkWaitingRun_frame
    (hbinding : ∀ b binding, view (b.putBinding binding) = view b) (b : Blackboard)
    (claimed : SessionBinding) (handle : RunHandle) (run : ExecutionRun) :
    view (parkWaitingRun b claimed handle run) = view b := by
  unfold parkWaitingRun
  split_ifs
  · simp only [hbinding]
    split
    · rfl
    · exact hsession ..
  · rfl

theorem settleRun_frame (hbinding : ∀ b binding, view (b.putBinding binding) = view b)
    (hsummary : ∀ b summary, view (b.putSummary summary) = view b)
    (hpersona : ∀ b persona, view (b.putPersona persona) = view b) (b : Blackboard)
    (live : LiveSessions) (claimed : SessionBinding) (handle : RunHandle) (task : Task)
    (run : ExecutionRun) : view (settleRun b live claimed handle task run) = view b := by
  unfold settleRun
  split_ifs <;>
    simp only [releasePersona_frame view hpersona, parkWaitingRun_frame view hsession hbinding,
      hsummary, syncExecutorSession_frame view hsession]

end

/-! ## Answers, scans, personas and the loop -/

section

variable (htask : ∀ b task, view (b.putTask task) = view b)
include htask

theorem queueFollowUp_frame (hsession : ∀ b session, view (b.putSession session) = view b)
    (hbinding : ∀ b binding, view (b.putBinding binding) = view b)
    (hsummary : ∀ b summary, view (b.putSummary summary) = view b) (b : Blackboard) (task : Task)
    (request : InteractionRequest) (answer : Answer) :
    view (queueFollowUp b task request answer) = view b := by
  unfold queueFollowUp
  simp only [htask, hsummary]
  split
  on_goal 2 => rw [hbinding]
  all_goals
    split
    · split_ifs
      · exact hsession ..
      · rfl
    · rfl

theorem finishAnswer_frame (hsession : ∀ b session, view (b.putSession session) = view b)
    (hbinding : ∀ b binding, view (b.putBinding binding) = view b)
    (hsummary : ∀ b summary, view (b.putSummary summary) = view b) (b : Blackboard)
    (a : AnswerInFlight) (nativeResolved : Bool) :
    view (finishAnswer b a nativeResolved) = view b := by
  unfold finishAnswer
  split_ifs
  · rfl
  · split
    · rfl
    · exact queueFollowUp_frame view htask hsession hbinding hsummary ..

theorem requeueWaitingExecutorTasks_frame
    (hsummary : ∀ b summary, view (b.putSummary summary) = view b) (b : Blackboard)
    (connected : String → Option String → Bool) :
    view (requeueWaitingExecutorTasks b connected) = view b := by
  refine foldl_frame view (fun b task => ?_) _ _
  unfold requeueTask
  split_ifs
  · rw [hsummary, htask]
  · rfl

end

theorem syncPersonas_frame (hpersona : ∀ b persona, view (b.putPersona persona) = view b)
    (hdelete : ∀ b personaId, view (b.deletePersona personaId) = view b) (b : Blackboard)
    (persisted : Table Persona.personaId) : view (syncPersonas b persisted) = view b := by
  unfold syncPersonas
  exact (foldl_frame view (fun _ _ => hdelete ..) _ _).trans
    (foldl_frame view (fun _ _ => hpersona ..) _ _)

theorem occupyPersona_frame (hpersona : ∀ b persona, view (b.putPersona persona) = view b)
    (b : Blackboard) (persona : Option Persona) : view (occupyPersona b persona) = view b := by
  cases persona with
  | none => rfl
  | some persona => exact hpersona ..

theorem ingestAgentEvent_frame (htask : ∀ b task, view (b.putTask task) = view b)
    (b : Blackboard) (taskId type : String) : view (ingestAgentEvent b taskId type) = view b := by
  unfold ingestAgentEvent
  split
  · rfl
  · exact setTaskStatus_frame view htask ..

theorem claimTask_frame (hbinding : ∀ b binding, view (b.putBinding binding) = view b)
    {b b' : Blackboard} {workerId : String} {now : Nat} {task : Task} {binding : SessionBinding}
    (h : claimTask b workerId now task = some (b', binding)) : view b' = view b := by
  unfold claimTask at h
  simp only at h
  split_ifs at h
  obtain ⟨rfl, -⟩ := Prod.mk.injEq .. ▸ Option.some.inj h
  exact hbinding ..

end frames

end Newbro.SessionRuntime
