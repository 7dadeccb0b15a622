import Newbro.StatusWrites

/-!
# Who writes interaction requests

A request is raised, resolved by an answer or cancelled with its task; no other step of the
session writes one.
-/
namespace Newbro.SessionRuntime

open Library Protocol SessionManager SummaryManager
  SessionCommands InteractionRequests Reconcile

/-- The labels that may write a request. -/
def Label.writesRequests : Label → Bool
  | .raiseRequest _ => true
  | .beginAnswer _ _ => true
  | .finishCommand _ => true
  | _ => false

variable {cfg : Config} {s s' : SessionState}

theorem requests_loopMove (h : LoopMove cfg s s') : s'.board.requests = s.board.requests := by
  cases h with
  | claim _ _ hc => exact claimTask_frame Blackboard.requests (fun _ _ => rfl) hc
  | _ => rfl

variable (b : Blackboard)

theorem requests_drainEvent (live : LiveSessions) (claimed : SessionBinding)
    (handle : RunHandle) (task : Task) (run : ExecutionRun) (event : ExecutorEvent) :
    (drainEvent b live claimed handle task run event).requests = b.requests := by
  have happly : (RunManager.applyEvent b task run event).requests = b.requests :=
    applyEvent_frame Blackboard.requests (fun _ _ => rfl) (fun _ _ => rfl) (fun _ _ => rfl) ..
  unfold drainEvent
  simp only
  split_ifs
  · split
    · rw [← happly]
      exact settleRun_frame Blackboard.requests (fun _ _ => rfl) (fun _ _ => rfl)
        (fun _ _ => rfl) (fun _ _ => rfl) ..
    · exact happly
  · exact happly

theorem requests_failExecutionException (task : Task)
    (claimed : SessionBinding) (run : Option ExecutionRun) (text errorType : String) :
    (failExecutionException b task claimed run text errorType).requests = b.requests := by
  unfold failExecutionException
  rw [releasePersona_frame Blackboard.requests fun _ _ => rfl]
  cases run with
  | none => rfl
  | some run =>
    have happly : (RunManager.applyEvent b task run (exceptionEvent run text errorType)).requests
        = b.requests :=
      applyEvent_frame Blackboard.requests (fun _ _ => rfl) (fun _ _ => rfl)
        (fun _ _ => rfl) ..
    have hfail : (failRun b task run text errorType).requests = b.requests := by
      unfold failRun
      simp only
      split
      · exact happly
      · exact happly
    exact hfail

variable {label : Label}

theorem requests_executeStep
    {c : Coroutine} {task : Task} (h : executeStep cfg s c task label = some s') :
    s'.board.requests = s.board.requests := by
  cases label
  case lookupExecutor =>
    obtain ⟨-, ⟨-, rfl⟩ | ⟨-, rfl⟩⟩ := lookupExecutor_cases h
    · rw [board_setStage]
    · rw [board_dropCoroutine]
      rfl
  case ensureSession =>
    obtain ⟨_, -, -, -, rfl⟩ := ensureSession_cases h
    rw [ensuredSession, board_setStage]
    exact (ensureSession_frame ..).2.2.2.2
  case createRun =>
    obtain ⟨_, _, _, _, -, -, -, -, rfl⟩ := createRun_cases h
    rw [board_setStage]
    rfl
  case beginRunTask =>
    obtain ⟨_, -, rfl⟩ := beginRunTask_cases h
    rw [board_setStage]
  case sendDispatch =>
    obtain ⟨_, -, rfl⟩ := sendDispatch_cases h
    rw [board_setStage]
  case skipDispatch =>
    obtain ⟨_, -, rfl⟩ := skipDispatch_cases h
    rw [board_setStage]
  case runEvent =>
    obtain ⟨_, _, -, -, rfl⟩ := runEvent_cases h
    split_ifs
    · rw [board_dropCoroutine]
      exact requests_drainEvent ..
    · exact requests_drainEvent ..
  case raiseException =>
    obtain ⟨-, rfl⟩ := raiseException_cases h
    rw [board_dropCoroutine]
    exact requests_failExecutionException ..
  all_goals cases h

/-- Every other step leaves the requests as they are. -/
theorem requests_step (h : step cfg s label = some s') (hlabel : label.writesRequests = false) :
    s'.board.requests = s.board.requests := by
  cases step_cases h with
  | finishCreation => exact occupyPersona_frame Blackboard.requests (fun _ _ => rfl) ..
  | syncPersonas =>
    exact syncPersonas_frame Blackboard.requests (fun _ _ => rfl) (fun _ _ => rfl) ..
  | markCommand => exact markCommand_frame Blackboard.requests (fun _ _ => rfl) (fun _ _ => rfl) ..
  | finishCommand | raiseRequest | beginAnswer => cases hlabel
  | agentEvent => exact ingestAgentEvent_frame Blackboard.requests (fun _ _ => rfl) ..
  | finishAnswer =>
    exact finishAnswer_frame Blackboard.requests (fun _ _ => rfl) (fun _ _ => rfl)
      (fun _ _ => rfl) (fun _ _ => rfl) ..
  | requeueWaiting =>
    exact requeueWaitingExecutorTasks_frame Blackboard.requests (fun _ _ => rfl)
      (fun _ _ => rfl) ..
  | loop _ hmove => exact requests_loopMove hmove
  | coroutine _ _ _ hstep => exact requests_executeStep hstep
  | _ => rfl

/-- A step that writes the status of a task writes no request. -/
theorem writesRequests_of_statusWritten
    {u : String} {status : TaskStatus} (h : statusWritten cfg s label u = some status) :
    label.writesRequests = false := by
  cases label
  case raiseRequest => cases h
  case beginAnswer => cases h
  case finishCommand => cases h
  all_goals rfl

/-! ## The three writers -/

variable {b b' : Blackboard} {request : InteractionRequest}

theorem raiseRequest_cases
    (h : raiseRequest b request = some b') :
    ∃ task, request.taskId.bind b.getTask = some task ∧ request.status = .pending ∧
      b.getRequest request.requestId = none ∧
      (request.runId = none → ∀ other ∈ b.requests.entries, other.status = .pending →
        other.taskId ≠ some task.taskId) ∧
      b' = b.putInteractionRequest request := by
  have hb := raiseRequest_board h
  unfold raiseRequest at h
  split at h
  · cases h
  · rename_i task ht
    simp only at h
    split_ifs at h with hg
    simp only [Bool.and_eq_true, Bool.not_eq_true', decide_eq_true_eq] at hg
    obtain ⟨⟨⟨⟨-, hfree⟩, hstatus⟩, -⟩, hfresh⟩ := hg
    refine ⟨task, ht, hstatus, by simpa [Table.contains, Blackboard.getRequest] using hfresh, ?_,
      hb⟩
    intro hrun other hother hpending hsame
    have hany := List.any_eq_false.mp hfree other hother
    simp [hrun, hpending, hsame] at hany

variable {requestId : String} {answer : Answer}

/-- An answer is for a pending request, which it resolves. -/
theorem resolveRequest_cases
    (h : resolveRequest b requestId answer = .ok (b', request)) :
    ∃ found status, b.getRequest requestId = some found ∧ found.status = .pending ∧
      status ≠ .pending ∧ request = { found with status := status } ∧
      b' = b.putInteractionRequest request := by
  unfold resolveRequest at h
  cases hr : b.getRequest requestId with
  | none => simp [hr] at h
  | some found =>
    simp only [hr] at h
    split_ifs at h with hpending
    cases hs : resolvedStatusForAction answer.action with
    | none => simp [hs] at h
    | some status =>
      simp only [hs, Except.ok.injEq, Prod.mk.injEq] at h
      obtain ⟨rfl, rfl⟩ := h
      refine ⟨found, status, rfl, not_not.mp hpending, ?_, rfl, rfl⟩
      rintro rfl
      unfold resolvedStatusForAction at hs
      split at hs <;> cases hs

theorem beginAnswerStep_cases
    (h : beginAnswerStep s requestId answer = some s') :
    ∃ found status, s.board.getRequest requestId = some found ∧ found.status = .pending ∧
      status ≠ .pending ∧
      s' = { s with
        board := s.board.putInteractionRequest { found with status := status }
        answers := s.answers.put ⟨{ found with status := status }, answer⟩ } := by
  unfold beginAnswerStep at h
  split at h
  · cases h
  · rename_i board request hr
    obtain ⟨found, status, hget, hpending, hstatus, rfl, rfl⟩ := resolveRequest_cases hr
    exact ⟨found, status, hget, hpending, hstatus, (Option.some.inj h).symm⟩

/-- A pending request of a cancelled task. -/
def cancelledRequest (taskId : String) (request : InteractionRequest) : InteractionRequest :=
  if request.taskId = some taskId ∧ request.status = .pending then
    { request with status := .cancelled }
  else request

theorem getRequest_cancelRequestsForTask (b : Blackboard) (taskId requestId : String) :
    (cancelRequestsForTask b taskId).getRequest requestId =
      (b.getRequest requestId).map (cancelledRequest taskId) := by
  have hfold : ∀ (requests : List InteractionRequest) (b : Blackboard),
      (requests.foldl (fun b request =>
          b.putInteractionRequest { request with status := .cancelled }) b).requests =
        requests.foldl (fun t request => t.put { request with status := .cancelled })
          b.requests := by
    intro requests
    induction requests with
    | nil => exact fun b => rfl
    | cons request requests ih => exact fun b => ih _
  unfold cancelRequestsForTask Blackboard.getRequest
  rw [hfold, Table.get?_foldl_put_filter
    (f := fun request : InteractionRequest => { request with status := .cancelled })
    (fun _ => rfl)]
  congr 1
  funext request
  simp only [cancelledRequest, Bool.and_eq_true, decide_eq_true_eq]

/-- The last stretch of a command cancels the requests of a task that is cancelled, and writes
no other request. -/
theorem getRequest_finishCommand (b : Blackboard) (c : CommandInFlight) (requestId : String) :
    (finishCommand b c).getRequest requestId =
      if c.command.commandType = .cancelTask ∧ (b.getTask c.command.taskId).isSome then
        (b.getRequest requestId).map (cancelledRequest c.command.taskId)
      else b.getRequest requestId := by
  have hrun : ∀ (b : Blackboard) runId status,
      (setRunStatus b runId status).requests = b.requests := fun b runId status =>
    setRunStatus_frame Blackboard.requests (fun _ _ => rfl) ..
  have hclear : ∀ (b : Blackboard) sessionId runId,
      (clearActiveRun b sessionId runId).requests = b.requests := fun b sessionId runId =>
    clearActiveRun_frame Blackboard.requests (fun _ _ => rfl) ..
  unfold finishCommand
  cases ht : b.getTask c.command.taskId with
  | none => simp
  | some task =>
    have hid : task.taskId = c.command.taskId := getTask_taskId ht
    cases htype : c.command.commandType with
    | cancelTask =>
      simp only [getRequest_cancelRequestsForTask, hid, Option.isSome_some, and_self, if_true]
      congr 1
      cases c.binding <;> cases c.runId <;>
        simp [Blackboard.getRequest, Blackboard.putSummary, Blackboard.putBinding, hrun, hclear]
    | _ =>
      cases c.binding <;> cases c.runId <;>
        simp [Blackboard.getRequest, Blackboard.putSummary, Blackboard.putBinding, hrun, hclear]

end Newbro.SessionRuntime
