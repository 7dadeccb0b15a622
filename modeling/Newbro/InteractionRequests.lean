import Newbro.SessionManager
import Newbro.SummaryManager

/-!
# Interaction requests

A blocked run asks the user through an interaction request. An answer either goes to the
native turn that waits for it, or puts the task back in the queue with a follow-up
instruction.
-/
namespace Newbro.InteractionRequests

open Library Protocol SessionManager SummaryManager

def actionsForKind : InteractionRequestKind → List String
  | .permission => ["approve", "deny"]
  | .planProposal => ["approve", "deny"]
  | .confirmation => ["confirm", "cancel"]
  | .question => ["answer"]

def resolvedStatusForAction : String → Option InteractionRequestStatus
  | "approve" => some .approved
  | "deny" => some .denied
  | "answer" => some .answered
  | "confirm" => some .resolved
  | "cancel" => some .cancelled
  | _ => none

/-- What the user sends. For a plan proposal, `answerText` is the text that the selected
option stands for, and `optionLabel` the label of that option. -/
structure Answer where
  action : String
  answerText : Option String := none
  clientRequestId : Option String := none
  userVisibleText : Option String := none
  optionLabel : Option String := none
  deriving Repr, DecidableEq

def followUpInstruction (kind : InteractionRequestKind) (answer : Answer) : String :=
  let text := (answer.answerText.map Text.strip).getD ""
  match kind with
  | .permission =>
    if answer.action = "approve" then
      "The user approved the pending permission request. Continue from where you left off."
    else
      "The user denied the pending permission request. Do not perform that action. " ++
        "Continue with an alternative if possible, otherwise ask for next steps."
  | .confirmation =>
    if answer.action = "confirm" then "The user confirmed the pending action. Continue."
    else
      "The user cancelled the pending action. Do not perform it. " ++
        "Continue only if there is another safe path."
  | .planProposal =>
    if answer.action = "approve" then
      "The user approved this plan: " ++ text ++ ". Proceed with that plan."
    else "The user asked you to keep planning. Refine the plan and ask again before acting."
  | .question =>
    "The user answered the pending question: " ++ text ++
      ". Continue from where you left off."

/-- `InteractionManager.resolve_request`: only a pending request takes an answer, and only
an action it offers. -/
def resolveRequest (b : Blackboard) (requestId : String) (answer : Answer) :
    Except String (Blackboard × InteractionRequest) :=
  match b.getRequest requestId with
  | none => .error ("Unknown interaction request: " ++ requestId)
  | some request =>
    if request.status ≠ .pending then .error "Interaction request is no longer pending."
    else if answer.action ∉ request.availableActions then
      let allowed :=
        Text.orElse (some (", ".intercalate request.availableActions)) "none"
      .error ("Action '" ++ answer.action ++ "' is not allowed. Allowed: " ++ allowed ++ ".")
    else if answer.action = "answer" ∧ Text.stripped? answer.answerText = none then
      .error "answer_text is required for answer actions."
    else
      match resolvedStatusForAction answer.action with
      | none => .error answer.action
      | some status =>
        let resolved := { request with status := status }
        .ok (b.putInteractionRequest resolved, resolved)

def maxTaskInstructionChars : Nat := 4000

def truncationMarker : String := "[Earlier instructions truncated]\n\n"

def mergeFollowUpInstruction (existing : Option String) (followUp : String) : String :=
  let suffix := "\n\nFollow-up:\n" ++ followUp
  let merged :=
    match Text.stripped? existing with
    | some text => text ++ suffix
    | none => followUp
  if merged.length ≤ maxTaskInstructionChars then merged
  else if maxTaskInstructionChars ≤ truncationMarker.length + suffix.length then
    Text.lastChars maxTaskInstructionChars merged
  else
    let available := maxTaskInstructionChars - truncationMarker.length - suffix.length
    let preserved := Text.lstrip
      (Text.lastChars available (Text.strip (existing.getD "")))
    truncationMarker ++ preserved ++ suffix

variable (task : Task) (request : InteractionRequest)

variable (answer : Answer)

/-- The task that a follow-up run takes up, queued again. -/
def followUpTask : Task :=
  let metadata :=
    if request.kind = .planProposal then
      if answer.action = "approve" then
        let visible := Text.orElse (answer.userVisibleText.map Text.strip)
          (Text.orElse answer.optionLabel "Implement it")
        let metadata := Table.erase task.metadata "plan_mode"
        let metadata := Dict.set metadata "mode" (.str "modify_allowed")
        let metadata :=
          match answer.clientRequestId.filter (· ≠ "") with
          | none => metadata
          | some clientRequestId => Dict.set metadata "client_request_id" (.str clientRequestId)
        Dict.set (Dict.set metadata "user_visible_text" (.str visible)) "source_kind"
          (.str "bro_detail_plan_approval")
      else if answer.action = "deny" then
        Dict.set (Dict.set task.metadata "plan_mode" (.bool true)) "mode"
          (.str "proposal_only")
      else task.metadata
    else task.metadata
  { task with
    metadata := metadata
    latestInstruction :=
      some (mergeFollowUpInstruction task.latestInstruction
        (followUpInstruction request.kind answer))
    status := .queued }

@[simp] theorem followUpTask_taskId
    : (followUpTask task request answer).taskId = task.taskId := rfl

@[simp] theorem followUpTask_personaId
    : (followUpTask task request answer).personaId = task.personaId := by
  simp only [followUpTask, Task.personaId]
  split_ifs
  · split <;> simp [Metadata.str?_set_of_ne, Metadata.str?_erase_of_ne]
  · simp [Metadata.str?_set_of_ne]
  · rfl
  · rfl

/-- The follow-up branch of `resolve_interaction_request`: the task is queued again,
whatever its status was. -/
def queueFollowUp (b : Blackboard) (task : Task) (request : InteractionRequest)
    (answer : Answer) : Blackboard :=
  let task := followUpTask task request answer
  let binding := b.getBinding task.taskId
  let session := (binding.bind SessionBinding.executionSessionId).bind b.getSession
  let b :=
    match session, request.runId with
    | some session, some runId =>
      if session.activeRunId = some runId then b.putSession { session with activeRunId := none }
      else b
    | _, _ => b
  let b :=
    match binding with
    | none => b
    | some binding => b.putBinding (releasedBinding binding)
  (b.putSummary (queuedSummary task)).putTask task

end Newbro.InteractionRequests
