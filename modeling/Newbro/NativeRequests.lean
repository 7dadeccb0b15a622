import Newbro.InteractionRequests
import Newbro.RunManager

/-!
# Native requests

A question or an approval that the app-server asks for in the middle of a turn, from the
JSON-RPC request to the JSON-RPC result that answers it: `_extract_blocked_request`, the
interaction request that is raised for it, `resolve_request`, and
`_build_request_response`. `lower` is `str.lower`.
-/
namespace Newbro.NativeRequests

open Library Protocol InteractionRequests

def isIn (part text : String) : Bool := text.toList.tails.any fun rest => part.toList.isPrefixOf rest

/-! ## What Codex asks -/

variable (normalized : String)

/-- A question is one with one of these words in its method. -/
def asksQuestion : Bool :=
  isIn "user_input" normalized || isIn "requestuserinput" normalized ||
    isIn "request_user_input" normalized || (isIn "request" normalized && isIn "question" normalized)

def isCommandApproval : Bool :=
  ["item/commandexecution/requestapproval", "execcommandapproval"].contains normalized

def isFileApproval : Bool :=
  ["item/filechange/requestapproval", "applypatchapproval"].contains normalized

def isPermissionsApproval : Bool :=
  normalized = "item/permissions/requestapproval"

def isApproval : Bool :=
  isCommandApproval normalized || isFileApproval normalized || isPermissionsApproval normalized

def questionPrompt (question : Value) : Option String :=
  question.dict?.bind fun fields =>
    Text.stripped? ((Value.orGet (fields.lookup "question") (fields.lookup "prompt")).bind Value.str?)

variable (params : Fields)

def extractQuestionText : Option String :=
  match ["question", "message", "prompt"].findSome? params.text? with
  | some text => some text
  | none => ((params.list? "questions").getD []).findSome? questionPrompt

structure ProposalOption where
  id : String
  label : String
  description : String
  letter : String
  deriving Repr, DecidableEq

structure ProposalQuestion where
  questionId : String
  header : String
  summary : String
  options : List ProposalOption
  deriving Repr, DecidableEq

/-- A proposal has a first question: its id, summary and options are those of the proposal. -/
structure Proposal where
  first : ProposalQuestion
  rest : List ProposalQuestion
  deriving Repr, DecidableEq

def Proposal.questions (proposal : Proposal) : List ProposalQuestion :=
  proposal.first :: proposal.rest

def proposalOption (option : Value) (index : Nat) : Option ProposalOption :=
  option.dict?.bind fun (fields : Fields) =>
    (fields.text? "label").map fun label =>
      { id := Text.orElse (fields.str? "id") label
        label := label
        description := ((fields.str? "description").map Text.strip).getD ""
        letter := String.singleton (Char.ofNat (65 + index)) }

def proposalQuestion (fields : Fields) (index : Nat) : ProposalQuestion :=
  let text := Text.stripped? ((Value.orGet (Value.orGet (fields.lookup "question") (fields.lookup "prompt"))
    (fields.lookup "header")).bind Value.str?)
  { questionId := (fields.text? "id").getD ("question_" ++ toString (index + 1))
    header := (fields.text? "header").getD (text.getD ("Question " ++ toString (index + 1)))
    summary := text.getD "Review the proposed plan."
    options :=
      (((fields.list? "options").getD []).zipIdx).filterMap fun option =>
        proposalOption option.1 option.2 }

/-- `_extract_plan_proposal` and `_proposal_details_from_native_params` -/
def extractPlanProposal : Option Proposal :=
  let questions := (params.list? "questions").getD []
  match ((questions.filterMap Value.dict?).zipIdx).map fun q => proposalQuestion q.1 q.2 with
  | [] => none
  | first :: rest => some ⟨first, rest⟩

/-- The wire name of a kind. -/
def kindName : InteractionRequestKind → String
  | .permission => "permission"
  | .question => "question"
  | .confirmation => "confirmation"
  | .planProposal => "plan_proposal"

variable (lower : String → String)

/-- The words of `_classify_blocked_prompt` and `_classify_prompt`. -/
def classifyWords (prompt : String) : InteractionRequestKind :=
  let normalized := lower prompt
  if ["allow", "permission", "approve", "grant access"].any fun word => isIn word normalized then
    .permission
  else if ["confirm", "confirmation", "are you sure"].any fun word => isIn word normalized then
    .confirmation
  else .question

def commandText : Option String :=
  match params.lookup "command" with
  | some (.str command) =>
    (Text.stripped? (some command)).map fun command => "Allow command execution? " ++ command
  | some (.list items) =>
    let parts := (items.filterMap Value.str?).filter fun part => Text.strip part ≠ ""
    if parts.isEmpty then none else some ("Allow command execution? " ++ " ".intercalate parts)
  | _ => none

def fileChangeText : Option String :=
  match params.text? "grantRoot" with
  | some grantRoot => some ("Allow file changes under " ++ grantRoot ++ "?")
  | none =>
    match params.dict? "fileChanges" with
    | none => none
    | some [] => none
    | some changes =>
      let joined := ", ".intercalate ((changes.take 3).map Prod.fst)
      let suffix := if changes.length > 3 then "..." else ""
      some ("Allow file changes to " ++ joined ++ suffix ++ "?")

def permissionsText : Option String :=
  match params.dict? "permissions" with
  | none => none
  | some permissions =>
    let parts :=
      ((permissions.dict? "fileSystem").map fun _ => "file system access").toList ++
        ((permissions.dict? "network").map fun _ => "network access").toList
    if parts.isEmpty then none
    else some ("Allow additional permissions: " ++ ", ".intercalate parts ++ "?")

def extractApprovalText : String :=
  match params.text? "reason" with
  | some reason => reason
  | none =>
    if isCommandApproval normalized then
      (commandText params).getD "Codex needs approval to run a command."
    else if isFileApproval normalized then
      (fileChangeText params).getD "Codex needs approval to change files."
    else if isPermissionsApproval normalized then
      (permissionsText params).getD "Codex needs additional permissions to continue."
    else "Codex needs approval to continue."

/-- What is kept of the JSON-RPC request until it is answered. -/
structure NativeResponse where
  requestId : Value
  method : String
  params : Fields

/-- A BLOCKED event with the metadata that says what is asked. -/
structure BlockedRequest where
  message : String
  interactionKind : String
  proposal : Option Proposal
  nativeResponse : NativeResponse

def extractBlockedRequest (requestId : Value) (method : String)
    (params : Fields) (planMode : Bool) : Option BlockedRequest :=
  let normalized := lower method
  if asksQuestion normalized then
    let text := (extractQuestionText params).getD "Codex is waiting for user input."
    some
      { message := text
        interactionKind :=
          if planMode then kindName .planProposal else kindName (classifyWords lower text)
        proposal := if planMode then extractPlanProposal params else none
        nativeResponse := ⟨requestId, method, params⟩ }
  else if isApproval normalized then
    some
      { message := extractApprovalText normalized params
        interactionKind := kindName .permission
        proposal := none
        nativeResponse := ⟨requestId, method, params⟩ }
  else none

/-! ## The interaction request -/

/-- `_classify_prompt`: the kind that the event names, or else the words of the prompt. -/
def classifyPrompt (prompt : String) (interactionKind : String) :
    InteractionRequestKind :=
  if interactionKind = "plan_proposal" then .planProposal
  else if interactionKind = "permission" then .permission
  else if interactionKind = "confirmation" then .confirmation
  else if interactionKind = "question" then .question
  else classifyWords lower prompt

/-- The interaction request that a BLOCKED event raises, as far as its answer needs it. -/
structure NativeRequest where
  kind : InteractionRequestKind
  proposal : Option Proposal
  nativeResponse : NativeResponse

variable (request : NativeRequest)

def NativeRequest.availableActions : List String :=
  actionsForKind request.kind

/-- `_build_request_from_run`; a proposal that the event lacks is made from the params. -/
def buildRequest (blocked : BlockedRequest) : NativeRequest :=
  { kind := classifyPrompt lower blocked.message blocked.interactionKind
    proposal := blocked.proposal.orElse fun _ => extractPlanProposal blocked.nativeResponse.params
    nativeResponse := blocked.nativeResponse }

/-! ## The answer -/

abbrev Answers := List (String × List String)

/-- What the user sends along with an action. -/
structure UserAnswer where
  answerText : Option String
  optionId : Option String
  answers : Option Answers

def strippedValues (values : List String) : List String :=
  values.filterMap fun value => Text.stripped? (some value)

/-- The values that an answer gives to a question, none if they are all blank. -/
def answerValues (answers : Answers) (question : ProposalQuestion) : List String :=
  strippedValues ((answers.lookup question.questionId).getD [])

def setAnswer (answers : Answers) (questionId : String) (values : List String) : Answers :=
  if answers.any fun entry => entry.1 = questionId then
    answers.map fun entry => if entry.1 = questionId then (questionId, values) else entry
  else answers ++ [(questionId, values)]

variable (proposal : Option Proposal) (answers : Option Answers)

/-- `_normalize_proposal_answers`: a proposal of several questions needs them all answered. -/
def normalizeProposalAnswers :
    Except String (Option Answers) :=
  match proposal with
  | none => .ok answers
  | some proposal =>
    if proposal.rest.isEmpty then .ok answers
    else
      match answers with
      | none => .error "answers are required for multi-question plan proposals."
      | some answers =>
        let asked := proposal.questions.filter fun q => Text.strip q.questionId ≠ ""
        let missing := asked.filter fun q => (answerValues answers q).isEmpty
        if missing.isEmpty then
          .ok (some (asked.foldl
            (fun acc q => setAnswer acc q.questionId (answerValues answers q)) []))
        else
          .error ("answers are required for proposal questions: " ++
            ", ".intercalate (missing.map ProposalQuestion.questionId) ++ ".")

def proposalAnswersSummary (answers : Answers) : String :=
  let asked := ((proposal.map Proposal.questions).getD []).filter fun q => q.questionId ≠ ""
  "; ".intercalate (asked.filterMap fun q =>
    let values := answerValues answers q
    if values.isEmpty then none
    else
      let label := Text.orElse (some q.header) (Text.orElse (some q.summary) q.questionId)
      some (Text.strip label ++ ": " ++ ", ".intercalate values))

def keepPlanningText : String := "Keep planning. Refine the proposal instead of acting yet."

/-- The label of the option that is chosen, the first one if none is. -/
def chosenLabel (optionId : Option String) : String :=
  let options := (proposal.map fun proposal => proposal.first.options).getD []
  let chosen := options.filter fun option =>
    (optionId.all fun optionId => optionId = "" || option.id = optionId) &&
      Text.strip option.label ≠ ""
  match chosen with
  | [] => "Approve and run the proposed plan."
  | option :: _ => Text.strip option.label

variable (answerText : Option String)

/-- The text that answers a proposal whatever is decided about it. -/
def suppliedText
    (answers : Option Answers) : Option String :=
  match Text.stripped? answerText with
  | some text => some text
  | none =>
    match answers with
    | none => none
    | some answers =>
      let summary := proposalAnswersSummary proposal answers
      if summary = "" then none else some summary

variable (action : String)

def planProposalAnswerText
    (answerText optionId : Option String) (answers : Option Answers) : String :=
  match suppliedText proposal answerText answers with
  | some text => text
  | none => if action = "deny" then keepPlanningText else chosenLabel proposal optionId

/-- `resolve_request` of a pending request, up to the text and the answers it hands on. -/
def resolveAnswer (action : String) (answer : UserAnswer) :
    Except String (Option String × Option Answers) :=
  if action ∉ request.availableActions then
    .error ("Action '" ++ action ++ "' is not allowed. Allowed: " ++
      ", ".intercalate request.availableActions ++ ".")
  else if request.kind = .planProposal then
    (normalizeProposalAnswers request.proposal answer.answers).map fun answers =>
      (some (planProposalAnswerText request.proposal action answer.answerText answer.optionId
        answers), answers)
  else if action = "answer" ∧ Text.stripped? answer.answerText = none then
    .error "answer_text is required for answer actions."
  else .ok (answer.answerText, answer.answers)

/-! ## The JSON-RPC result -/

/-- The amendment that an approval of a command accepts along with it. -/
def execpolicyAmendment : Option (List Value) :=
  (params.list? "proposedExecpolicyAmendment").filter fun items =>
    !items.isEmpty && items.all fun item => item.str?.isSome

def questionId? (question : Value) : Option String :=
  (question.dict?.bind fun (fields : Fields) => fields.str? "id").filter (· ≠ "")

/-- One turn of the loop over the questions: an answer goes to its question, and the plain
text to the first question if that has no answer of its own. -/
def answerQuestion (answers : Option Answers) (acc : Fields)
    (question : Value) : Fields :=
  match questionId? question with
  | none => acc
  | some questionId =>
    match answers.bind fun answers => answers.lookup questionId with
    | some selected =>
      RunManager.setField acc questionId (.dict [("answers", .list (selected.map .str))])
    | none =>
      if acc.isEmpty then
        RunManager.setField acc questionId
          (.dict [("answers", .list [.str (answerText.getD "")])])
      else acc

def questionAnswers (questions : List Value) (answerText : Option String)
    (answers : Option Answers) : Fields :=
  questions.foldl (answerQuestion answerText answers) []

def buildRequestResponse (response : NativeResponse) (action : String)
    (answerText : Option String) (answers : Option Answers) : Fields :=
  let normalized := lower response.method
  if isCommandApproval normalized then
    if action = "approve" then
      match execpolicyAmendment response.params with
      | some amendment =>
        [("decision", .dict [("acceptWithExecpolicyAmendment",
          .dict [("execpolicy_amendment", .list amendment)])])]
      | none => [("decision", .str "acceptForSession")]
    else [("decision", .str "decline")]
  else if isFileApproval normalized then
    [("decision", .str (if action = "approve" then "acceptForSession" else "decline"))]
  else if isPermissionsApproval normalized then
    if action = "approve" then
      [("permissions", .dict ((response.params.dict? "permissions").getD [])),
        ("scope", .str "session")]
    else [("permissions", .dict []), ("scope", .str "turn")]
  else if asksQuestion normalized then
    [("answers", .dict (questionAnswers ((response.params.list? "questions").getD []) answerText
      answers))]
  else []

/-- The result that reaches Codex when the user takes an action. -/
def nativeResult (action : String)
    (answer : UserAnswer) : Option Fields :=
  match resolveAnswer request action answer with
  | .error _ => none
  | .ok (answerText, answers) =>
    some (buildRequestResponse lower request.nativeResponse action answerText answers)

end Newbro.NativeRequests
