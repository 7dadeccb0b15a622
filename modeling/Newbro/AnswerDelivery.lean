import Newbro.NodeRequests
import Newbro.TurnStarts

/-!
# Delivering an answer

`resolve_interaction_request` from the call to its return: the request is resolved and its
attention items are marked, the native turn that asked is offered the answer, and where it does
not take it a follow-up goes to the thread of the outbound turn, or the task is queued again. A
label is one stretch between two awaits, and the awaits of the board, which do not suspend,
may be cut at as well. `before` and `raised` are history, and no step reads them; the items that
signal a paused or resumed task belong to no request and are left out. `render` is `str` of a
JSON value.
-/
namespace Newbro.AnswerDelivery

open Library Protocol InteractionRequests NativeRequests
  BroThreads OutboundTurns ExecutorNodes NodeRequests

structure Config where
  session : Snapshots.Config
  render : Value → String

/-! ## Attention items -/

inductive AttentionItemKind where
  | permissionRequest | questionRequest | confirmationRequest | planProposalRequest
  deriving Repr, DecidableEq

inductive AttentionItemStatus where
  | active | acted | dismissed | expired
  deriving Repr, DecidableEq

structure AttentionItem where
  attentionId : String
  kind : AttentionItemKind
  status : AttentionItemStatus := .active
  title : String
  body : String
  taskId : Option String
  requestId : Option String
  actions : List (String × String)
  dedupeKey : String
  deriving Repr, DecidableEq

/-- The wire name of a kind. -/
def AttentionItemKind.value : AttentionItemKind → String
  | permissionRequest => "permission_request"
  | questionRequest => "question_request"
  | confirmationRequest => "confirmation_request"
  | planProposalRequest => "plan_proposal_request"

def itemKind : InteractionRequestKind → AttentionItemKind
  | .permission => .permissionRequest
  | .question => .questionRequest
  | .confirmation => .confirmationRequest
  | .planProposal => .planProposalRequest

/-- The label of an action; no request offers any other one. -/
def actionLabel : String → String
  | "approve" => "Allow"
  | "deny" => "Deny"
  | "answer" => "Answer"
  | "confirm" => "Confirm"
  | "cancel" => "Cancel"
  | action => action

variable (request : InteractionRequest)

def attentionActionsForRequest : List (String × String) :=
  request.availableActions.map fun action =>
    if request.kind = .planProposal ∧ action = "deny" then (action, "Keep planning")
    else if request.kind = .planProposal ∧ action = "approve" then (action, "Approve & run")
    else (action, actionLabel action)

def requestTitle (task : Task) (kind : InteractionRequestKind) : String :=
  let subject := (task.metadata.nonemptyStr? "persona_name").getD task.title
  match kind with
  | .permission => subject ++ " needs permission"
  | .confirmation => subject ++ " needs confirmation"
  | _ => subject ++ " needs your input"

variable (attentionId : String)

/-- `_build_attention_from_request` -/
def buildAttention (task : Task) (request : InteractionRequest) :
    AttentionItem :=
  { attentionId := attentionId
    kind := itemKind request.kind
    title := requestTitle task request.kind
    body := request.prompt
    taskId := some task.taskId
    requestId := some request.requestId
    actions := attentionActionsForRequest request
    dedupeKey := (itemKind request.kind).value ++ ":" ++ task.taskId ++ ":" ++
      Text.orElse request.runId request.requestId }

def outboundTitle (personaLabel : String) : InteractionRequestKind → String
  | .permission => personaLabel ++ " needs permission"
  | .confirmation => personaLabel ++ " needs confirmation"
  | .planProposal => personaLabel ++ " proposed a plan"
  | .question => personaLabel ++ " needs your input"

/-- `_build_attention_from_outbound_request` -/
def buildOutboundAttention (outbound : OutboundTurnRequest)
    (request : InteractionRequest) : AttentionItem :=
  { attentionId := attentionId
    kind := itemKind request.kind
    title := outboundTitle (Text.orElse (some outbound.personaId) "Codex") request.kind
    body := request.prompt
    taskId := none
    requestId := some request.requestId
    actions := attentionActionsForRequest request
    dedupeKey := (itemKind request.kind).value ++ ":outbound:" ++ outbound.requestId }

abbrev AttentionItems := Table AttentionItem.attentionId

/-- `_mark_attention_for_request` -/
def markAttention (items : AttentionItems) (requestId : String) (status : AttentionItemStatus) :
    AttentionItems :=
  (items.entries.filter fun item => item.requestId = some requestId && item.status ≠ status).foldl
    (fun items item => items.put { item with status := status }) items

/-- The pending requests that a cancelled command takes along. -/
def requestsOfCancelled (s : Snapshots.State) (commandId : String) : List String :=
  match s.session.commands.get? commandId with
  | none => []
  | some c =>
    if c.command.commandType = .cancelTask &&
        (s.session.board.getTask c.command.taskId).isSome then
      (s.session.board.requests.entries.filter fun request =>
        request.taskId = some c.command.taskId && request.status = .pending).map
          InteractionRequest.requestId
    else []

/-- The attention items after a step of the session: a request comes with an item, and the
items of a request that is cancelled are dismissed. -/
def attentionAfter (before after : Snapshots.State) (attentionId : String)
    (items : AttentionItems) : Snapshots.Label → AttentionItems
  | .requestFromRun interactionId _ => ofTask interactionId
  | .requestFromSummary interactionId _ => ofTask interactionId
  | .codexTurnEvent interactionId event =>
    match after.session.board.getRequest interactionId,
      after.turns.requests.get? event.requestId with
    | some request, some outbound => items.put (buildOutboundAttention attentionId outbound request)
    | _, _ => items
  | .session (.finishCommand commandId) =>
    (requestsOfCancelled before commandId).foldl
      (fun items requestId => markAttention items requestId .dismissed) items
  | _ => items
where
  ofTask (interactionId : String) : AttentionItems :=
    match after.session.board.getRequest interactionId with
    | none => items
    | some request =>
      match request.taskId.bind after.session.board.getTask with
      | none => items
      | some task => items.put (buildAttention attentionId task request)

/-! ## The answer -/

/-- What `resolve_interaction_request` is called with. -/
structure AnswerArgs where
  requestId : String
  action : String
  answerText : Option String := none
  optionId : Option String := none
  answers : Option Answers := none
  reason : Option String := none
  clientRequestId : Option String := none
  userVisibleText : Option String := none

variable (details : Metadata)

/-- A list of the proposal among the details. -/
def proposalList (key : String) : Option (List Value) :=
  ((Dict.lookup details "proposal").bind Value.dict?).bind fun proposal => Fields.list? proposal key

/-- The id of a question that has one. -/
def questionIdOf (question : Value) : Option String :=
  question.dict?.bind fun (fields : Fields) =>
    (fields.str? "question_id").filter fun id => Text.strip id ≠ ""

def valuesFor (answers : Answers) (questionId : String) : List String :=
  strippedValues ((answers.lookup questionId).getD [])

/-- `_normalize_proposal_answers` -/
def normalizeAnswers (answers : Option Answers) :
    Except String (Option Answers) :=
  match proposalList details "questions" with
  | none => .ok answers
  | some questions =>
    if questions.length ≤ 1 then .ok answers
    else
      match answers with
      | none => .error "answers are required for multi-question plan proposals."
      | some answers =>
        let asked := questions.filterMap questionIdOf
        let missing := asked.filter fun id => (valuesFor answers id).isEmpty
        if missing.isEmpty then
          .ok (some (asked.foldl (fun acc id => setAnswer acc id (valuesFor answers id)) []))
        else
          .error ("answers are required for proposal questions: " ++
            ", ".intercalate missing ++ ".")

variable (render : Value → String)

/-- `_proposal_answers_summary` -/
def answersSummary (details : Metadata) (answers : Answers) : String :=
  "; ".intercalate (((proposalList details "questions").getD []).filterMap fun question =>
    question.dict?.bind fun (fields : Fields) =>
      ((fields.str? "question_id").filter (· ≠ "")).bind fun id =>
        let label := (Value.orGet (Value.orGet (fields.lookup "header") (fields.lookup "summary"))
          (some (.str id))).getD (.str id)
        let values := valuesFor answers id
        if values.isEmpty then none
        else some (Text.strip (render label) ++ ": " ++ ", ".intercalate values))

/-- The label of the first option of the proposal that is eligible and has one. -/
def optionLabel (eligible : Option String → Bool) : Option String :=
  ((proposalList details "options").getD []).findSome? fun option =>
    option.dict?.bind fun (fields : Fields) =>
      if eligible (fields.str? "id") then fields.text? "label" else none

/-- `_plan_proposal_answer_text` -/
def planAnswerText (details : Metadata) (args : AnswerArgs)
    (answers : Option Answers) : String :=
  match Text.stripped? args.answerText with
  | some text => text
  | none =>
    let summary := (answers.map (answersSummary render details)).getD ""
    if summary ≠ "" then summary
    else if args.action = "deny" then keepPlanningText
    else
      (optionLabel details fun id =>
          args.optionId.all fun optionId => optionId = "" || id = some optionId).getD
        "Approve and run the proposed plan."

def answersValue (answers : Answers) : Value :=
  .dict (answers.map fun entry => (entry.1, .list (entry.2.map .str)))

variable (args : AnswerArgs)

/-- The details of a resolved request. -/
def resolvedDetails (answers : Option Answers) :
    Metadata :=
  let chosen := ((args.optionId.filter (· ≠ "")).map fun optionId =>
    ("selected_option_id", Value.str optionId)).toList
  let answered := ((answers.filter fun answers => !answers.isEmpty).map fun answers =>
    ("selected_answers", answersValue answers)).toList
  let because := ((args.reason.filter (· ≠ "")).map fun reason =>
    ("resolution_reason", Value.str reason)).toList
  setAll details (chosen ++ answered ++ because)

/-- The request as it is resolved, with the text and the answers that are handed on. -/
structure Resolved where
  request : InteractionRequest
  answerText : Option String
  answers : Option Answers

/-- The text and the answers that are handed on; those of a proposal are normalized first. -/
def answerContent (request : InteractionRequest) (args : AnswerArgs) :
    Except String (Option String × Option Answers) :=
  if request.kind = .planProposal then
    (normalizeAnswers request.details args.answers).map fun answers =>
      (some (planAnswerText render request.details args answers), answers)
  else .ok (args.answerText, args.answers)

/-- `resolve_request` up to its first write. -/
def resolve (b : Blackboard) (args : AnswerArgs) :
    Except String Resolved :=
  match b.getRequest args.requestId with
  | none => .error ("Unknown interaction request: " ++ args.requestId)
  | some request =>
    if request.status ≠ .pending then .error "Interaction request is no longer pending."
    else if args.action ∉ request.availableActions then
      .error ("Action '" ++ args.action ++ "' is not allowed. Allowed: " ++
        Text.orElse (some (", ".intercalate request.availableActions)) "none" ++ ".")
    else
      match answerContent render request args with
      | .error error => .error error
      | .ok (answerText, answers) =>
        if args.action = "answer" ∧ Text.stripped? answerText = none then
          .error "answer_text is required for answer actions."
        else
          match resolvedStatusForAction args.action with
          | none => .error args.action
          | some status =>
            .ok ⟨{ request with
              status := status
              details := resolvedDetails request.details args answers }, answerText, answers⟩

/-- `_selected_plan_option_label` -/
def selectedOptionLabel : Option String :=
  (request.details.nonemptyStr? "selected_option_id").bind fun optionId =>
    optionLabel request.details fun id => id = some optionId

/-- The answer as the follow-up of a task needs it. -/
def followUpAnswer (resolved : Resolved) : Answer :=
  { action := args.action
    answerText := resolved.answerText
    clientRequestId := args.clientRequestId
    userVisibleText := args.userVisibleText
    optionLabel := selectedOptionLabel resolved.request }

/-- `_build_follow_up_instruction`, after the request is written. -/
def buildFollowUpInstruction (resolved : Resolved) : Except String String :=
  if resolved.request.kind = .question ∧ resolved.answerText = none then
    .error "answer_text is required for answer actions."
  else .ok (followUpInstruction resolved.request.kind (followUpAnswer args resolved))

/-! ## Answers under way -/

/-- What an answer that fails must leave as it is: the status of the request, its attention
items, and the status, the metadata and the latest instruction of its task. -/
structure AnswerView where
  requestStatus : Option InteractionRequestStatus
  attention : List AttentionItem
  task : Option (TaskStatus × Metadata × Option String)

/-- A command to a node that an answer waits for. -/
inductive Errand where
  | supplyResponse (nodeId : String)
  | startTurn (outbound : OutboundTurnRequest)
  | dispatchInstruction (nodeId : String)

inductive Stage where
  | connecting (errand : Errand)
  | sending (errand : Errand) (websocket : String)
  | dropping (errand : Errand)
  | responding
  | delivering
  | detaching

/-- A call of `resolve_interaction_request` whose request is resolved. -/
structure AnswerCall where
  callId : String
  args : AnswerArgs
  resolved : Resolved
  followUp : String
  stage : Stage
  before : AnswerView

/-- A call that has raised, with what it found and what it left. -/
structure RaisedCall where
  args : AnswerArgs
  error : String
  before : AnswerView
  after : AnswerView

/-- A session with the connections of nodes, those of them whose Codex takes follow-ups, and
the threads of the Codex sessions that the process itself holds, by execution session. -/
structure AnswerState where
  session : UserSession
  manager : NodeManager
  followUpSockets : List String
  codexSessions : Dict String String
  attention : AttentionItems
  calls : Table AnswerCall.callId
  raised : List RaisedCall

namespace AnswerState

variable (s : AnswerState)

def board : Blackboard := s.session.board

def turns : TurnBoard := s.session.state.turns

def setState (state : Snapshots.State) : AnswerState :=
  { s with session := { s.session with state := state } }

def setBoard (board : Blackboard) : AnswerState :=
  s.setState { s.session.state with
    session := { s.session.state.session with board := board } }

def putOutbound (outbound : OutboundTurnRequest) : AnswerState :=
  s.setState { s.session.state with
    turns := { s.turns with requests := s.turns.requests.put outbound } }

def setStage (call : AnswerCall) (stage : Stage) : AnswerState :=
  { s with calls := s.calls.put { call with stage := stage } }

def view (requestId : String) : AnswerView :=
  { requestStatus := (s.board.getRequest requestId).map InteractionRequest.status
    attention := s.attention.entries.filter fun item => item.requestId = some requestId
    task := (((s.board.getRequest requestId).bind InteractionRequest.taskId).bind
      s.board.getTask).map fun task => (task.status, task.metadata, task.latestInstruction) }

/-- The call raises. -/
def fail (args : AnswerArgs) (before : AnswerView) (error : String) :
    AnswerState :=
  { s with raised := s.raised ++ [⟨args, error, before, s.view args.requestId⟩] }

def failCall (call : AnswerCall) (error : String) : AnswerState :=
  { s.fail call.args call.before error with calls := s.calls.erase call.callId }

/-- The call returns. -/
def finish (call : AnswerCall) : AnswerState :=
  { s with calls := s.calls.erase call.callId }

end AnswerState

/-! ## The native turn -/

def nativeResponse : Option Fields :=
  (Dict.lookup request.opaqueFields "native_response").bind Value.dict?

variable (s : AnswerState)

/-- `_respond_to_native_interaction_request` once no node has taken the answer: a Codex session
of the process may. -/
def localStage (request : InteractionRequest) : Stage :=
  let asked := (nativeResponse request).any fun native =>
    (Fields.str? native "method").isSome && (Fields.dict? native "params").isSome &&
      (native.lookup "request_id").any fun id => match id with
        | .null => false
        | _ => true
  let held := (request.executionSessionId.filter (· ≠ "")).any fun executionSessionId =>
    (s.codexSessions.lookup executionSessionId).isSome
  if asked && held then .responding else .delivering

/-- `supply_interaction_response` up to the connection table. -/
def nativeStage (request : InteractionRequest) : Stage :=
  match (nativeResponse request).bind fun _ => answerNode s.session request with
  | some nodeId => .connecting (.supplyResponse nodeId)
  | none => localStage s request

variable (now : String)

/-- `_record_interaction_answer_turn` -/
def answerTurn :
    Option TimelineTurn :=
  match Text.stripped? args.userVisibleText, request.details.nonemptyStr? "target_thread_id",
    request.details.nonemptyStr? "persona_id" with
  | some text, some threadId, some personaId =>
    let stableKey := Text.orElse args.clientRequestId request.requestId
    some
      { turnId := threadId ++ ":answer:" ++ stableKey
        threadId := threadId
        personaId := personaId
        executorId := Text.orElse request.executorType "codex"
        clientRequestId := args.clientRequestId
        executorThreadId := none
        executorTurnId := none
        inputModality := .text
        user := some
          { messageId := threadId ++ ":" ++ stableKey ++ ":user"
            audio := false
            text := some text
            transcript := none
            audioId := none
            status := "completed"
            metadata := BlockedRequests.metadataOf
              [("source", .str "native_interaction_answer")]
            createdAt := some now }
        assistant := none
        status := .completed
        metadata := BlockedRequests.metadataOf
          [("source", .str "native_interaction_answer"),
            ("request_id", .str request.requestId)]
        createdAt := some now
        updatedAt := some now }
  | _, _, _ => none

def recordTurn (lower : String → String) (turns : TurnBoard) : Option TimelineTurn → TurnBoard
  | none => turns
  | some turn =>
    let others := (turns.timeline.lookup turn.threadId).getD []
    { turns with timeline := turns.timeline.set turn.threadId (upsertTurn lower turn others) }

variable (cfg : Config)

/-- The native turn has taken the answer. -/
def answered (s : AnswerState) (call : AnswerCall) (now : String) : AnswerState :=
  let request := call.resolved.request
  let s := s.setBoard (s.board.putInteractionRequest request)
  (s.setState { s.session.state with
    turns := recordTurn cfg.session.lower s.turns (answerTurn request call.args now) }).finish call

/-! ## The follow-up of an outbound turn -/

/-- `AUDIO_ACTIVE_RUN_STATUSES` -/
def activeRunStatuses : List RunStatus := [.assigned, .running, .blocked]

/-- `_active_codex_execution_for_persona` -/
def activeCodexExecution (b : Blackboard) (threadId : String) :
    Option (ExecutionSession × ExecutionRun) :=
  b.sessions.entries.findSome? fun session =>
    if session.baseExecutorId = "codex" ∧ sessionMatchesThreadId session threadId = true then
      (((session.activeRunId.filter (· ≠ "")).bind b.getRun).filter fun run =>
        run.executorType = "codex" && run.status ∈ activeRunStatuses).map fun run => (session, run)
    else none

/-- `executor_supports_follow_up` for Codex. -/
def supportsFollowUp (nodeId : String) : Bool :=
  (s.manager.connectionsByNode.get? nodeId).any fun c =>
    "codex" ∈ c.executors && c.websocket ∈ s.followUpSockets

/-- The handle by which a thread is resumed. -/
def latestResumeHandle (target : ThreadTarget) : Option AgentResumeHandle :=
  target.resumeHandle.or (target.executionSession.bind ExecutionSession.latestResumeHandle)

def broSession : BroSession :=
  { sessionId := s.session.sessionId
    board := s.board
    importedCodexThreads := s.session.state.imported.threads
    importedCodexThreadResumeHandles := s.session.state.imported.resumeHandles }

/-- What an instruction for an existing thread comes to: it goes to the run that is active
there, or it starts a turn. -/
inductive Submission where
  | followUp (nodeId taskId : String)
  | newTurn (persona : Persona) (target : ThreadTarget)

/-- `submit_text_instruction` up to its first write. -/
def submitTextInstruction (personaId : String) (threadId : Option String) :
    Except String Submission :=
  match s.board.getPersona personaId with
  | none => .error "Selected Bro is not available."
  | some persona =>
    match personaNode persona with
    | none => .error "Selected Bro is not bound to an executor node."
    | some nodeId =>
      if s.manager.isExecutorConnected "codex" (some nodeId) = false then
        .error "Selected Bro's Codex executor node is not connected."
      else if supportsFollowUp s nodeId = false then
        .error ("Selected Bro's executor node does not support text follow-up " ++
          "instructions.")
      else
        match resolveBroThreadTarget (broSession s) persona threadId with
        | .error error => .error error
        | .ok target =>
          match activeCodexExecution s.board target.publicThreadId with
          | some (_, run) => .ok (.followUp nodeId run.taskId)
          | none =>
            if (latestResumeHandle target).isNone then
              .error "Selected Bro has no active Codex execution session."
            else .ok (.newTurn persona target)

variable (call : AnswerCall)

/-- The text and the plan mode of a follow-up. -/
def followUpText : String :=
  if call.resolved.request.kind = .planProposal ∧ call.args.action = "approve" then
    Text.orElse (call.args.userVisibleText.map Text.strip)
      (Text.orElse (selectedOptionLabel call.resolved.request) "Implement it")
  else call.followUp

def followUpPlanMode : Bool :=
  call.resolved.request.kind = .planProposal && call.args.action ≠ "approve"

def markDirectExecutorInput (metadata : Metadata) (source now : String) : Metadata :=
  let sources := match Dict.lookup metadata "direct_executor_input_sources" with
    | some (.list items) => items.filterMap Value.str?
    | _ => []
  let sources := if sources.contains source then sources else sources ++ [source]
  setAll metadata
    [("direct_executor_input_sources", .list (sources.map .str)), ("updated_at", .str now),
      ("suppress_communication_notifications", .bool true)]

/-- The task of the active run as an instruction without a skill marks it. -/
def markInstructed (task : Task) (call : AnswerCall) (now : String) : Task :=
  let planMode := followUpPlanMode call
  let metadata := setAll (markDirectExecutorInput task.metadata "bro_detail_text" now)
    [("client_request_id", OutboundTurns.optionValue call.args.clientRequestId),
      ("plan_mode", .bool planMode),
      ("mode", .str (if planMode then "proposal_only" else "modify_allowed"))]
  { task with metadata := Table.erase (Table.erase metadata "skill") "skill_dropped" }

/-- What `start_turn` is called with. -/
def turnInstruction (persona : Persona) (target : ThreadTarget)
    (instructionId now : String) : TurnStarts.TurnInstruction :=
  { personaId := persona.personaId
    executorNodeId := persona.executorNodeId
    publicThreadId := target.publicThreadId
    createNewThread := false
    hasResumeHandle := (latestResumeHandle target).isSome
    clientRequestId := call.args.clientRequestId
    inputModality := .text
    text := some (Text.strip (followUpText call))
    audioInstructionId := none
    instructionId := .str instructionId
    nodeNotReadyLabel := "text"
    requestedAt := now }

/-! ## The steps of a call -/

/-- The ids of a follow-up turn, drawn when it starts. -/
structure FreshIds where
  requestId : String
  instructionId : String
  now : String

inductive Label where
  | session (label : Snapshots.Label) (attentionId : String)
  | register (connection : NodeConnection) (takesFollowUps : Bool)
  | disconnect (websocket : String)
  | fileRun (state : RunDispatchState)
  | dropRun (runId : String)
  | openCodex (executionSessionId threadId : String)
  | closeCodex (executionSessionId : String)
  | beginAnswer (callId : String) (args : AnswerArgs)
  | readConnection (callId : String)
  | sent (callId now : String)
  | sendFails (callId : String)
  | dropped (callId : String)
  | responded (callId : String) (ok : Bool) (now : String)
  | deliver (callId : String) (ids : FreshIds)
  | detached (callId : String)

/-- `resolve_request` and the native attempt up to its first await. -/
def beginAnswer (s : AnswerState) (callId : String) (args : AnswerArgs) :
    Option AnswerState :=
  if s.calls.contains callId then none
  else
    let before := s.view args.requestId
    match resolve cfg.render s.board args with
    | .error error => some (s.fail args before error)
    | .ok resolved =>
      let s := s.setBoard (s.board.putInteractionRequest resolved.request)
      let s := { s with attention := markAttention s.attention args.requestId .acted }
      match buildFollowUpInstruction args resolved with
      | .error error => some (s.fail args before error)
      | .ok followUp =>
        let stage := nativeStage s resolved.request
        some { s with
          calls := s.calls.put ⟨callId, args, resolved, followUp, stage, before⟩ }

/-- The connection that a command goes over. -/
def errandConnection : Errand → Option NodeConnection
  | .supplyResponse nodeId => s.manager.connectionsByNode.get? nodeId
  | .startTurn outbound =>
    (s.manager.connectionsByNode.get? outbound.executorNodeId).filter fun c => "codex" ∈ c.executors
  | .dispatchInstruction nodeId =>
    (s.manager.connectionsByNode.get? nodeId).filter fun c =>
      "codex" ∈ c.executors && c.websocket ∈ s.followUpSockets

def notReadyForText : String := "Selected Bro's Codex executor node is not ready for text."

/-- The command was not sent. -/
def notSent : Errand → AnswerState
  | .supplyResponse _ => s.setStage call (localStage s call.resolved.request)
  | .startTurn outbound =>
    (s.putOutbound { outbound with
      status := .failed
      error := some notReadyForText }).failCall call notReadyForText
  | .dispatchInstruction _ => s.failCall call notReadyForText

def readConnection : Option AnswerState :=
  match call.stage with
  | .connecting errand =>
    match errandConnection s errand with
    | none => some (notSent s call errand)
    | some c => some (s.setStage call (.sending errand c.websocket))
  | _ => none

def sent (s : AnswerState) (call : AnswerCall) (now : String) :
    Option AnswerState :=
  match call.stage with
  | .sending (.supplyResponse _) _ => some (answered cfg s call now)
  | .sending (.startTurn outbound) _ =>
    some ((s.putOutbound { outbound with status := .accepted }).finish call)
  | .sending (.dispatchInstruction _) _ => some (s.finish call)
  | _ => none

def dropConnection (websocket : String) : AnswerState :=
  match s.manager.popConnection websocket with
  | none => s
  | some (_, manager) => { s with manager := manager }

def sendFails : Option AnswerState :=
  match call.stage with
  | .sending errand websocket =>
    some ((dropConnection s websocket).setStage call (.dropping errand))
  | _ => none

def dropped : Option AnswerState :=
  match call.stage with
  | .dropping errand => some (notSent s call errand)
  | _ => none

/-- The end of `respond_to_request`; an exception counts as no answer. -/
def responded (s : AnswerState) (call : AnswerCall) (ok : Bool) (now : String) :
    Option AnswerState :=
  match call.stage with
  | .responding => some (if ok then answered cfg s call now else s.setStage call .delivering)
  | _ => none

/-- `_spawn_outbound_follow_up_from_interaction` up to the connection table. -/
def spawnFollowUp (outboundId : String) (ids : FreshIds) :
    Option AnswerState :=
  match s.turns.requests.get? outboundId with
  | none => some (s.failCall call ("OutboundTurnRequest '" ++ outboundId ++ "' not found."))
  | some outbound =>
    match submitTextInstruction s outbound.personaId outbound.targetThreadId with
    | .error error => some (s.failCall call error)
    | .ok (.followUp nodeId taskId) =>
      let b := match s.board.getTask taskId with
        | none => s.board
        | some task => s.board.putTask (markInstructed task call ids.now)
      some ((s.setBoard b).setStage call (.connecting (.dispatchInstruction nodeId)))
    | .ok (.newTurn persona target) =>
      if s.turns.requests.contains ids.requestId then none
      else
        let turn := TurnStarts.newRequest ids.requestId (persona.executorNodeId.getD "")
          (turnInstruction call persona target ids.instructionId ids.now)
        some ((s.putOutbound turn).setStage call (.connecting (.startTurn turn)))

/-- The task of a request is queued again. -/
def requeueTask : AnswerState :=
  let request := call.resolved.request
  match request.taskId.bind s.board.getTask with
  | none => s.finish call
  | some task =>
    (s.setBoard (queueFollowUp s.board task request
      (followUpAnswer call.args call.resolved))).finish call

/-- The Codex session of the process that the request is of. -/
def codexSession (request : InteractionRequest) : Option (String × String) :=
  (request.executionSessionId.filter (· ≠ "")).bind fun executionSessionId =>
    (s.codexSessions.lookup executionSessionId).map fun threadId => (executionSessionId, threadId)

/-- `_capture_pause_resume_handle` for a Codex session of the process: its thread is the
handle, if it has one. -/
def captureResumeHandle (s : AnswerState) (request : InteractionRequest)
    (executionSessionId threadId : String) : Blackboard :=
  let b := s.board
  let runId := request.runId.filter (· ≠ "")
  if threadId = "" then
    SessionCommands.capturePauseResumeHandle cfg.session.session s.session.state.session.live b
      (some executionSessionId) runId
  else
    match b.getSession executionSessionId, runId.bind b.getRun with
    | some session, some run =>
      let resumable := (cfg.session.session.registry.get? run.executorType).any
        ExecutorCapabilities.supportsResume
      let handle : AgentResumeHandle := { executorId := "codex", sessionHandle := some threadId }
      if resumable then b.putSession { session with latestResumeHandle := some handle } else b
    | _, _ => b

/-- The follow-up run, up to the closing of the session that waits for the answer. -/
def followUpRun (s : AnswerState) (call : AnswerCall) : AnswerState :=
  let request := call.resolved.request
  match request.taskId with
  | none => s.failCall call "Interaction request without a task cannot resume via a follow-up run."
  | some taskId =>
    if (s.board.getTask taskId).isNone then
      s.failCall call ("Task '" ++ taskId ++ "' not found.")
    else
      match codexSession s request with
      | none => requeueTask s call
      | some (executionSessionId, threadId) =>
        (s.setBoard (captureResumeHandle cfg s request executionSessionId threadId)).setStage
          call .detaching

def deliver (s : AnswerState) (call : AnswerCall) (ids : FreshIds) :
    Option AnswerState :=
  match call.stage with
  | .delivering =>
    match call.resolved.request.outboundTurnRequestId with
    | some outboundId => spawnFollowUp s call outboundId ids
    | none => some (followUpRun cfg s call)
  | _ => none

/-- The end of `live_session.close`, whatever came of it. -/
def detached : Option AnswerState :=
  match call.stage with
  | .detaching =>
    let executionSessionId := call.resolved.request.executionSessionId.getD ""
    let state := s.session.state
    let live := state.session.live.drop executionSessionId
    let s := s.setState { state with session := { state.session with live := live } }
    some (requeueTask { s with
      codexSessions := Table.erase s.codexSessions executionSessionId } call)
  | _ => none

/-! ## The system -/

/-- An answer that the session takes by itself, without its delivery. -/
def isPlainAnswer : Snapshots.Label → Bool
  | .session (.beginAnswer _ _) => true
  | .session (.finishAnswer _ _) => true
  | _ => false

def sessionStep (s : AnswerState) (label : Snapshots.Label)
    (attentionId : String) : Option AnswerState :=
  if isPlainAnswer label || s.attention.contains attentionId then none
  else
    ((Snapshots.system cfg.session).step s.session.state label).map fun state =>
      { s.setState state with
        attention := attentionAfter s.session.state state attentionId s.attention label }

def register (connection : NodeConnection) (takesFollowUps : Bool) :
    Option AnswerState :=
  (s.manager.registerConnection connection).map fun manager =>
    { s with
      manager := manager
      followUpSockets :=
        if takesFollowUps then s.followUpSockets ++ [connection.websocket]
        else s.followUpSockets.erase connection.websocket }

/-- A step of a call. -/
def callStep (s : AnswerState) (call : AnswerCall) : Label → Option AnswerState
  | .readConnection _ => readConnection s call
  | .sent _ now => sent cfg s call now
  | .sendFails _ => sendFails s call
  | .dropped _ => dropped s call
  | .responded _ ok now => responded cfg s call ok now
  | .deliver _ ids => deliver cfg s call ids
  | .detached _ => detached s call
  | _ => none

/-- The call that a label is of. -/
def Label.callId? : Label → Option String
  | .readConnection callId => some callId
  | .sent callId _ => some callId
  | .sendFails callId => some callId
  | .dropped callId => some callId
  | .responded callId _ _ => some callId
  | .deliver callId _ => some callId
  | .detached callId => some callId
  | _ => none

def step (s : AnswerState) (label : Label) : Option AnswerState :=
  match label with
  | .session label attentionId => sessionStep cfg s label attentionId
  | .register connection takesFollowUps => register s connection takesFollowUps
  | .disconnect websocket => some (dropConnection s websocket)
  | .fileRun state =>
    some { s with session := { s.session with runStates := s.session.runStates.put state } }
  | .dropRun runId =>
    some { s with session := { s.session with runStates := s.session.runStates.erase runId } }
  | .openCodex executionSessionId threadId =>
    some { s with codexSessions := s.codexSessions.set executionSessionId threadId }
  | .closeCodex executionSessionId =>
    some { s with codexSessions := Table.erase s.codexSessions executionSessionId }
  | .beginAnswer callId args => beginAnswer cfg s callId args
  | label => (label.callId?.bind s.calls.get?).bind fun call => callStep cfg s call label

/-- A new session of a user, and no node. -/
def newState (sessionId owner : String) : AnswerState :=
  { session := newSession sessionId owner
    manager := ⟨["codex"], Table.empty, Table.empty⟩
    followUpSockets := []
    codexSessions := Table.empty
    attention := Table.empty
    calls := Table.empty
    raised := [] }

def system : System AnswerState Label where
  initial s := ∃ sessionId owner, s = newState sessionId owner
  step := step cfg

end Newbro.AnswerDelivery
