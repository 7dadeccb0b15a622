import Newbro.BlockedRequests

/-!
# Outbound turns

A Codex turn that the session asks a node for outside a run: its request, the events of the
node for it (`handle_codex_turn_event`), the timeline turn that each event is merged into,
and the interaction request that a blocked one raises. Timestamps are left out; `lower` is
`str.lower`.
-/
namespace Newbro.OutboundTurns

open Library Protocol BlockedRequests

inductive OutboundStatus where
  | pending | accepted | running | completed | failed
  deriving Repr, DecidableEq

inductive TimelineStatus where
  | pending | running | completed | failed | cancelled
  deriving Repr, DecidableEq

inductive InputModality where
  | text | audio | unknown
  deriving Repr, DecidableEq

structure OutboundTurnRequest where
  requestId : String
  personaId : String
  executorId : String
  executorNodeId : String
  targetThreadId : Option String
  clientRequestId : Option String
  inputModality : InputModality
  text : Option String
  audioInstructionId : Option String
  instructionId : Value
  status : OutboundStatus
  error : Option String
  executorThreadId : Option String
  executorTurnId : Option String
  createdAt : Option String := none

/-- `CodexTurnEventMessage` -/
structure CodexTurnEvent where
  requestId : String
  nodeId : String
  targetPersonaId : String
  targetThreadId : String
  eventType : String
  message : Option String
  executorThreadId : Option String
  executorTurnId : Option String
  ok : Bool
  error : Option String
  metadata : Metadata
  receivedAt : String := ""

structure TimelineMessage where
  messageId : String
  audio : Bool
  text : Option String
  transcript : Option String
  audioId : Option String
  status : String
  metadata : Metadata
  createdAt : Option String := none

structure TimelinePlanStep where
  step : String
  status : String
  deriving Repr, DecidableEq

structure TimelinePlan where
  text : Option String
  explanation : Option String
  steps : List TimelinePlanStep
  deriving Repr, DecidableEq

/-- `BroTimelineTask` -/
structure TimelineTask where
  taskId : String
  runId : Option String
  title : String
  status : String
  statusLabel : String
  progress : Nat
  goal : Option String
  plan : Option TimelinePlan
  description : Option String
  summary : Option String
  metadata : Metadata

structure TimelineTurn where
  turnId : String
  threadId : String
  personaId : String
  executorId : String
  clientRequestId : Option String
  executorThreadId : Option String
  executorTurnId : Option String
  inputModality : InputModality
  user : Option TimelineMessage
  assistant : Option TimelineMessage
  status : TimelineStatus
  metadata : Metadata
  task : Option TimelineTask := none
  createdAt : Option String := none
  updatedAt : Option String := none

/-- The outbound requests of a session and the executor turns of its threads. -/
structure TurnBoard where
  requests : Table OutboundTurnRequest.requestId
  timeline : Dict String (List TimelineTurn)

/-! ## The status of a request -/

/-- The events of a turn that has started. -/
def underWay (eventType : String) : Bool :=
  ["progress", "plan", "blocked", "waiting_executor"].contains eventType

variable (lower : String → String) (event : CodexTurnEvent)

/-- `_outbound_request_status_from_codex_event` -/
def outboundStatusOf : OutboundStatus :=
  let eventType := lower event.eventType
  if !event.ok || ["failed", "cancelled"].contains eventType then .failed
  else if eventType = "completed" then .completed
  else if underWay eventType then .running
  else .accepted

/-- `_timeline_status_from_codex_event` -/
def timelineStatusOf : TimelineStatus :=
  let eventType := lower event.eventType
  if !event.ok || ["failed", "cancelled"].contains eventType then .failed
  else if eventType = "completed" then .completed
  else if underWay eventType then .running
  else .pending

/-- `a or b` for optional texts. -/
def orText (a b : Option String) : Option String := (a.filter (· ≠ "")).or b

variable (request : OutboundTurnRequest)

/-- The request after an event. -/
def updateRequest
    (event : CodexTurnEvent) : OutboundTurnRequest :=
  let status := outboundStatusOf lower event
  { request with
    status := status
    error := if !event.ok || status = .failed then event.error else none
    executorThreadId := orText event.executorThreadId request.executorThreadId
    executorTurnId := orText event.executorTurnId request.executorTurnId }

/-! ## The timeline -/

def optionValue (text : Option String) : Value := (text.map Value.str).getD .null

/-- `{**metadata, **extra}` -/
def overlay (metadata extra : Metadata) : Metadata :=
  extra.entries.foldl (fun acc entry => Dict.set acc entry.1 entry.2) metadata

def statusName : TimelineStatus → String
  | .pending => "pending"
  | .running => "running"
  | .completed => "completed"
  | .failed => "failed"
  | .cancelled => "cancelled"

/-- A completion without a text is not a finished answer. -/
def turnStatus : TimelineStatus :=
  let status := timelineStatusOf lower event
  if status = .completed ∧ Text.stripped? event.message = none then .running else status

def userMessage (turnKey receivedAt : String) :
    Option TimelineMessage :=
  (request.text.filter (· ≠ "")).map fun text =>
    { messageId := request.targetThreadId.getD "None" ++ ":" ++ turnKey ++ ":user"
      audio := request.inputModality = .audio
      text := if request.inputModality = .text then some text else none
      transcript := if request.inputModality = .audio then some text else none
      audioId := request.audioInstructionId
      status := "completed"
      metadata := metadataOf
        [("source", .str "outbound_turn_request"), ("request_id", .str request.requestId),
          ("instruction_id", request.instructionId),
          ("source_audio_instruction_id", optionValue request.audioInstructionId)]
      createdAt := orText request.createdAt (some receivedAt) }

def assistantMessage (event : CodexTurnEvent)
    (status : TimelineStatus) (turnKey : String) : Option TimelineMessage :=
  if status = .completed ∨ status = .failed then
    (event.message.filter (· ≠ "")).map fun text =>
      { messageId := request.targetThreadId.getD "None" ++ ":" ++ turnKey ++ ":assistant"
        audio := false
        text := some text
        transcript := none
        audioId := none
        status := statusName status
        metadata := metadataOf
          [("source", .str "codex_turn_event"), ("request_id", .str request.requestId),
            ("event_type", .str event.eventType)]
        createdAt := some event.receivedAt }
  else none

/-- `_bro_timeline_turn_from_codex_turn_event`: the metadata of the event is laid over the
entries of the turn as it is. -/
def timelineTurnOf
    (event : CodexTurnEvent) : TimelineTurn :=
  let executorThreadId := orText event.executorThreadId request.executorThreadId
  let executorTurnId := orText event.executorTurnId request.executorTurnId
  let turnKey := (orText request.clientRequestId (some request.requestId)).getD ""
  let status := turnStatus lower event
  { turnId := request.targetThreadId.getD "None" ++ ":outbound:" ++ turnKey
    threadId := request.targetThreadId.getD ""
    personaId := request.personaId
    executorId := request.executorId
    clientRequestId := request.clientRequestId
    executorThreadId := executorThreadId
    executorTurnId := executorTurnId
    inputModality := request.inputModality
    user := userMessage request turnKey event.receivedAt
    assistant := assistantMessage request event status turnKey
    status := status
    metadata := overlay
      (metadataOf
        [("source", .str "codex_turn_event"), ("request_id", .str request.requestId),
          ("event_type", .str event.eventType),
          ("executor_thread_id", optionValue executorThreadId),
          ("executor_turn_id", optionValue executorTurnId),
          ("client_request_id", optionValue request.clientRequestId)])
      event.metadata
    createdAt := orText request.createdAt (some event.receivedAt)
    updatedAt := some event.receivedAt }

def isStreaming (message : Option TimelineMessage) : Bool :=
  message.any fun message =>
    ["running", "in_progress", "inprogress", "pending", "streaming"].contains
      (lower message.status)

/-- Entries that are not `None` replace, the others only fill in. -/
def mergeMetadata (existing incoming : Metadata) : Metadata :=
  incoming.entries.foldl (fun acc entry =>
    match entry.2, Dict.lookup acc entry.1 with
    | .null, some _ => acc
    | value, _ => Dict.set acc entry.1 value) existing

/-- The plan mode and the skill of a turn are marked on the user's message. -/
def markUser (user : Option TimelineMessage) (metadata : Metadata) : Option TimelineMessage :=
  user.map fun message =>
    let planned := match Dict.lookup metadata "plan_mode" with
      | some (.bool true) => Dict.set message.metadata "plan_mode" (.bool true)
      | _ => message.metadata
    let marked := match Dict.lookup metadata "skill" with
      | some (.dict (entry :: rest)) => Dict.set planned "skill" (.dict (entry :: rest))
      | _ => planned
    { message with metadata := marked }

/-- The status of a merged turn. -/
def mergeStatus (existing incoming : TimelineTurn)
    (assistant : Option TimelineMessage) (settled : Bool) : TimelineStatus :=
  let moved :=
    if (existing.status = .pending ∨ existing.status = .running) ∧
        incoming.status ≠ .pending then
      if incoming.status = .completed ∧ assistant.isNone then .running else incoming.status
    else existing.status
  if !settled && moved ≠ .failed && moved ≠ .cancelled && isStreaming lower assistant then
    .running
  else moved

/-- The task of a merged turn. -/
def mergeTask : Option TimelineTask → Option TimelineTask → Option TimelineTask
  | some existing, some incoming =>
    some { existing with
      goal := orText existing.goal incoming.goal
      plan := incoming.plan.or existing.plan
      summary := orText incoming.summary existing.summary
      description := orText incoming.description existing.description }
  | existing, incoming => existing.or incoming

def mergeTimelineTurn (existing incoming : TimelineTurn) :
    TimelineTurn :=
  let settled := existing.status = .failed || existing.status = .cancelled ||
    (existing.status = .completed && existing.assistant.isSome &&
      !isStreaming lower existing.assistant)
  let assistant :=
    if settled && isStreaming lower incoming.assistant then existing.assistant
    else incoming.assistant.or existing.assistant
  let metadata := mergeMetadata existing.metadata incoming.metadata
  { existing with
    user := markUser (existing.user.or incoming.user) metadata
    assistant := assistant
    status := mergeStatus lower existing incoming assistant settled
    clientRequestId := orText existing.clientRequestId incoming.clientRequestId
    executorThreadId := orText existing.executorThreadId incoming.executorThreadId
    executorTurnId := orText existing.executorTurnId incoming.executorTurnId
    inputModality :=
      if existing.inputModality ≠ .unknown then existing.inputModality
      else incoming.inputModality
    metadata := metadata
    task := mergeTask existing.task incoming.task
    updatedAt := orText incoming.updatedAt existing.updatedAt }

/-- Two turns are one: by their id, or by the identity of a native turn that is known. -/
def sameTurn (turn candidate : TimelineTurn) : Bool :=
  candidate.turnId = turn.turnId ||
    (candidate.executorId = turn.executorId &&
      candidate.executorThreadId = turn.executorThreadId &&
      candidate.executorTurnId = turn.executorTurnId && turn.executorTurnId.isSome)

/-- The first turn that is the same is merged with it, else the turn is added. -/
def upsertTurn (lower : String → String) (turn : TimelineTurn) :
    List TimelineTurn → List TimelineTurn
  | [] => [turn]
  | candidate :: rest =>
    if sameTurn turn candidate then mergeTimelineTurn lower candidate turn :: rest
    else candidate :: upsertTurn lower turn rest

/-! ## A blocked turn -/

/-- The event that `_build_request_from_outbound_blocked` puts together. -/
def outboundBlockedEvent (prompt : String) : Fields :=
  let get := fun key => (Dict.lookup event.metadata key).getD .null
  let threadId := Value.orGet (Dict.lookup event.metadata "thread_id")
    (some (.str (event.executorThreadId.getD "")))
  [("thread_id", threadId.getD .null), ("prompt", .str prompt),
    ("interaction_kind", get "interaction_kind"), ("blocked_method", get "blocked_method"),
    ("native_response", get "native_response"), ("proposal", get "proposal")]

/-- The prompt of a blocked turn, if it has one. -/
def blockedPrompt : Option String :=
  Text.stripped? ((Value.orGet (Dict.lookup event.metadata "prompt")
    (event.message.map Value.str)).bind Value.str?)

/-- `_build_request_from_outbound_blocked` -/
def buildOutboundRequest (requestId : String)
    (outbound : OutboundTurnRequest) (event : CodexTurnEvent) (prompt : String) :
    InteractionRequest :=
  let blockedEvent := some (Value.dict (outboundBlockedEvent event prompt))
  let kind := classifyBlocked lower prompt blockedEvent
  let clientRequestId := ((outbound.clientRequestId.filter (· ≠ "")).map fun id =>
    ("client_request_id", Value.str id)).toList
  { requestId := requestId
    outboundTurnRequestId := some outbound.requestId
    executorType := some outbound.executorId
    executorNodeId := some outbound.executorNodeId
    kind := kind
    prompt := prompt
    details := metadataOf
      ([("persona_id", .str outbound.personaId),
        ("target_thread_id", optionValue outbound.targetThreadId),
        ("outbound_turn_request_id", .str outbound.requestId)] ++ clientRequestId ++
          blockedDetails blockedEvent)
    availableActions := InteractionRequests.actionsForKind kind
    opaqueFields := buildInteractionRequestOpaque blockedEvent }

/-- `handle_outbound_codex_blocked`; a request that is pending is not raised again. -/
def handleOutboundCodexBlocked (board : Blackboard)
    (interactionId : String) (outbound : OutboundTurnRequest) (event : CodexTurnEvent) :
    Blackboard :=
  let raised := board.requests.entries.any fun request =>
    request.outboundTurnRequestId = some outbound.requestId && request.status = .pending
  let named := (Dict.lookup event.metadata "interaction_kind").any Value.truthy
  match blockedPrompt event with
  | none => board
  | some prompt =>
    if lower event.eventType = "blocked" && named && !raised then
      board.putInteractionRequest (buildOutboundRequest lower interactionId outbound event prompt)
    else board

/-! ## One event -/

/-- The event names the persona, the node and the thread of its request. -/
def answersRequest (event : CodexTurnEvent) : Bool :=
  request.personaId = event.targetPersonaId && request.executorNodeId = event.nodeId &&
    request.targetThreadId = some event.targetThreadId

def handleCodexTurnEvent (board : Blackboard) (turns : TurnBoard)
    (interactionId : String) (event : CodexTurnEvent) : Blackboard × TurnBoard :=
  match (turns.requests.get? event.requestId).filter fun request =>
      answersRequest request event with
  | none => (board, turns)
  | some request =>
    let updated := updateRequest lower request event
    let turn := timelineTurnOf lower updated event
    let others := (turns.timeline.lookup turn.threadId).getD []
    (handleOutboundCodexBlocked lower board interactionId updated event,
      { requests := turns.requests.put updated
        timeline := turns.timeline.set turn.threadId (upsertTurn lower turn others) })

end Newbro.OutboundTurns
