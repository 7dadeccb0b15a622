import Newbro.NativeRequests

/-!
# Requests raised by a blocked run or turn

The interaction request that a BLOCKED event raises, with what is kept of the event: the
private native response for the answer, and the sanitized event among the details that
clients read. Timestamps are left out.
-/
namespace Newbro.BlockedRequests

open Library Protocol InteractionRequests NativeRequests

/-! ## Sanitization -/

def clientSafeNativeResponseParamKeys : List String :=
  ["threadId", "turnId", "itemId", "reason", "command"]

def clientSafeBlockedEventKeys : List String :=
  ["thread_id", "prompt", "interaction_kind", "blocked_method"]

/-- `fields.get(key)` for each of the keys, where it is not `None`. -/
def present (fields : Fields) (keys : List String) : Fields :=
  keys.filterMap fun key =>
    match fields.lookup key with
    | none => none
    | some .null => none
    | some value => some (key, value)

/-- An empty dictionary counts as absent. -/
def nonempty (fields : Fields) : Option Fields := if fields.isEmpty then none else some fields

/-- The client-safe part of the native parameters. -/
def safeParams (params : Fields) : Fields :=
  clientSafeNativeResponseParamKeys.filterMap fun key =>
    ((params.str? key).filter (· ≠ "")).map fun text => (key, .str text)

/-- `_sanitize_native_response_for_client` -/
def sanitizeNativeResponse (nativeResponse : Option Value) : Option Fields :=
  (nativeResponse.bind Value.dict?).bind fun (fields : Fields) =>
    let params := (((fields.dict? "params").bind fun params => nonempty (safeParams params)).map
      fun params => ("params", Value.dict params)).toList
    nonempty (present fields ["request_id", "method"] ++ params)

variable (blockedEvent : Option Value)

/-- `sanitize_blocked_event_for_client` -/
def sanitizeBlockedEvent : Option Fields :=
  (blockedEvent.bind Value.dict?).bind fun (fields : Fields) =>
    let response := ((sanitizeNativeResponse (fields.lookup "native_response")).map
      fun response => ("native_response", Value.dict response)).toList
    nonempty (present fields clientSafeBlockedEventKeys ++ response)

def buildInteractionRequestOpaque : Metadata :=
  let native := (blockedEvent.bind Value.dict?).bind fun (fields : Fields) =>
    fields.dict? "native_response"
  match native with
  | none => Table.empty
  | some native => Dict.set Table.empty "native_response" (.dict native)

def sanitizeInteractionRequestOpaque (opaqueFields : Metadata) : Metadata :=
  match sanitizeNativeResponse (Dict.lookup opaqueFields "native_response") with
  | none => Table.empty
  | some native => Dict.set Table.empty "native_response" (.dict native)

def sanitizeInteractionRequestDetails (details : Metadata) : Metadata :=
  match sanitizeBlockedEvent (Dict.lookup details "blocked_event") with
  | none => Table.erase details "blocked_event"
  | some blocked => Dict.set details "blocked_event" (.dict blocked)

/-! ## Details -/

def optionValue (option : ProposalOption) : Value :=
  .dict [("id", .str option.id), ("label", .str option.label),
    ("description", .str option.description), ("letter", .str option.letter)]

def questionValue (question : ProposalQuestion) : Value :=
  .dict [("question_id", .str question.questionId), ("header", .str question.header),
    ("summary", .str question.summary), ("options", .list (question.options.map optionValue))]

def proposalValue (proposal : Proposal) : Value :=
  .dict [("questions", .list (proposal.questions.map questionValue)),
    ("question_id", .str proposal.first.questionId), ("summary", .str proposal.first.summary),
    ("options", .list (proposal.first.options.map optionValue))]

/-- `_proposal_details_from_blocked_event` -/
def proposalDetails : Option Value :=
  (blockedEvent.bind Value.dict?).bind fun (fields : Fields) =>
    match fields.dict? "proposal" with
    | some proposal => some (.dict proposal)
    | none =>
      ((fields.dict? "native_response").bind fun native => Fields.dict? native "params").bind
        fun params => (extractPlanProposal params).map proposalValue

/-- The entries of the details that come from the event. -/
def blockedDetails : Fields :=
  ((sanitizeBlockedEvent blockedEvent).map fun blocked =>
      ("blocked_event", Value.dict blocked)).toList ++
    ((proposalDetails blockedEvent).map fun proposal => ("proposal", proposal)).toList

/-- The entries of `_request_details` that come from the task. -/
def taskDetails (task : Task) : Fields :=
  let first := fun (keys : List String) => keys.findSome? task.metadata.nonemptyStr?
  let entry := fun name keys => ((first keys).map fun text => (name, Value.str text)).toList
  entry "persona_id" ["persona_id", "assigned_bro_id"] ++
    entry "target_thread_id" ["target_thread_id", "bro_thread_id"] ++
    entry "client_request_id" ["client_request_id"] ++
    entry "source_kind" ["source_kind"] ++
    entry "persona_name" ["persona_name"]

def metadataOf (entries : Fields) : Metadata :=
  entries.foldl (fun metadata entry => Dict.set metadata entry.1 entry.2) Table.empty

/-- `_classify_prompt` -/
def classifyBlocked (lower : String → String) (prompt : String) (blockedEvent : Option Value) :
    InteractionRequestKind :=
  let named := (blockedEvent.bind Value.dict?).bind fun (fields : Fields) =>
    fields.str? "interaction_kind"
  classifyPrompt lower prompt (named.getD "")

/-! ## Requests -/

def buildRequestFromRun (lower : String → String) (requestId : String) (task : Task)
    (run : ExecutionRun) (summary : Option TaskSummary) : InteractionRequest :=
  let blockedEvent := Dict.lookup run.metadata "blocked_event"
  let said := summary.bind fun summary => summary.conversationalSummary
  let prompt := ((run.blockReason.filter (· ≠ "")).or (said.filter (· ≠ ""))).getD
    (task.title ++ " needs your input.")
  let kind := classifyBlocked lower prompt blockedEvent
  { requestId := requestId
    taskId := some task.taskId
    executionSessionId := some run.executionSessionId
    runId := some run.runId
    executorType := some run.executorType
    kind := kind
    prompt := prompt
    details := metadataOf (taskDetails task ++ blockedDetails blockedEvent)
    availableActions := actionsForKind kind
    opaqueFields := buildInteractionRequestOpaque blockedEvent }

/-- The request as a snapshot shows it. -/
def sanitizeInteractionRequest (request : InteractionRequest) : InteractionRequest :=
  { request with
    details := sanitizeInteractionRequestDetails request.details
    opaqueFields := sanitizeInteractionRequestOpaque request.opaqueFields }

end Newbro.BlockedRequests
