import Newbro.BroThreads

/-!
# Drafts

The draft sessions of `DraftSessionManager`, the dispatch plan of a draft and the gate that a
plan passes before a task is made of it. The manager holds the active session; the draft
sessions that it has made stay in the model's table, since a rewrite that is under way and a
send that has begun keep the object they started from. Timestamps, confidences of the speech
recogniser and the live classification are left out.
-/
namespace Newbro.Drafts

open Library Protocol

inductive DraftSessionStatus where
  | empty | listening | drafting | ready | sent | cleared
  deriving Repr, DecidableEq

/-- `SENT` or `CLEARED` -/
def DraftSessionStatus.closed : DraftSessionStatus → Bool
  | sent | cleared => true
  | _ => false

inductive TaskMode where
  | readOnlyFirst | proposalOnly | modifyAllowed | submitAllowed
  deriving Repr, DecidableEq

def TaskMode.value : TaskMode → String
  | readOnlyFirst => "read_only_first"
  | proposalOnly => "proposal_only"
  | modifyAllowed => "modify_allowed"
  | submitAllowed => "submit_allowed"

inductive DispatchGateOutcome where
  | askClarification | askConfirmation | dispatch | reject
  deriving Repr, DecidableEq

structure AsrTurn where
  id : String
  rawText : String
  normalizedText : Option String
  deriving Repr, DecidableEq

structure TaskSpec where
  title : String
  goal : String
  targetAgent : String := "codex"
  mode : TaskMode := .readOnlyFirst
  expectedOutput : String := "A concise proposal or status summary."
  constraints : List String := []
  successCriteria : List String := []
  stopConditions : List String := []
  inputLanguage : String := "en-US"
  outputLanguage : String := "en-US"
  rawTranscript : Option String := none
  codeSwitched : Bool := false
  deriving Repr, DecidableEq

structure Draft where
  text : String
  lastUpdateSummary : String := ""
  taskSpec : Option TaskSpec := none
  missingContext : List String := []
  revisionId : Option String := none
  revisionNumber : Nat := 0
  deriving Repr, DecidableEq

/-- The confidence is counted in hundredths. -/
structure DispatchPlan where
  planId : String
  sessionId : String
  draftSessionId : String
  draftRevisionId : Option String := none
  draftRevisionNumber : Nat := 0
  intent : String := "repo_investigation"
  targetAgent : String
  taskTitle : String
  taskGoal : String
  requiredContext : List String := []
  missingContext : List String := []
  mode : TaskMode := .readOnlyFirst
  riskLevel : String := "low"
  confidence : Nat := 90
  requiresUserConfirmation : Bool := true
  userConfirmed : Bool := false
  outputLanguage : String := "en-US"
  taskSpec : TaskSpec
  deriving Repr, DecidableEq

structure DispatchGateResult where
  outcome : DispatchGateOutcome
  reason : String
  question : Option String := none
  planId : String
  deriving Repr, DecidableEq

structure DraftSnapshot where
  id : String
  draft : Draft
  sourceAsrTurnIds : List String
  draftRevisionId : Option String
  draftRevisionNumber : Nat
  sourceBoundary : String
  transcriptTimestampMs : Option Int
  deriving Repr, DecidableEq

structure DraftSession where
  id : String
  assignedBroId : String
  asrTurns : List AsrTurn := []
  currentDraft : Option Draft := none
  currentDispatchPlan : Option DispatchPlan := none
  snapshots : List DraftSnapshot := []
  status : DraftSessionStatus := .empty
  currentRevisionId : Option String := none
  currentRevisionNumber : Nat := 0
  liveSourceBoundary : Option String := none
  liveTranscriptTimestampMs : Option Int := none
  deriving Repr, DecidableEq

/-! ## Task specifications -/

def defaultBroId : String := "codex"

def isCjk (c : Char) : Bool := '\u4e00' ≤ c && c ≤ '\u9fff'

def languageTag (text : String) : String :=
  if text.toList.any isCjk then "zh-CN" else "en-US"

def isCodeSwitched (text : String) : Bool :=
  text.toList.any isCjk && text.toList.any Char.isAlpha

def successCriteria (language : String) : List String :=
  "Produce a concise result that matches the requested output" ::
    if language = "zh-CN" then ["Respond to the user in Chinese"] else []

/-- `_title` and `_title_from_goal` -/
def titleFromGoal (goal : String) : String :=
  let title := Text.rstripChars ['.', '。'] (Text.strip goal)
  let title := Text.rstripChars ['.', '。'] (Text.strip title)
  let short := if title.length > 72 then Text.rstrip (Text.firstChars 69 title) ++ "..." else title
  Text.orElse (some short) "Draft task"

def formulateTaskSpec (text assignedBroId : String) : TaskSpec :=
  let cleaned := " ".intercalate (Text.words text)
  let language := languageTag cleaned
  { title := titleFromGoal cleaned
    goal := cleaned
    targetAgent := Text.orElse (some assignedBroId) defaultBroId
    mode := .readOnlyFirst
    expectedOutput := "Concise status or result summary"
    constraints := ["Inspect first; ask before making changes"]
    successCriteria := successCriteria language
    stopConditions :=
      ["Need credentials", "Need permission to modify code",
        "Need unavailable repository or prototype context"]
    inputLanguage := language
    outputLanguage := language
    rawTranscript := some cleaned
    codeSwitched := isCodeSwitched cleaned }

variable (spec : TaskSpec)

def missingContext : List String :=
  if (Text.strip spec.goal).length < 8 then ["target"] else []

def riskLevel : String :=
  if spec.mode = .modifyAllowed ∨ spec.mode = .submitAllowed then "medium" else "low"

def taskInstructionFromDraft (draft : Draft) : String :=
  match draft.taskSpec with
  | none => draft.text
  | some spec =>
    let items (texts : List String) := "\n".intercalate (texts.map ("- " ++ ·))
    let part (label text : String) := if text = "" then [] else [label ++ ":\n" ++ text]
    "\n\n".intercalate
      (["Task: " ++ spec.goal, "Mode: " ++ spec.mode.value,
          "Expected output: " ++ spec.expectedOutput] ++
        part "Constraints" (items spec.constraints) ++
        part "Success criteria" (items spec.successCriteria) ++
        part "Stop conditions" (items spec.stopConditions))

/-! ## Dispatch plans and their gate -/

def buildDispatchPlan (planId runtimeSessionId : String) (session : DraftSession)
    (draft : Draft) : DispatchPlan :=
  let spec := draft.taskSpec.getD (formulateTaskSpec draft.text session.assignedBroId)
  let missing := (draft.missingContext ++ missingContext spec).eraseDups
  { planId := planId
    sessionId := Text.orElse (some runtimeSessionId) session.id
    draftSessionId := session.id
    draftRevisionId := session.currentRevisionId
    draftRevisionNumber := session.currentRevisionNumber
    intent := "repo_investigation"
    targetAgent := spec.targetAgent
    taskTitle := spec.title
    taskGoal := spec.goal
    requiredContext := if missing.isEmpty then [] else ["target"]
    missingContext := missing
    mode := spec.mode
    riskLevel := riskLevel spec
    confidence := if spec.goal = "" then 0 else 91
    outputLanguage := spec.outputLanguage
    taskSpec := spec }

def question (language english : String) : String :=
  if language ≠ "zh-CN" then english
  else if Text.startsWith english "Drafted for " then
    (english.replace "Drafted for" "已草拟给").replace ". Send?" "。发送吗？"
  else
    match english with
    | "What should I send?" => "要发送什么任务？"
    | "Which repo or prototype should I inspect?" => "要检查哪个 repo 或 prototype？"
    | "That worker is not available." => "这个 worker 现在不可用。"
    | "This may modify code. Send?" => "这个任务可能会变更文件。发送吗？"
    | "This needs approval. Send?" => "这个任务需要确认。发送吗？"
    | _ => english

def sendConfirmationQuestion (plan : DispatchPlan) : String :=
  question plan.outputLanguage ("Drafted for " ++ plan.targetAgent ++ ". Send?")

/-- The problems of `lint_task_spec`; the mode is always one of the task modes. -/
def lintProblems : List String :=
  (if Text.strip spec.goal = "" then ["clear_goal"] else []) ++
    (if Text.strip spec.targetAgent = "" then ["clear_target"] else []) ++
    (if Text.strip spec.expectedOutput = "" then ["expected_output"] else []) ++
    (if (missingContext spec).isEmpty then [] else ["missing_context"])

/-- The question of `lint_task_spec`, for a specification with problems. -/
def lintQuestion : String :=
  question spec.outputLanguage
    (if "missing_context" ∈ lintProblems spec then "Which repo or prototype should I inspect?"
      else "What should I send?")

def routingTable : List (String × List String) :=
  [("repo_investigation", ["hermes", "codex", "mock"]),
    ("code_modification", ["codex", "hermes"]),
    ("web_research", ["browser_agent", "hermes"]),
    ("status_query", ["communication_brain"]),
    ("draft_correction", ["communication_brain"]),
    ("task_control", ["task_manager"])]

def agentAllowedForIntent (intent targetAgent : String) : Bool :=
  Text.startsWith targetAgent "persona-" ||
    match routingTable.lookup intent with
    | none => true
    | some allowed => allowed.contains targetAgent

def safeTaskModes : List TaskMode := [.readOnlyFirst, .proposalOnly]

def dispatchGate (plan : DispatchPlan) : DispatchGateResult :=
  let result (outcome : DispatchGateOutcome) (reason text : String) : DispatchGateResult :=
    ⟨outcome, reason, some text, plan.planId⟩
  let ask (english : String) := question plan.outputLanguage english
  if !(lintProblems plan.taskSpec).isEmpty then
    result .askClarification "task_lint_failed" (lintQuestion plan.taskSpec)
  else if plan.confidence < 85 then
    result .askClarification "low_confidence" (ask "What should I send?")
  else if !plan.missingContext.isEmpty then
    result .askClarification "missing_context" (ask "Which repo or prototype should I inspect?")
  else if ["", "unknown", "none"].contains plan.targetAgent then
    result .reject "agent_mismatch" (ask "That worker is not available.")
  else if !agentAllowedForIntent plan.intent plan.targetAgent then
    result .reject "agent_mismatch" (ask "That worker is not available.")
  else if !safeTaskModes.contains plan.mode && !plan.userConfirmed then
    result .askConfirmation "unsafe_mode_needs_confirmation" (sendConfirmationQuestion plan)
  else if ["medium", "high"].contains plan.riskLevel && !plan.userConfirmed then
    result .askConfirmation "risk_needs_confirmation" (sendConfirmationQuestion plan)
  else if !plan.userConfirmed then
    result .askConfirmation "needs_confirmation" (sendConfirmationQuestion plan)
  else ⟨.dispatch, "ok", none, plan.planId⟩

/-! ## The draft sessions of a session -/

/-- The identifiers that a revision is given. -/
structure RevisionIds where
  revisionId : String
  snapshotId : String
  planId : String
  deriving Repr, DecidableEq

namespace DraftSession

/-- The draft is made of a later transcript than one of that time. -/
def newerThan (session : DraftSession) (transcriptTimestampMs : Option Int) : Bool :=
  transcriptTimestampMs.any fun timestamp => session.liveTranscriptTimestampMs.any (timestamp < ·)

/-- `_apply_draft_revision`, up to the session becoming the active one. The status is
`READY` afterwards whatever it was. -/
def applyDraftRevision (session : DraftSession) (draft : Draft) (sourceBoundary : String)
    (transcriptTimestampMs : Option Int) (ids : RevisionIds) : DraftSession :=
  let number := session.currentRevisionNumber + 1
  let draft := { draft with revisionId := some ids.revisionId, revisionNumber := number }
  let snapshot :=
    { id := ids.snapshotId
      draft := draft
      sourceAsrTurnIds := session.asrTurns.map AsrTurn.id
      draftRevisionId := some ids.revisionId
      draftRevisionNumber := number
      sourceBoundary := sourceBoundary
      transcriptTimestampMs := transcriptTimestampMs }
  let session :=
    { session with
      currentDraft := some draft
      currentRevisionId := some ids.revisionId
      currentRevisionNumber := number }
  { session with
    currentDispatchPlan := some (buildDispatchPlan ids.planId "" session draft)
    snapshots := session.snapshots ++ [snapshot]
    status := .ready
    liveSourceBoundary := some sourceBoundary
    liveTranscriptTimestampMs := transcriptTimestampMs.or session.liveTranscriptTimestampMs }

/-- The first snapshot of a revision holds the draft object itself, a checkpoint a copy. -/
def withDraft (snapshots : List DraftSnapshot) (revisionId : Option String) (draft : Draft) :
    List DraftSnapshot :=
  match snapshots with
  | [] => []
  | snapshot :: later =>
    if snapshot.draftRevisionId = revisionId then { snapshot with draft := draft } :: later
    else snapshot :: withDraft later revisionId draft

/-- What the message handlers do with a draft that has come back: the mode that the
classifier found, and a plan of the runtime session. -/
def replan (session : DraftSession) (runtimeSessionId planId : String)
    (taskMode : Option TaskMode) : DraftSession :=
  match session.currentDraft with
  | none => session
  | some draft =>
    let draft := { draft with taskSpec := draft.taskSpec.map fun spec =>
      { spec with mode := taskMode.getD spec.mode } }
    let plan := buildDispatchPlan planId runtimeSessionId session draft
    let draft := { draft with missingContext := plan.missingContext }
    { session with
      currentDraft := some draft
      currentDispatchPlan := some plan
      snapshots := withDraft session.snapshots session.currentRevisionId draft }

/-- A checkpoint is one more snapshot of the current draft. -/
def liveCheckpoint (session : DraftSession) (draft : Draft) (revisionId : String)
    (sourceBoundary : String) (transcriptTimestampMs : Option Int) (snapshotId : String) :
    DraftSession :=
  let snapshot :=
    { id := snapshotId
      draft := draft
      sourceAsrTurnIds := session.asrTurns.map AsrTurn.id
      draftRevisionId := some revisionId
      draftRevisionNumber := session.currentRevisionNumber
      sourceBoundary := sourceBoundary
      transcriptTimestampMs := transcriptTimestampMs }
  { session with
    liveSourceBoundary := some sourceBoundary
    liveTranscriptTimestampMs := transcriptTimestampMs.or session.liveTranscriptTimestampMs
    snapshots := session.snapshots ++ [snapshot] }

variable (session : DraftSession)

@[simp] theorem replan_id (runtimeSessionId planId : String) (taskMode : Option TaskMode) :
    (session.replan runtimeSessionId planId taskMode).id = session.id := by
  unfold replan
  split <;> rfl

@[simp] theorem replan_status (runtimeSessionId planId : String) (taskMode : Option TaskMode) :
    (session.replan runtimeSessionId planId taskMode).status = session.status := by
  unfold replan
  split <;> rfl

end DraftSession

/-- `DraftSessionManager`, with every draft session that it has made. -/
structure DraftSessionManager where
  sessions : Table DraftSession.id
  active : Option String

namespace DraftSessionManager

variable (m : DraftSessionManager)

def activeSession : Option DraftSession :=
  m.active.bind m.sessions.get?

/-- The session that a turn is for: the active one, or a new one. -/
def sessionForTurn (newId : String) (assignedBroId : Option String) :
    DraftSession :=
  let assigned := assignedBroId.filter (· ≠ "")
  match m.activeSession.filter fun session => !session.status.closed with
  | none => { id := newId, assignedBroId := assigned.getD defaultBroId }
  | some session => { session with assignedBroId := assigned.getD session.assignedBroId }

/-- The draft that the rewriter has returned is filed with the session that the rewrite was
begun for, which becomes the active one. -/
def installRevision (session : DraftSession) : DraftSessionManager :=
  { sessions := m.sessions.put session, active := some session.id }

def markLiveCheckpoint (sourceBoundary : String)
    (transcriptTimestampMs : Option Int) (snapshotId : String) : DraftSessionManager :=
  match m.activeSession with
  | none => m
  | some session =>
    match session.currentDraft, session.currentRevisionId with
    | some draft, some revisionId =>
      let session := session.liveCheckpoint draft revisionId sourceBoundary
        transcriptTimestampMs snapshotId
      { m with sessions := m.sessions.put session }
    | _, _ => m

def clear : DraftSessionManager :=
  match m.activeSession with
  | none => m
  | some session =>
    { sessions := m.sessions.put { session with status := .cleared }, active := none }

/-- The checks that `mark_sent` and `send_draft` make on the active session. -/
def readyToSend (draftSessionId draftRevisionId : Option String) :
    Except String (DraftSession × Draft × DraftSnapshot) :=
  match m.activeSession with
  | none => .error "No draft is ready to send."
  | some session =>
    match session.currentDraft, session.snapshots.getLast? with
    | some draft, some snapshot =>
      if draftSessionId.any (· ≠ session.id) then
        .error "Draft session does not match the active draft."
      else if draftRevisionId.isSome && session.currentRevisionId ≠ draftRevisionId then
        .error "Draft revision does not match the active draft."
      else .ok (session, draft, snapshot)
    | _, _ => .error "No draft is ready to send."

def markSent (draftSessionId draftRevisionId : Option String) :
    Except String DraftSessionManager :=
  (m.readyToSend draftSessionId draftRevisionId).map fun (session, _, _) =>
    { sessions := m.sessions.put { session with status := .sent }, active := none }

end DraftSessionManager

end Newbro.Drafts
