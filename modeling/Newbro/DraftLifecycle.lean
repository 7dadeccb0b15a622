import Newbro.Drafts
import Newbro.Library.Transition

/-!
# The life of a draft session

`append_asr_turn`, `update_live_draft`, `mark_live_checkpoint`, `clear`,
`confirm_active_dispatch` and `send_draft` between their awaits. A call that waits for the
rewriter keeps the draft session that was active when it began, and so does a send while the
executor of its Bro is looked up. Identifiers that the source draws at random are fresh here.
-/
namespace Newbro.Drafts

open Library Protocol Option

inductive RewriteKind where
  | appendAsrTurn
  | updateLiveDraft (sourceBoundary : String) (transcriptTimestampMs : Option Int)
  deriving Repr, DecidableEq

/-- A call that waits for the rewriter, with the session that it began for. -/
structure Rewrite where
  rewriteId : String
  draftSessionId : String
  turn : AsrTurn
  kind : RewriteKind
  deriving Repr, DecidableEq

/-- A `send_draft` under way. The task is made once the executor is known. -/
structure Send where
  taskId : String
  draftSessionId : String
  draft : Draft
  snapshotId : String
  assignedBroId : String
  persona : Option Persona
  namedDraftSessionId : Option String
  namedDraftRevisionId : Option String
  task : Option Task := none

/-- A send holds the draft object of its session, as long as that is still the current one. -/
def Send.withDraft (session : DraftSession) (draft : Option Draft) (send : Send) : Send :=
  if send.draftSessionId = session.id ∧ send.draft.revisionId = session.currentRevisionId then
    { send with draft := draft.getD send.draft }
  else send

theorem Send.withDraft_taskId (session : DraftSession) (draft : Option Draft) (send : Send) :
    (send.withDraft session draft).taskId = send.taskId := by
  unfold Send.withDraft
  split <;> rfl

/-- A record of `list_nodes`, as far as a send reads it. -/
structure NodeRecord where
  nodeId : String
  enabledExecutors : List String
  deriving Repr, DecidableEq

/-- What a session is set up with. -/
structure SessionConfig where
  sessionId : String
  executorTypes : List String
  defaultExecutorType : String

structure State where
  board : Blackboard
  manager : DraftSessionManager
  rewrites : Table Rewrite.rewriteId
  sends : Table Send.taskId

/-- The words of a turn and the identifiers that it is given. -/
structure TurnInput where
  rewriteId : String
  draftSessionId : String
  turnId : String
  rawText : String
  normalizedText : Option String := none
  assignedBroId : Option String := none
  deriving Repr, DecidableEq

inductive Label where
  | appendAsrTurn (input : TurnInput)
  | updateLiveDraft (input : TurnInput) (sourceBoundary : String)
      (transcriptTimestampMs : Option Int)
  /-- The rewriter returns; a message handler then makes a plan of its own. -/
  | finishRewrite (rewriteId : String) (draft : Draft) (ids : RevisionIds)
      (handled : Bool) (taskMode : Option TaskMode)
  | failRewrite (rewriteId : String)
  | markLiveCheckpoint (sourceBoundary : String) (transcriptTimestampMs : Option Int)
      (snapshotId : String)
  | clear
  | confirmActiveDispatch (taskId newPlanId : String) (planId draftRevisionId : Option String)
  | sendDraft (taskId : String) (draftSessionId draftRevisionId : Option String)
  | prepareTask (taskId : String) (nodes : List NodeRecord)
  | finishSend (taskId : String)
  | putPersona (persona : Persona)

/-! ## Rewrites -/

namespace State

/-- The first stretch of both kinds of turn: the active session is told its new Bro, and the
turn is handed to the rewriter. -/
def beginRewrite (s : State) (input : TurnInput) (kind : RewriteKind) : State :=
  let session := s.manager.sessionForTurn input.draftSessionId input.assignedBroId
  let turn := ⟨input.turnId, Text.strip input.rawText, Text.stripped? input.normalizedText⟩
  { s with
    manager := { s.manager with sessions := s.manager.sessions.put session }
    rewrites := s.rewrites.put ⟨input.rewriteId, session.id, turn, kind⟩ }

/-- Random identifiers do not repeat. -/
def freshTurn (s : State) (input : TurnInput) : Bool :=
  !s.rewrites.contains input.rewriteId && !s.manager.sessions.contains input.draftSessionId

/-- A blank turn is a `ValueError`. -/
def appendAsrTurn (s : State) (input : TurnInput) : Option State :=
  if !s.freshTurn input then none
  else if Text.strip input.rawText = "" then some s
  else some (s.beginRewrite input .appendAsrTurn)

/-- A live transcript that is older than the one the draft is made of changes nothing but
the assigned Bro. -/
def updateLiveDraft (s : State) (input : TurnInput) (sourceBoundary : String)
    (transcriptTimestampMs : Option Int) : Option State :=
  if !s.freshTurn input then none
  else if Text.strip input.rawText = "" then some s
  else
    let session := s.manager.sessionForTurn input.draftSessionId input.assignedBroId
    if session.newerThan transcriptTimestampMs then
      some { s with manager := { s.manager with sessions := s.manager.sessions.put session } }
    else some (s.beginRewrite input (.updateLiveDraft sourceBoundary transcriptTimestampMs))

/-- The draft session with the rewriter's draft filed in it. -/
def revised (session : DraftSession) (rewrite : Rewrite) (draft : Draft) (ids : RevisionIds) :
    DraftSession :=
  match rewrite.kind with
  | .appendAsrTurn =>
    { session with asrTurns := session.asrTurns ++ [rewrite.turn] }.applyDraftRevision draft
      "asr_turn" none ids
  | .updateLiveDraft sourceBoundary transcriptTimestampMs =>
    session.applyDraftRevision draft sourceBoundary transcriptTimestampMs ids

def finishRewrite (config : SessionConfig) (s : State) (rewriteId : String) (draft : Draft)
    (ids : RevisionIds) (handled : Bool) (taskMode : Option TaskMode) : Option State :=
  (s.rewrites.get? rewriteId).bind fun rewrite =>
    (s.manager.sessions.get? rewrite.draftSessionId).map fun session =>
      let session := revised session rewrite draft ids
      let session :=
        if handled then session.replan config.sessionId ids.planId taskMode else session
      { s with
        manager := s.manager.installRevision session
        rewrites := s.rewrites.erase rewriteId }

def failRewrite (s : State) (rewriteId : String) : Option State :=
  if s.rewrites.contains rewriteId then
    some { s with rewrites := s.rewrites.erase rewriteId }
  else none

/-- The handler of a live transcript that was too old plans the draft that it finds once
more. -/
def replanActive (config : SessionConfig) (s : State) (planId : String)
    (taskMode : Option TaskMode) : State :=
  match s.manager.activeSession with
  | none => s
  | some session =>
    let replanned := session.replan config.sessionId planId taskMode
    { s with
      manager := { s.manager with sessions := s.manager.sessions.put replanned }
      sends := s.sends.mapValues (Send.withDraft session replanned.currentDraft)
        (Send.withDraft_taskId session replanned.currentDraft) }

/-! ## Sends -/

/-- The Bro of a send, unless it is not there or busy. -/
def personaForSend (s : State) (assignedBroId : String) : Except String (Option Persona) :=
  match s.board.getPersona assignedBroId with
  | none =>
    if !s.board.personas.entries.isEmpty && assignedBroId ≠ "" &&
        assignedBroId ≠ defaultBroId then
      .error ("Bro '" ++ assignedBroId ++ "' is not available.")
    else .ok none
  | some persona =>
    if persona.status = .busy then
      .error (persona.name ++ " is busy with another task right now.")
    else .ok (some persona)

/-- The first stretch of `send_draft`. -/
def beginSend (s : State) (taskId : String) (draftSessionId draftRevisionId : Option String) :
    Except String State := do
  let (session, draft, snapshot) ← s.manager.readyToSend draftSessionId draftRevisionId
  let persona ← s.personaForSend session.assignedBroId
  return { s with
    sends := s.sends.put
      { taskId := taskId
        draftSessionId := session.id
        draft := draft
        snapshotId := snapshot.id
        assignedBroId := session.assignedBroId
        persona := persona
        namedDraftSessionId := draftSessionId
        namedDraftRevisionId := draftRevisionId } }

def freshTask (s : State) (taskId : String) : Bool :=
  !s.sends.contains taskId && !s.board.tasks.contains taskId

/-- A `ValueError` leaves everything as it is. -/
def sendDraft (s : State) (taskId : String) (draftSessionId draftRevisionId : Option String) :
    Option State :=
  if !s.freshTask taskId then none
  else some ((s.beginSend taskId draftSessionId draftRevisionId).toOption.getD s)

/-- The confirmed plan is kept with the draft session. -/
def putPlan (s : State) (session : DraftSession) (plan : DispatchPlan) : State :=
  let session := { session with currentDispatchPlan := some plan }
  { s with manager := { s.manager with sessions := s.manager.sessions.put session } }

/-- The plan is confirmed whatever the gate says, and sent if the gate lets it through. -/
def confirmActiveDispatch (config : SessionConfig) (s : State) (taskId newPlanId : String)
    (planId draftRevisionId : Option String) : Option State :=
  if !s.freshTask taskId then none
  else
    match s.manager.activeSession with
    | none => some s
    | some session =>
      match session.currentDraft with
      | none => some s
      | some draft =>
        let planMismatch := planId.isSome &&
          session.currentDispatchPlan.map DispatchPlan.planId ≠ planId
        let revisionMismatch :=
          draftRevisionId.isSome && session.currentRevisionId ≠ draftRevisionId
        if planMismatch || revisionMismatch then some s
        else
          let plan := session.currentDispatchPlan.getD
            (buildDispatchPlan newPlanId config.sessionId session draft)
          let confirmed := { plan with userConfirmed := true }
          let s := s.putPlan session confirmed
          if (dispatchGate confirmed).outcome ≠ .dispatch then some s
          else
            some ((s.beginSend taskId (some session.id)
              session.currentRevisionId).toOption.getD s)

def resolveDraftPreferredExecutor (config : SessionConfig) (persona : Option Persona)
    (nodes : List NodeRecord) : Option String :=
  let nodeId := (persona.bind Persona.executorNodeId).filter (· ≠ "")
  let enabled := nodeId.bind fun nodeId =>
    (nodes.find? fun node => node.nodeId = nodeId).bind fun node =>
      node.enabledExecutors.find? fun executorType => executorType ∈ config.executorTypes
  let fallback :=
    if config.defaultExecutorType ∈ config.executorTypes then some config.defaultExecutorType
    else if "mock" ∈ config.executorTypes then some "mock"
    else none
  enabled.or fallback

def createWorkspace (taskId : String) : String := "ws-" ++ taskId.replace "task-" ""

/-- The metadata of a task that is made of a draft. The dumped task specification and
dispatch plan are left out. -/
def taskMetadata (send : Send) (session : DraftSession) (executor : Option String) : Metadata :=
  let spec := send.draft.taskSpec
  let text (value : Option String) := (value.map Value.str).getD .null
  let texts (values : List String) := Value.list (values.map Value.str)
  let entries :=
    [("immutable", .bool true),
      ("source_kind", .str "draft_session"),
      ("draft_snapshot_id", .str send.snapshotId),
      ("draft_revision_id", text session.currentRevisionId),
      ("draft_revision_number", .int session.currentRevisionNumber),
      ("asr_turn_ids", texts (session.asrTurns.map AsrTurn.id)),
      ("assigned_bro_id", .str send.assignedBroId),
      ("draft_text", .str send.draft.text),
      ("mode", .str ((spec.map TaskSpec.mode).getD .readOnlyFirst).value),
      ("expected_output", .str ((spec.map TaskSpec.expectedOutput).getD "")),
      ("constraints", texts ((spec.map TaskSpec.constraints).getD [])),
      ("success_criteria", texts ((spec.map TaskSpec.successCriteria).getD [])),
      ("stop_conditions", texts ((spec.map TaskSpec.stopConditions).getD [])),
      ("mock_safe", .bool (executor = some "mock"))]
  let personaEntries :=
    match send.persona with
    | none => []
    | some persona =>
      [("persona_id", .str persona.personaId), ("persona_name", .str persona.name),
        ("persona_avatar", .str persona.avatar),
        ("bro_detail_session_id", .str persona.broDetailSessionId)] ++
      match persona.executorNodeId.filter (· ≠ "") with
      | none => []
      | some nodeId => [("executor_node_id", .str nodeId)]
  let metadata := (entries ++ personaEntries).foldl
    (fun metadata entry => Dict.set metadata entry.1 entry.2) Table.empty
  Dict.set metadata "draft_session_id" (.str send.draftSessionId)

def taskOfDraft (send : Send) (session : DraftSession) (executor : Option String) : Task :=
  let affinity :=
    match send.persona with
    | some persona => "ws-" ++ persona.broDetailSessionId
    | none => createWorkspace send.taskId
  { taskId := send.taskId
    rootTaskId := send.taskId
    title := BroThreads.titleFromDraftText send.draft.text
    goal := (send.draft.taskSpec.map TaskSpec.goal).getD send.draft.text
    status := .queued
    preferredExecutor := executor
    sessionAffinity := some affinity
    latestInstruction := some (taskInstructionFromDraft send.draft)
    metadata := taskMetadata send session executor }

/-- The second stretch of `send_draft`: the nodes are known, the task is made and the Bro is
busy from now on. -/
def prepareTask (config : SessionConfig) (s : State) (taskId : String)
    (nodes : List NodeRecord) : Option State :=
  ((s.sends.get? taskId).filter (·.task.isNone)).bind fun send =>
    (s.manager.sessions.get? send.draftSessionId).map fun session =>
      let executor := resolveDraftPreferredExecutor config send.persona nodes
      let prepared := { send with task := some (taskOfDraft send session executor) }
      let board :=
        match send.persona with
        | none => s.board
        | some persona => s.board.putPersona { persona with status := .busy }
      { s with board := board, sends := s.sends.put prepared }

/-- The last stretch: whatever session is active now is marked, and the task is stored. -/
def finishSend (s : State) (taskId : String) : Option State :=
  (s.sends.get? taskId).bind fun send =>
    send.task.map fun task =>
      let s := { s with sends := s.sends.erase taskId }
      match s.manager.markSent send.namedDraftSessionId send.namedDraftRevisionId with
      | .error _ => s
      | .ok manager =>
        { s with
          manager := manager
          board := (s.board.putTask task).bumpTaskRevision task.taskId }

def step (config : SessionConfig) (s : State) : Label → Option State
  | .appendAsrTurn input => s.appendAsrTurn input
  | .updateLiveDraft input sourceBoundary transcriptTimestampMs =>
    s.updateLiveDraft input sourceBoundary transcriptTimestampMs
  | .finishRewrite rewriteId draft ids handled taskMode =>
    s.finishRewrite config rewriteId draft ids handled taskMode
  | .failRewrite rewriteId => s.failRewrite rewriteId
  | .markLiveCheckpoint sourceBoundary transcriptTimestampMs snapshotId =>
    some { s with manager :=
      s.manager.markLiveCheckpoint sourceBoundary transcriptTimestampMs snapshotId }
  | .clear => some { s with manager := s.manager.clear }
  | .confirmActiveDispatch taskId newPlanId planId draftRevisionId =>
    s.confirmActiveDispatch config taskId newPlanId planId draftRevisionId
  | .sendDraft taskId draftSessionId draftRevisionId =>
    s.sendDraft taskId draftSessionId draftRevisionId
  | .prepareTask taskId nodes => s.prepareTask config taskId nodes
  | .finishSend taskId => s.finishSend taskId
  | .putPersona persona => some { s with board := s.board.putPersona persona }

end State

def emptyState : State :=
  { board := Blackboard.empty
    manager := ⟨Table.empty, none⟩
    rewrites := Table.empty
    sends := Table.empty }

def draftSystem (config : SessionConfig) : System State Label where
  initial s := s = emptyState
  step := State.step config

/-! ## The property and the condition -/

def DraftSessionManager.statusOf (m : DraftSessionManager) (draftSessionId : String) :
    Option DraftSessionStatus :=
  (m.sessions.get? draftSessionId).map DraftSession.status

/-- A draft session that is `SENT` or `CLEARED` first has that status afterwards, and is not
the active one. -/
def KeepsClosed (m m' : DraftSessionManager) : Prop :=
  ∀ draftSessionId status, m.statusOf draftSessionId = some status → status.closed = true →
    m'.statusOf draftSessionId = some status ∧ m'.active ≠ some draftSessionId

def draftSessionOf (task : Task) : Option String := task.metadata.str? "draft_session_id"

def OneTaskPerDraft (s : State) : Prop :=
  ∀ task ∈ s.board.tasks.entries, ∀ other ∈ s.board.tasks.entries, ∀ draftSessionId,
    draftSessionOf task = some draftSessionId → draftSessionOf other = some draftSessionId →
    task.taskId = other.taskId

/-- What holds between any two states that a run goes through, and of each of them. -/
structure LifecycleKept (config : SessionConfig) (labels : List Label) : Prop where
  closed : ∀ before between after, labels = before ++ (between ++ after) → ∀ mid last,
    (draftSystem config).run emptyState before = some mid →
    (draftSystem config).run mid between = some last → KeepsClosed mid.manager last.manager
  tasks : ∀ before after, labels = before ++ after → ∀ s,
    (draftSystem config).run emptyState before = some s → OneTaskPerDraft s

/-- A send has named its draft session, or the active session is still the one that the send
began with. `confirm_active_dispatch` always names it. -/
def sendsOwnDraft (s : State) : Label → Bool
  | .finishSend taskId =>
    (s.sends.get? taskId).all fun send =>
      send.namedDraftSessionId.isSome || s.manager.active.all (· = send.draftSessionId)
  | _ => true

/-- The rewriter returns while the draft session that it was asked for is not closed. -/
def rewritesInTime (s : State) : Label → Bool
  | .finishRewrite rewriteId _ _ _ _ =>
    (s.rewrites.get? rewriteId).all fun rewrite =>
      (s.manager.statusOf rewrite.draftSessionId).all fun status => !status.closed
  | _ => true

/-! ## What each operation does to the draft sessions -/

namespace DraftSessionManager

def ActiveLive (m : DraftSessionManager) : Prop :=
  ∀ draftSessionId, m.active = some draftSessionId →
    ∃ session, m.sessions.get? draftSessionId = some session ∧ session.status.closed = false

/-- What the steps keep of a manager. -/
structure Kept (m m' : DraftSessionManager) : Prop where
  activeLive : m'.ActiveLive
  closed : KeepsClosed m m'

variable {m : DraftSessionManager}

theorem ActiveLive.kept (h : m.ActiveLive) : Kept m m where
  activeLive := h
  closed := by
    intro draftSessionId status hstatus hclosed
    refine ⟨hstatus, fun hactive => ?_⟩
    obtain ⟨session, hsession, hlive⟩ := h draftSessionId hactive
    simp only [statusOf, hsession, map_some, some.injEq] at hstatus
    rw [← hstatus, hlive] at hclosed
    cases hclosed

theorem statusOf_put (sessions : Table DraftSession.id) (session : DraftSession)
    (active : Option String) :
    (DraftSessionManager.mk (sessions.put session) active).statusOf session.id =
      some session.status := by
  simp only [statusOf, Table.get?_put_self, map_some]

variable {session : DraftSession}

/-- A session may be written as long as it is not closed yet. -/
theorem kept_put {active : Option String}
    (hold : ∀ old, m.sessions.get? session.id = some old → old.status.closed = false)
    (hactive : ActiveLive ⟨m.sessions.put session, active⟩) :
    Kept m ⟨m.sessions.put session, active⟩ where
  activeLive := hactive
  closed := by
    intro draftSessionId status hstatus hclosed
    have hne : session.id ≠ draftSessionId := by
      rintro rfl
      obtain ⟨old, hget, rfl⟩ := map_eq_some_iff.mp hstatus
      rw [hold old hget] at hclosed
      cases hclosed
    have hsame : (DraftSessionManager.mk (m.sessions.put session) active).statusOf
        draftSessionId = some status := by
      simp only [statusOf]
      rw [Table.get?_put_of_ne _ hne]
      exact hstatus
    exact ⟨hsame, (ActiveLive.kept hactive |>.closed draftSessionId status hsame hclosed).2⟩

theorem ActiveLive.put (h : m.ActiveLive)
    (hlive : session.status.closed = false) :
    ActiveLive { m with sessions := m.sessions.put session } := by
  intro draftSessionId hactive
  by_cases hid : session.id = draftSessionId
  · subst hid
    exact ⟨session, Table.get?_put_self _ _, hlive⟩
  · obtain ⟨current, hget, hcurrent⟩ := h draftSessionId hactive
    exact ⟨current, (Table.get?_put_of_ne _ hid).trans hget, hcurrent⟩

theorem activeSession_spec (h : m.activeSession = some session) :
    m.active = some session.id ∧ m.sessions.get? session.id = some session := by
  obtain ⟨draftSessionId, hactive, hget⟩ := bind_eq_some_iff.mp h
  have hid : session.id = draftSessionId := Table.key_of_get? hget
  subst hid
  exact ⟨hactive, hget⟩

theorem ActiveLive.activeSession (h : m.ActiveLive) (hactive : m.activeSession = some session) :
    m.sessions.get? session.id = some session ∧ session.status.closed = false := by
  obtain ⟨hid, hget⟩ := activeSession_spec hactive
  obtain ⟨current, hcurrent, hlive⟩ := h session.id hid
  rw [hget] at hcurrent
  cases hcurrent
  exact ⟨hget, hlive⟩

variable {session' : DraftSession}

/-- The active session may be rewritten in any way that leaves it its id and not closed. -/
theorem kept_active (h : m.ActiveLive)
    (hactive : m.activeSession = some session) (hid : session'.id = session.id)
    (hlive : session'.status.closed = false) :
    Kept m { m with sessions := m.sessions.put session' } := by
  obtain ⟨hget, hopen⟩ := h.activeSession hactive
  refine kept_put (fun old hold => ?_) (h.put hlive)
  rw [hid, hget] at hold
  cases hold
  exact hopen

/-- The active session may be closed when it stops being the active one. -/
theorem kept_close (h : m.ActiveLive)
    (hactive : m.activeSession = some session) (session' : DraftSession)
    (hid : session'.id = session.id) : Kept m ⟨m.sessions.put session', none⟩ := by
  obtain ⟨hget, hopen⟩ := h.activeSession hactive
  refine kept_put (fun old hold => ?_) (fun _ hnone => by cases hnone)
  rw [hid, hget] at hold
  cases hold
  exact hopen

theorem kept_sessionForTurn (h : m.ActiveLive) {newId : String}
    (hfresh : m.sessions.contains newId = false) (assignedBroId : Option String) :
    Kept m { m with sessions := m.sessions.put (m.sessionForTurn newId assignedBroId) } := by
  unfold sessionForTurn
  cases hactive : m.activeSession.filter fun session => !session.status.closed with
  | none =>
    refine kept_put (fun old hold => ?_) (h.put rfl)
    have hnone : m.sessions.get? newId = none := by simpa [Table.contains] using hfresh
    rw [hnone] at hold
    cases hold
  | some session =>
    obtain ⟨hsession, hlive⟩ := filter_eq_some_iff.mp hactive
    exact kept_active h hsession rfl (by simpa using hlive)

theorem kept_markLiveCheckpoint (h : m.ActiveLive) (sourceBoundary : String)
    (transcriptTimestampMs : Option Int) (snapshotId : String) :
    Kept m (m.markLiveCheckpoint sourceBoundary transcriptTimestampMs snapshotId) := by
  unfold markLiveCheckpoint
  split
  · exact h.kept
  · rename_i session hactive
    split
    · exact kept_active h hactive rfl (h.activeSession hactive).2
    · exact h.kept

theorem kept_clear (h : m.ActiveLive) : Kept m m.clear := by
  unfold clear
  split
  · exact h.kept
  · rename_i session hactive
    exact kept_close h hactive _ rfl

/-- What is ready to be sent: the draft of the active session, under the names given. -/
structure Ready (m : DraftSessionManager) (draftSessionId draftRevisionId : Option String)
    (session : DraftSession) (draft : Draft) : Prop where
  active : m.activeSession = some session
  draft : session.currentDraft = some draft
  namedSession : ∀ named, draftSessionId = some named → named = session.id
  namedRevision : ∀ named, draftRevisionId = some named →
    session.currentRevisionId = some named

variable {draftSessionId draftRevisionId : Option String}

theorem readyToSend_ok
    {ready : DraftSession × Draft × DraftSnapshot}
    (h : m.readyToSend draftSessionId draftRevisionId = .ok ready) :
    m.Ready draftSessionId draftRevisionId ready.1 ready.2.1 := by
  unfold readyToSend at h
  split at h
  · cases h
  · rename_i session hactive
    split at h
    · rename_i draft snapshot hdraft hsnapshot
      split_ifs at h with hnamed hrevision
      cases h
      refine ⟨hactive, hdraft, ?_, ?_⟩
      · rintro named rfl
        simpa using hnamed
      · rintro named rfl
        simpa using hrevision
    · cases h

theorem markSent_ok {m' : DraftSessionManager}
    (h : m.markSent draftSessionId draftRevisionId = .ok m') :
    ∃ session draft, m.Ready draftSessionId draftRevisionId session draft ∧
      m' = ⟨m.sessions.put { session with status := .sent }, none⟩ := by
  unfold markSent at h
  cases hready : m.readyToSend draftSessionId draftRevisionId with
  | error message =>
    rw [hready] at h
    cases h
  | ok ready =>
    rw [hready] at h
    cases h
    exact ⟨ready.1, ready.2.1, readyToSend_ok hready, rfl⟩

/-- The draft session that a finished rewrite was begun for becomes the active one; nothing
that is closed is touched exactly if that session is not closed. -/
theorem kept_installRevision
    (hget : m.sessions.get? session.id = some session) (hid : session'.id = session.id)
    (hready : session'.status = .ready) (hopen : session.status.closed = false) :
    Kept m (m.installRevision session') := by
  refine kept_put (fun old hold => ?_) ?_
  · rw [hid, hget] at hold
    cases hold
    exact hopen
  · intro draftSessionId hactive
    cases hactive
    exact ⟨session', Table.get?_put_self _ _, by rw [hready]; rfl⟩

theorem closed_of_installRevision
    (hget : m.sessions.get? session.id = some session) (hid : session'.id = session.id)
    (hkept : KeepsClosed m (m.installRevision session')) : session.status.closed = false := by
  by_contra hclosed
  simp only [Bool.not_eq_false] at hclosed
  have hstatus : m.statusOf session.id = some session.status := by simp [statusOf, hget]
  have hactive := (hkept session.id session.status hstatus hclosed).2
  exact hactive (congrArg some hid)

end DraftSessionManager

/-! ## The invariant -/

structure Sound (s : State) : Prop where
  activeLive : s.manager.ActiveLive
  named : ∀ send ∈ s.sends.entries, ∀ draftSessionId,
    send.namedDraftSessionId = some draftSessionId → draftSessionId = send.draftSessionId
  prepared : ∀ send ∈ s.sends.entries, ∀ task,
    send.task = some task → draftSessionOf task = some send.draftSessionId
  sent : ∀ task ∈ s.board.tasks.entries, ∀ draftSessionId,
    draftSessionOf task = some draftSessionId →
    s.manager.statusOf draftSessionId = some .sent
  oneTask : OneTaskPerDraft s

theorem sound_empty : Sound emptyState where
  activeLive := fun _ h => by cases h
  named := fun _ h => by cases h
  prepared := fun _ h => by cases h
  sent := fun _ h => by cases h
  oneTask := fun _ h => by cases h

theorem KeepsClosed.trans {m m' m'' : DraftSessionManager} (h : KeepsClosed m m')
    (h' : KeepsClosed m' m'') : KeepsClosed m m'' := by
  intro draftSessionId status hstatus hclosed
  exact h' draftSessionId status (h draftSessionId status hstatus hclosed).1 hclosed

variable {taskId rewriteId : String} {draftRevisionId : Option String} {config : SessionConfig}
   {draft : Draft} {ids : RevisionIds} {handled : Bool} {taskMode : Option TaskMode}

variable {input : TurnInput} {newPlanId : String} {planId : Option String} {label : Label}

section steps

variable {s s' : State}

/-- What a step does when it makes no task: sends keep what they are known to be. -/
theorem Sound.frame (h : Sound s) (hkept : s.manager.Kept s'.manager)
    (hsends : ∀ send ∈ s'.sends.entries,
      (∀ draftSessionId, send.namedDraftSessionId = some draftSessionId →
        draftSessionId = send.draftSessionId) ∧
      ∀ task, send.task = some task → draftSessionOf task = some send.draftSessionId)
    (htasks : s'.board.tasks = s.board.tasks) : Sound s' where
  activeLive := hkept.activeLive
  named := fun send hmem => (hsends send hmem).1
  prepared := fun send hmem => (hsends send hmem).2
  sent := by
    intro task hmem draftSessionId hdraft
    rw [htasks] at hmem
    exact (hkept.closed draftSessionId .sent (h.sent task hmem draftSessionId hdraft) rfl).1
  oneTask := by
    unfold OneTaskPerDraft
    rw [htasks]
    exact h.oneTask

theorem Sound.frame_sends (h : Sound s) (hkept : s.manager.Kept s'.manager)
    (hsends : ∀ send ∈ s'.sends.entries, send ∈ s.sends.entries)
    (htasks : s'.board.tasks = s.board.tasks) : Sound s' :=
  h.frame hkept
    (fun send hmem => ⟨h.named send (hsends send hmem), h.prepared send (hsends send hmem)⟩) htasks

theorem Sound.frame_manager (h : Sound s) (hkept : s.manager.Kept s'.manager)
    (hsends : s'.sends = s.sends) (htasks : s'.board.tasks = s.board.tasks) :
    Sound s' ∧ KeepsClosed s.manager s'.manager :=
  ⟨h.frame_sends hkept (fun _ hmem => hsends ▸ hmem) htasks, hkept.closed⟩

/-- A send that begins holds the draft that is ready under the names that it was given. -/
structure Begins (s : State) (taskId : String) (draftSessionId draftRevisionId : Option String)
    (send : Send) : Prop where
  ready : ∃ session, s.manager.Ready draftSessionId draftRevisionId session send.draft ∧
    send.draftSessionId = session.id
  taskId : send.taskId = taskId
  task : send.task = none
  namedSession : send.namedDraftSessionId = draftSessionId
  namedRevision : send.namedDraftRevisionId = draftRevisionId

theorem beginSend_ok {draftSessionId : Option String}
    (hs : s.beginSend taskId draftSessionId draftRevisionId = .ok s') :
    ∃ send : Send, s' = { s with sends := s.sends.put send } ∧
      Begins s taskId draftSessionId draftRevisionId send := by
  unfold State.beginSend at hs
  cases hready : s.manager.readyToSend draftSessionId draftRevisionId with
  | error message =>
    rw [hready] at hs
    cases hs
  | ok ready =>
    obtain ⟨session, draft, snapshot⟩ := ready
    cases hpersona : s.personaForSend session.assignedBroId with
    | error message =>
      rw [hready] at hs
      simp only [bind, Except.bind, hpersona] at hs
      cases hs
    | ok persona =>
      rw [hready] at hs
      simp only [bind, Except.bind, hpersona, pure, Except.pure, Except.ok.injEq] at hs
      have hstands := DraftSessionManager.readyToSend_ok hready
      exact ⟨_, hs.symm, ⟨session, hstands, rfl⟩, rfl, rfl, rfl, rfl⟩

theorem sound_beginSend (h : Sound s) (taskId : String)
    (draftSessionId draftRevisionId : Option String) :
    Sound ((s.beginSend taskId draftSessionId draftRevisionId).toOption.getD s) ∧
      ((s.beginSend taskId draftSessionId draftRevisionId).toOption.getD s).manager =
        s.manager := by
  cases hbegin : s.beginSend taskId draftSessionId draftRevisionId with
  | error message => exact ⟨h, rfl⟩
  | ok next =>
    obtain ⟨send, rfl, hbegins⟩ := beginSend_ok hbegin
    obtain ⟨session, hready, hsession⟩ := hbegins.ready
    refine ⟨h.frame h.activeLive.kept ?_ rfl, rfl⟩
    intro other hmem
    rcases Table.mem_put.mp hmem with rfl | ⟨hmem, -⟩
    · refine ⟨fun named hnamed => ?_, fun task hsome => ?_⟩
      · rw [hbegins.namedSession] at hnamed
        rw [hsession]
        exact hready.namedSession named hnamed
      · rw [hbegins.task] at hsome
        cases hsome
    · exact ⟨h.named other hmem, h.prepared other hmem⟩

theorem sound_appendAsrTurn (h : Sound s)
    (hs : s.appendAsrTurn input = some s') : Sound s' ∧ KeepsClosed s.manager s'.manager := by
  unfold State.appendAsrTurn at hs
  split at hs
  · cases hs
  · rename_i hfresh
    simp only [State.freshTurn, Bool.not_eq_true', Bool.and_eq_true, Bool.not_eq_false] at hfresh
    split at hs
    · cases hs
      exact ⟨h, h.activeLive.kept.closed⟩
    · cases hs
      have hkept := DraftSessionManager.kept_sessionForTurn h.activeLive hfresh.2
        input.assignedBroId
      exact h.frame_manager hkept rfl rfl

theorem sound_updateLiveDraft {sourceBoundary : String}
    {transcriptTimestampMs : Option Int} (h : Sound s)
    (hs : s.updateLiveDraft input sourceBoundary transcriptTimestampMs = some s') :
    Sound s' ∧ KeepsClosed s.manager s'.manager := by
  unfold State.updateLiveDraft at hs
  split at hs
  · cases hs
  · rename_i hfresh
    simp only [State.freshTurn, Bool.not_eq_true', Bool.and_eq_true, Bool.not_eq_false] at hfresh
    have hkept := DraftSessionManager.kept_sessionForTurn h.activeLive hfresh.2
      input.assignedBroId
    split at hs
    · cases hs
      exact ⟨h, h.activeLive.kept.closed⟩
    · simp only at hs
      split at hs
      · cases hs
        exact h.frame_manager hkept rfl rfl
      · cases hs
        exact h.frame_manager hkept rfl rfl

@[simp] theorem revised_id (session : DraftSession) (rewrite : Rewrite) (draft : Draft)
    (ids : RevisionIds) : (State.revised session rewrite draft ids).id = session.id := by
  unfold State.revised
  split <;> rfl

@[simp] theorem revised_status (session : DraftSession) (rewrite : Rewrite) (draft : Draft)
    (ids : RevisionIds) : (State.revised session rewrite draft ids).status = .ready := by
  unfold State.revised
  split <;> rfl

/-- A finished rewrite installs a ready session under the id of the one it was begun for. -/
theorem finishRewrite_spec
    (hs : s.finishRewrite config rewriteId draft ids handled taskMode = some s') :
    ∃ rewrite session session', s.rewrites.get? rewriteId = some rewrite ∧
      s.manager.sessions.get? rewrite.draftSessionId = some session ∧
      session'.id = session.id ∧ session'.status = .ready ∧
      s' = { s with
        manager := s.manager.installRevision session'
        rewrites := s.rewrites.erase rewriteId } := by
  unfold State.finishRewrite at hs
  obtain ⟨rewrite, hrewrite, hs⟩ := bind_eq_some_iff.mp hs
  obtain ⟨session, hsession, hs⟩ := map_eq_some_iff.mp hs
  refine ⟨rewrite, session, _, hrewrite, hsession, ?_, ?_, hs.symm⟩
  · split <;> simp
  · split <;> simp

theorem sound_finishRewrite (h : Sound s)
    (hs : s.finishRewrite config rewriteId draft ids handled taskMode = some s')
    (htime : rewritesInTime s (.finishRewrite rewriteId draft ids handled taskMode) = true) :
    Sound s' ∧ KeepsClosed s.manager s'.manager := by
  obtain ⟨rewrite, session, session', hrewrite, hsession, hid, hready, rfl⟩ :=
    finishRewrite_spec hs
  have hkey : session.id = rewrite.draftSessionId := Table.key_of_get? hsession
  simp only [rewritesInTime, hrewrite, all_some, DraftSessionManager.statusOf, hsession,
    map_some, Bool.not_eq_true'] at htime
  rw [← hkey] at hsession
  have hkept := DraftSessionManager.kept_installRevision hsession hid hready htime
  exact h.frame_manager hkept rfl rfl

theorem inTime_of_keepsClosed
    (hs : s.finishRewrite config rewriteId draft ids handled taskMode = some s')
    (hkept : KeepsClosed s.manager s'.manager) :
    rewritesInTime s (.finishRewrite rewriteId draft ids handled taskMode) = true := by
  obtain ⟨rewrite, session, session', hrewrite, hsession, hid, hready, rfl⟩ :=
    finishRewrite_spec hs
  have hkey : session.id = rewrite.draftSessionId := Table.key_of_get? hsession
  simp only [rewritesInTime, hrewrite, all_some, DraftSessionManager.statusOf, hsession,
    map_some, Bool.not_eq_true']
  rw [← hkey] at hsession
  exact DraftSessionManager.closed_of_installRevision hsession hid hkept

theorem sound_putPlan {session : DraftSession} (h : Sound s)
    (hactive : s.manager.activeSession = some session) (plan : DispatchPlan) :
    Sound (s.putPlan session plan) ∧ KeepsClosed s.manager (s.putPlan session plan).manager := by
  have hkept : s.manager.Kept (s.putPlan session plan).manager :=
    DraftSessionManager.kept_active h.activeLive hactive rfl (h.activeLive.activeSession hactive).2
  exact h.frame_manager hkept rfl rfl

/-- What a confirmation does: nothing, or it confirms the plan of the active session, and a
send begins if the gate lets that plan through. -/
inductive Confirms (config : SessionConfig) (s : State) (taskId newPlanId : String)
    (s' : State) : Prop
  | nothing (h : s' = s)
  | plan (session : DraftSession) (draft : Draft) (plan : DispatchPlan)
      (active : s.manager.activeSession = some session)
      (hdraft : session.currentDraft = some draft)
      (planned : session.currentDispatchPlan = some plan ∨
        plan = buildDispatchPlan newPlanId config.sessionId session draft)
      (next : s' = s.putPlan session { plan with userConfirmed := true } ∨
        (dispatchGate { plan with userConfirmed := true }).outcome = .dispatch ∧
        (s.putPlan session { plan with userConfirmed := true }).beginSend taskId
          (some session.id) session.currentRevisionId = .ok s')

theorem confirmActiveDispatch_spec
    (hs : s.confirmActiveDispatch config taskId newPlanId planId draftRevisionId = some s') :
    s.freshTask taskId = true ∧ Confirms config s taskId newPlanId s' := by
  unfold State.confirmActiveDispatch at hs
  split at hs
  · cases hs
  · rename_i hfresh
    refine ⟨by simpa using hfresh, ?_⟩
    split at hs
    · exact .nothing (some.inj hs).symm
    · rename_i session hactive
      split at hs
      · exact .nothing (some.inj hs).symm
      · rename_i draft hdraft
        simp only at hs
        split at hs
        · exact .nothing (some.inj hs).symm
        · let plan := session.currentDispatchPlan.getD
            (buildDispatchPlan newPlanId config.sessionId session draft)
          refine .plan session draft plan hactive hdraft ?_ ?_
          · simp only [plan]
            cases session.currentDispatchPlan with
            | none => exact .inr rfl
            | some plan => exact .inl rfl
          · split at hs
            · exact .inl (some.inj hs).symm
            · rename_i hgate
              cases hbegin : (s.putPlan session { plan with userConfirmed := true }).beginSend
                  taskId (some session.id) session.currentRevisionId with
              | error message =>
                rw [hbegin] at hs
                exact .inl (some.inj hs).symm
              | ok next =>
                rw [hbegin] at hs
                cases hs
                exact .inr ⟨not_not.mp hgate, rfl⟩

theorem sound_confirmActiveDispatch (h : Sound s)
    (hs : s.confirmActiveDispatch config taskId newPlanId planId draftRevisionId = some s') :
    Sound s' ∧ KeepsClosed s.manager s'.manager := by
  obtain ⟨-, hconfirms⟩ := confirmActiveDispatch_spec hs
  cases hconfirms with
  | nothing hsame =>
    rw [hsame]
    exact ⟨h, h.activeLive.kept.closed⟩
  | plan session draft plan hactive hdraft hplans hnext =>
    obtain ⟨hplanned, hclosed⟩ := sound_putPlan h hactive { plan with userConfirmed := true }
    rcases hnext with rfl | ⟨-, hbegin⟩
    · exact ⟨hplanned, hclosed⟩
    · have hstarted := sound_beginSend hplanned taskId (some session.id)
        session.currentRevisionId
      simp only [hbegin, Except.toOption, getD_some] at hstarted
      refine ⟨hstarted.1, ?_⟩
      rw [hstarted.2]
      exact hclosed

theorem draftSessionOf_taskOfDraft (send : Send) (session : DraftSession)
    (executor : Option String) :
    draftSessionOf (State.taskOfDraft send session executor) = some send.draftSessionId := by
  simp [draftSessionOf, State.taskOfDraft, State.taskMetadata, Metadata.str?, Value.str?]

theorem sound_prepareTask {nodes : List NodeRecord}
    (h : Sound s) (hs : s.prepareTask config taskId nodes = some s') :
    Sound s' ∧ KeepsClosed s.manager s'.manager := by
  obtain ⟨send, hsend, hs⟩ := bind_eq_some_iff.mp hs
  obtain ⟨session, hsession, rfl⟩ := map_eq_some_iff.mp hs
  have hmem : send ∈ s.sends.entries := Table.mem_of_get? (filter_eq_some_iff.mp hsend).1
  refine ⟨h.frame h.activeLive.kept ?_ ?_, h.activeLive.kept.closed⟩
  · intro other hother
    rcases Table.mem_put.mp hother with rfl | ⟨hother, -⟩
    · refine ⟨h.named send hmem, fun task htask => ?_⟩
      cases htask
      exact draftSessionOf_taskOfDraft send session _
    · exact ⟨h.named other hother, h.prepared other hother⟩
  · split <;> rfl

/-- The tasks after one is stored: the others, and it in its first revision. -/
theorem mem_tasks_stored {board : Blackboard} {task other : Task}
    (h : other ∈ ((board.putTask task).bumpTaskRevision task.taskId).tasks.entries) :
    other = { task with taskRevision := task.taskRevision + 1 } ∨ other ∈ board.tasks.entries := by
  have hget : (board.putTask task).getTask task.taskId = some task := Table.get?_put_self _ task
  simp only [Blackboard.bumpTaskRevision, hget, Blackboard.tasks_putTask] at h
  rcases Table.mem_put.mp h with rfl | ⟨h, hne⟩
  · exact .inl rfl
  · rcases Table.mem_put.mp h with rfl | ⟨h, -⟩
    · exact absurd rfl hne
    · exact .inr h

/-- Before a draft session is marked, no task has been made of it, since it is not closed. -/
theorem sound_finishSend (h : Sound s) (hs : s.finishSend taskId = some s')
    (hown : sendsOwnDraft s (.finishSend taskId) = true) :
    Sound s' ∧ KeepsClosed s.manager s'.manager := by
  obtain ⟨send, hsend, hs⟩ := bind_eq_some_iff.mp hs
  obtain ⟨task, htask, hs⟩ := map_eq_some_iff.mp hs
  have hmem : send ∈ s.sends.entries := Table.mem_of_get? hsend
  have herase : ∀ other ∈ (s.sends.erase taskId).entries, other ∈ s.sends.entries :=
    fun other hother => (Table.mem_erase.mp hother).1
  simp only at hs
  split at hs
  · cases hs
    exact ⟨h.frame_sends h.activeLive.kept herase rfl, h.activeLive.kept.closed⟩
  · rename_i manager hmark
    cases hs
    obtain ⟨session, draft, hready, rfl⟩ := DraftSessionManager.markSent_ok hmark
    have hactive := hready.active
    have hkept := DraftSessionManager.kept_close h.activeLive hactive
      { session with status := .sent } rfl
    have hsame : session.id = send.draftSessionId := by
      simp only [sendsOwnDraft, hsend, all_some, Bool.or_eq_true] at hown
      rcases hown with hown | hown
      · obtain ⟨named, hnames⟩ := isSome_iff_exists.mp hown
        exact (hready.namedSession named hnames).symm.trans (h.named send hmem named hnames)
      · rw [(DraftSessionManager.activeSession_spec hactive).1] at hown
        exact of_decide_eq_true hown
    have hdraft : draftSessionOf task = some session.id := by
      rw [hsame]
      exact h.prepared send hmem task htask
    have hmarked : (DraftSessionManager.mk (s.manager.sessions.put
        { session with status := .sent }) none).statusOf session.id = some .sent :=
      DraftSessionManager.statusOf_put _ { session with status := .sent } none
    -- a task of this draft session would have it closed already
    have hnone : ∀ other ∈ s.board.tasks.entries, draftSessionOf other ≠ some session.id := by
      intro other hother hsession
      obtain ⟨hget, hlive⟩ := h.activeLive.activeSession hactive
      have hsent := h.sent other hother session.id hsession
      simp only [DraftSessionManager.statusOf, hget, map_some, some.injEq] at hsent
      rw [hsent] at hlive
      cases hlive
    refine ⟨⟨hkept.activeLive, fun other hother => h.named other (herase other hother),
      fun other hother => h.prepared other (herase other hother), ?_, ?_⟩, hkept.closed⟩
    · intro other hother draftSessionId hsession
      rcases mem_tasks_stored hother with rfl | hother
      · have hsession : draftSessionOf task = some draftSessionId := hsession
        rw [hdraft] at hsession
        cases hsession
        exact hmarked
      · exact (hkept.closed draftSessionId .sent (h.sent other hother draftSessionId hsession)
          rfl).1
    · intro first hfirst second hsecond draftSessionId hsession hsession'
      rcases mem_tasks_stored hfirst with rfl | hfirst
      · have hsession : draftSessionOf task = some draftSessionId := hsession
        rw [hdraft] at hsession
        cases hsession
        rcases mem_tasks_stored hsecond with rfl | hsecond
        · rfl
        · exact absurd hsession' (hnone second hsecond)
      · rcases mem_tasks_stored hsecond with rfl | hsecond
        · have hsession' : draftSessionOf task = some draftSessionId := hsession'
          rw [hdraft] at hsession'
          cases hsession'
          exact absurd hsession (hnone first hfirst)
        · exact h.oneTask first hfirst second hsecond draftSessionId hsession hsession'

/-- Every step under the two conditions keeps the invariant and what is closed. -/
theorem sound_step (h : Sound s)
    (hs : s.step config label = some s') (hown : sendsOwnDraft s label = true)
    (htime : rewritesInTime s label = true) : Sound s' ∧ KeepsClosed s.manager s'.manager := by
  cases label with
  | appendAsrTurn input => exact sound_appendAsrTurn h hs
  | updateLiveDraft input sourceBoundary transcriptTimestampMs => exact sound_updateLiveDraft h hs
  | finishRewrite rewriteId draft ids handled taskMode => exact sound_finishRewrite h hs htime
  | failRewrite rewriteId =>
    simp only [State.step, State.failRewrite] at hs
    split at hs
    · cases hs
      have hkept := h.activeLive.kept
      exact h.frame_manager hkept rfl rfl
    · cases hs
  | markLiveCheckpoint sourceBoundary transcriptTimestampMs snapshotId =>
    cases hs
    have hkept := DraftSessionManager.kept_markLiveCheckpoint h.activeLive sourceBoundary
      transcriptTimestampMs snapshotId
    exact h.frame_manager hkept rfl rfl
  | clear =>
    cases hs
    have hkept := DraftSessionManager.kept_clear h.activeLive
    exact h.frame_manager hkept rfl rfl
  | confirmActiveDispatch taskId newPlanId planId draftRevisionId =>
    exact sound_confirmActiveDispatch h hs
  | sendDraft taskId draftSessionId draftRevisionId =>
    simp only [State.step, State.sendDraft] at hs
    split at hs
    · cases hs
    · cases hs
      obtain ⟨hsound, hmanager⟩ := sound_beginSend h taskId draftSessionId draftRevisionId
      refine ⟨hsound, ?_⟩
      rw [hmanager]
      exact h.activeLive.kept.closed
  | prepareTask taskId nodes => exact sound_prepareTask h hs
  | finishSend taskId => exact sound_finishSend h hs hown
  | putPersona persona =>
    cases hs
    have hkept := h.activeLive.kept
    exact h.frame_manager hkept rfl rfl

/-- A step that keeps what is closed has met the condition. -/
theorem inTime_of_step
    (hs : s.step config label = some s') (hkept : KeepsClosed s.manager s'.manager) :
    rewritesInTime s label = true := by
  cases label with
  | finishRewrite rewriteId draft ids handled taskMode => exact inTime_of_keepsClosed hs hkept
  | _ => rfl

end steps

/-! ## Runs -/

theorem kept_run {s s' : State} {labels rest : List Label}
    (halong : (draftSystem config).Along
      (fun s label => sendsOwnDraft s label = true ∧ rewritesInTime s label = true) s
      (labels ++ rest))
    (h : Sound s) (hrun : (draftSystem config).run s labels = some s') :
    Sound s' ∧ KeepsClosed s.manager s'.manager := by
  refine halong.invariant (I := fun t => Sound t ∧ KeepsClosed s.manager t.manager) hrun
    ⟨h, h.activeLive.kept.closed⟩ ?_
  rintro t label t' ⟨ht, hkept⟩ ⟨hown, htime⟩ hs
  obtain ⟨ht', hstep⟩ := sound_step ht hs hown htime
  exact ⟨ht', hkept.trans hstep⟩

/-- In a run whose sends end with the draft session that they began with, a draft session
that was sent or cleared stays so, is not active again and leads to one task at most, exactly
if no rewriter returns for a draft session that has been sent or cleared meanwhile. -/
theorem lifecycle_kept_iff (config : SessionConfig) (labels : List Label)
    (hsends : (draftSystem config).Along (fun s label => sendsOwnDraft s label = true)
      emptyState labels) :
    LifecycleKept config labels ↔
      (draftSystem config).Along (fun s label => rewritesInTime s label = true)
        emptyState labels := by
  constructor
  · intro hkept
    refine System.along_of_steps fun before label after mid next hlabels hrun hs => ?_
    refine inTime_of_step hs (hkept.closed before [label] after hlabels mid next hrun ?_)
    simp only [System.run, hs, bind_some]
  · intro htime
    have hboth := hsends.and htime
    refine ⟨?_, ?_⟩
    · rintro before between after rfl mid last hmid hlast
      obtain ⟨hsound, -⟩ := kept_run hboth sound_empty hmid
      exact (kept_run (hboth.drop hmid) hsound hlast).2
    · rintro before after rfl s hrun
      exact (kept_run hboth sound_empty hrun).1.oneTask

def codexSession : SessionConfig :=
  { sessionId := "session-1", executorTypes := ["codex", "mock"], defaultExecutorType := "codex" }

def reviewDraft : Draft :=
  { text := "Review the open changes."
    taskSpec := some (formulateTaskSpec "Review the open changes." "codex") }

def turnInput (rewriteId draftSessionId turnId : String) : TurnInput :=
  { rewriteId := rewriteId
    draftSessionId := draftSessionId
    turnId := turnId
    rawText := "review the open changes" }

/-- A turn becomes a draft, and the draft is confirmed and sent. -/
def sentRun : List Label :=
  [.appendAsrTurn (turnInput "rewrite-1" "draft-1" "asr-1"),
    .finishRewrite "rewrite-1" reviewDraft ⟨"rev-1", "snap-1", "plan-1"⟩ true none,
    .confirmActiveDispatch "task-1" "plan-2" none none,
    .prepareTask "task-1" [],
    .finishSend "task-1"]

theorem sentRun_kept : LifecycleKept codexSession sentRun :=
  (lifecycle_kept_iff codexSession sentRun (System.along_of_check (by decide +kernel))).mpr
    (System.along_of_check (by decide +kernel))

/-- Another turn is with the rewriter while the draft is sent, and comes back afterwards. -/
def lateRewriteRun : List Label :=
  [.appendAsrTurn (turnInput "rewrite-1" "draft-1" "asr-1"),
    .finishRewrite "rewrite-1" reviewDraft ⟨"rev-1", "snap-1", "plan-1"⟩ true none,
    .appendAsrTurn (turnInput "rewrite-2" "draft-2" "asr-2"),
    .confirmActiveDispatch "task-1" "plan-2" none none,
    .prepareTask "task-1" [],
    .finishSend "task-1"]

/-- The draft session that was sent is ready and active again. -/
def lateRewrite : List Label :=
  [.finishRewrite "rewrite-2" reviewDraft ⟨"rev-2", "snap-2", "plan-3"⟩ true none]

/-- It can be sent once more. -/
def sendAgain : List Label :=
  [.confirmActiveDispatch "task-2" "plan-4" none none,
    .prepareTask "task-2" [],
    .finishSend "task-2"]

theorem late_rewrite_reopens :
    ¬ LifecycleKept codexSession (lateRewriteRun ++ (lateRewrite ++ sendAgain)) ∧
      ((draftSystem codexSession).target emptyState
        (lateRewriteRun ++ (lateRewrite ++ sendAgain))).board.tasks.entries.map draftSessionOf =
        [some "draft-1", some "draft-1"] := by
  refine ⟨fun hkept => ?_, by decide +kernel⟩
  let M := draftSystem codexSession
  have hmid : M.run emptyState lateRewriteRun = some (M.target emptyState lateRewriteRun) :=
    System.run_eq_target (by decide)
  have hlast : M.run (M.target emptyState lateRewriteRun) lateRewrite =
      some (M.target emptyState (lateRewriteRun ++ lateRewrite)) :=
    System.run_target (by decide +kernel)
  have hsent : (M.target emptyState lateRewriteRun).manager.statusOf "draft-1" = some .sent := by
    decide
  have hactive : (M.target emptyState (lateRewriteRun ++ lateRewrite)).manager.active =
      some "draft-1" := by
    decide +kernel
  exact (hkept.closed lateRewriteRun lateRewrite sendAgain rfl _ _ hmid hlast "draft-1" .sent hsent
    rfl).2 hactive

end Newbro.Drafts
