import Newbro.DraftLifecycle

/-!
# From the confirmed draft to the task

A task is made of a draft by `send_draft`, which only `confirm_active_dispatch` calls. Between
the confirmation and the task lie the look-up of the executor and the last check of
`mark_sent`, and the draft may be edited meanwhile. Two records are kept beside the drafts: of
every revision as it was filed, and of the plan that each send began with.
-/
namespace Newbro.Drafts

open Library Protocol Option Table

/-- The goal of a task that is made of the draft. -/
def Draft.goal (draft : Draft) : String := (draft.taskSpec.map TaskSpec.goal).getD draft.text

/-- A draft as the rewriter has returned it, under the id that it is filed with. -/
structure Revision where
  revisionId : String
  draftSessionId : String
  draft : Draft
  deriving Repr, DecidableEq

structure Dispatches where
  drafts : State
  revisions : Table Revision.revisionId
  plans : Dict String DispatchPlan

inductive DispatchLabel where
  | draft (label : Label)
  /-- A live transcript that is older than the draft, with the plan of its handler. -/
  | olderLiveDraft (input : TurnInput) (sourceBoundary : String)
      (transcriptTimestampMs : Option Int) (planId : String) (taskMode : Option TaskMode)
  /-- A task that is not made of a draft. -/
  | otherTask (task : Task)

def madeOfDraft (task : Task) : Bool :=
  task.metadata.str? "source_kind" = some "draft_session"

namespace Dispatches

/-- The plan of the draft session that the send has begun with. -/
def planOfSend (s : State) (taskId : String) : Option DispatchPlan :=
  (s.sends.get? taskId).bind fun send =>
    (s.manager.sessions.get? send.draftSessionId).bind DraftSession.currentDispatchPlan

def step (config : SessionConfig) (d : Dispatches) : DispatchLabel → Option Dispatches
  -- nothing but a confirmation begins a send
  | .draft (.sendDraft _ _ _) => none
  | .draft (.finishRewrite rewriteId draft ids handled taskMode) =>
    if d.revisions.contains ids.revisionId then none
    else
      (d.drafts.rewrites.get? rewriteId).bind fun rewrite =>
        (d.drafts.finishRewrite config rewriteId draft ids handled taskMode).map fun s =>
          { d with
            drafts := s
            revisions := d.revisions.put ⟨ids.revisionId, rewrite.draftSessionId, draft⟩ }
  | .draft (.confirmActiveDispatch taskId newPlanId planId draftRevisionId) =>
    (d.drafts.confirmActiveDispatch config taskId newPlanId planId draftRevisionId).map
      fun s =>
        let plans := (planOfSend s taskId).elim d.plans fun plan => Dict.set d.plans taskId plan
        { d with drafts := s, plans := plans }
  | .draft label => (d.drafts.step config label).map fun s => { d with drafts := s }
  | .olderLiveDraft input sourceBoundary transcriptTimestampMs planId taskMode =>
    let session := d.drafts.manager.sessionForTurn input.draftSessionId input.assignedBroId
    if Text.strip input.rawText = "" || !session.newerThan transcriptTimestampMs then none
    else
      (d.drafts.updateLiveDraft input sourceBoundary transcriptTimestampMs).map fun s =>
        { d with drafts := s.replanActive config planId taskMode }
  | .otherTask task =>
    if d.drafts.freshTask task.taskId && !madeOfDraft task then
      some { d with drafts.board := d.drafts.board.putTask task }
    else none

end Dispatches

def dispatchSystem (config : SessionConfig) : System Dispatches DispatchLabel where
  initial d := d = ⟨emptyState, Table.empty, Table.empty⟩
  step := Dispatches.step config

/-! ## The property -/

/-- The plan that the user has confirmed for a task, and the revision that it was made for. -/
structure Confirmed (d : Dispatches) (taskId : String) (plan : DispatchPlan)
    (revision : Revision) : Prop where
  recorded : d.plans.lookup taskId = some plan
  userConfirmed : plan.userConfirmed = true
  gate : (dispatchGate plan).outcome = .dispatch
  planned : plan.draftRevisionId = some revision.revisionId
  filed : revision ∈ d.revisions.entries

/-- A task with the words of that revision, under its id. -/
structure Dispatched (d : Dispatches) (task : Task) (plan : DispatchPlan)
    (revision : Revision) : Prop where
  confirmed : Confirmed d task.taskId plan revision
  draftSession : draftSessionOf task = some revision.draftSessionId
  draftRevision : task.metadata.str? "draft_revision_id" = some revision.revisionId
  draftText : task.metadata.str? "draft_text" = some revision.draft.text
  goal : task.goal = revision.draft.goal

/-! ## Draft sessions and their revisions -/

/-- A draft with the words of a revision; the mode may be another one. -/
structure Reads (draft : Draft) (revision : Revision) : Prop where
  revisionId : draft.revisionId = some revision.revisionId
  text : draft.text = revision.draft.text
  goal : draft.goal = revision.draft.goal

/-- The draft of a session is that of its revision, and its plan is for that revision. -/
structure Filed (revisions : Table Revision.revisionId) (session : DraftSession) : Prop where
  revision : ∀ revisionId, session.currentRevisionId = some revisionId →
    revisions.contains revisionId = true
  draft : ∀ draft, session.currentDraft = some draft → ∃ revision ∈ revisions.entries,
    session.currentRevisionId = some revision.revisionId ∧
      revision.draftSessionId = session.id ∧ Reads draft revision
  plan : ∀ plan, session.currentDispatchPlan = some plan →
    plan.draftRevisionId = session.currentRevisionId

variable {revision : Revision}

section filed

variable {revisions : Table Revision.revisionId} {session session' : DraftSession}

theorem Filed.congr (h : Filed revisions session) (hid : session'.id = session.id)
    (hdraft : session'.currentDraft = session.currentDraft)
    (hrevision : session'.currentRevisionId = session.currentRevisionId)
    (hplan : session'.currentDispatchPlan = session.currentDispatchPlan) :
    Filed revisions session' := by
  constructor
  · rw [hrevision]
    exact h.revision
  · rw [hid, hdraft, hrevision]
    exact h.draft
  · rw [hplan, hrevision]
    exact h.plan

theorem Filed.putRevision (h : Filed revisions session)
    (hfresh : revisions.contains revision.revisionId = false) :
    Filed (revisions.put revision) session := by
  refine ⟨fun revisionId hcurrent => ?_, fun draft hdraft => ?_, h.plan⟩
  · exact isSome_get?_put revisions revision (h.revision revisionId hcurrent)
  obtain ⟨current, hmem, hcurrent⟩ := h.draft draft hdraft
  have hne : current.revisionId ≠ revision.revisionId := by
    intro heq
    have hget := Table.get?_of_mem hmem
    simp [Table.contains, ← heq, hget] at hfresh
  exact ⟨current, mem_put.mpr (.inr ⟨hmem, hne⟩), hcurrent⟩

theorem filed_applyDraftRevision (session : DraftSession) (draft : Draft)
    (sourceBoundary : String) (transcriptTimestampMs : Option Int) (ids : RevisionIds) :
    Filed (revisions.put ⟨ids.revisionId, session.id, draft⟩)
      (session.applyDraftRevision draft sourceBoundary transcriptTimestampMs ids) := by
  constructor
  · intro revisionId hcurrent
    cases hcurrent
    simp only [Table.contains]
    exact isSome_of_eq_some (Table.get?_put_self revisions ⟨ids.revisionId, session.id, draft⟩)
  · intro current hcurrent
    cases hcurrent
    exact ⟨_, mem_put.mpr (.inl rfl), rfl, rfl, rfl, rfl, rfl⟩
  · intro plan hplan
    cases hplan
    rfl

theorem Draft.goal_withMode (draft : Draft) (mode : TaskSpec → TaskMode) :
    ({ draft with
      taskSpec := draft.taskSpec.map fun spec => { spec with mode := mode spec } } : Draft).goal =
      draft.goal := by
  simp only [Draft.goal, map_map]
  rfl

theorem replan_revisionId (runtimeSessionId planId : String) (taskMode : Option TaskMode) :
    (session.replan runtimeSessionId planId taskMode).currentRevisionId =
      session.currentRevisionId := by
  unfold DraftSession.replan
  split <;> rfl

/-- Another mode and another plan leave a draft its words. -/
theorem Filed.replan (h : Filed revisions session) (runtimeSessionId planId : String)
    (taskMode : Option TaskMode) :
    Filed revisions (session.replan runtimeSessionId planId taskMode) := by
  unfold DraftSession.replan
  split
  · exact h
  · rename_i draft hdraft
    refine ⟨h.revision, ?_, ?_⟩
    · intro current hcurrent
      cases hcurrent
      obtain ⟨revision, hmem, hcurrent, hsession, hreads⟩ := h.draft draft hdraft
      refine ⟨revision, hmem, hcurrent, hsession, hreads.revisionId, hreads.text, ?_⟩
      exact (Draft.goal_withMode draft fun spec => taskMode.getD spec.mode).trans hreads.goal
    · intro plan hplan
      cases hplan
      rfl

end filed

/-! ## What a step keeps of the sessions -/

/-- Every draft is filed afterwards, and a session that has a revision of before had it
before. -/
structure SessionsKept (revisions revisions' : Table Revision.revisionId)
    (m m' : DraftSessionManager) : Prop where
  filed : ∀ session ∈ m'.sessions.entries, Filed revisions' session
  revisions : ∀ session' ∈ m'.sessions.entries, ∀ revision ∈ revisions.entries,
    session'.currentRevisionId = some revision.revisionId →
    ∃ session ∈ m.sessions.entries, session.id = session'.id ∧
      session.currentRevisionId = session'.currentRevisionId

namespace SessionsKept

variable {revisions revisions' : Table Revision.revisionId} {m : DraftSessionManager}

theorem same {m' : DraftSessionManager} (h : ∀ session ∈ m.sessions.entries, Filed revisions session)
    (hsame : m'.sessions = m.sessions) : SessionsKept revisions revisions m m' := by
  constructor
  · rw [hsame]
    exact h
  · intro session hmem _ _ _
    rw [hsame] at hmem
    exact ⟨session, hmem, rfl, rfl⟩

variable {session' : DraftSession} {active : Option String}

theorem put
    (h : ∀ session ∈ m.sessions.entries, Filed revisions' session)
    (hfiled : Filed revisions' session') (hrevision : ∀ revision ∈ revisions.entries,
      session'.currentRevisionId = some revision.revisionId →
      ∃ session ∈ m.sessions.entries, session.id = session'.id ∧
        session.currentRevisionId = session'.currentRevisionId) :
    SessionsKept revisions revisions' m ⟨m.sessions.put session', active⟩ := by
  constructor
  · intro other hmem
    rcases mem_put.mp hmem with rfl | ⟨hmem, -⟩
    · exact hfiled
    · exact h other hmem
  · intro other hmem revision hknown hcurrent
    rcases mem_put.mp hmem with rfl | ⟨hmem, -⟩
    · exact hrevision revision hknown hcurrent
    · exact ⟨other, hmem, rfl, rfl⟩

/-- A session may be rewritten that keeps its draft, and its plan but for the confirmation. -/
theorem putSame {session : DraftSession}
    (h : ∀ session ∈ m.sessions.entries, Filed revisions session)
    (hmem : session ∈ m.sessions.entries) (hfiled : Filed revisions session')
    (hid : session'.id = session.id)
    (hrevision : session'.currentRevisionId = session.currentRevisionId) :
    SessionsKept revisions revisions m ⟨m.sessions.put session', active⟩ :=
  put h hfiled fun _ _ _ => ⟨session, hmem, hid.symm, hrevision.symm⟩

section

variable (h : ∀ session ∈ m.sessions.entries, Filed revisions session)
include h

theorem sessionForTurn
    (newId : String) (assignedBroId : Option String) :
    SessionsKept revisions revisions m
      { m with sessions := m.sessions.put (m.sessionForTurn newId assignedBroId) } := by
  unfold DraftSessionManager.sessionForTurn
  cases hactive : m.activeSession.filter fun session => !session.status.closed with
  | none =>
    refine put h ⟨fun _ hnone => (by cases hnone), fun _ hnone => (by cases hnone),
      fun _ hnone => (by cases hnone)⟩ ?_
    intro revision _ hnone
    cases hnone
  | some session =>
    obtain ⟨hsession, -⟩ := filter_eq_some_iff.mp hactive
    have hmem := mem_of_get? (DraftSessionManager.activeSession_spec hsession).2
    exact putSame h hmem ((h session hmem).congr rfl rfl rfl rfl) rfl rfl

theorem markLiveCheckpoint
    (sourceBoundary : String) (transcriptTimestampMs : Option Int) (snapshotId : String) :
    SessionsKept revisions revisions m
      (m.markLiveCheckpoint sourceBoundary transcriptTimestampMs snapshotId) := by
  unfold DraftSessionManager.markLiveCheckpoint
  split
  · exact same h rfl
  · rename_i session hactive
    have hmem := mem_of_get? (DraftSessionManager.activeSession_spec hactive).2
    split
    · exact putSame h hmem ((h session hmem).congr rfl rfl rfl rfl) rfl rfl
    · exact same h rfl

theorem clear : SessionsKept revisions revisions m m.clear := by
  unfold DraftSessionManager.clear
  split
  · exact same h rfl
  · rename_i session hactive
    have hmem := mem_of_get? (DraftSessionManager.activeSession_spec hactive).2
    exact putSame h hmem ((h session hmem).congr rfl rfl rfl rfl) rfl rfl

end

end SessionsKept

/-! ## The invariant -/

/-- The task of a prepared send: it is made of the draft that the send holds, and if it does
not carry the revision that the user has confirmed, no draft session has that any more. -/
structure Prepared (d : Dispatches) (send : Send) (revision : Revision) (task : Task) :
    Prop where
  taskId : task.taskId = send.taskId
  draftSession : draftSessionOf task = some send.draftSessionId
  draftText : task.metadata.str? "draft_text" = some revision.draft.text
  goal : task.goal = revision.draft.goal
  draftRevision : task.metadata.str? "draft_revision_id" = some revision.revisionId ∨
    ∀ session ∈ d.drafts.manager.sessions.entries, session.id = send.draftSessionId →
      session.currentRevisionId ≠ some revision.revisionId

/-- A send names the draft session and the revision that the user has confirmed. -/
structure Gated (d : Dispatches) (send : Send) (plan : DispatchPlan) (revision : Revision) :
    Prop where
  confirmed : Confirmed d send.taskId plan revision
  namedSession : send.namedDraftSessionId = some send.draftSessionId
  namedRevision : send.namedDraftRevisionId = some revision.revisionId
  draftSession : revision.draftSessionId = send.draftSessionId
  reads : Reads send.draft revision
  prepared : ∀ task, send.task = some task → Prepared d send revision task

structure Safe (d : Dispatches) : Prop where
  filed : ∀ session ∈ d.drafts.manager.sessions.entries, Filed d.revisions session
  sends : ∀ send ∈ d.drafts.sends.entries, ∃ plan revision, Gated d send plan revision
  tasks : ∀ task ∈ d.drafts.board.tasks.entries, madeOfDraft task = true →
    ∃ plan revision, Dispatched d task plan revision

/-- A send that is the same but for its draft, which has the same words. -/
structure SameSend (revisions : Table Revision.revisionId) (send send' : Send) : Prop where
  taskId : send'.taskId = send.taskId
  draftSessionId : send'.draftSessionId = send.draftSessionId
  namedSession : send'.namedDraftSessionId = send.namedDraftSessionId
  namedRevision : send'.namedDraftRevisionId = send.namedDraftRevisionId
  task : send'.task = send.task
  reads : ∀ revision ∈ revisions.entries, Reads send.draft revision → Reads send'.draft revision

theorem SameSend.refl (revisions : Table Revision.revisionId) (send : Send) :
    SameSend revisions send send :=
  ⟨rfl, rfl, rfl, rfl, rfl, fun _ _ h => h⟩

variable {taskId : String} {plan : DispatchPlan} {s : State}

variable {task : Task}

section invariant

variable {d d' : Dispatches}

theorem Confirmed.mono
    (h : Confirmed d taskId plan revision)
    (hplans : d'.plans.lookup taskId = d.plans.lookup taskId)
    (hrevisions : ∀ revision ∈ d.revisions.entries, revision ∈ d'.revisions.entries) :
    Confirmed d' taskId plan revision where
  recorded := hplans.trans h.recorded
  userConfirmed := h.userConfirmed
  gate := h.gate
  planned := h.planned
  filed := hrevisions revision h.filed

/-- What a step keeps of the sends and the tasks there are, when it changes no task and the
plans of none of them. -/
theorem Gated.mono {send send' : Send}
    (h : Gated d send plan revision) (hsame : SameSend d.revisions send send')
    (hplans : d'.plans.lookup send.taskId = d.plans.lookup send.taskId)
    (hrevisions : ∀ revision ∈ d.revisions.entries, revision ∈ d'.revisions.entries)
    (hkept : SessionsKept d.revisions d'.revisions d.drafts.manager d'.drafts.manager) :
    Gated d' send' plan revision := by
  obtain ⟨htaskId, hsession, hnamed, hnamed', htask, hreads⟩ := hsame
  refine ⟨?_, ?_, ?_, ?_, hreads revision h.confirmed.filed h.reads, ?_⟩
  · rw [htaskId]
    exact h.confirmed.mono hplans hrevisions
  · rw [hnamed, hsession]
    exact h.namedSession
  · rw [hnamed']
    exact h.namedRevision
  · rw [hsession]
    exact h.draftSession
  · intro task hprepared
    rw [htask] at hprepared
    have hold := h.prepared task hprepared
    refine ⟨hold.taskId.trans htaskId.symm, hold.draftSession.trans (congrArg some hsession.symm),
      hold.draftText, hold.goal, ?_⟩
    refine hold.draftRevision.imp id fun hgone session' hmem hid hcurrent => ?_
    obtain ⟨session, hmem, hid', hsame⟩ :=
      hkept.revisions session' hmem revision h.confirmed.filed hcurrent
    refine hgone session hmem ?_ (hsame.trans hcurrent)
    rw [hid', hid, hsession]

theorem Dispatched.mono
    (h : Dispatched d task plan revision)
    (hplans : d'.plans.lookup task.taskId = d.plans.lookup task.taskId)
    (hrevisions : ∀ revision ∈ d.revisions.entries, revision ∈ d'.revisions.entries) :
    Dispatched d' task plan revision where
  confirmed := h.confirmed.mono hplans hrevisions
  draftSession := h.draftSession
  draftRevision := h.draftRevision
  draftText := h.draftText
  goal := h.goal

theorem Safe.frame (h : Safe d) (hplans : d'.plans = d.plans)
    (hrevisions : ∀ revision ∈ d.revisions.entries, revision ∈ d'.revisions.entries)
    (hkept : SessionsKept d.revisions d'.revisions d.drafts.manager d'.drafts.manager)
    (hsends : ∀ send' ∈ d'.drafts.sends.entries, ∃ send ∈ d.drafts.sends.entries,
      SameSend d.revisions send send')
    (htasks : d'.drafts.board.tasks = d.drafts.board.tasks) : Safe d' where
  filed := hkept.filed
  sends := by
    intro send' hmem
    obtain ⟨send, hold, hsame⟩ := hsends send' hmem
    obtain ⟨plan, revision, hgated⟩ := h.sends send hold
    exact ⟨plan, revision, hgated.mono hsame (by rw [hplans]) hrevisions hkept⟩
  tasks := by
    intro task hmem hmade
    rw [htasks] at hmem
    obtain ⟨plan, revision, hdispatched⟩ := h.tasks task hmem hmade
    exact ⟨plan, revision, hdispatched.mono (by rw [hplans]) hrevisions⟩

/-- A step that touches neither the sends nor the revisions. -/
theorem Safe.sessions (h : Safe d)
    (hkept : SessionsKept d.revisions d.revisions d.drafts.manager s.manager)
    (hsends : ∀ send ∈ s.sends.entries, send ∈ d.drafts.sends.entries)
    (htasks : s.board.tasks = d.drafts.board.tasks) : Safe { d with drafts := s } :=
  h.frame rfl (fun _ hmem => hmem) hkept
    (fun send hmem => ⟨send, hsends send hmem, SameSend.refl _ send⟩) htasks

end invariant

/-! ## Steps -/

variable {session : DraftSession}

variable {input : TurnInput} {draft : Draft}

section steps

variable {config : SessionConfig} {d : Dispatches} {s' : State}

theorem safe_beginRewrite (h : Safe d) (input : TurnInput) (kind : RewriteKind) :
    Safe { d with drafts := d.drafts.beginRewrite input kind } :=
  h.sessions (SessionsKept.sessionForTurn h.filed _ _) (fun _ hmem => hmem) rfl

theorem safe_appendAsrTurn (h : Safe d)
    (hs : d.drafts.appendAsrTurn input = some s') : Safe { d with drafts := s' } := by
  unfold State.appendAsrTurn at hs
  split_ifs at hs
  · cases hs
    exact h
  · cases hs
    exact safe_beginRewrite h input _

theorem safe_updateLiveDraft {sourceBoundary : String}
    {transcriptTimestampMs : Option Int} (h : Safe d)
    (hs : d.drafts.updateLiveDraft input sourceBoundary transcriptTimestampMs = some s') :
    Safe { d with drafts := s' } := by
  unfold State.updateLiveDraft at hs
  split at hs
  · cases hs
  · split at hs
    · cases hs
      exact h
    · simp only at hs
      split at hs
      · cases hs
        exact h.sessions (SessionsKept.sessionForTurn h.filed _ _) (fun _ hmem => hmem) rfl
      · cases hs
        exact safe_beginRewrite h input _

theorem revised_revisionId (session : DraftSession) (rewrite : Rewrite) (draft : Draft)
    (ids : RevisionIds) :
    (State.revised session rewrite draft ids).currentRevisionId = some ids.revisionId := by
  unfold State.revised
  split <;> rfl

theorem filed_revised {revisions : Table Revision.revisionId} (session : DraftSession)
    (rewrite : Rewrite) (draft : Draft) (ids : RevisionIds) :
    Filed (revisions.put ⟨ids.revisionId, session.id, draft⟩)
      (State.revised session rewrite draft ids) := by
  unfold State.revised
  split
  · exact filed_applyDraftRevision
      { session with asrTurns := session.asrTurns ++ [rewrite.turn] } draft _ _ ids
  · exact filed_applyDraftRevision session draft _ _ ids

/-- A draft that has come back is filed under an id that no revision has had before. -/
theorem safe_finishRewrite {rewriteId : String} {ids : RevisionIds}
    {handled : Bool} {taskMode : Option TaskMode} {rewrite : Rewrite} (h : Safe d)
    (hfresh : d.revisions.contains ids.revisionId = false)
    (hrewrite : d.drafts.rewrites.get? rewriteId = some rewrite)
    (hs : d.drafts.finishRewrite config rewriteId draft ids handled taskMode = some s') :
    Safe { d with
      drafts := s'
      revisions := d.revisions.put ⟨ids.revisionId, rewrite.draftSessionId, draft⟩ } := by
  unfold State.finishRewrite at hs
  simp only [hrewrite, bind_some] at hs
  obtain ⟨session, hsession, rfl⟩ := map_eq_some_iff.mp hs
  have hid : session.id = rewrite.draftSessionId := key_of_get? hsession
  have hold : ∀ revision ∈ d.revisions.entries, revision.revisionId ≠ ids.revisionId := by
    intro revision hmem heq
    have hget := Table.get?_of_mem hmem
    simp [Table.contains, ← heq, hget] at hfresh
  rw [← hid]
  refine h.frame rfl (fun revision hmem => mem_put.mpr (.inr ⟨hmem, hold revision hmem⟩)) ?_
    (fun send hmem => ⟨send, hmem, SameSend.refl _ send⟩) rfl
  have hrevised : Filed (d.revisions.put ⟨ids.revisionId, session.id, draft⟩)
      (State.revised session rewrite draft ids) := filed_revised session rewrite draft ids
  refine SessionsKept.put (fun other hmem => (h.filed other hmem).putRevision hfresh) ?_ ?_
  · split
    · exact hrevised.replan _ _ _
    · exact hrevised
  · intro revision hmem hcurrent
    have hnew : some revision.revisionId = some ids.revisionId := by
      rw [← hcurrent]
      split
      · rw [replan_revisionId, revised_revisionId]
      · rw [revised_revisionId]
    exact absurd (some.inj hnew) (hold revision hmem)

/-- A plan of the active session for the revision that it has. -/
theorem safe_putPlan (h : Safe d)
    (hactive : d.drafts.manager.activeSession = some session)
    (hplan : plan.draftRevisionId = session.currentRevisionId) :
    Safe { d with drafts := d.drafts.putPlan session plan } := by
  have hmem := mem_of_get? (DraftSessionManager.activeSession_spec hactive).2
  refine h.sessions (SessionsKept.putSame h.filed hmem
    ⟨(h.filed session hmem).revision, (h.filed session hmem).draft, ?_⟩ rfl rfl)
    (fun _ hmem => hmem) rfl
  intro current hcurrent
  cases hcurrent
  exact hplan

theorem activeSession_putPlan (plan : DispatchPlan)
    (hactive : s.manager.activeSession = some session) :
    (s.putPlan session plan).manager.activeSession =
      some { session with currentDispatchPlan := some plan } := by
  have hid := (DraftSessionManager.activeSession_spec hactive).1
  simp only [State.putPlan, DraftSessionManager.activeSession, hid, bind_some]
  exact Table.get?_put_self s.manager.sessions { session with currentDispatchPlan := some plan }

theorem safe_replanActive (h : Safe d) (planId : String) (taskMode : Option TaskMode) :
    Safe { d with drafts := d.drafts.replanActive config planId taskMode } := by
  unfold State.replanActive
  split
  · exact h
  · rename_i session hactive
    have hmem := mem_of_get? (DraftSessionManager.activeSession_spec hactive).2
    have hfiled := (h.filed session hmem).replan config.sessionId planId taskMode
    refine h.frame rfl (fun _ hmem => hmem) (SessionsKept.putSame h.filed hmem hfiled
      (DraftSession.replan_id _ _ _ _) (replan_revisionId _ _ _)) ?_ rfl
    intro send' hsend'
    simp only [mem_mapValues] at hsend'
    obtain ⟨send, hsend, rfl⟩ := hsend'
    refine ⟨send, hsend, ?_⟩
    unfold Send.withDraft
    split
    · rename_i hshared
      refine ⟨rfl, rfl, rfl, rfl, rfl, fun revision hknown hreads => ?_⟩
      -- the draft object of the session has the words of the revision that the send holds
      cases hdraft : (session.replan config.sessionId planId taskMode).currentDraft with
      | none => exact hreads
      | some draft =>
        obtain ⟨current, hcurrent, hrevision, -, hcurrentReads⟩ := hfiled.draft draft hdraft
        have hsame : some current.revisionId = some revision.revisionId := by
          rw [← hrevision, replan_revisionId, ← hshared.2, hreads.revisionId]
        have heq : current = revision :=
          d.revisions.eq_of_key_eq hcurrent hknown (some.inj hsame)
        rw [← heq]
        exact hcurrentReads
    · exact SameSend.refl _ send

theorem planOfSend_of_fresh
    (hfresh : s.sends.contains taskId = false) : Dispatches.planOfSend s taskId = none := by
  simp only [Table.contains, isSome_eq_false_iff, isNone_iff_eq_none] at hfresh
  simp only [Dispatches.planOfSend, hfresh, bind_none]

/-- A send that begins takes the words of the revision that was confirmed. -/
theorem safe_beginSend
    (h : Safe d) (hfresh : d.drafts.freshTask taskId = true)
    (hactive : d.drafts.manager.activeSession = some session)
    (hdraft : session.currentDraft = some draft)
    (hplan : session.currentDispatchPlan = some plan) (hconfirmed : plan.userConfirmed = true)
    (hgate : (dispatchGate plan).outcome = .dispatch)
    (hbegin : d.drafts.beginSend taskId (some session.id) session.currentRevisionId = .ok s') :
    Dispatches.planOfSend s' taskId = some plan ∧
      Safe { d with drafts := s', plans := Dict.set d.plans taskId plan } := by
  obtain ⟨send, rfl, hbegins⟩ := beginSend_ok hbegin
  obtain ⟨ready, hready, hsend⟩ := hbegins.ready
  obtain rfl : ready = session := some.inj (hready.active.symm.trans hactive)
  have hget := (DraftSessionManager.activeSession_spec hactive).2
  have hfiled := h.filed ready (mem_of_get? hget)
  obtain ⟨revision, hknown, hcurrent, hsession, hreads⟩ := hfiled.draft send.draft hready.draft
  simp only [State.freshTask, Bool.and_eq_true, Bool.not_eq_true'] at hfresh
  obtain ⟨hsends, htasks⟩ := hfresh
  refine ⟨?_, h.filed, ?_, ?_⟩
  · have hput := Table.get?_put_self d.drafts.sends send
    rw [hbegins.taskId] at hput
    simp only [Dispatches.planOfSend, hput, bind_some, hsend, hget, hplan]
  · intro other hmem
    rcases mem_put.mp hmem with rfl | ⟨hmem, hne⟩
    · refine ⟨plan, revision, ⟨?_, hconfirmed, hgate, ?_, hknown⟩, ?_, ?_, ?_, hreads, ?_⟩
      · rw [hbegins.taskId]
        exact Dict.lookup_set_self d.plans taskId plan
      · rw [hfiled.plan plan hplan, hcurrent]
      · rw [hbegins.namedSession, hsend]
      · rw [hbegins.namedRevision, hcurrent]
      · rw [hsession, hsend]
      · intro task htask
        rw [hbegins.task] at htask
        cases htask
    · obtain ⟨otherPlan, otherRevision, hgated⟩ := h.sends other hmem
      rw [hbegins.taskId] at hne
      exact ⟨otherPlan, otherRevision, hgated.mono (SameSend.refl _ other)
        (Dict.lookup_set_of_ne d.plans plan (Ne.symm hne)) (fun _ hmem => hmem)
        (SessionsKept.same h.filed rfl)⟩
  · intro task hmem hmade
    obtain ⟨otherPlan, otherRevision, hdispatched⟩ := h.tasks task hmem hmade
    have hne : taskId ≠ task.taskId := by
      rintro rfl
      simp [Table.contains, Table.get?_of_mem hmem] at htasks
    exact ⟨otherPlan, otherRevision, hdispatched.mono
      (Dict.lookup_set_of_ne d.plans plan hne) (fun _ hmem => hmem)⟩

theorem safe_confirmActiveDispatch {newPlanId : String}
    {planId draftRevisionId : Option String} (h : Safe d)
    (hs : d.drafts.confirmActiveDispatch config taskId newPlanId planId draftRevisionId = some s') :
    Safe { d with
      drafts := s'
      plans := (Dispatches.planOfSend s' taskId).elim d.plans fun plan =>
        Dict.set d.plans taskId plan } := by
  obtain ⟨hfresh, hconfirms⟩ := confirmActiveDispatch_spec hs
  have hsends : d.drafts.sends.contains taskId = false := by
    simp only [State.freshTask, Bool.and_eq_true, Bool.not_eq_true'] at hfresh
    exact hfresh.1
  cases hconfirms with
  | nothing hsame =>
    subst hsame
    rw [planOfSend_of_fresh hsends]
    exact h
  | plan session draft plan hactive hdraft hplanned hnext =>
    have hmem := mem_of_get? (DraftSessionManager.activeSession_spec hactive).2
    have hrevision : plan.draftRevisionId = session.currentRevisionId := by
      rcases hplanned with hplanned | rfl
      · exact (h.filed session hmem).plan plan hplanned
      · rfl
    let confirmed := { plan with userConfirmed := true }
    have hput : Safe { d with drafts := d.drafts.putPlan session confirmed } :=
      safe_putPlan h hactive hrevision
    rcases hnext with rfl | ⟨hgate, hbegin⟩
    · have hnone : Dispatches.planOfSend (d.drafts.putPlan session confirmed) taskId = none :=
        planOfSend_of_fresh hsends
      rw [hnone]
      exact hput
    · have hnow := activeSession_putPlan confirmed hactive
      obtain ⟨hplan, hsafe⟩ := safe_beginSend hput hfresh hnow hdraft rfl rfl hgate hbegin
      rw [hplan]
      exact hsafe

/-- No entry for the persona has the key of an entry for the draft. -/
theorem str?_taskMetadata (send : Send) (session : DraftSession) (executor : Option String) :
    (State.taskMetadata send session executor).str? "draft_text" = some send.draft.text ∧
      (State.taskMetadata send session executor).str? "draft_revision_id" =
        session.currentRevisionId := by
  unfold State.taskMetadata
  cases send.persona with
  | none => cases session.currentRevisionId <;> simp [Metadata.str?, Dict.lookup_set, Value.str?]
  | some persona =>
    dsimp only
    generalize persona.executorNodeId.filter (· ≠ "") = nodeId
    cases nodeId with
    | none => cases session.currentRevisionId <;> simp [Metadata.str?, Dict.lookup_set, Value.str?]
    | some nodeId =>
      cases session.currentRevisionId <;> simp [Metadata.str?, Dict.lookup_set, Value.str?]

/-- The task is made with the revision that its draft session has now. If that is another one
than the confirmed one, the draft session does not have the confirmed one again. -/
theorem safe_prepareTask {nodes : List NodeRecord} (h : Safe d)
    (hs : d.drafts.prepareTask config taskId nodes = some s') :
    Safe { d with drafts := s' } := by
  obtain ⟨send, hsend, hs⟩ := bind_eq_some_iff.mp hs
  obtain ⟨session, hsession, rfl⟩ := map_eq_some_iff.mp hs
  have hmem : send ∈ d.drafts.sends.entries :=
    mem_of_get? (filter_eq_some_iff.mp hsend).1
  have hid : session.id = send.draftSessionId := key_of_get? hsession
  have hkept : SessionsKept d.revisions d.revisions d.drafts.manager d.drafts.manager :=
    SessionsKept.same h.filed rfl
  refine ⟨h.filed, ?_, ?_⟩
  · intro other hother
    rcases mem_put.mp hother with rfl | ⟨hother, -⟩
    · obtain ⟨plan, revision, hgated⟩ := h.sends send hmem
      refine ⟨plan, revision, ⟨hgated.confirmed.mono rfl fun _ hmem => hmem,
        hgated.namedSession, hgated.namedRevision, hgated.draftSession, hgated.reads, ?_⟩⟩
      intro task htask
      cases htask
      refine ⟨rfl, draftSessionOf_taskOfDraft send session _, ?_, hgated.reads.goal, ?_⟩
      · rw [← hgated.reads.text]
        exact (str?_taskMetadata send session _).1
      · have hrevision := (str?_taskMetadata send session
          (State.resolveDraftPreferredExecutor config send.persona nodes)).2
        by_cases hcurrent : session.currentRevisionId = some revision.revisionId
        · exact .inl (hrevision.trans hcurrent)
        · refine .inr fun now hnow hsame => ?_
          have heq : now = session := d.drafts.manager.sessions.eq_of_key_eq hnow
            (mem_of_get? hsession) (hsame.trans hid.symm)
          rw [heq]
          exact hcurrent
    · obtain ⟨plan, revision, hgated⟩ := h.sends other hother
      exact ⟨plan, revision, hgated.mono (SameSend.refl _ other) rfl (fun _ hmem => hmem) hkept⟩
  · intro task htask hmade
    have htasks : task ∈ d.drafts.board.tasks.entries := by
      revert htask
      simp only
      split
      · exact id
      · rw [Blackboard.tasks_putPersona]
        exact id
    obtain ⟨plan, revision, hdispatched⟩ := h.tasks task htasks hmade
    exact ⟨plan, revision, hdispatched.mono rfl fun _ hmem => hmem⟩

/-- `mark_sent` lets a task through only while the revision that was named is the current
one, so the task carries it. -/
theorem safe_finishSend (h : Safe d)
    (hs : d.drafts.finishSend taskId = some s') : Safe { d with drafts := s' } := by
  obtain ⟨send, hsend, hs⟩ := bind_eq_some_iff.mp hs
  obtain ⟨task, htask, hs⟩ := map_eq_some_iff.mp hs
  have hmem : send ∈ d.drafts.sends.entries := mem_of_get? hsend
  have herase : ∀ other ∈ (d.drafts.sends.erase taskId).entries,
      other ∈ d.drafts.sends.entries := fun other hother => (mem_erase.mp hother).1
  simp only at hs
  split at hs
  · cases hs
    exact h.sessions (SessionsKept.same h.filed rfl) herase rfl
  · rename_i manager hmark
    cases hs
    obtain ⟨session, draft, hready, rfl⟩ := DraftSessionManager.markSent_ok hmark
    have hsession := mem_of_get? (DraftSessionManager.activeSession_spec hready.active).2
    obtain ⟨plan, revision, hgated⟩ := h.sends send hmem
    have hprepared := hgated.prepared task htask
    have hid : session.id = send.draftSessionId :=
      (hready.namedSession send.draftSessionId hgated.namedSession).symm
    have hcurrent : session.currentRevisionId = some revision.revisionId :=
      hready.namedRevision revision.revisionId hgated.namedRevision
    have hrevision : task.metadata.str? "draft_revision_id" = some revision.revisionId :=
      hprepared.draftRevision.resolve_right fun hgone => hgone session hsession hid hcurrent
    have hkept : SessionsKept d.revisions d.revisions d.drafts.manager
        ⟨d.drafts.manager.sessions.put { session with status := .sent }, none⟩ :=
      SessionsKept.putSame h.filed hsession ((h.filed session hsession).congr rfl rfl rfl rfl)
        rfl rfl
    refine ⟨hkept.filed, ?_, ?_⟩
    · intro other hother
      obtain ⟨otherPlan, otherRevision, hother⟩ := h.sends other (herase other hother)
      exact ⟨otherPlan, otherRevision,
        hother.mono (SameSend.refl _ other) rfl (fun _ hmem => hmem) hkept⟩
    · intro other hother hmade
      rcases mem_tasks_stored hother with rfl | hother
      · refine ⟨plan, revision, ?_, ?_, hrevision, hprepared.draftText, hprepared.goal⟩
        · have hconfirmed := hgated.confirmed
          rw [← hprepared.taskId] at hconfirmed
          exact hconfirmed.mono rfl fun _ hmem => hmem
        · rw [hgated.draftSession]
          exact hprepared.draftSession
      · obtain ⟨otherPlan, otherRevision, hdispatched⟩ := h.tasks other hother hmade
        exact ⟨otherPlan, otherRevision, hdispatched.mono rfl fun _ hmem => hmem⟩

theorem safe_putOther (h : Safe d) (hother : madeOfDraft task = false) :
    Safe { d with drafts.board := d.drafts.board.putTask task } := by
  refine ⟨h.filed, fun send hmem => ?_, fun other hmem hmade => ?_⟩
  · obtain ⟨plan, revision, hgated⟩ := h.sends send hmem
    exact ⟨plan, revision, hgated.mono (SameSend.refl _ send) rfl (fun _ hmem => hmem)
      (SessionsKept.same h.filed rfl)⟩
  · rcases mem_put.mp hmem with rfl | ⟨hmem, -⟩
    · rw [hother] at hmade
      cases hmade
    · obtain ⟨plan, revision, hdispatched⟩ := h.tasks other hmem hmade
      exact ⟨plan, revision, hdispatched.mono rfl fun _ hmem => hmem⟩

/-- Whatever is edited, confirmed or sent, every task stays one that the user has
confirmed. -/
theorem safe_step {label : DispatchLabel} {d' : Dispatches} (h : Safe d)
    (hs : d.step config label = some d') : Safe d' := by
  cases label with
  | otherTask task =>
    simp only [Dispatches.step] at hs
    split at hs
    · rename_i hother
      cases hs
      simp only [Bool.and_eq_true, Bool.not_eq_true'] at hother
      exact safe_putOther h hother.2
    · cases hs
  | olderLiveDraft input sourceBoundary transcriptTimestampMs planId taskMode =>
    simp only [Dispatches.step] at hs
    split at hs
    · cases hs
    · obtain ⟨s', hupdate, rfl⟩ := map_eq_some_iff.mp hs
      exact safe_replanActive (safe_updateLiveDraft h hupdate) planId taskMode
  | draft label =>
    cases label with
    | sendDraft taskId draftSessionId draftRevisionId => cases hs
    | finishRewrite rewriteId draft ids handled taskMode =>
      simp only [Dispatches.step] at hs
      split at hs
      · cases hs
      · rename_i hfresh
        obtain ⟨rewrite, hrewrite, hs⟩ := bind_eq_some_iff.mp hs
        obtain ⟨s', hfinish, rfl⟩ := map_eq_some_iff.mp hs
        exact safe_finishRewrite h (by simpa using hfresh) hrewrite hfinish
    | confirmActiveDispatch taskId newPlanId planId draftRevisionId =>
      obtain ⟨s', hconfirm, rfl⟩ := map_eq_some_iff.mp hs
      exact safe_confirmActiveDispatch h hconfirm
    | appendAsrTurn input =>
      obtain ⟨s', hnext, rfl⟩ := map_eq_some_iff.mp hs
      exact safe_appendAsrTurn h hnext
    | updateLiveDraft input sourceBoundary transcriptTimestampMs =>
      obtain ⟨s', hnext, rfl⟩ := map_eq_some_iff.mp hs
      exact safe_updateLiveDraft h hnext
    | failRewrite rewriteId =>
      obtain ⟨s', hnext, rfl⟩ := map_eq_some_iff.mp hs
      simp only [State.step, State.failRewrite] at hnext
      split at hnext
      · cases hnext
        exact h.sessions (SessionsKept.same h.filed rfl) (fun _ hmem => hmem) rfl
      · cases hnext
    | markLiveCheckpoint sourceBoundary transcriptTimestampMs snapshotId =>
      cases hs
      exact h.sessions (SessionsKept.markLiveCheckpoint h.filed _ _ _) (fun _ hmem => hmem) rfl
    | clear =>
      cases hs
      exact h.sessions (SessionsKept.clear h.filed) (fun _ hmem => hmem) rfl
    | prepareTask taskId nodes =>
      obtain ⟨s', hnext, rfl⟩ := map_eq_some_iff.mp hs
      exact safe_prepareTask h hnext
    | finishSend taskId =>
      obtain ⟨s', hnext, rfl⟩ := map_eq_some_iff.mp hs
      exact safe_finishSend h hnext
    | putPersona persona =>
      cases hs
      exact h.sessions (SessionsKept.same h.filed rfl) (fun _ hmem => hmem) rfl

end steps

theorem safe_inductive (config : SessionConfig) : (dispatchSystem config).Inductive Safe where
  initially := by
    rintro d rfl
    exact ⟨fun _ hmem => (by cases hmem), fun _ hmem => (by cases hmem),
      fun _ hmem => (by cases hmem)⟩
  preserved _ _ _ h hs := safe_step h hs

/-- Every task that is made of a draft was sent with a plan that the user had confirmed and
the gate had let through; it carries the revision of that plan, and the words of that
revision. -/
theorem tasks_are_confirmed (config : SessionConfig) {d : Dispatches}
    (h : (dispatchSystem config).Reachable d) {task : Task}
    (hmem : task ∈ d.drafts.board.tasks.entries)
    (hmade : madeOfDraft task = true) : ∃ plan revision, Dispatched d task plan revision :=
  ((safe_inductive config).of_reachable h).tasks task hmem hmade

def testsDraft : Draft :=
  { text := "Review the tests as well."
    taskSpec := some (formulateTaskSpec "Review the tests as well." "codex") }

/-- The draft is edited while the executor of the first send is looked up; what is sent then is
the edited draft, once the user has confirmed that too. -/
def editedMeanwhileRun : List DispatchLabel :=
  [.draft (.appendAsrTurn (turnInput "rewrite-1" "draft-1" "asr-1")),
    .draft (.finishRewrite "rewrite-1" reviewDraft ⟨"rev-1", "snap-1", "plan-1"⟩ true none),
    .draft (.appendAsrTurn (turnInput "rewrite-2" "draft-2" "asr-2")),
    .draft (.confirmActiveDispatch "task-1" "plan-2" none none),
    .draft (.finishRewrite "rewrite-2" testsDraft ⟨"rev-2", "snap-2", "plan-3"⟩ true none),
    .draft (.prepareTask "task-1" []),
    .draft (.finishSend "task-1"),
    .draft (.confirmActiveDispatch "task-2" "plan-4" (some "plan-3") (some "rev-2")),
    .draft (.prepareTask "task-2" []),
    .draft (.finishSend "task-2")]

theorem edited_task_is_confirmed :
    let d := (dispatchSystem codexSession).target ⟨emptyState, Table.empty, Table.empty⟩
      editedMeanwhileRun
    ∃ task ∈ d.drafts.board.tasks.entries, task.taskId = "task-2" ∧
      ∃ plan revision, Dispatched d task plan revision := by
  intro d
  have hsent : ∃ task ∈ d.drafts.board.tasks.entries, task.taskId = "task-2" ∧
      madeOfDraft task = true := by
    decide +kernel
  obtain ⟨task, hmem, hid, hmade⟩ := hsent
  exact ⟨task, hmem, hid,
    tasks_are_confirmed codexSession (System.Reachable.target rfl editedMeanwhileRun) hmem hmade⟩

end Newbro.Drafts
