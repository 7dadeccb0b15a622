import Newbro.LiveTranscripts

/-!
# What a late draft may replace

A draft of an older message is not to replace one of a newer message, and the timestamp of a
draft session is not to go back. The handlers test the generation before the rewriter is asked
and the timestamp when it is asked, but neither when the draft comes back.
-/
namespace Newbro.Drafts

open Library Protocol Option Table

/-! ## The property and the condition -/

namespace LiveState

def session? (s : LiveState) (draftSessionId : String) : Option DraftSession :=
  s.drafts.manager.sessions.get? draftSessionId

/-- The message that the current revision of a draft session came from. -/
def producerOf (s : LiveState) (session : DraftSession) : Option Nat :=
  session.currentRevisionId.bind s.producers.lookup

end LiveState

/-- A draft session before and after a step. -/
structure NotOlder (s s' : LiveState) (session session' : DraftSession) : Prop where
  generation : ∀ g g', s.producerOf session = some g → s'.producerOf session' = some g' → g ≤ g'
  timestamp : ∀ t, session.liveTranscriptTimestampMs = some t →
    ∃ t', session'.liveTranscriptTimestampMs = some t' ∧ t ≤ t'

/-- No draft session goes back to the draft of an older message or to an older timestamp. -/
def StaysFresh (s s' : LiveState) : Prop :=
  ∀ draftSessionId session, s.session? draftSessionId = some session →
    ∃ session', s'.session? draftSessionId = some session' ∧ NotOlder s s' session session'

def TranscriptsStayFresh (config : LiveConfig) (labels : List LiveLabel) : Prop :=
  (liveSystem config).Along (fun s label => ∀ s', s.step config label = some s' → StaysFresh s s')
    noTranscripts labels

/-- The timestamp that a call of the rewriter was begun with. -/
def RewriteKind.timestampMs : RewriteKind → Option Int
  | appendAsrTurn => none
  | updateLiveDraft _ transcriptTimestampMs => transcriptTimestampMs

/-- The two tests made once more: when a draft comes back, and when a final is a checkpoint. A
partial need not be tested for its generation. -/
def stillFresh (s : LiveState) : LiveLabel → Bool
  | .rewritten generation _ _ =>
    (s.works.get? generation).all fun work =>
      (work.rewriteId.bind s.drafts.rewrites.get?).all fun rewrite =>
        (s.session? rewrite.draftSessionId).all fun session =>
          (work.sourceBoundary = .sttPartial || (s.producerOf session).all (· ≤ generation)) &&
            !session.newerThan rewrite.kind.timestampMs
  | .sttFinal text timestampMs _ _ =>
    !s.matchesLiveDraft text ||
      s.drafts.manager.activeSession.all fun session => !session.newerThan timestampMs
  | _ => true

/-! ## Steps that leave every revision and timestamp as it is -/

def DraftsStay (m m' : DraftSessionManager) : Prop :=
  ∀ draftSessionId session, m.sessions.get? draftSessionId = some session →
    ∃ session', m'.sessions.get? draftSessionId = some session' ∧
      session'.currentRevisionId = session.currentRevisionId ∧
      session'.liveTranscriptTimestampMs = session.liveTranscriptTimestampMs

namespace DraftsStay

variable {m m' m'' : DraftSessionManager}

theorem same (h : m'.sessions = m.sessions) : DraftsStay m m' := by
  intro draftSessionId session hget
  rw [h]
  exact ⟨session, hget, rfl, rfl⟩

theorem trans (h : DraftsStay m m') (h' : DraftsStay m' m'') : DraftsStay m m'' := by
  intro draftSessionId session hget
  obtain ⟨session', hget', hrevision, htimestamp⟩ := h draftSessionId session hget
  obtain ⟨session'', hget'', hrevision', htimestamp'⟩ := h' draftSessionId session' hget'
  exact ⟨session'', hget'', hrevision'.trans hrevision, htimestamp'.trans htimestamp⟩

theorem put {session' : DraftSession} {active : Option String}
    (h : ∀ session, m.sessions.get? session'.id = some session →
      session'.currentRevisionId = session.currentRevisionId ∧
      session'.liveTranscriptTimestampMs = session.liveTranscriptTimestampMs) :
    DraftsStay m ⟨m.sessions.put session', active⟩ := by
  intro draftSessionId session hget
  by_cases hid : session'.id = draftSessionId
  · subst hid
    exact ⟨session', Table.get?_put_self m.sessions session', h session hget⟩
  · exact ⟨session, (Table.get?_put_of_ne m.sessions hid).trans hget, rfl, rfl⟩

theorem putActive {session session' : DraftSession} {active : Option String}
    (hactive : m.activeSession = some session) (hid : session'.id = session.id)
    (hrevision : session'.currentRevisionId = session.currentRevisionId)
    (htimestamp : session'.liveTranscriptTimestampMs = session.liveTranscriptTimestampMs) :
    DraftsStay m ⟨m.sessions.put session', active⟩ := by
  apply put
  intro current hget
  rw [hid, (DraftSessionManager.activeSession_spec hactive).2] at hget
  cases hget
  exact ⟨hrevision, htimestamp⟩

theorem sessionForTurn {newId : String} (hfresh : m.sessions.contains newId = false)
    (assignedBroId : Option String) :
    DraftsStay m { m with sessions := m.sessions.put (m.sessionForTurn newId assignedBroId) } := by
  unfold DraftSessionManager.sessionForTurn
  cases hactive : m.activeSession.filter fun session => !session.status.closed with
  | none =>
    apply put
    intro session hget
    have hnone : m.sessions.get? newId = none := by simpa [Table.contains] using hfresh
    rw [hnone] at hget
    cases hget
  | some session => exact putActive (filter_eq_some_iff.mp hactive).1 rfl rfl rfl

theorem clear : DraftsStay m m.clear := by
  unfold DraftSessionManager.clear
  split
  · exact same rfl
  · rename_i session hactive
    exact putActive hactive rfl rfl rfl

end DraftsStay

theorem replan_timestamp (session : DraftSession) (runtimeSessionId planId : String)
    (taskMode : Option TaskMode) :
    (session.replan runtimeSessionId planId taskMode).liveTranscriptTimestampMs =
      session.liveTranscriptTimestampMs := by
  unfold DraftSession.replan
  split <;> rfl

variable {input : TurnInput}

section drafts

variable {config : SessionConfig} {s s' : State}

theorem draftsStay_replanActive (planId : String) (taskMode : Option TaskMode) :
    DraftsStay s.manager (s.replanActive config planId taskMode).manager := by
  unfold State.replanActive
  split
  · exact DraftsStay.same rfl
  · rename_i session hactive
    exact DraftsStay.putActive hactive (DraftSession.replan_id _ _ _ _)
      (replan_revisionId _ _ _) (replan_timestamp _ _ _ _)

theorem draftsStay_beginRewrite (hfresh : s.freshTurn input = true)
    (kind : RewriteKind) : DraftsStay s.manager (s.beginRewrite input kind).manager := by
  simp only [State.freshTurn, Bool.and_eq_true, Bool.not_eq_true'] at hfresh
  exact DraftsStay.sessionForTurn hfresh.2 _

theorem draftsStay_appendAsrTurn (hs : s.appendAsrTurn input = some s') :
    DraftsStay s.manager s'.manager := by
  unfold State.appendAsrTurn at hs
  split at hs
  · cases hs
  · rename_i hfresh
    split at hs
    · cases hs
      exact DraftsStay.same rfl
    · cases hs
      exact draftsStay_beginRewrite (by simpa using hfresh) _

theorem draftsStay_updateLiveDraft {sourceBoundary : String} {transcriptTimestampMs : Option Int}
    (hs : s.updateLiveDraft input sourceBoundary transcriptTimestampMs = some s') :
    DraftsStay s.manager s'.manager := by
  unfold State.updateLiveDraft at hs
  split at hs
  · cases hs
  · rename_i hfresh
    have hstay := draftsStay_beginRewrite (by simpa using hfresh)
      (.updateLiveDraft sourceBoundary transcriptTimestampMs)
    split at hs
    · cases hs
      exact DraftsStay.same rfl
    · simp only at hs
      split at hs
      · cases hs
        exact hstay
      · cases hs
        exact hstay

theorem draftsStay_confirmActiveDispatch {taskId newPlanId : String}
    {planId draftRevisionId : Option String}
    (hs : s.confirmActiveDispatch config taskId newPlanId planId draftRevisionId = some s') :
    DraftsStay s.manager s'.manager := by
  obtain ⟨-, hconfirms⟩ := confirmActiveDispatch_spec hs
  cases hconfirms with
  | nothing hsame =>
    rw [hsame]
    exact DraftsStay.same rfl
  | plan session draft plan hactive hdraft hplanned hnext =>
    have hput : DraftsStay s.manager
        (s.putPlan session { plan with userConfirmed := true }).manager :=
      DraftsStay.putActive hactive rfl rfl rfl
    rcases hnext with rfl | ⟨-, hbegin⟩
    · exact hput
    · obtain ⟨send, rfl, -⟩ := beginSend_ok hbegin
      exact hput

theorem draftsStay_finishSend {taskId : String} (hs : s.finishSend taskId = some s') :
    DraftsStay s.manager s'.manager := by
  obtain ⟨send, hsend, hs⟩ := bind_eq_some_iff.mp hs
  obtain ⟨task, htask, hs⟩ := map_eq_some_iff.mp hs
  simp only at hs
  split at hs
  · cases hs
    exact DraftsStay.same rfl
  · rename_i manager hmark
    cases hs
    obtain ⟨session, draft, hready, rfl⟩ := DraftSessionManager.markSent_ok hmark
    exact DraftsStay.putActive hready.active rfl rfl rfl

end drafts

/-- The labels that give a draft session another revision or another timestamp. -/
def DispatchLabel.revises : DispatchLabel → Bool
  | .draft (.finishRewrite _ _ _ _ _) | .draft (.markLiveCheckpoint _ _ _) => true
  | _ => false

variable {config : SessionConfig} {d d' : Dispatches} {label : DispatchLabel}

theorem draftsStay_step (hs : d.step config label = some d') (hlabel : label.revises = false) :
    DraftsStay d.drafts.manager d'.drafts.manager := by
  cases label with
  | otherTask task =>
    simp only [Dispatches.step] at hs
    split at hs
    · cases hs
      exact DraftsStay.same rfl
    · cases hs
  | olderLiveDraft input sourceBoundary transcriptTimestampMs planId taskMode =>
    simp only [Dispatches.step] at hs
    split at hs
    · cases hs
    · obtain ⟨s', hupdate, rfl⟩ := map_eq_some_iff.mp hs
      exact (draftsStay_updateLiveDraft hupdate).trans (draftsStay_replanActive planId taskMode)
  | draft label =>
    cases label with
    | finishRewrite rewriteId draft ids handled taskMode => cases hlabel
    | markLiveCheckpoint sourceBoundary transcriptTimestampMs snapshotId => cases hlabel
    | sendDraft taskId draftSessionId draftRevisionId => cases hs
    | confirmActiveDispatch taskId newPlanId planId draftRevisionId =>
      obtain ⟨s', hconfirm, rfl⟩ := map_eq_some_iff.mp hs
      exact draftsStay_confirmActiveDispatch hconfirm
    | appendAsrTurn input =>
      obtain ⟨s', hnext, rfl⟩ := map_eq_some_iff.mp hs
      exact draftsStay_appendAsrTurn hnext
    | updateLiveDraft input sourceBoundary transcriptTimestampMs =>
      obtain ⟨s', hnext, rfl⟩ := map_eq_some_iff.mp hs
      exact draftsStay_updateLiveDraft hnext
    | failRewrite rewriteId =>
      obtain ⟨s', hnext, rfl⟩ := map_eq_some_iff.mp hs
      simp only [State.step, State.failRewrite] at hnext
      split at hnext
      · cases hnext
        exact DraftsStay.same rfl
      · cases hnext
    | clear =>
      cases hs
      exact DraftsStay.clear
    | prepareTask taskId nodes =>
      obtain ⟨s', hnext, rfl⟩ := map_eq_some_iff.mp hs
      obtain ⟨send, hsend, hnext⟩ := bind_eq_some_iff.mp hnext
      obtain ⟨session, hsession, rfl⟩ := map_eq_some_iff.mp hnext
      exact DraftsStay.same rfl
    | finishSend taskId =>
      obtain ⟨s', hnext, rfl⟩ := map_eq_some_iff.mp hs
      exact draftsStay_finishSend hnext
    | putPersona persona =>
      cases hs
      exact DraftsStay.same rfl

/-! ## Steps that revise -/

/-- A draft that comes back: the session that it was asked for has the new revision, and the
timestamp that the rewriter was asked with, if any. -/
structure Returned (d d' : Dispatches) (rewriteId revisionId : String) (rewrite : Rewrite)
    (session session' : DraftSession) : Prop where
  unused : d.revisions.contains revisionId = false
  asked : d.drafts.rewrites.get? rewriteId = some rewrite
  kept : d.drafts.manager.sessions.get? rewrite.draftSessionId = some session
  id : session'.id = session.id
  revision : session'.currentRevisionId = some revisionId
  timestamp : session'.liveTranscriptTimestampMs =
    rewrite.kind.timestampMs.or session.liveTranscriptTimestampMs
  installed : d'.drafts.manager = d.drafts.manager.installRevision session'
  filed : d'.revisions.contains revisionId = true

theorem revised_timestamp (session : DraftSession) (rewrite : Rewrite) (draft : Draft)
    (ids : RevisionIds) : (State.revised session rewrite draft ids).liveTranscriptTimestampMs =
      rewrite.kind.timestampMs.or session.liveTranscriptTimestampMs := by
  unfold State.revised
  cases rewrite.kind with
  | appendAsrTurn | updateLiveDraft => rfl

variable {draft : Draft} {ids : RevisionIds} {taskMode : Option TaskMode}

theorem finishRewrite_returned {rewriteId : String} {handled : Bool}
    (hs : d.step config (.draft (.finishRewrite rewriteId draft ids handled taskMode)) =
      some d') : ∃ rewrite session session',
      Returned d d' rewriteId ids.revisionId rewrite session session' := by
  simp only [Dispatches.step] at hs
  split at hs
  · cases hs
  · rename_i hunused
    obtain ⟨rewrite, hrewrite, hs⟩ := bind_eq_some_iff.mp hs
    obtain ⟨s', hfinish, rfl⟩ := map_eq_some_iff.mp hs
    simp only [State.finishRewrite, hrewrite, bind_some] at hfinish
    obtain ⟨session, hsession, rfl⟩ := map_eq_some_iff.mp hfinish
    have hfiled : (d.revisions.put ⟨ids.revisionId, rewrite.draftSessionId, draft⟩).contains
        ids.revisionId = true := by
      unfold Table.contains
      rw [Table.get?_put_self d.revisions ⟨ids.revisionId, rewrite.draftSessionId, draft⟩]
      rfl
    refine ⟨rewrite, session, _, by simpa using hunused, hrewrite, hsession, ?_, ?_, ?_, rfl,
      hfiled⟩
    · split <;> simp
    · split
      · rw [replan_revisionId, revised_revisionId]
      · rw [revised_revisionId]
    · split
      · rw [replan_timestamp, revised_timestamp]
      · rw [revised_timestamp]

variable {revisionId : String}

/-- Revisions stay filed. -/
theorem revisions_step (hs : d.step config label = some d')
    (h : d.revisions.contains revisionId = true) : d'.revisions.contains revisionId = true := by
  cases label with
  | otherTask task =>
    simp only [Dispatches.step] at hs
    split at hs
    · cases hs
      exact h
    · cases hs
  | olderLiveDraft input sourceBoundary transcriptTimestampMs planId taskMode =>
    simp only [Dispatches.step] at hs
    split at hs
    · cases hs
    · obtain ⟨s', -, rfl⟩ := map_eq_some_iff.mp hs
      exact h
  | draft label =>
    cases label with
    | finishRewrite rewriteId draft ids handled taskMode =>
      simp only [Dispatches.step] at hs
      split at hs
      · cases hs
      · obtain ⟨rewrite, -, hs⟩ := bind_eq_some_iff.mp hs
        obtain ⟨s', -, rfl⟩ := map_eq_some_iff.mp hs
        exact isSome_get?_put d.revisions _ h
    | sendDraft taskId draftSessionId draftRevisionId => cases hs
    | markLiveCheckpoint _ _ _ | clear | putPersona _ =>
      cases hs
      exact h
    | _ =>
      obtain ⟨s', -, rfl⟩ := map_eq_some_iff.mp hs
      exact h

/-! ## Which messages are still under way -/

/-- A partial that is still under way is the latest message, and every revision came from a
message that there was. -/
structure LiveSound (s : LiveState) : Prop where
  safe : Safe s.dispatches
  produced : ∀ revisionId generation, s.producers.lookup revisionId = some generation →
    s.dispatches.revisions.contains revisionId = true ∧ generation ≤ s.liveGeneration
  works : ∀ work ∈ s.works.entries, work.generation ≤ s.liveGeneration
  partials : ∀ work ∈ s.works.entries, work.sourceBoundary = .sttPartial →
    work.generation = s.liveGeneration ∧ s.livePartial = some work.generation

variable {s' : LiveState} {generation : Nat}

variable (text : String) (timestampMs : Option Int) (assignedBroId : Option String)

section live

variable {config : LiveConfig} {s : LiveState}

theorem LiveSound.dispatch (h : LiveSound s) (hsafe : Safe d)
    (hrevisions : ∀ revisionId, s.dispatches.revisions.contains revisionId = true →
      d.revisions.contains revisionId = true) : LiveSound { s with dispatches := d } where
  safe := hsafe
  produced := fun revisionId generation hlookup =>
    ⟨hrevisions revisionId (h.produced revisionId generation hlookup).1,
      (h.produced revisionId generation hlookup).2⟩
  works := h.works
  partials := h.partials

theorem LiveSound.endWork (h : LiveSound s) (work : LiveTranscriptWork) :
    LiveSound (s.endWork work s.dispatches) where
  safe := h.safe
  produced := h.produced
  works := fun other hmem => h.works other (mem_erase.mp hmem).1
  partials := by
    intro other hmem hpartial
    obtain ⟨hmem, hne⟩ := mem_erase.mp hmem
    obtain ⟨hlatest, hcurrent⟩ := h.partials other hmem hpartial
    refine ⟨hlatest, ?_⟩
    simp only [LiveState.endWork, hcurrent]
    exact filter_eq_some_iff.mpr ⟨rfl, by simpa using hne⟩

theorem LiveSound.step (h : LiveSound s)
    (hs : s.dispatches.step config.session label = some d) :
    LiveSound { s with dispatches := d } :=
  h.dispatch (safe_step h.safe hs) fun _ => revisions_step hs

@[simp] theorem cancel_liveGeneration :
    s.cancelLivePartialTask.liveGeneration = s.liveGeneration := by
  unfold LiveState.cancelLivePartialTask
  split
  · rfl
  · split <;> rfl

@[simp] theorem cancel_producers : s.cancelLivePartialTask.producers = s.producers := by
  unfold LiveState.cancelLivePartialTask
  split
  · rfl
  · split <;> rfl

@[simp] theorem cancel_manager : s.cancelLivePartialTask.drafts.manager = s.drafts.manager := by
  unfold LiveState.cancelLivePartialTask
  split
  · rfl
  · split <;> rfl

@[simp] theorem cancel_published :
    s.cancelLivePartialTask.latestPublishedLiveText = s.latestPublishedLiveText := by
  unfold LiveState.cancelLivePartialTask
  split
  · rfl
  · split <;> rfl

section

variable (h : LiveSound s)
include h

theorem LiveSound.cancel : LiveSound s.cancelLivePartialTask := by
  unfold LiveState.cancelLivePartialTask
  split
  · exact h
  · rename_i work hwork
    split
    · exact h.endWork work
    · have hkept : SessionsKept s.dispatches.revisions s.dispatches.revisions s.drafts.manager
          s.drafts.manager := SessionsKept.same h.safe.filed rfl
      exact (h.endWork work).dispatch (h.safe.sessions hkept (fun _ hmem => hmem) rfl)
        fun _ => id

/-- After the cancellation no partial is under way. -/
theorem LiveSound.cancel_finals :
    ∀ work ∈ s.cancelLivePartialTask.works.entries, work.sourceBoundary ≠ .sttPartial := by
  have hnone : ∀ other, s.livePartial.bind s.works.get? = none →
      other ∈ s.works.entries → other.sourceBoundary ≠ .sttPartial := by
    intro other hnone hmem hpartial
    rw [(h.partials other hmem hpartial).2, bind_some, Table.get?_of_mem hmem] at hnone
    cases hnone
  have hsome : ∀ work other, s.livePartial.bind s.works.get? = some work →
      other ∈ (s.works.erase work.generation).entries → other.sourceBoundary ≠ .sttPartial := by
    intro work other hwork hmem hpartial
    obtain ⟨hmem, hne⟩ := mem_erase.mp hmem
    rw [(h.partials other hmem hpartial).2, bind_some, Table.get?_of_mem hmem] at hwork
    cases hwork
    exact hne rfl
  unfold LiveState.cancelLivePartialTask
  intro other hmem
  split at hmem
  · exact hnone other ‹_› hmem
  · rename_i work hwork
    split at hmem
    · exact hsome work other hwork hmem
    · exact hsome work other hwork hmem

theorem LiveSound.sttPartial
    :
    LiveSound (s.sttPartial config text timestampMs assignedBroId) := by
  unfold LiveState.sttPartial
  split
  · exact h
  · have hcancelled := h.cancel
    refine ⟨hcancelled.safe, ?_, ?_, ?_⟩
    · intro revisionId generation hlookup
      obtain ⟨hfiled, hle⟩ := hcancelled.produced revisionId generation hlookup
      rw [cancel_liveGeneration] at hle
      exact ⟨hfiled, Nat.le_succ_of_le hle⟩
    · intro work hmem
      rcases mem_put.mp hmem with rfl | ⟨hmem, -⟩
      · exact Nat.le_refl _
      · have hle := hcancelled.works work hmem
        rw [cancel_liveGeneration] at hle
        exact Nat.le_succ_of_le hle
    · intro work hmem hpartial
      rcases mem_put.mp hmem with rfl | ⟨hmem, -⟩
      · exact ⟨rfl, rfl⟩
      · exact absurd hpartial (h.cancel_finals work hmem)

theorem LiveSound.sttFinal
    (snapshotId : String) :
    LiveSound (s.sttFinal text timestampMs assignedBroId snapshotId) := by
  have hcancelled := h.cancel
  have hproduced : ∀ revisionId generation,
      s.cancelLivePartialTask.producers.lookup revisionId = some generation →
      s.cancelLivePartialTask.dispatches.revisions.contains revisionId = true ∧
        generation ≤ s.liveGeneration + 1 := by
    intro revisionId generation hlookup
    obtain ⟨hfiled, hle⟩ := hcancelled.produced revisionId generation hlookup
    rw [cancel_liveGeneration] at hle
    exact ⟨hfiled, Nat.le_succ_of_le hle⟩
  have hworks : ∀ work ∈ s.cancelLivePartialTask.works.entries,
      work.generation ≤ s.liveGeneration + 1 := by
    intro work hmem
    have hle := hcancelled.works work hmem
    rw [cancel_liveGeneration] at hle
    exact Nat.le_succ_of_le hle
  unfold LiveState.sttFinal
  simp only [LiveState.nextLiveWork, cancel_liveGeneration]
  split
  · refine ⟨?_, hproduced, hworks, fun work hmem hpartial =>
      absurd hpartial (h.cancel_finals work hmem)⟩
    exact hcancelled.safe.sessions
      (SessionsKept.markLiveCheckpoint hcancelled.safe.filed _ _ _) (fun _ hmem => hmem) rfl
  · refine ⟨hcancelled.safe, hproduced, ?_, ?_⟩
    · intro work hmem
      rcases mem_put.mp hmem with rfl | ⟨hmem, -⟩
      · exact Nat.le_refl _
      · exact hworks work hmem
    · intro work hmem hpartial
      rcases mem_put.mp hmem with rfl | ⟨hmem, -⟩
      · cases hpartial
      · exact absurd hpartial (h.cancel_finals work hmem)

theorem LiveSound.ends
    (work : LiveTranscriptWork) (hs : s.dispatches.step config.session label = some d) :
    LiveSound (s.endWork work d) :=
  (h.step hs).endWork work

theorem LiveSound.updateLiveTranscriptDraft {work : LiveTranscriptWork}
    {ids : LiveIds} (hwork : work ∈ s.works.entries)
    (hs : s.updateLiveTranscriptDraft config work taskMode ids = some s') : LiveSound s' := by
  simp only [LiveState.updateLiveTranscriptDraft] at hs
  split at hs
  · cases hs
    exact h.endWork work
  · split at hs
    · obtain ⟨d, hstep, rfl⟩ := map_eq_some_iff.mp hs
      have hends := h.ends work hstep
      exact ⟨hends.safe, hends.produced, hends.works, hends.partials⟩
    · obtain ⟨d, hstep, rfl⟩ := map_eq_some_iff.mp hs
      have hnext := h.step hstep
      refine ⟨hnext.safe, hnext.produced, ?_, ?_⟩
      · intro other hmem
        rcases mem_put.mp hmem with rfl | ⟨hmem, -⟩
        · exact h.works work hwork
        · exact h.works other hmem
      · intro other hmem hpartial
        rcases mem_put.mp hmem with rfl | ⟨hmem, -⟩
        · exact h.partials work hwork hpartial
        · exact h.partials other hmem hpartial

theorem LiveSound.classified {classification : InteractionClassification} {ids : LiveIds}
    (hs : s.classified config generation classification ids = some s') : LiveSound s' := by
  obtain ⟨work, hwork, hs⟩ := bind_eq_some_iff.mp hs
  have hmem := mem_of_get? (filter_eq_some_iff.mp hwork).1
  simp only at hs
  split at hs
  · cases hs
    exact h.endWork work
  · split at hs
    · cases hs
      exact h.endWork work
    · split at hs
      · obtain ⟨d, hstep, rfl⟩ := map_eq_some_iff.mp hs
        exact h.ends work hstep
      · split at hs
        · obtain ⟨d, hstep, rfl⟩ := map_eq_some_iff.mp hs
          exact h.ends work hstep
        · split at hs
          · cases hs
            exact h.endWork work
          · split at hs
            · cases hs
              exact h.endWork work
            · exact h.updateLiveTranscriptDraft hmem hs

theorem LiveSound.rewritten
    (hs : s.rewritten config generation draft ids = some s') : LiveSound s' := by
  obtain ⟨work, hwork, hs⟩ := bind_eq_some_iff.mp hs
  obtain ⟨rewriteId, -, hs⟩ := bind_eq_some_iff.mp hs
  obtain ⟨d, hstep, rfl⟩ := map_eq_some_iff.mp hs
  obtain ⟨rewrite, session, session', hreturned⟩ := finishRewrite_returned hstep
  have hends := h.ends work hstep
  refine ⟨hends.safe, ?_, hends.works, hends.partials⟩
  intro revisionId producer hlookup
  rw [Dict.lookup_set] at hlookup
  split at hlookup
  · rename_i hsame
    cases hlookup
    rw [← hsame]
    exact ⟨hreturned.filed, h.works work (mem_of_get? hwork)⟩
  · exact hends.produced revisionId producer hlookup

theorem liveSound_step {label : LiveLabel} (hs : s.step config label = some s') : LiveSound s' := by
  cases label with
  | sttPartial text timestampMs assignedBroId =>
    cases hs
    exact h.sttPartial text timestampMs assignedBroId
  | sttFinal text timestampMs assignedBroId snapshotId =>
    cases hs
    exact h.sttFinal text timestampMs assignedBroId snapshotId
  | classified generation classification ids => exact h.classified hs
  | rewritten generation draft ids => exact h.rewritten hs
  | fails generation =>
    obtain ⟨work, hwork, hs⟩ := bind_eq_some_iff.mp hs
    split at hs
    · cases hs
      exact h.endWork work
    · obtain ⟨d, hstep, rfl⟩ := map_eq_some_iff.mp hs
      exact h.ends work hstep
  | other label =>
    simp only [LiveState.step] at hs
    split at hs
    · obtain ⟨d, hstep, rfl⟩ := map_eq_some_iff.mp hs
      exact h.step hstep
    · cases hs

end

end live

theorem liveSound_inductive (config : LiveConfig) : (liveSystem config).Inductive LiveSound where
  initially := by
    rintro s rfl
    exact ⟨(safe_inductive config.session).initially _ rfl, fun _ _ hnone => (by cases hnone),
      fun _ hmem => (by cases hmem), fun _ hmem => (by cases hmem)⟩
  preserved _ _ _ h hs := liveSound_step h hs

/-! ## One step -/

variable {session : DraftSession}

section steps

variable {config : LiveConfig} {s s' : LiveState}

theorem staysFresh_of_draftsStay (hstay : DraftsStay s.drafts.manager s'.drafts.manager)
    (hproducers : s'.producers = s.producers) : StaysFresh s s' := by
  intro draftSessionId session hget
  obtain ⟨session', hget', hrevision, htimestamp⟩ := hstay draftSessionId session hget
  refine ⟨session', hget', ?_, ?_⟩
  · intro g g' hold hnew
    simp only [LiveState.producerOf, hrevision, hproducers] at hold hnew
    rw [hold] at hnew
    cases hnew
    exact Nat.le_refl g
  · intro t ht
    exact ⟨t, htimestamp.trans ht, Int.le_refl t⟩

/-- When one session is written and the others keep what their revisions came from, that
session decides. -/
theorem staysFresh_put_iff {session' : DraftSession} (hget : s.session? session'.id = some session)
    (hput : s'.drafts.manager.sessions = s.drafts.manager.sessions.put session')
    (hothers : ∀ other ∈ s.drafts.manager.sessions.entries,
      s'.producerOf other = s.producerOf other) :
    StaysFresh s s' ↔ NotOlder s s' session session' := by
  have hself : s'.session? session'.id = some session' := by
    simp only [LiveState.session?, hput]
    exact Table.get?_put_self s.drafts.manager.sessions session'
  constructor
  · intro hfresh
    obtain ⟨now, hnow, hkept⟩ := hfresh session'.id session hget
    rw [hself] at hnow
    cases hnow
    exact hkept
  · intro hkept draftSessionId other hother
    by_cases hid : session'.id = draftSessionId
    · subst hid
      rw [hget] at hother
      cases hother
      exact ⟨session', hself, hkept⟩
    · refine ⟨other, ?_, ?_, fun t ht => ⟨t, ht, Int.le_refl t⟩⟩
      · simp only [LiveState.session?, hput]
        exact (Table.get?_put_of_ne s.drafts.manager.sessions hid).trans hother
      · intro g g' hold hnew
        rw [hothers other (mem_of_get? hother), hold] at hnew
        cases hnew
        exact Nat.le_refl g

/-- The timestamp that is written is not behind the one that was there, exactly if the test of
`update_live_draft` lets it through. -/
theorem timestamp_kept_iff (session : DraftSession) (timestampMs : Option Int) :
    (∀ t, session.liveTranscriptTimestampMs = some t →
      ∃ t', timestampMs.or session.liveTranscriptTimestampMs = some t' ∧ t ≤ t') ↔
      session.newerThan timestampMs = false := by
  unfold DraftSession.newerThan
  cases timestampMs with
  | none => exact iff_of_true (fun t ht => ⟨t, ht, Int.le_refl t⟩) rfl
  | some timestamp =>
    cases session.liveTranscriptTimestampMs with
    | none => simp
    | some current => simp

theorem producerOf_set {other : DraftSession} (generation : Nat)
    (h : Safe s.dispatches) (hunused : s.dispatches.revisions.contains revisionId = false)
    (hmem : other ∈ s.drafts.manager.sessions.entries) :
    (other.currentRevisionId.bind (Dict.set s.producers revisionId generation).lookup) =
      s.producerOf other := by
  unfold LiveState.producerOf
  cases hcurrent : other.currentRevisionId with
  | none => rfl
  | some current =>
    have hne : revisionId ≠ current := by
      rintro rfl
      have hfiled := (h.filed other hmem).revision revisionId hcurrent
      rw [hunused] at hfiled
      cases hfiled
    exact Dict.lookup_set_of_ne s.producers generation hne

theorem staysFresh_rewritten_iff
    (h : LiveSound s) (hs : s.rewritten config generation draft ids = some s') :
    StaysFresh s s' ↔ stillFresh s (.rewritten generation draft ids) = true := by
  obtain ⟨work, hwork, hs⟩ := bind_eq_some_iff.mp hs
  obtain ⟨rewriteId, hrewriteId, hs⟩ := bind_eq_some_iff.mp hs
  obtain ⟨d, hstep, hnext⟩ := map_eq_some_iff.mp hs
  obtain ⟨rewrite, session, session', hreturned⟩ := finishRewrite_returned hstep
  have hgeneration : work.generation = generation := key_of_get? hwork
  have hsessions : s'.drafts.manager.sessions = s.drafts.manager.sessions.put session' := by
    rw [← hnext]
    exact congrArg DraftSessionManager.sessions hreturned.installed
  have hproducers : s'.producers = Dict.set s.producers ids.revisionId generation := by
    rw [← hnext, hgeneration]
  have hid : session'.id = rewrite.draftSessionId :=
    hreturned.id.trans (key_of_get? hreturned.kept)
  have hget : s.session? session'.id = some session := by
    rw [hid]
    exact hreturned.kept
  have hothers : ∀ other ∈ s.drafts.manager.sessions.entries,
      s'.producerOf other = s.producerOf other := by
    intro other hmem
    rw [← producerOf_set generation h.safe hreturned.unused hmem, ← hproducers]
    rfl
  rw [staysFresh_put_iff hget hsessions hothers]
  have hcondition : stillFresh s (.rewritten generation draft ids) =
      ((work.sourceBoundary = .sttPartial || (s.producerOf session).all (· ≤ generation)) &&
        !session.newerThan rewrite.kind.timestampMs) := by
    have hasked : s.drafts.rewrites.get? rewriteId = some rewrite := hreturned.asked
    simp only [stillFresh, hwork, all_some, hrewriteId, bind_some, hasked]
    rw [← hid, hget, all_some]
  have hproducer : s'.producerOf session' = some generation := by
    unfold LiveState.producerOf
    rw [hreturned.revision, bind_some, hproducers, Dict.lookup_set_self]
  have htimestamp := timestamp_kept_iff session rewrite.kind.timestampMs
  rw [← hreturned.timestamp] at htimestamp
  rw [hcondition, Bool.and_eq_true, Bool.or_eq_true, Bool.not_eq_true', decide_eq_true_eq]
  constructor
  · intro hkept
    refine ⟨.inr ?_, htimestamp.mp hkept.timestamp⟩
    cases hold : s.producerOf session with
    | none => rfl
    | some g => exact decide_eq_true (hkept.generation g generation hold hproducer)
  · rintro ⟨hnewest, hnewer⟩
    refine ⟨?_, htimestamp.mpr hnewer⟩
    intro g g' hold hnew
    obtain rfl : generation = g' := some.inj (hproducer.symm.trans hnew)
    rcases hnewest with hpartial | hall
    · -- a partial that is still under way is the latest message
      obtain ⟨revisionId, -, hlookup⟩ := bind_eq_some_iff.mp hold
      have hpast := (h.produced revisionId g hlookup).2
      have hlatest := (h.partials work (mem_of_get? hwork) hpartial).1
      omega
    · rw [hold] at hall
      exact of_decide_eq_true hall

theorem matchesLiveDraft_cancel :
    s.cancelLivePartialTask.matchesLiveDraft text = s.matchesLiveDraft text := by
  simp only [LiveState.matchesLiveDraft, cancel_published, cancel_manager]

/-- A session that keeps its revision is decided by its timestamp. -/
theorem staysFresh_sameRevision_iff {session' : DraftSession} {timestampMs : Option Int}
    (hget : s.session? session'.id = some session)
    (hput : s'.drafts.manager.sessions = s.drafts.manager.sessions.put session')
    (hproducers : s'.producers = s.producers)
    (hrevision : session'.currentRevisionId = session.currentRevisionId)
    (htimestamp : session'.liveTranscriptTimestampMs =
      timestampMs.or session.liveTranscriptTimestampMs) :
    StaysFresh s s' ↔ session.newerThan timestampMs = false := by
  have hothers : ∀ other ∈ s.drafts.manager.sessions.entries,
      s'.producerOf other = s.producerOf other := by
    intro other _
    simp only [LiveState.producerOf, hproducers]
  rw [← timestamp_kept_iff, ← htimestamp, staysFresh_put_iff hget hput hothers]
  constructor
  · exact fun hkept => hkept.timestamp
  · refine fun hkept => ⟨fun g g' hold hnew => ?_, hkept⟩
    simp only [LiveState.producerOf, hproducers, hrevision] at hold hnew
    rw [hold] at hnew
    cases hnew
    exact Nat.le_refl g

theorem markLiveCheckpoint_active {m : DraftSessionManager}
    (hactive : m.activeSession = some session)
    (hdraft : session.currentDraft = some draft)
    (hrevision : session.currentRevisionId = some revisionId) (sourceBoundary : String)
    (transcriptTimestampMs : Option Int) (snapshotId : String) :
    m.markLiveCheckpoint sourceBoundary transcriptTimestampMs snapshotId =
      { m with sessions := m.sessions.put (session.liveCheckpoint draft revisionId sourceBoundary
        transcriptTimestampMs snapshotId) } := by
  simp only [DraftSessionManager.markLiveCheckpoint, hactive, hdraft, hrevision]

theorem staysFresh_sttFinal_iff
    (snapshotId : String) :
    StaysFresh s (s.sttFinal text timestampMs assignedBroId snapshotId) ↔
      stillFresh s (.sttFinal text timestampMs assignedBroId snapshotId) = true := by
  have hmatches : ∀ generation, ({ s.cancelLivePartialTask with liveGeneration := generation } :
      LiveState).matchesLiveDraft text = s.matchesLiveDraft text :=
    fun _ => matchesLiveDraft_cancel text
  unfold LiveState.sttFinal stillFresh
  simp only [hmatches]
  by_cases hreused : s.matchesLiveDraft text = true
  · have hdraft := hreused
    simp only [LiveState.matchesLiveDraft, Bool.and_eq_true] at hdraft
    obtain ⟨session, hactive, hready⟩ := (any_eq_true _ _).mp hdraft.2
    simp only [Bool.and_eq_true] at hready
    obtain ⟨draft, hcurrent⟩ := isSome_iff_exists.mp hready.1
    obtain ⟨revisionId, hrevision⟩ := isSome_iff_exists.mp hready.2
    obtain ⟨-, hget⟩ := DraftSessionManager.activeSession_spec hactive
    rw [← cancel_manager] at hactive
    have hput := markLiveCheckpoint_active hactive hcurrent hrevision
      SourceBoundary.sttFinal.value timestampMs snapshotId
    rw [cancel_manager] at hactive
    simp only [hreused, if_true, Bool.not_true, Bool.false_or, hactive, all_some, Bool.not_eq_true']
    let session' := session.liveCheckpoint draft revisionId SourceBoundary.sttFinal.value
      timestampMs snapshotId
    have hold : s.session? session'.id = some session := hget
    refine staysFresh_sameRevision_iff hold ?_ cancel_producers rfl rfl
    refine (congrArg DraftSessionManager.sessions hput).trans ?_
    rw [cancel_manager]
  · simp only [Bool.not_eq_true] at hreused
    simp only [hreused, Bool.not_false, Bool.true_or, iff_true]
    refine staysFresh_of_draftsStay ?_ ?_
    · exact DraftsStay.same (congrArg DraftSessionManager.sessions cancel_manager)
    · exact cancel_producers

theorem staysFresh_dispatch
    (hs : s.dispatches.step config.session label = some d) (hlabel : label.revises = false)
    (hdispatches : s'.dispatches = d) (hproducers : s'.producers = s.producers) :
    StaysFresh s s' := by
  have hstay := draftsStay_step hs hlabel
  rw [← hdispatches] at hstay
  exact staysFresh_of_draftsStay hstay hproducers

theorem staysFresh_endWork (work : LiveTranscriptWork) :
    StaysFresh s (s.endWork work s.dispatches) :=
  staysFresh_of_draftsStay (DraftsStay.same rfl) rfl

theorem staysFresh_updateLiveTranscriptDraft {work : LiveTranscriptWork} {ids : LiveIds}
    (hs : s.updateLiveTranscriptDraft config work taskMode ids = some s') : StaysFresh s s' := by
  simp only [LiveState.updateLiveTranscriptDraft] at hs
  split at hs
  · cases hs
    exact staysFresh_endWork work
  · split at hs
    · obtain ⟨d, hstep, rfl⟩ := map_eq_some_iff.mp hs
      exact staysFresh_dispatch hstep rfl rfl rfl
    · obtain ⟨d, hstep, rfl⟩ := map_eq_some_iff.mp hs
      exact staysFresh_dispatch hstep rfl rfl rfl

theorem staysFresh_classified {classification : InteractionClassification}
    {ids : LiveIds} (hs : s.classified config generation classification ids = some s') :
    StaysFresh s s' := by
  obtain ⟨work, -, hs⟩ := bind_eq_some_iff.mp hs
  simp only at hs
  split at hs
  · cases hs
    exact staysFresh_endWork work
  · split at hs
    · cases hs
      exact staysFresh_endWork work
    · split at hs
      · obtain ⟨d, hstep, rfl⟩ := map_eq_some_iff.mp hs
        exact staysFresh_dispatch hstep rfl rfl rfl
      · split at hs
        · obtain ⟨d, hstep, rfl⟩ := map_eq_some_iff.mp hs
          exact staysFresh_dispatch hstep rfl rfl rfl
        · split at hs
          · cases hs
            exact staysFresh_endWork work
          · split at hs
            · cases hs
              exact staysFresh_endWork work
            · exact staysFresh_updateLiveTranscriptDraft hs

/-- The draft of a spoken or typed turn has no live message that it came from, and leaves the
timestamp as it is. -/
theorem staysFresh_appendedTurn {rewriteId : String}
    {handled : Bool} (h : LiveSound s)
    (hstep : s.dispatches.step config.session
      (.draft (.finishRewrite rewriteId draft ids handled taskMode)) = some d)
    (hturn : (s.drafts.rewrites.get? rewriteId).all
      (fun rewrite => rewrite.kind = .appendAsrTurn) = true) :
    StaysFresh s { s with dispatches := d } := by
  obtain ⟨rewrite, session, session', hreturned⟩ := finishRewrite_returned hstep
  have hasked : s.drafts.rewrites.get? rewriteId = some rewrite := hreturned.asked
  have hkind : rewrite.kind = .appendAsrTurn := by
    rw [hasked] at hturn
    exact of_decide_eq_true hturn
  have hget : s.session? session'.id = some session := by
    rw [hreturned.id, key_of_get? hreturned.kept]
    exact hreturned.kept
  have hsessions : ({ s with dispatches := d } : LiveState).drafts.manager.sessions =
      s.drafts.manager.sessions.put session' :=
    congrArg DraftSessionManager.sessions hreturned.installed
  refine (staysFresh_put_iff hget hsessions fun _ _ => rfl).mpr ⟨?_, ?_⟩
  · intro g g' _ hnew
    obtain ⟨revisionId, hrevision, hlookup⟩ := bind_eq_some_iff.mp hnew
    rw [hreturned.revision] at hrevision
    cases hrevision
    have hfiled := (h.produced ids.revisionId g' hlookup).1
    rw [hreturned.unused] at hfiled
    cases hfiled
  · intro t ht
    refine ⟨t, ?_, Int.le_refl t⟩
    rw [hreturned.timestamp, hkind, ht]
    rfl

theorem staysFresh_other (h : LiveSound s)
    (hs : s.step config (.other label) = some s') : StaysFresh s s' := by
  simp only [LiveState.step] at hs
  split at hs
  · rename_i hlabel
    obtain ⟨d, hstep, rfl⟩ := map_eq_some_iff.mp hs
    cases label with
    | otherTask task => exact staysFresh_dispatch hstep rfl rfl rfl
    | olderLiveDraft input sourceBoundary transcriptTimestampMs planId taskMode => cases hlabel
    | draft label =>
      cases label with
      | finishRewrite rewriteId draft ids handled taskMode =>
        exact staysFresh_appendedTurn h hstep hlabel
      | markLiveCheckpoint sourceBoundary transcriptTimestampMs snapshotId => cases hlabel
      | _ => exact staysFresh_dispatch hstep rfl rfl rfl
  · cases hs

/-- A step keeps every draft session fresh exactly if the two tests would pass once more. -/
theorem staysFresh_step_iff {label : LiveLabel} (h : LiveSound s)
    (hs : s.step config label = some s') : StaysFresh s s' ↔ stillFresh s label = true := by
  cases label with
  | sttPartial text timestampMs assignedBroId =>
    cases hs
    refine iff_of_true ?_ rfl
    unfold LiveState.sttPartial
    split
    · exact staysFresh_of_draftsStay (DraftsStay.same rfl) rfl
    · exact staysFresh_of_draftsStay
        (DraftsStay.same (congrArg DraftSessionManager.sessions cancel_manager)) cancel_producers
  | sttFinal text timestampMs assignedBroId snapshotId =>
    cases hs
    exact staysFresh_sttFinal_iff text timestampMs assignedBroId snapshotId
  | classified generation classification ids => exact iff_of_true (staysFresh_classified hs) rfl
  | rewritten generation draft ids => exact staysFresh_rewritten_iff h hs
  | fails generation =>
    refine iff_of_true ?_ rfl
    obtain ⟨work, -, hs⟩ := bind_eq_some_iff.mp hs
    split at hs
    · cases hs
      exact staysFresh_endWork work
    · obtain ⟨d, hstep, rfl⟩ := map_eq_some_iff.mp hs
      exact staysFresh_dispatch hstep rfl rfl rfl
  | other label => exact iff_of_true (staysFresh_other h hs) rfl

end steps

/-! ## Runs -/

/-- Along every sequence of messages, answers of the classifier and of the rewriter and other
changes of the drafts, every draft session stays fresh exactly if each draft that comes back,
and each final that is a checkpoint, would pass the tests once more. -/
theorem transcripts_stay_fresh_iff (config : LiveConfig) (labels : List LiveLabel) :
    TranscriptsStayFresh config labels ↔
      (liveSystem config).Along (fun s label => stillFresh s label = true) noTranscripts
        labels := by
  refine System.along_congr (liveSound_inductive config) (fun s label s' h hs => ?_)
    ((liveSound_inductive config).initially noTranscripts rfl)
  have hs : s.step config label = some s' := hs
  constructor
  · intro hfresh
    exact (staysFresh_step_iff h hs).mp (hfresh s' hs)
  · intro hstill next hnext
    rw [hs] at hnext
    cases hnext
    exact (staysFresh_step_iff h hs).mpr hstill

def codexLive : LiveConfig := { session := codexSession, classifierIntervalMs := 1000 }

def delegation : InteractionClassification := { interactionType := .delegation }

def liveIds (n : String) : LiveIds :=
  ⟨"rewrite-" ++ n, "draft-" ++ n, "live-" ++ n, "plan-" ++ n, "task-" ++ n⟩

/-- Two finals and a partial reach the rewriter; the second final is still there when the
partial has its draft. -/
def slowFinalRun : List LiveLabel :=
  [.sttFinal "review the open changes" (some 1000) none "snap-1",
    .classified 1 delegation (liveIds "1"),
    .rewritten 1 reviewDraft ⟨"rev-1", "snap-2", "plan-4"⟩,
    .sttFinal "review the open changes and the tests" (some 2000) none "snap-3",
    .classified 2 delegation (liveIds "2"),
    .sttPartial "no, only the tests" (some 3000) none,
    .classified 3 delegation (liveIds "3"),
    .rewritten 3 testsDraft ⟨"rev-2", "snap-4", "plan-5"⟩]

def slowFinal : LiveLabel := .rewritten 2 reviewDraft ⟨"rev-3", "snap-5", "plan-6"⟩

/-- The draft session goes back from the partial to the final before it, and in time. -/
theorem slow_final_replaces_newer :
    ¬ TranscriptsStayFresh codexLive (slowFinalRun ++ [slowFinal]) := by
  intro hfresh
  let M := liveSystem codexLive
  have hrun : M.run noTranscripts slowFinalRun = some (M.target noTranscripts slowFinalRun) :=
    System.run_eq_target (by decide)
  have hlast : M.run (M.target noTranscripts slowFinalRun) [slowFinal] =
      some (M.target noTranscripts (slowFinalRun ++ [slowFinal])) :=
    System.run_target (by decide)
  have hstep : M.step (M.target noTranscripts slowFinalRun) slowFinal =
      some (M.target noTranscripts (slowFinalRun ++ [slowFinal])) := by
    simpa only [System.run, bind_some, bind_fun_some] using hlast
  have hstays := (System.Along.drop hfresh hrun _ hstep).1 _ hstep
  have hproducer : ((M.target noTranscripts slowFinalRun).session? "draft-1").bind
      (M.target noTranscripts slowFinalRun).producerOf = some 3 := by
    decide
  have hproducer' : ((M.target noTranscripts (slowFinalRun ++ [slowFinal])).session?
      "draft-1").bind (M.target noTranscripts (slowFinalRun ++ [slowFinal])).producerOf =
      some 2 := by
    decide
  obtain ⟨session, hsession, hproducer⟩ := bind_eq_some_iff.mp hproducer
  obtain ⟨session', hsession', hproducer'⟩ := bind_eq_some_iff.mp hproducer'
  obtain ⟨now, hnow, hkept⟩ := hstays "draft-1" session hsession
  rw [hsession'] at hnow
  cases hnow
  have hback := hkept.generation 3 2 hproducer hproducer'
  omega

/-- Whatever comes late, a partial under way is the newest message. -/
theorem partials_are_newest (config : LiveConfig) (labels : List LiveLabel) :
    (liveSystem config).Always LiveSound noTranscripts labels :=
  (liveSound_inductive config).always rfl

end Newbro.Drafts
