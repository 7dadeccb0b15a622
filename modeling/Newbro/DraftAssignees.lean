import Newbro.DispatchGate

/-!
# The Bro of a draft

A draft session is assigned to a Bro, and so is the task that is made of it; the plan that the
user confirms names an agent, which it takes from the rewriter. A turn that names another Bro
assigns the session before the rewriter is asked, and whether or not it answers. This module
says when a rewriter that fails leaves the session as it was, and when the plan names the Bro.
-/
namespace Newbro.Drafts

open Library Protocol Option

/-! ## Sessions as the runs keep them -/

/-- The active session is there and open, every session has a Bro, and every draft has a plan,
for the agent that its task specification names. -/
structure Settled (m : DraftSessionManager) : Prop where
  activeLive : m.ActiveLive
  assigned : ∀ session ∈ m.sessions.entries, session.assignedBroId ≠ ""
  planned : ∀ session ∈ m.sessions.entries, ∀ draft, session.currentDraft = some draft →
    ∃ plan, session.currentDispatchPlan = some plan ∧
      ∀ spec, draft.taskSpec = some spec → plan.targetAgent = spec.targetAgent

variable {session : DraftSession}

/-- The plan of a draft names the agent of its specification, or else the Bro. -/
theorem targetAgent_buildDispatchPlan (planId runtimeSessionId : String)
    (draft : Draft) (hbro : session.assignedBroId ≠ "") :
    (buildDispatchPlan planId runtimeSessionId session draft).targetAgent =
      (draft.taskSpec.map TaskSpec.targetAgent).getD session.assignedBroId := by
  unfold buildDispatchPlan
  cases draft.taskSpec with
  | none => simp [formulateTaskSpec, Text.orElse, hbro]
  | some spec => rfl

variable {draft : Draft} {broId : String} {spec : Option TaskSpec}

section sessions

variable {m : DraftSessionManager} {session session' : DraftSession}

/-- A session may be stored that has a Bro and a plan for its draft, if the active session is
still there and open. -/
theorem Settled.put (h : Settled m) {active : Option String}
    (hactive : DraftSessionManager.ActiveLive ⟨m.sessions.put session', active⟩)
    (hbro : session'.assignedBroId ≠ "")
    (hplan : ∀ draft, session'.currentDraft = some draft →
      ∃ plan, session'.currentDispatchPlan = some plan ∧
        ∀ spec, draft.taskSpec = some spec → plan.targetAgent = spec.targetAgent) :
    Settled ⟨m.sessions.put session', active⟩ where
  activeLive := hactive
  assigned := by
    intro other hmem
    rcases Table.mem_put.mp hmem with rfl | ⟨hmem, -⟩
    · exact hbro
    · exact h.assigned other hmem
  planned := by
    intro other hmem
    rcases Table.mem_put.mp hmem with rfl | ⟨hmem, -⟩
    · exact hplan
    · exact h.planned other hmem

theorem Settled.mem_active (hactive : m.activeSession = some session) :
    session ∈ m.sessions.entries :=
  Table.mem_of_get? (DraftSessionManager.activeSession_spec hactive).2

/-- The active session may be closed when it stops being the active one. -/
theorem Settled.close (h : Settled m) (hactive : m.activeSession = some session)
    (status : DraftSessionStatus) :
    Settled ⟨m.sessions.put { session with status := status }, none⟩ := by
  have hmem := Settled.mem_active hactive
  exact h.put (fun _ hnone => by cases hnone) (h.assigned session hmem) (h.planned session hmem)

theorem assignedBroId_sessionForTurn (h : Settled m) (newId : String)
    (assignedBroId : Option String) :
    (m.sessionForTurn newId assignedBroId).assignedBroId ≠ "" := by
  have hnamed : ∀ broId, assignedBroId.filter (· ≠ "") = some broId → broId ≠ "" := by
    intro broId hfilter
    simpa using (filter_eq_some_iff.mp hfilter).2
  unfold DraftSessionManager.sessionForTurn
  cases hactive : m.activeSession.filter fun session => !session.status.closed with
  | none =>
    cases hfilter : assignedBroId.filter (· ≠ "") with
    | none => simp [defaultBroId]
    | some broId => exact hnamed broId hfilter
  | some session =>
    cases hfilter : assignedBroId.filter (· ≠ "") with
    | none =>
      have hsession := (filter_eq_some_iff.mp hactive).1
      exact h.assigned session (Settled.mem_active hsession)
    | some broId => exact hnamed broId hfilter

theorem settled_sessionForTurn (h : Settled m) (newId : String)
    (assignedBroId : Option String) :
    Settled { m with sessions := m.sessions.put (m.sessionForTurn newId assignedBroId) } := by
  have hbro := assignedBroId_sessionForTurn h newId assignedBroId
  unfold DraftSessionManager.sessionForTurn at hbro ⊢
  cases hactive : m.activeSession.filter fun session => !session.status.closed with
  | none =>
    rw [hactive] at hbro
    exact h.put (h.activeLive.put rfl) hbro fun draft hdraft => by cases hdraft
  | some session =>
    rw [hactive] at hbro
    obtain ⟨hsession, hlive⟩ := filter_eq_some_iff.mp hactive
    exact h.put (h.activeLive.put (by simpa using hlive)) hbro
      (h.planned session (Settled.mem_active hsession))

theorem settled_markLiveCheckpoint (h : Settled m) (sourceBoundary : String)
    (transcriptTimestampMs : Option Int) (snapshotId : String) :
    Settled (m.markLiveCheckpoint sourceBoundary transcriptTimestampMs snapshotId) := by
  unfold DraftSessionManager.markLiveCheckpoint
  split
  · exact h
  · rename_i session hactive
    have hmem := Settled.mem_active hactive
    split
    · exact h.put (h.activeLive.put (h.activeLive.activeSession hactive).2)
        (h.assigned session hmem) (h.planned session hmem)
    · exact h

theorem settled_clear (h : Settled m) : Settled m.clear := by
  unfold DraftSessionManager.clear
  split
  · exact h
  · rename_i session hactive
    exact h.close hactive .cleared

theorem assignedBroId_replan (session : DraftSession) (runtimeSessionId planId : String)
    (taskMode : Option TaskMode) :
    (session.replan runtimeSessionId planId taskMode).assignedBroId = session.assignedBroId := by
  unfold DraftSession.replan
  split <;> rfl

/-- A session of that Bro whose draft has a specification for those agents, and the plan that
belongs to it. -/
structure Planned (session : DraftSession) (broId : String) (spec : Option TaskSpec) : Prop where
  assigned : session.assignedBroId = broId
  plan : ∃ draft plan, session.currentDraft = some draft ∧
    draft.taskSpec.map TaskSpec.targetAgent = spec.map TaskSpec.targetAgent ∧
    session.currentDispatchPlan = some plan ∧
    plan.targetAgent = (spec.map TaskSpec.targetAgent).getD broId

/-- Planning a draft once more keeps the agent of its specification. -/
theorem planned_replan (hbro : session.assignedBroId ≠ "")
    (hdraft : session.currentDraft = some draft) (runtimeSessionId planId : String)
    (taskMode : Option TaskMode) :
    Planned (session.replan runtimeSessionId planId taskMode) session.assignedBroId
      draft.taskSpec := by
  refine ⟨assignedBroId_replan session _ _ _, ?_⟩
  unfold DraftSession.replan
  rw [hdraft]
  refine ⟨_, _, rfl, ?_, rfl, ?_⟩
  · simp only [map_map]
    rfl
  · rw [targetAgent_buildDispatchPlan _ _ _ hbro]
    simp only [map_map]
    rfl

/-- A revision has a plan for the agent of the draft that has come back, or else for the Bro
of the session. -/
theorem planned_revised (hbro : session.assignedBroId ≠ "") (rewrite : Rewrite) (draft : Draft)
    (ids : RevisionIds) :
    Planned (State.revised session rewrite draft ids) session.assignedBroId draft.taskSpec := by
  unfold State.revised
  split
  · exact ⟨rfl, _, _, rfl, rfl, rfl, targetAgent_buildDispatchPlan _ _ _ hbro⟩
  · exact ⟨rfl, _, _, rfl, rfl, rfl, targetAgent_buildDispatchPlan _ _ _ hbro⟩

theorem Planned.replan (h : Planned session broId spec)
    (hbro : broId ≠ "") (runtimeSessionId planId : String) (taskMode : Option TaskMode) :
    Planned (session.replan runtimeSessionId planId taskMode) broId spec := by
  obtain ⟨draft, -, hdraft, hspec, -⟩ := h.plan
  have hreplanned := planned_replan (h.assigned ▸ hbro) hdraft runtimeSessionId planId taskMode
  rw [h.assigned] at hreplanned
  obtain ⟨current, plan, hcurrent, hcurrentSpec, hplan, htarget⟩ := hreplanned.plan
  exact ⟨hreplanned.assigned, current, plan, hcurrent, hcurrentSpec.trans hspec, hplan,
    hspec ▸ htarget⟩

/-- The agent of the draft's specification is that of the plan. -/
theorem Planned.agrees (h : Planned session broId spec) :
    ∀ draft, session.currentDraft = some draft →
      ∃ plan, session.currentDispatchPlan = some plan ∧
        ∀ spec, draft.taskSpec = some spec → plan.targetAgent = spec.targetAgent := by
  obtain ⟨draft, plan, hdraft, hspec, hplan, htarget⟩ := h.plan
  intro current hcurrent
  obtain rfl := some.inj (hdraft.symm.trans hcurrent)
  refine ⟨plan, hplan, fun own hown => ?_⟩
  rw [hown, map_some] at hspec
  rw [htarget, ← hspec]
  rfl

theorem activeSession_put (hactive : m.activeSession = some session)
    (hid : session'.id = session.id) :
    DraftSessionManager.activeSession { m with sessions := m.sessions.put session' } =
      some session' := by
  have hcurrent := (DraftSessionManager.activeSession_spec hactive).1
  simp only [DraftSessionManager.activeSession, hcurrent, bind_some, ← hid]
  exact Table.get?_put_self m.sessions session'

end sessions

/-! ## The plan and the Bro -/

/-- The plan of the active draft names the Bro of its session. -/
def Named (m : DraftSessionManager) : Prop :=
  ∀ session draft plan, m.activeSession = some session → session.currentDraft = some draft →
    session.currentDispatchPlan = some plan → plan.targetAgent = session.assignedBroId

/-- The plan that a confirmation of the draft confirms. -/
def planToConfirm (config : SessionConfig) (newPlanId : String) (session : DraftSession)
    (draft : Draft) : DispatchPlan :=
  session.currentDispatchPlan.getD (buildDispatchPlan newPlanId config.sessionId session draft)

/-- Whatever is confirmed in this state names the Bro of its session, and a send that the
confirmation begins goes to that Bro. -/
structure PlanNamesAssignee (config : SessionConfig) (s : State) : Prop where
  plan : ∀ session draft newPlanId, s.manager.activeSession = some session →
    session.currentDraft = some draft →
    (planToConfirm config newPlanId session draft).targetAgent = session.assignedBroId
  send : ∀ taskId newPlanId planId draftRevisionId s' send,
    s.confirmActiveDispatch config taskId newPlanId planId draftRevisionId = some s' →
    s'.sends.get? taskId = some send →
    ∃ plan, Dispatches.planOfSend s' taskId = some plan ∧ plan.userConfirmed = true ∧
      plan.targetAgent = send.assignedBroId ∧
      ∀ persona, send.persona = some persona → persona.personaId = plan.targetAgent

/-- A turn in other words than none gives the active session another Bro. -/
def DraftSessionManager.reassigns (m : DraftSessionManager) (input : TurnInput) : Bool :=
  Text.strip input.rawText ≠ "" && m.activeSession.any fun session =>
    (input.assignedBroId.filter (· ≠ "")).any (· ≠ session.assignedBroId)

/-- The active session has a draft of that kind. -/
def DraftSessionManager.hasDraft (m : DraftSessionManager) (kind : Draft → Bool) : Bool :=
  m.activeSession.any fun session => session.currentDraft.any kind

/-- No turn gives a session that has a draft another Bro, unless its handler makes a new plan
and the draft has no specification; and a specification that the rewriter returns names the Bro
that the session has by then. -/
def keepsTarget (d : Dispatches) : DispatchLabel → Bool
  | .draft (.appendAsrTurn input) =>
    !(d.drafts.manager.reassigns input && d.drafts.manager.hasDraft fun _ => true)
  | .draft (.updateLiveDraft input _ _) =>
    !(d.drafts.manager.reassigns input && d.drafts.manager.hasDraft fun _ => true)
  | .olderLiveDraft input _ _ _ _ =>
    !(d.drafts.manager.reassigns input &&
      d.drafts.manager.hasDraft fun draft => draft.taskSpec.isSome)
  | .draft (.finishRewrite rewriteId draft _ _ _) =>
    (d.drafts.rewrites.get? rewriteId).all fun rewrite =>
      (d.drafts.manager.sessions.get? rewrite.draftSessionId).all fun session =>
        draft.taskSpec.all fun spec => spec.targetAgent = session.assignedBroId
  | _ => true

section named

variable {m : DraftSessionManager} {session : DraftSession}

/-- The active session under the Bro that a turn names. -/
def DraftSession.assignedTo (session : DraftSession) (assignedBroId : Option String) :
    DraftSession :=
  { session with
    assignedBroId := (assignedBroId.filter (· ≠ "")).getD session.assignedBroId }

theorem activeSession_sessionForTurn (h : m.ActiveLive) (newId : String)
    (assignedBroId : Option String) :
    DraftSessionManager.activeSession
        { m with sessions := m.sessions.put (m.sessionForTurn newId assignedBroId) } =
      m.activeSession.map fun session => session.assignedTo assignedBroId := by
  cases hactive : m.active with
  | none => simp [DraftSessionManager.activeSession, hactive]
  | some draftSessionId =>
    obtain ⟨session, hget, hlive⟩ := h draftSessionId hactive
    have hid : session.id = draftSessionId := Table.key_of_get? hget
    have hcurrent : m.activeSession = some session := by
      simp only [DraftSessionManager.activeSession, hactive, bind_some, hget]
    have hopen : (some session).filter (fun session => !session.status.closed) = some session :=
      filter_eq_some_iff.mpr ⟨rfl, by simp [hlive]⟩
    have hturn : m.sessionForTurn newId assignedBroId = session.assignedTo assignedBroId := by
      unfold DraftSessionManager.sessionForTurn
      rw [hcurrent, hopen]
      rfl
    have hput := Table.get?_put_self m.sessions (session.assignedTo assignedBroId)
    rw [hturn, hcurrent]
    change (m.sessions.put (session.assignedTo assignedBroId)).get? draftSessionId = _
    rw [← hid]
    exact hput

/-- A session keeps its Bro exactly if the turn names no other. -/
theorem assignedTo_eq_iff (session : DraftSession) (assignedBroId : Option String) :
    (session.assignedTo assignedBroId).assignedBroId = session.assignedBroId ↔
      (assignedBroId.filter (· ≠ "")).any (· ≠ session.assignedBroId) = false := by
  unfold DraftSession.assignedTo
  cases assignedBroId.filter (· ≠ "") with
  | none | some => simp

/-- A turn keeps the active session as it is exactly if it names no other Bro. -/
theorem activeSession_sessionForTurn_eq_iff (h : m.ActiveLive) (newId : String)
    (assignedBroId : Option String) :
    DraftSessionManager.activeSession
        { m with sessions := m.sessions.put (m.sessionForTurn newId assignedBroId) } =
        m.activeSession ↔
      (m.activeSession.any fun session =>
        (assignedBroId.filter (· ≠ "")).any (· ≠ session.assignedBroId)) = false := by
  rw [activeSession_sessionForTurn h]
  cases m.activeSession with
  | none => simp
  | some session =>
    simp only [map_some, some.injEq, any_some]
    rw [← assignedTo_eq_iff]
    constructor
    · exact fun heq => congrArg DraftSession.assignedBroId heq
    · intro hbro
      change { session with assignedBroId := (session.assignedTo assignedBroId).assignedBroId } =
        session
      rw [hbro]

end named

/-! ## Rewriters that fail -/

/-- The words of a call that hands a turn to the rewriter. -/
def turnOf : Label → Option TurnInput
  | .appendAsrTurn input => some input
  | .updateLiveDraft input _ _ => some input
  | _ => none

/-- The call is not refused, and no later transcript is known. -/
def reachesRewriter (s : State) : Label → Bool
  | .appendAsrTurn input => s.freshTurn input && Text.strip input.rawText ≠ ""
  | .updateLiveDraft input _ transcriptTimestampMs =>
    s.freshTurn input && Text.strip input.rawText ≠ "" &&
      !(s.manager.sessionForTurn input.draftSessionId
        input.assignedBroId).newerThan transcriptTimestampMs
  | _ => false

/-- If the rewriter of the call raises, whatever has happened meanwhile, then neither the start
of the call nor its failure has changed the active session, or made one. -/
def FailsCleanly (config : SessionConfig) (s : State) (call : Label) : Prop :=
  ∀ input s₁, turnOf call = some input → s.step config call = some s₁ →
    s₁.rewrites.contains input.rewriteId = true →
    s₁.manager.activeSession = s.manager.activeSession ∧
      ∀ s₂ s₃ : State, s₂.step config (.failRewrite input.rewriteId) = some s₃ → s₃.manager = s₂.manager

/-- The turn of the call names another Bro than the active session has. -/
def namesAnotherBro (s : State) (call : Label) : Bool :=
  (turnOf call).any s.manager.reassigns

variable {s : State}

variable {s' : State} {rewriteId : String}

theorem failRewrite_manager {config : SessionConfig}
    (hs : s.step config (.failRewrite rewriteId) = some s') : s'.manager = s.manager := by
  simp only [State.step, State.failRewrite] at hs
  split at hs
  · cases hs
    rfl
  · cases hs

variable {call : Label} {input : TurnInput}

/-- A call waits for the rewriter, or none waits under its id. -/
theorem turn_spec (config : SessionConfig) (s : State) (hturn : turnOf call = some input) :
    (reachesRewriter s call = true ∧
      ∃ kind, s.step config call = some (s.beginRewrite input kind)) ∨
    (reachesRewriter s call = false ∧
      ∀ s₁, s.step config call = some s₁ → s₁.rewrites.contains input.rewriteId = false) := by
  cases hfresh : s.freshTurn input with
  | false =>
    right
    cases call <;> cases hturn
    · simp [reachesRewriter, State.step, State.appendAsrTurn, hfresh]
    · simp [reachesRewriter, State.step, State.updateLiveDraft, hfresh]
  | true =>
    have hnone : s.rewrites.contains input.rewriteId = false := by
      simp only [State.freshTurn, Bool.and_eq_true, Bool.not_eq_true'] at hfresh
      exact hfresh.1
    by_cases hblank : Text.strip input.rawText = ""
    · right
      cases call <;> cases hturn
      · simp [reachesRewriter, State.step, State.appendAsrTurn, hfresh, hblank, hnone]
      · simp [reachesRewriter, State.step, State.updateLiveDraft, hfresh, hblank, hnone]
    · cases call <;> cases hturn
      · left
        refine ⟨by simp [reachesRewriter, hfresh, hblank], .appendAsrTurn, ?_⟩
        simp [State.step, State.appendAsrTurn, hfresh, hblank]
      · rename_i sourceBoundary transcriptTimestampMs
        cases hnewer : (s.manager.sessionForTurn input.draftSessionId
            input.assignedBroId).newerThan transcriptTimestampMs with
        | true =>
          right
          simp [reachesRewriter, State.step, State.updateLiveDraft, hfresh, hblank, hnewer, hnone]
        | false =>
          left
          refine ⟨by simp [reachesRewriter, hfresh, hblank, hnewer],
            .updateLiveDraft sourceBoundary transcriptTimestampMs, ?_⟩
          simp [State.step, State.updateLiveDraft, hfresh, hblank, hnewer]

theorem failsCleanly_iff (config : SessionConfig) (h : s.manager.ActiveLive) (call : Label) :
    FailsCleanly config s call ↔
      (reachesRewriter s call = true → namesAnotherBro s call = false) := by
  cases hturn : turnOf call with
  | none => simp [FailsCleanly, namesAnotherBro, hturn]
  | some input =>
    have hbegun : ∀ kind, (s.beginRewrite input kind).manager.activeSession =
        s.manager.activeSession ↔ _ :=
      fun kind => activeSession_sessionForTurn_eq_iff h input.draftSessionId input.assignedBroId
    rcases turn_spec config s hturn with ⟨hreaches, kind, hstep⟩ | ⟨hnot, hnone⟩
    · have hblank : Text.strip input.rawText ≠ "" := by
        cases call <;> cases hturn <;> simp_all [reachesRewriter]
      simp only [hreaches, true_implies, namesAnotherBro, hturn, any_some,
        DraftSessionManager.reassigns, ne_eq, hblank, not_false_eq_true, decide_true,
        Bool.true_and]
      constructor
      · intro hclean
        have hwaits : (s.beginRewrite input kind).rewrites.contains input.rewriteId = true := by
          simp [State.beginRewrite, Table.contains]
        simpa using (hbegun kind).mp (hclean input _ hturn hstep hwaits).1
      · intro hkept other s₁ hother hs₁ _
        obtain rfl : input = other := some.inj (hturn.symm.trans hother)
        obtain rfl := some.inj (hstep.symm.trans hs₁)
        exact ⟨(hbegun kind).mpr (by simpa using hkept),
          fun s₂ s₃ hfail => failRewrite_manager hfail⟩
    · refine iff_of_true ?_ ?_
      · intro other s₁ hother hs₁ hwaits
        obtain rfl : input = other := some.inj (hturn.symm.trans hother)
        rw [hnone s₁ hs₁] at hwaits
        cases hwaits
      · intro hreaches
        rw [hnot] at hreaches
        cases hreaches

/-! ## Steps -/

/-- What a step does: the sessions stay as the runs keep them, and a plan that named the Bro
names it afterwards exactly under the condition. -/
def StepKeeps (m m' : DraftSessionManager) (condition : Prop) : Prop :=
  Settled m' ∧ (Named m → (Named m' ↔ condition))

variable {taskId : String} {draftRevisionId : Option String}

variable {newPlanId : String} {draftSessionId : Option String}

section steps

variable {config : SessionConfig} {s s' : State} {m m' : DraftSessionManager}

theorem StepKeeps.same (h : Settled m') (hn : Named m → Named m') : StepKeeps m m' (true = true) :=
  ⟨h, fun hm => iff_of_true (hn hm) rfl⟩

/-- Without an active draft there is no plan to name a Bro. -/
theorem named_of_no_active (h : m.activeSession = none) : Named m := by
  intro session draft plan hactive
  rw [h] at hactive
  cases hactive

/-- The active session may be put back with its Bro, its draft and its target. -/
theorem named_congr {session' : DraftSession}
    (hactive : m.activeSession = some session) (hactive' : m'.activeSession = some session')
    (hbro : session'.assignedBroId = session.assignedBroId)
    (hdraft : session'.currentDraft = session.currentDraft)
    (hplan : session'.currentDispatchPlan.map DispatchPlan.targetAgent =
      session.currentDispatchPlan.map DispatchPlan.targetAgent) (hn : Named m) : Named m' := by
  intro current draft plan hcurrent hhas hplanned
  rw [hactive'] at hcurrent
  obtain rfl := some.inj hcurrent
  rw [hplanned, map_some] at hplan
  obtain ⟨old, hold, htarget⟩ := map_eq_some_iff.mp hplan.symm
  rw [hbro, ← htarget]
  exact hn session draft old hactive (hdraft ▸ hhas) hold

/-- A planned session that is the active one names its Bro exactly if the specification of its
draft does. -/
theorem Planned.named_iff
    (h : Planned session broId spec) (hactive : m.activeSession = some session) :
    Named m ↔ ∀ own, spec = some own → own.targetAgent = broId := by
  obtain ⟨draft, plan, hdraft, -, hplan, htarget⟩ := h.plan
  constructor
  · intro hn own hown
    have hnamed := hn session draft plan hactive hdraft hplan
    rw [hown] at htarget
    exact htarget.symm.trans (hnamed.trans h.assigned)
  · intro hspec current currentDraft currentPlan hcurrent _ hcurrentPlan
    obtain rfl := some.inj (hactive.symm.trans hcurrent)
    obtain rfl := some.inj (hplan.symm.trans hcurrentPlan)
    rw [htarget, h.assigned]
    cases spec with
    | none => rfl
    | some own => exact hspec own rfl

/-- Give the session of a turn another Bro: the plan stays as it was. -/
theorem stepKeeps_sessionForTurn (h : Settled m) (input : TurnInput)
    (hblank : Text.strip input.rawText ≠ "") :
    StepKeeps m { m with
        sessions := m.sessions.put (m.sessionForTurn input.draftSessionId input.assignedBroId) }
      ((!(m.reassigns input && m.hasDraft fun _ => true)) = true) := by
  refine ⟨settled_sessionForTurn h _ _, fun hn => ?_⟩
  have hactive' := activeSession_sessionForTurn h.activeLive input.draftSessionId
    input.assignedBroId
  cases hactive : m.activeSession with
  | none =>
    rw [hactive, map_none] at hactive'
    refine iff_of_true (named_of_no_active hactive') ?_
    simp [DraftSessionManager.reassigns, hactive]
  | some session =>
    rw [hactive, map_some] at hactive'
    cases hdraft : session.currentDraft with
    | none =>
      refine iff_of_true ?_ ?_
      · intro current draft plan hcurrent hhas
        rw [hactive'] at hcurrent
        obtain rfl := some.inj hcurrent
        change session.currentDraft = some draft at hhas
        rw [hdraft] at hhas
        cases hhas
      · simp [DraftSessionManager.hasDraft, hactive, hdraft]
    | some draft =>
      obtain ⟨plan, hplan, -⟩ := h.planned session (Settled.mem_active hactive) draft hdraft
      have htarget : plan.targetAgent = session.assignedBroId :=
        hn session draft plan hactive hdraft hplan
      have hcondition : (!(m.reassigns input && m.hasDraft fun _ => true)) = true ↔
          (session.assignedTo input.assignedBroId).assignedBroId = session.assignedBroId := by
        rw [assignedTo_eq_iff]
        simp [DraftSessionManager.reassigns, DraftSessionManager.hasDraft, hactive, hdraft, hblank]
      rw [hcondition]
      constructor
      · intro hn'
        exact (hn' _ draft plan hactive' hdraft hplan).symm.trans htarget
      · intro hbro
        exact named_congr hactive hactive' hbro rfl rfl hn

/-- An older transcript assigns the session, and its handler plans the draft once more. -/
theorem stepKeeps_olderLiveDraft (h : Settled s.manager) (input : TurnInput)
    (hblank : Text.strip input.rawText ≠ "") (planId : String) (taskMode : Option TaskMode) :
    StepKeeps s.manager (State.replanActive config { s with manager := { s.manager with
        sessions := s.manager.sessions.put
          (s.manager.sessionForTurn input.draftSessionId input.assignedBroId) } }
        planId taskMode).manager
      ((!(s.manager.reassigns input &&
        s.manager.hasDraft fun draft => draft.taskSpec.isSome)) = true) := by
  have hturn := (stepKeeps_sessionForTurn h input hblank).1
  have hactive' := activeSession_sessionForTurn h.activeLive input.draftSessionId
    input.assignedBroId
  unfold State.replanActive
  cases hactive : s.manager.activeSession with
  | none =>
    rw [hactive, map_none] at hactive'
    simp only [hactive']
    refine ⟨hturn, fun _ => iff_of_true (named_of_no_active hactive') ?_⟩
    simp [DraftSessionManager.reassigns, hactive]
  | some session =>
    rw [hactive, map_some] at hactive'
    simp only [hactive']
    obtain ⟨-, hlive⟩ := h.activeLive.activeSession hactive
    let assigned := session.assignedTo input.assignedBroId
    have hbro : assigned.assignedBroId ≠ "" :=
      hturn.assigned assigned (Settled.mem_active hactive')
    have hreplanned := activeSession_put hactive'
      (DraftSession.replan_id assigned config.sessionId planId taskMode)
    have hopen : (assigned.replan config.sessionId planId taskMode).status.closed = false := by
      rw [DraftSession.replan_status]
      exact hlive
    cases hdraft : session.currentDraft with
    | none =>
      have hsame : assigned.replan config.sessionId planId taskMode = assigned := by
        unfold DraftSession.replan
        rw [show assigned.currentDraft = none from hdraft]
      have hnone : s.manager.hasDraft (fun draft => draft.taskSpec.isSome) = false := by
        simp [DraftSessionManager.hasDraft, hactive, hdraft]
      refine ⟨hturn.put (hturn.activeLive.put hopen) ?_ ?_, fun _ => iff_of_true ?_ ?_⟩
      · rwa [assignedBroId_replan]
      · rw [hsame]
        exact hturn.planned assigned (Settled.mem_active hactive')
      · intro current draft plan hcurrent hhas
        obtain rfl := some.inj (hreplanned.symm.trans hcurrent)
        rw [hsame] at hhas
        cases hdraft.symm.trans hhas
      · rw [hnone, Bool.and_false]
        rfl
    | some draft =>
      have hplanned := planned_replan hbro (show assigned.currentDraft = some draft from hdraft)
        config.sessionId planId taskMode
      refine ⟨hturn.put (hturn.activeLive.put hopen) ?_ hplanned.agrees, fun hn => ?_⟩
      · rwa [hplanned.assigned]
      · rw [hplanned.named_iff hreplanned]
        obtain ⟨plan, hplan, hagrees⟩ :=
          h.planned session (Settled.mem_active hactive) draft hdraft
        have htarget := hn session draft plan hactive hdraft hplan
        have hkept := assignedTo_eq_iff session input.assignedBroId
        cases hspec : draft.taskSpec with
        | none => simp [DraftSessionManager.hasDraft, hactive, hdraft, hspec]
        | some spec =>
          have hold : spec.targetAgent = session.assignedBroId :=
            (hagrees spec hspec).symm.trans htarget
          simp only [some.injEq, forall_eq', hold, DraftSessionManager.reassigns,
            DraftSessionManager.hasDraft, hactive, hdraft, hspec, any_some,
            isSome_some, Bool.and_true, Bool.not_eq_true', Bool.and_eq_false_iff,
            ← hkept, hblank, ne_eq, not_false_eq_true, decide_true, Bool.true_eq_false,
            false_or]
          exact eq_comm

theorem stepKeeps_finishRewrite {ids : RevisionIds}
    {handled : Bool} {taskMode : Option TaskMode} {rewrite : Rewrite} (h : Settled s.manager)
    (hrewrite : s.rewrites.get? rewriteId = some rewrite)
    (hs : s.finishRewrite config rewriteId draft ids handled taskMode = some s') :
    StepKeeps s.manager s'.manager
      ((s.manager.sessions.get? rewrite.draftSessionId).all (fun session =>
        draft.taskSpec.all fun spec => spec.targetAgent = session.assignedBroId) = true) := by
  unfold State.finishRewrite at hs
  rw [hrewrite, bind_some] at hs
  obtain ⟨session, hsession, rfl⟩ := map_eq_some_iff.mp hs
  have hbro := h.assigned session (Table.mem_of_get? hsession)
  have hrevised := planned_revised hbro rewrite draft ids
  let filed := if handled then
      (State.revised session rewrite draft ids).replan config.sessionId ids.planId taskMode
    else State.revised session rewrite draft ids
  have hplanned : Planned filed session.assignedBroId draft.taskSpec := by
    cases handled with
    | true => exact hrevised.replan hbro _ _ _
    | false => exact hrevised
  have hready : filed.status = .ready := by
    cases handled with
    | true => exact (DraftSession.replan_status _ _ _ _).trans (revised_status _ _ _ _)
    | false => exact revised_status _ _ _ _
  have hactive : (s.manager.installRevision filed).activeSession = some filed :=
    Table.get?_put_self s.manager.sessions filed
  refine ⟨h.put ?_ ?_ hplanned.agrees, fun _ => ?_⟩
  · intro draftSessionId hid
    obtain rfl := some.inj hid
    exact ⟨filed, Table.get?_put_self _ _, by rw [hready]; rfl⟩
  · rwa [hplanned.assigned]
  · rw [hplanned.named_iff hactive, hsession]
    cases draft.taskSpec with
    | none | some => simp

/-- The plan that stands, and a plan that is made anew, name the Bro alike. -/
theorem targetAgent_of_named (h : Settled m) (hn : Named m)
    {plan : DispatchPlan} {runtimeSessionId : String}
    (hactive : m.activeSession = some session) (hdraft : session.currentDraft = some draft)
    (hplan : session.currentDispatchPlan = some plan ∨
      plan = buildDispatchPlan newPlanId runtimeSessionId session draft) :
    plan.targetAgent = session.assignedBroId := by
  have hmem := Settled.mem_active hactive
  rcases hplan with hplan | rfl
  · exact hn session draft plan hactive hdraft hplan
  · rw [targetAgent_buildDispatchPlan _ _ _ (h.assigned session hmem)]
    obtain ⟨current, hcurrent, hagrees⟩ := h.planned session hmem draft hdraft
    cases hspec : draft.taskSpec with
    | none => rfl
    | some spec =>
      have hnamed := hn session draft current hactive hdraft hcurrent
      rw [hagrees spec hspec] at hnamed
      exact hnamed

theorem beginSend_manager
    (hs : s.beginSend taskId draftSessionId draftRevisionId = .ok s') : s'.manager = s.manager := by
  obtain ⟨send, rfl, -⟩ := beginSend_ok hs
  rfl

theorem stepKeeps_confirmActiveDispatch
    {planId : Option String} (h : Settled s.manager)
    (hs : s.confirmActiveDispatch config taskId newPlanId planId draftRevisionId = some s') :
    StepKeeps s.manager s'.manager (true = true) := by
  obtain ⟨-, hconfirms⟩ := confirmActiveDispatch_spec hs
  cases hconfirms with
  | nothing hsame =>
    rw [hsame]
    exact .same h id
  | plan session draft plan hactive hdraft hplanned hnext =>
    let confirmed := { plan with userConfirmed := true }
    have hnow := activeSession_putPlan confirmed hactive
    have hmem := Settled.mem_active hactive
    have hput : StepKeeps s.manager (s.putPlan session confirmed).manager (true = true) := by
      refine .same (h.put (h.activeLive.put (h.activeLive.activeSession hactive).2)
        (h.assigned session hmem) ?_) ?_
      · intro current hcurrent
        obtain rfl := some.inj (hdraft.symm.trans hcurrent)
        refine ⟨confirmed, rfl, fun spec hspec => ?_⟩
        rcases hplanned with hplan | rfl
        · obtain ⟨old, hold, hagrees⟩ := h.planned session hmem draft hdraft
          obtain rfl := some.inj (hold.symm.trans hplan)
          exact hagrees spec hspec
        · change (buildDispatchPlan newPlanId config.sessionId session draft).targetAgent = _
          rw [targetAgent_buildDispatchPlan _ _ _ (h.assigned session hmem), hspec]
          rfl
      · intro hn current currentDraft currentPlan hcurrent _ hcurrentPlan
        obtain rfl := some.inj (hnow.symm.trans hcurrent)
        obtain rfl := some.inj hcurrentPlan
        have htarget := targetAgent_of_named h hn hactive hdraft hplanned
        exact htarget
    rcases hnext with rfl | ⟨-, hbegin⟩
    · exact hput
    · rw [beginSend_manager hbegin]
      exact hput

theorem stepKeeps_markLiveCheckpoint (h : Settled m) (sourceBoundary : String)
    (transcriptTimestampMs : Option Int) (snapshotId : String) :
    StepKeeps m (m.markLiveCheckpoint sourceBoundary transcriptTimestampMs snapshotId)
      (true = true) := by
  refine .same (settled_markLiveCheckpoint h _ _ _) fun hn => ?_
  unfold DraftSessionManager.markLiveCheckpoint
  split
  · exact hn
  · rename_i session hactive
    split
    · rename_i draft revisionId _ _
      let checkpoint := session.liveCheckpoint draft revisionId sourceBoundary
        transcriptTimestampMs snapshotId
      have hid : checkpoint.id = session.id := rfl
      exact named_congr hactive (activeSession_put hactive hid) rfl rfl rfl hn
    · exact hn

theorem stepKeeps_clear (h : Settled m) : StepKeeps m m.clear (true = true) := by
  refine .same (settled_clear h) fun hn => ?_
  unfold DraftSessionManager.clear
  split
  · exact hn
  · exact named_of_no_active rfl

theorem stepKeeps_finishSend (h : Settled s.manager)
    (hs : s.finishSend taskId = some s') : StepKeeps s.manager s'.manager (true = true) := by
  obtain ⟨send, -, hs⟩ := bind_eq_some_iff.mp hs
  obtain ⟨task, -, hs⟩ := map_eq_some_iff.mp hs
  simp only at hs
  split at hs
  · cases hs
    exact .same h id
  · rename_i manager hmark
    cases hs
    obtain ⟨session, draft, hready, rfl⟩ := DraftSessionManager.markSent_ok hmark
    exact .same (h.close hready.active .sent) fun _ => named_of_no_active rfl

/-- A turn is refused, or it is blank, or its session is assigned. -/
theorem turn_manager (hturn : turnOf call = some input)
    (hs : s.step config call = some s') :
    (Text.strip input.rawText = "" ∧ s'.manager = s.manager) ∨
    (Text.strip input.rawText ≠ "" ∧
      s'.manager = { s.manager with
        sessions := s.manager.sessions.put
          (s.manager.sessionForTurn input.draftSessionId input.assignedBroId) }) := by
  cases call <;> cases hturn
  · simp only [State.step, State.appendAsrTurn] at hs
    split_ifs at hs with hfresh hblank
    · cases hs
      exact .inl ⟨hblank, rfl⟩
    · cases hs
      exact .inr ⟨hblank, rfl⟩
  · simp only [State.step, State.updateLiveDraft] at hs
    split_ifs at hs with hfresh hblank hnewer
    · cases hs
      exact .inl ⟨hblank, rfl⟩
    · cases hs
      exact .inr ⟨hblank, rfl⟩
    · cases hs
      exact .inr ⟨hblank, rfl⟩

theorem stepKeeps_turn (h : Settled s.manager)
    (hturn : turnOf call = some input) (hs : s.step config call = some s') :
    StepKeeps s.manager s'.manager
      ((!(s.manager.reassigns input && s.manager.hasDraft fun _ => true)) = true) := by
  rcases turn_manager hturn hs with ⟨hblank, hmanager⟩ | ⟨hblank, hmanager⟩
  · rw [hmanager]
    refine ⟨h, fun hn => iff_of_true hn ?_⟩
    simp [DraftSessionManager.reassigns, hblank]
  · rw [hmanager]
    exact stepKeeps_sessionForTurn h input hblank

/-- A step keeps the plan on the Bro exactly if it meets its condition. -/
theorem stepKeeps_step {d d' : Dispatches} {label : DispatchLabel} (h : Settled d.drafts.manager)
    (hs : d.step config label = some d') :
    StepKeeps d.drafts.manager d'.drafts.manager (keepsTarget d label = true) := by
  cases label with
  | otherTask task =>
    simp only [Dispatches.step] at hs
    split at hs
    · cases hs
      exact .same h id
    · cases hs
  | olderLiveDraft input sourceBoundary transcriptTimestampMs planId taskMode =>
    simp only [Dispatches.step] at hs
    split at hs
    · cases hs
    · rename_i holder
      simp only [Bool.or_eq_true, not_or, Bool.not_eq_true', Bool.not_eq_false] at holder
      obtain ⟨hblank, hnewer⟩ := holder
      simp only [decide_eq_true_eq] at hblank
      obtain ⟨s₁, hupdate, rfl⟩ := map_eq_some_iff.mp hs
      simp only [State.updateLiveDraft, hblank, hnewer] at hupdate
      split at hupdate
      · cases hupdate
      · obtain rfl := some.inj hupdate
        exact stepKeeps_olderLiveDraft h input hblank planId taskMode
  | draft label =>
    cases label with
    | sendDraft taskId draftSessionId draftRevisionId => cases hs
    | finishRewrite rewriteId draft ids handled taskMode =>
      simp only [Dispatches.step] at hs
      split at hs
      · cases hs
      · obtain ⟨rewrite, hrewrite, hs⟩ := bind_eq_some_iff.mp hs
        obtain ⟨s', hfinish, rfl⟩ := map_eq_some_iff.mp hs
        simp only [keepsTarget, hrewrite, all_some]
        exact stepKeeps_finishRewrite h hrewrite hfinish
    | confirmActiveDispatch taskId newPlanId planId draftRevisionId =>
      obtain ⟨s', hconfirm, rfl⟩ := map_eq_some_iff.mp hs
      exact stepKeeps_confirmActiveDispatch h hconfirm
    | appendAsrTurn input =>
      obtain ⟨s', hnext, rfl⟩ := map_eq_some_iff.mp hs
      exact stepKeeps_turn h rfl hnext
    | updateLiveDraft input sourceBoundary transcriptTimestampMs =>
      obtain ⟨s', hnext, rfl⟩ := map_eq_some_iff.mp hs
      exact stepKeeps_turn h rfl hnext
    | failRewrite rewriteId =>
      obtain ⟨s', hnext, rfl⟩ := map_eq_some_iff.mp hs
      have hmanager : s'.manager = d.drafts.manager := failRewrite_manager hnext
      change StepKeeps d.drafts.manager s'.manager _
      rw [hmanager]
      exact .same h id
    | markLiveCheckpoint sourceBoundary transcriptTimestampMs snapshotId =>
      cases hs
      exact stepKeeps_markLiveCheckpoint h _ _ _
    | clear =>
      cases hs
      exact stepKeeps_clear h
    | prepareTask taskId nodes =>
      obtain ⟨s', hnext, rfl⟩ := map_eq_some_iff.mp hs
      obtain ⟨send, -, hnext⟩ := bind_eq_some_iff.mp hnext
      obtain ⟨session, -, rfl⟩ := map_eq_some_iff.mp hnext
      exact .same h id
    | finishSend taskId =>
      obtain ⟨s', hnext, rfl⟩ := map_eq_some_iff.mp hs
      exact stepKeeps_finishSend h hnext
    | putPersona persona =>
      cases hs
      exact .same h id

end steps

/-! ## Runs -/

def noDrafts : Dispatches := ⟨emptyState, Table.empty, Table.empty⟩

theorem settled_noDrafts : Settled noDrafts.drafts.manager where
  activeLive := fun _ h => by cases h
  assigned := fun _ h => by cases h
  planned := fun _ h => by cases h

theorem settled_inductive (config : SessionConfig) :
    (dispatchSystem config).Inductive fun d => Settled d.drafts.manager where
  initially := by
    rintro d rfl
    exact settled_noDrafts
  preserved := fun _ _ _ h hs => (stepKeeps_step h hs).1

/-- In every state that a run goes through, a call whose rewriter raises leaves the active
session as it was exactly if it does not come to the rewriter, or its turn names no other Bro
than that session has. -/
theorem failed_rewrite_changes_nothing_iff (config : SessionConfig) (labels : List DispatchLabel) :
    (dispatchSystem config).Always
      (fun d => ∀ call, FailsCleanly config d.drafts call ↔
        (reachesRewriter d.drafts call = true → namesAnotherBro d.drafts call = false))
      noDrafts labels := by
  have hsettled : (dispatchSystem config).Always (fun d => Settled d.drafts.manager) noDrafts
      labels :=
    (System.along_true noDrafts labels).always settled_noDrafts fun s l s' h _ hs =>
      (settled_inductive config).preserved s l s' h hs
  refine hsettled.mono fun d h call => ?_
  exact failsCleanly_iff config h.activeLive call

/-- A turn for one Bro becomes a draft. The draft is what a rewriter that answers in plain text
leads to: its specification is formulated for nobody in particular. -/
def plainTextRun : List DispatchLabel :=
  [.draft (.appendAsrTurn
      { turnInput "rewrite-1" "draft-1" "asr-1" with assignedBroId := some "persona-1" }),
    .draft (.finishRewrite "rewrite-1" reviewDraft ⟨"rev-1", "snap-1", "plan-1"⟩ true none)]

def plainTextDrafts : Dispatches := (dispatchSystem codexSession).target noDrafts plainTextRun

theorem reachable_plainTextDrafts : (dispatchSystem codexSession).Reachable plainTextDrafts :=
  System.Reachable.target rfl plainTextRun

/-- A turn for another Bro, whose rewriter raises, leaves the old draft with that Bro. -/
theorem failed_rewrite_reassigns : ¬ ∀ (config : SessionConfig) (d : Dispatches) (call : Label),
      (dispatchSystem config).Reachable d → FailsCleanly config d.drafts call := by
  intro h
  let call : Label := .appendAsrTurn
    { turnInput "rewrite-2" "draft-2" "asr-2" with assignedBroId := some "persona-2" }
  have hclean := h codexSession plainTextDrafts call reachable_plainTextDrafts
  have hsettled := (settled_inductive codexSession).of_reachable reachable_plainTextDrafts
  have hkept := (failsCleanly_iff codexSession hsettled.activeLive call).mp hclean
    (by decide)
  have hnames : namesAnotherBro plainTextDrafts.drafts call = true := by decide
  rw [hnames] at hkept
  cases hkept

/-- A send goes to the Bro of its session, and to nobody else's persona. -/
structure Assigned (taskId : String) (session : DraftSession) (send : Send) : Prop where
  taskId : send.taskId = taskId
  draftSessionId : send.draftSessionId = session.id
  assigned : send.assignedBroId = session.assignedBroId
  persona : ∀ persona, send.persona = some persona → persona.personaId = session.assignedBroId

theorem personaForSend_ok {assignedBroId : String} {persona : Persona}
    (h : s.personaForSend assignedBroId = .ok (some persona)) :
    persona.personaId = assignedBroId := by
  unfold State.personaForSend at h
  split at h
  · split_ifs at h
    cases h
  · rename_i found hfound
    split_ifs at h
    cases h
    exact Table.key_of_get? hfound

theorem beginSend_assigned
    (hs : s.beginSend taskId draftSessionId draftRevisionId = .ok s')
    (hactive : s.manager.activeSession = some session) :
    ∃ send, s' = { s with sends := s.sends.put send } ∧ Assigned taskId session send := by
  unfold State.beginSend at hs
  cases hready : s.manager.readyToSend draftSessionId draftRevisionId with
  | error message =>
    rw [hready] at hs
    cases hs
  | ok ready =>
    have hstands := (DraftSessionManager.readyToSend_ok hready).active
    obtain ⟨found, draft, snapshot⟩ := ready
    obtain rfl : session = found := some.inj (hactive.symm.trans hstands)
    cases hpersona : s.personaForSend session.assignedBroId with
    | error message =>
      rw [hready] at hs
      simp only [bind, Except.bind, hpersona] at hs
      cases hs
    | ok persona =>
      rw [hready] at hs
      simp only [bind, Except.bind, hpersona, pure, Except.pure, Except.ok.injEq] at hs
      refine ⟨_, hs.symm, rfl, rfl, rfl, ?_⟩
      rintro found rfl
      exact personaForSend_ok hpersona

/-- What a confirmed plan must name, for the sessions that a run keeps. -/
theorem planNamesAssignee_iff (config : SessionConfig) (h : Settled s.manager) :
    PlanNamesAssignee config s ↔ Named s.manager := by
  constructor
  · intro hlaw session draft plan hactive hdraft hplan
    have hconfirmed := hlaw.plan session draft "" hactive hdraft
    rwa [planToConfirm, hplan] at hconfirmed
  · intro hn
    refine ⟨?_, ?_⟩
    · intro session draft newPlanId hactive hdraft
      have hplanned : session.currentDispatchPlan =
            some (planToConfirm config newPlanId session draft) ∨
          planToConfirm config newPlanId session draft =
            buildDispatchPlan newPlanId config.sessionId session draft := by
        unfold planToConfirm
        cases session.currentDispatchPlan with
        | none => exact .inr rfl
        | some plan => exact .inl rfl
      exact targetAgent_of_named h hn hactive hdraft hplanned
    · intro taskId newPlanId planId draftRevisionId s' send hconfirm hsend
      obtain ⟨hfresh, hconfirms⟩ := confirmActiveDispatch_spec hconfirm
      have hnone : s.sends.get? taskId = none := by
        simp only [State.freshTask, Bool.and_eq_true, Bool.not_eq_true'] at hfresh
        simpa [Table.contains] using hfresh.1
      cases hconfirms with
      | nothing hsame =>
        rw [hsame, hnone] at hsend
        cases hsend
      | plan session draft plan hactive hdraft hplanned hnext =>
        have htarget := targetAgent_of_named h hn hactive hdraft hplanned
        rcases hnext with rfl | ⟨-, hbegin⟩
        · cases hnone.symm.trans hsend
        · let confirmed := { plan with userConfirmed := true }
          have hnow := activeSession_putPlan confirmed hactive
          obtain ⟨begun, rfl, hbegun⟩ := beginSend_assigned hbegin hnow
          have hput := Table.get?_put_self (s.putPlan session confirmed).sends begun
          rw [hbegun.taskId] at hput
          obtain rfl := some.inj (hput.symm.trans hsend)
          have hplan : Dispatches.planOfSend { s.putPlan session confirmed with
              sends := (s.putPlan session confirmed).sends.put begun } taskId =
              some confirmed := by
            have hget := (DraftSessionManager.activeSession_spec hnow).2
            simp only [Dispatches.planOfSend, hput, bind_some, hbegun.draftSessionId, hget]
          refine ⟨confirmed, hplan, rfl, ?_, ?_⟩
          · exact htarget.trans hbegun.assigned.symm
          · intro persona hpersona
            exact (hbegun.persona persona hpersona).trans htarget.symm

/-- Throughout a run the plan that is confirmed names the Bro that gets the work exactly if no
turn gives a session that has a draft another Bro, unless a plan for that Bro is made with it,
and every specification that the rewriter returns names the Bro of its session. -/
theorem confirmed_plan_names_assignee_iff (config : SessionConfig) (labels : List DispatchLabel) :
    (dispatchSystem config).Always (fun d => PlanNamesAssignee config d.drafts) noDrafts labels ↔
      (dispatchSystem config).Along (fun d label => keepsTarget d label = true) noDrafts
        labels := by
  have hstart : Settled noDrafts.drafts.manager ∧ PlanNamesAssignee config noDrafts.drafts :=
    ⟨settled_noDrafts,
      (planNamesAssignee_iff config settled_noDrafts).mpr (named_of_no_active rfl)⟩
  have hsettled : (dispatchSystem config).Always (fun d => Settled d.drafts.manager) noDrafts
      labels :=
    (System.along_true noDrafts labels).always settled_noDrafts fun s l s' h _ hs =>
      (settled_inductive config).preserved s l s' h hs
  have hboth : (dispatchSystem config).Always
      (fun d => Settled d.drafts.manager ∧ PlanNamesAssignee config d.drafts) noDrafts labels ↔
      (dispatchSystem config).Along (fun d label => keepsTarget d label = true) noDrafts
        labels := by
    refine System.always_iff_along (Q := fun _ _ => True) ?_ hstart (System.along_true _ _)
    intro d label d' h _ hs
    have hn := (planNamesAssignee_iff config h.1).mp h.2
    obtain ⟨hsettled', hnamed'⟩ := stepKeeps_step h.1 hs
    rw [planNamesAssignee_iff config hsettled', and_iff_right hsettled']
    exact hnamed' hn
  rw [← hboth]
  constructor
  · exact fun h => hsettled.and h
  · exact fun h => h.mono fun _ => And.right

/-- The draft is for `persona-1`, and its plan names `codex`. -/
theorem plain_text_plan_names_codex :
    ¬ ∀ (config : SessionConfig) (labels : List DispatchLabel),
      (dispatchSystem config).Always (fun d => PlanNamesAssignee config d.drafts) noDrafts
        labels := by
  intro h
  have hrun : ((dispatchSystem codexSession).run noDrafts plainTextRun).isSome = true := by
    decide
  have hlaw := (h codexSession plainTextRun).at_end (System.run_eq_target hrun)
  have hsettled := (settled_inductive codexSession).of_reachable reachable_plainTextDrafts
  have hn : Named plainTextDrafts.drafts.manager :=
    (planNamesAssignee_iff codexSession hsettled).mp hlaw
  have hfound : ∃ session draft plan,
      plainTextDrafts.drafts.manager.activeSession = some session ∧
      session.currentDraft = some draft ∧ session.currentDispatchPlan = some plan ∧
      plan.targetAgent = "codex" ∧ session.assignedBroId = "persona-1" :=
    ⟨_, _, _, rfl, rfl, rfl, by decide, by decide⟩
  obtain ⟨session, draft, plan, hactive, hdraft, hplan, htarget, hbro⟩ := hfound
  have hnamed := hn session draft plan hactive hdraft hplan
  rw [htarget, hbro] at hnamed
  exact absurd hnamed (by decide)

/-- Whatever is said, edited, assigned and sent, the sessions are settled. -/
theorem drafts_stay_settled (config : SessionConfig) (labels : List DispatchLabel) :
    (dispatchSystem config).Always (fun d => Settled d.drafts.manager) noDrafts labels :=
  (settled_inductive config).always rfl

end Newbro.Drafts
