import Newbro.AnswerDelivery
import Newbro.OpenQuestions

/-!
# All or nothing

A call that raises before the request is written leaves everything as it was. Every later way
to raise comes too late: the request is resolved by then, and no step opens it again. So an
answer is all or nothing exactly if the way of each resolved request stays open to the end.
-/
namespace Newbro.AnswerDelivery

open Library Protocol InteractionRequests NativeRequests
  BroThreads OutboundTurns ExecutorNodes NodeRequests Option

/-- Every call that has raised left what it found. -/
def AllOrNothing (s : AnswerState) : Prop := ∀ call ∈ s.raised, call.after = call.before

/-! ## The open way -/

def Errand.isNative : Errand → Bool
  | .supplyResponse _ => true
  | _ => false

/-- The thread of an outbound turn takes an instruction: its persona is bound to a connected
node whose Codex takes follow-ups, and the thread is there with an active run or a handle to
resume it. -/
def takesFollowUp (s : AnswerState) (outbound : OutboundTurnRequest) : Bool :=
  (boundPersona s.board outbound.personaId).any fun bound =>
    s.manager.isExecutorConnected "codex" (some bound.2) && supportsFollowUp s bound.2 &&
      match resolveBroThreadTarget (broSession s) bound.1 outbound.targetThreadId with
      | .error _ => false
      | .ok target =>
        (activeCodexExecution s.board target.publicThreadId).isSome ||
          (latestResumeHandle target).isSome

/-- An answer that no native turn takes has somewhere to go. -/
def hasFollowUp (s : AnswerState) (request : InteractionRequest) : Bool :=
  match request.outboundTurnRequestId with
  | some outboundId => (s.turns.requests.get? outboundId).any (takesFollowUp s)
  | none => (request.taskId.bind s.board.getTask).isSome

/-- The way of a call is open as things stand: only the native turn may fail to be reached, and
then there is a follow-up, whose command gets through. -/
def AnswerCall.wayOpen (s : AnswerState) (call : AnswerCall) : Bool :=
  match call.stage with
  | .connecting errand => errand.isNative || (errandConnection s errand).isSome
  | .dropping errand => errand.isNative
  | .delivering => hasFollowUp s call.resolved.request
  | _ => true

def wayOpen (s : AnswerState) (label : Label) : Bool :=
  (label.callId?.bind s.calls.get?).all (AnswerCall.wayOpen s)

/-- An instruction is accepted exactly by a thread that takes it. -/
theorem submitTextInstruction_ok_iff (s : AnswerState) (outbound : OutboundTurnRequest) :
    (∃ submission, submitTextInstruction s outbound.personaId outbound.targetThreadId =
      .ok submission) ↔ takesFollowUp s outbound = true := by
  unfold submitTextInstruction takesFollowUp boundPersona
  cases s.board.getPersona outbound.personaId with
  | none => simp
  | some persona =>
    cases hnode : personaNode persona with
    | none => simp [hnode]
    | some nodeId =>
      simp only [hnode, bind_some, map_some, any_some, Bool.and_eq_true]
      split_ifs with hconnected hsupports
      · simp [hconnected]
      · simp [hsupports]
      · have hready : s.manager.isExecutorConnected "codex" (some nodeId) = true ∧
            supportsFollowUp s nodeId = true :=
          ⟨Bool.not_eq_false _ ▸ hconnected, Bool.not_eq_false _ ▸ hsupports⟩
        cases resolveBroThreadTarget (broSession s) persona outbound.targetThreadId with
        | error error => simp
        | ok target =>
          cases hactive : activeCodexExecution s.board target.publicThreadId with
          | some found => simp [hactive, hready]
          | none =>
            cases hhandle : latestResumeHandle target with
            | none => simp [hactive, hhandle]
            | some handle => simp [hactive, hhandle, hready]

/-! ## What a step may do to requests -/

/-- A request that takes no answer any more. -/
def Settled (b : Blackboard) (requestId : String) : Prop :=
  ∃ request, b.getRequest requestId = some request ∧ request.status ≠ .pending

/-- Every request offers the actions of its kind. -/
def OffersByKind (b : Blackboard) : Prop :=
  ∀ request ∈ b.requests.entries, request.availableActions = actionsForKind request.kind

/-- Settled requests stay settled, and requests offer what they should. -/
structure Onward (b b' : Blackboard) : Prop where
  settled : ∀ requestId, Settled b requestId → Settled b' requestId
  offers : OffersByKind b → OffersByKind b'

variable {b : Blackboard}

variable {b' : Blackboard}

theorem Onward.of_requests (h : b'.requests = b.requests) : Onward b b' where
  settled requestId hsettled := by
    obtain ⟨request, hget, hstatus⟩ := hsettled
    refine ⟨request, ?_, hstatus⟩
    rw [Blackboard.getRequest, h]
    exact hget
  offers hoffers := by
    intro request hr
    rw [h] at hr
    exact hoffers request hr

theorem Onward.refl (b : Blackboard) : Onward b b := .of_requests rfl

variable {request : InteractionRequest}

/-- A request may be put on the board when it is settled itself, or new. -/
theorem Onward.put
    (hoffers : request.availableActions = actionsForKind request.kind)
    (hnew : request.status ≠ .pending ∨ b.getRequest request.requestId = none) :
    Onward b (b.putInteractionRequest request) where
  settled requestId hsettled := by
    obtain ⟨old, hget, hstatus⟩ := hsettled
    have hafter : (b.putInteractionRequest request).getRequest requestId =
        if request.requestId = requestId then some request else b.getRequest requestId :=
      Table.get?_put ..
    by_cases hid : request.requestId = requestId
    · rw [if_pos hid] at hafter
      rcases hnew with hclosed | hfresh
      · exact ⟨request, hafter, hclosed⟩
      · rw [hid, hget] at hfresh
        cases hfresh
    · rw [if_neg hid] at hafter
      exact ⟨old, hafter.trans hget, hstatus⟩
  offers hall := by
    intro other hother
    rcases Table.mem_put.mp hother with rfl | ⟨hold, -⟩
    · exact hoffers
    · exact hall other hold

theorem settled_put (h : request.status ≠ .pending) :
    Settled (b.putInteractionRequest request) request.requestId :=
  ⟨request, (Table.get?_put ..).trans (if_pos rfl), h⟩

/-- A cancelled command settles the requests of its task, and changes nothing else of them. -/
theorem onward_finishCommand (b : Blackboard) (c : SessionCommands.CommandInFlight) :
    Onward b (SessionCommands.finishCommand b c) where
  settled requestId hsettled := by
    obtain ⟨request, hget, hstatus⟩ := hsettled
    have hafter := SessionRuntime.getRequest_finishCommand b c requestId
    rw [hget, map_some] at hafter
    split_ifs at hafter with hcancel
    · refine ⟨_, hafter, ?_⟩
      unfold SessionRuntime.cancelledRequest
      rw [if_neg fun hopen => hstatus hopen.2]
      exact hstatus
    · exact ⟨request, hafter, hstatus⟩
  offers hoffers := by
    intro request hr
    have hget : (SessionCommands.finishCommand b c).getRequest request.requestId = some request :=
      Table.get?_of_mem hr
    rw [SessionRuntime.getRequest_finishCommand] at hget
    split_ifs at hget with hcancel
    · obtain ⟨old, hold, rfl⟩ := map_eq_some_iff.mp hget
      have hoffered := hoffers old (Table.mem_of_get? hold)
      unfold SessionRuntime.cancelledRequest
      split_ifs
      · exact hoffered
      · exact hoffered
    · exact hoffers request (Table.mem_of_get? hget)

theorem onward_session {cfg : SessionCommands.Config} {s s' : SessionRuntime.SessionState}
    {label : SessionRuntime.Label} (h : SessionRuntime.step cfg s label = some s')
    (hraise : ∀ request, label ≠ .raiseRequest request)
    (hanswer : ∀ requestId answer, label ≠ .beginAnswer requestId answer) :
    Onward s.board s'.board := by
  by_cases hwrites : label.writesRequests = false
  · exact .of_requests (SessionRuntime.requests_step h hwrites)
  · cases label with
    | raiseRequest request => exact absurd rfl (hraise request)
    | beginAnswer requestId answer => exact absurd rfl (hanswer requestId answer)
    | finishCommand commandId =>
      obtain ⟨c, -, -, rfl⟩ := SessionRuntime.finishCommandStep_cases h
      exact onward_finishCommand s.board c
    | _ => exact absurd rfl hwrites

theorem onward_outboundBlocked (lower : String → String) {interactionId : String}
    (hfresh : b.getRequest interactionId = none) (outbound : OutboundTurnRequest)
    (event : CodexTurnEvent) :
    Onward b (handleOutboundCodexBlocked lower b interactionId outbound event) := by
  unfold handleOutboundCodexBlocked
  simp only
  cases blockedPrompt event with
  | none => exact .refl b
  | some prompt =>
    simp only
    split_ifs with hraise
    · exact .put rfl (.inr hfresh)
    · exact .refl b

/-- A step of the session that answers nothing. -/
theorem onward_snapshots {cfg : Snapshots.Config} {s s' : Snapshots.State}
    {label : Snapshots.Label} (h : (Snapshots.system cfg).step s label = some s')
    (hplain : isPlainAnswer label = false) : Onward s.session.board s'.session.board := by
  cases label with
  | session label =>
    have hraise : ∀ request, label ≠ .raiseRequest request := by
      rintro request rfl
      cases h
    have hanswer : ∀ requestId answer, label ≠ .beginAnswer requestId answer := by
      rintro requestId answer rfl
      cases hplain
    have hstep : (SessionRuntime.step cfg.session s.session label).map (fun session =>
        { s with session := session }) = some s' := by
      rw [← h]
      cases label <;> first | rfl | exact absurd rfl (hraise _)
    obtain ⟨session, hs, rfl⟩ := map_eq_some_iff.mp hstep
    exact onward_session hs hraise hanswer
  | requestFromRun interactionId runId =>
    obtain ⟨board, hb, rfl⟩ := map_eq_some_iff.mp h
    unfold Snapshots.requestFromRun at hb
    split at hb
    · cases hb
    · split at hb
      · cases hb
      · obtain ⟨-, -, -, hfresh, -, rfl⟩ := SessionRuntime.raiseRequest_cases hb
        exact .put rfl (.inr hfresh)
  | requestFromSummary interactionId taskId =>
    obtain ⟨board, hb, rfl⟩ := map_eq_some_iff.mp h
    unfold Snapshots.requestFromSummary at hb
    split at hb
    · obtain ⟨-, -, -, hfresh, -, rfl⟩ := SessionRuntime.raiseRequest_cases hb
      exact .put rfl (.inr hfresh)
    · cases hb
  | codexTurnEvent interactionId event =>
    simp only [Snapshots.system, Snapshots.step] at h
    split_ifs at h with hcontains
    obtain rfl := some.inj h
    have hfresh : s.session.board.getRequest interactionId = none := by
      simpa [Table.contains, Blackboard.getRequest] using hcontains
    unfold handleCodexTurnEvent
    simp only
    split
    · exact .refl _
    · exact onward_outboundBlocked cfg.lower hfresh ..
  | putTurnRequest | updateThreadTurns | setImportedThreads =>
    obtain rfl := some.inj h
    exact .refl _

/-! ## The first stretch -/

variable {args : AnswerArgs}

variable {render : Value → String} {resolved : Resolved}

/-- An answer is for an open request, which it resolves. -/
theorem resolve_cases
    (h : resolve render b args = .ok resolved) :
    ∃ request, b.getRequest args.requestId = some request ∧ request.status = .pending ∧
      args.action ∈ request.availableActions ∧
      (args.action = "answer" → Text.stripped? resolved.answerText ≠ none) ∧
      resolved.request.requestId = request.requestId ∧ resolved.request.status ≠ .pending ∧
      resolved.request.kind = request.kind ∧
      resolved.request.availableActions = request.availableActions := by
  unfold resolve at h
  cases hget : b.getRequest args.requestId with
  | none => simp [hget] at h
  | some request =>
    simp only [hget] at h
    split_ifs at h with hopen haction
    split at h
    · cases h
    · rename_i answerText answers hcontent
      split_ifs at h with hblank
      cases hstatus : resolvedStatusForAction args.action with
      | none => simp [hstatus] at h
      | some status =>
        simp only [hstatus, Except.ok.injEq] at h
        subst h
        refine ⟨request, rfl, not_not.mp hopen, haction, ?_, rfl, ?_, rfl, rfl⟩
        · intro hanswer hnone
          exact hblank ⟨hanswer, hnone⟩
        · rintro rfl
          unfold resolvedStatusForAction at hstatus
          split at hstatus <;> cases hstatus

/-- The instruction can always be built: a question takes an answer only with its text. -/
theorem buildFollowUpInstruction_ok
    (hoffers : OffersByKind b) (h : resolve render b args = .ok resolved) :
    ∃ followUp, buildFollowUpInstruction args resolved = .ok followUp := by
  obtain ⟨request, hget, -, haction, htext, -, -, hkind, -⟩ := resolve_cases h
  unfold buildFollowUpInstruction
  rw [if_neg]
  · exact ⟨_, rfl⟩
  · rintro ⟨hquestion, hnone⟩
    rw [hkind] at hquestion
    have hactions := hoffers request (Table.mem_of_get? hget)
    rw [hquestion] at hactions
    rw [hactions, actionsForKind, List.mem_singleton] at haction
    exact htext haction (by rw [hnone]; rfl)

/-! ## The calls under way -/

/-- The call has found its request open and has settled it. -/
structure CallSound (b : Blackboard) (call : AnswerCall) : Prop where
  found : call.before.requestStatus = some .pending
  settled : Settled b call.args.requestId
  closed : call.resolved.request.status ≠ .pending
  offers : call.resolved.request.availableActions = actionsForKind call.resolved.request.kind

structure Sound (s : AnswerState) : Prop where
  offers : OffersByKind s.board
  calls : ∀ call ∈ s.calls.entries, CallSound s.board call

variable {call : AnswerCall}

theorem CallSound.onward (h : CallSound b call)
    (hb : Onward b b') : CallSound b' call :=
  { h with settled := hb.settled _ h.settled }

/-- What a stretch does beside the call that it is of. -/
structure Quiet (s s' : AnswerState) : Prop where
  onward : Onward s.board s'.board
  calls : s'.calls = s.calls
  raised : s'.raised = s.raised

theorem Quiet.refl (s : AnswerState) : Quiet s s := ⟨.refl _, rfl, rfl⟩

variable {s s' : AnswerState}

theorem Quiet.of_board (hb : s'.board = s.board) (hc : s'.calls = s.calls)
    (hr : s'.raised = s.raised) : Quiet s s' :=
  ⟨.of_requests (congrArg Blackboard.requests hb), hc, hr⟩

theorem quiet_dropConnection (s : AnswerState) (websocket : String) :
    Quiet s (dropConnection s websocket) := by
  unfold dropConnection
  split
  · exact .refl s
  · exact .of_board rfl rfl rfl

theorem Sound.quiet (h : Sound s) (hq : Quiet s s') : Sound s' where
  offers := hq.onward.offers h.offers
  calls call hcall := (h.calls call (hq.calls ▸ hcall)).onward hq.onward

/-- A call waits at its next await, returns or raises; it raises exactly where its way is not
open. -/
inductive CallMove (s : AnswerState) (call : AnswerCall) : AnswerState → Prop
  | waits {s₁ : AnswerState} (stage : Stage) (quiet : Quiet s s₁)
      (opened : call.wayOpen s = true) : CallMove s call (s₁.setStage call stage)
  | returns {s₁ : AnswerState} (quiet : Quiet s s₁) (opened : call.wayOpen s = true) :
      CallMove s call (s₁.finish call)
  | raises {s₁ : AnswerState} (error : String) (quiet : Quiet s s₁)
      (shut : call.wayOpen s = false) : CallMove s call (s₁.failCall call error)

theorem notSent_move (errand : Errand)
    (hway : call.wayOpen s = errand.isNative) : CallMove s call (notSent s call errand) := by
  cases errand with
  | supplyResponse nodeId => exact .waits _ (.refl s) hway
  | startTurn outbound => exact .raises _ (.of_board rfl rfl rfl) hway
  | dispatchInstruction nodeId => exact .raises _ (.refl s) hway

/-- The native turn's answer puts the settled request on the board again. -/
theorem answered_move (cfg : Config)
    (h : CallSound s.board call) (now : String) (hway : call.wayOpen s = true) :
    CallMove s call (answered cfg s call now) :=
  .returns ⟨.put h.offers (.inl h.closed), rfl, rfl⟩ hway

theorem requeueTask_returns (s : AnswerState) (call : AnswerCall) :
    ∃ s₁, Quiet s s₁ ∧ requeueTask s call = s₁.finish call := by
  unfold requeueTask
  simp only
  split
  · exact ⟨s, .refl s, rfl⟩
  · rename_i task htask
    have hrequests : (queueFollowUp s.board task call.resolved.request
        (followUpAnswer call.args call.resolved)).requests = s.board.requests :=
      SessionRuntime.queueFollowUp_frame Blackboard.requests (fun _ _ => rfl) (fun _ _ => rfl)
        (fun _ _ => rfl) (fun _ _ => rfl) ..
    exact ⟨s.setBoard _, ⟨.of_requests hrequests, rfl, rfl⟩, rfl⟩

theorem requests_captureResumeHandle (cfg : Config) (s : AnswerState)
    (request : InteractionRequest) (executionSessionId threadId : String) :
    (captureResumeHandle cfg s request executionSessionId threadId).requests =
      s.board.requests := by
  unfold captureResumeHandle
  simp only
  split_ifs
  · exact SessionRuntime.capturePauseResumeHandle_frame Blackboard.requests (fun _ _ => rfl) ..
  · split
    · split_ifs
      · rfl
      · rfl
    · rfl

theorem spawnFollowUp_move {outboundId : String}
    {ids : FreshIds} (h : spawnFollowUp s call outboundId ids = some s')
    (hway : call.wayOpen s = (s.turns.requests.get? outboundId).any (takesFollowUp s)) :
    CallMove s call s' := by
  unfold spawnFollowUp at h
  cases hget : s.turns.requests.get? outboundId with
  | none =>
    simp only [hget] at h hway
    obtain rfl := some.inj h
    exact .raises _ (.refl s) hway
  | some outbound =>
    simp only [hget, any_some] at h hway
    have haccepted := submitTextInstruction_ok_iff s outbound
    cases hsubmit : submitTextInstruction s outbound.personaId outbound.targetThreadId with
    | error error =>
      simp only [hsubmit] at h
      obtain rfl := some.inj h
      have hrefused : takesFollowUp s outbound = false := by
        rw [Bool.eq_false_iff, ne_eq, ← haccepted, hsubmit]
        rintro ⟨submission, hok⟩
        cases hok
      exact .raises _ (.refl s) (hway.trans hrefused)
    | ok submission =>
      have hopen : call.wayOpen s = true := hway.trans (haccepted.mp ⟨submission, hsubmit⟩)
      simp only [hsubmit] at h
      cases submission with
      | followUp nodeId taskId =>
        obtain rfl := some.inj h
        refine .waits _ ⟨.of_requests ?_, rfl, rfl⟩ hopen
        cases s.board.getTask taskId with
        | none => rfl
        | some task => rfl
      | newTurn persona target =>
        simp only at h
        split_ifs at h
        obtain rfl := some.inj h
        exact .waits _ (.of_board rfl rfl rfl) hopen

theorem followUpRun_move (cfg : Config)
    (hway : call.wayOpen s = (call.resolved.request.taskId.bind s.board.getTask).isSome) :
    CallMove s call (followUpRun cfg s call) := by
  unfold followUpRun
  simp only
  cases htaskId : call.resolved.request.taskId with
  | none =>
    rw [htaskId] at hway
    exact .raises _ (.refl s) hway
  | some taskId =>
    rw [htaskId, bind_some] at hway
    simp only
    split_ifs with hmissing
    · refine .raises _ (.refl s) (hway.trans ?_)
      simpa using hmissing
    · have hopen : call.wayOpen s = true := by
        rw [hway]
        simpa [isSome_iff_ne_none] using hmissing
      cases codexSession s call.resolved.request with
      | none =>
        obtain ⟨s₁, hquiet, hs₁⟩ := requeueTask_returns s call
        simp only [hs₁]
        exact .returns hquiet hopen
      | some found =>
        exact .waits _ ⟨.of_requests (requests_captureResumeHandle ..), rfl, rfl⟩ hopen

variable {cfg : Config} {label : Label}

/-- What one stretch of a call comes to. -/
theorem callStep_move (hsound : CallSound s.board call) (h : callStep cfg s call label = some s') :
    CallMove s call s' := by
  cases label with
  | readConnection callId =>
    simp only [callStep, readConnection] at h
    split at h
    · rename_i errand hstage
      cases hconnection : errandConnection s errand with
      | none =>
        simp only [hconnection] at h
        obtain rfl := some.inj h
        exact notSent_move errand (by simp [AnswerCall.wayOpen, hstage, hconnection])
      | some c =>
        simp only [hconnection] at h
        obtain rfl := some.inj h
        exact .waits _ (.refl s) (by simp [AnswerCall.wayOpen, hstage, hconnection])
    · cases h
  | sent callId now =>
    simp only [callStep, sent] at h
    split at h
    · rename_i hstage
      obtain rfl := some.inj h
      exact answered_move cfg hsound now (by simp [AnswerCall.wayOpen, hstage])
    · rename_i hstage
      obtain rfl := some.inj h
      exact .returns (.of_board rfl rfl rfl) (by simp [AnswerCall.wayOpen, hstage])
    · rename_i hstage
      obtain rfl := some.inj h
      exact .returns (.refl s) (by simp [AnswerCall.wayOpen, hstage])
    · cases h
  | sendFails callId =>
    simp only [callStep, sendFails] at h
    split at h
    · rename_i websocket hstage
      obtain rfl := some.inj h
      exact .waits _ (quiet_dropConnection s websocket) (by simp [AnswerCall.wayOpen, hstage])
    · cases h
  | dropped callId =>
    simp only [callStep, dropped] at h
    split at h
    · rename_i errand hstage
      obtain rfl := some.inj h
      exact notSent_move errand (by simp [AnswerCall.wayOpen, hstage])
    · cases h
  | responded callId ok now =>
    simp only [callStep, responded] at h
    split at h
    · rename_i hstage
      have hopen : call.wayOpen s = true := by simp [AnswerCall.wayOpen, hstage]
      obtain rfl := some.inj h
      cases ok with
      | true => exact answered_move cfg hsound now hopen
      | false => exact .waits _ (.refl s) hopen
    · cases h
  | deliver callId ids =>
    simp only [callStep, deliver] at h
    split at h
    · rename_i hstage
      have hway : call.wayOpen s = hasFollowUp s call.resolved.request := by
        simp [AnswerCall.wayOpen, hstage]
      unfold hasFollowUp at hway
      split at h
      · rename_i outboundId houtbound
        rw [houtbound] at hway
        exact spawnFollowUp_move h hway
      · rename_i houtbound
        rw [houtbound] at hway
        obtain rfl := some.inj h
        exact followUpRun_move cfg hway
    · cases h
  | detached callId =>
    simp only [callStep, detached] at h
    split at h
    · rename_i hstage
      obtain rfl := some.inj h
      obtain ⟨s₁, hquiet, hs₁⟩ := requeueTask_returns _ call
      rw [hs₁]
      refine .returns ⟨?_, hquiet.calls, hquiet.raised⟩ (by simp [AnswerCall.wayOpen, hstage])
      exact hquiet.onward
    · cases h
  | _ => cases h

/-! ## Every step -/

/-- A step beside the calls, a stretch of a call, or a call that begins: it is refused, or it
settles its request. -/
inductive StepMove (s : AnswerState) (label : Label) : AnswerState → Prop
  | beside {s' : AnswerState} (quiet : Quiet s s') (opened : wayOpen s label = true) :
      StepMove s label s'
  | stretch {s' : AnswerState} (call : AnswerCall) (under : call ∈ s.calls.entries)
      (move : CallMove s call s') (way : wayOpen s label = call.wayOpen s) : StepMove s label s'
  | refused (args : AnswerArgs) (error : String) (opened : wayOpen s label = true) :
      StepMove s label (s.fail args (s.view args.requestId) error)
  | begun {s₁ : AnswerState} (call : AnswerCall) (quiet : Quiet s s₁)
      (sound : CallSound s₁.board call) (opened : wayOpen s label = true) :
      StepMove s label { s₁ with calls := s₁.calls.put call }

theorem sessionStep_quiet {label : Snapshots.Label}
    {attentionId : String} (h : sessionStep cfg s label attentionId = some s') : Quiet s s' := by
  unfold sessionStep at h
  split_ifs at h with hguard
  obtain ⟨state, hstate, rfl⟩ := map_eq_some_iff.mp h
  rw [Bool.or_eq_true, not_or] at hguard
  exact ⟨onward_snapshots hstate (Bool.eq_false_iff.mpr hguard.1), rfl, rfl⟩

theorem beginAnswer_move {callId : String} (hoffers : OffersByKind s.board)
    (h : beginAnswer cfg s callId args = some s') : StepMove s (.beginAnswer callId args) s' := by
  unfold beginAnswer at h
  split_ifs at h
  cases hresolve : resolve cfg.render s.board args with
  | error error =>
    simp only [hresolve] at h
    obtain rfl := some.inj h
    exact .refused args error rfl
  | ok resolved =>
    obtain ⟨request, hget, hpending, -, -, hid, hclosed, hkind, hactions⟩ :=
      resolve_cases hresolve
    obtain ⟨followUp, hfollowUp⟩ := buildFollowUpInstruction_ok hoffers hresolve
    simp only [hresolve, hfollowUp] at h
    obtain rfl := some.inj h
    have hoffered : resolved.request.availableActions = actionsForKind resolved.request.kind := by
      rw [hactions, hkind]
      exact hoffers request (Table.mem_of_get? hget)
    have hsame : resolved.request.requestId = args.requestId :=
      hid.trans (Table.key_of_get? hget)
    have hsettled := settled_put (b := s.board) hclosed
    rw [hsame] at hsettled
    have hfound : (s.view args.requestId).requestStatus = some .pending := by
      simp only [AnswerState.view, hget, map_some, hpending]
    have hquiet : Quiet s { s.setBoard (s.board.putInteractionRequest resolved.request) with
        attention := markAttention s.attention args.requestId .acted } :=
      ⟨.put hoffered (.inl hclosed), rfl, rfl⟩
    exact .begun _ hquiet ⟨hfound, hsettled, hclosed, hoffered⟩ rfl

theorem step_move (hs : Sound s) (h : step cfg s label = some s') : StepMove s label s' := by
  have hcall : ∀ callId, label.callId? = some callId →
      ((s.calls.get? callId).bind fun call => callStep cfg s call label) = some s' →
        StepMove s label s' := by
    intro callId hlabel hstep
    obtain ⟨call, hget, hstretch⟩ := bind_eq_some_iff.mp hstep
    have hunder := Table.mem_of_get? hget
    have hway : wayOpen s label = call.wayOpen s := by simp [wayOpen, hlabel, hget]
    exact .stretch call hunder (callStep_move (hs.calls call hunder) hstretch) hway
  cases label with
  | session label attentionId => exact .beside (sessionStep_quiet h) rfl
  | register connection takesFollowUps =>
    obtain ⟨manager, -, rfl⟩ := map_eq_some_iff.mp h
    exact .beside (.of_board rfl rfl rfl) rfl
  | disconnect websocket =>
    obtain rfl := some.inj h
    exact .beside (quiet_dropConnection s websocket) rfl
  | beginAnswer callId args => exact beginAnswer_move hs.offers h
  | fileRun | dropRun | openCodex | closeCodex =>
    obtain rfl := some.inj h
    exact .beside (.of_board rfl rfl rfl) rfl
  | _ => exact hcall _ rfl h

theorem sound_setStage (h : Sound s)
    (hcall : CallSound s.board call) (stage : Stage) : Sound (s.setStage call stage) where
  offers := h.offers
  calls other hother := by
    rcases Table.mem_put.mp hother with rfl | ⟨hold, -⟩
    · exact { hcall with }
    · exact h.calls other hold

theorem sound_finish (h : Sound s) (call : AnswerCall) :
    Sound (s.finish call) where
  offers := h.offers
  calls other hother := h.calls other (Table.mem_erase.mp hother).1

theorem sound_step (hs : Sound s) (h : step cfg s label = some s') : Sound s' := by
  cases step_move hs h with
  | beside quiet => exact hs.quiet quiet
  | stretch call hunder move =>
    cases move with
    | waits stage quiet =>
      have hafter := hs.quiet quiet
      exact sound_setStage hafter ((hs.calls call hunder).onward quiet.onward) stage
    | returns quiet => exact sound_finish (hs.quiet quiet) call
    | raises error quiet =>
      have hafter := sound_finish (hs.quiet quiet) call
      exact ⟨hafter.offers, hafter.calls⟩
  | refused => exact ⟨hs.offers, hs.calls⟩
  | begun call quiet sound =>
    have hafter := hs.quiet quiet
    refine ⟨hafter.offers, fun other hother => ?_⟩
    rcases Table.mem_put.mp hother with rfl | ⟨hold, -⟩
    · exact sound
    · exact hafter.calls other hold

/-- A step keeps answers all or nothing exactly if it finds the way of its call open. -/
theorem allOrNothing_step_iff (hs : Sound s)
    (hall : AllOrNothing s) (h : step cfg s label = some s') :
    AllOrNothing s' ↔ wayOpen s label = true := by
  cases step_move hs h with
  | beside quiet opened =>
    refine iff_of_true ?_ opened
    unfold AllOrNothing
    rw [quiet.raised]
    exact hall
  | refused args error opened =>
    refine iff_of_true (fun call hcall => ?_) opened
    rcases List.mem_append.mp hcall with hold | hnew
    · exact hall call hold
    · rw [List.mem_singleton.mp hnew]
  | begun call quiet sound opened =>
    refine iff_of_true (fun raised hraised => hall raised ?_) opened
    rw [← quiet.raised]
    exact hraised
  | stretch call hunder move way =>
    rw [way]
    cases move with
    | waits stage quiet opened =>
      refine iff_of_true (fun raised hraised => hall raised ?_) opened
      rw [← quiet.raised]
      exact hraised
    | returns quiet opened =>
      refine iff_of_true (fun raised hraised => hall raised ?_) opened
      rw [← quiet.raised]
      exact hraised
    | @raises s₁ error quiet shut =>
      refine iff_of_false (fun hafter => ?_) (by simp [shut])
      -- the request was open when the call began, and it is settled for good by now
      have hcall := hs.calls call hunder
      obtain ⟨request, hget, hstatus⟩ := quiet.onward.settled _ hcall.settled
      have hsame : s₁.view call.args.requestId = call.before :=
        hafter ⟨call.args, error, call.before, s₁.view call.args.requestId⟩
          (List.mem_append_right _ (List.mem_singleton.mpr rfl))
      have hreopened : (s₁.view call.args.requestId).requestStatus = some .pending := by
        rw [hsame]
        exact hcall.found
      rw [AnswerState.view, hget, map_some] at hreopened
      exact hstatus (some.inj hreopened)

theorem sound_newState (sessionId owner : String) : Sound (newState sessionId owner) where
  offers request hr := by cases hr
  calls call hcall := by cases hcall

/-- In a run every call that raises leaves what it found exactly if each stretch of each call
finds its way open. -/
theorem answers_all_or_nothing_iff (cfg : Config) (sessionId owner : String)
    (labels : List Label) :
    (system cfg).Always AllOrNothing (newState sessionId owner) labels ↔
      (system cfg).Along (fun s label => wayOpen s label = true) (newState sessionId owner)
        labels := by
  have hinitial : Sound (newState sessionId owner) ∧ AllOrNothing (newState sessionId owner) :=
    ⟨sound_newState sessionId owner, fun call hcall => by cases hcall⟩
  have hiff := System.always_iff_along (M := system cfg)
    (I := fun s => Sound s ∧ AllOrNothing s) (C := fun s label => wayOpen s label = true)
    (Q := fun _ _ => True)
    (fun s label s' hI _ hs => by
      have hkeeps := allOrNothing_step_iff hI.1 hI.2 hs
      exact ⟨fun h => hkeeps.mp h.2, fun h => ⟨sound_step hI.1 hs, hkeeps.mpr h⟩⟩)
    hinitial (System.along_true (newState sessionId owner) labels)
  have hsound : (system cfg).Always Sound (newState sessionId owner) labels :=
    (System.along_true (newState sessionId owner) labels).always hinitial.1
      fun _ _ _ hs _ h => sound_step hs h
  rw [← hiff]
  exact ⟨fun h => hsound.and h, fun h => h.mono fun _ hI => hI.2⟩

/-! ## An answer that is lost

A turn asks a question, its node goes away, and the user answers. -/

def smallConfig : Config := ⟨⟨SessionRuntime.codexConfig, id⟩, fun _ => ""⟩

def askingTurn : OutboundTurnRequest :=
  { requestId := "out-turn-1"
    personaId := "bro-1"
    executorId := "codex"
    executorNodeId := "node-1"
    targetThreadId := some "bro-thread-1"
    clientRequestId := none
    inputModality := .text
    text := some "Fix the build"
    audioInstructionId := none
    instructionId := .str "txt-1"
    status := .accepted
    error := none
    executorThreadId := none
    executorTurnId := none }

def questionEvent : CodexTurnEvent :=
  { requestId := "out-turn-1"
    nodeId := "node-1"
    targetPersonaId := "bro-1"
    targetThreadId := "bro-thread-1"
    eventType := "blocked"
    message := some "Which branch?"
    executorThreadId := some "codex-thread-1"
    executorTurnId := none
    ok := true
    error := none
    metadata := BlockedRequests.metadataOf
      [("interaction_kind", .str "question"),
        ("native_response", .dict [("request_id", .int 1),
          ("method", .str "item/tool/requestUserInput"), ("params", .dict [])])] }

def lostAnswerLabels : List Label :=
  [.session (.session (.syncPersonas (Table.empty.put
      { personaId := "bro-1", name := "Bro", executorNodeId := some "node-1" }))) "attention-1",
    .register ⟨"node-1", "websocket-1", ["codex"]⟩ true,
    .session (.putTurnRequest askingTurn) "attention-1",
    .session (.codexTurnEvent "ireq-1" questionEvent) "attention-1",
    .disconnect "websocket-1",
    .beginAnswer "call-1"
      { requestId := "ireq-1", action := "answer", answerText := some "main" },
    .readConnection "call-1",
    .deliver "call-1" ⟨"out-turn-2", "txt-2", "2025-01-01T00:00:00"⟩]

/-- The status of the request before and after each call that has raised. -/
def raisedStatuses (s : AnswerState) :
    List (Option InteractionRequestStatus × Option InteractionRequestStatus) :=
  s.raised.map fun call => (call.before.requestStatus, call.after.requestStatus)

/-- The user is told that the node is gone, and cannot answer again. -/
theorem answer_is_lost :
    ¬ ∀ (cfg : Config) (s : AnswerState), (system cfg).Reachable s → AllOrNothing s := by
  intro h
  have hlost : ((system smallConfig).run (newState "session-1" "user-1") lostAnswerLabels).map
      raisedStatuses = some [(some .pending, some .answered)] := by decide
  obtain ⟨s, hs, hstatuses⟩ := map_eq_some_iff.mp hlost
  have hlaw := h smallConfig s (System.Reachable.of_run ⟨_, _, rfl⟩ hs)
  have hmem : (some InteractionRequestStatus.pending, some InteractionRequestStatus.answered) ∈
      raisedStatuses s := by simp [hstatuses]
  obtain ⟨call, hcall, heq⟩ := List.mem_map.mp hmem
  rw [hlaw call hcall, Prod.mk.injEq] at heq
  rw [heq.1, some.injEq] at heq
  exact absurd heq.2 (by decide)

end Newbro.AnswerDelivery
