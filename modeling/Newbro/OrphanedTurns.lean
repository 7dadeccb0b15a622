import Newbro.TurnRecords

/-!
# Turns that outlive their connection

The cleanup after a lost connection looks at runs. A turn that was started over the connection
keeps its status: its node has cancelled it, and no event of it will come.
-/
namespace Newbro.TurnStarts

open Library Protocol ExecutorNodes OutboundTurns Table

def isLive (status : OutboundStatus) : Bool := status = .accepted || status = .running

/-- The request was started over the connection that its node has now. -/
def overCurrent (s : TurnState) (request : OutboundTurnRequest) : Bool :=
  (s.manager.connectionsByNode.get? request.executorNodeId).any fun c =>
    s.startedOver.lookup request.requestId = some c.websocket

/-- No coroutine of the control plane has a stretch to run, no message is under way, and the
node of a closed connection has cancelled its turns. -/
def Link.atRest (link : Link) : Bool :=
  match link.phase with
  | .receiving => link.inbox.isEmpty && link.commands.isEmpty
  | .closed => link.turns.isEmpty && link.commands.isEmpty
  | _ => false

def noStepPending (s : TurnState) : Bool :=
  s.starts.entries.isEmpty && s.links.entries.all Link.atRest

/-- With no step pending, each turn that is live was started over the current connection of
its node. -/
def NoOrphans (s : TurnState) : Prop :=
  noStepPending s = true → ∀ request ∈ s.turns.requests.entries,
    isLive request.status = true → overCurrent s request = true

instance (s : TurnState) : Decidable (NoOrphans s) := inferInstanceAs (Decidable (_ → _))

/-! ## The condition -/

/-- The last write of `start_turn` is still to come. -/
def inFlight (s : TurnState) (request : OutboundTurnRequest) : Bool :=
  s.starts.contains request.requestId

/-- An event that ends the request is being handled. -/
def isEnding (lower : String → String) (s : TurnState) (request : OutboundTurnRequest) : Bool :=
  s.links.entries.any fun link =>
    match link.phase with
    | .handling event => event.requestId = request.requestId && answersRequest request event &&
        !isLive (outboundStatusOf lower event)
    | _ => false

/-- The turns that were started over a connection have ended, or are about to. -/
def turnsEnd (lower : String → String) (s : TurnState) (websocket : String) : Bool :=
  s.turns.requests.entries.all fun request =>
    !isLive request.status || s.startedOver.lookup request.requestId ≠ some websocket ||
      inFlight s request || isEnding lower s request

/-- A connection is given up only when its turns have ended, and no turn is made live after its
connection has been given up. -/
def losesNoTurn (lower : String → String) (s : TurnState) : Label → Bool
  | .sent requestId => (s.starts.get? requestId).all fun start => overCurrent s start.request
  | .sendFails requestId => (s.starts.get? requestId).all fun start =>
    match start.stage with
    | .sending websocket => turnsEnd lower s websocket
    | _ => true
  | .otherSendFails websocket => turnsEnd lower s websocket
  | .endpointEnds websocket => turnsEnd lower s websocket
  | .handle websocket _ => (s.links.get? websocket).all fun link =>
    match link.phase with
    | .handling event => (requestOf s event).all fun request =>
      !isLive (outboundStatusOf lower event) || inFlight s request ||
        s.manager.nodeIdForWebsocket websocket = some event.nodeId
    | _ => true
  | _ => true

variable {request : OutboundTurnRequest} {link : Link}

section orphans

variable {lower : String → String} {s s' : TurnState}

theorem overCurrent_iff : overCurrent s request = true ↔
      ∃ c, s.manager.connectionsByNode.get? request.executorNodeId = some c ∧
        s.startedOver.lookup request.requestId = some c.websocket := by
  simp [overCurrent, Option.any_eq_true]

theorem isEnding_iff : isEnding lower s request = true ↔
      ∃ link ∈ s.links.entries, ∃ event, link.phase = .handling event ∧
        event.requestId = request.requestId ∧ answersRequest request event = true ∧
        isLive (outboundStatusOf lower event) = false := by
  rw [isEnding, List.any_eq_true]
  refine exists_congr fun link => and_congr_right fun _ => ?_
  cases link.phase <;> simp [and_assoc]

/-- A live request is over the current connection, or something is still to come for it. -/
def Covered (lower : String → String) (s : TurnState) (request : OutboundTurnRequest) : Prop :=
  overCurrent s request = true ∨ inFlight s request = true ∨ isEnding lower s request = true

def AllCovered (lower : String → String) (s : TurnState) : Prop :=
  ∀ request ∈ s.turns.requests.entries, isLive request.status = true → Covered lower s request

/-- At rest nothing is to come. -/
theorem AllCovered.noOrphans (h : AllCovered lower s) : NoOrphans s := by
  intro hrest request hmem hlive
  obtain ⟨hstarts, hlinks⟩ := (Bool.and_eq_true _ _).mp hrest
  rcases h request hmem hlive with hover | hflight | hending
  · exact hover
  · exfalso
    obtain ⟨start, hstart⟩ := Option.isSome_iff_exists.mp hflight
    have hmem := mem_of_get? hstart
    rw [List.isEmpty_iff.mp hstarts] at hmem
    cases hmem
  · exfalso
    obtain ⟨link, hlink, event, hphase, -⟩ := isEnding_iff.mp hending
    have hlinkRest := List.all_eq_true.mp hlinks link hlink
    simp [Link.atRest, hphase] at hlinkRest

/-- The endpoints that handle an event still do. -/
def HandlingKept (s s' : TurnState) : Prop :=
  ∀ link ∈ s.links.entries, ∀ event, link.phase = .handling event →
    ∃ link' ∈ s'.links.entries, link'.phase = .handling event

theorem HandlingKept.put {link' : Link} (hlink : s.links.get? link.websocket = some link)
    (hs : s'.links = s.links.put link') (hws : link.websocket = link'.websocket)
    (hphase : ∀ event, link.phase = .handling event → link'.phase = .handling event) :
    HandlingKept s s' := by
  intro other hmem event hother
  by_cases hsame : other = link
  · subst hsame
    exact ⟨link', hs ▸ mem_put.mpr (.inl rfl), hphase event hother⟩
  · refine ⟨other, hs ▸ ?_, hother⟩
    exact mem_put_of_ne link (hws ▸ hlink) hmem hsame

theorem LinkMove.handling {m : NodeManager} {link' : Link} {l : Label}
    (h : LinkMove m link l link') (event : CodexTurnEvent) (hevent : link.phase = .handling event) :
    link'.phase = .handling event := by
  cases h <;> simp_all

theorem Covered.frame {request' : OutboundTurnRequest} (h : Covered lower s request)
    (hover : overCurrent s request = true → overCurrent s' request' = true)
    (hstarts : inFlight s request = true → inFlight s' request' = true)
    (hending : isEnding lower s request = true → isEnding lower s' request' = true) :
    Covered lower s' request' :=
  h.imp hover (Or.imp hstarts hending)

theorem isEnding_of_handlingKept (h : HandlingKept s s')
    (hending : isEnding lower s request = true) : isEnding lower s' request = true := by
  obtain ⟨link, hmem, event, hphase, hrest⟩ := isEnding_iff.mp hending
  obtain ⟨link', hmem', hphase'⟩ := h link hmem event hphase
  exact isEnding_iff.mpr ⟨link', hmem', event, hphase', hrest⟩

theorem overCurrent_congr (hmanager : s'.manager = s.manager)
    (hover : s'.startedOver.lookup request.requestId = s.startedOver.lookup request.requestId) :
    overCurrent s' request = overCurrent s request := by
  rw [overCurrent, overCurrent, hmanager, hover]

/-- Giving up a connection whose turns have ended leaves every live turn covered. -/
theorem covered_dropConnection {websocket : String}
    (hmem : request ∈ s.turns.requests.entries) (hlive : isLive request.status = true)
    (hturns : turnsEnd lower s websocket = true) (h : Covered lower s request) :
    Covered lower (dropConnection s websocket) request := by
  rw [dropConnection_eq]
  rcases h with hover | hrest
  · obtain ⟨c, hget, hstarted⟩ := overCurrent_iff.mp hover
    by_cases hws : c.websocket = websocket
    · have hend := List.all_eq_true.mp hturns request hmem
      rw [hlive, hstarted, hws] at hend
      have hcome : inFlight s request = true ∨ isEnding lower s request = true := by
        simpa using hend
      exact .inr hcome
    · left
      refine overCurrent_iff.mpr ⟨c, ?_, hstarted⟩
      show (managerWithout s.manager websocket).connectionsByNode.get? _ = some c
      unfold managerWithout NodeManager.popConnection
      cases hnode : s.manager.nodeIdForWebsocket websocket with
      | none => exact hget
      | some nodeId =>
        obtain ⟨c', hget', hws'⟩ := nodeIdForWebsocket_spec hnode
        have hne : nodeId ≠ request.executorNodeId := by
          rintro rfl
          rw [hget] at hget'
          cases hget'
          exact hws hws'
        exact (Table.get?_erase_of_ne _ hne).trans hget
  · exact .inr hrest

/-- The write that ends a coroutine: it fails the request, or this is over the current
connection of its node. -/
theorem AllCovered.finishStart {start : TurnStart} {status : OutboundStatus}
    {error : Option String} (h : AllCovered lower s)
    (hown : isLive status = true → overCurrent s start.request = true) :
    AllCovered lower (finishStart s start status error) := by
  intro request hmem hlive
  rcases mem_put.mp hmem with rfl | ⟨hmem, hne⟩
  · exact .inl (hown hlive)
  · refine (h request hmem hlive).frame id (fun hflight => ?_) id
    show ((s.starts.erase start.requestId).get? request.requestId).isSome = true
    rw [Table.get?_erase_of_ne]
    · exact hflight
    · exact fun hid => hne hid.symm

theorem AllCovered.handle {event : CodexTurnEvent} {interactionId : String}
    (hwired : Wired s) (h : AllCovered lower s)
    (hlink : s.links.get? link.websocket = some link) (hphase : link.phase = .handling event)
    (hcond : ∀ request, requestOf s event = some request →
      isLive (outboundStatusOf lower event) = true → inFlight s request = false →
        s.manager.nodeIdForWebsocket link.websocket = some event.nodeId) :
    AllCovered lower { (s.record lower event).putLink { link with phase := .receiving } with
      board := (handleCodexTurnEvent lower s.board s.turns interactionId event).1
      turns := (handleCodexTurnEvent lower s.board s.turns interactionId event).2 } := by
  intro request hmem hlive
  change request ∈ (handleCodexTurnEvent _ _ _ _ _).2.requests.entries at hmem
  -- a request that the event is not for stays as it is
  have hother : request ∈ s.turns.requests.entries → (∀ r, requestOf s event = some r →
      request.requestId ≠ r.requestId) → Covered lower
        { (s.record lower event).putLink { link with phase := .receiving } with
          board := (handleCodexTurnEvent lower s.board s.turns interactionId event).1
          turns := (handleCodexTurnEvent lower s.board s.turns interactionId event).2 }
        request := by
    intro hmem hne
    refine (h request hmem hlive).frame id id fun hending => ?_
    obtain ⟨link', hmem', event', hphase', hid, hanswers, hend⟩ := isEnding_iff.mp hending
    have hdiff : link' ≠ link := by
      rintro rfl
      rw [hphase] at hphase'
      cases hphase'
      refine hne request ?_ rfl
      rw [requestOf, hid, Table.get?_of_mem hmem]
      simp [hanswers]
    refine isEnding_iff.mpr ⟨link', ?_, event', hphase', hid, hanswers, hend⟩
    exact mem_put_of_ne (v := { link with phase := .receiving }) link hlink hmem' hdiff
  rw [requests_handleCodexTurnEvent] at hmem
  cases hrequest : requestOf s event with
  | none =>
    rw [hrequest] at hmem
    exact hother hmem fun r hr => by rw [hrequest] at hr; cases hr
  | some own =>
    rw [hrequest] at hmem
    rcases mem_put.mp hmem with rfl | ⟨hmem, hne⟩
    · cases hflight : inFlight s own with
      | true => exact .inr (.inl hflight)
      | false =>
        left
        obtain ⟨c, hget, hws⟩ := nodeIdForWebsocket_spec (hcond own hrequest hlive hflight)
        obtain ⟨hid, -, hanswers⟩ := requestOf_eq_some hrequest
        have hnode : own.executorNodeId = event.nodeId := by
          simp only [answersRequest, Bool.and_eq_true, decide_eq_true_eq] at hanswers
          exact hanswers.1.2
        have hover : s.startedOver.lookup event.requestId = some link.websocket := by
          refine hwired.carried link (mem_of_get? hlink) _ (mem_requestIds.mpr ?_)
          exact .inr (.inr ⟨event, by rw [hphase]; rfl, rfl⟩)
        refine overCurrent_iff.mpr ⟨c, ?_, ?_⟩
        · show s.manager.connectionsByNode.get? own.executorNodeId = some c
          rw [hnode, hget]
        · show s.startedOver.lookup own.requestId = some c.websocket
          rw [hid, hover, hws]
    · exact hother hmem fun r hr => by
        rw [hrequest] at hr
        cases hr
        exact hne

theorem allCovered_step {l : Label} (hwired : Wired s) (h : AllCovered lower s)
    (hcond : losesNoTurn lower s l = true) (hmove : Move lower s l s') : AllCovered lower s' := by
  cases hmove with
  | startTurn hnew hfresh =>
    intro request hmem hlive
    rcases mem_put.mp hmem with rfl | ⟨hmem, -⟩
    · cases hlive
    · exact (h request hmem hlive).frame id (isSome_get?_put _ _) id
  | connectionGone | dropped => exact h.finishStart fun hlive => by cases hlive
  | sent hstart =>
    refine h.finishStart fun _ => ?_
    simpa [losesNoTurn, hstart] using hcond
  | @connectionFound start link c hstart hstage hnode hc hws hlink =>
    intro request hmem hlive
    by_cases hid : start.requestId = request.requestId
    · refine .inr (.inl ?_)
      show ((s.starts.put { start with stage := .sending link.websocket }).get?
        request.requestId).isSome = true
      rw [← hid]
      exact congrArg Option.isSome
        (Table.get?_put_self s.starts { start with stage := .sending link.websocket })
    · refine (h request hmem hlive).frame (fun hover => ?_) (isSome_get?_put _ _)
        (isEnding_of_handlingKept (.put hlink rfl rfl fun _ => id))
      refine (overCurrent_congr ?_ ?_).trans hover
      · rfl
      · exact Dict.lookup_set_of_ne _ _ hid
  | @sendFails start websocket hstart hstage =>
    intro request hmem hlive
    have hturns : turnsEnd lower s websocket = true := by
      simpa [losesNoTurn, hstart, hstage] using hcond
    rw [dropConnection_eq] at hmem
    change request ∈ s.turns.requests.entries at hmem
    have hcovered := covered_dropConnection hmem hlive hturns (h request hmem hlive)
    rw [dropConnection_eq] at hcovered ⊢
    exact hcovered.frame id (isSome_get?_put _ _) id
  | @register c manager hnew hregister =>
    obtain ⟨hexisting, rfl⟩ := registerConnection_cases hregister
    intro request hmem hlive
    refine (h request hmem hlive).frame (fun hover => ?_) id
      (isEnding_of_handlingKept fun link hlink event hphase => ⟨link, ?_, hphase⟩)
    · obtain ⟨old, hget, hstarted⟩ := overCurrent_iff.mp hover
      by_cases hnode : c.nodeId = request.executorNodeId
      · refine overCurrent_iff.mpr ⟨c, ?_, ?_⟩
        · rw [← hnode]
          exact Table.get?_put_self _ _
        · rw [← hexisting old (hnode ▸ hget)]
          exact hstarted
      · exact overCurrent_iff.mpr ⟨old, (Table.get?_put_of_ne _ hnode).trans hget, hstarted⟩
    · refine mem_put.mpr (.inr ⟨hlink, fun hws => ?_⟩)
      exact Table.get?_eq_none_iff.mp hnew link hlink hws
  | handle hlink hphase =>
    refine h.handle hwired hlink hphase fun request hrequest hlive hflight => ?_
    simpa [losesNoTurn, hlink, hphase, hrequest, hlive, hflight] using hcond
  | otherSendFails =>
    intro request hmem hlive
    rw [dropConnection_eq] at hmem
    exact covered_dropConnection hmem hlive hcond (h request hmem hlive)
  | endpointEnds hlink hphase =>
    intro request hmem hlive
    rw [dropConnection_eq] at hmem
    change request ∈ s.turns.requests.entries at hmem
    have hcovered := covered_dropConnection hmem hlive hcond (h request hmem hlive)
    rw [dropConnection_eq] at hcovered ⊢
    refine hcovered.frame id id
      (isEnding_of_handlingKept (.put hlink rfl rfl fun event hevent => ?_))
    rw [hphase] at hevent
    cases hevent
  | link hlink hmove =>
    intro request hmem hlive
    exact (h request hmem hlive).frame id id
      (isEnding_of_handlingKept (.put hlink rfl hmove.websocket hmove.handling))

end orphans

/-! ## Runs -/

/-- In a run that gives up no connection under a live turn, and makes no turn live whose
connection has been given up, no turn is orphaned. -/
theorem no_orphaned_turn (lower : String → String) (labels : List Label)
    (h : (system lower).Along (fun s l => losesNoTurn lower s l = true) initialState labels) :
    (system lower).Always NoOrphans initialState labels := by
  have hcovered : (system lower).Always (fun s => Wired s ∧ AllCovered lower s) initialState
      labels := by
    refine h.always ⟨wired_initially, fun request hmem => by cases hmem⟩ ?_
    intro s l s' hs hcond hstep
    have hmove := move_of_step hstep
    exact ⟨wired_step hs.1 hmove, allCovered_step hs.1 hs.2 hcond hmove⟩
  exact hcovered.mono fun s hs => hs.2.noOrphans

/-- The connection ends, the node cancels its turns and the cleanup is done. -/
def loseLabels : List Label := [.endpointEnds "ws-1", .nodeLoses "ws-1", .cleanedUp "ws-1"]

/-- A turn that is answered before its connection is lost. -/
theorem answered_turn_not_orphaned :
    (system id).Always NoOrphans initialState (sendLabels ++ [.sent "out-1"] ++
      reportLabels (exampleReport "completed" (some "Because.")) ++
        [.nodeEnds "ws-1" "out-1"] ++ loseLabels) :=
  no_orphaned_turn id _ (System.along_of_check (by decide))

def orphanLabels : List Label :=
  sendLabels ++ [.sent "out-1"] ++ reportLabels (exampleReport "progress" none) ++ loseLabels

/-- A connection is lost while the node works on a turn. -/
theorem running_turn_orphaned : ¬ ∀ labels, (system id).Always NoOrphans initialState labels := by
  intro h
  have hrun : (system id).run initialState orphanLabels =
      some ((system id).target initialState orphanLabels) :=
    System.run_eq_target (by decide)
  exact absurd ((h orphanLabels).at_end hrun) (by decide)

end Newbro.TurnStarts
