import Newbro.TurnStarts

/-!
# What a step of an outbound turn can do

One constructor for each way a step can go; those that stay within one connection are moves
of its link. The names that a link carries are those of the turns started over it.
-/
namespace Newbro.TurnStarts

open Library Protocol ExecutorNodes OutboundTurns Table

/-- The steps that change a link and nothing else. -/
inductive LinkMove (m : NodeManager) (link : Link) : Label → Link → Prop
  | receive {event : CodexTurnEvent} {inbox : List CodexTurnEvent}
      (hphase : link.phase = .receiving) (hinbox : link.inbox = event :: inbox) :
      LinkMove m link (.receive link.websocket)
        { link with phase := .checking event, inbox := inbox }
  | accept {event : CodexTurnEvent} (hphase : link.phase = .checking event)
      (hnode : m.nodeIdForWebsocket link.websocket = some event.nodeId) :
      LinkMove m link (.publish link.websocket) { link with phase := .handling event }
  | refuse {event : CodexTurnEvent} (hphase : link.phase = .checking event) :
      LinkMove m link (.publish link.websocket) { link with phase := .receiving }
  | cleanedUp (hphase : link.phase = .cleaning) :
      LinkMove m link (.cleanedUp link.websocket) { link with phase := .closed }
  | nodeReads {command : TurnCommand} {commands : List TurnCommand}
      (hcommands : link.commands = command :: commands) :
      LinkMove m link (.nodeReads link.websocket)
        { link with commands := commands, turns := link.turns ++ [command] }
  | nodeReports {command : TurnCommand} {report : CodexTurnEvent}
      (hturn : command ∈ link.turns) :
      LinkMove m link (.nodeReports link.websocket command.requestId report)
        { link with inbox := link.inbox ++ [turnEvent link.nodeId command report] }
  | nodeEnds {requestId : String} :
      LinkMove m link (.nodeEnds link.websocket requestId)
        { link with turns := link.turns.filter fun command => command.requestId ≠ requestId }
  | nodeLoses :
      LinkMove m link (.nodeLoses link.websocket) { link with commands := [], turns := [] }

inductive Move (lower : String → String) (s : TurnState) : Label → TurnState → Prop
  | startTurn {requestId nodeId : String} {i : TurnInstruction}
      (hnew : s.turns.requests.get? requestId = none)
      (hfresh : s.starts.get? requestId = none) :
      Move lower s (.startTurn requestId i)
        { s.putRequest (newRequest requestId nodeId i) with
          starts := s.starts.put ⟨newRequest requestId nodeId i, notReadyMessage i, .connecting⟩ }
  | connectionGone {start : TurnStart} (hstart : s.starts.get? start.requestId = some start)
      (hstage : start.stage = .connecting) :
      Move lower s (.readConnection start.requestId) (failStart s start)
  | connectionFound {start : TurnStart} {link : Link} {c : NodeConnection}
      (hstart : s.starts.get? start.requestId = some start) (hstage : start.stage = .connecting)
      (hnode : start.request.executorNodeId = c.nodeId)
      (hc : s.manager.connectionsByNode.get? c.nodeId = some c)
      (hws : c.websocket = link.websocket)
      (hlink : s.links.get? link.websocket = some link) :
      Move lower s (.readConnection start.requestId)
        { s.putLink { link with commands := link.commands ++ [commandOf start.request] } with
          starts := s.starts.put { start with stage := .sending link.websocket }
          startedOver := s.startedOver.set start.requestId link.websocket }
  | sent {start : TurnStart} {websocket : String}
      (hstart : s.starts.get? start.requestId = some start)
      (hstage : start.stage = .sending websocket) :
      Move lower s (.sent start.requestId) (finishStart s start .accepted start.request.error)
  | sendFails {start : TurnStart} {websocket : String}
      (hstart : s.starts.get? start.requestId = some start)
      (hstage : start.stage = .sending websocket) :
      Move lower s (.sendFails start.requestId)
        { dropConnection s websocket with
          starts := s.starts.put { start with stage := .dropping } }
  | dropped {start : TurnStart} (hstart : s.starts.get? start.requestId = some start)
      (hstage : start.stage = .dropping) :
      Move lower s (.dropped start.requestId) (failStart s start)
  | register {c : NodeConnection} {manager : NodeManager}
      (hnew : s.links.get? c.websocket = none)
      (hregister : s.manager.registerConnection c = some manager) :
      Move lower s (.register c)
        { s with
          manager := manager
          links := s.links.put ⟨c.websocket, c.nodeId, [], [], [], .receiving⟩ }
  | handle {link : Link} {event : CodexTurnEvent} {interactionId : String}
      (hlink : s.links.get? link.websocket = some link)
      (hphase : link.phase = .handling event) :
      Move lower s (.handle link.websocket interactionId)
        { (s.record lower event).putLink { link with phase := .receiving } with
          board := (handleCodexTurnEvent lower s.board s.turns interactionId event).1
          turns := (handleCodexTurnEvent lower s.board s.turns interactionId event).2 }
  | otherSendFails {websocket : String} :
      Move lower s (.otherSendFails websocket) (dropConnection s websocket)
  | endpointEnds {link : Link} (hlink : s.links.get? link.websocket = some link)
      (hphase : link.phase = .receiving) :
      Move lower s (.endpointEnds link.websocket)
        ((dropConnection s link.websocket).putLink { link with phase := .cleaning })
  | link {link link' : Link} {l : Label} (hlink : s.links.get? link.websocket = some link)
      (hmove : LinkMove s.manager link l link') : Move lower s l (s.putLink link')

variable {requestId : String} {l : Label}

variable {interactionId : String}

section inversions

variable {lower : String → String} {s s' : TurnState}

theorem move_of_startTurn {i : TurnInstruction}
    (h : startTurn s requestId i = some s') : Move lower s (.startTurn requestId i) s' := by
  unfold startTurn at h
  split at h
  · cases h
  · rename_i nodeId hnode
    split at h
    · cases h
    · rename_i hguard
      cases h
      simp only [Bool.or_eq_true, not_or, Table.contains] at hguard
      exact .startTurn (by simpa using hguard.1.1) (by simpa using hguard.1.2)

theorem move_of_readConnection (h : readConnection s requestId = some s') :
    Move lower s (.readConnection requestId) s' := by
  unfold readConnection at h
  split at h
  · cases h
  · rename_i start hstart
    obtain rfl : start.requestId = requestId := key_of_get? hstart
    split at h
    · rename_i hstage
      split at h
      · cases h
        exact .connectionGone hstart hstage
      · rename_i c hc
        split at h
        · cases h
        · rename_i link hlink
          cases h
          have hget := (Option.filter_eq_some_iff.mp hc).1
          have hnode : c.nodeId = start.request.executorNodeId := key_of_get? hget
          have hws : link.websocket = c.websocket := key_of_get? hlink
          rw [← hws] at hlink ⊢
          exact .connectionFound hstart hstage hnode.symm (hnode ▸ hget) hws.symm hlink
    · cases h

theorem move_of_sent (h : sent s requestId = some s') : Move lower s (.sent requestId) s' := by
  unfold sent at h
  split at h
  · cases h
  · rename_i start hstart
    obtain rfl : start.requestId = requestId := key_of_get? hstart
    split at h
    · rename_i websocket hstage
      cases h
      exact .sent hstart hstage
    · cases h

theorem move_of_sendFails (h : sendFails s requestId = some s') :
    Move lower s (.sendFails requestId) s' := by
  unfold sendFails at h
  split at h
  · cases h
  · rename_i start hstart
    obtain rfl : start.requestId = requestId := key_of_get? hstart
    split at h
    · rename_i websocket hstage
      cases h
      exact .sendFails hstart hstage
    · cases h

theorem move_of_dropped (h : dropped s requestId = some s') :
    Move lower s (.dropped requestId) s' := by
  unfold dropped at h
  split at h
  · cases h
  · rename_i start hstart
    obtain rfl : start.requestId = requestId := key_of_get? hstart
    split at h
    · rename_i hstage
      cases h
      exact .dropped hstart hstage
    · cases h

theorem move_of_register {c : NodeConnection} (h : register s c = some s') :
    Move lower s (.register c) s' := by
  unfold register at h
  split at h
  · cases h
  · rename_i hnew
    obtain ⟨manager, hregister, rfl⟩ := Option.map_eq_some_iff.mp h
    exact .register (by simpa [Table.contains] using hnew) hregister

theorem move_of_receive {websocket : String} (h : receive s websocket = some s') :
    Move lower s (.receive websocket) s' := by
  unfold receive at h
  split at h
  · cases h
  · rename_i link hlink
    obtain rfl : link.websocket = websocket := key_of_get? hlink
    split at h
    · rename_i event inbox hphase hinbox
      cases h
      exact .link hlink (.receive hphase hinbox)
    · cases h

theorem move_of_publish {websocket : String} (h : publish s websocket = some s') :
    Move lower s (.publish websocket) s' := by
  unfold publish at h
  split at h
  · cases h
  · rename_i link hlink
    obtain rfl : link.websocket = websocket := key_of_get? hlink
    split at h
    · rename_i event hphase
      split at h
      · rename_i hnode
        cases h
        exact .link hlink (.accept hphase hnode)
      · cases h
        exact .link hlink (.refuse hphase)
    · cases h

theorem move_of_handle {websocket : String}
    (h : handle lower s websocket interactionId = some s') :
    Move lower s (.handle websocket interactionId) s' := by
  unfold handle at h
  split at h
  · cases h
  · rename_i link hlink
    obtain rfl : link.websocket = websocket := key_of_get? hlink
    split at h
    · rename_i event hphase
      cases h
      exact .handle hlink hphase
    · cases h

theorem move_of_endpointEnds {websocket : String} (h : endpointEnds s websocket = some s') :
    Move lower s (.endpointEnds websocket) s' := by
  unfold endpointEnds at h
  split at h
  · cases h
  · rename_i link hlink
    obtain rfl : link.websocket = websocket := key_of_get? hlink
    split at h
    · rename_i hphase
      cases h
      exact .endpointEnds hlink hphase
    · cases h

theorem move_of_cleanedUp {websocket : String} (h : cleanedUp s websocket = some s') :
    Move lower s (.cleanedUp websocket) s' := by
  unfold cleanedUp at h
  split at h
  · cases h
  · rename_i link hlink
    obtain rfl : link.websocket = websocket := key_of_get? hlink
    split at h
    · rename_i hphase
      cases h
      exact .link hlink (.cleanedUp hphase)
    · cases h

theorem move_of_nodeReads {websocket : String} (h : nodeReads s websocket = some s') :
    Move lower s (.nodeReads websocket) s' := by
  unfold nodeReads at h
  split at h
  · cases h
  · rename_i link hlink
    obtain rfl : link.websocket = websocket := key_of_get? hlink
    split at h
    · cases h
    · rename_i command commands hcommands
      cases h
      exact .link hlink (.nodeReads hcommands)

theorem move_of_nodeReports {websocket : String} {report : CodexTurnEvent}
    (h : nodeReports s websocket requestId report = some s') :
    Move lower s (.nodeReports websocket requestId report) s' := by
  unfold nodeReports at h
  split at h
  · cases h
  · rename_i link hlink
    obtain rfl : link.websocket = websocket := key_of_get? hlink
    obtain ⟨command, hturn, rfl⟩ := Option.map_eq_some_iff.mp h
    have hid : command.requestId = requestId := by
      rw [turnAt] at hturn
      simpa using List.find?_some hturn
    subst hid
    exact .link hlink (.nodeReports (List.mem_of_find?_eq_some hturn))

theorem move_of_nodeEnds {websocket : String} (h : nodeEnds s websocket requestId = some s') :
    Move lower s (.nodeEnds websocket requestId) s' := by
  unfold nodeEnds at h
  split at h
  · cases h
  · rename_i link hlink
    obtain rfl : link.websocket = websocket := key_of_get? hlink
    cases h
    exact .link hlink .nodeEnds

theorem move_of_nodeLoses {websocket : String} (h : nodeLoses s websocket = some s') :
    Move lower s (.nodeLoses websocket) s' := by
  unfold nodeLoses at h
  split at h
  · cases h
  · rename_i link hlink
    obtain rfl : link.websocket = websocket := key_of_get? hlink
    cases h
    exact .link hlink .nodeLoses

theorem move_of_otherSendFails {websocket : String} (h : otherSendFails s websocket = some s') :
    Move lower s (.otherSendFails websocket) s' := by
  unfold otherSendFails at h
  split at h
  · cases h
    exact .otherSendFails
  · cases h

theorem move_of_step (h : step lower s l = some s') : Move lower s l s' := by
  cases l with
  | startTurn => exact move_of_startTurn h
  | readConnection => exact move_of_readConnection h
  | sent => exact move_of_sent h
  | sendFails => exact move_of_sendFails h
  | dropped => exact move_of_dropped h
  | register => exact move_of_register h
  | receive => exact move_of_receive h
  | publish => exact move_of_publish h
  | handle => exact move_of_handle h
  | otherSendFails => exact move_of_otherSendFails h
  | endpointEnds => exact move_of_endpointEnds h
  | cleanedUp => exact move_of_cleanedUp h
  | nodeReads => exact move_of_nodeReads h
  | nodeReports => exact move_of_nodeReports h
  | nodeEnds => exact move_of_nodeEnds h
  | nodeLoses => exact move_of_nodeLoses h

end inversions

/-! ## What each step leaves alone -/

def managerWithout (m : NodeManager) (websocket : String) : NodeManager :=
  ((m.popConnection websocket).map Prod.snd).getD m

theorem dropConnection_eq (s : TurnState) (websocket : String) :
    dropConnection s websocket = { s with manager := managerWithout s.manager websocket } := by
  unfold dropConnection managerWithout
  cases s.manager.popConnection websocket <;> rfl

/-- The requests after an event: the one it is for is updated. -/
theorem requests_handleCodexTurnEvent (lower : String → String) (s : TurnState)
    (interactionId : String) (event : CodexTurnEvent) :
    (handleCodexTurnEvent lower s.board s.turns interactionId event).2.requests =
      match requestOf s event with
      | none => s.turns.requests
      | some request => s.turns.requests.put (updateRequest lower request event) := by
  unfold handleCodexTurnEvent requestOf
  cases (s.turns.requests.get? event.requestId).filter fun r => answersRequest r event <;> rfl

variable {s : TurnState} {event : CodexTurnEvent} {request : OutboundTurnRequest}

theorem requestOf_eq_some
    (h : requestOf s event = some request) : request.requestId = event.requestId ∧
      s.turns.requests.get? request.requestId = some request ∧
      answersRequest request event = true := by
  obtain ⟨hget, hanswers⟩ := Option.filter_eq_some_iff.mp h
  have hid : request.requestId = event.requestId := key_of_get? hget
  exact ⟨hid, hid ▸ hget, hanswers⟩

/-- No request goes away. -/
theorem Move.requests_kept {lower : String → String} {s' : TurnState} (hmove : Move lower s l s')
    (h : s'.turns.requests.get? requestId = none) : s.turns.requests.get? requestId = none := by
  cases hmove with
  | startTurn | connectionGone | sent | dropped => exact Table.get?_eq_none_of_put h
  | connectionFound | register | link => exact h
  | sendFails | otherSendFails | endpointEnds =>
    rw [dropConnection_eq] at h
    exact h
  | handle hlink hphase =>
    change Table.get? (handleCodexTurnEvent _ _ _ _ _).2.requests requestId = none at h
    rw [requests_handleCodexTurnEvent] at h
    split at h
    · exact h
    · exact Table.get?_eq_none_of_put h

/-! ## The wiring -/

def EndpointPhase.event? : EndpointPhase → Option CodexTurnEvent
  | .checking event | .handling event => some event
  | _ => none

/-- The names of the requests that are under way on a link. -/
def Link.requestIds (link : Link) : List String :=
  (link.commands ++ link.turns).map TurnCommand.requestId ++
    (link.inbox ++ link.phase.event?.toList).map CodexTurnEvent.requestId

variable {link : Link}

theorem mem_requestIds {id : String} : id ∈ link.requestIds ↔
      ((∃ command ∈ link.commands, command.requestId = id) ∨
        ∃ command ∈ link.turns, command.requestId = id) ∨
      (∃ event ∈ link.inbox, event.requestId = id) ∨
        ∃ event, link.phase.event? = some event ∧ event.requestId = id := by
  simp [Link.requestIds, or_assoc]

/-- A link names only turns that were started over it; a turn is started once, for a request
that is on the board, and only then it has something recorded. -/
structure Wired (s : TurnState) : Prop where
  carried : ∀ link ∈ s.links.entries, ∀ id ∈ link.requestIds,
    s.startedOver.lookup id = some link.websocket
  connecting : ∀ start ∈ s.starts.entries, start.stage = .connecting →
    s.startedOver.lookup start.requestId = none ∧
      s.turns.requests.get? start.requestId ≠ none
  sending : ∀ start ∈ s.starts.entries, ∀ websocket, start.stage = .sending websocket →
    s.startedOver.lookup start.requestId = some websocket
  recorded : ∀ id, s.startedOver.lookup id = none → s.recorded.lookup id = none
  started : ∀ id, s.turns.requests.get? id = none → s.startedOver.lookup id = none

variable {link' : Link}

variable {m : NodeManager} {start : TurnStart}

section wired

variable {lower : String → String} {s s' : TurnState}

/-- The links of `s'` carry no more than those of `s`. -/
def CarriesLess (s s' : TurnState) : Prop :=
  ∀ link' ∈ s'.links.entries, ∀ id ∈ link'.requestIds,
    ∃ link ∈ s.links.entries, link.websocket = link'.websocket ∧ id ∈ link.requestIds

theorem CarriesLess.of_eq (h : s'.links = s.links) : CarriesLess s s' :=
  fun link' hlink' _ hid => ⟨link', h ▸ hlink', rfl, hid⟩

theorem CarriesLess.put (hlink : s.links.get? link.websocket = some link)
    (hs : s'.links = s.links.put link') (hws : link.websocket = link'.websocket)
    (hids : ∀ id ∈ link'.requestIds, id ∈ link.requestIds) : CarriesLess s s' := by
  intro other hother id hid
  rw [hs] at hother
  rcases mem_put.mp hother with rfl | ⟨hmem, -⟩
  · exact ⟨link, mem_of_get? hlink, hws, hids id hid⟩
  · exact ⟨other, hmem, rfl, hid⟩

theorem LinkMove.websocket
    (h : LinkMove m link l link') : link.websocket = link'.websocket := by
  cases h <;> rfl

theorem LinkMove.requestIds
    (h : LinkMove m link l link') : ∀ id ∈ link'.requestIds, id ∈ link.requestIds := by
  intro id hid
  rw [mem_requestIds] at hid ⊢
  cases h with
  | receive | refuse => simp_all [EndpointPhase.event?]; grind
  | accept | cleanedUp => simp_all [EndpointPhase.event?]
  | nodeReads | nodeEnds => simp_all; grind
  | nodeReports hturn => simp_all [turnEvent]; grind
  | nodeLoses => simp_all

/-- The coroutines of `s'` are where those of `s` are, or past the send. -/
def StartsKept (s s' : TurnState) : Prop :=
  ∀ start' ∈ s'.starts.entries, start'.stage ≠ .dropping →
    ∃ start ∈ s.starts.entries, start.requestId = start'.requestId ∧ start.stage = start'.stage

theorem StartsKept.of_eq (h : s'.starts = s.starts) : StartsKept s s' :=
  fun start' hmem _ => ⟨start', h ▸ hmem, rfl, rfl⟩

theorem StartsKept.erase (h : s'.starts = s.starts.erase requestId) : StartsKept s s' := by
  intro start' hmem _
  rw [h] at hmem
  exact ⟨start', (mem_erase.mp hmem).1, rfl, rfl⟩

theorem Wired.frame (h : Wired s) (hlinks : CarriesLess s s') (hstarts : StartsKept s s')
    (hover : s'.startedOver = s.startedOver)
    (hrecorded : ∀ id, s.startedOver.lookup id = none → s'.recorded.lookup id = none)
    (hrequests : ∀ id, s'.turns.requests.get? id = none → s.turns.requests.get? id = none) :
    Wired s' where
  carried link' hlink' id hid := by
    obtain ⟨link, hlink, hws, hid'⟩ := hlinks link' hlink' id hid
    rw [hover, ← hws]
    exact h.carried link hlink id hid'
  connecting start' hmem hstage := by
    obtain ⟨start, hstart, hid, hstage'⟩ := hstarts start' hmem (by simp [hstage])
    obtain ⟨hnone, hrequest⟩ := h.connecting start hstart (hstage'.trans hstage)
    rw [hover, ← hid]
    exact ⟨hnone, fun hgone => hrequest (hrequests _ hgone)⟩
  sending start' hmem websocket hstage := by
    obtain ⟨start, hstart, hid, hstage'⟩ := hstarts start' hmem (by simp [hstage])
    rw [hover, ← hid]
    exact h.sending start hstart websocket (hstage'.trans hstage)
  recorded id hid := hrecorded id (hover ▸ hid)
  started id hid := hover ▸ h.started id (hrequests id hid)

theorem record_lookup (event : CodexTurnEvent) (id : String) :
    (s.record lower event).recorded.lookup id =
      if (requestOf s event).any fun request => request.requestId = id then
        some (recordEvent lower (s.recorded.lookup id) event)
      else s.recorded.lookup id := by
  unfold TurnState.record
  cases hrequest : requestOf s event with
  | none => simp
  | some request =>
    by_cases hid : request.requestId = id
    · subst hid
      simp
    · simp [hid, Dict.lookup_set_of_ne]

theorem Wired.connectionFound (h : Wired s)
    (hstart : s.starts.get? start.requestId = some start) (hstage : start.stage = .connecting)
    (hlink : s.links.get? link.websocket = some link) :
    Wired { s.putLink { link with commands := link.commands ++ [commandOf start.request] } with
      starts := s.starts.put { start with stage := .sending link.websocket }
      startedOver := s.startedOver.set start.requestId link.websocket } where
  carried other hother id hid := by
    show Dict.lookup (s.startedOver.set start.requestId link.websocket) id = some other.websocket
    obtain ⟨hnone, -⟩ := h.connecting start (mem_of_get? hstart) hstage
    rcases mem_put.mp hother with rfl | ⟨hmem, -⟩
    · by_cases hname : start.requestId = id
      · rw [hname, Dict.lookup_set_self]
      · rw [Dict.lookup_set_of_ne _ _ hname]
        refine h.carried link (mem_of_get? hlink) id ?_
        rw [mem_requestIds] at hid ⊢
        simp only [List.mem_append, List.mem_singleton] at hid
        refine hid.imp_left (Or.imp_left ?_)
        rintro ⟨command, hmem | rfl, hid⟩
        · exact ⟨command, hmem, hid⟩
        · exact absurd hid hname
    · have hid' := h.carried other hmem id hid
      have hname : start.requestId ≠ id := by
        rintro rfl
        rw [hnone] at hid'
        cases hid'
      rw [Dict.lookup_set_of_ne _ _ hname, hid']
  connecting other hmem hother := by
    show Dict.lookup (s.startedOver.set start.requestId link.websocket) other.requestId = none ∧
      s.turns.requests.get? other.requestId ≠ none
    rcases mem_put.mp hmem with rfl | ⟨hmem, hne⟩
    · cases hother
    · have hname : start.requestId ≠ other.requestId := fun heq => hne heq.symm
      rw [Dict.lookup_set_of_ne _ _ hname]
      exact h.connecting other hmem hother
  sending other hmem websocket hother := by
    show Dict.lookup (s.startedOver.set start.requestId link.websocket) other.requestId =
      some websocket
    rcases mem_put.mp hmem with rfl | ⟨hmem, hne⟩
    · cases hother
      exact Dict.lookup_set_self _ _ _
    · have hname : start.requestId ≠ other.requestId := fun heq => hne heq.symm
      rw [Dict.lookup_set_of_ne _ _ hname]
      exact h.sending other hmem websocket hother
  recorded id hid := by
    change Dict.lookup (s.startedOver.set start.requestId link.websocket) id = none at hid
    by_cases hname : start.requestId = id
    · rw [hname, Dict.lookup_set_self] at hid
      cases hid
    · rw [Dict.lookup_set_of_ne _ _ hname] at hid
      exact h.recorded id hid
  started id hid := by
    show Dict.lookup (s.startedOver.set start.requestId link.websocket) id = none
    have hname : start.requestId ≠ id := by
      rintro rfl
      exact (h.connecting start (mem_of_get? hstart) hstage).2 hid
    rw [Dict.lookup_set_of_ne _ _ hname]
    exact h.started id hid

theorem Wired.startTurn {message : String} (h : Wired s)
    (hnew : s.turns.requests.get? request.requestId = none) :
    Wired { s.putRequest request with
      starts := s.starts.put ⟨request, message, .connecting⟩ } where
  carried := h.carried
  connecting other hmem hother := by
    show s.startedOver.lookup other.requestId = none ∧
      (s.turns.requests.put request).get? other.requestId ≠ none
    rcases mem_put.mp hmem with rfl | ⟨hmem, hne⟩
    · refine ⟨h.started _ hnew, ?_⟩
      rw [show TurnStart.requestId ⟨request, message, .connecting⟩ = request.requestId from rfl,
        Table.get?_put_self]
      simp
    · obtain ⟨hnone, hrequest⟩ := h.connecting other hmem hother
      exact ⟨hnone, fun hgone => hrequest (Table.get?_eq_none_of_put hgone)⟩
  sending other hmem websocket hother := by
    rcases mem_put.mp hmem with rfl | ⟨hmem, -⟩
    · cases hother
    · exact h.sending other hmem websocket hother
  recorded := h.recorded
  started id hid := h.started id (Table.get?_eq_none_of_put hid)

theorem Wired.sendFails {websocket : String} (h : Wired s) :
    Wired { dropConnection s websocket with
      starts := s.starts.put { start with stage := .dropping } } := by
  rw [dropConnection_eq]
  refine h.frame (.of_eq rfl) (fun start' hmem hstage => ?_) rfl h.recorded fun _ => id
  rcases mem_put.mp hmem with rfl | ⟨hmem, -⟩
  · exact absurd rfl hstage
  · exact ⟨start', hmem, rfl, rfl⟩

/-- An event records something for the request that it names, which the link carries. -/
theorem Wired.handle
    (h : Wired s) (hlink : s.links.get? link.websocket = some link)
    (hphase : link.phase = .handling event) :
    Wired { (s.record lower event).putLink { link with phase := .receiving } with
      board := (handleCodexTurnEvent lower s.board s.turns interactionId event).1
      turns := (handleCodexTurnEvent lower s.board s.turns interactionId event).2 } := by
  have hcarried : s.startedOver.lookup event.requestId = some link.websocket := by
    refine h.carried link (mem_of_get? hlink) event.requestId (mem_requestIds.mpr ?_)
    exact .inr (.inr ⟨event, by rw [hphase]; rfl, rfl⟩)
  refine h.frame (.put hlink rfl rfl ?_) (.of_eq rfl) rfl (fun id hid => ?_)
    fun id hid => (Move.handle hlink hphase : Move lower s _ _).requests_kept hid
  · intro id hid
    rw [mem_requestIds] at hid ⊢
    simp only [EndpointPhase.event?, reduceCtorEq, false_and, exists_false, or_false] at hid
    exact hid.imp_right .inl
  · show Dict.lookup (s.record lower event).recorded id = none
    rw [record_lookup, if_neg, h.recorded id hid]
    intro hany
    obtain ⟨request, hrequest, hname⟩ := (Option.any_eq_true _ _).mp hany
    have hid' : event.requestId = id :=
      (requestOf_eq_some hrequest).1.symm.trans (by simpa using hname)
    rw [← hid', hcarried] at hid
    cases hid

theorem wired_step (h : Wired s) (hmove : Move lower s l s') : Wired s' := by
  have hrequests : ∀ id, s'.turns.requests.get? id = none → s.turns.requests.get? id = none :=
    fun _ => hmove.requests_kept
  cases hmove with
  | startTurn hnew hfresh => exact h.startTurn hnew
  | connectionGone | sent | dropped =>
    exact h.frame (.of_eq rfl) (.erase rfl) rfl h.recorded hrequests
  | connectionFound hstart hstage _ _ _ hlink => exact h.connectionFound hstart hstage hlink
  | sendFails => exact h.sendFails
  | register hnew hregister =>
    refine h.frame (fun link' hmem id hid => ?_) (.of_eq rfl) rfl h.recorded hrequests
    rcases mem_put.mp hmem with rfl | ⟨hmem, -⟩
    · cases hid
    · exact ⟨link', hmem, rfl, hid⟩
  | handle hlink hphase => exact h.handle hlink hphase
  | otherSendFails =>
    rw [dropConnection_eq]
    exact h.frame (.of_eq rfl) (.of_eq rfl) rfl h.recorded fun _ => id
  | endpointEnds hlink hphase =>
    rw [dropConnection_eq]
    refine h.frame (.put hlink rfl rfl fun id hid => ?_) (.of_eq rfl) rfl h.recorded fun _ => id
    rw [mem_requestIds] at hid ⊢
    simp only [EndpointPhase.event?, reduceCtorEq, false_and, exists_false, or_false] at hid
    exact hid.imp_right .inl
  | link hlink hmove =>
    exact h.frame (.put hlink rfl hmove.websocket hmove.requestIds) (.of_eq rfl) rfl h.recorded
      hrequests

theorem wired_initially : Wired initialState where
  carried := by simp [initialState]
  connecting := by simp [initialState]
  sending := by simp [initialState]
  recorded _ _ := rfl
  started _ _ := rfl

end wired

/-- Whatever connects and fails, links carry only turns that were started over them. -/
theorem links_carry_own_turns (lower : String → String) (labels : List Label) :
    (system lower).Always Wired initialState labels :=
  (System.along_true _ _).always wired_initially fun _ _ _ h _ hs => wired_step h (move_of_step hs)

end Newbro.TurnStarts
