import Newbro.TurnMoves

/-!
# What the events of a turn have recorded

`start_turn` ends by writing back the request that it began with. What events have recorded
for the turn in the meantime is gone then, and an event says what the status is without
looking at the one there is.
-/
namespace Newbro.TurnStarts

open Library Protocol ExecutorNodes OutboundTurns Table

/-- The request shows what is recorded. -/
def Recorded.ShownBy (recorded : Recorded) (request : OutboundTurnRequest) : Prop :=
  request.executorThreadId = recorded.executorThreadId ∧
    request.executorTurnId = recorded.executorTurnId ∧ request.status = recorded.status

/-- All requests show what their events have recorded. -/
def Shown (s : TurnState) : Prop :=
  ∀ id recorded, s.recorded.lookup id = some recorded →
    ∃ request, s.turns.requests.get? id = some request ∧ recorded.ShownBy request

/-- The request has failed, or an event has completed it with an answer. -/
def Settled (s : TurnState) (request : OutboundTurnRequest) : Prop :=
  request.status = .failed ∨
    ∃ recorded, s.recorded.lookup request.requestId = some recorded ∧ recorded.answered = true

/-- A step loses nothing that an event has recorded, and the status of a request that has
settled stays. -/
structure UpdatesKept (s s' : TurnState) : Prop where
  shown : Shown s'
  settled : ∀ request ∈ s.turns.requests.entries, Settled s request →
    ∃ request', s'.turns.requests.get? request.requestId = some request' ∧
      request'.status = request.status

def KeepsUpdates (lower : String → String) (s : TurnState) (l : Label) : Prop :=
  ∀ s', step lower s l = some s' → UpdatesKept s s'

/-- What the write of a `start_turn` finds recorded is its own status and no names. -/
def NothingElseRecorded (s : TurnState) (requestId : String) (status : OutboundStatus) : Prop :=
  ∀ recorded, s.recorded.lookup requestId = some recorded →
    recorded.executorThreadId = none ∧ recorded.executorTurnId = none ∧
      recorded.status = status

/-- The last write of a `start_turn` comes before the first event of its turn, or that has
recorded no more than the status written; an event for a request that has settled has the
status that this has. -/
def WritesInTime (lower : String → String) (s : TurnState) : Label → Prop
  | .sent requestId => NothingElseRecorded s requestId .accepted
  | .dropped requestId => NothingElseRecorded s requestId .failed
  | .handle websocket _ => ∀ link event request, s.links.get? websocket = some link →
      link.phase = .handling event → requestOf s event = some request → Settled s request →
        outboundStatusOf lower event = request.status
  | _ => True

variable {start : TurnStart} {request : OutboundTurnRequest} {event : CodexTurnEvent}

variable {status : OutboundStatus} {error : Option String} {l : Label}

section writes

variable {lower : String → String} {s s' : TurnState}

/-- The coroutines of `start_turn` hold blank copies, of requests that are pending as long as
nothing is recorded; and without an event a request names no thread and no turn. -/
structure Copies (s : TurnState) : Prop where
  blank : ∀ start ∈ s.starts.entries,
    start.request.executorThreadId = none ∧ start.request.executorTurnId = none
  waiting : ∀ start ∈ s.starts.entries, s.recorded.lookup start.requestId = none →
    ∃ request, s.turns.requests.get? start.requestId = some request ∧ request.status = .pending
  unrecorded : ∀ request ∈ s.turns.requests.entries,
    s.recorded.lookup request.requestId = none →
      request.executorThreadId = none ∧ request.executorTurnId = none

/-- Each coroutine of `s'` is one of `s`, with the same copy. -/
def SameCopies (s s' : TurnState) : Prop :=
  ∀ start' ∈ s'.starts.entries, ∃ start ∈ s.starts.entries, start'.request = start.request

theorem SameCopies.of_eq (h : s'.starts = s.starts) : SameCopies s s' :=
  fun start' hmem => ⟨start', h ▸ hmem, rfl⟩

theorem SameCopies.put {stage : StartStage}
    (hstart : s.starts.get? start.requestId = some start)
    (h : s'.starts = s.starts.put { start with stage := stage }) : SameCopies s s' := by
  intro start' hmem
  rw [h] at hmem
  rcases mem_put.mp hmem with rfl | ⟨hmem, -⟩
  · exact ⟨start, mem_of_get? hstart, rfl⟩
  · exact ⟨start', hmem, rfl⟩

/-- A step that writes no request. -/
theorem Copies.frame (h : Copies s) (hstarts : SameCopies s s')
    (hrecorded : s'.recorded = s.recorded) (hrequests : s'.turns.requests = s.turns.requests) :
    Copies s' where
  blank start' hmem := by
    obtain ⟨start, hstart, hcopy⟩ := hstarts start' hmem
    rw [hcopy]
    exact h.blank start hstart
  waiting start' hmem hnone := by
    obtain ⟨start, hstart, hcopy⟩ := hstarts start' hmem
    have hid : start'.requestId = start.requestId :=
      congrArg OutboundTurnRequest.requestId hcopy
    rw [hid, hrequests]
    rw [hid, hrecorded] at hnone
    exact h.waiting start hstart hnone
  unrecorded request hmem hnone := by
    rw [hrequests] at hmem
    rw [hrecorded] at hnone
    exact h.unrecorded request hmem hnone

theorem Copies.startTurn {requestId nodeId message : String} {i : TurnInstruction}
    (h : Copies s) (hnew : s.turns.requests.get? requestId = none) :
    Copies { s.putRequest (newRequest requestId nodeId i) with
      starts := s.starts.put ⟨newRequest requestId nodeId i, message, .connecting⟩ } where
  blank start hmem := by
    rcases mem_put.mp hmem with rfl | ⟨hmem, -⟩
    · exact ⟨rfl, rfl⟩
    · exact h.blank start hmem
  waiting start hmem hnone := by
    show ∃ request, (s.turns.requests.put (newRequest requestId nodeId i)).get? start.requestId =
      some request ∧ request.status = .pending
    rcases mem_put.mp hmem with rfl | ⟨hmem, -⟩
    · exact ⟨_, Table.get?_put_self _ _, rfl⟩
    · obtain ⟨request, hget, hpending⟩ := h.waiting start hmem hnone
      refine ⟨request, ?_, hpending⟩
      rw [Table.get?_put_of_ne, hget]
      intro hid
      rw [← hid, show (newRequest requestId nodeId i).requestId = requestId from rfl, hnew] at hget
      cases hget
  unrecorded request hmem hnone := by
    rcases mem_put.mp hmem with rfl | ⟨hmem, -⟩
    · exact ⟨rfl, rfl⟩
    · exact h.unrecorded request hmem hnone

/-- The last write of a coroutine that holds a blank copy. -/
theorem Copies.finishStart
    (h : Copies s) (hstart : s.starts.get? start.requestId = some start) :
    Copies (finishStart s start status error) where
  blank other hmem := h.blank other (mem_erase.mp hmem).1
  waiting other hmem hnone := by
    obtain ⟨hmem, hne⟩ := mem_erase.mp hmem
    obtain ⟨request, hget, hpending⟩ := h.waiting other hmem hnone
    refine ⟨request, ?_, hpending⟩
    show (s.turns.requests.put { start.request with status := status, error := error }).get?
      other.requestId = some request
    rw [Table.get?_put_of_ne, hget]
    exact fun hid => hne hid.symm
  unrecorded request hmem hnone := by
    rcases mem_put.mp hmem with rfl | ⟨hmem, -⟩
    · exact h.blank start (mem_of_get? hstart)
    · exact h.unrecorded request hmem hnone

/-- The state after an event that is for a request: it is updated and has something recorded. -/
theorem handle_of_some (lower : String → String)
    (hrequest : requestOf s event = some request) :
    (∀ interactionId, (handleCodexTurnEvent lower s.board s.turns interactionId event).2.requests =
      s.turns.requests.put (updateRequest lower request event)) ∧
    ∀ id, (s.record lower event).recorded.lookup id =
      if request.requestId = id then some (recordEvent lower (s.recorded.lookup id) event)
      else s.recorded.lookup id := by
  constructor
  · intro interactionId
    rw [requests_handleCodexTurnEvent, hrequest]
  · intro id
    rw [record_lookup, hrequest]
    simp

theorem handle_of_none (lower : String → String) (hrequest : requestOf s event = none) :
    (∀ interactionId, (handleCodexTurnEvent lower s.board s.turns interactionId event).2.requests =
      s.turns.requests) ∧ (s.record lower event).recorded = s.recorded := by
  constructor
  · intro interactionId
    rw [requests_handleCodexTurnEvent, hrequest]
  · rw [TurnState.record, hrequest]

theorem Copies.handle (h : Copies s) (hstarts : s'.starts = s.starts)
    (hrecorded : s'.recorded = (s.record lower event).recorded) {interactionId : String}
    (hrequests : s'.turns =
      (handleCodexTurnEvent lower s.board s.turns interactionId event).2) : Copies s' := by
  cases hrequest : requestOf s event with
  | none =>
    obtain ⟨hnone, hsame⟩ := handle_of_none lower hrequest
    exact h.frame (.of_eq hstarts) (hrecorded.trans hsame) (by rw [hrequests, hnone])
  | some request =>
    obtain ⟨hput, hlookup⟩ := handle_of_some lower hrequest
    rw [← hrecorded] at hlookup
    have hput : s'.turns.requests = s.turns.requests.put (updateRequest lower request event) := by
      rw [hrequests, hput]
    refine ⟨fun start hmem => h.blank start (hstarts ▸ hmem), fun start hmem hnone => ?_,
      fun other hmem hnone => ?_⟩
    · rw [hlookup] at hnone
      split at hnone
      · cases hnone
      · rename_i hne
        obtain ⟨other, hget, hpending⟩ := h.waiting start (hstarts ▸ hmem) hnone
        refine ⟨other, ?_, hpending⟩
        rw [hput, Table.get?_put_of_ne, hget]
        exact hne
    · rw [hlookup] at hnone
      split at hnone
      · cases hnone
      · rename_i hne
        rw [hput] at hmem
        rcases mem_put.mp hmem with rfl | ⟨hmem, -⟩
        · exact absurd rfl hne
        · exact h.unrecorded other hmem hnone

theorem copies_step (h : Copies s) (hmove : Move lower s l s') : Copies s' := by
  cases hmove with
  | startTurn hnew => exact h.startTurn hnew
  | connectionGone hstart | sent hstart | dropped hstart => exact h.finishStart hstart
  | connectionFound hstart => exact h.frame (.put hstart rfl) rfl rfl
  | sendFails hstart =>
    rw [dropConnection_eq]
    exact h.frame (.put hstart rfl) rfl rfl
  | otherSendFails | endpointEnds =>
    rw [dropConnection_eq]
    exact h.frame (.of_eq rfl) rfl rfl
  | handle => exact h.handle rfl rfl rfl
  | register | link => exact h.frame (.of_eq rfl) rfl rfl

theorem copies_initially : Copies initialState where
  blank := by simp [initialState]
  waiting := by simp [initialState]
  unrecorded := by simp [initialState]

/-! ## One step -/

theorem updatesKept_of_same (hshown : Shown s) (hrecorded : s'.recorded = s.recorded)
    (hrequests : s'.turns.requests = s.turns.requests) : UpdatesKept s s' := by
  refine ⟨fun id recorded hlookup => ?_, fun request hmem _ => ⟨request, ?_, rfl⟩⟩
  · rw [hrequests]
    exact hshown id recorded (hrecorded ▸ hlookup)
  · rw [hrequests]
    exact Table.get?_of_mem hmem

theorem updatesKept_startTurn (hshown : Shown s) (hrecorded : s'.recorded = s.recorded)
    (hrequests : s'.turns.requests = s.turns.requests.put request)
    (hnew : s.turns.requests.get? request.requestId = none) : UpdatesKept s s' := by
  have hkept : ∀ id old, s.turns.requests.get? id = some old →
      s'.turns.requests.get? id = some old := by
    intro id old hget
    rw [hrequests, Table.get?_put_of_ne, hget]
    rintro rfl
    rw [hnew] at hget
    cases hget
  refine ⟨fun id recorded hlookup => ?_, fun old hmem _ => ?_⟩
  · obtain ⟨old, hget, hshows⟩ := hshown id recorded (hrecorded ▸ hlookup)
    exact ⟨old, hkept id old hget, hshows⟩
  · exact ⟨old, hkept _ old (Table.get?_of_mem hmem), rfl⟩

/-- The last write of a coroutine loses nothing exactly if nothing else is recorded. -/
theorem updatesKept_finishStart
    (hcopies : Copies s) (hshown : Shown s)
    (hstart : s.starts.get? start.requestId = some start) :
    UpdatesKept s (finishStart s start status error) ↔
      NothingElseRecorded s start.requestId status := by
  obtain ⟨hthread, hturn⟩ := hcopies.blank start (mem_of_get? hstart)
  have hself : (finishStart s start status error).turns.requests.get? start.requestId =
      some { start.request with status := status, error := error } := Table.get?_put_self _ _
  have hother : ∀ id, start.requestId ≠ id →
      (finishStart s start status error).turns.requests.get? id = s.turns.requests.get? id :=
    fun id hne => Table.get?_put_of_ne _ hne
  constructor
  · intro h recorded hlookup
    obtain ⟨request, hget, hids, hturns, hstatus⟩ := h.shown start.requestId recorded hlookup
    rw [hself] at hget
    cases hget
    exact ⟨hids.symm.trans hthread, hturns.symm.trans hturn, hstatus.symm⟩
  · intro h
    refine ⟨fun id recorded hlookup => ?_, fun request hmem hsettled => ?_⟩
    · by_cases hid : start.requestId = id
      · subst hid
        obtain ⟨hids, hturns, hstatus⟩ := h recorded hlookup
        exact ⟨_, hself, hthread.trans hids.symm, hturn.trans hturns.symm, hstatus.symm⟩
      · obtain ⟨request, hget, hshows⟩ := hshown id recorded hlookup
        exact ⟨request, (hother id hid).trans hget, hshows⟩
    · have hget : s.turns.requests.get? request.requestId = some request := Table.get?_of_mem hmem
      by_cases hid : start.requestId = request.requestId
      · refine ⟨_, hid ▸ hself, ?_⟩
        cases hlookup : s.recorded.lookup request.requestId with
        | some recorded =>
          obtain ⟨-, -, hstatus⟩ := h recorded (hid ▸ hlookup)
          obtain ⟨other, hother, -, -, hshows⟩ := hshown _ recorded hlookup
          rw [hget] at hother
          cases hother
          exact hstatus.symm.trans hshows.symm
        | none =>
          -- without an event the request is pending still, and has not settled
          obtain ⟨other, hother, hpending⟩ :=
            hcopies.waiting start (mem_of_get? hstart) (hid ▸ hlookup)
          rw [hid, hget] at hother
          cases hother
          rcases hsettled with hfailed | ⟨recorded, hsome, -⟩
          · rw [hpending] at hfailed
            cases hfailed
          · rw [hlookup] at hsome
            cases hsome
      · exact ⟨request, (hother _ hid).trans hget, rfl⟩

/-- An event does the same to a request as to what is recorded for it. -/
theorem recordEvent_shownBy (hcopies : Copies s) (hshown : Shown s)
    (hget : s.turns.requests.get? request.requestId = some request) :
    (recordEvent lower (s.recorded.lookup request.requestId) event).ShownBy
      (updateRequest lower request event) := by
  cases hlookup : s.recorded.lookup request.requestId with
  | none =>
    obtain ⟨hthread, hturn⟩ := hcopies.unrecorded request (mem_of_get? hget) hlookup
    refine ⟨?_, ?_, rfl⟩
    · simp only [updateRequest, recordEvent, hthread, Option.bind_none]
    · simp only [updateRequest, recordEvent, hturn, Option.bind_none]
  | some recorded =>
    obtain ⟨other, hother, hthread, hturn, -⟩ := hshown _ recorded hlookup
    rw [hget] at hother
    cases hother
    refine ⟨?_, ?_, rfl⟩
    · simp only [updateRequest, recordEvent, hthread, Option.bind_some]
    · simp only [updateRequest, recordEvent, hturn, Option.bind_some]

variable (lower) in
/-- An event is recorded and shown; what it can break is that the request has settled. -/
theorem updatesKept_handle (event : CodexTurnEvent) (interactionId : String)
    (hcopies : Copies s) (hshown : Shown s)
    (hrecorded : s'.recorded = (s.record lower event).recorded) (hrequests : s'.turns =
      (handleCodexTurnEvent lower s.board s.turns interactionId event).2) :
    UpdatesKept s s' ↔ ∀ request, requestOf s event = some request → Settled s request →
      outboundStatusOf lower event = request.status := by
  cases hrequest : requestOf s event with
  | none =>
    obtain ⟨hnone, hsame⟩ := handle_of_none lower hrequest
    have hkept : UpdatesKept s s' :=
      updatesKept_of_same hshown (hrecorded.trans hsame) (by rw [hrequests, hnone])
    exact ⟨fun _ _ h => (nomatch h), fun _ => hkept⟩
  | some request =>
    obtain ⟨hput, hlookup⟩ := handle_of_some lower hrequest
    obtain ⟨-, hget, -⟩ := requestOf_eq_some hrequest
    rw [← hrecorded] at hlookup
    have hput : s'.turns.requests = s.turns.requests.put (updateRequest lower request event) := by
      rw [hrequests, hput]
    have hself : s'.turns.requests.get? request.requestId =
        some (updateRequest lower request event) := by
      rw [hput]
      exact Table.get?_put_self _ _
    have hother : ∀ id, request.requestId ≠ id →
        s'.turns.requests.get? id = s.turns.requests.get? id := by
      intro id hne
      rw [hput, Table.get?_put_of_ne]
      exact hne
    constructor
    · intro h _ heq hsettled
      cases heq
      obtain ⟨request', hget', hstatus⟩ := h.settled request (mem_of_get? hget) hsettled
      rw [hself] at hget'
      cases hget'
      exact hstatus
    · intro h
      refine ⟨fun id recorded hsome => ?_, fun old hmem hsettled => ?_⟩
      · rw [hlookup] at hsome
        split at hsome
        · rename_i hid
          subst hid
          cases hsome
          exact ⟨_, hself, recordEvent_shownBy hcopies hshown hget⟩
        · rename_i hne
          obtain ⟨old, hold, hshows⟩ := hshown id recorded hsome
          exact ⟨old, (hother id hne).trans hold, hshows⟩
      · have hold : s.turns.requests.get? old.requestId = some old := Table.get?_of_mem hmem
        by_cases hid : request.requestId = old.requestId
        · rw [← hid, hget] at hold
          cases hold
          exact ⟨_, hself, h request rfl hsettled⟩
        · exact ⟨old, (hother _ hid).trans hold, rfl⟩

/-- A step keeps the updates exactly if it writes in time. -/
theorem updatesKept_iff (hwired : Wired s) (hcopies : Copies s) (hshown : Shown s)
    (hmove : Move lower s l s') : UpdatesKept s s' ↔ WritesInTime lower s l := by
  cases hmove with
  | startTurn hnew => exact iff_of_true (updatesKept_startTurn hshown rfl rfl hnew) trivial
  | connectionGone hstart hstage =>
    refine iff_of_true ((updatesKept_finishStart hcopies hshown hstart).mpr ?_) trivial
    -- nothing was sent, so nothing is recorded
    intro recorded hlookup
    obtain ⟨hover, -⟩ := hwired.connecting _ (mem_of_get? hstart) hstage
    rw [hwired.recorded _ hover] at hlookup
    cases hlookup
  | sent hstart | dropped hstart => exact updatesKept_finishStart hcopies hshown hstart
  | @handle link event interactionId hlink hphase =>
    refine Iff.trans (updatesKept_handle lower event interactionId hcopies hshown ?_ ?_) ?_
    · rfl
    · rfl
    constructor
    · intro h other event' request hlink' hphase' hrequest
      rw [hlink] at hlink'
      cases hlink'
      rw [hphase] at hphase'
      cases hphase'
      exact h request hrequest
    · exact fun h request => h _ _ request hlink hphase
  | sendFails | otherSendFails | endpointEnds =>
    rw [dropConnection_eq]
    exact iff_of_true (updatesKept_of_same hshown rfl rfl) trivial
  | connectionFound | register => exact iff_of_true (updatesKept_of_same hshown rfl rfl) trivial
  | link hlink hmove =>
    refine iff_of_true (updatesKept_of_same hshown rfl rfl) ?_
    cases hmove <;> trivial

end writes

/-! ## Runs -/

/-- In a run from no turns, what the events record is kept and the status of a request that has
settled stays, exactly if every write comes in time. -/
theorem updates_kept_iff (lower : String → String) (labels : List Label) :
    (system lower).Along (KeepsUpdates lower) initialState labels ↔
      (system lower).Along (WritesInTime lower) initialState labels := by
  refine System.along_congr_of (I := fun s => Wired s ∧ Copies s ∧ Shown s) ?_ ?_ ?_
  · intro s l s' h hkeeps hs
    have hmove := move_of_step hs
    exact ⟨wired_step h.1 hmove, copies_step h.2.1 hmove, (hkeeps s' hs).shown⟩
  · intro s l s' h hs
    rw [← updatesKept_iff h.1 h.2.1 h.2.2 (move_of_step hs), KeepsUpdates]
    constructor
    · exact fun hkeeps => hkeeps s' hs
    · intro hkept next hnext
      have heq : s' = next := Option.some.inj (hs.symm.trans hnext)
      exact heq ▸ hkept
  · exact ⟨wired_initially, copies_initially, fun id recorded h => by cases h⟩

/-! ## A fast node -/

def exampleInstruction : TurnInstruction :=
  { personaId := "persona-1"
    executorNodeId := some "node-1"
    publicThreadId := "thread-1"
    createNewThread := true
    hasResumeHandle := false
    clientRequestId := some "req-1"
    inputModality := .text
    text := some "Why?"
    audioInstructionId := none
    instructionId := .str "instruction-1"
    nodeNotReadyLabel := "text"
    requestedAt := "" }

def exampleReport (eventType : String) (message : Option String) : CodexTurnEvent :=
  { requestId := ""
    nodeId := ""
    targetPersonaId := ""
    targetThreadId := ""
    eventType := eventType
    message := message
    executorThreadId := some "native-1"
    executorTurnId := some "turn-1"
    ok := true
    error := none
    metadata := Table.empty }

/-- A turn is started over a connection, up to the end of the send. -/
def sendLabels : List Label :=
  [.register ⟨"node-1", "ws-1", ["codex"]⟩, .startTurn "out-1" exampleInstruction,
    .readConnection "out-1", .nodeReads "ws-1"]

/-- The node reports, and the endpoint takes the event. -/
def reportLabels (report : CodexTurnEvent) : List Label :=
  [.nodeReports "ws-1" "out-1" report, .receive "ws-1", .publish "ws-1", .handle "ws-1" "ask-1"]

def fastAnswerLabels : List Label :=
  sendLabels ++ reportLabels (exampleReport "completed" (some "Because.")) ++ [.sent "out-1"]

theorem shown_of_along {lower : String → String} {labels : List Label} {s : TurnState}
    (h : (system lower).Along (KeepsUpdates lower) initialState labels)
    (hrun : (system lower).run initialState labels = some s) : Shown s := by
  rw [← List.append_nil labels] at h
  refine h.invariant hrun ?_ fun s l s' _ hkeeps hs => (hkeeps s' hs).shown
  intro id recorded hlookup
  cases hlookup

/-- The answer is handled before the coroutine of the send goes on, which then writes back the
request as it was. -/
theorem fast_answer_lost : ¬ ∀ labels, (system id).Along (KeepsUpdates id) initialState labels := by
  intro h
  have hrun : (system id).run initialState fastAnswerLabels =
      some ((system id).target initialState fastAnswerLabels) :=
    System.run_eq_target (by decide)
  have hshown := shown_of_along (h fastAnswerLabels) hrun
  obtain ⟨request, hget, -, hturn, -⟩ := hshown "out-1"
    ⟨some "native-1", some "turn-1", .completed, true⟩ (by decide)
  have hnone : ∀ request, ((system id).target initialState fastAnswerLabels).turns.requests.get?
      "out-1" = some request → request.executorTurnId = none := by
    intro request hget
    have htest : (((system id).target initialState fastAnswerLabels).turns.requests.get?
      "out-1").map OutboundTurnRequest.executorTurnId = some none := by decide
    rw [hget] at htest
    exact Option.some.inj htest
  rw [hnone request hget] at hturn
  cases hturn

end Newbro.TurnStarts
