import Newbro.ServerRequests

/-!
# Where a request of the app-server is

A request that no stage drops is with the dispatcher, in the backlog of a turn that has no
stream yet or in the queue of a stream that goes on, until it is asked.
-/
namespace Newbro.AppServer

open Library Protocol Option Table List
open CodexTurn (Notification Reaction StreamState isBlockedRequest react)

/-- The event by which a stream asks the request. -/
structure Carries (event : AppEvent) (request : TurnRequest) : Prop where
  id : event.requestId = some request.id
  turnId : event.turnId = some request.turnId
  asks : ∃ method message, event.notification = .request method message ∧
    isBlockedRequest method = true

variable {event : AppEvent} {request : TurnRequest}

theorem Carries.react (h : Carries event request)
    (st : StreamState) (planMode : Bool) (turnId completedMessage : String) :
    ∃ told, react st planMode turnId completedMessage event.notification = (st, .ask told) := by
  obtain ⟨method, message, hnotification, hmethod⟩ := h.asks
  refine ⟨⟨.blocked, some message⟩, ?_⟩
  rw [hnotification, CodexTurn.react, if_pos hmethod]

namespace ServerRequest

/-- The event of a request is one that the stream of the turn gets and asks exactly if no stage
drops it. -/
theorem isKnown_iff (r : ServerRequest) (turnId : String) : r.isKnown turnId = true ↔
      r.line = .event r.event ∧ Carries r.event ⟨turnId, r.id⟩ := by
  have hline : r.line = .event r.event ↔ r.isResponse = false := by
    unfold line
    cases r.isResponse <;> simp
  have hevent : Carries r.event ⟨turnId, r.id⟩ ↔
      (∃ params, r.params? = some params ∧ eventTurnId params = some turnId) ∧
        ownMethods.contains r.method = false ∧ isBlockedRequest r.method = true := by
    constructor
    · rintro ⟨-, hturnId, method, message, hnotification, hmethod⟩
      simp only [event, AppEvent.turnId, notification] at hturnId hnotification
      cases hparams : r.params? with
      | none =>
        rw [hparams] at hnotification
        cases hnotification
      | some params =>
        rw [hparams] at hturnId hnotification
        cases hown : ownMethods.contains r.method with
        | true =>
          simp only [hown, if_true] at hnotification
          exact absurd hnotification (r.own_ne _ _)
        | false =>
          simp only [hown, Bool.false_eq_true, if_false, Notification.request.injEq]
            at hnotification
          exact ⟨⟨params, rfl, hturnId⟩, rfl, hnotification.1 ▸ hmethod⟩
    · rintro ⟨⟨params, hparams, hturnId⟩, hown, hmethod⟩
      refine ⟨rfl, ?_, r.method, r.question, ?_, hmethod⟩
      · simp only [event, AppEvent.turnId, hparams, Option.getD_some, hturnId]
      · simp only [event, notification, hparams, hown, Bool.false_eq_true, if_false]
  rw [hline, hevent, isKnown]
  simp only [Bool.and_eq_true, Bool.not_eq_true', Option.any_eq_true, decide_eq_true_eq, and_assoc]

end ServerRequest

/-! ## The places -/

def Undispatched (s : State) (event : AppEvent) (turnId : String) : Prop :=
  (∃ peer, s.eventTask = some peer.peerId ∧ s.peers.get? peer.peerId = some peer ∧
    event ∈ peer.events) ∧
  ∀ turn ∈ s.turns.entries, turn.turnId = turnId → s.registered turn = true ∧ turn.isOpen = true

def Backlogged (s : State) (event : AppEvent) (turnId : String) : Prop :=
  (∃ backlog, s.turnEventBacklog.lookup turnId = some backlog ∧ event ∈ backlog) ∧
  ∀ turn ∈ s.turns.entries, turn.turnId ≠ turnId

def Queued (s : State) (event : AppEvent) (turnId : String) : Prop :=
  ∃ turn ∈ s.turns.entries, turn.turnId = turnId ∧ event ∈ turn.queue ∧ turn.isOpen = true

def OnItsWay (s : State) (request : TurnRequest) : Prop :=
  ∃ event, Carries event request ∧ (Undispatched s event request.turnId ∨
    Backlogged s event request.turnId ∨ Queued s event request.turnId)

/-- The queues are those of streams of their turns. -/
def TablesFit (s : State) : Prop :=
  ∀ turnId streamId, s.turnEventQueues.lookup turnId = some streamId →
    ∃ turn, s.turns.get? streamId = some turn ∧ turn.turnId = turnId

/-- The dispatcher is stopped while an app-server is being closed. -/
structure Fit (s : State) : Prop where
  tables : TablesFit s
  closing : ∀ peerId, s.restart = .closing peerId → s.eventTask = none

structure Tracked (s : RequestState) : Prop where
  kept : ∀ request ∈ s.sent, request ∈ s.asked ∨ OnItsWay s.app request
  fit : Fit s.app

theorem tracked_noRequests : Tracked noRequests where
  kept := fun _ h => by cases h
  fit := ⟨fun _ _ h => (by cases h), fun _ h => (by cases h)⟩

/-- Where a request is on its way to its stream, a step is pending. -/
theorem Tracked.noneSwallowed {s : RequestState} (h : Tracked s) : NoneSwallowed s := by
  rintro hquiet request hsent ⟨own, hown, hownId⟩
  rcases h.kept request hsent with hasked | ⟨event, -, hplace⟩
  · exact hasked
  exfalso
  rcases hplace with ⟨⟨peer, htask, hpeer, hevent⟩, -⟩ | ⟨-, hnone⟩ | ⟨turn, hmem, -, hevent, hopen⟩
  · have hdispatch := hquiet .dispatch rfl
    simp only [State.step, State.dispatch, htask, bind_some, hpeer] at hdispatch
    split at hdispatch
    · rename_i hevents
      rw [hevents] at hevent
      cases hevent
    · cases hdispatch
  · exact hnone own hown hownId
  · have hget : s.app.turns.get? turn.streamId = some turn := Table.get?_of_mem hmem
    simp only [TurnStream.isOpen, Bool.or_eq_true, decide_eq_true_eq] at hopen
    rcases hopen with hreading | hwaiting
    · have hread := hquiet (.read turn.streamId) rfl
      obtain ⟨head, queue, hqueue⟩ := exists_cons_of_ne_nil (ne_nil_of_mem hevent)
      simp only [State.step, State.read, hget, bind_some, hreading, hqueue] at hread
      cases hread
    · have htimeout := hquiet (.answer turn.streamId .timedOut) rfl
      simp [State.step, State.answer, hget, hwaiting] at htimeout

/-! ## Steps that move no request -/

variable {peer : Peer} {turn : TurnStream} {peerId turnId streamId : String}

variable {line : OutputLine} {turn' : TurnStream} {events : List AppEvent} {p : TurnStream → Bool}
   {f : TurnStream → TurnStream} {l : Label}

section frames

variable {s s' : State} {event : AppEvent} {turnId : String}

/-- The dispatcher, the backlog and the streams are as they were, but for the turns and events
that a request does not look at. -/
theorem OnItsWay.frame (h : OnItsWay s request)
    (hpeers : ∀ peer event, s.eventTask = some peer.peerId →
      s.peers.get? peer.peerId = some peer → event ∈ peer.events →
        ∃ peer', s'.eventTask = some peer'.peerId ∧ s'.peers.get? peer'.peerId = some peer' ∧
          event ∈ peer'.events) (hbacklog : s'.turnEventBacklog = s.turnEventBacklog)
    (hqueues : s'.turnEventQueues = s.turnEventQueues)
    (hturns : ∀ turn' ∈ s'.turns.entries, ∃ turn ∈ s.turns.entries,
      turn'.turnId = turn.turnId ∧ turn'.streamId = turn.streamId ∧
        (turn.turnId = request.turnId → turn.isOpen = true → turn'.isOpen = true))
    (hqueued : ∀ turn ∈ s.turns.entries, turn.turnId = request.turnId → turn.isOpen = true →
      ∃ turn' ∈ s'.turns.entries, turn'.turnId = turn.turnId ∧ turn'.isOpen = true ∧
        ∀ event ∈ turn.queue, event ∈ turn'.queue) : OnItsWay s' request := by
  obtain ⟨event, hcarries, hplace⟩ := h
  refine ⟨event, hcarries, hplace.imp ?_ (Or.imp ?_ ?_)⟩
  · rintro ⟨⟨peer, htask, hpeer, hevent⟩, hregistered⟩
    refine ⟨hpeers peer event htask hpeer hevent, fun turn' hmem' hid => ?_⟩
    obtain ⟨turn, hmem, hturnId, hstream, hopen⟩ := hturns turn' hmem'
    have hown := hregistered turn hmem (hturnId.symm.trans hid)
    refine ⟨?_, hopen (hturnId.symm.trans hid) hown.2⟩
    rw [State.registered, hqueues, hturnId, hstream]
    exact hown.1
  · rintro ⟨hlookup, hnone⟩
    refine ⟨hbacklog ▸ hlookup, fun turn' hmem' hid => ?_⟩
    obtain ⟨turn, hmem, hturnId, -⟩ := hturns turn' hmem'
    exact hnone turn hmem (hturnId.symm.trans hid)
  · rintro ⟨turn, hmem, hid, hevent, hopen⟩
    obtain ⟨turn', hmem', hturnId, hopen', hqueue⟩ := hqueued turn hmem hid hopen
    exact ⟨turn', hmem', hturnId.trans hid, hqueue event hevent, hopen'⟩

theorem OnItsWay.of_eq (h : OnItsWay s request)
    (htask : s'.eventTask = s.eventTask) (hpeers : s'.peers = s.peers)
    (hbacklog : s'.turnEventBacklog = s.turnEventBacklog)
    (hqueues : s'.turnEventQueues = s.turnEventQueues) (hturns : s'.turns = s.turns) :
    OnItsWay s' request := by
  refine h.frame (fun peer event h₁ h₂ h₃ => ⟨peer, htask ▸ h₁, hpeers ▸ h₂, h₃⟩) hbacklog hqueues
    (fun turn hmem => ⟨turn, hturns ▸ hmem, rfl, rfl, fun _ => id⟩)
    fun turn hmem _ hopen => ⟨turn, hturns ▸ hmem, rfl, hopen, fun _ => id⟩

/-- A peer is written again with at least its events. -/
theorem OnItsWay.putPeer {old : Peer} (h : OnItsWay s request)
    (hget : s.peers.get? peer.peerId = some old)
    (hevents : ∀ event ∈ old.events, event ∈ peer.events) :
    OnItsWay { s with peers := s.peers.put peer } request := by
  refine h.frame (fun other event htask hother hevent => ?_) rfl rfl
    (fun turn hmem => ⟨turn, hmem, rfl, rfl, fun _ => id⟩)
    fun turn hmem _ hopen => ⟨turn, hmem, rfl, hopen, fun _ => id⟩
  by_cases hid : peer.peerId = other.peerId
  · rw [← hid, hget] at hother
    cases hother
    exact ⟨peer, htask.trans (congrArg some hid.symm), Table.get?_put_self _ _,
      hevents event hevent⟩
  · exact ⟨other, htask, (Table.get?_put_of_ne _ hid).trans hother, hevent⟩

theorem TurnStream.isOpen_failRequest
    (hopen : turn.isOpen = true) : turn.failRequest peerId = turn := by
  unfold TurnStream.failRequest
  rw [if_neg]
  rintro ⟨-, hphase⟩
  rw [TurnStream.isOpen, hphase] at hopen
  cases hopen

theorem OnItsWay.stopReader (h : OnItsWay s request)
    (hget : s.peers.get? peer.peerId = some peer) : OnItsWay (s.stopReader peer) request := by
  have hput : OnItsWay { s with peers := s.peers.put { peer with readerDone := true } } request :=
    h.putPeer hget fun _ => id
  refine hput.frame (fun other event htask hother hevent => ⟨other, htask, hother, hevent⟩) rfl rfl
    (fun turn' hmem' => ?_) fun turn hmem _ hopen => ?_
  · obtain ⟨turn, hmem, rfl⟩ := mem_turns_stopReader hmem'
    refine ⟨turn, hmem, ?_, turn.failRequest_streamId _, fun _ hopen => ?_⟩
    · rcases failRequest_cases turn peer.peerId with ⟨hsame, -⟩ | hsame <;> rw [hsame]
    · rw [TurnStream.isOpen_failRequest hopen]
      exact hopen
  · refine ⟨turn, mem_map.mpr ⟨turn, hmem, ?_⟩, rfl, hopen, fun _ => id⟩
    exact TurnStream.isOpen_failRequest hopen

theorem OnItsWay.output
    (h : OnItsWay s request) (hs : s.output peerId line = some s') : OnItsWay s' request := by
  obtain ⟨peer, hpeer, rfl⟩ := map_eq_some_iff.mp hs
  obtain ⟨hget, -⟩ := filter_eq_some_iff.mp hpeer
  obtain rfl : peer.peerId = peerId := key_of_get? hget
  cases line with
  | event event => exact h.putPeer hget fun _ => mem_append_left _
  | ignored => exact h
  | malformed | endOfStream => exact h.stopReader hget

/-- A stream is written again: the request is where it was, or its event has left the queue. -/
theorem OnItsWay.putTurn (turn' : TurnStream)
    (h : OnItsWay s request) (hget : s.turns.get? turn.streamId = some turn)
    (hstream : turn'.streamId = turn.streamId) (hturn : turn'.turnId = turn.turnId)
    (hopen : turn.turnId = request.turnId → turn.isOpen = true → turn'.isOpen = true) :
    OnItsWay { s with turns := s.turns.put turn' } request ∨
      ∃ event ∈ turn.queue, turn.turnId = request.turnId ∧ Carries event request ∧
        event ∉ turn'.queue := by
  obtain ⟨event, hcarries, hplace⟩ := h
  have hmem : turn ∈ s.turns.entries := mem_of_get? hget
  have hturns : ∀ other ∈ (s.turns.put turn').entries,
      other = turn' ∨ other ∈ s.turns.entries := fun other hother =>
    (mem_put.mp hother).imp id And.left
  rcases hplace with ⟨hpeer, hall⟩ | ⟨hbacklog, hnone⟩ | ⟨own, hown, hid, hevent, hownOpen⟩
  · refine .inl ⟨event, hcarries, .inl ⟨hpeer, fun other hother hid => ?_⟩⟩
    rcases hturns other hother with rfl | hother
    · obtain ⟨hregistered, hold⟩ := hall turn hmem (hturn.symm.trans hid)
      refine ⟨?_, hopen (hturn.symm.trans hid) hold⟩
      rw [State.registered, hturn, hstream]
      exact hregistered
    · exact hall other hother hid
  · refine .inl ⟨event, hcarries, .inr (.inl ⟨hbacklog, fun other hother hid => ?_⟩)⟩
    rcases hturns other hother with rfl | hother
    · exact hnone turn hmem (hturn.symm.trans hid)
    · exact hnone other hother hid
  · by_cases hsame : own = turn
    · subst hsame
      by_cases hkept : event ∈ turn'.queue
      · refine .inl ⟨event, hcarries, .inr (.inr ⟨turn', mem_put.mpr (.inl rfl), ?_, hkept,
          hopen hid hownOpen⟩)⟩
        exact hturn.trans hid
      · exact .inr ⟨event, hevent, hid, hcarries, hkept⟩
    · refine .inl ⟨event, hcarries, .inr (.inr ⟨own, ?_, hid, hevent, hownOpen⟩)⟩
      exact mem_put_of_ne turn (hstream ▸ hget) hown hsame

/-- A stream ends that does not go on reading about the turn of the request. -/
theorem OnItsWay.endTurn
    (h : OnItsWay s request) (hget : s.turns.get? turn.streamId = some turn)
    (hstream : turn'.streamId = turn.streamId) (hturn : turn'.turnId = turn.turnId)
    (hclosed : turn.turnId = request.turnId → turn.isOpen = false) :
    OnItsWay (s.endTurn turn') request := by
  have hmem : turn ∈ s.turns.entries := mem_of_get? hget
  have hqueues : ∀ id, turn.turnId ≠ id →
      (s.endTurn turn').turnEventQueues.lookup id = s.turnEventQueues.lookup id := by
    intro id hne
    show Dict.lookup (if _ then _ else _) id = _
    split
    · exact Dict.lookup_erase_of_ne _ (hturn ▸ hne)
    · rfl
  have hturns : ∀ other ∈ (s.endTurn turn').turns.entries, other.turnId = request.turnId →
      (other = { turn' with phase := .ended } ∧ turn.turnId = request.turnId) ∨
        other ∈ s.turns.entries := by
    intro other hother hid
    rcases mem_put.mp hother with rfl | ⟨hother, -⟩
    · exact .inl ⟨rfl, hturn.symm.trans hid⟩
    · exact .inr hother
  obtain ⟨event, hcarries, hplace⟩ := h
  refine ⟨event, hcarries, ?_⟩
  rcases hplace with ⟨hpeer, hall⟩ | ⟨hbacklog, hnone⟩ | ⟨own, hown, hid, hevent, hownOpen⟩
  · have hne : turn.turnId ≠ request.turnId := by
      intro hid
      obtain ⟨-, hopen⟩ := hall turn hmem hid
      rw [hclosed hid] at hopen
      cases hopen
    refine .inl ⟨hpeer, fun other hother hid => ?_⟩
    rcases hturns other hother hid with ⟨-, hid⟩ | hother
    · exact absurd hid hne
    · refine ⟨?_, (hall other hother hid).2⟩
      rw [State.registered, hqueues other.turnId fun heq => hne (heq.trans hid)]
      exact (hall other hother hid).1
  · refine .inr (.inl ⟨hbacklog, fun other hother hid => ?_⟩)
    rcases hturns other hother hid with ⟨-, hid⟩ | hother
    · exact hnone turn hmem hid
    · exact hnone other hother hid
  · refine .inr (.inr ⟨own, ?_, hid, hevent, hownOpen⟩)
    refine mem_put_of_ne turn (hstream ▸ hget) hown ?_
    rintro rfl
    rw [hclosed hid] at hownOpen
    cases hownOpen

/-- A stream is registered: it takes the backlog. -/
theorem OnItsWay.register (h : OnItsWay s request)
    (hs : s.register turn = some s') : OnItsWay s' request := by
  unfold State.register at hs
  split at hs
  · cases hs
  · rename_i hguard
    cases hs
    simp only [Bool.or_eq_true, not_or, Bool.not_eq_true, List.any_eq_false,
      decide_eq_true_eq] at hguard
    obtain ⟨⟨hfresh, -⟩, hids⟩ := hguard
    have hnew : s.turns.get? turn.streamId = none := by simpa [Table.contains] using hfresh
    have hold : ∀ other ∈ s.turns.entries, other ∈ (s.turns.put (State.opened turn
        ((s.turnEventBacklog.lookup turn.turnId).getD []))).entries := fun other hother =>
      Table.mem_put.mpr (.inr ⟨hother, Table.get?_eq_none_iff.mp hnew other hother⟩)
    obtain ⟨event, hcarries, hplace⟩ := h
    refine ⟨event, hcarries, ?_⟩
    rcases hplace with ⟨hpeer, hall⟩ | ⟨⟨backlog, hlookup, hevent⟩, hnone⟩ | hqueued
    · refine .inl ⟨hpeer, fun other hother hid => ?_⟩
      rcases Table.mem_put.mp hother with rfl | ⟨hother, -⟩
      · exact ⟨decide_eq_true (Dict.lookup_set_self _ _ _), rfl⟩
      · refine ⟨?_, (hall other hother hid).2⟩
        refine (congrArg (fun streamId => decide (streamId = some other.streamId)) ?_).trans
          (hall other hother hid).1
        exact Dict.lookup_set_of_ne _ _ fun heq => hids other hother heq.symm
    · by_cases hid : turn.turnId = request.turnId
      · refine .inr (.inr ⟨_, Table.mem_put.mpr (.inl rfl), hid, ?_, rfl⟩)
        rw [State.opened, hid, hlookup]
        exact hevent
      · refine .inr (.inl ⟨⟨backlog, ?_, hevent⟩, fun other hother => ?_⟩)
        · exact (Dict.lookup_erase_of_ne _ hid).trans hlookup
        · rcases Table.mem_put.mp hother with rfl | ⟨hother, -⟩
          · exact hid
          · exact hnone other hother
    · obtain ⟨own, hown, hrest⟩ := hqueued
      exact .inr (.inr ⟨own, hold own hown, hrest⟩)

/-- A request that is on its way and not asked is awaited. -/
theorem isAwaited_of {s : RequestState} {request : TurnRequest} {event : AppEvent}
    (hsent : request ∈ s.sent) (hasked : request ∉ s.asked) (h : Carries event request) :
    s.isAwaited event = true := by
  refine any_eq_true.mpr ⟨request, hsent, ?_⟩
  simp [h.id, h.turnId, hasked]

/-- What is kept of a backlog when an event joins it. -/
theorem mem_kept {backlog : List AppEvent} {limit : Nat}
    (hmem : event ∈ backlog) (hnot : event ∉ backlog.take (backlog.length - limit)) :
    event ∈ backlog.drop (backlog.length - limit) := by
  rw [← take_append_drop (backlog.length - limit) backlog, mem_append] at hmem
  exact hmem.resolve_left hnot

section routing

variable {request : TurnRequest} {head : AppEvent}

/-- What the routing of an event needs: the tables fit, and no event that the request rests on is
pushed out of the backlog. -/
structure Routes (s : State) (head : AppEvent) (request : TurnRequest) : Prop where
  tables : TablesFit s
  holds : ∀ turnId, head.turnId = some turnId → s.turnEventQueues.lookup turnId = none →
    ∀ event, Carries event request →
      event ∉ (((s.turnEventBacklog.lookup turnId).getD [] ++ [head]).take
        (((s.turnEventBacklog.lookup turnId).getD [] ++ [head]).length - CodexTurn.backlogLimit))

/-- An event is routed to its turn: the other requests stay on their way. -/
theorem OnItsWay.routeToTurn (h : OnItsWay s request)
    (hroutes : Routes s head request) (hid : head.turnId = some turnId) :
    OnItsWay (s.routeToTurn head turnId) request := by
  unfold State.routeToTurn
  split
  · rename_i streamId hlookup
    split
    · exact h
    · rename_i turn hget
      obtain rfl : turn.streamId = streamId := key_of_get? hget
      rcases h.putTurn (turn.push head) hget rfl rfl fun _ => id with h | hleft
      · exact h
      · obtain ⟨event, hmem, -, -, hnot⟩ := hleft
        exact absurd (mem_append_left _ hmem) hnot
  · rename_i hlookup
    obtain ⟨event, hcarries, hplace⟩ := h
    refine ⟨event, hcarries, hplace.imp_right (Or.imp_left ?_)⟩
    rintro ⟨⟨backlog, hbacklog, hmem⟩, hnone⟩
    refine ⟨?_, hnone⟩
    by_cases hsame : turnId = request.turnId
    · subst hsame
      refine ⟨_, Dict.lookup_set_self _ _ _, ?_⟩
      refine mem_kept (mem_append_left _ ?_) (hroutes.holds _ hid hlookup event hcarries)
      rw [hbacklog]
      exact hmem
    · exact ⟨backlog, (Dict.lookup_set_of_ne _ _ hsame).trans hbacklog, hmem⟩

/-- The event of a request arrives at its stream or in the backlog. -/
theorem Carries.arrives (h : Carries head request)
    (hroutes : Routes s head request) (hid : head.turnId = some turnId)
    (hall : ∀ turn ∈ s.turns.entries, turn.turnId = request.turnId →
      s.registered turn = true ∧ turn.isOpen = true) :
    OnItsWay (s.routeToTurn head turnId) request := by
  obtain rfl : turnId = request.turnId := some.inj (hid.symm.trans h.turnId)
  unfold State.routeToTurn
  split
  · rename_i streamId hlookup
    obtain ⟨turn, hget, hturn⟩ := hroutes.tables _ _ hlookup
    simp only [hget]
    refine ⟨head, h, .inr (.inr ⟨turn.push head, mem_put.mpr (.inl rfl), hturn, ?_, ?_⟩)⟩
    · exact mem_append_right _ (mem_singleton_self head)
    · exact (hall turn (mem_of_get? hget) hturn).2
  · rename_i hlookup
    refine ⟨head, h, .inr (.inl ⟨⟨_, Dict.lookup_set_self _ _ _, ?_⟩, fun turn hmem hturn => ?_⟩)⟩
    · refine mem_kept ?_ (hroutes.holds _ hid hlookup head h)
      exact mem_append_right _ (mem_singleton_self head)
    · have hregistered := (hall turn hmem hturn).1
      rw [State.registered, hturn, hlookup] at hregistered
      cases hregistered

/-- The dispatcher takes the first event of its peer: the request is where it was, or it is the
request of that event. -/
theorem OnItsWay.taken (h : OnItsWay s request)
    (htask : s.eventTask = some peer.peerId) (hget : s.peers.get? peer.peerId = some peer)
    (hevents : peer.events = head :: events) :
    OnItsWay (s.taken peer events) request ∨ (Carries head request ∧
      ∀ turn ∈ s.turns.entries, turn.turnId = request.turnId →
        s.registered turn = true ∧ turn.isOpen = true) := by
  obtain ⟨event, hcarries, hplace⟩ := h
  rcases hplace with ⟨⟨own, htask', hget', hevent⟩, hall⟩ | hrest
  · rw [htask] at htask'
    rw [← some.inj htask', hget] at hget'
    cases hget'
    rw [hevents, mem_cons] at hevent
    rcases hevent with rfl | hevent
    · exact .inr ⟨hcarries, hall⟩
    · exact .inl ⟨event, hcarries, .inl ⟨⟨{ peer with events := events }, htask,
        Table.get?_put_self _ _, hevent⟩, hall⟩⟩
  · exact .inl ⟨event, hcarries, .inr hrest⟩

/-- The dispatcher routes an event. -/
theorem OnItsWay.routeAppEvent (h : OnItsWay s request)
    (htask : s.eventTask = some peer.peerId) (hget : s.peers.get? peer.peerId = some peer)
    (hevents : peer.events = head :: events) (hroutes : Routes s head request) :
    OnItsWay ((s.taken peer events).routeAppEvent head) request := by
  have hturn : OnItsWay ((head.turnId.map ((s.taken peer events).routeToTurn head)).getD
      (s.taken peer events)) request := by
    have hroutes' : Routes (s.taken peer events) head request := ⟨hroutes.tables, hroutes.holds⟩
    rcases h.taken htask hget hevents with hkept | ⟨hcarries, hall⟩
    · cases hid : head.turnId with
      | none => exact hkept
      | some turnId => exact hkept.routeToTurn hroutes' hid
    · rw [hcarries.turnId]
      exact hcarries.arrives hroutes' hcarries.turnId hall
  unfold State.routeAppEvent
  cases head.threadId with
  | none => exact hturn
  | some threadId => exact hturn.of_eq rfl rfl rfl rfl rfl

end routing

theorem OnItsWay.dispatch {s : RequestState} {app : State} {request : TurnRequest}
    (h : OnItsWay s.app request) (htables : TablesFit s.app)
    (hsent : request ∈ s.sent) (hasked : request ∉ s.asked) (hholds : s.backlogHolds = true)
    (hs : s.app.dispatch = some app) : OnItsWay app request := by
  obtain ⟨peer, hpeer, hs⟩ := Option.bind_eq_some_iff.mp hs
  obtain ⟨peerId, htask, hget⟩ := Option.bind_eq_some_iff.mp hpeer
  obtain rfl : peer.peerId = peerId := Table.key_of_get? hget
  split at hs
  · cases hs
  · rename_i head events hevents
    cases hs
    refine h.routeAppEvent htask hget hevents ⟨htables, fun turnId hid hlookup event hcarries => ?_⟩
    intro hmem
    simp only [RequestState.backlogHolds, htask, Option.bind_some, hget, Option.all_some, hevents,
      List.head?_cons, hid, hlookup, Option.isSome_none, Bool.false_or, List.all_eq_true] at hholds
    have hnot := hholds event hmem
    rw [isAwaited_of hsent hasked hcarries] at hnot
    cases hnot

/-! ### The app session -/

theorem OnItsWay.createSession {s : RequestState} {app : State} {request : TurnRequest}
    (h : OnItsWay s.app request) (hsent : request ∈ s.sent) (hasked : request ∉ s.asked)
    (hcond : s.letsNoneDrop (.app .createSession) = true) (hs : s.app.createSession = some app) :
    OnItsWay app request := by
  unfold State.createSession at hs
  split at hs
  · cases hs
    exact h.of_eq rfl rfl rfl rfl rfl
  · rename_i peerId hidle hsession
    split at hs
    · cases hs
      refine h.frame (fun peer event htask hget hevent => ⟨peer, ?_, hget, hevent⟩) rfl rfl
        (fun turn hmem => ⟨turn, hmem, rfl, rfl, fun _ => id⟩)
        fun turn hmem _ hopen => ⟨turn, hmem, rfl, hopen, fun _ => id⟩
      show s.app.eventTask.or (some peerId) = some peer.peerId
      rw [htask, Option.some_or]
    · rename_i hexited
      cases hs
      -- the dispatcher is stopped, and has no request left to take
      obtain ⟨event, hcarries, hplace⟩ := h
      rcases hplace with ⟨⟨peer, htask, hget, hevent⟩, -⟩ | hrest
      · exfalso
        simp only [Bool.not_eq_true] at hexited
        simp only [RequestState.letsNoneDrop, State.closesAppSession, hsession, Option.any_some,
          hexited, Bool.not_false, Bool.not_true, Bool.false_or, htask, Option.bind_some, hget,
          Option.all_some, List.all_eq_true] at hcond
        have hnot := hcond event hevent
        rw [isAwaited_of hsent hasked hcarries] at hnot
        cases hnot
      · exact ⟨event, hcarries, .inr hrest⟩
  · cases hs

theorem OnItsWay.endReader (h : OnItsWay s request) (peerId : String) :
    OnItsWay (s.endReader peerId) request := by
  unfold State.endReader
  split
  · exact h
  · rename_i peer hpeer
    obtain ⟨hget, -⟩ := filter_eq_some_iff.mp hpeer
    obtain rfl : peer.peerId = peerId := key_of_get? hget
    exact h.stopReader hget

theorem endReader_frame (s : State) (peerId : String) :
    (s.endReader peerId).eventTask = s.eventTask ∧
      (s.endReader peerId).turnEventBacklog = s.turnEventBacklog := by
  unfold State.endReader
  split <;> exact ⟨rfl, rfl⟩

/-- The tables are cleared: a request that is still needed is in the queue of its stream. -/
theorem OnItsWay.closed {s : RequestState} {app : State} {request : TurnRequest}
    (h : OnItsWay s.app request) (hsent : request ∈ s.sent) (hasked : request ∉ s.asked)
    (hclosing : ∀ peerId, s.app.restart = .closing peerId → s.app.eventTask = none)
    (hcond : s.letsNoneDrop (.app .closed) = true) (hs : s.app.closed = some app) :
    OnItsWay app request := by
  unfold State.closed at hs
  split at hs
  · rename_i peerId hrestart
    cases hs
    obtain ⟨htask, hbacklog⟩ := endReader_frame s.app peerId
    obtain ⟨event, hcarries, hplace⟩ := h.endReader peerId
    rcases hplace with ⟨⟨peer, hpeer, -⟩, -⟩ | ⟨⟨backlog, hlookup, hevent⟩, -⟩ | hqueued
    · exfalso
      rw [htask, hclosing peerId hrestart] at hpeer
      cases hpeer
    · exfalso
      rw [hbacklog] at hlookup
      obtain ⟨entry, hentry, rfl⟩ := Option.map_eq_some_iff.mp hlookup
      simp only [RequestState.letsNoneDrop, List.all_eq_true] at hcond
      have hnot := hcond entry (Table.mem_of_get? hentry) event hevent
      rw [isAwaited_of hsent hasked hcarries] at hnot
      cases hnot
    · exact ⟨event, hcarries, .inr (.inr hqueued)⟩
  · cases hs

theorem OnItsWay.started (h : OnItsWay s request)
    (hs : s.started peerId = some s') : OnItsWay s' request := by
  unfold State.started at hs
  split at hs
  · cases hs
  · rename_i hnew
    cases hs
    simp only [not_or, Bool.not_eq_true] at hnew
    have hnone : s.peers.get? peerId = none := by simpa [Table.contains] using hnew.2
    refine h.frame (fun peer event htask hget hevent => ⟨peer, ?_, ?_, hevent⟩) rfl rfl
      (fun turn hmem => ⟨turn, hmem, rfl, rfl, fun _ => id⟩)
      fun turn hmem _ hopen => ⟨turn, hmem, rfl, hopen, fun _ => id⟩
    · show s.eventTask.or (some peerId) = some peer.peerId
      rw [htask, some_or]
    · have hne : peerId ≠ peer.peerId := by
        rintro rfl
        rw [hnone] at hget
        cases hget
      exact (Table.get?_put_of_ne _ hne).trans hget

/-! ### Streams -/

/-- A stream reads: the request stays where it is, or it is asked. -/
theorem OnItsWay.read {s : RequestState} {app : State} {request : TurnRequest} {streamId : String}
    (h : OnItsWay s.app request) (hsent : request ∈ s.sent) (hasked : request ∉ s.asked)
    (hcond : s.letsNoneDrop (.app (.read streamId)) = true) (hs : s.app.read streamId = some app) :
    RequestState.askedBy s.app streamId = some request ∨ OnItsWay app request := by
  obtain ⟨turn, hget, hnext⟩ := Option.bind_eq_some_iff.mp hs
  obtain rfl : turn.streamId = streamId := Table.key_of_get? hget
  split at hnext
  · rename_i head queue hphase hqueue
    cases hnext
    -- a stream ends only when the requests about its turn have been asked
    have hends : RequestState.endsTurn turn = true → turn.turnId ≠ request.turnId := by
      intro hends hid
      simp only [RequestState.letsNoneDrop, hget, Option.all_some, hends, Bool.not_true,
        Bool.false_or, RequestState.allAsked, List.all_eq_true] at hcond
      have hall := hcond request hsent
      simp [hid, hasked] at hall
    rcases hreact : react turn.stream turn.planMode turn.turnId turn.completedMessage
      head.notification with ⟨stream, reaction⟩
    have hasks : ∀ event ∈ turn.queue, Carries event request → turn.turnId = request.turnId →
        event ∉ queue → RequestState.askedBy s.app turn.streamId = some request := by
      intro event hevent hcarries hid hnot
      rw [hqueue, List.mem_cons] at hevent
      obtain rfl : event = head := hevent.resolve_right hnot
      obtain ⟨told, htold⟩ := hcarries.react turn.stream turn.planMode turn.turnId
        turn.completedMessage
      simp only [RequestState.askedBy, hget, Option.bind_some, hphase, hqueue, htold, hcarries.id,
        Option.map_some]
      rw [hid]
    have hput : ∀ turn' : TurnStream, turn'.streamId = turn.streamId →
        turn'.turnId = turn.turnId → turn'.queue = queue →
        (turn.turnId = request.turnId → turn.isOpen = true → turn'.isOpen = true) →
        RequestState.askedBy s.app turn.streamId = some request ∨
          OnItsWay { s.app with turns := s.app.turns.put turn' } request := by
      intro turn' hstream hturn hqueue' hopen
      rcases h.putTurn turn' hget hstream hturn hopen with hkept | ⟨event, hevent, hid, hcarries, hnot⟩
      · exact .inr hkept
      · exact .inl (hasks event hevent hcarries hid (hqueue' ▸ hnot))
    have hopen : turn.isOpen = true := by simp [TurnStream.isOpen, hphase]
    unfold State.readEvent
    simp only [hreact]
    cases reaction with
    | skip | tell => exact hput _ rfl rfl rfl fun _ _ => hopen
    | ask told => exact hput _ rfl rfl rfl fun _ _ => rfl
    | propose | finish =>
      have hending : RequestState.endsTurn turn = true := by
        simp only [RequestState.endsTurn, hphase, hqueue, hreact]
      exact .inr (h.endTurn hget rfl rfl fun hid => absurd hid (hends hending))
    | readFinalMessage =>
      have hending : RequestState.endsTurn turn = true := by
        simp only [RequestState.endsTurn, hphase, hqueue, hreact]
      exact hput _ rfl rfl rfl fun hid _ => absurd hid (hends hending)
  · cases hnext

/-- The other steps by which a stream ends. -/
theorem OnItsWay.endStream
    (h : OnItsWay s request)
    (hs : ((s.turns.get? streamId).filter p).map (fun turn => s.endTurn (f turn)) = some s')
    (hf : ∀ turn, (f turn).streamId = turn.streamId ∧ (f turn).turnId = turn.turnId)
    (hclosed : ∀ turn, s.turns.get? streamId = some turn → p turn = true →
      turn.turnId = request.turnId → turn.isOpen = false) : OnItsWay s' request := by
  obtain ⟨turn, hturn, rfl⟩ := map_eq_some_iff.mp hs
  obtain ⟨hget, hp⟩ := filter_eq_some_iff.mp hturn
  have hstream : turn.streamId = streamId := key_of_get? hget
  exact h.endTurn (hstream ▸ hget) (hf turn).1 (hf turn).2 (hclosed turn hget hp)

/-- `wait_for_blocked_resolution` returns, and the stream goes on if it was resolved. -/
theorem OnItsWay.answer {s : RequestState} {app : State} {request : TurnRequest}
    {streamId : String} {answer : Answer} (h : OnItsWay s.app request) (hsent : request ∈ s.sent)
    (hasked : request ∉ s.asked) (hcond : s.letsNoneDrop (.app (.answer streamId answer)) = true)
    (hs : s.app.answer streamId answer = some app) : OnItsWay app request := by
  obtain ⟨turn, hturn, rfl⟩ := Option.map_eq_some_iff.mp hs
  obtain ⟨hget, hphase⟩ := Option.filter_eq_some_iff.mp hturn
  obtain rfl : turn.streamId = streamId := Table.key_of_get? hget
  have hother : answer ≠ .resolved → turn.turnId = request.turnId → turn.isOpen = false := by
    intro hne hid
    exfalso
    simp only [RequestState.letsNoneDrop, hne, decide_false, Bool.false_or, hget, Option.all_some,
      RequestState.allAsked, List.all_eq_true] at hcond
    have hall := hcond request hsent
    simp [hid, hasked] at hall
  cases answer with
  | resolved =>
    rcases h.putTurn { turn with phase := .reading } hget rfl rfl
      fun _ _ => rfl with h | ⟨event, hevent, -, -, hnot⟩
    · exact h
    · exact absurd hevent hnot
  | aborted | timedOut => exact h.endTurn hget rfl rfl (hother (by decide))

/-! ### The tables -/

theorem Fit.frame (h : Fit s) (hrestart : s'.restart = s.restart)
    (htask : s'.eventTask = s.eventTask)
    (hqueues : ∀ turnId streamId, s'.turnEventQueues.lookup turnId = some streamId →
      s.turnEventQueues.lookup turnId = some streamId)
    (hturns : ∀ streamId turn, s.turns.get? streamId = some turn →
      ∃ turn', s'.turns.get? streamId = some turn' ∧ turn'.turnId = turn.turnId) : Fit s' where
  tables turnId streamId hlookup := by
    obtain ⟨turn, hget, hid⟩ := h.tables turnId streamId (hqueues turnId streamId hlookup)
    obtain ⟨turn', hget', hid'⟩ := hturns streamId turn hget
    exact ⟨turn', hget', hid'.trans hid⟩
  closing peerId hclosing := by
    rw [htask]
    exact h.closing peerId (hrestart ▸ hclosing)

theorem Fit.of_eq (h : Fit s) (hrestart : s'.restart = s.restart)
    (htask : s'.eventTask = s.eventTask) (hqueues : s'.turnEventQueues = s.turnEventQueues)
    (hturns : s'.turns = s.turns) : Fit s' :=
  h.frame hrestart htask (fun _ _ hlookup => hqueues ▸ hlookup)
    fun _ turn hget => ⟨turn, hturns ▸ hget, rfl⟩

theorem get?_put_turnId {turns : Table TurnStream.streamId} (turn' : TurnStream)
    (hget : turns.get? turn.streamId = some turn) (hstream : turn'.streamId = turn.streamId)
    (hturn : turn'.turnId = turn.turnId) (streamId : String) (other : TurnStream)
    (hother : turns.get? streamId = some other) :
    ∃ next, (turns.put turn').get? streamId = some next ∧ next.turnId = other.turnId := by
  by_cases hid : turn'.streamId = streamId
  · subst hid
    rw [hstream, hget] at hother
    cases hother
    exact ⟨turn', Table.get?_put_self _ _, hturn⟩
  · exact ⟨other, (Table.get?_put_of_ne _ hid).trans hother, rfl⟩

theorem Fit.putTurn (turn' : TurnStream) (h : Fit s)
    (hget : s.turns.get? turn.streamId = some turn) (hstream : turn'.streamId = turn.streamId)
    (hturn : turn'.turnId = turn.turnId) : Fit { s with turns := s.turns.put turn' } :=
  h.frame rfl rfl (fun _ _ hlookup => hlookup) (get?_put_turnId turn' hget hstream hturn)

section

variable (h : Fit s)
include h

theorem Fit.endTurn
    (hget : s.turns.get? turn.streamId = some turn) (hstream : turn'.streamId = turn.streamId)
    (hturn : turn'.turnId = turn.turnId) : Fit (s.endTurn turn') := by
  refine h.frame rfl rfl (fun turnId streamId hlookup => ?_)
    (get?_put_turnId { turn' with phase := .ended } hget hstream hturn)
  change Dict.lookup (if _ then _ else _) turnId = some streamId at hlookup
  split at hlookup
  · rw [Dict.lookup_erase] at hlookup
    split at hlookup
    · cases hlookup
    · exact hlookup
  · exact hlookup

theorem Fit.endStream
    (hs : ((s.turns.get? streamId).filter p).map (fun turn => s.endTurn (f turn)) = some s')
    (hf : ∀ turn, (f turn).streamId = turn.streamId ∧ (f turn).turnId = turn.turnId) : Fit s' := by
  obtain ⟨turn, hturn, rfl⟩ := map_eq_some_iff.mp hs
  obtain ⟨hget, -⟩ := filter_eq_some_iff.mp hturn
  have hstream : turn.streamId = streamId := key_of_get? hget
  exact h.endTurn (hstream ▸ hget) (hf turn).1 (hf turn).2

theorem Fit.stopReader : Fit (s.stopReader peer) := by
  refine h.frame rfl rfl (fun _ _ hlookup => hlookup) fun streamId turn hget => ?_
  refine ⟨turn.failRequest peer.peerId, ?_, ?_⟩
  · simp only [State.stopReader, Table.get?_mapValues, hget, map_some]
  · rcases failRequest_cases turn peer.peerId with ⟨hsame, -⟩ | hsame <;> rw [hsame]

theorem Fit.output (hs : s.output peerId line = some s') : Fit s' := by
  obtain ⟨peer, -, rfl⟩ := map_eq_some_iff.mp hs
  cases line with
  | event | ignored => exact h.of_eq rfl rfl rfl rfl
  | malformed | endOfStream => exact h.stopReader

theorem Fit.routeToTurn : Fit (s.routeToTurn event turnId) := by
  unfold State.routeToTurn
  split
  · rename_i streamId hlookup
    split
    · exact h
    · rename_i turn hget
      obtain rfl : turn.streamId = streamId := key_of_get? hget
      exact h.putTurn (turn.push event) hget rfl rfl
  · exact h.of_eq rfl rfl rfl rfl

theorem Fit.dispatch (hs : s.dispatch = some s') : Fit s' := by
  obtain ⟨peer, -, hs⟩ := bind_eq_some_iff.mp hs
  split at hs
  · cases hs
  · rename_i event events hevents
    cases hs
    have htaken : Fit { s with peers := s.peers.put { peer with events := events } } :=
      h.of_eq rfl rfl rfl rfl
    have hturn : Fit ((event.turnId.map (State.routeToTurn
        { s with peers := s.peers.put { peer with events := events } } event)).getD
          { s with peers := s.peers.put { peer with events := events } }) := by
      cases event.turnId with
      | none => exact htaken
      | some turnId => exact htaken.routeToTurn
    unfold State.routeAppEvent
    cases event.threadId with
    | none => exact hturn
    | some threadId => exact hturn.of_eq rfl rfl rfl rfl

theorem Fit.createSession (hs : s.createSession = some s') : Fit s' := by
  unfold State.createSession at hs
  split at hs
  · cases hs
    exact ⟨h.tables, fun _ hclosing => by cases hclosing⟩
  · rename_i peerId hidle hsession
    split at hs
    · cases hs
      refine ⟨h.tables, fun other hclosing => ?_⟩
      have hrestart : s.restart = .closing other := hclosing
      rw [hidle] at hrestart
      cases hrestart
    · cases hs
      exact ⟨h.tables, fun _ _ => rfl⟩
  · cases hs

theorem Fit.register (hs : s.register turn = some s') : Fit s' := by
  unfold State.register at hs
  split at hs
  · cases hs
  · rename_i hguard
    cases hs
    simp only [Bool.or_eq_true, not_or, Bool.not_eq_true] at hguard
    have hnew : s.turns.get? turn.streamId = none := by simpa [Table.contains] using hguard.1.1
    refine ⟨fun turnId streamId hlookup => ?_, h.closing⟩
    change Dict.lookup (Dict.set _ _ _) turnId = some streamId at hlookup
    rw [Dict.lookup_set] at hlookup
    split at hlookup
    · rename_i hid
      cases hlookup
      exact ⟨_, Table.get?_put_self _ _, hid⟩
    · obtain ⟨other, hget, hid⟩ := h.tables turnId streamId hlookup
      refine ⟨other, (Table.get?_put_of_ne _ ?_).trans hget, hid⟩
      show turn.streamId ≠ streamId
      rintro rfl
      rw [hnew] at hget
      cases hget

theorem Fit.read (hs : s.read streamId = some s') : Fit s' := by
  obtain ⟨turn, hget, hnext⟩ := bind_eq_some_iff.mp hs
  obtain rfl : turn.streamId = streamId := key_of_get? hget
  split at hnext
  · cases hnext
    unfold State.readEvent
    dsimp only
    split
    · exact h.putTurn _ hget rfl rfl
    · exact h.putTurn _ hget rfl rfl
    · exact h.endTurn hget rfl rfl
    · exact h.putTurn _ hget rfl rfl
    · exact h.endTurn hget rfl rfl
    · exact h.putTurn _ hget rfl rfl
  · cases hnext

theorem Fit.answer {answer : Answer} (hs : s.answer streamId answer = some s') : Fit s' := by
  obtain ⟨turn, hturn, rfl⟩ := map_eq_some_iff.mp hs
  obtain ⟨hget, -⟩ := filter_eq_some_iff.mp hturn
  obtain rfl : turn.streamId = streamId := key_of_get? hget
  cases answer with
  | resolved => exact h.putTurn { turn with phase := .reading } hget rfl rfl
  | aborted | timedOut => exact h.endTurn hget rfl rfl

theorem fit_step (hs : s.step l = some s') : Fit s' := by
  cases l with
  | output peerId line => exact h.output hs
  | exit peerId =>
    obtain ⟨peer, -, rfl⟩ := map_eq_some_iff.mp hs
    exact h.of_eq rfl rfl rfl rfl
  | dispatch => exact h.dispatch hs
  | createSession => exact h.createSession hs
  | closed =>
    change s.closed = some s' at hs
    unfold State.closed at hs
    split at hs
    · cases hs
      exact ⟨fun _ _ hlookup => (by cases hlookup), fun _ hclosing => (by cases hclosing)⟩
    · cases hs
  | started peerId =>
    change s.started peerId = some s' at hs
    unfold State.started at hs
    split at hs
    · cases hs
    · cases hs
      exact ⟨h.tables, fun _ hclosing => by cases hclosing⟩
  | startFails =>
    change s.startFails = some s' at hs
    unfold State.startFails at hs
    split at hs
    · cases hs
      exact ⟨h.tables, fun _ hclosing => by cases hclosing⟩
    · cases hs
  | register turn => exact h.register hs
  | read streamId => exact h.read hs
  | answer streamId answer => exact h.answer hs
  | finalMessage | finalMessageFails => exact h.endStream hs fun _ => ⟨rfl, rfl⟩
  | cancelTurn streamId => exact h.endStream (f := id) hs fun _ => ⟨rfl, rfl⟩
  | subscribe subscription =>
    change s.subscribe subscription = some s' at hs
    unfold State.subscribe at hs
    split at hs
    · cases hs
    · cases hs
      exact h.of_eq rfl rfl rfl rfl
  | nextThreadEvent sessionId =>
    obtain ⟨subscription, -, hs⟩ := bind_eq_some_iff.mp hs
    split at hs
    · cases hs
    · cases hs
      exact h.of_eq rfl rfl rfl rfl
  | unsubscribe sessionId =>
    obtain ⟨subscription, -, rfl⟩ := map_eq_some_iff.mp hs
    exact h.of_eq rfl rfl rfl rfl

end

end frames

/-! ## Runs -/

section runs

variable {s s' : RequestState}

/-- A step of the executor leaves a request on its way, or asks it. -/
theorem OnItsWay.step {request : TurnRequest} {app : State}
    (h : OnItsWay s.app request) (hsent : request ∈ s.sent) (hasked : request ∉ s.asked)
    (hfit : Fit s.app) (hcond : s.letsNoneDrop (.app l) = true) (hs : s.app.step l = some app) :
    (∃ streamId, l = .read streamId ∧ RequestState.askedBy s.app streamId = some request) ∨
      OnItsWay app request := by
  cases l with
  | output peerId line => exact .inr (h.output hs)
  | exit peerId =>
    obtain ⟨peer, hget, rfl⟩ := Option.map_eq_some_iff.mp hs
    obtain rfl : peer.peerId = peerId := Table.key_of_get? hget
    exact .inr (h.putPeer hget fun _ => id)
  | dispatch => exact .inr (h.dispatch hfit.tables hsent hasked hcond hs)
  | createSession => exact .inr (h.createSession hsent hasked hcond hs)
  | closed => exact .inr (h.closed hsent hasked hfit.closing hcond hs)
  | started peerId => exact .inr (h.started hs)
  | startFails =>
    change s.app.startFails = some app at hs
    unfold State.startFails at hs
    split at hs
    · cases hs
      exact .inr (h.of_eq rfl rfl rfl rfl rfl)
    · cases hs
  | register turn => exact .inr (h.register hs)
  | read streamId =>
    refine (h.read hsent hasked hcond hs).imp_left fun hask => ?_
    exact ⟨streamId, rfl, hask⟩
  | answer streamId answer => exact .inr (h.answer hsent hasked hcond hs)
  | finalMessage streamId text =>
    refine .inr (h.endStream hs (fun _ => ⟨rfl, rfl⟩) fun turn _ hphase _ => ?_)
    simp only [Bool.and_eq_true, decide_eq_true_eq] at hphase
    simp [TurnStream.isOpen, hphase.1]
  | finalMessageFails streamId =>
    refine .inr (h.endStream hs (fun _ => ⟨rfl, rfl⟩) fun turn _ hphase _ => ?_)
    simp only [decide_eq_true_eq] at hphase
    simp [TurnStream.isOpen, hphase]
  | cancelTurn streamId =>
    refine .inr (h.endStream (f := id) hs (fun _ => ⟨rfl, rfl⟩) fun turn hget _ hid => ?_)
    exfalso
    simp only [RequestState.letsNoneDrop, hget, Option.all_some, RequestState.allAsked,
      List.all_eq_true] at hcond
    have hall := hcond request hsent
    simp [hid, hasked] at hall
  | subscribe subscription =>
    change s.app.subscribe subscription = some app at hs
    unfold State.subscribe at hs
    split at hs
    · cases hs
    · cases hs
      exact .inr (h.of_eq rfl rfl rfl rfl rfl)
  | nextThreadEvent sessionId =>
    obtain ⟨subscription, -, hs⟩ := Option.bind_eq_some_iff.mp hs
    split at hs
    · cases hs
    · cases hs
      exact .inr (h.of_eq rfl rfl rfl rfl rfl)
  | unsubscribe sessionId =>
    obtain ⟨subscription, -, rfl⟩ := Option.map_eq_some_iff.mp hs
    exact .inr (h.of_eq rfl rfl rfl rfl rfl)

/-- A request that every stage knows is with the dispatcher once it has been sent. -/
theorem Tracked.send {r : ServerRequest} (h : Tracked s)
    (hcond : s.letsNoneDrop (.send peerId turnId r) = true)
    (hs : s.send peerId turnId r = some s') : Tracked s' := by
  unfold RequestState.send at hs
  split at hs
  · cases hs
  · rename_i hguard
    obtain ⟨app, hout, rfl⟩ := Option.map_eq_some_iff.mp hs
    refine ⟨fun request hsent => ?_, h.fit.output hout⟩
    rcases List.mem_append.mp hsent with hsent | hnew
    · exact (h.kept request hsent).imp_right fun hway => hway.output hout
    · obtain rfl : request = ⟨turnId, r.id⟩ := List.mem_singleton.mp hnew
      simp only [RequestState.letsNoneDrop, Bool.and_eq_true, decide_eq_true_eq,
        List.all_eq_true, Bool.or_eq_true] at hcond
      obtain ⟨⟨hknown, htask⟩, hopen⟩ := hcond
      obtain ⟨hline, hcarries⟩ := (r.isKnown_iff turnId).mp hknown
      rw [hline] at hout
      obtain ⟨peer, hpeer, rfl⟩ := Option.map_eq_some_iff.mp hout
      obtain rfl : peer.peerId = peerId :=
        Table.key_of_get? (Option.filter_eq_some_iff.mp hpeer).1
      refine .inr ⟨r.event, hcarries, .inl ⟨⟨{ peer with events := peer.events ++ [r.event] },
        htask, Table.get?_put_self _ _, ?_⟩, fun turn hmem hid => ⟨?_, ?_⟩⟩⟩
      · exact List.mem_append_right _ (List.mem_singleton_self _)
      · have hturn : s.hasTurn peer.peerId turnId = true := by
          simp only [Bool.or_eq_true, not_or, Bool.not_eq_true, Bool.not_eq_false'] at hguard
          exact hguard.1
        have hown := List.all_eq_true.mp hturn turn hmem
        simp only [hid, ne_eq, not_true_eq_false, decide_false, Bool.false_or, Bool.and_eq_true,
          decide_eq_true_eq] at hown
        refine decide_eq_true ?_
        rw [hid]
        exact hown.2
      · exact (hopen turn hmem).resolve_left fun hne => hne hid

theorem Tracked.appStep (h : Tracked s) (hcond : s.letsNoneDrop (.app l) = true)
    (hs : s.appStep l = some s') : Tracked s' := by
  have hway : ∀ app, s.app.step l = some app → ∀ request ∈ s.sent, request ∉ s.asked →
      (∃ streamId, l = .read streamId ∧ RequestState.askedBy s.app streamId = some request) ∨
        OnItsWay app request := fun app happ request hsent hasked =>
    ((h.kept request hsent).resolve_left hasked).step hsent hasked h.fit hcond happ
  have hquiet : (∀ streamId, l ≠ .read streamId) → ∀ app, s.app.step l = some app →
      Tracked { s with app := app } := by
    refine fun hread app happ => ⟨fun request hsent => ?_, fit_step h.fit happ⟩
    by_cases hasked : request ∈ s.asked
    · exact .inl hasked
    · rcases hway app happ request hsent hasked with ⟨streamId, hl, -⟩ | hway
      · exact absurd hl (hread streamId)
      · exact .inr hway
  unfold RequestState.appStep at hs
  split at hs
  · split at hs
    · cases hs
    · obtain ⟨app, happ, rfl⟩ := map_eq_some_iff.mp hs
      exact hquiet (fun _ hl => by cases hl) app happ
  · rename_i streamId
    obtain ⟨app, happ, rfl⟩ := map_eq_some_iff.mp hs
    refine ⟨fun request hsent => ?_, fit_step h.fit happ⟩
    by_cases hasked : request ∈ s.asked
    · exact .inl (mem_append_left _ hasked)
    · rcases hway app happ request hsent hasked with ⟨_, hl, hask⟩ | hway
      · cases hl
        refine .inl (mem_append_right _ ?_)
        rw [hask]
        exact mem_singleton_self request
      · exact .inr hway
  · rename_i hread
    obtain ⟨app, happ, rfl⟩ := map_eq_some_iff.mp hs
    exact hquiet (fun streamId hl => hread streamId hl) app happ

end runs

/-- In every run in which no stage drops a request, no state at rest has a request about a turn
that its stream has not asked. -/
theorem none_swallowed (labels : List RequestLabel)
    (h : requestSystem.Along (fun s l => s.letsNoneDrop l = true) noRequests labels) :
    requestSystem.Always NoneSwallowed noRequests labels := by
  have htracked : requestSystem.Always Tracked noRequests labels := by
    refine h.always tracked_noRequests fun s l s' hs hcond hstep => ?_
    cases l with
    | send peerId turnId r => exact hs.send hcond hstep
    | app l => exact hs.appStep hcond hstep
  exact htracked.mono fun s hs => hs.noneSwallowed

/-! ## Approvals -/

def approval (method : String) (params : Fields) : ServerRequest where
  id := .int 7
  method := method
  members := [("params", .dict params)]
  question := "Allow command execution? deploy"
  own := .otherItem
  own_ne := by simp

/-- A turn is running when the app-server sends a request about it. -/
def approvalRun (r : ServerRequest) : List RequestLabel :=
  [.app .createSession, .app (.started "peer-1"),
    .app (.register (codexTurn "stream-1" "peer-1" "turn-1")), .send "peer-1" "turn-1" r,
    .app .dispatch]

/-- The approval of a command by its turn. -/
def namedApproval : ServerRequest :=
  approval "item/commandExecution/requestApproval"
    [("threadId", .str "thread-1"), ("turnId", .str "turn-1"), ("command", .str "deploy")]

/-- The older shape, which names the conversation and no turn. -/
def execCommandApproval : ServerRequest :=
  approval "execCommandApproval"
    [("conversationId", .str "thread-1"), ("command", .list [.str "deploy"])]

theorem namedApproval_asked : requestSystem.Always NoneSwallowed noRequests
      (approvalRun namedApproval ++ [.app (.read "stream-1")]) :=
  none_swallowed _ (System.along_of_check (by decide +kernel))

/-- The dispatcher finds no turn in an approval of the older shape, and nobody asks it. -/
theorem execCommandApproval_swallowed :
    ¬ ∀ labels, requestSystem.Always NoneSwallowed noRequests labels := by
  intro h
  have hrun : requestSystem.run noRequests (approvalRun execCommandApproval) =
      some (requestSystem.target noRequests (approvalRun execCommandApproval)) :=
    System.run_eq_target (by decide +kernel)
  have hnone := (h _).at_end hrun
  have hquiet : Quiet (requestSystem.target noRequests (approvalRun execCommandApproval)).app :=
    quiet_of_idle (by decide) (by decide) (by decide) (by decide)
  have hasked := hnone hquiet ⟨"turn-1", .int 7⟩ (by decide) (by decide)
  exact absurd hasked (by decide)

end Newbro.AppServer
