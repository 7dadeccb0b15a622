import Newbro.AppServer

/-!
# The end of an app-server

Nothing tells the queues that an app-server has no more to say. A reader of its queues gets
on only as far as the events that it had said before take it.
-/
namespace Newbro.AppServer

open Library Protocol Option Table List
open CodexTurn (CodexEvent CompletedTurn Notification Reaction StreamState react)

/-! ## The property -/

/-- The steps that need nothing from an app-server, a user or the node. -/
def Label.pending : Label → Bool
  | .dispatch => true
  | .closed => true
  | .read _ => true
  | .answer _ .timedOut => true
  | .finalMessageFails _ => true
  | .nextThreadEvent _ => true
  | _ => false

def Quiet (s : State) : Prop := ∀ label : Label, label.pending = true → s.step label = none

/-- When no step is pending, nothing waits for an app-server whose output has ended. -/
def NoneStranded (s : State) : Prop :=
  Quiet s → ∀ peerId, s.peerDone peerId = true →
    (∀ turn ∈ s.turns.entries, turn.peerId = peerId → turn.phase = .ended) ∧
      ∀ subscription ∈ s.subscriptions.entries, subscription.peerId = peerId →
        subscription.ended = true

/-! ## The condition -/

/-- The events take the stream to its end, without a request that would not be answered. -/
def settles (planMode : Bool) (turnId completedMessage : String) :
    StreamState → List AppEvent → Bool
  | _, [] => false
  | st, event :: events =>
    match react st planMode turnId completedMessage event.notification with
    | (_, .finish _) => true
    | (_, .propose _) => true
    | (_, .readFinalMessage) => false
    | (st, _) => settles planMode turnId completedMessage st events

def TurnStream.settledBy (turn : TurnStream) (events : List AppEvent) : Bool :=
  settles turn.planMode turn.turnId turn.completedMessage turn.stream events

namespace State

/-- The events of a turn that the dispatcher has still to take from the peer. -/
def undelivered (s : State) (peerId turnId : String) : List AppEvent :=
  if s.eventTask = some peerId then
    (((s.peers.get? peerId).map Peer.events).getD []).filter (·.turnId = some turnId)
  else []

def registered (s : State) (turn : TurnStream) : Bool :=
  s.turnEventQueues.lookup turn.turnId = some turn.streamId

/-- What a stream will read when nothing more is said. -/
def toRead (s : State) (turn : TurnStream) : List AppEvent :=
  turn.queue ++ if s.registered turn then s.undelivered turn.peerId turn.turnId else []

/-- Every stream that reads the events of the peer will come to its end. -/
def turnsSettled (s : State) (peerId : String) : Bool :=
  s.turns.entries.all fun turn =>
    turn.peerId ≠ peerId || turn.phase ≠ .reading || turn.settledBy (s.toRead turn)

def subscriptionsEnded (s : State) (peerId : String) : Bool :=
  s.subscriptions.entries.all fun subscription => subscription.peerId ≠ peerId || subscription.ended

/-- The dispatcher is not needed any more for the streams of peers that are done. -/
def queuesSettled (s : State) : Bool :=
  s.turns.entries.all fun turn =>
    !s.peerDone turn.peerId || turn.phase ≠ .reading || turn.settledBy turn.queue

/-- `_ensure_app_session` is going to close the app-server that it has. -/
def closesAppSession (s : State) : Bool :=
  s.appSession.any fun peerId => !(s.peers.get? peerId).any fun peer => !peer.exited

end State

/-- The output of an app-server ends, and its dispatcher is stopped, when every stream of it
has its last event in reach and no thread subscription listens; nothing begins to read from
it later unless its last event is there. -/
def endsInTime (s : State) : Label → Bool
  | .output peerId line => !line.ends || (s.turnsSettled peerId && s.subscriptionsEnded peerId)
  | .createSession => !s.closesAppSession || s.queuesSettled
  | .closed =>
    match s.restart with
    | .closing peerId => s.peerDone peerId || (s.turnsSettled peerId && s.subscriptionsEnded peerId)
    | _ => true
  | .register turn =>
    !s.peerDone turn.peerId ||
      settles turn.planMode turn.turnId turn.completedMessage .empty
        ((s.turnEventBacklog.lookup turn.turnId).getD [] ++
          s.undelivered turn.peerId turn.turnId)
  | .answer streamId .resolved =>
    (s.turns.get? streamId).all fun turn =>
      !s.peerDone turn.peerId || turn.settledBy (s.toRead turn)
  | .subscribe subscription => !s.peerDone subscription.peerId
  | _ => true

/-! ## Streams -/

variable {turnId : String}

variable {planMode : Bool} {completedMessage : String} {st : StreamState} {events : List AppEvent}

theorem settles_append
    (more : List AppEvent)
    (h : settles planMode turnId completedMessage st events = true) :
    settles planMode turnId completedMessage st (events ++ more) = true := by
  induction events generalizing st with
  | nil => cases h
  | cons event events ih =>
    simp only [cons_append, settles] at h ⊢
    split at h
    · rfl
    · rfl
    · cases h
    · exact ih h

theorem ne_nil_of_settles
    (h : settles planMode turnId completedMessage st events = true) : events ≠ [] := by
  rintro rfl
  cases h

/-! ## The invariant -/

structure Sound (s : State) : Prop where
  tables : ∀ turnId streamId, s.turnEventQueues.lookup turnId = some streamId →
    ∃ turn, s.turns.get? streamId = some turn ∧ turn.turnId = turnId
  settled : ∀ turn ∈ s.turns.entries, s.peerDone turn.peerId = true → turn.phase = .reading →
    turn.settledBy (s.toRead turn) = true
  answered : ∀ turn ∈ s.turns.entries, s.peerDone turn.peerId = true →
    turn.phase ≠ .readingFinal
  ended : ∀ subscription ∈ s.subscriptions.entries,
    s.peerDone subscription.peerId = true → subscription.ended = true
  closing : ∀ peerId, s.restart = .closing peerId → s.eventTask = none

theorem sound_empty : Sound emptyState where
  tables := fun _ _ h => by cases h
  settled := fun _ h => by cases h
  answered := fun _ h => by cases h
  ended := fun _ h => by cases h
  closing := fun _ h => by cases h

variable {s : State}

/-- A stream that reads has something to read, or the dispatcher has it for the stream. -/
theorem Sound.noneStranded (h : Sound s) : NoneStranded s := by
  intro hquiet peerId hdone
  refine ⟨?_, ?_⟩
  · rintro turn hmem rfl
    have hget : s.turns.get? turn.streamId = some turn := Table.get?_of_mem hmem
    cases hphase : turn.phase with
    | ended => rfl
    | reading =>
      exfalso
      have hsettled := ne_nil_of_settles (h.settled turn hmem hdone hphase)
      cases hqueue : turn.queue with
      | cons event queue =>
        have hread := hquiet (.read turn.streamId) rfl
        simp only [State.step, State.read, hget, bind_some, hphase, hqueue] at hread
        cases hread
      | nil =>
        have hdispatch := hquiet .dispatch rfl
        apply hsettled
        rw [State.toRead, hqueue, nil_append]
        split
        · unfold State.undelivered
          split
          · rename_i htask
            cases hpeer : s.peers.get? turn.peerId with
            | none => rfl
            | some peer =>
              simp only [State.step, State.dispatch, htask, bind_some, hpeer]
                at hdispatch
              split at hdispatch
              · rename_i hevents
                simp only [map_some, getD_some, hevents, filter_nil]
              · cases hdispatch
          · rfl
        · rfl
    | waitingAnswer =>
      have htimeout := hquiet (.answer turn.streamId .timedOut) rfl
      simp [State.step, State.answer, hget, hphase] at htimeout
    | readingFinal => exact absurd hphase (h.answered turn hmem hdone)
    | finalFailed =>
      have hfails := hquiet (.finalMessageFails turn.streamId) rfl
      simp [State.step, State.finalMessageFails, hget, hphase] at hfails
  · rintro subscription hmem rfl
    exact h.ended subscription hmem hdone

/-! ## What each step preserves -/

variable {turn : TurnStream} {peer : Peer} {peerId streamId : String}

variable {turn' : TurnStream} {sessionId : String}

section steps

variable {s s' : State}

theorem Sound.frame (h : Sound s) (hqueues : s'.turnEventQueues = s.turnEventQueues)
    (hturns : s'.turns = s.turns) (hsubscriptions : s'.subscriptions = s.subscriptions)
    (hdone : ∀ peerId, s'.peerDone peerId = s.peerDone peerId)
    (hread : ∀ turn : TurnStream, s.peerDone turn.peerId = true →
      ∃ more, s'.toRead turn = s.toRead turn ++ more)
    (hclosing : ∀ peerId, s'.restart = .closing peerId → s'.eventTask = none) : Sound s' where
  tables := by
    rw [hqueues, hturns]
    exact h.tables
  settled := by
    intro turn hmem hturn hphase
    rw [hturns] at hmem
    rw [hdone] at hturn
    obtain ⟨more, hmore⟩ := hread turn hturn
    rw [hmore]
    exact settles_append more (h.settled turn hmem hturn hphase)
  answered := by
    intro turn hmem hturn
    rw [hturns] at hmem
    rw [hdone] at hturn
    exact h.answered turn hmem hturn
  ended := by
    intro subscription hmem hsubscription
    rw [hsubscriptions] at hmem
    rw [hdone] at hsubscription
    exact h.ended subscription hmem hsubscription
  closing := hclosing

theorem Sound.putTurn (h : Sound s)
    (hget : s.turns.get? turn.streamId = some turn) (hstream : turn'.streamId = turn.streamId)
    (hturn : turn'.turnId = turn.turnId)
    (hsettled : s.peerDone turn'.peerId = true → turn'.phase = .reading →
      turn'.settledBy (s.toRead turn') = true)
    (hanswered : s.peerDone turn'.peerId = true → turn'.phase ≠ .readingFinal) :
    Sound { s with turns := s.turns.put turn' } where
  tables := by
    intro turnId streamId hlookup
    obtain ⟨current, hcurrent, hid⟩ := h.tables turnId streamId hlookup
    by_cases hsame : turn'.streamId = streamId
    · subst hsame
      rw [hstream, hget] at hcurrent
      cases hcurrent
      exact ⟨turn', Table.get?_put_self _ _, hturn.trans hid⟩
    · exact ⟨current, (Table.get?_put_of_ne _ hsame).trans hcurrent, hid⟩
  settled := by
    intro other hmem hdone hphase
    rcases mem_put.mp hmem with rfl | ⟨hmem, -⟩
    · exact hsettled hdone hphase
    · exact h.settled other hmem hdone hphase
  answered := by
    intro other hmem hdone
    rcases mem_put.mp hmem with rfl | ⟨hmem, -⟩
    · exact hanswered hdone
    · exact h.answered other hmem hdone
  ended := h.ended
  closing := h.closing

/-- The queue of a stream that does not read may be forgotten. -/
theorem Sound.forgetQueue (h : Sound s) (turn : TurnStream)
    (hget : s.turns.get? turn.streamId = some turn) (hphase : turn.phase ≠ .reading)
    (hlookup : s.turnEventQueues.lookup turn.turnId = some turn.streamId) :
    Sound { s with turnEventQueues := s.turnEventQueues.erase turn.turnId } where
  tables := by
    intro turnId streamId hstill
    simp only [Dict.lookup_erase] at hstill
    split at hstill
    · cases hstill
    · exact h.tables turnId streamId hstill
  settled := by
    intro other hmem hdone hreading
    have hread : ({ s with turnEventQueues := s.turnEventQueues.erase turn.turnId } :
        State).toRead other = s.toRead other := by
      have hsame : ({ s with turnEventQueues := s.turnEventQueues.erase turn.turnId } :
          State).registered other = s.registered other := by
        simp only [State.registered, Dict.lookup_erase]
        split
        · rename_i hid
          rw [← hid, hlookup]
          have hne : turn.streamId ≠ other.streamId := by
            intro hstream
            rw [hstream, Table.get?_of_mem hmem] at hget
            cases hget
            exact hphase hreading
          simp [hne]
        · rfl
      simp only [State.toRead, hsame]
      rfl
    rw [hread]
    exact h.settled other hmem hdone hreading
  answered := h.answered
  ended := h.ended
  closing := h.closing

theorem sound_endTurn (h : Sound s)
    (hget : s.turns.get? turn.streamId = some turn) (hstream : turn'.streamId = turn.streamId)
    (hturn : turn'.turnId = turn.turnId) : Sound (s.endTurn turn') := by
  have hput : Sound { s with turns := s.turns.put { turn' with phase := .ended } } :=
    h.putTurn hget hstream hturn (fun _ hphase => by cases hphase) (fun _ hphase => by cases hphase)
  unfold State.endTurn
  simp only
  split
  · rename_i hlookup
    exact hput.forgetQueue { turn' with phase := .ended } (Table.get?_put_self _ _)
      (fun hphase => by cases hphase) hlookup
  · exact hput

/-- A peer is written again without its read loop ending. -/
theorem peerDone_putPeer (s : State) (peer : Peer) {old : Peer}
    (hold : s.peers.get? peer.peerId = some old) (hreader : peer.readerDone = old.readerDone)
    (peerId : String) :
    ({ s with peers := s.peers.put peer } : State).peerDone peerId = s.peerDone peerId := by
  simp only [State.peerDone, Table.get?_put]
  split
  · rename_i hid
    rw [← hid, hold, any_some, any_some, hreader]
  · rfl

theorem peerDone_of_get? (hget : s.peers.get? peer.peerId = some peer) :
    s.peerDone peer.peerId = peer.readerDone := by
  simp only [State.peerDone, hget, any_some]

theorem toRead_congr (hqueues : s'.turnEventQueues = s.turnEventQueues)
    (hundelivered : s'.undelivered turn.peerId turn.turnId =
      s.undelivered turn.peerId turn.turnId) : s'.toRead turn = s.toRead turn := by
  unfold State.toRead State.registered
  rw [hqueues, hundelivered]

theorem undelivered_putPeer (s : State) (peer : Peer)
    (hne : peer.peerId ≠ peerId) (turnId : String) :
    ({ s with peers := s.peers.put peer } : State).undelivered peerId turnId =
      s.undelivered peerId turnId := by
  simp only [State.undelivered]
  rw [Table.get?_put_of_ne _ hne]

theorem sound_event (h : Sound s) (hget : s.peers.get? peer.peerId = some peer)
    (hopen : peer.readerDone = false) (event : AppEvent) :
    Sound { s with peers := s.peers.put { peer with events := peer.events ++ [event] } } := by
  have hdone := peerDone_putPeer s { peer with events := peer.events ++ [event] } hget rfl
  refine h.frame rfl rfl rfl hdone (fun turn hturn => ⟨[], ?_⟩) h.closing
  have hne : peer.peerId ≠ turn.peerId := by
    intro hid
    rw [← hid, peerDone_of_get? hget, hopen] at hturn
    cases hturn
  rw [append_nil]
  exact toRead_congr rfl
    (undelivered_putPeer s { peer with events := peer.events ++ [event] } hne turn.turnId)

theorem sound_exit (h : Sound s) (hs : s.exit peerId = some s') : Sound s' := by
  obtain ⟨peer, hget, rfl⟩ := map_eq_some_iff.mp hs
  have hid : peer.peerId = peerId := key_of_get? hget
  subst hid
  have hdone := peerDone_putPeer s { peer with exited := true } hget rfl
  refine h.frame rfl rfl rfl hdone (fun turn hturn => ⟨[], ?_⟩) h.closing
  rw [append_nil]
  refine toRead_congr rfl ?_
  simp only [State.undelivered, Table.get?_put]
  by_cases hsame : peer.peerId = turn.peerId
  · rw [if_pos hsame, ← hsame, hget]
    rfl
  · rw [if_neg hsame]

theorem failRequest_cases (turn : TurnStream) (peerId : String) :
    (turn.failRequest peerId = turn ∧ (turn.peerId = peerId → turn.phase ≠ .readingFinal)) ∨
      turn.failRequest peerId = { turn with phase := .finalFailed } := by
  unfold TurnStream.failRequest
  split
  · exact .inr rfl
  · rename_i hnot
    exact .inl ⟨rfl, fun hpeer hphase => hnot ⟨hpeer, hphase⟩⟩

theorem peerDone_stopReader (hne : peer.peerId ≠ peerId) :
    (s.stopReader peer).peerDone peerId = s.peerDone peerId := by
  simp only [State.peerDone, State.stopReader, Table.get?_put, if_neg hne]

theorem toRead_stopReader (hget : s.peers.get? peer.peerId = some peer)
    (turn : TurnStream) : (s.stopReader peer).toRead turn = s.toRead turn := by
  refine toRead_congr rfl ?_
  simp only [State.undelivered, State.stopReader]
  by_cases hsame : peer.peerId = turn.peerId
  · have hself := Table.get?_put_self s.peers { peer with readerDone := true }
    rw [← hsame, hself, hget]
    rfl
  · simp only [Table.get?_put, if_neg hsame]

theorem mem_turns_stopReader (h : turn ∈ (s.stopReader peer).turns.entries) :
    ∃ old ∈ s.turns.entries, old.failRequest peer.peerId = turn := mem_map.mp h

section

variable (h : Sound s)
include h

/-- The read loop of a peer ends in time. -/
theorem sound_stopReader (hget : s.peers.get? peer.peerId = some peer)
    (hturns : s.turnsSettled peer.peerId = true)
    (hsubscriptions : s.subscriptionsEnded peer.peerId = true) : Sound (s.stopReader peer) := by
  refine ⟨?_, ?_, ?_, ?_, h.closing⟩
  · intro turnId streamId hlookup
    obtain ⟨turn, hturn, hid⟩ := h.tables turnId streamId hlookup
    refine ⟨turn.failRequest peer.peerId, ?_, ?_⟩
    · simp only [State.stopReader, Table.get?_mapValues, hturn, map_some]
    · rcases failRequest_cases turn peer.peerId with ⟨hsame, -⟩ | hsame
      · rw [hsame, hid]
      · rw [hsame]
        exact hid
  · intro turn hmem hturn hphase
    obtain ⟨old, hold, hfailed⟩ := mem_turns_stopReader hmem
    rcases failRequest_cases old peer.peerId with ⟨hsame, -⟩ | hsame
    · rw [hsame] at hfailed
      subst hfailed
      rw [toRead_stopReader hget old]
      by_cases hpeer : peer.peerId = old.peerId
      · have hsettled := all_eq_true.mp hturns old hold
        simp only [hpeer, hphase, ne_eq, not_true, decide_false, Bool.false_or] at hsettled
        exact hsettled
      · rw [peerDone_stopReader hpeer] at hturn
        exact h.settled old hold hturn hphase
    · rw [← hfailed, hsame] at hphase
      cases hphase
  · intro turn hmem hturn hphase
    obtain ⟨old, hold, hfailed⟩ := mem_turns_stopReader hmem
    rcases failRequest_cases old peer.peerId with ⟨hsame, hnot⟩ | hsame
    · rw [hsame] at hfailed
      subst hfailed
      by_cases hpeer : peer.peerId = old.peerId
      · exact hnot hpeer.symm hphase
      · rw [peerDone_stopReader hpeer] at hturn
        exact h.answered old hold hturn hphase
    · rw [← hfailed, hsame] at hphase
      cases hphase
  · intro subscription hmem hsubscription
    by_cases hpeer : peer.peerId = subscription.peerId
    · have hended := all_eq_true.mp hsubscriptions subscription hmem
      simp only [hpeer, ne_eq, not_true, decide_false, Bool.false_or] at hended
      exact hended
    · rw [peerDone_stopReader hpeer] at hsubscription
      exact h.ended subscription hmem hsubscription

theorem sound_output {line : OutputLine}
    (hs : s.output peerId line = some s') (htime : endsInTime s (.output peerId line) = true) :
    Sound s' := by
  obtain ⟨peer, hpeer, rfl⟩ := map_eq_some_iff.mp hs
  obtain ⟨hget, hopen⟩ := filter_eq_some_iff.mp hpeer
  have hid : peer.peerId = peerId := key_of_get? hget
  subst hid
  have hstop : line.ends = true → Sound (s.stopReader peer) := by
    intro hends
    simp only [endsInTime, hends, Bool.not_true, Bool.false_or, Bool.and_eq_true] at htime
    exact sound_stopReader h hget htime.1 htime.2
  cases line with
  | event event => exact sound_event h hget (by simpa using hopen) event
  | ignored => exact h
  | malformed | endOfStream => exact hstop rfl

theorem sound_createSession (hs : s.createSession = some s')
    (htime : endsInTime s .createSession = true) : Sound s' := by
  unfold State.createSession at hs
  split at hs
  · rename_i hidle hnone
    cases hs
    exact h.frame rfl rfl rfl (fun _ => rfl) (fun turn _ => ⟨[], (append_nil _).symm⟩)
      (fun peerId hclosing => by cases hclosing)
  · rename_i peerId hidle hsession
    split at hs
    · rename_i halive
      cases hs
      have hread : ∀ turn : TurnStream, ∃ more,
          ({ s with eventTask := s.eventTask.or (some peerId) } : State).toRead turn =
            s.toRead turn ++ more := by
        intro turn
        by_cases htask : s.eventTask = none
        · have hnone : s.undelivered turn.peerId turn.turnId = [] := by
            simp only [State.undelivered, htask, reduceCtorEq, if_false]
          refine ⟨if s.registered turn then ({ s with eventTask := s.eventTask.or (some peerId) } :
            State).undelivered turn.peerId turn.turnId else [], ?_⟩
          simp only [State.toRead, hnone, ite_self, append_nil]
          rfl
        · obtain ⟨current, hcurrent⟩ := ne_none_iff_exists'.mp htask
          have hsame : s.eventTask.or (some peerId) = s.eventTask := by rw [hcurrent, some_or]
          rw [hsame]
          exact ⟨[], (append_nil _).symm⟩
      refine h.frame rfl rfl rfl (fun _ => rfl) (fun turn _ => hread turn) ?_
      intro other hclosing
      have hrestart : s.restart = .closing other := hclosing
      rw [hidle] at hrestart
      cases hrestart
    · rename_i hexited
      cases hs
      simp only [Bool.not_eq_true] at hexited
      simp only [endsInTime, State.closesAppSession, hsession, any_some, hexited,
        Bool.not_false, Bool.not_true, Bool.false_or] at htime
      refine ⟨h.tables, ?_, h.answered, h.ended, fun _ _ => rfl⟩
      intro turn hmem hturn hphase
      have hnone : ({ s with eventTask := none, restart := .closing peerId } :
          State).toRead turn = turn.queue := by
        simp only [State.toRead, State.undelivered, reduceCtorEq, if_false, ite_self, append_nil]
      rw [hnone]
      have hdone : s.peerDone turn.peerId = true := hturn
      have hsettled := all_eq_true.mp htime turn hmem
      simp only [hdone, hphase, Bool.not_true, ne_eq, not_true, decide_false,
        Bool.false_or] at hsettled
      exact hsettled
  · cases hs

/-- The tables are cleared while no dispatcher is running: nobody loses an event that it was
still to be given. -/
theorem Sound.clear (htask : s.eventTask = none) :
    Sound { s with
      appSession := none
      restart := .starting
      turnEventQueues := Table.empty
      turnEventBacklog := Table.empty
      threadSubscriptions := [] } where
  tables := fun _ _ hlookup => by cases hlookup
  settled := by
    intro turn hmem hturn hphase
    have hread : s.toRead turn = turn.queue := by
      simp only [State.toRead, State.undelivered, htask, reduceCtorEq, if_false, ite_self,
        append_nil]
    have hsettled := h.settled turn hmem hturn hphase
    rw [hread] at hsettled
    exact settles_append _ hsettled
  answered := h.answered
  ended := h.ended
  closing := fun _ hclosing => by cases hclosing

theorem sound_closed (hs : s.closed = some s')
    (htime : endsInTime s .closed = true) : Sound s' := by
  unfold State.closed at hs
  split at hs
  · rename_i peerId hrestart
    cases hs
    have htask : s.eventTask = none := h.closing peerId hrestart
    simp only [endsInTime, hrestart] at htime
    unfold State.endReader
    split
    · exact h.clear htask
    · rename_i peer hpeer
      obtain ⟨hget, hopen⟩ := filter_eq_some_iff.mp hpeer
      have hid : peer.peerId = peerId := key_of_get? hget
      subst hid
      have hnot : s.peerDone peer.peerId = false := by
        rw [peerDone_of_get? hget]
        simpa using hopen
      simp only [hnot, Bool.false_or, Bool.and_eq_true] at htime
      exact (sound_stopReader h hget htime.1 htime.2).clear htask
  · cases hs

theorem sound_started (hs : s.started peerId = some s') : Sound s' := by
  unfold State.started at hs
  split at hs
  · cases hs
  · rename_i hnew
    cases hs
    simp only [not_or, Bool.not_eq_true] at hnew
    have hnone : s.peers.get? peerId = none := by simpa [Table.contains] using hnew.2
    have hne : ∀ other, s.peerDone other = true → peerId ≠ other := by
      rintro other hdone rfl
      simp only [State.peerDone, hnone, any_none] at hdone
      cases hdone
    refine h.frame rfl rfl rfl ?_ ?_ (fun _ hclosing => by cases hclosing)
    · intro other
      simp only [State.peerDone, Table.get?_put]
      split
      · rename_i hsame
        rw [← hsame, hnone]
        rfl
      · rfl
    · intro turn hturn
      refine ⟨[], ?_⟩
      rw [append_nil]
      refine toRead_congr rfl ?_
      simp only [State.undelivered, Table.get?_put, if_neg (hne turn.peerId hturn)]
      cases htask : s.eventTask with
      | some current => rfl
      | none =>
        simp only [none_or, some.injEq, if_neg (hne turn.peerId hturn), reduceCtorEq, if_false]

theorem sound_startFails (hs : s.startFails = some s') : Sound s' := by
  unfold State.startFails at hs
  split at hs
  · cases hs
    exact h.frame rfl rfl rfl (fun _ => rfl) (fun turn _ => ⟨[], (append_nil _).symm⟩)
      (fun _ hclosing => by cases hclosing)
  · cases hs

theorem sound_register (hs : s.register turn = some s')
    (htime : endsInTime s (.register turn) = true) : Sound s' := by
  unfold State.register at hs
  split at hs
  · cases hs
  · rename_i hnew
    cases hs
    simp only [Bool.or_eq_true, not_or, Bool.not_eq_true, Bool.not_eq_false', List.any_eq_false,
      decide_eq_true_eq] at hnew
    obtain ⟨⟨hstream, -⟩, hturns⟩ := hnew
    have hnone : s.turns.get? turn.streamId = none := by simpa [Table.contains] using hstream
    refine ⟨?_, ?_, ?_, h.ended, h.closing⟩
    · intro turnId streamId hlookup
      simp only [Dict.lookup_set] at hlookup
      split at hlookup
      · rename_i hid
        cases hlookup
        exact ⟨_, Table.get?_put_self _ _, hid⟩
      · obtain ⟨current, hcurrent, hid⟩ := h.tables turnId streamId hlookup
        have hne : turn.streamId ≠ streamId := by
          rintro rfl
          rw [hnone] at hcurrent
          cases hcurrent
        have hput := Table.get?_put_of_ne s.turns
          (v := State.opened turn ((s.turnEventBacklog.lookup turn.turnId).getD [])) hne
        exact ⟨current, hput.trans hcurrent, hid⟩
    · intro other hmem hdone hphase
      rcases Table.mem_put.mp hmem with rfl | ⟨hmem, -⟩
      · have hpeer : s.peerDone turn.peerId = true := hdone
        simp only [endsInTime, hpeer, Bool.not_true, Bool.false_or] at htime
        simp only [State.toRead, State.registered, State.opened, Dict.lookup_set_self,
          decide_true, if_true]
        exact htime
      · have hne : turn.turnId ≠ other.turnId := fun hid => hturns other hmem hid.symm
        have hsettled := h.settled other hmem hdone hphase
        simp only [State.toRead, State.registered, Dict.lookup_set_of_ne _ _ hne]
        exact hsettled
    · intro other hmem hdone
      rcases Table.mem_put.mp hmem with rfl | ⟨hmem, -⟩
      · exact fun hphase => by cases hphase
      · exact h.answered other hmem hdone

/-- A stream takes the next event of its queue. -/
theorem sound_readEvent {event : AppEvent} {queue : List AppEvent}
    (hget : s.turns.get? turn.streamId = some turn) (hphase : turn.phase = .reading)
    (hqueue : turn.queue = event :: queue) : Sound (s.readEvent turn event queue) := by
  have hsettled : s.peerDone turn.peerId = true →
      settles turn.planMode turn.turnId turn.completedMessage turn.stream
        (event :: (queue ++
          if s.registered turn then s.undelivered turn.peerId turn.turnId else [])) = true := by
    intro hdone
    have hsettled := h.settled turn (mem_of_get? hget) hdone hphase
    rw [State.toRead, hqueue] at hsettled
    exact hsettled
  unfold State.readEvent
  rcases hreact : react turn.stream turn.planMode turn.turnId turn.completedMessage
    event.notification with ⟨stream, reaction⟩
  simp only [settles, hreact] at hsettled
  cases reaction with
  | skip =>
    exact h.putTurn hget rfl rfl (fun hdone _ => hsettled hdone) fun _ hfinal => by
      rw [hphase] at hfinal
      cases hfinal
  | tell event =>
    exact h.putTurn hget rfl rfl (fun hdone _ => hsettled hdone) fun _ hfinal => by
      rw [State.tell, hphase] at hfinal
      cases hfinal
  | propose | finish => exact sound_endTurn h hget rfl rfl
  | ask event =>
    exact h.putTurn hget rfl rfl (fun _ hreading => by cases hreading)
      (fun _ hfinal => by cases hfinal)
  | readFinalMessage =>
    exact h.putTurn hget rfl rfl (fun _ hreading => by cases hreading)
      (fun hdone _ => by cases hsettled hdone)

theorem sound_read (hs : s.read streamId = some s') : Sound s' := by
  obtain ⟨turn, hget, hnext⟩ := bind_eq_some_iff.mp hs
  have hid : turn.streamId = streamId := key_of_get? hget
  subst hid
  split at hnext
  · rename_i event queue hphase hqueue
    cases hnext
    exact sound_readEvent h hget hphase hqueue
  · cases hnext

theorem sound_answer {answer : Answer} (hs : s.answer streamId answer = some s')
    (htime : endsInTime s (.answer streamId answer) = true) : Sound s' := by
  obtain ⟨turn, hturn, rfl⟩ := map_eq_some_iff.mp hs
  obtain ⟨hget, -⟩ := filter_eq_some_iff.mp hturn
  have hid : turn.streamId = streamId := key_of_get? hget
  subst hid
  cases answer with
  | resolved =>
    refine h.putTurn hget rfl rfl (fun hdone _ => ?_) (fun _ hfinal => by cases hfinal)
    have hpeer : s.peerDone turn.peerId = true := hdone
    simp only [endsInTime, hget, all_some, hpeer, Bool.not_true, Bool.false_or] at htime
    exact htime
  | aborted | timedOut => exact sound_endTurn h hget rfl rfl

/-- The steps by which a stream ends. -/
theorem sound_of_endTurn {p : TurnStream → Bool} {f : TurnStream → TurnStream}
    (hs : ((s.turns.get? streamId).filter p).map (fun turn => s.endTurn (f turn)) = some s')
    (hf : ∀ turn, (f turn).streamId = turn.streamId ∧ (f turn).turnId = turn.turnId) :
    Sound s' := by
  obtain ⟨turn, hturn, rfl⟩ := map_eq_some_iff.mp hs
  obtain ⟨hget, -⟩ := filter_eq_some_iff.mp hturn
  have hid : turn.streamId = streamId := key_of_get? hget
  subst hid
  exact sound_endTurn h hget (hf turn).1 (hf turn).2

theorem Sound.putSubscription (subscription : ThreadStream)
    (subscribed : List String)
    (hended : s.peerDone subscription.peerId = true → subscription.ended = true) :
    Sound { s with
      subscriptions := s.subscriptions.put subscription
      threadSubscriptions := subscribed } where
  tables := h.tables
  settled := h.settled
  answered := h.answered
  ended := by
    intro other hmem hdone
    rcases mem_put.mp hmem with rfl | ⟨hmem, -⟩
    · exact hended hdone
    · exact h.ended other hmem hdone
  closing := h.closing

theorem sound_subscribe {subscription : ThreadStream} (hs : s.subscribe subscription = some s')
    (htime : endsInTime s (.subscribe subscription) = true) : Sound s' := by
  unfold State.subscribe at hs
  split at hs
  · cases hs
  · cases hs
    simp only [endsInTime, Bool.not_eq_true'] at htime
    refine h.putSubscription { subscription with queue := [], ended := false } _ fun hdone => ?_
    have hpeer : s.peerDone subscription.peerId = true := hdone
    rw [htime] at hpeer
    cases hpeer

theorem sound_nextThreadEvent
    (hs : s.nextThreadEvent sessionId = some s') : Sound s' := by
  obtain ⟨subscription, hsubscription, hs⟩ := bind_eq_some_iff.mp hs
  obtain ⟨hget, hlistening⟩ := filter_eq_some_iff.mp hsubscription
  split at hs
  · cases hs
  · rename_i event queue hqueue
    cases hs
    refine h.putSubscription
      { subscription with
        queue := queue
        ended := decide (sessionId ∉ s.threadSubscriptions) } s.threadSubscriptions fun hdone => ?_
    have hended := h.ended subscription (mem_of_get? hget) hdone
    simp only [hended, Bool.not_true] at hlistening
    cases hlistening

theorem sound_unsubscribe
    (hs : s.unsubscribe sessionId = some s') : Sound s' := by
  obtain ⟨subscription, hget, rfl⟩ := map_eq_some_iff.mp hs
  exact h.putSubscription { subscription with ended := true } _ fun _ => rfl

theorem sound_routeToThread (event : AppEvent) (threadId : String) :
    Sound (s.routeToThread event threadId) where
  tables := h.tables
  settled := h.settled
  answered := h.answered
  ended := by
    intro subscription hmem hdone
    obtain ⟨old, hold, hpushed⟩ : ∃ old ∈ s.subscriptions.entries,
        State.pushIfSubscribed s.threadSubscriptions event threadId old = subscription :=
      mem_map.mp hmem
    have hsame : subscription.peerId = old.peerId ∧ subscription.ended = old.ended := by
      rw [← hpushed]
      unfold State.pushIfSubscribed
      split <;> exact ⟨rfl, rfl⟩
    rw [hsame.1] at hdone
    rw [hsame.2]
    exact h.ended old hold hdone
  closing := h.closing

end

/-- The dispatcher has taken the first event from its peer. -/
def State.taken (s : State) (peer : Peer) (events : List AppEvent) : State :=
  { s with peers := s.peers.put { peer with events := events } }

section taken

variable {peer : Peer} {event : AppEvent} {events : List AppEvent}

theorem undelivered_taken (htask : s.eventTask = some peer.peerId)
    (hget : s.peers.get? peer.peerId = some peer) (hevents : peer.events = event :: events)
    (peerId turnId : String) :
    s.undelivered peerId turnId =
      (if peer.peerId = peerId ∧ event.turnId = some turnId then [event] else []) ++
        (s.taken peer events).undelivered peerId turnId := by
  by_cases hsame : peer.peerId = peerId
  · subst hsame
    have hself := Table.get?_put_self s.peers { peer with events := events }
    simp only [State.undelivered, State.taken, htask, if_true, hget, hself, map_some,
      getD_some, hevents, filter_cons, true_and, decide_eq_true_eq]
    split <;> rfl
  · have htask' : s.eventTask ≠ some peerId := by
      rw [htask]
      exact fun heq => hsame (some.inj heq)
    have hnot : ¬ (peer.peerId = peerId ∧ event.turnId = some turnId) := fun hboth => hsame hboth.1
    rw [if_neg hnot, nil_append]
    unfold State.undelivered State.taken
    rw [if_neg htask', if_neg htask']

theorem peerDone_taken (hget : s.peers.get? peer.peerId = some peer) (peerId : String) :
    (s.taken peer events).peerDone peerId = s.peerDone peerId :=
  peerDone_putPeer s { peer with events := events } hget rfl peerId

/-- A stream whose queue the event does not go to. -/
theorem toRead_taken (htask : s.eventTask = some peer.peerId)
    (hget : s.peers.get? peer.peerId = some peer) (hevents : peer.events = event :: events)
    (hnot : event.turnId = some turn.turnId → s.registered turn = false) :
    (s.taken peer events).toRead turn = s.toRead turn := by
  have hregistered : (s.taken peer events).registered turn = s.registered turn := rfl
  simp only [State.toRead, hregistered]
  split
  · rename_i hyes
    have hother : ¬ (peer.peerId = turn.peerId ∧ event.turnId = some turn.turnId) := by
      rintro ⟨-, hid⟩
      rw [hnot hid] at hyes
      cases hyes
    rw [undelivered_taken htask hget hevents, if_neg hother, nil_append]
  · rfl

theorem sound_taken (h : Sound s) (htask : s.eventTask = some peer.peerId)
    (hget : s.peers.get? peer.peerId = some peer) (hevents : peer.events = event :: events)
    (hnot : ∀ turn : TurnStream, event.turnId = some turn.turnId → s.registered turn = false) :
    Sound (s.taken peer events) := by
  refine h.frame rfl rfl rfl (peerDone_taken hget) (fun turn _ => ⟨[], ?_⟩) h.closing
  rw [append_nil]
  exact toRead_taken htask hget hevents (hnot turn)

/-- The event moves from the peer to the queue of its turn. -/
theorem sound_pushed (h : Sound s)
    (htask : s.eventTask = some peer.peerId) (hget : s.peers.get? peer.peerId = some peer)
    (hevents : peer.events = event :: events) (hid : event.turnId = some turnId)
    (hlookup : s.turnEventQueues.lookup turnId = some turn.streamId)
    (hturn : s.turns.get? turn.streamId = some turn) (hturnId : turn.turnId = turnId) :
    Sound { s.taken peer events with turns := s.turns.put (turn.push event) } := by
  subst hturnId
  refine ⟨?_, ?_, ?_, ?_, h.closing⟩
  · intro turnId streamId hother
    obtain ⟨current, hcurrent, hcurrentId⟩ := h.tables turnId streamId hother
    by_cases hsame : turn.streamId = streamId
    · subst hsame
      rw [hturn] at hcurrent
      cases hcurrent
      exact ⟨turn.push event, Table.get?_put_self _ (turn.push event), hcurrentId⟩
    · have hput := Table.get?_put_of_ne s.turns (v := turn.push event) hsame
      exact ⟨current, hput.trans hcurrent, hcurrentId⟩
  · intro other hmem hdone hphase
    have hpeer : s.peerDone other.peerId = true := (peerDone_taken hget other.peerId).symm.trans hdone
    rcases mem_put.mp hmem with rfl | ⟨hmem, hne⟩
    · have hsettled := h.settled turn (mem_of_get? hturn) hpeer hphase
      have hregistered : s.registered turn = true := decide_eq_true hlookup
      rw [State.toRead, if_pos hregistered, undelivered_taken htask hget hevents] at hsettled
      have hread : State.toRead { s.taken peer events with
          turns := s.turns.put (turn.push event) } (turn.push event) =
          (turn.queue ++ [event]) ++ if s.registered turn then
            (s.taken peer events).undelivered turn.peerId turn.turnId else [] := rfl
      rw [hread, if_pos hregistered]
      by_cases hsame : peer.peerId = turn.peerId
      · rw [if_pos ⟨hsame, hid⟩, ← append_assoc] at hsettled
        exact hsettled
      · rw [if_neg fun hboth => hsame hboth.1, nil_append] at hsettled
        have hnone : (s.taken peer events).undelivered turn.peerId turn.turnId = [] := by
          have htask' : s.eventTask ≠ some turn.peerId := by
            rw [htask]
            exact fun heq => hsame (some.inj heq)
          unfold State.undelivered State.taken
          rw [if_neg htask']
        rw [hnone, append_nil] at hsettled ⊢
        exact settles_append [event] hsettled
    · have hnot : event.turnId = some other.turnId → s.registered other = false := by
        intro hother
        rw [hid] at hother
        have hturnIds := some.inj hother
        refine decide_eq_false fun hregistered => hne ?_
        rw [← hturnIds, hlookup] at hregistered
        exact (some.inj hregistered).symm
      have hread := toRead_taken htask hget hevents hnot
      have hsettled := h.settled other hmem hpeer hphase
      rw [← hread] at hsettled
      exact hsettled
  · intro other hmem hdone
    have hpeer : s.peerDone other.peerId = true := (peerDone_taken hget other.peerId).symm.trans hdone
    rcases mem_put.mp hmem with rfl | ⟨hmem, -⟩
    · exact h.answered turn (mem_of_get? hturn) hpeer
    · exact h.answered other hmem hpeer
  · intro subscription hmem hdone
    exact h.ended subscription hmem ((peerDone_taken hget subscription.peerId).symm.trans hdone)

theorem sound_routeToTurn (h : Sound s)
    (htask : s.eventTask = some peer.peerId) (hget : s.peers.get? peer.peerId = some peer)
    (hevents : peer.events = event :: events) (hid : event.turnId = some turnId) :
    Sound ((s.taken peer events).routeToTurn event turnId) := by
  unfold State.routeToTurn
  split
  · rename_i streamId hlookup
    obtain ⟨turn, hturn, hturnId⟩ := h.tables turnId streamId hlookup
    have hstream : turn.streamId = streamId := key_of_get? hturn
    subst hstream
    have hturn' : (s.taken peer events).turns.get? turn.streamId = some turn := hturn
    simp only [hturn']
    exact sound_pushed h htask hget hevents hid hlookup hturn hturnId
  · rename_i hlookup
    have htaken : Sound (s.taken peer events) := by
      refine sound_taken h htask hget hevents fun turn hother => ?_
      rw [hid] at hother
      refine decide_eq_false fun hregistered => ?_
      have hnone : s.turnEventQueues.lookup turnId = none := hlookup
      rw [← some.inj hother, hnone] at hregistered
      cases hregistered
    exact ⟨htaken.tables, htaken.settled, htaken.answered, htaken.ended, htaken.closing⟩

end taken

theorem sound_dispatch (h : Sound s) (hs : s.dispatch = some s') : Sound s' := by
  obtain ⟨peer, hpeer, hnext⟩ := bind_eq_some_iff.mp hs
  obtain ⟨peerId, htask, hget⟩ := bind_eq_some_iff.mp hpeer
  have hid : peer.peerId = peerId := key_of_get? hget
  subst hid
  split at hnext
  · cases hnext
  · rename_i event events hevents
    cases hnext
    have hturn : Sound ((event.turnId.map ((s.taken peer events).routeToTurn event)).getD
        (s.taken peer events)) := by
      cases hturnId : event.turnId with
      | none =>
        refine sound_taken h htask hget hevents fun turn hother => ?_
        rw [hturnId] at hother
        cases hother
      | some turnId => exact sound_routeToTurn h htask hget hevents hturnId
    simp only [State.routeAppEvent]
    cases event.threadId with
    | none => exact hturn
    | some threadId => exact sound_routeToThread hturn event threadId

theorem sound_step {label : Label} (h : Sound s) (hs : s.step label = some s')
    (htime : endsInTime s label = true) : Sound s' := by
  cases label with
  | output peerId line => exact sound_output h hs htime
  | exit peerId => exact sound_exit h hs
  | dispatch => exact sound_dispatch h hs
  | createSession => exact sound_createSession h hs htime
  | closed => exact sound_closed h hs htime
  | started peerId => exact sound_started h hs
  | startFails => exact sound_startFails h hs
  | register turn => exact sound_register h hs htime
  | read streamId => exact sound_read h hs
  | answer streamId answer => exact sound_answer h hs htime
  | finalMessage streamId text =>
    exact sound_of_endTurn (f := fun turn => State.tell turn
      ⟨.completed, some (Text.orElse text turn.completedMessage)⟩) h hs fun _ => ⟨rfl, rfl⟩
  | finalMessageFails streamId =>
    exact sound_of_endTurn (f := fun turn => State.tell turn
      ⟨.completed, some (Text.orElse none turn.completedMessage)⟩) h hs fun _ => ⟨rfl, rfl⟩
  | cancelTurn streamId => exact sound_of_endTurn (f := id) h hs fun _ => ⟨rfl, rfl⟩
  | subscribe subscription => exact sound_subscribe h hs htime
  | nextThreadEvent sessionId => exact sound_nextThreadEvent h hs
  | unsubscribe sessionId => exact sound_unsubscribe h hs

end steps

/-! ## Runs -/

/-- In every run in which each app-server ends in time for its readers, no state that is at
rest has a turn or a thread subscription waiting for an app-server whose output has ended. -/
theorem none_stranded {s : State}
    (h : appServerSystem.ReachableUnder (fun s label => endsInTime s label = true) s) :
    NoneStranded s := by
  obtain ⟨s₀, rfl, hsteps⟩ := h
  have hsound : Sound s := hsteps.invariant sound_empty fun s label s' hs htime hstep =>
    sound_step hs hstep htime
  exact hsound.noneStranded

def codexTurn (streamId peerId turnId : String) : TurnStream :=
  { streamId := streamId
    peerId := peerId
    turnId := turnId
    planMode := false
    completedMessage := "Completed: Review" }

/-- The notification by which a turn fails. -/
def turnFailed (turnId : String) : AppEvent :=
  { params := [("turn", .dict [("id", .str turnId), ("status", .str "failed")])]
    notification := .turnCompleted (some ⟨some turnId, some "failed", none⟩) }

/-- The app-server fails the turn before it stops. -/
def failedTurnRun : List Label :=
  [.createSession, .started "peer-1", .register (codexTurn "stream-1" "peer-1" "turn-1"),
    .output "peer-1" (.event (turnFailed "turn-1")), .output "peer-1" .endOfStream, .dispatch,
    .exit "peer-1", .createSession, .closed, .started "peer-2", .read "stream-1"]

theorem failedTurn_noneStranded : NoneStranded (appServerSystem.target emptyState failedTurnRun) :=
  none_stranded (System.ReachableUnder.target rfl (by decide))

/-- The app-server stops in the middle of a turn and of a thread subscription, and another
one is started. -/
def lostOutputRun : List Label :=
  [.createSession, .started "peer-1", .register (codexTurn "stream-1" "peer-1" "turn-1"),
    .subscribe ⟨"session-1", "peer-1", "thread-1", [], false⟩, .output "peer-1" .endOfStream,
    .exit "peer-1", .createSession, .closed, .started "peer-2"]

/-- Nothing is pending for a stream that has nothing to read. -/
theorem quiet_of_idle (hdispatch : s.dispatch.isNone = true)
    (hclosed : s.closed.isNone = true)
    (hturns : ∀ turn ∈ s.turns.entries, turn.phase = .reading ∧ turn.queue.isEmpty = true)
    (hsubscriptions : ∀ subscription ∈ s.subscriptions.entries,
      subscription.queue.isEmpty = true) : Quiet s := by
  intro label hpending
  cases label with
  | dispatch => exact Option.isNone_iff_eq_none.mp hdispatch
  | closed => exact Option.isNone_iff_eq_none.mp hclosed
  | read streamId =>
    simp only [State.step, State.read, Option.bind_eq_none_iff]
    intro turn hget
    obtain ⟨hphase, hqueue⟩ := hturns turn (Table.mem_of_get? hget)
    rw [List.isEmpty_iff] at hqueue
    simp only [hphase, hqueue]
  | answer streamId answer =>
    simp only [State.step, State.answer, Option.map_eq_none_iff]
    refine Option.filter_eq_none_iff.mpr fun turn hget => ?_
    rw [(hturns turn (Table.mem_of_get? hget)).1]
    decide
  | finalMessageFails streamId =>
    simp only [State.step, State.finalMessageFails, Option.map_eq_none_iff]
    refine Option.filter_eq_none_iff.mpr fun turn hget => ?_
    rw [(hturns turn (Table.mem_of_get? hget)).1]
    decide
  | nextThreadEvent sessionId =>
    simp only [State.step, State.nextThreadEvent, Option.bind_eq_none_iff]
    intro subscription hget
    have hqueue := hsubscriptions subscription
      (Table.mem_of_get? (Option.filter_eq_some_iff.mp hget).1)
    rw [List.isEmpty_iff] at hqueue
    simp only [hqueue]
  | _ => cases hpending

theorem lost_output_strands : ¬ NoneStranded (appServerSystem.target emptyState lostOutputRun) := by
  intro hnone
  have hquiet : Quiet (appServerSystem.target emptyState lostOutputRun) :=
    quiet_of_idle (by decide) (by decide) (by decide) (by decide)
  have hdone : (appServerSystem.target emptyState lostOutputRun).peerDone "peer-1" = true := by
    decide
  obtain ⟨turn, hmem, hwaits⟩ : ∃ turn ∈
      (appServerSystem.target emptyState lostOutputRun).turns.entries,
      turn.peerId = "peer-1" ∧ turn.phase ≠ .ended := by
    decide
  exact hwaits.2 ((hnone hquiet "peer-1" hdone).1 turn hmem hwaits.1)

end Newbro.AppServer
