import Newbro.SwallowedRequests

/-!
# What the readers of routed events get

Beside the app-server and its readers stand the histories: the events that `_route_app_event`
was called with since the app session was last closed, for each stream of a turn those of its turn
that came before it registered and those that came while it was registered, and for each
subscription those of its thread that came while it was subscribed. What a reader has taken and
what waits in its queue is, together, its history.
-/
namespace Newbro.AppServer

open Library Protocol Option Table List
open CodexTurn (CodexEvent backlogLimit)

/-! ## Histories -/

/-- The history of a stream of a turn. -/
structure TurnHistory where
  streamId : String
  turnId : String
  /-- The events of the turn that had come when the stream registered. -/
  early : List AppEvent
  /-- Those that came later. -/
  late : List AppEvent := []
  taken : List AppEvent := []
  /-- The app session has not been closed since the stream registered. -/
  attached : Bool := true

/-- The history of a thread subscription. -/
structure ThreadHistory where
  sessionId : String
  threadId : String
  arrived : List AppEvent := []
  taken : List AppEvent := []
  /-- Neither has it been cancelled nor the app session been closed. -/
  subscribed : Bool := true

structure Routing where
  server : State
  /-- The events that have been routed since the app session was last closed. -/
  arrived : List AppEvent
  turns : Table TurnHistory.streamId
  threads : Table ThreadHistory.sessionId

def eventsOfTurn (turnId : String) (events : List AppEvent) : List AppEvent :=
  events.filter fun event => event.turnId = some turnId

/-- The stream has not returned. -/
def State.goesOn (s : State) (streamId : String) : Bool :=
  (s.turns.get? streamId).any fun turn => turn.phase ≠ .ended

def TurnHistory.hear (s : State) (event : AppEvent) (history : TurnHistory) : TurnHistory :=
  if history.attached && s.goesOn history.streamId && event.turnId = some history.turnId then
    { history with late := history.late ++ [event] }
  else history

def ThreadHistory.hear (event : AppEvent) (history : ThreadHistory) : ThreadHistory :=
  if history.subscribed && event.threadId = some history.threadId then
    { history with arrived := history.arrived ++ [event] }
  else history

theorem TurnHistory.hear_streamId (s : State) (event : AppEvent) (history : TurnHistory) :
    (history.hear s event).streamId = history.streamId := by
  unfold hear
  split <;> rfl

theorem ThreadHistory.hear_sessionId (event : AppEvent) (history : ThreadHistory) :
    (history.hear event).sessionId = history.sessionId := by
  unfold hear
  split <;> rfl

/-- The event that the dispatcher takes next. -/
def State.nextEvent (s : State) : Option AppEvent :=
  (s.eventTask.bind s.peers.get?).bind fun peer => peer.events.head?

/-- The event that a stream or a subscription takes next. -/
def State.turnHead (s : State) (streamId : String) : Option AppEvent :=
  (s.turns.get? streamId).bind fun turn => turn.queue.head?

def State.threadHead (s : State) (sessionId : String) : Option AppEvent :=
  (s.subscriptions.get? sessionId).bind fun subscription => subscription.queue.head?

namespace Routing

/-- An event has been routed. -/
def arrive (s : Routing) (event : AppEvent) : Routing :=
  { s with
    arrived := s.arrived ++ [event]
    turns := s.turns.mapValues (TurnHistory.hear s.server event)
      (TurnHistory.hear_streamId s.server event)
    threads := s.threads.mapValues (ThreadHistory.hear event) (ThreadHistory.hear_sessionId event) }

/-- The app session has been closed. -/
def detach (s : Routing) : Routing :=
  { s with
    arrived := []
    turns := s.turns.mapValues (fun history => { history with attached := false }) fun _ => rfl
    threads := s.threads.mapValues (fun history => { history with subscribed := false })
      fun _ => rfl }

def takeTurnEvent (s : Routing) (streamId : String) : Routing :=
  match s.turns.get? streamId, s.server.turnHead streamId with
  | some history, some event =>
    { s with turns := s.turns.put { history with taken := history.taken ++ [event] } }
  | _, _ => s

def takeThreadEvent (s : Routing) (sessionId : String) : Routing :=
  match s.threads.get? sessionId, s.server.threadHead sessionId with
  | some history, some event =>
    { s with threads := s.threads.put { history with taken := history.taken ++ [event] } }
  | _, _ => s

def cancelThread (s : Routing) (sessionId : String) : Routing :=
  match s.threads.get? sessionId with
  | some history => { s with threads := s.threads.put { history with subscribed := false } }
  | none => s

/-- The histories after a step of the app-server or of a reader. -/
def note (s : Routing) : Label → Routing
  | .dispatch => (s.server.nextEvent.map s.arrive).getD s
  | .closed => s.detach
  | .register turn =>
    let early := eventsOfTurn turn.turnId s.arrived
    { s with turns := s.turns.put { streamId := turn.streamId, turnId := turn.turnId, early } }
  | .read streamId => s.takeTurnEvent streamId
  | .subscribe subscription =>
    let history := { sessionId := subscription.sessionId, threadId := subscription.threadId }
    { s with threads := s.threads.put history }
  | .nextThreadEvent sessionId => s.takeThreadEvent sessionId
  | .unsubscribe sessionId => s.cancelThread sessionId
  | _ => s

/-- A step of the app-server, with the histories. -/
def step (s : Routing) (label : Label) : Option Routing :=
  (s.server.step label).map fun server => { s.note label with server := server }

end Routing

def emptyRouting : Routing := ⟨emptyState, [], Table.empty, Table.empty⟩

def routingSystem : System Routing Label where
  initial s := s = emptyRouting
  step := Routing.step

/-! ## The law -/

/-- A stream of a turn has got, or will find in its queue, every event of its turn that came,
each once and in the order in which they came, if those that came before it registered are no more
than the backlog holds; a subscription has got those of its thread, and none of another. -/
structure KeepsStreams (s : Routing) : Prop where
  turns : ∀ turn ∈ s.server.turns.entries, ∃ history, s.turns.get? turn.streamId = some history ∧
    history.turnId = turn.turnId ∧
    (history.early.length ≤ backlogLimit →
      history.taken ++ turn.queue = history.early ++ history.late) ∧
    ∀ event ∈ history.taken ++ turn.queue, event.turnId = some turn.turnId
  threads : ∀ subscription ∈ s.server.subscriptions.entries,
    ∃ history, s.threads.get? subscription.sessionId = some history ∧
      history.threadId = subscription.threadId ∧
      history.taken ++ subscription.queue = history.arrived ∧
      ∀ event ∈ history.taken ++ subscription.queue, event.threadId = some subscription.threadId

/-! ## The backlog -/

/-- What the backlog keeps of the events of a turn. -/
def latest (events : List AppEvent) : List AppEvent := events.drop (events.length - backlogLimit)

variable {events : List AppEvent}

theorem latest_of_le (h : events.length ≤ backlogLimit) :
    latest events = events := by
  have hnone : events.length - backlogLimit = 0 := by omega
  rw [latest, hnone, drop_zero]

theorem drop_snoc {α : Type*} {limit : Nat} (hlimit : 0 < limit) (xs : List α) (x : α) :
    (xs.drop (xs.length - limit) ++ [x]).drop
        ((xs.drop (xs.length - limit) ++ [x]).length - limit) =
      (xs ++ [x]).drop ((xs ++ [x]).length - limit) := by
  have hkept : xs.drop (xs.length - limit) ++ [x] = (xs ++ [x]).drop (xs.length - limit) := by
    rw [drop_append_of_le_length (by omega)]
  have hdropped : xs.length - limit + ((xs ++ [x]).length - (xs.length - limit) - limit) =
      (xs ++ [x]).length - limit := by
    rw [length_append, length_singleton]
    omega
  rw [hkept, drop_drop, length_drop, hdropped]

/-- Keeping the latest at each event keeps the latest. -/
theorem latest_snoc (events : List AppEvent) (event : AppEvent) :
    latest (latest events ++ [event]) = latest (events ++ [event]) :=
  drop_snoc (by decide) events event

theorem eventsOfTurn_snoc (turnId : String) (events : List AppEvent) (event : AppEvent) :
    eventsOfTurn turnId (events ++ [event]) =
      eventsOfTurn turnId events ++ (if event.turnId = some turnId then [event] else []) := by
  rw [eventsOfTurn, filter_append]
  congr 1
  by_cases h : event.turnId = some turnId <;> simp [h]

variable {event : AppEvent}

theorem mem_eventsOfTurn {turnId : String}
    (h : event ∈ eventsOfTurn turnId events) : event.turnId = some turnId :=
  of_decide_eq_true (mem_filter.mp h).2

/-! ## Streams of turns -/

/-- What is right about a stream and its history. -/
structure HeardBy (queues : Dict String String) (turn : TurnStream) (history : TurnHistory) :
    Prop where
  turnId : history.turnId = turn.turnId
  stream : history.taken ++ turn.queue = latest history.early ++ history.late
  own : ∀ event ∈ history.early ++ history.late, event.turnId = some turn.turnId
  registered : queues.lookup turn.turnId = some turn.streamId ↔
    history.attached = true ∧ turn.phase ≠ .ended

/-- The queues and the backlog of turns, the streams, and their histories. -/
structure TurnsRouted (s : State) (arrived : List AppEvent)
    (histories : Table TurnHistory.streamId) : Prop where
  heard : ∀ turn ∈ s.turns.entries, ∃ history, histories.get? turn.streamId = some history ∧
    HeardBy s.turnEventQueues turn history
  unique : ∀ turn ∈ s.turns.entries, ∀ other ∈ s.turns.entries,
    turn.turnId = other.turnId → turn = other
  backlog : ∀ turnId, (∀ turn ∈ s.turns.entries, turn.turnId ≠ turnId) →
    (s.turnEventBacklog.lookup turnId).getD [] = latest (eventsOfTurn turnId arrived)

variable {turn turn' : TurnStream}

variable {history' history : TurnHistory}

section turns

variable {s s' : State} {arrived : List AppEvent} {histories : Table TurnHistory.streamId}

theorem turnsRouted_empty : TurnsRouted emptyState [] Table.empty where
  heard := fun _ h => by cases h
  unique := fun _ h => by cases h
  backlog := fun _ _ => rfl

section

variable (h : TurnsRouted s arrived histories)
include h

theorem TurnsRouted.of_eq (hturns : s'.turns = s.turns)
    (hqueues : s'.turnEventQueues = s.turnEventQueues)
    (hbacklog : s'.turnEventBacklog = s.turnEventBacklog) : TurnsRouted s' arrived histories where
  heard := by rw [hturns, hqueues]; exact h.heard
  unique := by rw [hturns]; exact h.unique
  backlog := by rw [hturns, hbacklog]; exact h.backlog

/-- A stream changes, with its history. -/
theorem TurnsRouted.putTurn
    {queues : Dict String String}
    (hget : s.turns.get? turn.streamId = some turn)
    (hstream : turn'.streamId = turn.streamId) (hturn : turn'.turnId = turn.turnId)
    (hid : history'.streamId = turn.streamId) (hheard : HeardBy queues turn' history')
    (hqueues : ∀ turnId, turnId ≠ turn.turnId →
      queues.lookup turnId = s.turnEventQueues.lookup turnId) :
    TurnsRouted { s with turns := s.turns.put turn', turnEventQueues := queues } arrived
      (histories.put history') where
  heard other hother := by
    rcases mem_put.mp hother with rfl | ⟨hother, hne⟩
    · refine ⟨history', ?_, hheard⟩
      rw [hstream, ← hid]
      exact Table.get?_put_self _ _
    · obtain ⟨old, hold, hheld⟩ := h.heard other hother
      refine ⟨old, ?_, hheld.turnId, hheld.stream, hheld.own, ?_⟩
      · rw [Table.get?_put_of_ne _ (by rw [hid, ← hstream]; exact Ne.symm hne)]
        exact hold
      · have hturnId : other.turnId ≠ turn.turnId := by
          intro hsame
          have hother := h.unique other hother turn (mem_of_get? hget) hsame
          exact hne (by rw [hother, hstream])
        show queues.lookup other.turnId = _ ↔ _
        rw [hqueues other.turnId hturnId]
        exact hheld.registered
  unique one hone other hother hsame := by
    rcases mem_put.mp hone with hnew | ⟨hold, hne⟩ <;>
      rcases mem_put.mp hother with hnew' | ⟨hold', hne'⟩
    · rw [hnew, hnew']
    · have heq := h.unique turn (mem_of_get? hget) other hold'
        (by rw [← hsame, hnew, hturn])
      exact absurd (by rw [← heq, hstream]) hne'
    · have heq := h.unique one hold turn (mem_of_get? hget) (by rw [hsame, hnew', hturn])
      exact absurd (by rw [heq, hstream]) hne
    · exact h.unique one hold other hold' hsame
  backlog turnId hnone := by
    refine h.backlog turnId fun other hother => ?_
    by_cases hsame : other.streamId = turn'.streamId
    · have hother' : other = turn := by
        refine s.turns.eq_of_key_eq hother (mem_of_get? hget) ?_
        rw [hsame, hstream]
      rw [hother', ← hturn]
      exact hnone turn' (mem_put.mpr (Or.inl rfl))
    · exact hnone other (mem_put.mpr (Or.inr ⟨hother, hsame⟩))

/-- A stream that goes on changes in what is not its queue. -/
theorem TurnsRouted.putQuiet
    (hget : s.turns.get? turn.streamId = some turn) (hstream : turn'.streamId = turn.streamId)
    (hturn : turn'.turnId = turn.turnId) (hqueue : turn'.queue = turn.queue)
    (hphase : turn'.phase = .ended ↔ turn.phase = .ended) :
    TurnsRouted { s with turns := s.turns.put turn' } arrived histories := by
  obtain ⟨history, hhistory, hheard⟩ := h.heard turn (mem_of_get? hget)
  have hid : history.streamId = turn.streamId := key_of_get? hhistory
  have hheard' : HeardBy s.turnEventQueues turn' history :=
    ⟨hheard.turnId.trans hturn.symm, by rw [hqueue]; exact hheard.stream,
      by rw [hturn]; exact hheard.own,
      by rw [hturn, hstream, Ne, hphase]; exact hheard.registered⟩
  have hput := h.putTurn hget hstream hturn hid hheard' fun _ _ => rfl
  have hsame : histories.put history = histories := put_of_get? (by rw [hid, hhistory])
  rwa [hsame] at hput

/-- A stream returns. -/
theorem TurnsRouted.endTurn (hget : s.turns.get? turn.streamId = some turn)
    (hstream : turn'.streamId = turn.streamId) (hturn : turn'.turnId = turn.turnId)
    (hid : history'.streamId = turn.streamId) (hturnId : history'.turnId = turn.turnId)
    (hgot : history'.taken ++ turn'.queue = latest history'.early ++ history'.late)
    (hown : ∀ event ∈ history'.early ++ history'.late, event.turnId = some turn.turnId) :
    TurnsRouted (s.endTurn turn') arrived (histories.put history') := by
  refine h.putTurn hget hstream hturn hid ⟨hturnId.trans hturn.symm, hgot, ?_, ?_⟩ ?_
  · rw [show ({ turn' with phase := .ended } : TurnStream).turnId = turn.turnId from hturn]
    exact hown
  · refine iff_of_false ?_ (fun hafter => hafter.2 rfl)
    show ¬ Dict.lookup (if _ then _ else _) turn'.turnId = some turn'.streamId
    split_ifs with hmine
    · rw [Dict.lookup_erase, if_pos rfl]
      intro hnone
      cases hnone
    · exact hmine
  · intro turnId hne
    show Dict.lookup (if _ then _ else _) turnId = _
    split_ifs with hmine
    · rw [hturn]
      exact Dict.lookup_erase_of_ne _ (Ne.symm hne)
    · rfl

/-- Only the histories of the streams count, and only the events of turns without one. -/
theorem TurnsRouted.congr {arrived' : List AppEvent} {histories' : Table TurnHistory.streamId}
    (hhistories : ∀ turn ∈ s.turns.entries,
      histories'.get? turn.streamId = histories.get? turn.streamId)
    (harrived : ∀ turnId, (∀ turn ∈ s.turns.entries, turn.turnId ≠ turnId) →
      eventsOfTurn turnId arrived' = eventsOfTurn turnId arrived) :
    TurnsRouted s arrived' histories' where
  heard turn hturn := by
    obtain ⟨history, hhistory, hheard⟩ := h.heard turn hturn
    exact ⟨history, (hhistories turn hturn).trans hhistory, hheard⟩
  unique := h.unique
  backlog turnId hnone := by
    rw [harrived turnId hnone]
    exact h.backlog turnId hnone

end

/-- A stream hears an event exactly if it is of its turn and its queue is in the table. -/
theorem HeardBy.hear_eq (event : AppEvent)
    (h : HeardBy s.turnEventQueues turn history) (hget : s.turns.get? turn.streamId = some turn)
    (hid : history.streamId = turn.streamId) :
    history.hear s event =
      if s.turnEventQueues.lookup turn.turnId = some turn.streamId ∧
          event.turnId = some turn.turnId then
        { history with late := history.late ++ [event] }
      else history := by
  have hopen : (history.attached && s.goesOn history.streamId) = true ↔
      s.turnEventQueues.lookup turn.turnId = some turn.streamId := by
    rw [h.registered, hid, State.goesOn, hget]
    simp
  refine if_congr ?_ rfl rfl
  rw [Bool.and_eq_true, hopen, decide_eq_true_eq, h.turnId]

/-- An event joins the queue of the stream that is registered for its turn, or the backlog. -/
theorem TurnsRouted.arrive (h : TurnsRouted s arrived histories) (htables : TablesFit s)
    (event : AppEvent) :
    TurnsRouted ((event.turnId.map (s.routeToTurn event)).getD s) (arrived ++ [event])
      (histories.mapValues (TurnHistory.hear s event) (TurnHistory.hear_streamId s event)) := by
  have hheard : ∀ turn ∈ s.turns.entries, ∃ history,
      histories.get? turn.streamId = some history ∧ HeardBy s.turnEventQueues turn history ∧
        (histories.mapValues (TurnHistory.hear s event) (TurnHistory.hear_streamId s event)).get?
          turn.streamId = some (if s.turnEventQueues.lookup turn.turnId = some turn.streamId ∧
              event.turnId = some turn.turnId then
            { history with late := history.late ++ [event] } else history) := by
    intro turn hturn
    obtain ⟨history, hhistory, hheard⟩ := h.heard turn hturn
    refine ⟨history, hhistory, hheard, ?_⟩
    rw [Table.get?_mapValues, hhistory, map_some,
      hheard.hear_eq event (Table.get?_of_mem hturn) (key_of_get? hhistory)]
  cases hevent : event.turnId with
  | none =>
    refine h.congr (fun turn hturn => ?_) fun turnId _ => ?_
    · obtain ⟨history, hhistory, -, hmapped⟩ := hheard turn hturn
      rw [hmapped, hhistory, hevent, if_neg (fun hboth => by cases hboth.2)]
    · rw [eventsOfTurn_snoc, hevent, if_neg (fun hsame => by cases hsame), append_nil]
  | some turnId =>
    have hothers : ∀ other, other ≠ turnId →
        eventsOfTurn other (arrived ++ [event]) = eventsOfTurn other arrived := by
      intro other hne
      rw [eventsOfTurn_snoc, hevent, if_neg (fun hsame => hne (some.inj hsame).symm), append_nil]
    show TurnsRouted (s.routeToTurn event turnId) _ _
    unfold State.routeToTurn
    cases hlookup : s.turnEventQueues.lookup turnId with
    | some streamId =>
      obtain ⟨turn, hget, hturnId⟩ := htables turnId streamId hlookup
      obtain rfl : turn.streamId = streamId := key_of_get? hget
      obtain ⟨history, hhistory, hheld, hmapped⟩ := hheard turn (mem_of_get? hget)
      have hid : history.streamId = turn.streamId := key_of_get? hhistory
      have hmine : s.turnEventQueues.lookup turn.turnId = some turn.streamId := by
        rw [hturnId, hlookup]
      have hheld' : HeardBy s.turnEventQueues (turn.push event)
          { history with late := history.late ++ [event] } := by
        refine ⟨hheld.turnId, ?_, ?_, hheld.registered⟩
        · show history.taken ++ (turn.queue ++ [event]) = _
          rw [← append_assoc, hheld.stream, append_assoc]
        · intro other hother
          rw [← append_assoc, mem_append, mem_singleton] at hother
          rcases hother with hold | rfl
          · exact hheld.own other hold
          · rw [hevent, ← hturnId]
            rfl
      have hput : TurnsRouted { s with turns := s.turns.put (turn.push event) } arrived
          (histories.put { history with late := history.late ++ [event] }) :=
        h.putTurn hget rfl rfl hid hheld' fun _ _ => rfl
      simp only [hget]
      refine hput.congr (fun other hother => ?_) fun other hnone => hothers other ?_
      · rcases mem_put.mp hother with hnew | ⟨hold, hne⟩
        · rw [hnew]
          show _ = (histories.put _).get? turn.streamId
          rw [show (turn.push event).streamId = turn.streamId from rfl, hmapped,
            if_pos ⟨hmine, hevent.trans (congrArg some hturnId.symm)⟩, ← hid]
          exact (Table.get?_put_self histories { history with late := _ }).symm
        · obtain ⟨own, hown, -, hkept⟩ := hheard other hold
          have hother' : event.turnId ≠ some other.turnId := by
            rw [hevent, ← hturnId]
            intro hsame
            have heq := h.unique turn (mem_of_get? hget) other hold (some.inj hsame)
            exact hne (by rw [← heq]; rfl)
          rw [hkept, if_neg (fun hboth => hother' hboth.2), Table.get?_put_of_ne, hown]
          show history.streamId ≠ other.streamId
          rw [hid]
          exact Ne.symm hne
      · rintro rfl
        refine hnone (turn.push event) (mem_put.mpr (Or.inl rfl)) ?_
        exact hturnId
    | none =>
      have hquiet : ∀ turn ∈ s.turns.entries,
          (histories.mapValues (TurnHistory.hear s event)
            (TurnHistory.hear_streamId s event)).get? turn.streamId =
              histories.get? turn.streamId := by
        intro turn hturn
        obtain ⟨history, hhistory, -, hmapped⟩ := hheard turn hturn
        have hnot : ¬ (s.turnEventQueues.lookup turn.turnId = some turn.streamId ∧
            event.turnId = some turn.turnId) := by
          rintro ⟨hmine, hsame⟩
          rw [hevent, some.injEq] at hsame
          rw [← hsame, hlookup] at hmine
          cases hmine
        rw [hmapped, hhistory, if_neg hnot]
      refine ⟨fun turn hturn => ?_, h.unique, fun other hnone => ?_⟩
      · obtain ⟨history, hhistory, hheld⟩ := h.heard turn hturn
        exact ⟨history, (hquiet turn hturn).trans hhistory, hheld⟩
      · show (Dict.lookup (Dict.set s.turnEventBacklog turnId _) other).getD [] = _
        by_cases hsame : other = turnId
        · rw [hsame, Dict.lookup_set_self, getD_some, eventsOfTurn_snoc, hevent, if_pos rfl,
            ← latest_snoc, ← h.backlog turnId (hsame ▸ hnone)]
          rfl
        · rw [Dict.lookup_set_of_ne _ _ (Ne.symm hsame), hothers other hsame]
          exact h.backlog other hnone

theorem failRequest_turnId (turn : TurnStream) (peerId : String) :
    (turn.failRequest peerId).turnId = turn.turnId := by
  unfold TurnStream.failRequest
  split <;> rfl

section

variable (h : TurnsRouted s arrived histories)
include h

/-- The end of a read loop is nothing to the streams that read. -/
theorem TurnsRouted.stopReader {peer : Peer} :
    TurnsRouted (s.stopReader peer) arrived histories where
  heard turn hturn := by
    obtain ⟨old, hold, rfl⟩ := mem_turns_stopReader hturn
    obtain ⟨history, hhistory, hheard⟩ := h.heard old hold
    refine ⟨history, by rw [TurnStream.failRequest_streamId]; exact hhistory, ?_⟩
    unfold TurnStream.failRequest
    split_ifs with hfails
    · refine ⟨hheard.turnId, hheard.stream, hheard.own, hheard.registered.trans ?_⟩
      simp [hfails.2]
    · exact hheard
  unique turn hturn other hother hsame := by
    obtain ⟨old, hold, rfl⟩ := mem_turns_stopReader hturn
    obtain ⟨old', hold', rfl⟩ := mem_turns_stopReader hother
    rw [failRequest_turnId, failRequest_turnId] at hsame
    rw [h.unique old hold old' hold' hsame]
  backlog turnId hnone := by
    refine h.backlog turnId fun turn hturn => ?_
    rw [← failRequest_turnId turn peer.peerId]
    exact hnone _ (mem_map_of_mem hturn)

/-- No stream hears anything once the app session has been closed. -/
theorem TurnsRouted.clear
    (hturns : s'.turns = s.turns) (hqueues : s'.turnEventQueues = Table.empty)
    (hbacklog : s'.turnEventBacklog = Table.empty) :
    TurnsRouted s' [] (histories.mapValues (fun history => { history with attached := false })
      fun _ => rfl) where
  heard turn hturn := by
    obtain ⟨history, hhistory, hheard⟩ := h.heard turn (hturns ▸ hturn)
    refine ⟨{ history with attached := false }, ?_, hheard.turnId, hheard.stream, hheard.own, ?_⟩
    · rw [Table.get?_mapValues, hhistory, map_some]
    · rw [hqueues]
      exact iff_of_false (fun hnone => by cases hnone) fun hattached => by cases hattached.1
  unique := by rw [hturns]; exact h.unique
  backlog turnId _ := by rw [hbacklog]; rfl

/-- A stream registers, and starts with what the backlog holds for it. -/
theorem TurnsRouted.register (hs : s.register turn = some s') :
    TurnsRouted s' arrived (histories.put
      { streamId := turn.streamId, turnId := turn.turnId
        early := eventsOfTurn turn.turnId arrived }) := by
  unfold State.register at hs
  split at hs
  · cases hs
  rename_i hguard
  cases hs
  simp only [Bool.or_eq_true, not_or, Bool.not_eq_true] at hguard
  have hstream : ∀ other ∈ s.turns.entries, other.streamId ≠ turn.streamId := by
    simpa [Table.contains, Table.get?_eq_none_iff] using hguard.1.1
  have hturn : ∀ other ∈ s.turns.entries, other.turnId ≠ turn.turnId := by simpa using hguard.2
  refine ⟨fun other hother => ?_, fun one hone other hother hsame => ?_, fun turnId hnone => ?_⟩
  · rcases mem_put.mp hother with rfl | ⟨hold, -⟩
    · refine ⟨_, Table.get?_put_self _ _, rfl, ?_, ?_, ?_⟩
      · show [] ++ (Dict.lookup s.turnEventBacklog turn.turnId).getD [] = _ ++ []
        rw [nil_append, append_nil, h.backlog turn.turnId hturn]
      · intro event hevent
        rw [append_nil] at hevent
        exact mem_eventsOfTurn hevent
      · refine iff_of_true (Dict.lookup_set_self _ _ _) ⟨rfl, ?_⟩
        intro hended
        cases hended
    · obtain ⟨history, hhistory, hheard⟩ := h.heard other hold
      refine ⟨history, ?_, hheard.turnId, hheard.stream, hheard.own, ?_⟩
      · exact (Table.get?_put_of_ne histories (Ne.symm (hstream other hold))).trans hhistory
      · show Dict.lookup (Dict.set _ _ _) other.turnId = _ ↔ _
        rw [Dict.lookup_set_of_ne _ _ (Ne.symm (hturn other hold))]
        exact hheard.registered
  · rcases mem_put.mp hone with hnew | ⟨hold, -⟩ <;>
      rcases mem_put.mp hother with hnew' | ⟨hold', -⟩
    · rw [hnew, hnew']
    · exact absurd (by rw [← hsame, hnew]; rfl) (hturn other hold')
    · exact absurd (by rw [hsame, hnew']; rfl) (hturn one hold)
    · exact h.unique one hold other hold' hsame
  · have hne : turn.turnId ≠ turnId := hnone (State.opened turn _) (mem_put.mpr (Or.inl rfl))
    show (Dict.lookup (Table.erase s.turnEventBacklog turn.turnId) turnId).getD [] = _
    rw [Dict.lookup_erase_of_ne _ hne]
    exact h.backlog turnId fun other hother => hnone other
      (mem_put.mpr (Or.inr ⟨hother, hstream other hother⟩))

/-- A stream takes the next event of its queue. -/
theorem TurnsRouted.read {queue : List AppEvent}
    (hget : s.turns.get? turn.streamId = some turn)
    (hhistory : histories.get? turn.streamId = some history) (hphase : turn.phase = .reading)
    (hqueue : turn.queue = event :: queue) :
    TurnsRouted (s.readEvent turn event queue) arrived
      (histories.put { history with taken := history.taken ++ [event] }) := by
  obtain ⟨own, hown, hheard⟩ := h.heard turn (mem_of_get? hget)
  rw [hhistory, some.injEq] at hown
  subst hown
  have hid : history.streamId = turn.streamId := key_of_get? hhistory
  have hgot : history.taken ++ [event] ++ queue = latest history.early ++ history.late := by
    rw [append_assoc, singleton_append, ← hqueue]
    exact hheard.stream
  have hopen : s.turnEventQueues.lookup turn.turnId = some turn.streamId ↔
      history.attached = true := by
    rw [hheard.registered, hphase]
    simp
  have hput : ∀ turn' : TurnStream, turn'.streamId = turn.streamId → turn'.turnId = turn.turnId →
      turn'.queue = queue → turn'.phase ≠ .ended →
        TurnsRouted { s with turns := s.turns.put turn' } arrived
          (histories.put { history with taken := history.taken ++ [event] }) := by
    intro turn' hstream hturn hrest hended
    have hheard' : HeardBy s.turnEventQueues turn'
        { history with taken := history.taken ++ [event] } := by
      refine ⟨hheard.turnId.trans hturn.symm, ?_, ?_, ?_⟩
      · rw [hrest]
        exact hgot
      · rw [hturn]
        exact hheard.own
      · rw [hturn, hstream, hopen]
        exact (and_iff_left hended).symm
    exact h.putTurn hget hstream hturn hid hheard' fun _ _ => rfl
  have hend : ∀ turn' : TurnStream, turn'.streamId = turn.streamId → turn'.turnId = turn.turnId →
      turn'.queue = queue → TurnsRouted (s.endTurn turn') arrived
        (histories.put { history with taken := history.taken ++ [event] }) := by
    intro turn' hstream hturn hrest
    exact h.endTurn hget hstream hturn hid hheard.turnId (by rw [hrest]; exact hgot) hheard.own
  unfold State.readEvent
  dsimp only
  split
  · exact hput _ rfl rfl rfl (by simp [hphase])
  · exact hput _ rfl rfl rfl (by simp [State.tell, hphase])
  · exact hend _ rfl rfl rfl
  · exact hput _ rfl rfl rfl (by simp)
  · exact hend _ rfl rfl rfl
  · exact hput _ rfl rfl rfl (by simp)

/-- A stream returns without taking an event. -/
theorem TurnsRouted.returns
    (hget : s.turns.get? turn.streamId = some turn) (hstream : turn'.streamId = turn.streamId)
    (hturn : turn'.turnId = turn.turnId) (hqueue : turn'.queue = turn.queue) :
    TurnsRouted (s.endTurn turn') arrived histories := by
  obtain ⟨history, hhistory, hheard⟩ := h.heard turn (mem_of_get? hget)
  have hid : history.streamId = turn.streamId := key_of_get? hhistory
  have hgot : history.taken ++ turn'.queue = latest history.early ++ history.late := by
    rw [hqueue]
    exact hheard.stream
  have hend := h.endTurn hget hstream hturn hid hheard.turnId hgot hheard.own
  have hsame : histories.put history = histories := put_of_get? (by rw [hid, hhistory])
  rwa [hsame] at hend

end

end turns

/-! ## Subscriptions -/

/-- What is right about a subscription and its history. -/
structure HeardThread (subscribed : List String) (subscription : ThreadStream)
    (history : ThreadHistory) : Prop where
  threadId : history.threadId = subscription.threadId
  stream : history.taken ++ subscription.queue = history.arrived
  own : ∀ event ∈ history.arrived, event.threadId = some subscription.threadId
  subscribed : subscription.sessionId ∈ subscribed ↔ history.subscribed = true

structure ThreadsRouted (s : State) (histories : Table ThreadHistory.sessionId) : Prop where
  heard : ∀ subscription ∈ s.subscriptions.entries,
    ∃ history, histories.get? subscription.sessionId = some history ∧
      HeardThread s.threadSubscriptions subscription history

variable {subscription : ThreadStream}

section threads

variable {s s' : State} {histories : Table ThreadHistory.sessionId}

theorem threadsRouted_empty : ThreadsRouted emptyState Table.empty where
  heard := fun _ h => by cases h

section

variable (h : ThreadsRouted s histories)
include h

theorem ThreadsRouted.of_eq
    (hsubscriptions : s'.subscriptions = s.subscriptions)
    (hsubscribed : s'.threadSubscriptions = s.threadSubscriptions) :
    ThreadsRouted s' histories where
  heard := by rw [hsubscriptions, hsubscribed]; exact h.heard

/-- An event joins the queues of the subscriptions of its thread. -/
theorem ThreadsRouted.arrive (event : AppEvent) :
    ThreadsRouted ((event.threadId.map (s.routeToThread event)).getD s)
      (histories.mapValues (ThreadHistory.hear event) (ThreadHistory.hear_sessionId event)) := by
  cases hevent : event.threadId with
  | none =>
    refine ⟨fun subscription hsubscription => ?_⟩
    obtain ⟨history, hhistory, hheard⟩ := h.heard subscription hsubscription
    refine ⟨history, ?_, hheard⟩
    rw [Table.get?_mapValues, hhistory, map_some, ThreadHistory.hear, hevent]
    simp
  | some threadId =>
    refine ⟨fun subscription hsubscription => ?_⟩
    obtain ⟨old, hold, rfl⟩ := mem_map.mp hsubscription
    obtain ⟨history, hhistory, hheard⟩ := h.heard old hold
    have hmapped : (histories.mapValues (ThreadHistory.hear event)
        (ThreadHistory.hear_sessionId event)).get? old.sessionId = some (history.hear event) := by
      rw [Table.get?_mapValues, hhistory, map_some]
    rw [State.pushIfSubscribed_sessionId]
    refine ⟨history.hear event, hmapped, ?_⟩
    have hboth : (history.subscribed && event.threadId = some history.threadId) = true ↔
        old.sessionId ∈ s.threadSubscriptions ∧ old.threadId = threadId := by
      rw [Bool.and_eq_true, decide_eq_true_eq, hevent, some.injEq, hheard.subscribed,
        hheard.threadId, eq_comm (a := threadId)]
    unfold ThreadHistory.hear State.pushIfSubscribed
    by_cases hgets : old.sessionId ∈ s.threadSubscriptions ∧ old.threadId = threadId
    · rw [if_pos hgets, if_pos (hboth.mpr hgets)]
      refine ⟨hheard.threadId, ?_, fun other hother => ?_, hheard.subscribed⟩
      · show history.taken ++ (old.queue ++ [event]) = _
        rw [← append_assoc, hheard.stream]
      · rcases mem_append.mp hother with hearlier | hnew
        · exact hheard.own other hearlier
        · rw [mem_singleton.mp hnew, hevent, ← hgets.2]
          rfl
    · rw [if_neg hgets, if_neg (fun hhears => hgets (hboth.mp hhears))]
      exact hheard

/-- No subscription hears anything once the app session has been closed. -/
theorem ThreadsRouted.clear
    (hsubscriptions : s'.subscriptions = s.subscriptions)
    (hsubscribed : s'.threadSubscriptions = []) :
    ThreadsRouted s' (histories.mapValues (fun history => { history with subscribed := false })
      fun _ => rfl) where
  heard subscription hsubscription := by
    obtain ⟨history, hhistory, hheard⟩ := h.heard subscription (hsubscriptions ▸ hsubscription)
    refine ⟨{ history with subscribed := false }, ?_, hheard.threadId, hheard.stream, hheard.own,
      ?_⟩
    · rw [Table.get?_mapValues, hhistory, map_some]
    · rw [hsubscribed]
      simp

/-- A subscription changes, with its history; whether the others are subscribed stays. -/
theorem ThreadsRouted.put {history : ThreadHistory}
    {subscribed : List String}
    (hid : history.sessionId = subscription.sessionId)
    (hheard : HeardThread subscribed subscription history)
    (hothers : ∀ sessionId, sessionId ≠ subscription.sessionId →
      (sessionId ∈ subscribed ↔ sessionId ∈ s.threadSubscriptions)) :
    ThreadsRouted { s with
      subscriptions := s.subscriptions.put subscription
      threadSubscriptions := subscribed } (histories.put history) where
  heard other hother := by
    rcases mem_put.mp hother with rfl | ⟨hold, hne⟩
    · exact ⟨history, hid ▸ Table.get?_put_self _ _, hheard⟩
    · obtain ⟨old, hget, hheld⟩ := h.heard other hold
      refine ⟨old, ?_, hheld.threadId, hheld.stream, hheld.own, ?_⟩
      · rw [Table.get?_put_of_ne _ (by rw [hid]; exact Ne.symm hne)]
        exact hget
      · exact (hothers other.sessionId hne).trans hheld.subscribed

end

end threads

/-! ## A step -/

/-- The invariant of the routing. -/
structure Routed (s : Routing) : Prop where
  turns : TurnsRouted s.server s.arrived s.turns
  threads : ThreadsRouted s.server s.threads
  fit : Fit s.server

theorem routed_empty : Routed emptyRouting where
  turns := turnsRouted_empty
  threads := threadsRouted_empty
  fit := ⟨fun _ _ h => (by cases h), fun _ h => (by cases h)⟩

/-- The streams, the subscriptions and what leads to them are as they were. -/
structure StreamsStay (s s' : State) : Prop where
  turns : s'.turns = s.turns
  queues : s'.turnEventQueues = s.turnEventQueues
  backlog : s'.turnEventBacklog = s.turnEventBacklog
  subscriptions : s'.subscriptions = s.subscriptions
  subscribed : s'.threadSubscriptions = s.threadSubscriptions

variable {s s' : State}

theorem createSession_stays (hs : s.createSession = some s') : StreamsStay s s' := by
  unfold State.createSession at hs
  split at hs
  · cases hs
    exact ⟨rfl, rfl, rfl, rfl, rfl⟩
  · split at hs
    · cases hs
      exact ⟨rfl, rfl, rfl, rfl, rfl⟩
    · cases hs
      exact ⟨rfl, rfl, rfl, rfl, rfl⟩
  · cases hs

theorem started_stays {peerId : String} (hs : s.started peerId = some s') : StreamsStay s s' := by
  unfold State.started at hs
  split at hs
  · cases hs
  · cases hs
    exact ⟨rfl, rfl, rfl, rfl, rfl⟩

theorem startFails_stays (hs : s.startFails = some s') : StreamsStay s s' := by
  unfold State.startFails at hs
  split at hs
  · cases hs
    exact ⟨rfl, rfl, rfl, rfl, rfl⟩
  · cases hs

variable {streamId : String} {label : Label}

variable {sessionId : String}

section step

variable {s : Routing} {server : State}

theorem Routed.turns_stay (h : Routed s) (hstay : StreamsStay s.server server) :
    TurnsRouted server s.arrived s.turns :=
  h.turns.of_eq hstay.turns hstay.queues hstay.backlog

theorem Routed.threads_stay (h : Routed s) (hstay : StreamsStay s.server server) :
    ThreadsRouted server s.threads :=
  h.threads.of_eq hstay.subscriptions hstay.subscribed

/-- What is dispatched is the next event, and it is routed. -/
theorem dispatch_eq (hs : s.server.dispatch = some server) :
    ∃ event, s.server.nextEvent = some event ∧
      ∃ peers, server = { s.server with peers := peers }.routeAppEvent event := by
  obtain ⟨peer, hpeer, hs⟩ := bind_eq_some_iff.mp hs
  split at hs
  · cases hs
  · rename_i event events hevents
    cases hs
    refine ⟨event, ?_, s.server.peers.put { peer with events := events }, rfl⟩
    rw [State.nextEvent, hpeer, bind_some, hevents, List.head?_cons]

theorem routeToTurn_threads (s : State) (event : AppEvent) :
    ((event.turnId.map (s.routeToTurn event)).getD s).subscriptions = s.subscriptions ∧
      ((event.turnId.map (s.routeToTurn event)).getD s).threadSubscriptions =
        s.threadSubscriptions := by
  cases event.turnId with
  | none => exact ⟨rfl, rfl⟩
  | some turnId =>
    show (s.routeToTurn event turnId).subscriptions = _ ∧
      (s.routeToTurn event turnId).threadSubscriptions = _
    unfold State.routeToTurn
    split
    · split <;> exact ⟨rfl, rfl⟩
    · exact ⟨rfl, rfl⟩

section

variable (h : Routed s)
include h

theorem Routed.dispatch (hs : s.server.dispatch = some server) :
    TurnsRouted server (s.note .dispatch).arrived (s.note .dispatch).turns ∧
      ThreadsRouted server (s.note .dispatch).threads := by
  obtain ⟨event, hnext, peers, rfl⟩ := dispatch_eq hs
  have hnote : s.note .dispatch = s.arrive event := by rw [Routing.note, hnext, map_some, getD_some]
  rw [hnote]
  have hturns : TurnsRouted { s.server with peers := peers } s.arrived s.turns :=
    h.turns.of_eq rfl rfl rfl
  have hthreads : ThreadsRouted { s.server with peers := peers } s.threads :=
    h.threads.of_eq rfl rfl
  have hrouted := hturns.arrive h.fit.tables event
  obtain ⟨hsubscriptions, hsubscribed⟩ :=
    routeToTurn_threads { s.server with peers := peers } event
  constructor
  · unfold State.routeAppEvent
    cases event.threadId with
    | none => exact hrouted
    | some threadId => exact hrouted.of_eq rfl rfl rfl
  · exact (hthreads.of_eq hsubscriptions hsubscribed).arrive event

/-- A stretch of the loop of a stream. -/
theorem Routed.read (hs : s.server.read streamId = some server) :
    TurnsRouted server s.arrived (s.takeTurnEvent streamId).turns := by
  obtain ⟨turn, hget, hnext⟩ := bind_eq_some_iff.mp hs
  obtain rfl : turn.streamId = streamId := key_of_get? hget
  obtain ⟨history, hhistory, -⟩ := h.turns.heard turn (mem_of_get? hget)
  split at hnext
  · rename_i event queue hphase hqueue
    cases hnext
    have hhead : s.server.turnHead turn.streamId = some event := by
      rw [State.turnHead, hget, bind_some, hqueue, List.head?_cons]
    rw [Routing.takeTurnEvent, hhistory, hhead]
    exact h.turns.read hget hhistory hphase hqueue
  · cases hnext

theorem Routed.answer {answer : Answer} (hs : s.server.answer streamId answer = some server) :
    TurnsRouted server s.arrived s.turns := by
  obtain ⟨turn, hturn, rfl⟩ := map_eq_some_iff.mp hs
  obtain ⟨hget, hphase⟩ := filter_eq_some_iff.mp hturn
  obtain rfl : turn.streamId = streamId := key_of_get? hget
  cases answer with
  | resolved =>
    refine h.turns.putQuiet hget rfl rfl rfl ?_
    simp [of_decide_eq_true hphase]
  | aborted | timedOut => exact h.turns.returns hget rfl rfl rfl

theorem Routed.endStream {p : TurnStream → Bool} {f : TurnStream → TurnStream}
    (hs : ((s.server.turns.get? streamId).filter p).map (fun turn => s.server.endTurn (f turn)) =
      some server)
    (hf : ∀ turn, (f turn).streamId = turn.streamId ∧ (f turn).turnId = turn.turnId ∧
      (f turn).queue = turn.queue) : TurnsRouted server s.arrived s.turns := by
  obtain ⟨turn, hturn, rfl⟩ := map_eq_some_iff.mp hs
  obtain ⟨hget, -⟩ := filter_eq_some_iff.mp hturn
  obtain rfl : turn.streamId = streamId := key_of_get? hget
  exact h.turns.returns hget (hf turn).1 (hf turn).2.1 (hf turn).2.2

theorem Routed.closed (hs : s.server.closed = some server) :
    TurnsRouted server s.detach.arrived s.detach.turns ∧ ThreadsRouted server s.detach.threads := by
  unfold State.closed at hs
  split at hs
  · rename_i peerId hclosing
    cases hs
    have hended : TurnsRouted (s.server.endReader peerId) s.arrived s.turns ∧
        ThreadsRouted (s.server.endReader peerId) s.threads := by
      unfold State.endReader
      split
      · exact ⟨h.turns, h.threads⟩
      · exact ⟨h.turns.stopReader, h.threads.of_eq rfl rfl⟩
    exact ⟨hended.1.clear rfl rfl rfl, hended.2.clear rfl rfl⟩
  · cases hs

/-- The streams of turns keep their histories. -/
theorem Routed.turns_step (hs : s.server.step label = some server) :
    TurnsRouted server (s.note label).arrived (s.note label).turns := by
  cases label with
  | output peerId line =>
    obtain ⟨peer, -, rfl⟩ := map_eq_some_iff.mp hs
    cases line with
    | event | ignored => exact h.turns.of_eq rfl rfl rfl
    | malformed | endOfStream => exact h.turns.stopReader
  | exit peerId =>
    obtain ⟨peer, -, rfl⟩ := map_eq_some_iff.mp hs
    exact h.turns.of_eq rfl rfl rfl
  | dispatch => exact (h.dispatch hs).1
  | createSession => exact h.turns_stay (createSession_stays hs)
  | closed => exact (h.closed hs).1
  | started peerId => exact h.turns_stay (started_stays hs)
  | startFails => exact h.turns_stay (startFails_stays hs)
  | register turn => exact h.turns.register hs
  | read streamId =>
    have hkept : (s.takeTurnEvent streamId).arrived = s.arrived := by
      unfold Routing.takeTurnEvent
      split <;> rfl
    show TurnsRouted server (s.takeTurnEvent streamId).arrived _
    rw [hkept]
    exact h.read hs
  | answer streamId answer => exact h.answer hs
  | finalMessage | finalMessageFails | cancelTurn =>
    exact h.endStream hs fun turn => ⟨rfl, rfl, rfl⟩
  | subscribe subscription =>
    simp only [State.step, State.subscribe] at hs
    split at hs
    · cases hs
    · cases hs
      exact h.turns.of_eq rfl rfl rfl
  | nextThreadEvent sessionId =>
    have hkept : (s.takeThreadEvent sessionId).arrived = s.arrived ∧
        (s.takeThreadEvent sessionId).turns = s.turns := by
      unfold Routing.takeThreadEvent
      split <;> exact ⟨rfl, rfl⟩
    show TurnsRouted server (s.takeThreadEvent sessionId).arrived
      (s.takeThreadEvent sessionId).turns
    rw [hkept.1, hkept.2]
    obtain ⟨subscription, -, hs⟩ := bind_eq_some_iff.mp hs
    split at hs
    · cases hs
    · cases hs
      exact h.turns.of_eq rfl rfl rfl
  | unsubscribe sessionId =>
    have hkept : (s.cancelThread sessionId).arrived = s.arrived ∧
        (s.cancelThread sessionId).turns = s.turns := by
      unfold Routing.cancelThread
      split <;> exact ⟨rfl, rfl⟩
    show TurnsRouted server (s.cancelThread sessionId).arrived (s.cancelThread sessionId).turns
    rw [hkept.1, hkept.2]
    obtain ⟨subscription, -, rfl⟩ := map_eq_some_iff.mp hs
    exact h.turns.of_eq rfl rfl rfl

/-- A subscription begins, with no history. -/
theorem Routed.subscribe
    (hs : s.server.subscribe subscription = some server) :
    ThreadsRouted server (s.note (.subscribe subscription)).threads := by
  unfold State.subscribe at hs
  split at hs
  · cases hs
  cases hs
  have hfresh : HeardThread (s.server.threadSubscriptions ++ [subscription.sessionId])
      { subscription with queue := [], ended := false }
      { sessionId := subscription.sessionId, threadId := subscription.threadId } :=
    ⟨rfl, rfl, fun _ hnone => (by cases hnone), by simp⟩
  refine h.threads.put rfl hfresh fun sessionId hne => ?_
  have hother : sessionId ≠ subscription.sessionId := hne
  simp [hother]

/-- A subscription takes the next event of its queue. -/
theorem Routed.nextThreadEvent
    (hs : s.server.nextThreadEvent sessionId = some server) :
    ThreadsRouted server (s.takeThreadEvent sessionId).threads := by
  obtain ⟨subscription, hsubscription, hnext⟩ := bind_eq_some_iff.mp hs
  obtain ⟨hget, -⟩ := filter_eq_some_iff.mp hsubscription
  obtain rfl : subscription.sessionId = sessionId := key_of_get? hget
  obtain ⟨history, hhistory, hheard⟩ := h.threads.heard subscription (mem_of_get? hget)
  split at hnext
  · cases hnext
  · rename_i event queue hqueue
    cases hnext
    have hhead : s.server.threadHead subscription.sessionId = some event := by
      rw [State.threadHead, hget, bind_some, hqueue, List.head?_cons]
    rw [Routing.takeThreadEvent, hhistory, hhead]
    have hid : history.sessionId = subscription.sessionId := key_of_get? hhistory
    refine h.threads.put hid ⟨hheard.threadId, ?_, hheard.own, hheard.subscribed⟩
      fun _ _ => Iff.rfl
    show history.taken ++ [event] ++ queue = history.arrived
    rw [append_assoc, singleton_append, ← hqueue]
    exact hheard.stream

/-- A subscription is cancelled. -/
theorem Routed.unsubscribe
    (hs : s.server.unsubscribe sessionId = some server) :
    ThreadsRouted server (s.cancelThread sessionId).threads := by
  obtain ⟨subscription, hget, rfl⟩ := map_eq_some_iff.mp hs
  obtain rfl : subscription.sessionId = sessionId := key_of_get? hget
  obtain ⟨history, hhistory, hheard⟩ := h.threads.heard subscription (mem_of_get? hget)
  rw [Routing.cancelThread, hhistory]
  have hid : history.sessionId = subscription.sessionId := key_of_get? hhistory
  refine h.threads.put hid ⟨hheard.threadId, hheard.stream, hheard.own, ?_⟩ fun other hne => ?_
  · simp
  · have hother : other ≠ subscription.sessionId := hne
    simp [hother]

/-- The subscriptions keep their histories. -/
theorem Routed.threads_step
    (hs : s.server.step label = some server) : ThreadsRouted server (s.note label).threads := by
  cases label with
  | output peerId line =>
    obtain ⟨peer, -, rfl⟩ := map_eq_some_iff.mp hs
    cases line <;> exact h.threads.of_eq rfl rfl
  | exit peerId =>
    obtain ⟨peer, -, rfl⟩ := map_eq_some_iff.mp hs
    exact h.threads.of_eq rfl rfl
  | dispatch => exact (h.dispatch hs).2
  | createSession => exact h.threads_stay (createSession_stays hs)
  | closed => exact (h.closed hs).2
  | started peerId => exact h.threads_stay (started_stays hs)
  | startFails => exact h.threads_stay (startFails_stays hs)
  | register turn =>
    simp only [State.step, State.register] at hs
    split at hs
    · cases hs
    · cases hs
      exact h.threads.of_eq rfl rfl
  | read streamId =>
    have hkept : (s.takeTurnEvent streamId).threads = s.threads := by
      unfold Routing.takeTurnEvent
      split <;> rfl
    show ThreadsRouted server (s.takeTurnEvent streamId).threads
    rw [hkept]
    obtain ⟨turn, -, hnext⟩ := bind_eq_some_iff.mp hs
    split at hnext
    · cases hnext
      unfold State.readEvent
      dsimp only
      split <;> exact h.threads.of_eq rfl rfl
    · cases hnext
  | answer streamId answer =>
    obtain ⟨turn, -, rfl⟩ := map_eq_some_iff.mp hs
    cases answer <;> exact h.threads.of_eq rfl rfl
  | finalMessage | finalMessageFails | cancelTurn =>
    obtain ⟨turn, -, rfl⟩ := map_eq_some_iff.mp hs
    exact h.threads.of_eq rfl rfl
  | subscribe subscription => exact h.subscribe hs
  | nextThreadEvent sessionId => exact h.nextThreadEvent hs
  | unsubscribe sessionId => exact h.unsubscribe hs

end

end step

variable {s : Routing}

/-- A step keeps the invariant. -/
theorem routed_step {s' : Routing} (h : Routed s)
    (hs : routingSystem.step s label = some s') : Routed s' := by
  obtain ⟨server, hserver, rfl⟩ := map_eq_some_iff.mp hs
  exact ⟨h.turns_step hserver, h.threads_step hserver, fit_step h.fit hserver⟩

/-- The invariant is the law, and more. -/
theorem Routed.keepsStreams (h : Routed s) : KeepsStreams s where
  turns turn hturn := by
    obtain ⟨history, hhistory, hheard⟩ := h.turns.heard turn hturn
    refine ⟨history, hhistory, hheard.turnId, fun hlimit => ?_, fun event hevent => ?_⟩
    · rw [hheard.stream, latest_of_le hlimit]
    · refine hheard.own event ?_
      rw [hheard.stream] at hevent
      rcases mem_append.mp hevent with hearly | hlate
      · exact mem_append_left _ (mem_of_mem_drop hearly)
      · exact mem_append_right _ hlate
  threads subscription hsubscription := by
    obtain ⟨history, hhistory, hheard⟩ := h.threads.heard subscription hsubscription
    refine ⟨history, hhistory, hheard.threadId, hheard.stream, fun event hevent => ?_⟩
    rw [hheard.stream] at hevent
    exact hheard.own event hevent

/-- In every run the routing keeps the streams. -/
theorem routing_keeps_streams (labels : List Label) :
    routingSystem.Always KeepsStreams emptyRouting labels := by
  have hrouted : routingSystem.Always Routed emptyRouting labels :=
    (System.along_true emptyRouting labels).always routed_empty
      fun _ _ _ h _ hs => routed_step h hs
  exact hrouted.mono fun _ h => h.keepsStreams

end Newbro.AppServer
