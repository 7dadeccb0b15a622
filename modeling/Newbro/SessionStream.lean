import Newbro.Snapshots

/-!
# The event stream of a session

The numbered events of a session and the queues of its websockets: `subscribe`,
`publish_snapshot`, `initial_snapshot_event`, `_broadcast_event` and `session_stream`, cut
where they suspend. Reads of the blackboard and puts into the unbounded queues never suspend;
a snapshot that syncs the imported threads waits for the nodes between its reads and its
number. A snapshot is a value, and it lists no nodes that the scoping for a user could drop.
-/
namespace Newbro.SessionStream

open Library Snapshots

variable {α : Type}

inductive Content (α : Type) where
  | snapshot (snapshot : Snapshot α)
  | other (payload : String)

/-- A numbered event, with the moments at which it was built and at which what it shows was
read. -/
structure Event (α : Type) where
  sequence : Nat
  content : Content α
  builtAt : Nat
  readAt : Nat

/-- What a snapshot shows of the blackboard: all but what is projected from it. -/
def shownOf (s : Snapshots.State) : Snapshot Unit := snapshot (fun _ => ()) s

def Event.shown? (event : Event α) : Option (Snapshot Unit) :=
  match event.content with
  | .snapshot shown => some { shown with projected := () }
  | .other _ => none

/-- A websocket: its queue, the event that is being scoped and sent, and what it has sent.
The sender starts once the initial snapshot is out. -/
structure Client (α : Type) where
  clientId : String
  queue : List (Event α)
  sending : Option (Event α)
  greeted : Bool
  delivered : List (Event α)
  closed : Bool

/-- A snapshot that waits for the threads of the nodes, with what it has read. -/
structure Sync where
  syncId : String
  copy : Snapshots.State
  startedAt : Nat

/-- The session, its stream, all events so far and a clock. -/
structure State (α : Type) where
  session : Snapshots.State
  nextSequence : Nat
  subscribers : List String
  clients : Table (Client.clientId (α := α))
  syncs : Table Sync.syncId
  built : List (Event α)
  clock : Nat

structure Config (α : Type) where
  snapshots : Snapshots.Config
  project : ProjectionInput → α

def initialState : State α :=
  { session := Snapshots.initialState
    nextSequence := 1
    subscribers := []
    clients := Table.empty
    syncs := Table.empty
    built := []
    clock := 0 }

inductive Label where
  | session (label : Snapshots.Label)
  | broadcast (payload : String)
  /-- `publish_private_event` -/
  | publishPrivate (clientId payload : String)
  | publishSnapshot
  /-- `publish_snapshot(sync_imported_codex_threads=True)`, up to the nodes. -/
  | beginSync (syncId : String)
  | finishSync (syncId : String) (imported : ImportedThreads)
  | cancelSync (syncId : String)
  /-- `subscribe` with the initial snapshot. -/
  | connect (clientId : String)
  | take (clientId : String)
  | deliver (clientId : String)
  | disconnect (clientId : String)

/-! ## Building events -/

/-- The next number is drawn when an event is built. -/
def State.build (s : State α) (content : Content α) (readAt : Nat) : Event α :=
  ⟨s.nextSequence, content, s.clock, readAt⟩

def State.record (s : State α) (event : Event α) : State α :=
  { s with nextSequence := s.nextSequence + 1, built := s.built ++ [event] }

def Client.enqueue (client : Client α) (event : Event α) : Client α :=
  { client with queue := client.queue ++ [event] }

/-- `_broadcast_event` with an event that was built for it. -/
def broadcastEvent (s : State α) (event : Event α) : State α :=
  { s.record event with
    clients := s.clients.mapValues
      (fun client => if client.clientId ∈ s.subscribers then client.enqueue event else client)
      (fun client => by split <;> rfl) }

/-- A snapshot that synced the imported threads: the lists of the blackboard were read before,
the turns of the threads are read afterwards. -/
def syncedState (copy now : Snapshots.State) : Snapshots.State :=
  { session := copy.session
    turns := { copy.turns with timeline := now.turns.timeline }
    imported := now.imported }

variable (cfg : Config α)

def publishSnapshot (s : State α) : State α :=
  broadcastEvent s (s.build (.snapshot (snapshot cfg.project s.session)) s.clock)

def finishSync (s : State α) (syncId : String) (imported : ImportedThreads) : Option (State α) :=
  (s.syncs.get? syncId).map fun sync =>
    let s := { s with
      session := { s.session with imported := imported }
      syncs := s.syncs.erase syncId }
    let shown := snapshot cfg.project (syncedState sync.copy s.session)
    broadcastEvent s (s.build (.snapshot shown) sync.startedAt)

def publishPrivate (s : State α) (clientId payload : String) : Option (State α) :=
  (s.clients.get? clientId).map fun client =>
    let event := s.build (.other payload) s.clock
    { s.record event with clients := s.clients.put (client.enqueue event) }

def connect (s : State α) (clientId : String) : Option (State α) :=
  if s.clients.contains clientId = true then none
  else
    let event := s.build (.snapshot (snapshot cfg.project s.session)) s.clock
    some { s.record event with
      subscribers := s.subscribers ++ [clientId]
      clients := s.clients.put
        { clientId := clientId, queue := [], sending := some event, greeted := false,
          delivered := [], closed := false } }

/-! ## The sender -/

/-- `queue.get()` -/
def take (s : State α) (clientId : String) : Option (State α) :=
  match s.clients.get? clientId with
  | some ⟨_, event :: queue, none, true, delivered, false⟩ =>
    some { s with
      clients := s.clients.put ⟨clientId, queue, some event, true, delivered, false⟩ }
  | _ => none

/-- `websocket.send_json` -/
def deliver (s : State α) (clientId : String) : Option (State α) :=
  match s.clients.get? clientId with
  | some ⟨_, queue, some event, _, delivered, false⟩ =>
    some { s with
      clients := s.clients.put ⟨clientId, queue, none, true, delivered ++ [event], false⟩ }
  | _ => none

/-- The route unsubscribes its queue in the end, unless the initial snapshot cannot be sent. -/
def disconnect (s : State α) (clientId : String) : Option (State α) :=
  (s.clients.get? clientId).map fun client =>
    { s with
      subscribers :=
        if client.greeted = true then s.subscribers.erase clientId else s.subscribers
      clients := s.clients.put { client with closed := true } }

def act (s : State α) : Label → Option (State α)
  | .session label =>
    (Snapshots.step cfg.snapshots s.session label).map fun session => { s with session := session }
  | .broadcast payload => some (broadcastEvent s (s.build (.other payload) s.clock))
  | .publishPrivate clientId payload => publishPrivate s clientId payload
  | .publishSnapshot => some (publishSnapshot cfg s)
  | .beginSync syncId =>
    if s.syncs.contains syncId = true then none
    else some { s with syncs := s.syncs.put ⟨syncId, s.session, s.clock⟩ }
  | .finishSync syncId imported => finishSync cfg s syncId imported
  | .cancelSync syncId => some { s with syncs := s.syncs.erase syncId }
  | .connect clientId => connect cfg s clientId
  | .take clientId => take s clientId
  | .deliver clientId => deliver s clientId
  | .disconnect clientId => disconnect s clientId

def step (s : State α) (label : Label) : Option (State α) :=
  (act cfg s label).map fun s => { s with clock := s.clock + 1 }

def system : System (State α) Label where
  initial s := s = initialState
  step := step cfg

/-! ## Stream order -/

/-- `event` shows another state of the blackboard than `other`, read before that one. -/
def Event.Older (event other : Event α) : Prop :=
  event.readAt < other.readAt ∧
    ∃ shown ∈ event.shown?, ∃ shown' ∈ other.shown?, shown ≠ shown'

/-- The numbers that a client sees increase, no event comes after a snapshot that was built
later, and a later snapshot shows no older state. -/
structure StreamLaw (s : State α) : Prop where
  increasing : ∀ client ∈ s.clients.entries,
    client.delivered.Pairwise fun e f => e.sequence < f.sequence
  inOrder : ∀ client ∈ s.clients.entries,
    client.delivered.Pairwise fun e f => e.shown?.isSome = true → e.builtAt ≤ f.builtAt
  forward : ∀ e ∈ s.built, ∀ f ∈ s.built, e.sequence < f.sequence → ¬ f.Older e

end Newbro.SessionStream
