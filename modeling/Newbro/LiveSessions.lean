import Newbro.AppServer

/-!
# Sessions that outlive their app-server

`_dispatch_run` and `_ensure_session` of the executor node, over the app session that
`CodexExecutor` shares between all its sessions. The node keeps one session for each execution
session and asks it whether it is alive; the app-server behind it is closed and started anew by
whichever request finds it dead. Commands of a connection are handled one after the other, so
at most one dispatch waits for the app session; the requests that run in the background are the
labels of the app-server system. A label is one stretch of a coroutine.
-/
namespace Newbro.LiveSessions

open Library Option
open AppServer (Peer Restart emptyState)

/-! ## Sessions -/

/-- `CodexExecutorSession`: a process and a client, each given by the peer it belongs to. -/
structure CodexSession where
  process : Option String := none
  client : Option String := none
  deriving Repr, DecidableEq

/-- `returncode is None` of the process behind a peer. -/
def running (server : AppServer.State) (peerId : String) : Bool :=
  (server.peers.get? peerId).any fun peer => !peer.exited

/-- The app-server that is alive, if there is one. -/
def aliveAppServer (server : AppServer.State) : Option String :=
  server.appSession.filter (running server)

namespace CodexSession

def attach (session : CodexSession) (peerId : String) : CodexSession :=
  { session with process := some peerId, client := some peerId }

variable (session : CodexSession)

def attachShared (peerId : String) : CodexSession :=
  { session with client := some peerId }

def isAlive (server : AppServer.State) : Bool :=
  match session.process with
  | some peerId => running server peerId
  | none => session.client.isSome

end CodexSession

/-! ## Dispatching -/

/-- `DispatchRunCommand`, as far as the session depends on it. -/
structure DispatchRun where
  runId : String
  executionSessionId : String
  deriving Repr, DecidableEq

/-- A `_run_dispatch`, with its session. -/
structure RunTask where
  run : DispatchRun
  session : CodexSession
  deriving Repr, DecidableEq

/-- A run as it was started: whether its session was found in `_live_sessions`, the app-server
that was alive then, and whether the one of the session was. -/
structure Start where
  task : RunTask
  cached : Bool
  appServer : Option String
  serverRunning : Bool
  deriving Repr, DecidableEq

/-- How far a `_dispatch_run` has come that waits in `_ensure_app_session`: it queues for the
lock, or holds it while the app-server is replaced. -/
inductive Dispatching where
  | queued (command : DispatchRun)
  | launching (command : DispatchRun)
  deriving Repr, DecidableEq

structure NodeState where
  server : AppServer.State
  /-- `_live_sessions` -/
  liveSessions : Dict String CodexSession
  dispatching : Option Dispatching
  tasks : List RunTask
  starts : List Start

inductive NodeLabel where
  | dispatchRun (command : DispatchRun)
  /-- The lock is free again for the dispatch that queues for it. -/
  | lockFree
  /-- The app-server that a dispatch has launched has answered; its process may have exited
  since. -/
  | launched (peerId : String) (exited : Bool)
  | runEnds (task : RunTask)
  | releaseRun (executionSessionId : String)
  | server (label : AppServer.Label)

namespace NodeState

/-- The end of `_dispatch_run`. -/
def startRun (n : NodeState) (command : DispatchRun) (session : CodexSession) (cached : Bool) :
    NodeState :=
  let task : RunTask := ⟨command, session⟩
  { n with
    dispatching := none
    tasks := n.tasks ++ [task]
    starts := n.starts ++
      [⟨task, cached, aliveAppServer n.server, session.client.any (running n.server)⟩] }

/-- The rest of `create_session` and of `_ensure_session`, once there is an app session. -/
def createSession (n : NodeState) (command : DispatchRun) (peerId : String) : NodeState :=
  let session := CodexSession.attachShared {} peerId
  { n with
    liveSessions := n.liveSessions.set command.executionSessionId session }.startRun command
      session false

/-- `_ensure_app_session`, for a dispatch: with a live app session it returns at once. -/
def ensureAppSession (n : NodeState) (command : DispatchRun) : NodeState :=
  match n.server.createSession with
  | none => { n with dispatching := some (.queued command) }
  | some server =>
    match server.restart, server.appSession with
    | .idle, some peerId => { n with server := server }.createSession command peerId
    | _, _ => { n with server := server, dispatching := some (.launching command) }

/-- `_dispatch_run`, with `_ensure_session`. -/
def dispatchRun (n : NodeState) (command : DispatchRun) : Option NodeState :=
  if n.dispatching.isSome then none
  else
    match (n.liveSessions.lookup command.executionSessionId).filter
        (·.isAlive n.server) with
    | some session => some (n.startRun command session true)
    | none => some (n.ensureAppSession command)

def lockFree (n : NodeState) : Option NodeState :=
  match n.dispatching, n.server.restart with
  | some (.queued command), .idle => some (n.ensureAppSession command)
  | _, _ => none

def launched (n : NodeState) (peerId : String) (exited : Bool) : Option NodeState :=
  match n.dispatching with
  | some (.launching command) =>
    (n.server.started peerId).bind fun server =>
      (if exited then server.exit peerId else some server).map fun server =>
        { n with server := server }.createSession command peerId
  | _ => none

/-- The `finally` of `_run_dispatch`. -/
def runEnds (n : NodeState) (task : RunTask) : Option NodeState :=
  if task ∉ n.tasks then none
  else
    some { n with
      tasks := n.tasks.erase task
      liveSessions :=
        if task.session.isAlive n.server then n.liveSessions
        else n.liveSessions.erase task.run.executionSessionId }

def releaseRun (n : NodeState) (executionSessionId : String) : NodeState :=
  { n with liveSessions := n.liveSessions.erase executionSessionId }

/-- What the app-server and the other requests do. While a dispatch holds the lock it is the
one that the new app-server answers; when the launch fails, so does the dispatch. -/
def serverStep (n : NodeState) (label : AppServer.Label) : Option NodeState :=
  match n.dispatching, label with
  | some (.launching _), .started _ => none
  | some (.launching _), .startFails =>
    n.server.startFails.map fun server => { n with server := server, dispatching := none }
  | _, _ => (n.server.step label).map fun server => { n with server := server }

def step (n : NodeState) : NodeLabel → Option NodeState
  | .dispatchRun command => n.dispatchRun command
  | .lockFree => n.lockFree
  | .launched peerId exited => n.launched peerId exited
  | .runEnds task => n.runEnds task
  | .releaseRun executionSessionId => some (n.releaseRun executionSessionId)
  | .server label => n.serverStep label

end NodeState

def noSessions : NodeState :=
  { server := emptyState
    liveSessions := Table.empty
    dispatching := none
    tasks := []
    starts := [] }

def nodeSystem : System NodeState NodeLabel where
  initial n := n = noSessions
  step := NodeState.step

/-! ## Runs and the app-server that is alive -/

/-- The session has the client of the app-server that is alive, and is no session of a dead one
from the cache. -/
def Start.OnLiving (start : Start) : Prop :=
  (∃ peerId, start.task.session.client = some peerId ∧ start.appServer = some peerId) ∧
    (start.cached = true → start.serverRunning = true)

def AllOnLiving (n : NodeState) : Prop := ∀ start ∈ n.starts, start.OnLiving

/-- The session that a dispatch finds in `_live_sessions` has an app-server that runs, and the
one that a dispatch launches runs when the launch returns. -/
def NodeState.servedByRunning (n : NodeState) : NodeLabel → Bool
  | .dispatchRun command =>
    (n.liveSessions.lookup command.executionSessionId).all fun session =>
      session.client.any (running n.server)
  | .launched _ exited => !exited
  | _ => true

/-! ## At most one app-server runs -/

variable {streamId : String} {label : AppServer.Label}

section servers

variable {s s' : AppServer.State} {peerId : String}

/-- An app-server that runs is the one of the app session, and none runs while it is
replaced. -/
structure OneRunning (s : AppServer.State) : Prop where
  appSession : ∀ peerId, running s peerId = true → s.appSession = some peerId
  replaced : s.restart ≠ .idle → ∀ peerId, running s peerId = false

theorem oneRunning_empty : OneRunning emptyState where
  appSession _ hrunning := by cases hrunning
  replaced _ _ := rfl

/-- What neither ends nor replaces an app-server. -/
structure SameServers (s s' : AppServer.State) : Prop where
  running : ∀ peerId, running s' peerId = running s peerId
  appSession : s'.appSession = s.appSession
  restart : s'.restart = s.restart

theorem SameServers.of_eq (hpeers : s'.peers = s.peers) (happ : s'.appSession = s.appSession)
    (hrestart : s'.restart = s.restart) : SameServers s s' where
  running peerId := by simp only [LiveSessions.running, hpeers]
  appSession := happ
  restart := hrestart

theorem running_put (peers : Table Peer.peerId) (peer : Peer) (peerId : String) :
    ((peers.put peer).get? peerId).any (!·.exited) =
      if peer.peerId = peerId then !peer.exited else (peers.get? peerId).any (!·.exited) := by
  rw [Table.get?_put]
  split <;> rfl

/-- A peer is replaced that differs in its queue or its reader only. -/
theorem SameServers.putPeer {old : Peer} (peer : Peer) (hget : s.peers.get? peer.peerId = some old)
    (hexited : peer.exited = old.exited) (hpeers : s'.peers = s.peers.put peer)
    (happ : s'.appSession = s.appSession) (hrestart : s'.restart = s.restart) :
    SameServers s s' where
  running peerId := by
    unfold LiveSessions.running
    rw [hpeers, running_put]
    split
    · rename_i heq
      rw [← heq, hget, hexited]
      rfl
    · rfl
  appSession := happ
  restart := hrestart

theorem SameServers.trans {s'' : AppServer.State} (h : SameServers s s')
    (h' : SameServers s' s'') : SameServers s s'' where
  running peerId := (h'.running peerId).trans (h.running peerId)
  appSession := h'.appSession.trans h.appSession
  restart := h'.restart.trans h.restart

theorem OneRunning.same (h : OneRunning s) (hsame : SameServers s s') : OneRunning s' where
  appSession peerId hrunning := by
    rw [hsame.running] at hrunning
    rw [hsame.appSession]
    exact h.appSession peerId hrunning
  replaced hbusy peerId := by
    rw [hsame.restart] at hbusy
    rw [hsame.running]
    exact h.replaced hbusy peerId

theorem sameServers_endReader (s : AppServer.State) (peerId : String) :
    SameServers s (s.endReader peerId) := by
  unfold AppServer.State.endReader
  split
  · exact .of_eq rfl rfl rfl
  · rename_i peer hpeer
    have hget := (filter_eq_some_iff.mp hpeer).1
    obtain rfl := Table.key_of_get? hget
    exact .putPeer { peer with readerDone := true } hget rfl rfl rfl rfl

theorem sameServers_output {line : AppServer.OutputLine} (hs : s.output peerId line = some s') :
    SameServers s s' := by
  obtain ⟨peer, hpeer, rfl⟩ := map_eq_some_iff.mp hs
  have hget := (filter_eq_some_iff.mp hpeer).1
  obtain rfl := Table.key_of_get? hget
  cases line with
  | event event =>
    exact .putPeer { peer with events := peer.events ++ [event] } hget rfl rfl rfl rfl
  | ignored => exact .of_eq rfl rfl rfl
  | malformed | endOfStream => exact .putPeer { peer with readerDone := true } hget rfl rfl rfl rfl

theorem sameServers_routeToTurn (s : AppServer.State) (event : AppServer.AppEvent)
    (turnId : String) : SameServers s (s.routeToTurn event turnId) := by
  unfold AppServer.State.routeToTurn
  split
  · split <;> exact .of_eq rfl rfl rfl
  · exact .of_eq rfl rfl rfl

theorem sameServers_routeAppEvent (s : AppServer.State) (event : AppServer.AppEvent) :
    SameServers s (s.routeAppEvent event) := by
  have hturn : SameServers s ((event.turnId.map (s.routeToTurn event)).getD s) := by
    cases event.turnId with
    | none => exact .of_eq rfl rfl rfl
    | some turnId => exact sameServers_routeToTurn s event turnId
  refine hturn.trans ?_
  unfold AppServer.State.routeAppEvent
  cases event.threadId with
  | none | some => exact .of_eq rfl rfl rfl

theorem sameServers_dispatch (hs : s.dispatch = some s') : SameServers s s' := by
  obtain ⟨peer, hpeer, hs⟩ := bind_eq_some_iff.mp hs
  obtain ⟨peerId, -, hget⟩ := bind_eq_some_iff.mp hpeer
  obtain rfl := Table.key_of_get? hget
  split at hs
  · cases hs
  · rename_i event events hevents
    cases hs
    refine .trans ?_ (sameServers_routeAppEvent _ event)
    exact .putPeer { peer with events := events } hget rfl rfl rfl rfl

theorem sameServers_readEvent (s : AppServer.State) (turn : AppServer.TurnStream)
    (event : AppServer.AppEvent) (queue : List AppServer.AppEvent) :
    SameServers s (s.readEvent turn event queue) := by
  unfold AppServer.State.readEvent
  dsimp only
  split <;> exact .of_eq rfl rfl rfl

theorem sameServers_answer {answer : AppServer.Answer}
    (hs : s.answer streamId answer = some s') : SameServers s s' := by
  obtain ⟨turn, -, rfl⟩ := map_eq_some_iff.mp hs
  cases answer with
  | resolved | aborted | timedOut => exact .of_eq rfl rfl rfl

theorem sameServers_subscribe {subscription : AppServer.ThreadStream}
    (hs : s.subscribe subscription = some s') : SameServers s s' := by
  unfold AppServer.State.subscribe at hs
  split at hs
  · cases hs
  · cases hs
    exact .of_eq rfl rfl rfl

theorem sameServers_register {turn : AppServer.TurnStream} (hs : s.register turn = some s') :
    SameServers s s' := by
  unfold AppServer.State.register at hs
  split at hs
  · cases hs
  · cases hs
    exact .of_eq rfl rfl rfl

theorem sameServers_nextThreadEvent {sessionId : String}
    (hs : s.nextThreadEvent sessionId = some s') : SameServers s s' := by
  obtain ⟨subscription, -, hs⟩ := bind_eq_some_iff.mp hs
  split at hs
  · cases hs
  · cases hs
    exact .of_eq rfl rfl rfl

theorem sameServers_read (hs : s.read streamId = some s') :
    SameServers s s' := by
  obtain ⟨turn, -, hs⟩ := bind_eq_some_iff.mp hs
  split at hs
  · cases hs
    exact sameServers_readEvent s turn _ _
  · cases hs

/-- The process of an app-server ends. -/
theorem running_exit (hs : s.exit peerId = some s') (other : String) :
    running s' other = if peerId = other then false else running s other := by
  obtain ⟨peer, hget, rfl⟩ := map_eq_some_iff.mp hs
  obtain rfl := Table.key_of_get? hget
  exact running_put s.peers { peer with exited := true } other

theorem exit_frame (hs : s.exit peerId = some s') :
    s'.appSession = s.appSession ∧ s'.restart = s.restart := by
  obtain ⟨peer, -, rfl⟩ := map_eq_some_iff.mp hs
  exact ⟨rfl, rfl⟩

theorem OneRunning.exit (h : OneRunning s) (hs : s.exit peerId = some s') : OneRunning s' := by
  obtain ⟨happ, hrestart⟩ := exit_frame hs
  have hle : ∀ other, running s' other = true → running s other = true := by
    intro other hrunning
    rw [running_exit hs] at hrunning
    split at hrunning
    · cases hrunning
    · exact hrunning
  constructor
  · intro other hrunning
    rw [happ]
    exact h.appSession other (hle other hrunning)
  · intro hbusy other
    have hdead := h.replaced (hrestart ▸ hbusy) other
    by_contra hnow
    rw [hle other (by simpa using hnow)] at hdead
    cases hdead

/-- `_ensure_app_session` keeps an app session that runs, and replaces another. -/
theorem createSession_spec (hs : s.createSession = some s') :
    (∀ peerId, running s' peerId = running s peerId) ∧ s'.appSession = s.appSession ∧
      ((s'.restart = .idle ∧ ∃ peerId, s.appSession = some peerId ∧ running s peerId = true) ∨
        (s'.restart ≠ .idle ∧ ∀ peerId, s.appSession = some peerId →
          running s peerId = false)) := by
  unfold AppServer.State.createSession at hs
  split at hs
  · rename_i hnone
    cases hs
    refine ⟨fun _ => rfl, rfl, .inr ⟨by simp, fun peerId hsome => ?_⟩⟩
    rw [hnone] at hsome
    cases hsome
  · rename_i old hidle hold
    split at hs
    · rename_i hrunning
      cases hs
      exact ⟨fun _ => rfl, rfl, .inl ⟨hidle, old, hold, hrunning⟩⟩
    · rename_i hdead
      cases hs
      refine ⟨fun _ => rfl, rfl, .inr ⟨by simp, fun peerId hsome => ?_⟩⟩
      rw [hold] at hsome
      cases hsome
      exact Bool.eq_false_iff.mpr hdead
  · cases hs

section

variable (h : OneRunning s)
include h

theorem OneRunning.createSession (hs : s.createSession = some s') : OneRunning s' := by
  obtain ⟨hsame, happ, hway⟩ := createSession_spec hs
  constructor
  · intro peerId hrunning
    rw [happ]
    exact h.appSession peerId (hsame peerId ▸ hrunning)
  · intro hbusy peerId
    rcases hway with ⟨hidle, -⟩ | ⟨-, hdead⟩
    · exact absurd hidle hbusy
    · rw [hsame]
      by_contra hrunning
      have hrunning : running s peerId = true := by simpa using hrunning
      rw [hdead peerId (h.appSession peerId hrunning)] at hrunning
      cases hrunning

theorem OneRunning.closed (hs : s.closed = some s') : OneRunning s' := by
  unfold AppServer.State.closed at hs
  split at hs
  · rename_i old hclosing
    cases hs
    have hdead : ∀ peerId, running (s.endReader old) peerId = false := by
      intro peerId
      rw [(sameServers_endReader s old).running]
      exact h.replaced (by simp [hclosing]) peerId
    constructor
    · intro peerId hrunning
      cases (hdead peerId).symm.trans hrunning
    · exact fun _ => hdead
  · cases hs

/-- After a launch the new app-server runs, and no other. -/
theorem started_spec (hs : s.started peerId = some s') :
    s'.restart = .idle ∧ s'.appSession = some peerId ∧
      ∀ other, running s' other = decide (peerId = other) := by
  unfold AppServer.State.started at hs
  split at hs
  · cases hs
  · rename_i hguard
    simp only [ne_eq, not_or, not_not] at hguard
    cases hs
    refine ⟨rfl, rfl, fun other => ?_⟩
    have hput := running_put s.peers { peerId := peerId } other
    have hdead := h.replaced (by simp [hguard.1]) other
    by_cases heq : peerId = other
    · simp [running, heq]
    · simp only [heq, if_false] at hput
      simp only [heq, decide_false]
      exact hput.trans hdead

theorem OneRunning.started (hs : s.started peerId = some s') : OneRunning s' := by
  obtain ⟨hidle, happ, hrunning⟩ := started_spec h hs
  constructor
  · intro other hother
    rw [hrunning, decide_eq_true_eq] at hother
    rw [happ, hother]
  · exact fun hbusy => absurd hidle hbusy

theorem OneRunning.startFails (hs : s.startFails = some s') : OneRunning s' := by
  unfold AppServer.State.startFails at hs
  split at hs
  · cases hs
    exact ⟨h.appSession, fun hbusy => absurd rfl hbusy⟩
  · cases hs

theorem OneRunning.step
    (hs : s.step label = some s') : OneRunning s' := by
  cases label with
  | output peerId line => exact h.same (sameServers_output hs)
  | exit peerId => exact h.exit hs
  | dispatch => exact h.same (sameServers_dispatch hs)
  | createSession => exact h.createSession hs
  | closed => exact h.closed hs
  | started peerId => exact h.started hs
  | startFails => exact h.startFails hs
  | register turn => exact h.same (sameServers_register hs)
  | read streamId => exact h.same (sameServers_read hs)
  | answer streamId answer => exact h.same (sameServers_answer hs)
  | finalMessage | finalMessageFails | cancelTurn =>
    obtain ⟨turn, -, rfl⟩ := map_eq_some_iff.mp hs
    exact h.same (.of_eq rfl rfl rfl)
  | subscribe subscription => exact h.same (sameServers_subscribe hs)
  | nextThreadEvent sessionId => exact h.same (sameServers_nextThreadEvent hs)
  | unsubscribe sessionId =>
    obtain ⟨subscription, -, rfl⟩ := map_eq_some_iff.mp hs
    exact h.same (.of_eq rfl rfl rfl)

theorem aliveAppServer_of_running (hrunning : running s peerId = true) :
    aliveAppServer s = some peerId := by
  rw [aliveAppServer, h.appSession peerId hrunning, filter_some, if_pos hrunning]

end

end servers

/-! ## Runs on the app-server that is alive -/

variable {peerId : String}

variable {server : AppServer.State} {executionSessionId : String}

section starts

variable {n n' : NodeState} {command : DispatchRun}

/-- The sessions of the cache share an app-server. -/
structure Shared (n : NodeState) : Prop where
  server : OneRunning n.server
  sessions : ∀ executionSessionId session, n.liveSessions.lookup executionSessionId =
    some session → session.process = none ∧ ∃ peerId, session.client = some peerId

theorem shared_noSessions : Shared noSessions where
  server := oneRunning_empty
  sessions _ _ hlookup := by cases hlookup

theorem Shared.put (h : Shared n)
    (hserver : OneRunning server) (hn : n'.server = server)
    (hlive : n'.liveSessions =
      n.liveSessions.set executionSessionId (CodexSession.attachShared {} peerId)) :
    Shared n' where
  server := hn ▸ hserver
  sessions other session hlookup := by
    rw [hlive, Dict.lookup_set] at hlookup
    split at hlookup
    · cases hlookup
      exact ⟨rfl, peerId, rfl⟩
    · exact h.sessions other session hlookup

theorem Shared.erase (h : Shared n) (hserver : n'.server = n.server)
    (hlive : n'.liveSessions = n.liveSessions.erase executionSessionId) : Shared n' where
  server := hserver ▸ h.server
  sessions other session hlookup := by
    rw [hlive, Dict.lookup_erase] at hlookup
    split at hlookup
    · cases hlookup
    · exact h.sessions other session hlookup

theorem Shared.same (h : Shared n) (hserver : OneRunning n'.server)
    (hlive : n'.liveSessions = n.liveSessions) : Shared n' where
  server := hserver
  sessions := hlive ▸ h.sessions

/-- What a start adds to the law. -/
theorem allOnLiving_append {start : Start} (hstarts : n'.starts = n.starts ++ [start]) :
    AllOnLiving n' ↔ AllOnLiving n ∧ start.OnLiving := by
  simp only [AllOnLiving, hstarts, List.mem_append, List.mem_singleton, or_imp, forall_and,
    forall_eq]

/-- A session of an app-server that runs has the client of the one that is alive. -/
theorem onLiving_iff (command : DispatchRun) {session : CodexSession}
    (hserver : OneRunning n.server) (hclient : session.client = some peerId) (cached : Bool) :
    Start.OnLiving ⟨⟨command, session⟩, cached, aliveAppServer n.server,
        session.client.any (running n.server)⟩ ↔
      session.client.any (running n.server) = true := by
  simp only [Start.OnLiving, hclient, any_some]
  constructor
  · rintro ⟨⟨other, hother, halive⟩, -⟩
    cases hother
    exact (filter_eq_some_iff.mp halive).2
  · intro hrunning
    exact ⟨⟨peerId, rfl, aliveAppServer_of_running hserver hrunning⟩, fun _ => hrunning⟩

/-- A session made for the app-server `peerId` starts its run on the living one exactly if that
app-server runs. -/
theorem createSession_keeps (command : DispatchRun) (peerId : String)
    (h : Shared n) (hserver : OneRunning server) :
    Shared ({ n with server := server }.createSession command peerId) ∧
      (AllOnLiving ({ n with server := server }.createSession command peerId) ↔
        AllOnLiving n ∧ running server peerId = true) := by
  constructor
  · exact h.put hserver rfl rfl
  · let session := CodexSession.attachShared {} peerId
    have hclient : session.client = some peerId := rfl
    have hstart := onLiving_iff (n := { n with server := server }) command hserver hclient false
    exact (allOnLiving_append (n := n) rfl).trans (and_congr_right fun _ => hstart)

/-- A dispatch that needs an app session gets one that runs, or waits. -/
theorem ensureAppSession_keeps (command : DispatchRun) (h : Shared n) :
    Shared (n.ensureAppSession command) ∧
      (AllOnLiving (n.ensureAppSession command) ↔ AllOnLiving n) := by
  unfold NodeState.ensureAppSession
  split
  · exact ⟨h.same h.server rfl, Iff.rfl⟩
  · rename_i server hcreate
    have hserver := h.server.createSession hcreate
    split
    · rename_i peerId hidle hsome
      obtain ⟨hsame, happ, hway⟩ := createSession_spec hcreate
      have hrunning : running server peerId = true := by
        rcases hway with ⟨-, other, hother, hrunning⟩ | ⟨hbusy, -⟩
        · rw [happ, hother] at hsome
          cases hsome
          exact (hsame _).trans hrunning
        · exact absurd hidle hbusy
      obtain ⟨hshared, hliving⟩ := createSession_keeps command peerId h hserver
      exact ⟨hshared, hliving.trans (and_iff_left hrunning)⟩
    · exact ⟨h.same hserver rfl, Iff.rfl⟩

theorem dispatchRun_keeps (h : Shared n) (hs : n.dispatchRun command = some n') :
    Shared n' ∧ (AllOnLiving n' ↔
      AllOnLiving n ∧ n.servedByRunning (.dispatchRun command) = true) := by
  unfold NodeState.dispatchRun at hs
  split at hs
  · cases hs
  · simp only [NodeState.servedByRunning]
    cases hlookup : n.liveSessions.lookup command.executionSessionId with
    | none =>
      rw [hlookup] at hs
      cases hs
      obtain ⟨hshared, hliving⟩ := ensureAppSession_keeps command h
      exact ⟨hshared, hliving.trans (and_iff_left rfl).symm⟩
    | some session =>
      obtain ⟨hprocess, peerId, hclient⟩ := h.sessions _ _ hlookup
      have halive : session.isAlive n.server = true := by
        simp [CodexSession.isAlive, hprocess, hclient]
      rw [hlookup, filter_some, if_pos halive] at hs
      cases hs
      refine ⟨h.same h.server rfl, ?_⟩
      have hstart := onLiving_iff command h.server hclient true
      exact (allOnLiving_append (n := n) rfl).trans (and_congr_right fun _ => hstart)

theorem lockFree_keeps (h : Shared n) (hs : n.lockFree = some n') :
    Shared n' ∧ (AllOnLiving n' ↔ AllOnLiving n) := by
  unfold NodeState.lockFree at hs
  split at hs
  · cases hs
    exact ensureAppSession_keeps _ h
  · cases hs

theorem launched_keeps {exited : Bool} (h : Shared n) (hs : n.launched peerId exited = some n') :
    Shared n' ∧ (AllOnLiving n' ↔ AllOnLiving n ∧ (!exited) = true) := by
  unfold NodeState.launched at hs
  split at hs
  · obtain ⟨server, hstarted, hs⟩ := bind_eq_some_iff.mp hs
    obtain ⟨server', hexit, rfl⟩ := map_eq_some_iff.mp hs
    have hserver := h.server.started hstarted
    obtain ⟨-, -, hrunning⟩ := started_spec h.server hstarted
    cases exited with
    | false =>
      cases hexit
      obtain ⟨hshared, hliving⟩ := createSession_keeps _ peerId h hserver
      refine ⟨hshared, hliving.trans (and_congr_right fun _ => ?_)⟩
      simp [hrunning]
    | true =>
      obtain ⟨hshared, hliving⟩ := createSession_keeps _ peerId h
        (hserver.exit hexit)
      refine ⟨hshared, hliving.trans (and_congr_right fun _ => ?_)⟩
      simp [running_exit hexit]
  · cases hs

theorem serverStep_keeps (h : Shared n)
    (hs : n.serverStep label = some n') : Shared n' ∧ (AllOnLiving n' ↔ AllOnLiving n) := by
  unfold NodeState.serverStep at hs
  split at hs
  · cases hs
  · obtain ⟨server, hfails, rfl⟩ := map_eq_some_iff.mp hs
    exact ⟨h.same (h.server.startFails hfails) rfl, Iff.rfl⟩
  · obtain ⟨server, hstep, rfl⟩ := map_eq_some_iff.mp hs
    exact ⟨h.same (h.server.step hstep) rfl, Iff.rfl⟩

theorem runEnds_keeps {task : RunTask} (h : Shared n) (hs : n.runEnds task = some n') :
    Shared n' ∧ (AllOnLiving n' ↔ AllOnLiving n) := by
  unfold NodeState.runEnds at hs
  split at hs
  · cases hs
  · cases hs
    by_cases halive : task.session.isAlive n.server = true
    · exact ⟨h.same h.server (if_pos halive), Iff.rfl⟩
    · exact ⟨h.erase rfl (if_neg halive), Iff.rfl⟩

/-- One step starts its runs on the living app-server exactly if what it finds or launches
runs. -/
theorem step_keeps {label : NodeLabel} (h : Shared n) (hs : n.step label = some n') :
    Shared n' ∧ (AllOnLiving n' ↔ AllOnLiving n ∧ n.servedByRunning label = true) := by
  have hquiet : Shared n' ∧ (AllOnLiving n' ↔ AllOnLiving n) → n.servedByRunning label = true →
      Shared n' ∧ (AllOnLiving n' ↔ AllOnLiving n ∧ n.servedByRunning label = true) :=
    fun hkeeps hserved => ⟨hkeeps.1, hkeeps.2.trans (and_iff_left hserved).symm⟩
  cases label with
  | dispatchRun command => exact dispatchRun_keeps h hs
  | lockFree => exact hquiet (lockFree_keeps h hs) rfl
  | launched peerId exited => exact launched_keeps h hs
  | runEnds task => exact hquiet (runEnds_keeps h hs) rfl
  | releaseRun executionSessionId =>
    cases hs
    exact hquiet ⟨h.erase rfl rfl, Iff.rfl⟩ rfl
  | server label => exact hquiet (serverStep_keeps h hs) rfl

end starts

/-- Throughout a run every task is started on the app-server that is alive exactly if no
dispatch finds a session whose app-server has exited, and no app-server that a dispatch has
launched exits before the launch returns. -/
theorem runs_use_living_iff (labels : List NodeLabel) :
    nodeSystem.Always AllOnLiving noSessions labels ↔
      nodeSystem.Along (fun n label => n.servedByRunning label = true) noSessions labels := by
  have hstart : Shared noSessions ∧ AllOnLiving noSessions :=
    ⟨shared_noSessions, fun start hmem => by cases hmem⟩
  have hshared : nodeSystem.Always Shared noSessions labels :=
    (System.along_true noSessions labels).always hstart.1 fun n label n' h _ hs =>
      (step_keeps h hs).1
  have hboth : nodeSystem.Always (fun n => Shared n ∧ AllOnLiving n) noSessions labels ↔
      nodeSystem.Along (fun n label => n.servedByRunning label = true) noSessions labels := by
    refine System.always_iff_along (Q := fun _ _ => True) ?_ hstart (System.along_true _ _)
    intro n label n' h _ hs
    obtain ⟨hshared', hliving⟩ := step_keeps h.1 hs
    rw [and_iff_right hshared', hliving, and_iff_right h.2]
  rw [← hboth]
  constructor
  · exact fun h => hshared.and h
  · exact fun h => h.mono fun _ => And.right

/-- Between two runs of an execution session the app-server exits, and a thread list has it
started anew. -/
def staleRun : List NodeLabel :=
  [.dispatchRun ⟨"run-1", "execution-1"⟩, .launched "peer-1" false,
    .runEnds ⟨⟨"run-1", "execution-1"⟩, ⟨none, some "peer-1"⟩⟩,
    .server (.exit "peer-1"), .server .createSession, .server .closed,
    .server (.started "peer-2"), .dispatchRun ⟨"run-2", "execution-1"⟩]

/-- The second run has the client of the app-server that has exited. -/
theorem cached_session_outlives_server :
    ¬ ∀ labels, nodeSystem.Always AllOnLiving noSessions labels := by
  intro h
  have hrun : (nodeSystem.run noSessions staleRun).isSome = true := by decide
  have hlaw := (h staleRun).at_end (System.run_eq_target hrun)
  let stale : Start :=
    ⟨⟨⟨"run-2", "execution-1"⟩, ⟨none, some "peer-1"⟩⟩, true, some "peer-2", false⟩
  have hmem : stale ∈ (nodeSystem.target noSessions staleRun).starts := by decide
  have hliving := (hlaw stale hmem).2 rfl
  cases hliving

end Newbro.LiveSessions
