import Newbro.NodeOwnership

/-!
# What a user sees

The snapshot of a session and its bro list, as they are delivered to the user of the
session, and two runs of the server that differ only in what other users do. In both runs
the user and her nodes act alike; an action that is refused leaves the server as it is.
-/
namespace Newbro.Users

open Library Protocol OutboundTurns ExecutorNodes
  Snapshots NodeRequests SessionRuntime

universe u

/-! ## Snapshots and bro lists -/

/-- `SessionSnapshot` with what it takes from the node manager. -/
structure UserSnapshot (α : Type u) where
  session : Snapshot α
  executorCapabilities : List (ExecutorCapabilities × NodeManager.Availability)
  executorNodes : List String

def executorCapabilitiesSnapshot (cfg : Config) (s : Server) :
    List (ExecutorCapabilities × NodeManager.Availability) :=
  cfg.snapshots.session.registry.entries.map fun capability =>
    (capability, (s.manager cfg).executorAvailability capability.executorType none)

def userSnapshot {α : Type u} (project : ProjectionInput → α) (cfg : Config) (s : Server)
    (session : UserSession) : UserSnapshot α where
  session := snapshot project session.state
  executorCapabilities := executorCapabilitiesSnapshot cfg s
  executorNodes := []

/-- `owned_executor_node_ids` -/
def Server.ownsNode (s : Server) (user nodeId : String) : Bool := s.nodeOwner nodeId = some user

/-- `scope_session_snapshot_for_user` -/
def scopeSnapshot {α : Type u} (s : Server) (user : String) (snapshot : UserSnapshot α) :
    UserSnapshot α :=
  { snapshot with executorNodes := snapshot.executorNodes.filter (s.ownsNode user) }

/-- `BroExecutorNodeSummary`; of the connection, whether it offers Codex. -/
structure BroExecutorNodeSummary where
  nodeId : String
  name : String
  connected : Bool
  enabledExecutors : List String
  codex : Bool
  deriving Repr, DecidableEq

structure BroSummary where
  personaId : String
  name : String
  avatar : String
  status : PersonaStatus
  executorNode : Option BroExecutorNodeSummary
  deriving Repr, DecidableEq

/-- The record of a node that `list_nodes` has, with its connection. -/
def nodeSummary (s : Server) (nodeId : String) : Option BroExecutorNodeSummary :=
  ((s.nodes.get? nodeId).filter NodeRecord.registered).map fun node =>
    { nodeId := node.nodeId
      name := node.name
      connected := s.connections.contains nodeId
      enabledExecutors := node.enabledExecutors
      codex := (s.connections.get? nodeId).any fun connection =>
        connection.executors.contains "codex" }

/-- `bro_list` with the nodes of the user allowed. -/
def broList (s : Server) (user : String) (b : Blackboard) : List BroSummary :=
  b.personas.entries.map fun persona =>
    { personaId := persona.personaId
      name := persona.name
      avatar := persona.avatar
      status := persona.status
      executorNode :=
        ((personaNode persona).filter (s.ownsNode user)).bind (nodeSummary s) }

structure UserView (α : Type u) where
  snapshot : UserSnapshot α
  bros : List BroSummary

/-- What is delivered for a session, if it is one of the user. -/
def userView {α : Type u} (project : ProjectionInput → α) (cfg : Config) (s : Server)
    (user sessionId : String) : Option (UserView α) :=
  (s.sessionOf user sessionId).map fun session =>
    ⟨scopeSnapshot s user (userSnapshot project cfg s session), broList s user session.board⟩

/-! ## Two runs -/

/-- A label that is not enabled is refused. -/
def attempt (cfg : Config) (s : Server) (label : Label) : Server := (step cfg s label).getD s

/-- Ids are generated: what an action creates is new, and a persona of the user is known to
no session of anyone else. -/
def issues (s : Server) (user : String) : Action → Bool
  | .createSession sessionId => !s.sessions.contains sessionId
  | .createNode nodeId _ _ => !s.nodes.contains nodeId
  | .refreshThreads requestId _ _ _ => !s.pending.contains requestId
  | .readPersonas requestId _ => !s.listings.contains requestId
  | .request requestId _ _ => !s.pending.contains requestId
  | .deletePersona personaId => s.sessions.entries.all fun session =>
    session.owner = user || !session.board.personas.contains personaId
  | _ => true

/-- What happens in two runs: the user acts in both, others act in one of them. -/
inductive ViewLabel where
  | own (action : Action)
  | left (label : Label)
  | right (label : Label)

/-- Two runs that differ in what other users do. -/
def runs (cfg : Config) (user : String) : System (Server × Server) ViewLabel where
  initial s := s = (initialServer, initialServer)
  step s label :=
    match label with
    | .own action =>
      if issues s.1 user action && issues s.2 user action then
        some (attempt cfg s.1 ⟨user, action⟩, attempt cfg s.2 ⟨user, action⟩)
      else none
    | .left other => if other.user = user then none else some (attempt cfg s.1 other, s.2)
    | .right other => if other.user = user then none else some (s.1, attempt cfg s.2 other)

/-- The user sees the same in both runs. -/
def SameViews {α : Type u} (project : ProjectionInput → α) (cfg : Config) (user : String)
    (s : Server × Server) : Prop :=
  ∀ sessionId, userView project cfg s.1 user sessionId = userView project cfg s.2 user sessionId

/-! ## Where other users show -/

/-- The nodes of the user that are connected. -/
def ownConnections (s : Server) (user : String) : Table NodeConnection.nodeId :=
  s.connections.restrict (s.ownsNode user)

/-- Which connected nodes offer an executor is settled by the nodes of the user: the first
one that offers it is hers; where none does, only hers are connected, or several of hers. -/
def ownNodesDecide (s : Server) (user executorType : String) : Bool :=
  match s.connections.entries.find? fun connection => executorType ∈ connection.executors with
  | some connection => s.ownsNode user connection.nodeId
  | none => (s.connections.entries.all fun connection => s.ownsNode user connection.nodeId) ||
      2 ≤ (ownConnections s user).entries.length

/-- What the node manager would say if only the nodes of the user were connected. -/
def ownManager (cfg : Config) (s : Server) (user : String) : NodeManager :=
  ⟨cfg.detachedExecutorTypes, ownConnections s user, Table.empty⟩

/-- So it is with every executor that runs on nodes, in both runs. -/
def OwnNodesDecide (cfg : Config) (user : String) (s : Server × Server) : Prop :=
  ∀ executorType ∈ cfg.detachedExecutorTypes,
    ownNodesDecide s.1 user executorType = true ∧ ownNodesDecide s.2 user executorType = true

/-- Nothing that is imported changes when the nodes have listed their threads. -/
def listsWhatIsThere (session : UserSession) (replaces : Bool)
    (listed : List (Persona × CodexThreadItem)) : Prop :=
  let before : ImportedThreads :=
    if replaces then ⟨Table.empty, Table.empty⟩ else session.state.imported
  importListed before listed = session.state.imported

/-- What another user does leaves the sessions of the user alone: the scan finds no task to
queue, a sync of threads finds a persona to list them for (or nothing imported), and the
nodes list what is imported already. -/
def leavesAlone (cfg : Config) (user : String) (s : Server) (label : Label) : Prop :=
  match label.action with
  | .requeueScan _ sessionId => ∀ session ∈ s.sessionOf user sessionId,
      ∀ task ∈ session.board.tasks.entries, requeueable (isAvailable cfg s) task = false
  | .refreshThreads _ _ sessionId listing => ∀ session ∈ s.sessionOf user sessionId,
      eligiblePersonas (s.manager cfg) session.board listing ≠ [] ∨
        session.state.imported = ⟨Table.empty, Table.empty⟩
  | .threadsListed requestId listed => ∀ pending ∈ s.pending.get? requestId,
      ∀ session ∈ s.sessionOf user pending.sessionId,
        listsWhatIsThere session pending.replaces listed
  | _ => True

/-- Others leave the user's sessions alone in either run. -/
def LeavesAlone (cfg : Config) (user : String) (s : Server × Server) : ViewLabel → Prop
  | .own _ => True
  | .left other => leavesAlone cfg user s.1 other
  | .right other => leavesAlone cfg user s.2 other

/-! ## The answer of the node manager -/

section

variable {cfg : Config} {s : Server} {user executorType : String}

/-- Without a node the answer is the first one that offers the executor, or else the only
one. -/
theorem executorAvailability_none {m : NodeManager} (hd : m.isDetachedExecutor executorType = true) :
    m.executorAvailability executorType none =
      match m.connectionsByNode.entries.find? fun c => executorType ∈ c.executors with
      | some connection => ⟨true, some connection.nodeId, none⟩
      | none =>
        if m.connectionsByNode.entries.isEmpty then ⟨false, none, some "node_disconnected"⟩
        else ⟨false, m.onlyNodeId, some "node_missing_executor"⟩ := by
  unfold NodeManager.executorAvailability NodeManager.isExecutorConnected
  rw [if_neg (by simp [hd])]
  cases hfind : m.connectionsByNode.entries.find? fun c => decide (executorType ∈ c.executors) with
  | none =>
    have hany : (m.connectionsByNode.entries.any fun c => decide (executorType ∈ c.executors)) =
        false := by simpa using hfind
    simp [hany]
  | some connection =>
    have hmem := List.mem_of_find?_eq_some hfind
    have hoffers := List.find?_some hfind
    have hany : (m.connectionsByNode.entries.any fun c => decide (executorType ∈ c.executors)) =
        true := List.any_eq_true.mpr ⟨connection, hmem, hoffers⟩
    have hne : m.connectionsByNode.entries.isEmpty = false := by
      rw [List.isEmpty_eq_false_iff]
      exact List.ne_nil_of_mem hmem
    simp [hany, hne]

theorem onlyNodeId_of_two {m : NodeManager} (h : 2 ≤ m.connectionsByNode.entries.length) :
    m.onlyNodeId = none := by
  unfold NodeManager.onlyNodeId
  split
  · rename_i connection hentries
    rw [hentries, List.length_singleton] at h
    omega
  · rfl

theorem ownConnections_of_all
    (hall : (s.connections.entries.all fun connection => s.ownsNode user connection.nodeId) = true) :
    ownConnections s user = s.connections :=
  Table.ext (List.filter_eq_self.mpr fun connection hmem => List.all_eq_true.mp hall connection hmem)

/-- Where the nodes of the user decide, the others might as well not be connected. -/
theorem availability_own (hd : executorType ∈ cfg.detachedExecutorTypes)
    (h : ownNodesDecide s user executorType = true) :
    (s.manager cfg).executorAvailability executorType none =
      (ownManager cfg s user).executorAvailability executorType none := by
  have hdetached : decide (executorType ∈ cfg.detachedExecutorTypes) = true := decide_eq_true hd
  rw [executorAvailability_none (m := s.manager cfg) hdetached,
    executorAvailability_none (m := ownManager cfg s user) hdetached]
  unfold ownNodesDecide at h
  cases hfind : s.connections.entries.find? fun c => decide (executorType ∈ c.executors) with
  | some connection =>
    rw [hfind] at h
    have hown : (ownConnections s user).entries.find?
        (fun c => decide (executorType ∈ c.executors)) = some connection :=
      find?_filter_of_find? hfind h
    simp only [Server.manager, ownManager, hfind, hown]
  | none =>
    rw [hfind, Bool.or_eq_true, decide_eq_true_eq] at h
    rcases h with hall | htwo
    · have hmanager : ownManager cfg s user = s.manager cfg := by
        rw [ownManager, ownConnections_of_all hall, Server.manager]
      rw [hmanager]
    · have hown : (ownConnections s user).entries.find?
          (fun c => decide (executorType ∈ c.executors)) = none := by
        rw [List.find?_eq_none] at hfind ⊢
        exact fun other hmem => hfind other (List.mem_of_mem_filter hmem)
      have hlength : (ownConnections s user).entries.length ≤ s.connections.entries.length :=
        List.length_filter_le ..
      have hempty : ∀ entries : List NodeConnection, 2 ≤ entries.length →
          entries.isEmpty = false := by
        intro entries hentries
        cases entries with
        | nil => exact absurd hentries (by decide)
        | cons connection rest => rfl
      have honly := onlyNodeId_of_two (m := s.manager cfg) (htwo.trans hlength)
      have honly' := onlyNodeId_of_two (m := ownManager cfg s user) htwo
      rw [honly, honly']
      simp only [Server.manager, ownManager, hfind, hown, hempty _ (htwo.trans hlength),
        hempty _ htwo]

end

end Newbro.Users
