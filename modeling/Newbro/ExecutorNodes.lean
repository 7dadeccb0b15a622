import Newbro.Protocol

/-!
# Executor nodes

The connection table and the run table of `ExecutorNodeManager`. `_run_queues` and
`_run_states` are filled and emptied together, so they are one table here; the queue
object itself is kept with the coroutine that drains it. A websocket is known by a name.
-/
namespace Newbro.ExecutorNodes

open Library Protocol

/-- `NodeConnectionState`, as far as runs need it. -/
structure NodeConnection where
  nodeId : String
  websocket : String
  executors : List String
  deriving Repr, DecidableEq

structure RunDispatchState where
  runId : String
  executionSessionId : String
  executorType : String
  nodeId : Option String
  deriving Repr, DecidableEq

structure NodeManager where
  detachedExecutorTypes : List String
  connectionsByNode : Table NodeConnection.nodeId
  runStates : Table RunDispatchState.runId

namespace NodeManager

def nodeIdForWebsocket (m : NodeManager) (websocket : String) : Option String :=
  (m.connectionsByNode.entries.find? fun c => c.websocket = websocket).map NodeConnection.nodeId

/-- The websocket is the one of some connection in the table. -/
def isConnected (m : NodeManager) (websocket : String) : Bool :=
  (m.nodeIdForWebsocket websocket).isSome

def isDetachedExecutor (m : NodeManager) (executorType : String) : Bool :=
  executorType ∈ m.detachedExecutorTypes

def isExecutorConnected (m : NodeManager) (executorType : String) (nodeId : Option String) :
    Bool :=
  match nodeId with
  | some nodeId => (m.connectionsByNode.get? nodeId).any fun c => executorType ∈ c.executors
  | none => m.connectionsByNode.entries.any fun c => executorType ∈ c.executors

/-- `self.node_id`: the node, when exactly one is connected. -/
def onlyNodeId (m : NodeManager) : Option String :=
  match m.connectionsByNode.entries with
  | [c] => some c.nodeId
  | _ => none

structure Availability where
  connected : Bool
  nodeId : Option String
  availabilityReason : Option String
  deriving Repr, DecidableEq

def executorAvailability (m : NodeManager) (executorType : String) (nodeId : Option String) :
    Availability :=
  if !m.isDetachedExecutor executorType then ⟨true, none, none⟩
  else
    match nodeId with
    | none =>
      if m.connectionsByNode.entries.isEmpty then ⟨false, none, some "node_disconnected"⟩
      else if m.isExecutorConnected executorType none then
        ⟨true, (m.connectionsByNode.entries.find? fun c =>
          executorType ∈ c.executors).map NodeConnection.nodeId, none⟩
      else ⟨false, m.onlyNodeId, some "node_missing_executor"⟩
    | some nodeId =>
      match m.connectionsByNode.get? nodeId with
      | none => ⟨false, some nodeId, some "node_disconnected"⟩
      | some c =>
        if executorType ∈ c.executors then ⟨true, some nodeId, none⟩
        else ⟨false, some nodeId, some "node_missing_executor"⟩

/-- `register_connection`, once the credentials are verified: a node that is connected over
another websocket is refused. The endpoint registers a websocket once, so the branch for
a websocket that changes its node is never taken. -/
def registerConnection (m : NodeManager) (c : NodeConnection) : Option NodeManager :=
  let taken := (m.connectionsByNode.get? c.nodeId).any fun existing =>
    existing.websocket ≠ c.websocket
  if taken then none else some { m with connectionsByNode := m.connectionsByNode.put c }

/-- The first stretch of `disconnect`: forget the connection of a websocket. -/
def popConnection (m : NodeManager) (websocket : String) : Option (String × NodeManager) :=
  (m.nodeIdForWebsocket websocket).map fun nodeId =>
    (nodeId, { m with connectionsByNode := m.connectionsByNode.erase nodeId })

def fileRun (m : NodeManager) (state : RunDispatchState) : NodeManager :=
  { m with runStates := m.runStates.put state }

def finishRun (m : NodeManager) (runId : String) : NodeManager :=
  { m with runStates := m.runStates.erase runId }

/-- The runs that `_handle_node_disconnected` finds for a node. -/
def runsOfNode (m : NodeManager) (nodeId : String) : List String :=
  (m.runStates.entries.filter fun state => state.nodeId = some nodeId).map RunDispatchState.runId

/-- What becomes of a `run_event` message. -/
inductive RunEventVerdict where
  | accepted
  | unknownRun
  | unauthorizedRun
  deriving Repr, DecidableEq

/-- `publish_run_event` up to the registry call. -/
def judgeRunEvent (m : NodeManager) (websocket runId : String) : RunEventVerdict :=
  match m.runStates.get? runId with
  | none => .unknownRun
  | some state =>
    if state.nodeId ≠ m.nodeIdForWebsocket websocket then .unauthorizedRun else .accepted

end NodeManager

variable (state : RunDispatchState)

/-- The event by which the manager itself parks a run. -/
def waitingEvent (message : String) (nodeId : Option String)
    (reason : Option String) : ExecutorEvent :=
  { runId := state.runId
    sessionId := state.executionSessionId
    eventType := .waitingExecutor
    message := some message
    metadata :=
      Dict.set (Dict.set Table.empty "executor_node_id" ((nodeId.map Value.str).getD .null))
        "availability_reason" ((reason.map Value.str).getD .null) }

def unboundEvent : ExecutorEvent :=
  waitingEvent state "Waiting for this bro to be bound to an executor node." none
    (some "bro_unbound")

def disconnectedEvent (nodeId : String) (reason : Option String) :
    ExecutorEvent :=
  waitingEvent state ("Waiting for " ++ nodeId ++ " to connect.") (some nodeId) reason

def lostEvent (nodeId reason : String) : ExecutorEvent :=
  waitingEvent state ("Waiting for executor node '" ++ nodeId ++ "' to reconnect.")
    (some nodeId) (some reason)

/-! ## What the tables say -/

variable {m : NodeManager}

theorem nodeIdForWebsocket_spec {websocket nodeId : String}
    (h : m.nodeIdForWebsocket websocket = some nodeId) :
    ∃ c, m.connectionsByNode.get? nodeId = some c ∧ c.websocket = websocket := by
  obtain ⟨c, hfind, rfl⟩ := Option.map_eq_some_iff.mp h
  have hws : c.websocket = websocket := by simpa using List.find?_some hfind
  exact ⟨c, Table.get?_of_mem (List.mem_of_find?_eq_some hfind), hws⟩

theorem isConnected_iff {websocket : String} : m.isConnected websocket = true ↔
      ∃ c ∈ m.connectionsByNode.entries, c.websocket = websocket := by
  simp [NodeManager.isConnected, NodeManager.nodeIdForWebsocket, List.find?_isSome]

/-- On a node, an executor is available exactly if it is a detached one that the node's
connection offers, or not a detached one at all. -/
theorem executorAvailability_some (m : NodeManager) (executorType nodeId : String) :
    (m.executorAvailability executorType (some nodeId)).connected = true ↔
      (m.isDetachedExecutor executorType = true →
        m.isExecutorConnected executorType (some nodeId) = true) := by
  unfold NodeManager.executorAvailability NodeManager.isExecutorConnected
  by_cases hd : m.isDetachedExecutor executorType
  · cases hc : m.connectionsByNode.get? nodeId with
    | none => simp [hd, hc]
    | some c => by_cases he : executorType ∈ c.executors <;> simp [hd, hc, he]
  · simp [hd]

theorem registerConnection_cases {m' : NodeManager} {c : NodeConnection}
    (h : m.registerConnection c = some m') :
    (∀ existing, m.connectionsByNode.get? c.nodeId = some existing →
        existing.websocket = c.websocket) ∧
      m' = { m with connectionsByNode := m.connectionsByNode.put c } := by
  unfold NodeManager.registerConnection at h
  dsimp only at h
  split at h
  · cases h
  · rename_i htaken
    cases h
    refine ⟨fun existing hget => ?_, rfl⟩
    simpa [hget] using htaken

end Newbro.ExecutorNodes
