import Newbro.ExecutorNodes

/-!
# Registering a node

`register_connection` as a whole, with the registry that verifies the credentials, the branch
for a websocket that changes its node and `_handle_node_disconnected`. `ε` is what a node
tells about one of its executors. A queue that leaves `_run_queues` stays with the coroutine
of its run.
-/
namespace Newbro.NodeRegistration

open Library Protocol ExecutorNodes

variable {ε : Type}

/-- `StoredExecutorNodeRecord`, as far as it is read or written here. -/
structure NodeRecord where
  nodeId : String
  tokenHash : String
  lastConnectedAt : Option String := none
  lastSeenAt : Option String := none
  deriving Repr, DecidableEq

structure NodeConnectionState (ε : Type) where
  websocket : String
  nodeId : String
  connectedAt : String
  metadata : Metadata
  executors : Dict String ε

structure RunQueue where
  runId : String
  envelopes : List ExecutorEvent := []

structure RegisterNodeMessage (ε : Type) where
  nodeId : String
  token : String
  metadata : Metadata
  executors : List (String × ε)

structure AckMessage where
  messageType : String
  ok : Bool := true
  detail : Option String := none
  deriving Repr, DecidableEq

structure Manager (ε : Type) where
  records : Table NodeRecord.nodeId
  connectionsByNode : Table (NodeConnectionState.nodeId (ε := ε))
  runQueues : Table RunQueue.runId
  runStates : Table RunDispatchState.runId

namespace Manager

variable (hashToken : String → String)

def verifyCredentials (m : Manager ε) (nodeId token : String) :
    Option NodeRecord :=
  (m.records.get? nodeId).filter fun record => record.tokenHash = hashToken token

/-- `_node_id_for_websocket_locked` -/
def nodeIdForWebsocket (m : Manager ε) (websocket : String) : Option String :=
  (m.connectionsByNode.entries.find? fun state => state.websocket = websocket).map
    NodeConnectionState.nodeId

variable (m : Manager ε) (nodeId : String)

variable (timestamp : String)

def noteConnected : Manager ε :=
  match m.records.get? nodeId with
  | none => m
  | some record =>
    let record := { record with lastConnectedAt := some timestamp, lastSeenAt := some timestamp }
    { m with records := m.records.put record }

def noteSeen : Manager ε :=
  match m.records.get? nodeId with
  | none => m
  | some record =>
    let record := { record with lastSeenAt := some timestamp }
    { m with records := m.records.put record }

/-- A run of a lost node: its queue is told and leaves the table with its state. -/
def parkRun (reason : String) (m : Manager ε) (state : RunDispatchState) : Manager ε :=
  match m.runQueues.get? state.runId with
  | none => m
  | some queue =>
    let told := { queue with envelopes := queue.envelopes ++ [lostEvent state nodeId reason] }
    { m with
      runQueues := (m.runQueues.put told).erase state.runId
      runStates := m.runStates.erase state.runId }

def handleNodeDisconnected (reason timestamp : String) : Manager ε :=
  let m := m.noteSeen nodeId timestamp
  (m.runStates.entries.filter fun state => state.nodeId = some nodeId).foldl
    (parkRun nodeId reason) m

/-- The node that the websocket was registered for, if it is another one. -/
def displacedNodeId (m : Manager ε) (websocket nodeId : String) : Option String :=
  (m.nodeIdForWebsocket websocket).filter (· ≠ nodeId)

/-- The node is connected over another websocket. -/
def takenByOther (websocket nodeId : String) : Bool :=
  (m.connectionsByNode.get? nodeId).any fun state => state.websocket ≠ websocket

def popNode (nodeId : Option String) : Manager ε :=
  match nodeId with
  | none => m
  | some nodeId => { m with connectionsByNode := m.connectionsByNode.erase nodeId }

/-- The errors of `register_connection` are `ExecutorNodeAuthError`s. The displaced node leaves
the table before the requested one is looked up. -/
def registerConnection (m : Manager ε)
    (websocket : String) (register : RegisterNodeMessage ε) :
    Manager ε × Except String AckMessage :=
  match m.verifyCredentials hashToken register.nodeId register.token with
  | none => (m, .error "Invalid executor node credentials.")
  | some _ =>
    let displaced := m.displacedNodeId websocket register.nodeId
    let m := m.popNode displaced
    if m.takenByOther websocket register.nodeId then
      (m, .error ("Executor node '" ++ register.nodeId ++ "' is already connected."))
    else
      let state : NodeConnectionState ε :=
        { websocket := websocket
          nodeId := register.nodeId
          connectedAt := timestamp
          metadata := register.metadata
          executors := register.executors.foldl
            (fun executors executor => Dict.set executors executor.1 executor.2) Table.empty }
      let m := { m with connectionsByNode := m.connectionsByNode.put state }
      let m :=
        match displaced with
        | none => m
        | some nodeId => m.handleNodeDisconnected nodeId "re_registered" timestamp
      (m.noteConnected register.nodeId timestamp,
        .ok { messageType := "register_node", detail := some "registered" })

/-! ## What a refusal leaves -/

/-- The tables of connections, run queues and run states are as they were. -/
structure TablesKept (m m' : Manager ε) : Prop where
  connections : m'.connectionsByNode = m.connectionsByNode
  queues : m'.runQueues = m.runQueues
  states : m'.runStates = m.runStates

theorem TablesKept.refl : TablesKept m m := ⟨rfl, rfl, rfl⟩

variable {m : Manager ε} {websocket nodeId other : String}

theorem displacedNodeId_spec
    (h : m.displacedNodeId websocket nodeId = some other) :
    other ≠ nodeId ∧ ∃ state ∈ m.connectionsByNode.entries, state.nodeId = other := by
  obtain ⟨hfind, hne⟩ := Option.filter_eq_some_iff.mp h
  obtain ⟨state, hstate, hid⟩ := Option.map_eq_some_iff.mp hfind
  exact ⟨by simpa using hne, state, List.mem_of_find?_eq_some hstate, hid⟩

/-- The displaced node is not the requested one, so its leaving does not show in the test. -/
theorem takenByOther_popNode (m : Manager ε) (websocket nodeId : String) :
    (m.popNode (m.displacedNodeId websocket nodeId)).takenByOther websocket nodeId =
      m.takenByOther websocket nodeId := by
  cases h : m.displacedNodeId websocket nodeId with
  | none => rfl
  | some other =>
    have hne := (displacedNodeId_spec h).1
    simp only [popNode, takenByOther]
    rw [Table.get?_erase_of_ne _ hne]

theorem not_tablesKept_popNode
    (h : m.displacedNodeId websocket nodeId = some other) :
    ¬ TablesKept m (m.popNode (some other)) := by
  intro hkept
  obtain ⟨-, state, hmem, hid⟩ := displacedNodeId_spec h
  have hgone : state ∈ (m.connectionsByNode.erase other).entries := by
    rw [show m.connectionsByNode.erase other = m.connectionsByNode from hkept.connections]
    exact hmem
  exact (Table.mem_erase.mp hgone).2 hid

/-- How a call is refused: by its credentials, or after the displaced node has left. -/
theorem registerConnection_error_iff
    (m m' : Manager ε) (websocket : String) (register : RegisterNodeMessage ε) :
    (∃ error, m.registerConnection hashToken timestamp websocket register = (m', .error error)) ↔
      (m.verifyCredentials hashToken register.nodeId register.token = none ∧ m' = m) ∨
      ((m.verifyCredentials hashToken register.nodeId register.token).isSome = true ∧
        m.takenByOther websocket register.nodeId = true ∧
        m' = m.popNode (m.displacedNodeId websocket register.nodeId)) := by
  unfold registerConnection
  cases hverify : m.verifyCredentials hashToken register.nodeId register.token with
  | none => simp [eq_comm (a := m)]
  | some record =>
    simp only [takenByOther_popNode]
    by_cases htaken : m.takenByOther websocket register.nodeId = true
    · simp [htaken, eq_comm (b := m')]
    · simp [htaken]

/-- A refusal leaves the tables as they were exactly if it is not one that comes after another
node of the websocket has been popped. -/
theorem refusal_changes_nothing_iff (hashToken : String → String) (timestamp : String)
    (m : Manager ε) (websocket : String) (register : RegisterNodeMessage ε) : (∀ m' error,
      m.registerConnection hashToken timestamp websocket register = (m', .error error) →
        TablesKept m m') ↔
      (m.verifyCredentials hashToken register.nodeId register.token = none ∨
        m.displacedNodeId websocket register.nodeId = none ∨
        m.takenByOther websocket register.nodeId = false) := by
  constructor
  · intro hkept
    by_contra hnot
    simp only [not_or] at hnot
    obtain ⟨hverify, hdisplaced, htaken⟩ := hnot
    obtain ⟨other, hother⟩ := Option.ne_none_iff_exists'.mp hdisplaced
    have hpopped := (registerConnection_error_iff hashToken timestamp m
      (m.popNode (some other)) websocket register).mpr
      (Or.inr ⟨Option.isSome_iff_ne_none.mpr hverify, by simpa using htaken, by rw [hother]⟩)
    obtain ⟨error, herror⟩ := hpopped
    exact not_tablesKept_popNode hother (hkept _ error herror)
  · intro hcond m' error herror
    have hway := (registerConnection_error_iff hashToken timestamp m m' websocket register).mp
      ⟨error, herror⟩
    rcases hway with ⟨-, rfl⟩ | ⟨hverify, htaken, rfl⟩
    · exact TablesKept.refl m'
    · rcases hcond with hnone | hnone | hfree
      · rw [hnone] at hverify
        cases hverify
      · rw [hnone]
        exact TablesKept.refl m
      · rw [hfree] at htaken
        cases htaken

end Manager

/-! ## A websocket that asks for the node of another -/

def exampleConnection (nodeId websocket : String) : NodeConnectionState Unit :=
  { websocket := websocket
    nodeId := nodeId
    connectedAt := "t0"
    metadata := Table.empty
    executors := Table.empty }

/-- Two nodes, each connected over its own websocket. -/
def exampleManager : Manager Unit where
  records := ((Table.empty.put ⟨"node-1", "secret-1", none, none⟩).put
    ⟨"node-2", "secret-2", none, none⟩)
  connectionsByNode := (Table.empty.put (exampleConnection "node-1" "ws-1")).put
    (exampleConnection "node-2" "ws-2")
  runQueues := Table.empty.put ⟨"run-1", []⟩
  runStates := Table.empty.put ⟨"run-1", "session-1", "codex", some "node-1"⟩

def exampleRegister : RegisterNodeMessage Unit := ⟨"node-2", "secret-2", Table.empty, []⟩

/-- The first websocket is refused the second node and has lost its own. -/
theorem refused_websocket_loses_node : ¬ ∀ (m m' : Manager Unit) websocket register error,
      m.registerConnection id "t1" websocket register = (m', .error error) →
        m.TablesKept m' := by
  intro h
  have hrefused : exampleManager.registerConnection id "t1" "ws-1" exampleRegister =
      (exampleManager.popNode (some "node-1"),
        .error "Executor node 'node-2' is already connected.") := rfl
  have hkept := h _ _ _ _ _ hrefused
  have hlength := congrArg (fun t => t.entries.length) hkept.connections
  revert hlength
  decide

end Newbro.NodeRegistration
