import Newbro.Rosters

/-!
# Bros and their computers

The requests that bind the personas of users to executor nodes, and that create and delete
nodes: `api/routes/personas.py`, `api/routes/executor_nodes.py` and
`bound_persona_names_for_node`. A request can be interrupted at each of its awaits; the loops
over the boards of the sessions do not suspend. Personas and owners are in a database, nodes in
a file, and a restart keeps both. Credentials are left out.
-/
namespace Newbro.NodeBindings

open Library Protocol
open SessionCommands (Config)
open Rosters (Stored PersonaUpdate Change updatesOf)

/-- `StoredExecutorNodeRecord` -/
structure NodeRecord where
  nodeId : String
  name : String
  enabledExecutors : List String
  acpxAgent : Option String
  lastConnectedAt : Option String
  deriving Repr, DecidableEq

abbrev Registry := Table NodeRecord.nodeId

def normalizeExecutorList (values : List String) : List String :=
  ((values.map Text.strip).filter (· ≠ "")).foldl
    (fun seen value => if seen.contains value then seen else seen ++ [value]) []

/-- `ExecutorNodeRegistry.create_node`; an id that is in use already is overwritten. -/
def createNode (registry : Registry) (nodeId name : String) (enabledExecutors : List String)
    (acpxAgent : Option String) : Except String Registry :=
  let executors := normalizeExecutorList enabledExecutors
  let agent := Text.stripped? acpxAgent
  if Text.strip name = "" then .error "Executor node name is required."
  else if executors = [] then .error "Executor node must enable exactly one executor family."
  else if 1 < executors.length then
    .error "Executor node must choose exactly one executor family."
  else
    .ok (registry.put
      { nodeId := nodeId
        name := Text.strip name
        enabledExecutors := executors
        acpxAgent := if executors.contains "acpx" then some (agent.getD "codex") else agent
        lastConnectedAt := none })

/-! ## Requests -/

/-- What a request comes to next, where it awaits something before it changes personas. -/
inductive Check where
  /-- `user_owns_executor_node` of `create_persona` and `update_persona` -/
  | nodeOwned (nodeId : String) (change : Change)
  /-- `_require_connected_once_node` -/
  | nodeConnected (nodeId : String) (change : Change)
  /-- `claim_executor_node` -/
  | claim (nodeId : String)
  /-- `user_owns_executor_node` of `delete_executor_node` -/
  | deletable (nodeId : String)
  /-- `bound_persona_names_for_node` -/
  | unbound (nodeId : String)
  /-- The websocket of the node is closed. -/
  | closeNode (nodeId : String)
  /-- `ExecutorNodeRegistry.delete_node` -/
  | eraseNode (nodeId : String)

structure Pending where
  requestId : String
  user : String
  sessionId : String
  check : Check

/-- The personas with the sessions and the requests that change and sync them (`roster`), the
table `executor_node_owners`, the registry, the nodes that are connected, and the requests that
still have something to check. -/
structure Server where
  roster : Rosters.Server
  nodeOwners : Dict String String
  registry : Registry
  connected : List String
  pending : Table Pending.requestId

inductive Label where
  | createPersona (requestId user sessionId : String) (record : Persona)
  | updatePersona (requestId user sessionId personaId : String) (body : PersonaUpdate)
      (freshDetailId : String)
  | createNode (requestId user sessionId nodeId name : String) (enabledExecutors : List String)
      (acpxAgent : Option String)
  | deleteNode (requestId user sessionId nodeId : String)
  | advance (requestId : String)
  | connect (nodeId timestamp : String)
  | disconnect (nodeId : String)
  /-- The other requests about personas, the steps that follow the checks, and what the sessions
  do by themselves. -/
  | roster (label : Rosters.Label)
  | restart

variable (s : Server) (requestId user sessionId : String)

/-- The request is made by the owner of its session, and is a new one. -/
def Server.admits : Bool :=
  !s.pending.contains requestId && !s.roster.requests.contains requestId &&
    s.roster.owners.lookup sessionId = some user

def begin (check : Check) : Option Server :=
  if s.admits requestId user sessionId then
    some { s with pending := s.pending.put ⟨requestId, user, sessionId, check⟩ }
  else none

/-- The checks of a request are done, and it goes on to its change. -/
def beginChange (change : Change) :
    Option Server :=
  if s.admits requestId user sessionId then
    some { s with roster := { s.roster with
      requests := s.roster.requests.put ⟨requestId, user, sessionId, .change change⟩ } }
  else none

/-- A change that binds a persona to a node awaits two checks. -/
def beginBinding (nodeId : Option String)
    (change : Change) : Option Server :=
  match nodeId with
  | none => beginChange s requestId user sessionId change
  | some nodeId => begin s requestId user sessionId (.nodeOwned nodeId change)

def createPersona (record : Persona) :
    Option Server :=
  if Text.strip record.name = "" then none
  else beginBinding s requestId user sessionId record.executorNodeId (.create record)

def updatePersona (personaId : String)
    (body : PersonaUpdate) (freshDetailId : String) : Option Server :=
  if body = {} ∨ body.name.map Text.strip = some "" then none
  else ((s.roster.storedOf user).get? personaId).bind fun listed =>
    beginBinding s requestId user sessionId (body.executorNodeId.bind id)
      (.update personaId (updatesOf body listed freshDetailId))

variable (nodeId : String)

/-- `create_executor_node`, up to the claim of the node for its user. -/
def createExecutorNode (name : String)
    (enabledExecutors : List String) (acpxAgent : Option String) : Option Server :=
  match createNode s.registry nodeId name enabledExecutors acpxAgent with
  | .error _ => none
  | .ok registry =>
    (begin s requestId user sessionId (.claim nodeId)).map fun s => { s with registry := registry }

/-- `delete_executor_node`, up to its first check. -/
def deleteExecutorNode :
    Option Server :=
  begin s requestId user sessionId (.deletable nodeId)

/-- `bound_persona_names_for_node` finds a persona on the board of a live session. -/
def Server.boundOnBoards : Bool :=
  s.roster.sessions.entries.any fun session =>
    session.state.board.personas.entries.any fun persona => persona.executorNodeId = some nodeId

def Server.owns : Bool :=
  s.nodeOwners.lookup nodeId = some user

/-- The node is in the registry, and has been connected once. -/
def Server.connectedOnce : Bool :=
  (s.registry.get? nodeId).any fun record => record.lastConnectedAt.isSome

/-- The request is answered. -/
def Server.done : Server :=
  { s with pending := s.pending.erase requestId }

/-- The request comes to its next check. -/
def Server.goOn (request : Pending) (check : Check) : Server :=
  { s with pending := s.pending.put { request with check := check } }

/-- `INSERT OR IGNORE` into `executor_node_owners` -/
def claimNode (owners : Dict String String) (user nodeId : String) : Dict String String :=
  if (owners.lookup nodeId).isSome then owners else owners.set nodeId user

/-- A request does what it awaited, and goes on to its next await or is answered. -/
def advance (request : Pending) : Server :=
  let user := request.user
  let refused := s.done request.requestId
  match request.check with
  | .nodeOwned nodeId change =>
    if s.owns user nodeId then s.goOn request (.nodeConnected nodeId change) else refused
  | .nodeConnected nodeId change =>
    if s.connectedOnce nodeId then
      { refused with roster := { s.roster with
        requests := s.roster.requests.put
          ⟨request.requestId, user, request.sessionId, .change change⟩ } }
    else refused
  | .claim nodeId => { refused with nodeOwners := claimNode s.nodeOwners user nodeId }
  | .deletable nodeId => if s.owns user nodeId then s.goOn request (.unbound nodeId) else refused
  | .unbound nodeId =>
    if s.boundOnBoards nodeId then refused else s.goOn request (.closeNode nodeId)
  | .closeNode nodeId =>
    { s.goOn request (.eraseNode nodeId) with connected := s.connected.erase nodeId }
  | .eraseNode nodeId => { refused with registry := s.registry.erase nodeId }

/-- `note_connected` -/
def connect (timestamp : String) : Option Server :=
  (s.registry.get? nodeId).map fun record =>
    { s with
      registry := s.registry.put { record with lastConnectedAt := some timestamp }
      connected := nodeId :: s.connected.erase nodeId }

variable (cfg : Config)

/-- A label of the roster that is left to it, and the new request that it begins. -/
def rosterStep (s : Server) (label : Rosters.Label) :
    Option Server :=
  let proceed := (Rosters.step cfg s.roster label).map fun roster => { s with roster := roster }
  match label with
  | .create _ _ _ _ => none
  | .update _ _ _ _ _ _ => none
  | .createSession requestId _ _ _ => if s.pending.contains requestId then none else proceed
  | .list requestId _ _ => if s.pending.contains requestId then none else proceed
  | .delete requestId _ _ _ => if s.pending.contains requestId then none else proceed
  | _ => proceed

/-- The server starts again: sessions, requests and connections are gone. -/
def restart : Server :=
  { s with
    roster := { s.roster with sessions := Table.empty, requests := Table.empty }
    connected := []
    pending := Table.empty }

def step (s : Server) : Label → Option Server
  | .createPersona requestId user sessionId record =>
    createPersona s requestId user sessionId record
  | .updatePersona requestId user sessionId personaId body freshDetailId =>
    updatePersona s requestId user sessionId personaId body freshDetailId
  | .createNode requestId user sessionId nodeId name enabledExecutors acpxAgent =>
    createExecutorNode s requestId user sessionId nodeId name enabledExecutors acpxAgent
  | .deleteNode requestId user sessionId nodeId =>
    deleteExecutorNode s requestId user sessionId nodeId
  | .advance requestId => (s.pending.get? requestId).map (advance s)
  | .connect nodeId timestamp => connect s nodeId timestamp
  | .disconnect nodeId => some { s with connected := s.connected.erase nodeId }
  | .roster label => rosterStep cfg s label
  | .restart => some (restart s)

/-! ## Bound nodes -/

/-- The node of every stored persona is in the registry. -/
def Registered : Prop :=
  ∀ row ∈ s.roster.stored.entries, ∀ persona ∈ row.personas.entries, ∀ nodeId,
    persona.executorNodeId = some nodeId → s.registry.contains nodeId = true

/-- The node of every stored persona is owned by the persona's user. -/
def Owned : Prop :=
  ∀ row ∈ s.roster.stored.entries, ∀ persona ∈ row.personas.entries, ∀ nodeId,
    persona.executorNodeId = some nodeId → s.nodeOwners.lookup nodeId = some row.userId

/-- The node of every stored persona exists, and is one of its user. -/
def NodesExist : Prop := Registered s ∧ Owned s

/-- A server starts without sessions and requests. What is in the database and in the file is
from before, with the nodes that the personas name. -/
def system : System Server Label where
  initial s := s.roster.sessions = Table.empty ∧ s.roster.requests = Table.empty ∧
    s.connected = [] ∧ s.pending = Table.empty ∧ NodesExist s
  step := step cfg

end Newbro.NodeBindings
