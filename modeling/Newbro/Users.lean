import Newbro.NodeRequests

/-!
# Several users on one server

The sessions, personas and executor nodes of several users, who share one node manager.
Every action is taken for a user, after the check that the API makes: a request names a
session of the user, a node connects with the credentials of its owner. What the server
does because a node has connected is an action of the owner of that node, whichever
session it reaches. Ids are fresh.
-/
namespace Newbro.Users

open Library Protocol OutboundTurns ExecutorNodes
  Snapshots NodeRequests

structure Config where
  snapshots : Snapshots.Config
  detachedExecutorTypes : List String

/-- The record of a node in the registry, with its row of `executor_node_owners`, which
stays when the node is deleted. -/
structure NodeRecord where
  nodeId : String
  owner : String
  name : String
  enabledExecutors : List String
  registered : Bool
  deriving Repr, DecidableEq

structure UserPersonas where
  userId : String
  personas : Table Persona.personaId

/-- Personas read for a session and not synced yet. -/
structure PersonaListing where
  requestId : String
  user : String
  sessionId : String
  personas : Table Persona.personaId

/-- A command under way: the nodes it is for are known, and it waits to be sent or
answered. Its user is the one whose action it belongs to. -/
structure PendingCommand where
  requestId : String
  user : String
  sessionId : String
  command : NodeCommand
  nodeIds : List String
  personas : List Persona
  replaces : Bool

/-- A command that was sent on behalf of a session, and the node recorded for it. -/
structure SentCommand where
  sessionId : String
  command : NodeCommand
  recorded : Option String
  nodeId : String
  deriving Repr, DecidableEq

structure Server where
  nodes : Table NodeRecord.nodeId
  personas : Table UserPersonas.userId
  connections : Table NodeConnection.nodeId
  sessions : Table UserSession.sessionId
  listings : Table PersonaListing.requestId
  pending : Table PendingCommand.requestId
  sent : List SentCommand

variable (cfg : Config) (s : Server)

/-- The node manager that all sessions share; its run table is kept with the sessions. -/
def Server.manager : NodeManager :=
  ⟨cfg.detachedExecutorTypes, s.connections, Table.empty⟩

variable (nodeId : String)

def Server.nodeOwner : Option String :=
  (s.nodes.get? nodeId).map NodeRecord.owner

variable (user sessionId : String)

/-- The session, if it is one of the user: `require_session_owner`. -/
def Server.sessionOf : Option UserSession :=
  (s.sessions.get? sessionId).filter fun session => session.owner = user

/-- The registered node, if it is one of the user: `user_owns_executor_node`. -/
def Server.nodeOf (nodeId : String) : Option NodeRecord :=
  (s.nodes.get? nodeId).filter fun node => node.owner = user && node.registered

def Server.personasOf : Table Persona.personaId :=
  ((s.personas.get? user).map UserPersonas.personas).getD Table.empty

def Server.putPersonas (personas : Table Persona.personaId) :
    Server :=
  { s with personas := s.personas.put ⟨user, personas⟩ }

def Server.putSession (session : UserSession) : Server :=
  { s with sessions := s.sessions.put session }

inductive Action where
  | createSession (sessionId : String)
  | createNode (nodeId name : String) (enabledExecutors : List String)
  | updateNode (nodeId name : String) (enabledExecutors : List String)
  | deleteNode (nodeId : String)
  | register (connection : NodeConnection)
  | disconnect (nodeId : String)
  | requeueScan (nodeId sessionId : String)
  | refreshThreads (requestId nodeId sessionId : String) (listing : List String)
  | putPersona (persona : Persona)
  | deletePersona (personaId : String)
  | readPersonas (requestId sessionId : String)
  | syncPersonas (requestId : String)
  | session (sessionId : String) (label : Snapshots.Label)
  | attachThread (sessionId outboundRequestId threadId executorThreadId : String)
  | request (requestId sessionId : String) (request : Request)
  | send (requestId nodeId : String)
  | threadsListed (requestId : String) (listed : List (Persona × CodexThreadItem))
  | finish (requestId : String)
  | download (sessionId threadId : String) (thread : Option ProjectedThread)

structure Label where
  user : String
  action : Action

/-! ## Sessions, nodes and personas -/

def createSession : Option Server :=
  if s.sessions.contains sessionId then none
  else some (s.putSession (newSession sessionId user))

def createNode (nodeId name : String) (enabledExecutors : List String) :
    Option Server :=
  if s.nodes.contains nodeId || nodeId = "" then none
  else some { s with nodes := s.nodes.put ⟨nodeId, user, name, enabledExecutors, true⟩ }

def updateNode (nodeId name : String) (enabledExecutors : List String) :
    Option Server :=
  (s.nodeOf user nodeId).map fun node =>
    { s with nodes := s.nodes.put { node with name := name, enabledExecutors := enabledExecutors } }

/-- `bound_persona_names_for_node` looks at every session. -/
def boundToNode : Bool :=
  s.sessions.entries.any fun session =>
    session.board.personas.entries.any fun persona => persona.executorNodeId = some nodeId

/-- A node that is bound to a bro is not deleted; its connection ends by `disconnect`. -/
def deleteNode (nodeId : String) : Option Server :=
  (s.nodeOf user nodeId).bind fun node =>
    if boundToNode s nodeId then none
    else some { s with nodes := s.nodes.put { node with registered := false } }

/-- A node registers with the credentials of its owner. -/
def register (connection : NodeConnection) :
    Option Server :=
  (s.nodeOf user connection.nodeId).bind fun _ =>
    ((s.manager cfg).registerConnection connection).map fun manager =>
      { s with connections := manager.connectionsByNode }

def disconnect (nodeId : String) : Option Server :=
  if s.nodeOwner nodeId = some user then
    some { s with connections := s.connections.erase nodeId }
  else none

/-- What `executor_availability` says to the scan for waiting tasks. -/
def isAvailable (executorType : String) (nodeId : Option String) :
    Bool := ((s.manager cfg).executorAvailability executorType nodeId).connected

/-- `handle_executor_node_connected`: the scan reaches a session, whoever owns it. -/
def requeueScan (nodeId sessionId : String) : Option Server :=
  if s.nodeOwner nodeId = some user then
    (s.sessions.get? sessionId).map fun session =>
      let board := SessionRuntime.requeueWaitingExecutorTasks session.board (isAvailable cfg s)
      let state := { session.state with session := { session.state.session with board := board } }
      s.putSession { session with state := state }
  else none

/-- `_require_connected_once_node` aside, a persona is created or updated with no node or
one of the user. -/
def putPersona (persona : Persona) : Option Server :=
  if persona.executorNodeId.all fun nodeId => s.nodeOwner nodeId = some user then
    some (s.putPersonas user ((s.personasOf user).put persona))
  else none

/-- `persona_is_busy` looks at every session. -/
def personaIsBusy (personaId : String) : Bool :=
  s.sessions.entries.any fun session =>
    (session.board.getPersona personaId).any fun persona => persona.status = .busy

def deletePersona (personaId : String) : Option Server :=
  if personaIsBusy s personaId then none
  else some (s.putPersonas user ((s.personasOf user).erase personaId))

variable (requestId : String)

def readPersonas (sessionId : String) : Option Server :=
  (s.sessionOf user sessionId).bind fun _ =>
    if s.listings.contains requestId then none
    else
      let listing : PersonaListing := ⟨requestId, user, sessionId, s.personasOf user⟩
      some { s with listings := s.listings.put listing }

/-- `sync_user_personas` -/
def syncPersonas : Option Server :=
  ((s.listings.get? requestId).filter fun listing => listing.user = user).bind fun listing =>
    (s.sessionOf user listing.sessionId).map fun session =>
      let board := SessionRuntime.syncPersonas session.board listing.personas
      let state := { session.state with session := { session.state.session with board := board } }
      let s := { s with listings := s.listings.erase requestId }
      s.putSession { session with state := state }

/-! ## Steps of a session -/

/-- The labels that a session takes by itself. Personas, the scan for waiting tasks and
imported threads have actions of their own; a new task gets its node from its persona
alone; an outbound request that is stored again keeps its node. -/
def admits (session : UserSession) : Snapshots.Label → Bool
  | .session (.syncPersonas _) => false
  | .session (.requeueWaiting _) => false
  | .session (.finishCreation _ template) => !template.metadata.contains "executor_node_id"
  | .putTurnRequest request =>
    (session.state.turns.requests.get? request.requestId).any fun stored =>
      stored.executorNodeId = request.executorNodeId
  | .setImportedThreads _ => false
  | _ => true

def sessionStep
    (label : Snapshots.Label) : Option Server :=
  (s.sessionOf user sessionId).bind fun session =>
    if admits session label then
      (Snapshots.step cfg.snapshots session.state label).map fun state =>
        s.putSession { session with state := state }
    else none

def attachThread (outboundRequestId threadId executorThreadId : String) : Option Server :=
  (s.sessionOf user sessionId).bind fun session =>
    (session.state.turns.requests.get? outboundRequestId).map fun outbound =>
      let imported := attachNewThread session.state.imported outbound threadId executorThreadId
      s.putSession { session with state := { session.state with imported := imported } }

/-! ## Commands -/

/-- The command of a request that has been prepared waits to be sent. -/
def beginCommand (prepared : Prepared) (replaces : Bool) :
    Server :=
  let pending : PendingCommand :=
    ⟨requestId, user, prepared.session.sessionId, prepared.command, prepared.nodeIds,
      prepared.personas, replaces⟩
  { s.putSession prepared.session with pending := s.pending.put pending }

def beginRequest (sessionId : String)
    (request : Request) : Option Server :=
  (s.sessionOf user sessionId).bind fun session =>
    if s.pending.contains requestId then none
    else
      (prepare (s.manager cfg) session request).map fun prepared =>
        beginCommand s user requestId prepared false

/-- `publish_imported_thread_snapshots` reaches a session, whoever owns it. -/
def refreshThreads (nodeId sessionId : String)
    (listing : List String) : Option Server :=
  if s.nodeOwner nodeId = some user && !s.pending.contains requestId then
    (s.sessions.get? sessionId).map fun session =>
      beginCommand s user requestId (prepareThreadSync (s.manager cfg) session listing) true
  else none

/-- A command is sent to the node that is recorded for it, if that is connected. -/
def send (nodeId : String) : Option Server :=
  ((s.pending.get? requestId).filter fun pending =>
    pending.user = user && pending.nodeIds.contains nodeId).bind fun pending =>
      if s.connections.contains nodeId then
        let command : SentCommand := ⟨pending.sessionId, pending.command, some nodeId, nodeId⟩
        some { s with sent := s.sent ++ [command] }
      else none

/-- The nodes have listed their threads: a page is added, a sync replaces what was there. -/
def threadsListed
    (listed : List (Persona × CodexThreadItem)) : Option Server :=
  ((s.pending.get? requestId).filter fun pending => pending.user = user).bind fun pending =>
    if listed.all fun entry => pending.personas.contains entry.1 then
      (s.sessions.get? pending.sessionId).map fun session =>
        let before : ImportedThreads :=
          if pending.replaces then ⟨Table.empty, Table.empty⟩ else session.state.imported
        let imported := importListed before listed
        let s := { s with pending := s.pending.erase requestId }
        s.putSession { session with state := { session.state with imported := imported } }
    else none

/-- A command is answered, or fails. -/
def finish : Option Server :=
  ((s.pending.get? requestId).filter fun pending => pending.user = user).map fun _ =>
    { s with pending := s.pending.erase requestId }

/-- `download_workspace_file`, for a path that the turn names: without a node of the thread
it takes the only node that is connected. -/
def download (threadId : String)
    (thread : Option ProjectedThread) : Option Server :=
  (s.sessionOf user sessionId).bind fun session =>
    if isFirstThread session.board session.state.imported threadId thread then
      let recorded := thread.bind ProjectedThread.executorNodeId
      match recorded.or (s.manager cfg).onlyNodeId with
      | none => some s
      | some nodeId =>
        if s.connections.contains nodeId then
          let command : SentCommand := ⟨sessionId, .readWorkspaceFile, recorded, nodeId⟩
          some { s with sent := s.sent ++ [command] }
        else some s
    else none

/-! ## The server -/

def step (label : Label) : Option Server :=
  let user := label.user
  match label.action with
  | .createSession sessionId => createSession s user sessionId
  | .createNode nodeId name enabledExecutors => createNode s user nodeId name enabledExecutors
  | .updateNode nodeId name enabledExecutors => updateNode s user nodeId name enabledExecutors
  | .deleteNode nodeId => deleteNode s user nodeId
  | .register connection => register cfg s user connection
  | .disconnect nodeId => disconnect s user nodeId
  | .requeueScan nodeId sessionId => requeueScan cfg s user nodeId sessionId
  | .refreshThreads requestId nodeId sessionId listing =>
    refreshThreads cfg s user requestId nodeId sessionId listing
  | .putPersona persona => putPersona s user persona
  | .deletePersona personaId => deletePersona s user personaId
  | .readPersonas requestId sessionId => readPersonas s user requestId sessionId
  | .syncPersonas requestId => syncPersonas s user requestId
  | .session sessionId label => sessionStep cfg s user sessionId label
  | .attachThread sessionId outboundRequestId threadId executorThreadId =>
    attachThread s user sessionId outboundRequestId threadId executorThreadId
  | .request requestId sessionId request => beginRequest cfg s user requestId sessionId request
  | .send requestId nodeId => send s user requestId nodeId
  | .threadsListed requestId listed => threadsListed s user requestId listed
  | .finish requestId => finish s user requestId
  | .download sessionId threadId thread => download cfg s user sessionId threadId thread

def initialServer : Server :=
  ⟨Table.empty, Table.empty, Table.empty, Table.empty, Table.empty, Table.empty, []⟩

def system : System Server Label where
  initial s := s = initialServer
  step := step cfg

end Newbro.Users
