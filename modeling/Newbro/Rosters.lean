import Newbro.SessionRuntime

/-!
# The stored personas and the sessions

The requests that read and change the stored personas of a user, between their awaits, and
the sessions that each request syncs: `api/routes/personas.py`, `bootstrap_public_user`,
`create_session` and `list_bros`, with `sync_user_personas` of `runtime/container.py`. A
request that its checks refuse leaves nothing behind and is no step. Ids are fresh.
-/
namespace Newbro.Rosters

open Library Protocol SessionCommands SessionRuntime

def legacyDraftBasePrompt : String := "Help turn voice instructions into clear executable drafts."

def defaultBroBasePrompt : String :=
  "You are the selected local execution Bro. Execute the user's direct typed " ++
    "or push-to-talk instructions in the connected workspace, and ask only when " ++
    "you need a concrete decision to continue."

/-- The body of an update: the fields that are set. -/
structure PersonaUpdate where
  name : Option String := none
  avatar : Option String := none
  basePrompt : Option String := none
  executorNodeId : Option (Option String) := none
  broDetailSessionId : Option String := none
  deriving Repr, DecidableEq

/-- The updates of `update_persona`: a Bro that is bound to another computer gets a new
detail session. -/
def updatesOf (body : PersonaUpdate) (listed : Persona) (freshDetailId : String) : PersonaUpdate :=
  { body with
    name := body.name.map Text.strip
    broDetailSessionId :=
      match body.executorNodeId with
      | none => none
      | some nodeId => if nodeId = listed.executorNodeId then none else some freshDetailId }

/-- `current.model_copy(update=updates)`, with the name stripped once more. -/
def applyUpdates (current : Persona) (updates : PersonaUpdate) : Persona :=
  { current with
    name := Text.strip (updates.name.getD current.name)
    avatar := updates.avatar.getD current.avatar
    basePrompt := updates.basePrompt.getD current.basePrompt
    executorNodeId := updates.executorNodeId.getD current.executorNodeId
    broDetailSessionId := updates.broDetailSessionId.getD current.broDetailSessionId }

abbrev Stored := Table Persona.personaId

inductive Change where
  | create (record : Persona)
  | update (personaId : String) (updates : PersonaUpdate)
  | delete (personaId : String)

variable (stored : Stored)

/-- `PublicAuthStore.create_persona`: a node has one Bro. -/
def createPersona (record : Persona) : Except String Stored :=
  if record.name = "" then .error "Persona name is required."
  else
    match record.executorNodeId.bind fun nodeId =>
        stored.entries.find? fun persona => persona.executorNodeId = some nodeId with
    | some existing =>
      if existing.basePrompt = legacyDraftBasePrompt then
        .ok (stored.put { existing with basePrompt := defaultBroBasePrompt })
      else .ok stored
    | none =>
      if stored.contains record.personaId = true then .error "UNIQUE constraint failed: personas"
      else .ok (stored.put record)

def updatePersona (personaId : String) (updates : PersonaUpdate) :
    Except String Stored :=
  match stored.get? personaId with
  | none => .error personaId
  | some current =>
    if Text.strip (updates.name.getD current.name) = "" then .error "Persona name is required."
    else .ok (stored.put (applyUpdates current updates))

def Change.apply : Change → Except String Stored
  | .create record =>
    createPersona stored { record with name := Text.strip record.name, status := .idle }
  | .update personaId updates => updatePersona stored personaId updates
  | .delete personaId => .ok (stored.erase personaId)

/-- What a request still has to do: to make its change, to list the stored personas, to sync
its session with the list. -/
inductive Stage where
  | change (change : Change)
  | read
  | sync (personas : Stored)

structure Request where
  requestId : String
  user : String
  sessionId : String
  stage : Stage

structure UserPersonas where
  userId : String
  personas : Stored

/-- A live session. -/
structure Session where
  sessionId : String
  state : SessionState

/-- The tables `personas` and `session_owners`, the live sessions, and the requests. -/
structure Server where
  stored : Table UserPersonas.userId
  owners : Dict String String
  sessions : Table Session.sessionId
  requests : Table Request.requestId

variable (s : Server) (user : String)

def Server.storedOf : Stored :=
  ((s.stored.get? user).map UserPersonas.personas).getD Table.empty

/-- `persona_is_busy` looks at every session. -/
def Server.personaIsBusy (personaId : String) : Bool :=
  s.sessions.entries.any fun session =>
    (session.state.board.getPersona personaId).any fun persona => persona.status = .busy

inductive Label where
  /-- `create_session`, or a bootstrap that finds no live session, with the personas of the file
  that a new session starts from. -/
  | createSession (requestId user sessionId : String) (filePersonas : List Persona)
  /-- `list_personas`, `list_bros`, or a bootstrap that finds a live session. -/
  | list (requestId user sessionId : String)
  | create (requestId user sessionId : String) (record : Persona)
  | update (requestId user sessionId personaId : String) (body : PersonaUpdate)
      (freshDetailId : String)
  | delete (requestId user sessionId personaId : String)
  | change (requestId : String)
  | read (requestId : String)
  | sync (requestId : String)
  | session (sessionId : String) (label : SessionRuntime.Label)

/-! ## Steps -/

variable (requestId : String)

/-- A request of the owner of its session begins. -/
def begin (user sessionId : String) (stage : Stage) : Option Server :=
  if s.requests.contains requestId = true ∨ s.owners.lookup sessionId ≠ some user then none
  else some { s with requests := s.requests.put ⟨requestId, user, sessionId, stage⟩ }

/-- The board of a new session: the personas of `personas.yaml` are put on it. -/
def sessionFrom (filePersonas : List Persona) : SessionState :=
  { initialState with board := filePersonas.foldl (fun b p => b.putPersona p) Blackboard.empty }

def createSession (user sessionId : String) (filePersonas : List Persona) :
    Option Server :=
  if s.sessions.contains sessionId = true ∨ (s.owners.lookup sessionId).isSome = true then none
  else
    begin { s with
      sessions := s.sessions.put ⟨sessionId, sessionFrom filePersonas⟩
      owners := s.owners.set sessionId user } requestId user sessionId .read

def beginUpdate (user sessionId personaId : String) (body : PersonaUpdate)
    (freshDetailId : String) : Option Server :=
  if body = {} then none
  else ((s.storedOf user).get? personaId).bind fun listed =>
    begin s requestId user sessionId
      (.change (.update personaId (updatesOf body listed freshDetailId)))

def beginDelete (user sessionId personaId : String) : Option Server :=
  if s.personaIsBusy personaId = true then none
  else ((s.storedOf user).get? personaId).bind fun _ =>
    begin s requestId user sessionId (.change (.delete personaId))

/-- The change in the database; a request that it refuses ends. -/
def changeStored : Option Server :=
  match s.requests.get? requestId with
  | some ⟨_, user, sessionId, .change change⟩ =>
    match change.apply (s.storedOf user) with
    | .error _ => some { s with requests := s.requests.erase requestId }
    | .ok personas =>
      some { s with
        stored := s.stored.put ⟨user, personas⟩
        requests := s.requests.put ⟨requestId, user, sessionId, .read⟩ }
  | _ => none

def readStored : Option Server :=
  match s.requests.get? requestId with
  | some ⟨_, user, sessionId, .read⟩ =>
    some { s with requests := s.requests.put ⟨requestId, user, sessionId, .sync (s.storedOf user)⟩ }
  | _ => none

/-- `sync_user_personas`: one session, or none when it is not live any more. -/
def syncSession : Option Server :=
  match s.requests.get? requestId with
  | some ⟨_, _, sessionId, .sync personas⟩ =>
    let s := { s with requests := s.requests.erase requestId }
    match s.sessions.get? sessionId with
    | none => some s
    | some session =>
      let board := syncPersonas session.state.board personas
      some { s with
        sessions := s.sessions.put { session with state := { session.state with board := board } } }
  | _ => none

variable (cfg : Config)

/-- A step of a session by itself. -/
def sessionStep (s : Server) (sessionId : String) (label : SessionRuntime.Label) :
    Option Server :=
  match label with
  | .syncPersonas _ => none
  | label =>
    (s.sessions.get? sessionId).bind fun session =>
      (SessionRuntime.step cfg session.state label).map fun state =>
        { s with sessions := s.sessions.put { session with state := state } }

def step (s : Server) : Label → Option Server
  | .createSession requestId user sessionId filePersonas =>
    createSession s requestId user sessionId filePersonas
  | .list requestId user sessionId => begin s requestId user sessionId .read
  | .create requestId user sessionId record =>
    begin s requestId user sessionId (.change (.create record))
  | .update requestId user sessionId personaId body freshDetailId =>
    beginUpdate s requestId user sessionId personaId body freshDetailId
  | .delete requestId user sessionId personaId => beginDelete s requestId user sessionId personaId
  | .change requestId => changeStored s requestId
  | .read requestId => readStored s requestId
  | .sync requestId => syncSession s requestId
  | .session sessionId label => sessionStep cfg s sessionId label

/-- A server starts without sessions; what is in the database stays from before. -/
def system : System Server Label where
  initial s := s.sessions = Table.empty ∧ s.requests = Table.empty
  step := step cfg

/-! ## One roster -/

/-- A persona without its status. -/
def fields (persona : Persona) : Persona := { persona with status := .idle }

/-- The board of a session has the stored personas, and besides them busy ones only. -/
structure Agrees (stored : Stored) (b : Blackboard) : Prop where
  shown : ∀ persona ∈ stored.entries,
    (b.getPersona persona.personaId).map fields = some (fields persona)
  leftover : ∀ persona ∈ b.personas.entries,
    stored.get? persona.personaId = none → persona.status = .busy

instance (stored : Stored) (b : Blackboard) : Decidable (Agrees stored b) :=
  decidable_of_iff ((∀ persona ∈ stored.entries,
      (b.getPersona persona.personaId).map fields = some (fields persona)) ∧
    ∀ persona ∈ b.personas.entries, stored.get? persona.personaId = none → persona.status = .busy)
    ⟨fun h => ⟨h.1, h.2⟩, fun h => ⟨h.shown, h.leftover⟩⟩

/-- Every user without a request in flight has one roster in all live sessions. -/
def OneRoster : Prop :=
  ∀ user, (∀ request ∈ s.requests.entries, request.user ≠ user) →
    ∀ session ∈ s.sessions.entries, s.owners.lookup session.sessionId = some user →
      Agrees (s.storedOf user) session.state.board

end Newbro.Rosters
