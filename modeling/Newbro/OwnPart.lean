import Newbro.UserViews

/-!
# What a user has of the server

The part of the server that is a user's own: her nodes and their connections, her personas,
her sessions, and what is under way for them by her own actions. Each write of the server
is a write of this part, or is not seen in it.
-/
namespace Newbro.Users

open Library Protocol OutboundTurns ExecutorNodes
  Snapshots NodeRequests SessionRuntime Option

@[ext] structure OwnPart where
  nodes : String → Option NodeRecord
  connections : Table NodeConnection.nodeId
  personas : Table Persona.personaId
  sessions : String → Option UserSession
  listings : String → Option PersonaListing
  pending : String → Option PendingCommand

def ownPart (user : String) (s : Server) : OwnPart where
  nodes nodeId := (s.nodes.get? nodeId).filter fun node => node.owner = user
  connections := ownConnections s user
  personas := s.personasOf user
  sessions sessionId := s.sessionOf user sessionId
  listings requestId := (s.listings.get? requestId).filter fun listing => listing.user = user
  pending requestId := (s.pending.get? requestId).filter fun pending =>
    pending.user = user && (s.sessionOf user pending.sessionId).isSome

namespace OwnPart

variable (o : OwnPart)

def putNode (node : NodeRecord) : OwnPart :=
  { o with nodes := Function.update o.nodes node.nodeId (some node) }

def putSession (session : UserSession) : OwnPart :=
  { o with sessions := Function.update o.sessions session.sessionId (some session) }

def putListing (listing : PersonaListing) : OwnPart :=
  { o with listings := Function.update o.listings listing.requestId (some listing) }

def eraseListing (requestId : String) : OwnPart :=
  { o with listings := Function.update o.listings requestId none }

def putPending (pending : PendingCommand) : OwnPart :=
  { o with pending := Function.update o.pending pending.requestId (some pending) }

def erasePending (requestId : String) : OwnPart :=
  { o with pending := Function.update o.pending requestId none }

end OwnPart

variable {requestId : String}

variable {nodeId sessionId : String} {session : UserSession} {o : OwnPart}

section

variable {promised : SentCommand → Prop} {cfg : Config} {s : Server} {user : String}

theorem ownsNode_iff :
    s.ownsNode user nodeId = true ↔ s.nodeOwner nodeId = some user := by
  simp [Server.ownsNode]

theorem ownsNode_eq (s : Server) (user nodeId : String) :
    s.ownsNode user nodeId = ((ownPart user s).nodes nodeId).isSome := by
  cases hget : s.nodes.get? nodeId with
  | none => simp [ownPart, Server.ownsNode, Server.nodeOwner, hget]
  | some node =>
    by_cases howner : node.owner = user <;>
      simp [ownPart, Server.ownsNode, Server.nodeOwner, hget, howner, Option.filter]

/-! ## Nodes and connections -/

theorem ownPart_putNode (h : Owned promised s) (node : NodeRecord)
    (hkeeps : ∀ old, s.nodes.get? node.nodeId = some old → old.owner = node.owner) :
    ownPart user { s with nodes := s.nodes.put node } =
      if node.owner = user then (ownPart user s).putNode node else ownPart user s := by
  have hfind : ∀ nodeId, (({ s with nodes := s.nodes.put node } : Server).nodes.get? nodeId).filter
      (fun node => node.owner = user) = if nodeId = node.nodeId ∧ node.owner = user then some node
        else (ownPart user s).nodes nodeId := by
    intro nodeId
    simp only [Table.get?_put]
    by_cases hid : node.nodeId = nodeId
    · subst hid
      by_cases howner : node.owner = user
      · simp [howner]
      · cases hget : s.nodes.get? node.nodeId with
        | none => simp [howner, ownPart, hget]
        | some old => simp [howner, ownPart, hget, hkeeps old hget, filter_some]
    · simp [hid, Ne.symm hid, ownPart]
  have hconnections : ownConnections { s with nodes := s.nodes.put node } user =
      ownConnections s user := by
    refine Table.restrict_congr fun connection hmem => ?_
    rw [ownsNode_eq, ownsNode_eq]
    simp only [ownPart, hfind]
    by_cases hid : connection.nodeId = node.nodeId ∧ node.owner = user
    · obtain ⟨owner, howner⟩ := isSome_iff_exists.mp (h.connected connection hmem)
      obtain ⟨old, hget, -⟩ := map_eq_some_iff.mp howner
      have hold := hkeeps old (hid.1 ▸ hget)
      simp [hid.1, hid.2, hid.1 ▸ hget, hold]
    · rw [if_neg hid]
  split_ifs with howner
  · refine OwnPart.ext ?_ hconnections rfl rfl rfl rfl
    funext nodeId
    rw [show (ownPart user { s with nodes := s.nodes.put node }).nodes nodeId = _ from hfind nodeId]
    simp [OwnPart.putNode, Function.update_apply, howner]
  · refine OwnPart.ext ?_ hconnections rfl rfl rfl rfl
    funext nodeId
    rw [show (ownPart user { s with nodes := s.nodes.put node }).nodes nodeId = _ from hfind nodeId]
    simp [howner]

theorem ownPart_putConnection (connection : NodeConnection) :
    ownPart user { s with connections := s.connections.put connection } =
      if s.ownsNode user connection.nodeId then
        { ownPart user s with connections := (ownPart user s).connections.put connection }
      else ownPart user s := by
  split_ifs with howns
  · exact OwnPart.ext rfl (Table.restrict_put_of_pos howns) rfl rfl rfl rfl
  · have hforeign : s.ownsNode user connection.nodeId = false := by simpa using howns
    exact OwnPart.ext rfl (Table.restrict_put_of_neg hforeign) rfl rfl rfl rfl

theorem ownPart_eraseConnection (nodeId : String) :
    ownPart user { s with connections := s.connections.erase nodeId } =
      { ownPart user s with connections := (ownPart user s).connections.erase nodeId } :=
  OwnPart.ext rfl (Table.restrict_erase ..) rfl rfl rfl rfl

/-- A node that is not the user's is not among her connections. -/
theorem ownPart_eraseConnection_of_foreign
    (howns : s.ownsNode user nodeId = false) :
    ownPart user { s with connections := s.connections.erase nodeId } = ownPart user s := by
  rw [ownPart_eraseConnection]
  refine OwnPart.ext rfl (Table.erase_of_get?_eq_none ?_) rfl rfl rfl rfl
  rw [Table.get?_eq_none_iff]
  intro connection hmem hid
  have hown := (Table.mem_restrict.mp hmem).2
  rw [hid, howns] at hown
  cases hown

/-! ## Personas and sessions -/

theorem ownPart_putPersonas (actor : String) (personas : Table Persona.personaId) :
    ownPart user (s.putPersonas actor personas) =
      if actor = user then { ownPart user s with personas := personas } else ownPart user s := by
  have hpersonas : (s.putPersonas actor personas).personasOf user =
      if actor = user then personas else s.personasOf user := by
    simp only [Server.personasOf, Server.putPersonas, Table.get?_put]
    split_ifs <;> rfl
  split_ifs with hactor
  · refine OwnPart.ext rfl rfl ?_ rfl rfl rfl
    rw [if_pos hactor] at hpersonas
    exact hpersonas
  · refine OwnPart.ext rfl rfl ?_ rfl rfl rfl
    rw [if_neg hactor] at hpersonas
    exact hpersonas

theorem ownPart_putSession (h : Owned promised s) (session : UserSession)
    (hkeeps : ∀ old, s.sessions.get? session.sessionId = some old → old.owner = session.owner) :
    ownPart user (s.putSession session) =
      if session.owner = user then (ownPart user s).putSession session else ownPart user s := by
  have hfind : ∀ sessionId, (s.putSession session).sessionOf user sessionId =
      if sessionId = session.sessionId ∧ session.owner = user then some session
        else s.sessionOf user sessionId := by
    intro sessionId
    simp only [Server.sessionOf, Server.putSession, Table.get?_put]
    by_cases hid : session.sessionId = sessionId
    · subst hid
      by_cases howner : session.owner = user
      · simp [howner]
      · cases hget : s.sessions.get? session.sessionId with
        | none => simp [howner]
        | some old => simp [howner, hkeeps old hget, filter_some]
    · simp [hid, Ne.symm hid]
  have hpending : ∀ requestId, (ownPart user (s.putSession session)).pending requestId =
      (ownPart user s).pending requestId := by
    intro requestId
    cases hget : s.pending.get? requestId with
    | none => simp [ownPart, Server.putSession, hget]
    | some pending =>
      obtain ⟨known, hknown, -⟩ := h.pending pending (Table.mem_of_get? hget)
      have hsame : ((s.putSession session).sessionOf user pending.sessionId).isSome =
          (s.sessionOf user pending.sessionId).isSome := by
        rw [hfind]
        split_ifs with hid
        · have howner : known.owner = user := by rw [hkeeps known (hid.1 ▸ hknown), hid.2]
          rw [sessionOf_eq_some.mpr ⟨hknown, howner⟩, isSome_some, isSome_some]
        · rfl
      have hpending : (s.putSession session).pending.get? requestId = some pending := hget
      simp only [ownPart, hget, hpending, filter_some, hsame]
  split_ifs with howner
  · refine OwnPart.ext rfl rfl rfl ?_ rfl (funext hpending)
    funext sessionId
    rw [show (ownPart user (s.putSession session)).sessions sessionId = _ from hfind sessionId]
    simp [OwnPart.putSession, Function.update_apply, howner, ownPart]
  · refine OwnPart.ext rfl rfl rfl ?_ rfl (funext hpending)
    funext sessionId
    rw [show (ownPart user (s.putSession session)).sessions sessionId = _ from hfind sessionId]
    simp [howner, ownPart]

/-- A session that is stored again, with its board or its threads changed. -/
theorem ownPart_putState (user : String) (h : Owned promised s)
    (hget : s.sessions.get? sessionId = some session)
    (state : Snapshots.State) :
    ownPart user (s.putSession { session with state := state }) =
      if session.owner = user then (ownPart user s).putSession { session with state := state }
      else ownPart user s := by
  have hid : session.sessionId = sessionId := Table.key_of_get? hget
  refine ownPart_putSession h { session with state := state } fun old hold => ?_
  rw [show s.sessions.get? session.sessionId = some session from hid ▸ hget] at hold
  rw [some.inj hold]

/-! ## Listings and commands -/

theorem ownPart_putListing {listing : PersonaListing}
    (hfresh : s.listings.get? listing.requestId = none) :
    ownPart user { s with listings := s.listings.put listing } =
      if listing.user = user then (ownPart user s).putListing listing else ownPart user s := by
  have hfind : ∀ requestId,
      ((s.listings.put listing).get? requestId).filter (fun listing => listing.user = user) =
        if requestId = listing.requestId ∧ listing.user = user then some listing
        else (ownPart user s).listings requestId := by
    intro requestId
    rw [Table.get?_put]
    by_cases hid : listing.requestId = requestId
    · subst hid
      by_cases huser : listing.user = user
      · simp [huser]
      · simp [huser, ownPart, hfresh]
    · simp [hid, Ne.symm hid, ownPart]
  split_ifs with huser
  · refine OwnPart.ext rfl rfl rfl rfl (funext fun requestId => (hfind requestId).trans ?_) rfl
    simp [OwnPart.putListing, Function.update_apply, huser]
  · refine OwnPart.ext rfl rfl rfl rfl (funext fun requestId => (hfind requestId).trans ?_) rfl
    simp [huser]

theorem ownPart_eraseListing (requestId : String) :
    ownPart user { s with listings := s.listings.erase requestId } =
      (ownPart user s).eraseListing requestId := by
  refine OwnPart.ext rfl rfl rfl rfl (funext fun other => ?_) rfl
  simp only [ownPart, OwnPart.eraseListing, Function.update_apply, Table.get?_erase]
  by_cases hid : requestId = other
  · simp [hid]
  · simp [hid, Ne.symm hid]

theorem ownPart_putPending {pending : PendingCommand}
    (hfresh : s.pending.get? pending.requestId = none) :
    ownPart user { s with pending := s.pending.put pending } =
      if pending.user = user ∧ (s.sessionOf user pending.sessionId).isSome then
        (ownPart user s).putPending pending
      else ownPart user s := by
  have hfind : ∀ requestId, ((s.pending.put pending).get? requestId).filter (fun pending =>
        pending.user = user && (s.sessionOf user pending.sessionId).isSome) =
      if requestId = pending.requestId ∧ pending.user = user ∧
        (s.sessionOf user pending.sessionId).isSome then some pending
      else (ownPart user s).pending requestId := by
    intro requestId
    rw [Table.get?_put]
    by_cases hid : pending.requestId = requestId
    · subst hid
      by_cases hown : pending.user = user ∧ (s.sessionOf user pending.sessionId).isSome
      · simp [hown]
      · rw [if_pos rfl, if_neg fun h => hown h.2, filter_some, if_neg (by simpa using hown)]
        simp [ownPart, hfresh]
    · simp [hid, Ne.symm hid, ownPart]
  split_ifs with hown
  · refine OwnPart.ext rfl rfl rfl rfl rfl (funext fun requestId => (hfind requestId).trans ?_)
    simp [OwnPart.putPending, Function.update_apply, hown]
  · refine OwnPart.ext rfl rfl rfl rfl rfl (funext fun requestId => (hfind requestId).trans ?_)
    rw [if_neg fun h => hown h.2]

theorem ownPart_erasePending (requestId : String) :
    ownPart user { s with pending := s.pending.erase requestId } =
      (ownPart user s).erasePending requestId := by
  refine OwnPart.ext rfl rfl rfl rfl rfl (funext fun other => ?_)
  simp only [ownPart, OwnPart.erasePending, Function.update_apply, Table.get?_erase]
  by_cases hid : requestId = other
  · simp [hid]
  · simp only [if_neg hid, if_neg (Ne.symm hid)]
    rfl

theorem OwnPart.eraseListing_of_none
    (h : o.listings requestId = none) : o.eraseListing requestId = o := by
  rw [OwnPart.eraseListing, ← h, Function.update_eq_self]

theorem OwnPart.erasePending_of_none
    (h : o.pending requestId = none) : o.erasePending requestId = o := by
  rw [OwnPart.erasePending, ← h, Function.update_eq_self]

/-- A command that is prepared from a session of the user is hers when it is of her action. -/
theorem ownPart_beginCommand (h : Owned promised s)
    (hget : s.sessions.get? sessionId = some session) {prepared : Prepared}
    (hp : PreparedNodes (s.Owns session.owner) session prepared)
    (hfresh : s.pending.get? requestId = none) (actor : String) (replaces : Bool) :
    ownPart user (beginCommand s actor requestId prepared replaces) =
      if session.owner = user then
        if actor = user then ((ownPart user s).putSession prepared.session).putPending
          ⟨requestId, actor, sessionId, prepared.command, prepared.nodeIds, prepared.personas,
            replaces⟩
        else (ownPart user s).putSession prepared.session
      else ownPart user s := by
  have hid : prepared.session.sessionId = sessionId := hp.sessionId.trans (Table.key_of_get? hget)
  have hput : ownPart user (s.putSession prepared.session) =
      if prepared.session.owner = user then (ownPart user s).putSession prepared.session
      else ownPart user s := by
    refine ownPart_putSession h prepared.session fun old hold => ?_
    rw [hid, hget] at hold
    rw [← some.inj hold, hp.owner]
  have hsession : (s.putSession prepared.session).sessionOf user sessionId =
      if session.owner = user then some prepared.session else none := by
    rw [Server.sessionOf, Server.putSession, Table.get?_put, if_pos hid, filter_some, hp.owner]
    simp
  unfold beginCommand
  rw [hid]
  refine (ownPart_putPending (s := s.putSession prepared.session) ?_).trans ?_
  · exact hfresh
  rw [hput, hp.owner]
  simp only [hsession]
  by_cases howner : session.owner = user <;> by_cases hactor : actor = user <;>
    simp [howner, hactor]

end

end Newbro.Users
