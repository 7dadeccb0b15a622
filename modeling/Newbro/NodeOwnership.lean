import Newbro.RecordedNodes
import Newbro.Users

/-!
# Whose nodes a session works on

A node that a session of a user has recorded is one of the user, whatever happens on the
server. Every command goes to a node that is recorded for it, with one exception: a file
download whose thread has no node goes to the only node that is connected.
-/
namespace Newbro.Users

open Library Protocol OutboundTurns ExecutorNodes
  Snapshots NodeRequests SessionRuntime Option Table

/-- What may be recorded for the user: a node that the user owns, or no node at all. -/
def Server.Owns (s : Server) (user nodeId : String) : Prop :=
  nodeId = "" ∨ s.nodeOwner nodeId = some user

/-- The nodes of these personas may be recorded for the user. -/
def Server.OwnsNodesOf (s : Server) (user : String) (personas : List Persona) : Prop :=
  ∀ persona ∈ personas, ∀ nodeId ∈ persona.executorNodeId, s.Owns user nodeId

/-- A command under way is one of a session, for nodes of the owner of that session. -/
def PendingOwned (s : Server) (pending : PendingCommand) : Prop :=
  ∃ session, s.sessions.get? pending.sessionId = some session ∧
    (∀ nodeId ∈ pending.nodeIds, s.Owns session.owner nodeId) ∧
    s.OwnsNodesOf session.owner pending.personas

/-- A command went to a node that was recorded for it and that the owner of its session
owns. -/
def SentToOwner (s : Server) (command : SentCommand) : Prop :=
  command.recorded = some command.nodeId ∧
    ∃ session, s.sessions.get? command.sessionId = some session ∧
      s.nodeOwner command.nodeId = some session.owner

/-- Work and file reads stay on the nodes of the owner. -/
def WorkKept (s : Server) : Prop := ∀ command ∈ s.sent, SentToOwner s command

/-- All that the tables of the server record; of the commands that were sent, those that
are promised to be kept. -/
structure Owned (promised : SentCommand → Prop) (s : Server) : Prop where
  named : ∀ node ∈ s.nodes.entries, node.nodeId ≠ ""
  connected : ∀ connection ∈ s.connections.entries, (s.nodeOwner connection.nodeId).isSome
  personas : ∀ store ∈ s.personas.entries, s.OwnsNodesOf store.userId store.personas.entries
  sessions : ∀ session ∈ s.sessions.entries, SessionNodes (s.Owns session.owner) session
  listings : ∀ listing ∈ s.listings.entries, s.OwnsNodesOf listing.user listing.personas.entries
  pending : ∀ pending ∈ s.pending.entries, PendingOwned s pending
  sent : ∀ command ∈ s.sent, promised command → SentToOwner s command

/-- A download finds a node in the thread, or no node to fall back to. -/
def NamesItsNode (cfg : Config) (s : Server) (label : Label) : Prop :=
  match label.action with
  | .download _ _ thread =>
    (thread.bind ProjectedThread.executorNodeId).isSome ∨ (s.manager cfg).onlyNodeId = none
  | _ => True

/-! ## Tables that are written -/

variable {sessionId nodeId requestId threadId : String} {session : UserSession} {node : NodeRecord}

variable {name : String} {enabledExecutors : List String} {label : Snapshots.Label}
   {thread : Option ProjectedThread}

section

variable {promised : SentCommand → Prop} {cfg : Config} {s s' : Server} {user : String}

theorem sessionOf_eq_some : s.sessionOf user sessionId = some session ↔
      s.sessions.get? sessionId = some session ∧ session.owner = user := by
  simp [Server.sessionOf, filter_eq_some_iff]

theorem nodeOf_eq_some : s.nodeOf user nodeId = some node ↔
      s.nodes.get? nodeId = some node ∧ node.owner = user ∧ node.registered = true := by
  simp [Server.nodeOf, filter_eq_some_iff]

theorem nodeOwner_of_get?
    (h : s.nodes.get? nodeId = some node) : s.nodeOwner nodeId = some node.owner := by
  rw [Server.nodeOwner, h, map_some]

section

variable (h : Owned promised s)
include h

/-- No node is connected without an id. -/
theorem Owned.get?_empty_id : s.connections.get? "" = none := by
  refine Table.get?_eq_none_iff.mpr fun connection hmem hid => ?_
  obtain ⟨owner, howner⟩ := isSome_iff_exists.mp (h.connected connection hmem)
  obtain ⟨node, hnode, -⟩ := map_eq_some_iff.mp howner
  exact h.named node (mem_of_get? hnode) ((key_of_get? hnode).trans hid)

/-- A node that is connected and may be recorded for a user is a node of the user. -/
theorem Owned.owner_of_connected
    (howns : s.Owns user nodeId) (hc : s.connections.contains nodeId = true) :
    s.nodeOwner nodeId = some user := by
  refine howns.resolve_left fun hempty => ?_
  rw [hempty, Table.contains, h.get?_empty_id] at hc
  cases hc

/-- A node keeps its owner. -/
theorem Owned.putNode (hid : node.nodeId ≠ "")
    (hkeeps : ∀ old, s.nodes.get? node.nodeId = some old → old.owner = node.owner) :
    Owned promised { s with nodes := s.nodes.put node } := by
  have howner : ∀ {nodeId owner}, s.nodeOwner nodeId = some owner →
      ({ s with nodes := s.nodes.put node } : Server).nodeOwner nodeId = some owner := by
    intro nodeId owner hold
    obtain ⟨old, hget, rfl⟩ := map_eq_some_iff.mp hold
    by_cases heq : node.nodeId = nodeId
    · subst heq
      rw [hkeeps old hget, Server.nodeOwner, Table.get?_put_self, map_some]
    · rw [Server.nodeOwner, Table.get?_put_of_ne _ heq, hget, map_some]
  have howns : ∀ {user nodeId}, s.Owns user nodeId →
      ({ s with nodes := s.nodes.put node } : Server).Owns user nodeId :=
    fun hold => hold.imp id howner
  exact
    { named := forall_put h.named hid
      connected := fun connection hmem => by
        obtain ⟨owner, hold⟩ := isSome_iff_exists.mp (h.connected connection hmem)
        rw [howner hold, isSome_some]
      personas := fun store hmem persona hp nodeId hn =>
        howns (h.personas store hmem persona hp nodeId hn)
      sessions := fun session hmem => (h.sessions session hmem).mono fun _ => howns
      listings := fun listing hmem persona hp nodeId hn =>
        howns (h.listings listing hmem persona hp nodeId hn)
      pending := fun pending hmem => by
        obtain ⟨session, hget, hnodes, hpersonas⟩ := h.pending pending hmem
        exact ⟨session, hget, fun nodeId hn => howns (hnodes nodeId hn),
          fun persona hp nodeId hn => howns (hpersonas persona hp nodeId hn)⟩
      sent := fun command hmem hpromised => by
        obtain ⟨hrecorded, session, hsession, hnode⟩ := h.sent command hmem hpromised
        exact ⟨hrecorded, session, hsession, howner hnode⟩ }

/-- A session keeps its owner. -/
theorem Owned.putSession
    (hkeeps : ∀ old, s.sessions.get? session.sessionId = some old → old.owner = session.owner)
    (hnodes : SessionNodes (s.Owns session.owner) session) : Owned promised (s.putSession session) := by
  have hfind : ∀ {sessionId old}, s.sessions.get? sessionId = some old →
      ∃ new, (s.putSession session).sessions.get? sessionId = some new ∧ new.owner = old.owner := by
    intro sessionId old hold
    by_cases heq : session.sessionId = sessionId
    · subst heq
      exact ⟨session, Table.get?_put_self .., (hkeeps old hold).symm⟩
    · exact ⟨old, (Table.get?_put_of_ne _ heq).trans hold, rfl⟩
  exact
    { h with
      sessions := forall_put h.sessions hnodes
      pending := fun pending hmem => by
        obtain ⟨old, hold, hnodes, hpersonas⟩ := h.pending pending hmem
        obtain ⟨new, hnew, howner⟩ := hfind hold
        exact ⟨new, hnew, howner ▸ hnodes, howner ▸ hpersonas⟩
      sent := fun command hmem hpromised => by
        obtain ⟨hrecorded, old, hold, hnode⟩ := h.sent command hmem hpromised
        obtain ⟨new, hnew, howner⟩ := hfind hold
        exact ⟨hrecorded, new, hnew, howner ▸ hnode⟩ }

/-- A session that is stored again, with its board or its threads changed. -/
theorem Owned.putState
    (hget : s.sessions.get? sessionId = some session) {state : Snapshots.State}
    (hstate : StateRecords (s.Owns session.owner) state) :
    Owned promised (s.putSession { session with state := state }) := by
  have hid : session.sessionId = sessionId := key_of_get? hget
  have hnodes := h.sessions session (mem_of_get? hget)
  refine h.putSession ?_ (hnodes.putState hstate)
  intro old hold
  rw [show s.sessions.get? session.sessionId = some session from hid ▸ hget] at hold
  rw [some.inj hold]

theorem Owned.putPersonas {personas : Table Persona.personaId}
    (hp : s.OwnsNodesOf user personas.entries) : Owned promised (s.putPersonas user personas) :=
  { h with personas := forall_put h.personas hp }

theorem Owned.personasOf (user : String) : s.OwnsNodesOf user (s.personasOf user).entries := by
  unfold Server.personasOf
  cases hget : s.personas.get? user with
  | none => exact fun _ hmem => absurd hmem List.not_mem_nil
  | some store =>
    have hstore := h.personas store (mem_of_get? hget)
    rwa [key_of_get? hget] at hstore

theorem Owned.erasePending (requestId : String) :
    Owned promised { s with pending := s.pending.erase requestId } :=
  { h with pending := fun pending hmem => h.pending pending (mem_erase.mp hmem).1 }

theorem Owned.eraseListing (requestId : String) :
    Owned promised { s with listings := s.listings.erase requestId } :=
  { h with listings := fun listing hmem => h.listings listing (mem_erase.mp hmem).1 }

theorem Owned.send {command : SentCommand}
    (hsent : promised command → SentToOwner s command) :
    Owned promised { s with sent := s.sent ++ [command] } :=
  { h with
    sent := fun other hmem hpromised => by
      rcases List.mem_append.mp hmem with hold | hnew
      · exact h.sent other hold hpromised
      · rw [List.mem_singleton.mp hnew] at hpromised ⊢
        exact hsent hpromised }

/-- A request that is prepared from a session names only nodes of its owner. -/
theorem Owned.beginCommand (hget : s.sessions.get? sessionId = some session) {prepared : Prepared}
    (hp : PreparedNodes (s.Owns session.owner) session prepared) (requestId : String)
    (replaces : Bool) : Owned promised (beginCommand s user requestId prepared replaces) := by
  have hid : session.sessionId = sessionId := key_of_get? hget
  have hput : Owned promised (s.putSession prepared.session) := by
    refine h.putSession ?_ (hp.owner ▸ hp.session)
    intro old hold
    rw [hp.sessionId, hid, hget] at hold
    rw [← some.inj hold, hp.owner]
  refine { hput with pending := forall_put hput.pending ?_ }
  exact ⟨prepared.session, Table.get?_put_self .., hp.owner ▸ hp.nodeIds, hp.owner ▸ hp.personas⟩

end

/-! ## Each action -/

section

variable (h : Owned promised s)
include h

theorem createSession_owned
    (hs : createSession s user sessionId = some s') : Owned promised s' := by
  unfold createSession at hs
  split_ifs at hs with hknown
  obtain rfl := some.inj hs
  refine h.putSession ?_ (newSession_nodes ..)
  intro old hold
  exact absurd (isSome_iff_exists.mpr ⟨old, hold⟩) hknown

theorem createNode_owned
    (hs : createNode s user nodeId name enabledExecutors = some s') : Owned promised s' := by
  unfold createNode at hs
  split_ifs at hs with hknown
  obtain rfl := some.inj hs
  simp only [Bool.or_eq_true, decide_eq_true_eq, not_or] at hknown
  refine h.putNode hknown.2 ?_
  intro old hold
  exact absurd (isSome_iff_exists.mpr ⟨old, hold⟩) hknown.1

/-- A node that is renamed or deleted is the same node of the same owner. -/
theorem Owned.putNodeOf {node' : NodeRecord}
    (hget : s.nodeOf user nodeId = some node) (hid : node'.nodeId = node.nodeId)
    (howner : node'.owner = node.owner) : Owned promised { s with nodes := s.nodes.put node' } := by
  obtain ⟨hnode, -, -⟩ := nodeOf_eq_some.mp hget
  have hnamed := h.named node (mem_of_get? hnode)
  refine h.putNode (hid ▸ hnamed) ?_
  intro old hold
  rw [hid, key_of_get? hnode, hnode] at hold
  rw [← some.inj hold, howner]

theorem updateNode_owned
    (hs : updateNode s user nodeId name enabledExecutors = some s') : Owned promised s' := by
  obtain ⟨node, hnode, rfl⟩ := map_eq_some_iff.mp hs
  exact h.putNodeOf hnode rfl rfl

theorem deleteNode_owned (hs : deleteNode s user nodeId = some s') : Owned promised s' := by
  obtain ⟨node, hnode, hs⟩ := bind_eq_some_iff.mp hs
  split_ifs at hs
  obtain rfl := some.inj hs
  exact h.putNodeOf hnode rfl rfl

theorem register_owned {connection : NodeConnection}
    (hs : register cfg s user connection = some s') : Owned promised s' := by
  obtain ⟨node, hnode, hs⟩ := bind_eq_some_iff.mp hs
  obtain ⟨manager, hmanager, rfl⟩ := map_eq_some_iff.mp hs
  obtain ⟨-, rfl⟩ := registerConnection_cases hmanager
  have howner := nodeOwner_of_get? (nodeOf_eq_some.mp hnode).1
  have hconnected : (s.nodeOwner connection.nodeId).isSome := by rw [howner, isSome_some]
  exact { h with connected := forall_put h.connected hconnected }

theorem disconnect_owned (hs : disconnect s user nodeId = some s') : Owned promised s' := by
  unfold disconnect at hs
  split_ifs at hs
  obtain rfl := some.inj hs
  exact
    { h with
      connected := fun connection hmem => h.connected connection (mem_erase.mp hmem).1 }

theorem requeueScan_owned
    (hs : requeueScan cfg s user nodeId sessionId = some s') : Owned promised s' := by
  unfold requeueScan at hs
  split_ifs at hs
  obtain ⟨session, hget, rfl⟩ := map_eq_some_iff.mp hs
  have hnodes := h.sessions session (mem_of_get? hget)
  exact h.putState hget (hnodes.state.putBoard (hnodes.board.requeueWaitingExecutorTasks _))

theorem putPersona_owned {persona : Persona}
    (hs : putPersona s user persona = some s') : Owned promised s' := by
  unfold putPersona at hs
  split_ifs at hs with hnode
  obtain rfl := some.inj hs
  refine h.putPersonas (forall_put (h.personasOf user) ?_)
  intro nodeId hmem
  rw [mem_def.mp hmem, all_some, decide_eq_true_eq] at hnode
  exact .inr hnode

theorem deletePersona_owned {personaId : String}
    (hs : deletePersona s user personaId = some s') : Owned promised s' := by
  unfold deletePersona at hs
  split_ifs at hs
  obtain rfl := some.inj hs
  exact h.putPersonas fun persona hmem => h.personasOf user persona (mem_erase.mp hmem).1

theorem readPersonas_owned
    (hs : readPersonas s user requestId sessionId = some s') : Owned promised s' := by
  obtain ⟨session, -, hs⟩ := bind_eq_some_iff.mp hs
  split_ifs at hs
  obtain rfl := some.inj hs
  exact { h with listings := forall_put h.listings (h.personasOf user) }

theorem syncPersonas_owned (hs : syncPersonas s user requestId = some s') : Owned promised s' := by
  obtain ⟨listing, hlisting, hs⟩ := bind_eq_some_iff.mp hs
  obtain ⟨session, hsession, rfl⟩ := map_eq_some_iff.mp hs
  obtain ⟨hlisting, huser⟩ := filter_eq_some_iff.mp hlisting
  obtain ⟨hget, howner⟩ := sessionOf_eq_some.mp hsession
  have hpersonas := h.listings listing (mem_of_get? hlisting)
  rw [of_decide_eq_true huser, ← howner] at hpersonas
  have hnodes := h.sessions session (mem_of_get? hget)
  exact (h.eraseListing requestId).putState hget
    (hnodes.state.putBoard (hnodes.board.syncPersonas hpersonas))

end

/-- What a session takes by itself brings in no node. -/
theorem bringsOnly_of_admits
    {P : String → Prop} (h : SessionNodes P session) (ha : admits session label = true)
    {s' : Snapshots.State} (hs : Snapshots.step cfg.snapshots session.state label = some s') :
    bringsOnly P label := by
  cases label with
  | session label =>
    cases label
    case syncPersonas => cases ha
    case raiseRequest => cases hs
    case finishCreation creationId template =>
      intro nodeId hmem
      have hlookup : Dict.lookup template.metadata "executor_node_id" = none := by
        simpa [admits, Table.contains, Dict.lookup] using ha
      rw [HostedRuns.nodeIdFromTask, Metadata.nonemptyStr?, Metadata.str?, hlookup] at hmem
      cases hmem
    all_goals trivial
  | putTurnRequest request =>
    obtain ⟨stored, hget, hsame⟩ := (any_eq_true ..).mp ha
    rw [decide_eq_true_eq] at hsame
    have hnode := h.state.turns stored (mem_of_get? hget)
    rwa [hsame] at hnode
  | setImportedThreads imported => cases ha
  | requestFromRun | requestFromSummary | codexTurnEvent | updateThreadTurns => trivial

section

variable (h : Owned promised s)
include h

theorem sessionStep_owned
    (hs : sessionStep cfg s user sessionId label = some s') : Owned promised s' := by
  obtain ⟨session, hsession, hs⟩ := bind_eq_some_iff.mp hs
  obtain ⟨hget, -⟩ := sessionOf_eq_some.mp hsession
  split_ifs at hs with hadmits
  obtain ⟨state, hstate, rfl⟩ := map_eq_some_iff.mp hs
  have hnodes := h.sessions session (mem_of_get? hget)
  exact h.putState hget
    (hnodes.state.step (bringsOnly_of_admits hnodes hadmits hstate) hstate)

theorem attachThread_owned {outboundRequestId executorThreadId : String}
    (hs : attachThread s user sessionId outboundRequestId threadId executorThreadId = some s') :
    Owned promised s' := by
  obtain ⟨session, hsession, hs⟩ := bind_eq_some_iff.mp hs
  obtain ⟨outbound, houtbound, rfl⟩ := map_eq_some_iff.mp hs
  obtain ⟨hget, -⟩ := sessionOf_eq_some.mp hsession
  have hnodes := h.sessions session (mem_of_get? hget)
  have hnode := hnodes.state.turns outbound (mem_of_get? houtbound)
  exact h.putState hget ⟨hnodes.state.session, hnodes.state.turns,
    attachNewThread_records hnodes.state.imported hnode threadId executorThreadId⟩

theorem beginRequest_owned {request : Request}
    (hs : beginRequest cfg s user requestId sessionId request = some s') : Owned promised s' := by
  obtain ⟨session, hsession, hs⟩ := bind_eq_some_iff.mp hs
  split_ifs at hs
  obtain ⟨prepared, hprepared, rfl⟩ := map_eq_some_iff.mp hs
  obtain ⟨hget, -⟩ := sessionOf_eq_some.mp hsession
  have hnodes := h.sessions session (mem_of_get? hget)
  exact h.beginCommand hget (prepare_nodes hnodes hprepared) requestId false

theorem refreshThreads_owned {listing : List String}
    (hs : refreshThreads cfg s user requestId nodeId sessionId listing = some s') : Owned promised s' := by
  unfold refreshThreads at hs
  split_ifs at hs
  obtain ⟨session, hget, rfl⟩ := map_eq_some_iff.mp hs
  have hnodes := h.sessions session (mem_of_get? hget)
  exact h.beginCommand hget (prepareThreadSync_nodes hnodes listing) requestId true

theorem send_owned (hs : send s user requestId nodeId = some s') : Owned promised s' := by
  obtain ⟨pending, hpending, hs⟩ := bind_eq_some_iff.mp hs
  split_ifs at hs with hconnected
  obtain rfl := some.inj hs
  obtain ⟨hget, hguard⟩ := filter_eq_some_iff.mp hpending
  obtain ⟨session, hsession, hnodes, -⟩ := h.pending pending (mem_of_get? hget)
  have hmem : nodeId ∈ pending.nodeIds := List.contains_iff_mem.mp (Bool.and_eq_true_iff.mp hguard).2
  have howner := h.owner_of_connected (hnodes nodeId hmem) hconnected
  exact h.send fun _ => ⟨rfl, session, hsession, howner⟩

theorem threadsListed_owned {listed : List (Persona × CodexThreadItem)}
    (hs : threadsListed s user requestId listed = some s') : Owned promised s' := by
  obtain ⟨pending, hpending, hs⟩ := bind_eq_some_iff.mp hs
  obtain ⟨hlisted, hs⟩ := ite_none_right_eq_some.mp hs
  obtain ⟨session, hget, rfl⟩ := map_eq_some_iff.mp hs
  have hpending := (filter_eq_some_iff.mp hpending).1
  obtain ⟨known, hknown, -, hpersonas⟩ := h.pending pending (mem_of_get? hpending)
  obtain rfl : known = session := some.inj (hknown.symm.trans hget)
  have hnodes := h.sessions known (mem_of_get? hget)
  have hlistedNodes : ∀ entry ∈ listed, ∀ nodeId ∈ entry.1.executorNodeId,
      s.Owns known.owner nodeId := by
    intro entry hmem
    have hpersona := List.all_eq_true.mp hlisted entry hmem
    exact hpersonas entry.1 (List.contains_iff_mem.mp hpersona)
  refine (h.erasePending requestId).putState hget
    ⟨hnodes.state.session, hnodes.state.turns, importListed_records ?_ hlistedNodes⟩
  split_ifs
  · exact fun _ hmem => absurd hmem List.not_mem_nil
  · exact hnodes.state.imported

theorem finish_owned (hs : finish s user requestId = some s') : Owned promised s' := by
  obtain ⟨pending, -, rfl⟩ := map_eq_some_iff.mp hs
  exact h.erasePending requestId

end

/-! ## File downloads -/

theorem onlyNodeId_connected
    (h : (s.manager cfg).onlyNodeId = some nodeId) : s.connections.contains nodeId = true := by
  unfold NodeManager.onlyNodeId at h
  split at h
  · rename_i connection hentries
    obtain rfl := some.inj h
    have hmem : connection ∈ s.connections.entries := by
      rw [show s.connections.entries = [connection] from hentries]
      exact List.mem_singleton_self connection
    rw [Table.contains, Table.get?_of_mem hmem, isSome_some]
  · cases h

/-- What a download does: nothing, or it asks the thread's node or the only one there is. -/
theorem download_cases
    (hs : download cfg s user sessionId threadId thread = some s') :
    ∃ session, s.sessionOf user sessionId = some session ∧
      isFirstThread session.board session.state.imported threadId thread = true ∧
      ((s' = s ∧ ((thread.bind ProjectedThread.executorNodeId).isSome ∨
          (s.manager cfg).onlyNodeId = none)) ∨
        ∃ nodeId, (thread.bind ProjectedThread.executorNodeId).or (s.manager cfg).onlyNodeId =
            some nodeId ∧ s.connections.contains nodeId = true ∧
          s' = { s with sent := s.sent ++
            [⟨sessionId, .readWorkspaceFile, thread.bind ProjectedThread.executorNodeId,
              nodeId⟩] }) := by
  obtain ⟨session, hsession, hs⟩ := bind_eq_some_iff.mp hs
  obtain ⟨hfirst, hs⟩ := ite_none_right_eq_some.mp hs
  refine ⟨session, hsession, hfirst, ?_⟩
  simp only at hs
  split at hs
  · rename_i hnone
    obtain rfl := some.inj hs
    exact .inl ⟨rfl, .inr (or_eq_none_iff.mp hnone).2⟩
  · rename_i nodeId hnode
    split_ifs at hs with hconnected
    · obtain rfl := some.inj hs
      exact .inr ⟨nodeId, hnode, hconnected, rfl⟩
    · obtain rfl := some.inj hs
      refine .inl ⟨rfl, ?_⟩
      rcases or_eq_some_iff.mp hnode with hrecorded | ⟨-, honly⟩
      · exact .inl (by rw [hrecorded, isSome_some])
      · exact absurd (onlyNodeId_connected honly) hconnected

theorem download_owned (h : Owned promised s)
    (hc : (∀ command, promised command → command.recorded.isSome) ∨
      ((thread.bind ProjectedThread.executorNodeId).isSome ∨ (s.manager cfg).onlyNodeId = none))
    (hs : download cfg s user sessionId threadId thread = some s') : Owned promised s' := by
  obtain ⟨session, hsession, hfirst, ⟨rfl, -⟩ | ⟨nodeId, hnode, hconnected, rfl⟩⟩ :=
    download_cases hs
  · exact h
  · refine h.send fun hpromised => ?_
    have hget := (sessionOf_eq_some.mp hsession).1
    have hrecorded : thread.bind ProjectedThread.executorNodeId = some nodeId := by
      rcases or_eq_some_iff.mp hnode with hrecorded | ⟨hnone, honly⟩
      · exact hrecorded
      · rcases hc with hall | hsome | hempty
        · have hsome := hall _ hpromised
          rw [hnone] at hsome
          cases hsome
        · rw [hnone] at hsome
          cases hsome
        · rw [hempty] at honly
          cases honly
    obtain ⟨projected, rfl, hnodeId⟩ := bind_eq_some_iff.mp hrecorded
    obtain ⟨other, hmem, hsame⟩ := List.any_eq_true.mp hfirst
    have heq : other = projected := of_decide_eq_true (Bool.and_eq_true_iff.mp hsame).2
    have hnodes := h.sessions session (mem_of_get? hget)
    have howns := projectedThreads_nodes hnodes other hmem nodeId (heq ▸ hnodeId)
    exact ⟨hrecorded, session, hget, h.owner_of_connected howns hconnected⟩

/-- A download that falls back sends a command for which no node is recorded. -/
theorem namesItsNode_of_workKept {label : Label} (hs : step cfg s label = some s')
    (hkept : WorkKept s') : NamesItsNode cfg s label := by
  unfold NamesItsNode
  split
  · rename_i sessionId threadId thread haction
    simp only [step, haction] at hs
    obtain ⟨session, -, -, ⟨-, hcondition⟩ | ⟨nodeId, -, -, rfl⟩⟩ := download_cases hs
    · exact hcondition
    · have hrecorded := (hkept _ (List.mem_append_right _ (List.mem_singleton_self _))).1
      exact .inl (isSome_iff_exists.mpr ⟨nodeId, hrecorded⟩)
  · trivial

/-! ## Every run -/

theorem Owned.step (h : Owned promised s) {label : Label}
    (hc : (∀ command, promised command → command.recorded.isSome) ∨ NamesItsNode cfg s label)
    (hs : step cfg s label = some s') : Owned promised s' := by
  obtain ⟨user, action⟩ := label
  cases action with
  | createSession sessionId => exact createSession_owned h hs
  | createNode nodeId name enabledExecutors => exact createNode_owned h hs
  | updateNode nodeId name enabledExecutors => exact updateNode_owned h hs
  | deleteNode nodeId => exact deleteNode_owned h hs
  | register connection => exact register_owned h hs
  | disconnect nodeId => exact disconnect_owned h hs
  | requeueScan nodeId sessionId => exact requeueScan_owned h hs
  | refreshThreads requestId nodeId sessionId listing => exact refreshThreads_owned h hs
  | putPersona persona => exact putPersona_owned h hs
  | deletePersona personaId => exact deletePersona_owned h hs
  | readPersonas requestId sessionId => exact readPersonas_owned h hs
  | syncPersonas requestId => exact syncPersonas_owned h hs
  | session sessionId label => exact sessionStep_owned h hs
  | attachThread sessionId outboundRequestId threadId executorThreadId =>
    exact attachThread_owned h hs
  | request requestId sessionId request => exact beginRequest_owned h hs
  | send requestId nodeId => exact send_owned h hs
  | threadsListed requestId listed => exact threadsListed_owned h hs
  | finish requestId => exact finish_owned h hs
  | download sessionId threadId thread => exact download_owned h hc hs

theorem initialServer_owned : Owned promised initialServer := by
  have hnone : ∀ {α : Type} {Q : α → Prop}, ∀ x ∈ ([] : List α), Q x :=
    fun _ hmem => absurd hmem List.not_mem_nil
  exact ⟨hnone, hnone, hnone, hnone, hnone, hnone, hnone⟩

end

/-- Every command for a session goes to a node that is recorded for it and that its owner
owns, in every state of a run, exactly when each file download of the run names a thread
that has a node, or finds no node to fall back to. -/
theorem work_kept_iff (cfg : Config) (labels : List Label) :
    (system cfg).Always WorkKept initialServer labels ↔
      (system cfg).Along (NamesItsNode cfg) initialServer labels := by
  have hkeeps : ∀ s label s', Owned (fun _ => True) s → NamesItsNode cfg s label →
      step cfg s label = some s' → Owned (fun _ => True) s' :=
    fun s label s' howned hc hs => howned.step (.inr hc) hs
  constructor
  · intro h
    exact h.along (Q := fun _ _ => True) hkeeps
      (fun s label s' _ _ hs hkept => namesItsNode_of_workKept hs hkept) initialServer_owned
      (System.along_true ..)
  · intro h
    have howned := h.always (I := Owned fun _ => True) initialServer_owned hkeeps
    exact howned.mono fun s howned command hmem => howned.sent command hmem trivial

def smallConfig : Config := ⟨Snapshots.smallConfig, ["codex"]⟩

def alicePersona : Persona :=
  { personaId := "bro-1", name := "Ada", executorNodeId := some "node-1" }

/-- A finished turn of the imported thread, whose answer names a file. -/
def aliceTurn : TimelineTurn where
  turnId := "turn-1"
  threadId := "codex-import-1"
  personaId := "bro-1"
  executorId := "codex"
  clientRequestId := none
  executorThreadId := some "native-1"
  executorTurnId := some "native-turn-1"
  inputModality := .text
  user := none
  assistant := some ⟨"m-1", false, some "/work/report.pdf", none, none, "completed", Table.empty, none⟩
  status := .completed
  metadata := Table.empty

/-- A user imports a thread from her node, which disconnects; then the node of another user
connects. -/
def strangerLabels : List Label :=
  [⟨"alice", .createSession "s-1"⟩,
    ⟨"alice", .createNode "node-1" "Mac" ["codex"]⟩,
    ⟨"alice", .putPersona alicePersona⟩,
    ⟨"alice", .readPersonas "list-1" "s-1"⟩,
    ⟨"alice", .syncPersonas "list-1"⟩,
    ⟨"alice", .register ⟨"node-1", "ws-1", ["codex"]⟩⟩,
    ⟨"alice", .refreshThreads "sync-1" "node-1" "s-1" ["node-1"]⟩,
    ⟨"alice", .send "sync-1" "node-1"⟩,
    ⟨"alice", .threadsListed "sync-1" [(alicePersona, ⟨"codex-import-1", "native-1", none⟩)]⟩,
    ⟨"alice", .session "s-1" (.updateThreadTurns "codex-import-1" fun _ => [aliceTurn])⟩,
    ⟨"alice", .disconnect "node-1"⟩,
    ⟨"bob", .createNode "node-2" "PC" ["codex"]⟩,
    ⟨"bob", .register ⟨"node-2", "ws-2", ["codex"]⟩⟩,
    ⟨"bob", .refreshThreads "sync-2" "node-2" "s-1" ["node-2"]⟩,
    ⟨"alice", .download "s-1" "codex-import-1" none⟩]

/-- The file that alice asks for is read on the node of bob. -/
theorem download_reaches_stranger : ¬ ∀ (cfg : Config) (labels : List Label),
      (system cfg).Always WorkKept initialServer labels := by
  intro h
  have hrun : ((system smallConfig).run initialServer strangerLabels).map (fun s =>
        (s.sent.getLast?, (s.sessions.get? "s-1").map UserSession.owner, s.nodeOwner "node-2")) =
      some (some ⟨"s-1", .readWorkspaceFile, none, "node-2"⟩, some "alice", some "bob") := by decide
  obtain ⟨s, hs, hsent⟩ := map_eq_some_iff.mp hrun
  obtain ⟨hlast, hrest⟩ := Prod.mk.inj hsent
  obtain ⟨hsession, howner⟩ := Prod.mk.inj hrest
  have hkept := (h smallConfig strangerLabels).at_end hs
  obtain ⟨-, session, hget, hnode⟩ := hkept _ (List.mem_of_getLast? hlast)
  rw [hget] at hsession
  rw [howner, some.inj hsession] at hnode
  exact absurd hnode (by decide)

/-- Whatever users ask for, what is recorded for them names their own nodes, and a command for a
session goes to the node that is recorded for it, if one is. -/
theorem recorded_nodes_own (cfg : Config) (labels : List Label) :
    (system cfg).Always (Owned fun command => command.recorded.isSome) initialServer labels :=
  (System.along_true initialServer labels).always initialServer_owned fun _ _ _ h _ hs =>
    h.step (.inl fun _ => id) hs

end Newbro.Users
