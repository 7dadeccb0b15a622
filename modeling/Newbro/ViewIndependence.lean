import Newbro.OwnPart

/-!
# A user's view and other users

What others do is not seen in the part of the server that a user has, as long as it leaves
her sessions alone, and what she does changes this part alike in two runs. So she sees the
same in both, except where the shared node manager answers for the nodes of others.
-/
namespace Newbro.Users

open Library Protocol OutboundTurns ExecutorNodes
  Snapshots NodeRequests SessionRuntime Option Table

universe u

variable {session : UserSession} {sessionId nodeId name requestId personaId : String}
   {enabledExecutors : List String} {node : NodeRecord}

variable {node' : NodeRecord} {connection : NodeConnection} {persona : Persona} {threadId : String}
   {label : Label}

section

variable {promised : SentCommand → Prop} {cfg : Config} {s s' : Server} {user actor : String}

/-! ## What others do -/

theorem OwnPart.putSession_of_get {o : OwnPart}
    (h : o.sessions session.sessionId = some session) : o.putSession session = o := by
  rw [OwnPart.putSession, ← h, Function.update_eq_self]

/-- A session that is stored as it was. -/
theorem putSession_same
    (hget : s.sessions.get? sessionId = some session) (howner : session.owner = user) :
    (ownPart user s).putSession session = ownPart user s := by
  refine OwnPart.putSession_of_get ?_
  rw [key_of_get? hget]
  exact sessionOf_eq_some.mpr ⟨hget, howner⟩

section

variable (h : Owned promised s)
include h

theorem createSession_unseen (hne : actor ≠ user)
    (hs : createSession s actor sessionId = some s') : ownPart user s' = ownPart user s := by
  unfold createSession at hs
  split_ifs at hs with hknown
  obtain rfl := some.inj hs
  refine (ownPart_putSession h _ fun old hold => ?_).trans (if_neg hne)
  exact absurd (isSome_iff_exists.mpr ⟨old, hold⟩) hknown

theorem createNode_unseen (hne : actor ≠ user)
    (hs : createNode s actor nodeId name enabledExecutors = some s') :
    ownPart user s' = ownPart user s := by
  unfold createNode at hs
  split_ifs at hs with hknown
  obtain rfl := some.inj hs
  simp only [Bool.or_eq_true, decide_eq_true_eq, not_or] at hknown
  refine (ownPart_putNode h _ fun old hold => ?_).trans (if_neg hne)
  exact absurd (isSome_iff_exists.mpr ⟨old, hold⟩) hknown.1

/-- A node of someone that is renamed or deleted keeps its owner. -/
theorem ownPart_putNodeOf
    (hget : s.nodeOf actor nodeId = some node) (hid : node'.nodeId = node.nodeId)
    (howner : node'.owner = node.owner) :
    ownPart user { s with nodes := s.nodes.put node' } =
      if actor = user then (ownPart user s).putNode node' else ownPart user s := by
  obtain ⟨hnode, hactor, -⟩ := nodeOf_eq_some.mp hget
  rw [ownPart_putNode h node', howner, hactor]
  intro old hold
  rw [hid, key_of_get? hnode, hnode] at hold
  rw [← some.inj hold, howner]

theorem updateNode_unseen (hne : actor ≠ user)
    (hs : updateNode s actor nodeId name enabledExecutors = some s') :
    ownPart user s' = ownPart user s := by
  obtain ⟨node, hnode, rfl⟩ := map_eq_some_iff.mp hs
  refine (ownPart_putNodeOf h hnode ?_ ?_).trans (if_neg hne)
  · rfl
  · rfl

theorem deleteNode_unseen (hne : actor ≠ user)
    (hs : deleteNode s actor nodeId = some s') : ownPart user s' = ownPart user s := by
  obtain ⟨node, hnode, hs⟩ := bind_eq_some_iff.mp hs
  split_ifs at hs
  obtain rfl := some.inj hs
  refine (ownPart_putNodeOf h hnode ?_ ?_).trans (if_neg hne)
  · rfl
  · rfl

end

theorem ownsNode_of_other (hne : actor ≠ user)
    (howner : s.nodeOwner nodeId = some actor) : s.ownsNode user nodeId = false := by
  simp [Server.ownsNode, howner, hne]

theorem register_unseen (hne : actor ≠ user)
    (hs : register cfg s actor connection = some s') : ownPart user s' = ownPart user s := by
  obtain ⟨node, hnode, hs⟩ := bind_eq_some_iff.mp hs
  obtain ⟨manager, hmanager, rfl⟩ := map_eq_some_iff.mp hs
  obtain ⟨-, rfl⟩ := registerConnection_cases hmanager
  obtain ⟨hget, hactor, -⟩ := nodeOf_eq_some.mp hnode
  have howner : s.nodeOwner connection.nodeId = some actor := by rw [nodeOwner_of_get? hget, hactor]
  refine (ownPart_putConnection connection).trans (if_neg ?_)
  rw [ownsNode_of_other hne howner]
  exact Bool.false_ne_true

theorem disconnect_unseen (hne : actor ≠ user)
    (hs : disconnect s actor nodeId = some s') : ownPart user s' = ownPart user s := by
  unfold disconnect at hs
  split_ifs at hs with howner
  obtain rfl := some.inj hs
  exact ownPart_eraseConnection_of_foreign (ownsNode_of_other hne howner)

/-- A scan that finds nothing to queue leaves the store as it is. -/
theorem requeueWaiting_eq_self {b : Blackboard} {connected : String → Option String → Bool}
    (h : ∀ task ∈ b.tasks.entries, requeueable connected task = false) :
    requeueWaitingExecutorTasks b connected = b := by
  have hfold : ∀ tasks : List Task, (∀ task ∈ tasks, requeueable connected task = false) →
      tasks.foldl (requeueTask connected) b = b := by
    intro tasks
    induction tasks with
    | nil => exact fun _ => rfl
    | cons task tasks ih =>
      intro htasks
      have hhead : requeueTask connected b task = b := by
        simp [requeueTask, htasks task List.mem_cons_self]
      rw [List.foldl_cons, hhead]
      exact ih fun other hmem => htasks other (List.mem_cons_of_mem _ hmem)
  exact hfold _ h

theorem requeueScan_unseen (h : Owned promised s)
    (halone : leavesAlone cfg user s ⟨actor, .requeueScan nodeId sessionId⟩)
    (hs : requeueScan cfg s actor nodeId sessionId = some s') :
    ownPart user s' = ownPart user s := by
  unfold requeueScan at hs
  split_ifs at hs
  obtain ⟨session, hget, rfl⟩ := map_eq_some_iff.mp hs
  refine (ownPart_putState user h hget _).trans ?_
  split_ifs with howner
  · have hsession : s.sessionOf user sessionId = some session :=
      sessionOf_eq_some.mpr ⟨hget, howner⟩
    have hboard := requeueWaiting_eq_self (halone session hsession)
    rw [hboard]
    exact putSession_same hget howner
  · rfl

theorem refreshThreads_unseen (h : Owned promised s) (hne : actor ≠ user) {listing : List String}
    (halone : leavesAlone cfg user s ⟨actor, .refreshThreads requestId nodeId sessionId listing⟩)
    (hs : refreshThreads cfg s actor requestId nodeId sessionId listing = some s') :
    ownPart user s' = ownPart user s := by
  unfold refreshThreads at hs
  split_ifs at hs with hguard
  obtain ⟨session, hget, rfl⟩ := map_eq_some_iff.mp hs
  have hfresh : s.pending.get? requestId = none := by
    simpa [Table.contains] using (Bool.and_eq_true_iff.mp hguard).2
  have hnodes := h.sessions session (mem_of_get? hget)
  rw [ownPart_beginCommand h hget (prepareThreadSync_nodes hnodes listing) hfresh, if_neg hne]
  split_ifs with howner
  · have hsession : s.sessionOf user sessionId = some session :=
      sessionOf_eq_some.mpr ⟨hget, howner⟩
    have hsame : (prepareThreadSync (s.manager cfg) session listing).session = session := by
      rcases halone session hsession with hpersonas | hempty
      · simp [prepareThreadSync, hpersonas]
      · simp only [prepareThreadSync, hempty, ite_self]
        rw [← hempty]
    rw [hsame]
    exact putSession_same hget howner
  · rfl

theorem putPersona_unseen (hne : actor ≠ user)
    (hs : putPersona s actor persona = some s') : ownPart user s' = ownPart user s := by
  unfold putPersona at hs
  split_ifs at hs
  obtain rfl := some.inj hs
  exact (ownPart_putPersonas actor _).trans (if_neg hne)

theorem deletePersona_unseen (hne : actor ≠ user)
    (hs : deletePersona s actor personaId = some s') : ownPart user s' = ownPart user s := by
  unfold deletePersona at hs
  split_ifs at hs
  obtain rfl := some.inj hs
  exact (ownPart_putPersonas actor _).trans (if_neg hne)

theorem readPersonas_unseen (hne : actor ≠ user)
    (hs : readPersonas s actor requestId sessionId = some s') :
    ownPart user s' = ownPart user s := by
  obtain ⟨session, -, hs⟩ := bind_eq_some_iff.mp hs
  split_ifs at hs with hfresh
  obtain rfl := some.inj hs
  refine (ownPart_putListing ?_).trans (if_neg hne)
  simpa [Table.contains] using hfresh

section

variable (h : Owned promised s)
include h

/-- A session of someone else may be stored as it likes. -/
theorem putState_unseen (hne : actor ≠ user)
    (hsession : s.sessionOf actor sessionId = some session)
    (state : Snapshots.State) :
    ownPart user (s.putSession { session with state := state }) = ownPart user s := by
  obtain ⟨hget, howner⟩ := sessionOf_eq_some.mp hsession
  refine (ownPart_putState user h hget state).trans (if_neg ?_)
  rw [howner]
  exact hne

theorem syncPersonas_unseen (hne : actor ≠ user)
    (hs : syncPersonas s actor requestId = some s') : ownPart user s' = ownPart user s := by
  obtain ⟨listing, hlisting, hs⟩ := bind_eq_some_iff.mp hs
  obtain ⟨session, hsession, rfl⟩ := map_eq_some_iff.mp hs
  refine (putState_unseen (h.eraseListing requestId) hne hsession _).trans ?_
  rw [ownPart_eraseListing]
  refine OwnPart.eraseListing_of_none ?_
  obtain ⟨hget, hactor⟩ := filter_eq_some_iff.mp hlisting
  have hother : listing.user ≠ user := by
    rw [of_decide_eq_true hactor]
    exact hne
  simp [ownPart, hget, hother]

theorem sessionStep_unseen (hne : actor ≠ user)
    {label : Snapshots.Label} (hs : sessionStep cfg s actor sessionId label = some s') :
    ownPart user s' = ownPart user s := by
  obtain ⟨session, hsession, hs⟩ := bind_eq_some_iff.mp hs
  split_ifs at hs
  obtain ⟨state, -, rfl⟩ := map_eq_some_iff.mp hs
  exact putState_unseen h hne hsession state

theorem attachThread_unseen (hne : actor ≠ user)
    {outboundRequestId executorThreadId : String}
    (hs : attachThread s actor sessionId outboundRequestId threadId executorThreadId = some s') :
    ownPart user s' = ownPart user s := by
  obtain ⟨session, hsession, hs⟩ := bind_eq_some_iff.mp hs
  obtain ⟨outbound, -, rfl⟩ := map_eq_some_iff.mp hs
  exact putState_unseen h hne hsession _

theorem beginRequest_unseen (hne : actor ≠ user) {request : Request}
    (hs : beginRequest cfg s actor requestId sessionId request = some s') :
    ownPart user s' = ownPart user s := by
  obtain ⟨session, hsession, hs⟩ := bind_eq_some_iff.mp hs
  split_ifs at hs with hfresh
  obtain ⟨prepared, hprepared, rfl⟩ := map_eq_some_iff.mp hs
  obtain ⟨hget, howner⟩ := sessionOf_eq_some.mp hsession
  have hnodes := prepare_nodes (h.sessions session (mem_of_get? hget)) hprepared
  have hnone : s.pending.get? requestId = none := by simpa [Table.contains] using hfresh
  refine (ownPart_beginCommand h hget hnodes hnone actor false).trans (if_neg ?_)
  rw [howner]
  exact hne

end

theorem send_unseen (hs : send s actor requestId nodeId = some s') :
    ownPart user s' = ownPart user s := by
  obtain ⟨pending, -, hs⟩ := bind_eq_some_iff.mp hs
  split_ifs at hs
  obtain rfl := some.inj hs
  rfl

/-- The command of someone else is not among those of the user. -/
theorem erasePending_unseen (hne : actor ≠ user) {pending : PendingCommand}
    (hpending : (s.pending.get? requestId).filter (fun pending => pending.user = actor) =
      some pending) :
    ownPart user { s with pending := s.pending.erase requestId } = ownPart user s := by
  rw [ownPart_erasePending]
  refine OwnPart.erasePending_of_none ?_
  obtain ⟨hget, hactor⟩ := filter_eq_some_iff.mp hpending
  have hother : pending.user ≠ user := by
    rw [of_decide_eq_true hactor]
    exact hne
  simp [ownPart, hget, hother]

theorem threadsListed_unseen (h : Owned promised s) (hne : actor ≠ user)
    {listed : List (Persona × CodexThreadItem)}
    (halone : leavesAlone cfg user s ⟨actor, .threadsListed requestId listed⟩)
    (hs : threadsListed s actor requestId listed = some s') : ownPart user s' = ownPart user s := by
  obtain ⟨pending, hpending, hs⟩ := bind_eq_some_iff.mp hs
  obtain ⟨-, hs⟩ := ite_none_right_eq_some.mp hs
  obtain ⟨session, hget, rfl⟩ := map_eq_some_iff.mp hs
  refine (ownPart_putState user (h.erasePending requestId) hget _).trans ?_
  rw [erasePending_unseen hne hpending]
  by_cases howner : session.owner = user
  · rw [if_pos howner]
    have hsession : s.sessionOf user pending.sessionId = some session :=
      sessionOf_eq_some.mpr ⟨hget, howner⟩
    have hsame := halone pending (filter_eq_some_iff.mp hpending).1 session hsession
    rw [hsame]
    exact putSession_same hget howner
  · rw [if_neg howner]

theorem finish_unseen (hne : actor ≠ user)
    (hs : finish s actor requestId = some s') : ownPart user s' = ownPart user s := by
  obtain ⟨pending, hpending, rfl⟩ := map_eq_some_iff.mp hs
  exact erasePending_unseen hne hpending

theorem download_unseen {thread : Option ProjectedThread}
    (hs : download cfg s actor sessionId threadId thread = some s') :
    ownPart user s' = ownPart user s := by
  obtain ⟨-, -, -, ⟨rfl, -⟩ | ⟨-, -, -, rfl⟩⟩ := download_cases hs <;> rfl

/-- What another user does is not seen when it leaves the sessions of the user alone. -/
theorem step_unseen (h : Owned promised s) (hne : label.user ≠ user)
    (halone : leavesAlone cfg user s label) (hs : step cfg s label = some s') :
    ownPart user s' = ownPart user s := by
  obtain ⟨actor, action⟩ := label
  cases action with
  | createSession sessionId => exact createSession_unseen h hne hs
  | createNode nodeId name enabledExecutors => exact createNode_unseen h hne hs
  | updateNode nodeId name enabledExecutors => exact updateNode_unseen h hne hs
  | deleteNode nodeId => exact deleteNode_unseen h hne hs
  | register connection => exact register_unseen hne hs
  | disconnect nodeId => exact disconnect_unseen hne hs
  | requeueScan nodeId sessionId => exact requeueScan_unseen h halone hs
  | refreshThreads requestId nodeId sessionId listing => exact refreshThreads_unseen h hne halone hs
  | putPersona persona => exact putPersona_unseen hne hs
  | deletePersona personaId => exact deletePersona_unseen hne hs
  | readPersonas requestId sessionId => exact readPersonas_unseen hne hs
  | syncPersonas requestId => exact syncPersonas_unseen h hne hs
  | session sessionId label => exact sessionStep_unseen h hne hs
  | attachThread sessionId outboundRequestId threadId executorThreadId =>
    exact attachThread_unseen h hne hs
  | request requestId sessionId request => exact beginRequest_unseen h hne hs
  | send requestId nodeId => exact send_unseen hs
  | threadsListed requestId listed => exact threadsListed_unseen h hne halone hs
  | finish requestId => exact finish_unseen hne hs
  | download sessionId threadId thread => exact download_unseen hs

end

/-! ## What the user does

In two servers in which the user has the same, her action leaves her the same. -/

section

variable {promised : SentCommand → Prop} {cfg : Config} {s t : Server} {user : String}

theorem sessionOf_alike (heq : ownPart user s = ownPart user t) (sessionId : String) :
    s.sessionOf user sessionId = t.sessionOf user sessionId :=
  congrFun (congrArg OwnPart.sessions heq) sessionId

theorem personasOf_alike (heq : ownPart user s = ownPart user t) :
    s.personasOf user = t.personasOf user := congrArg OwnPart.personas heq

theorem nodeOf_eq (s : Server) (user nodeId : String) :
    s.nodeOf user nodeId = ((ownPart user s).nodes nodeId).filter NodeRecord.registered := by
  simp only [Server.nodeOf, ownPart]
  rw [filter_filter]

section

variable (heq : ownPart user s = ownPart user t)
include heq

theorem nodeOf_alike (nodeId : String) :
    s.nodeOf user nodeId = t.nodeOf user nodeId := by rw [nodeOf_eq, nodeOf_eq, heq]

theorem ownsNode_alike (nodeId : String) :
    s.ownsNode user nodeId = t.ownsNode user nodeId := by rw [ownsNode_eq, ownsNode_eq, heq]

theorem nodeOwner_alike (nodeId : String) :
    s.nodeOwner nodeId = some user ↔ t.nodeOwner nodeId = some user := by
  rw [← ownsNode_iff, ← ownsNode_iff, ownsNode_alike heq]

theorem connection_alike (hown : s.ownsNode user nodeId = true) :
    s.connections.get? nodeId = t.connections.get? nodeId := by
  have hconnections : ownConnections s user = ownConnections t user :=
    congrArg OwnPart.connections heq
  have hown' : t.ownsNode user nodeId = true := (ownsNode_alike heq nodeId).symm.trans hown
  rw [← Table.get?_restrict (t := s.connections) (q := s.ownsNode user) hown,
    ← Table.get?_restrict (t := t.connections) (q := t.ownsNode user) hown']
  exact congrArg (fun connections => Table.get? connections nodeId) hconnections

end

/-! ### Sessions, nodes and personas -/

section

variable (h : Owned promised s)
include h

theorem createSession_alike (h' : Owned promised t) (heq : ownPart user s = ownPart user t)
    (hs : s.sessions.contains sessionId = false) (ht : t.sessions.contains sessionId = false) :
    ownPart user ((createSession s user sessionId).getD s) =
      ownPart user ((createSession t user sessionId).getD t) := by
  have hfresh : ∀ {r : Server}, r.sessions.contains sessionId = false →
      ∀ old, r.sessions.get? (newSession sessionId user).sessionId = some old →
        old.owner = (newSession sessionId user).owner := by
    intro r hr old hold
    rw [Table.contains, show r.sessions.get? sessionId = some old from hold] at hr
    cases hr
  simp only [createSession, hs, ht, Bool.false_eq_true, if_false, getD_some]
  rw [ownPart_putSession h _ (hfresh hs), ownPart_putSession h' _ (hfresh ht), heq]

theorem createNode_alike (h' : Owned promised t) (heq : ownPart user s = ownPart user t)
    (hs : s.nodes.contains nodeId = false) (ht : t.nodes.contains nodeId = false) :
    ownPart user ((createNode s user nodeId name enabledExecutors).getD s) =
      ownPart user ((createNode t user nodeId name enabledExecutors).getD t) := by
  have hfresh : ∀ {r : Server}, r.nodes.contains nodeId = false →
      ∀ old, r.nodes.get? nodeId = some old → old.owner = user := by
    intro r hr old hold
    rw [Table.contains, hold] at hr
    cases hr
  simp only [createNode, hs, ht, Bool.false_or, decide_eq_true_eq]
  split_ifs
  · exact heq
  · simp only [getD_some]
    rw [ownPart_putNode h ⟨nodeId, user, name, enabledExecutors, true⟩ (hfresh hs),
      ownPart_putNode h' ⟨nodeId, user, name, enabledExecutors, true⟩ (hfresh ht), heq]

theorem putNodeOf_alike (h' : Owned promised t)
    (heq : ownPart user s = ownPart user t)
    (hnode : s.nodeOf user nodeId = some node) (hid : node'.nodeId = node.nodeId)
    (howner : node'.owner = node.owner) :
    ownPart user { s with nodes := s.nodes.put node' } =
      ownPart user { t with nodes := t.nodes.put node' } := by
  have hnode' : t.nodeOf user nodeId = some node := (nodeOf_alike heq nodeId).symm.trans hnode
  rw [ownPart_putNodeOf h hnode hid howner, ownPart_putNodeOf h' hnode' hid howner, heq]

theorem updateNode_alike (h' : Owned promised t)
    (heq : ownPart user s = ownPart user t) (nodeId name : String)
    (enabledExecutors : List String) :
    ownPart user ((updateNode s user nodeId name enabledExecutors).getD s) =
      ownPart user ((updateNode t user nodeId name enabledExecutors).getD t) := by
  unfold updateNode
  rw [← nodeOf_alike heq nodeId]
  cases hnode : s.nodeOf user nodeId with
  | none => exact heq
  | some node =>
    refine putNodeOf_alike h h' heq hnode ?_ ?_
    · rfl
    · rfl

/-- The personas that are bound to a node of the user are in sessions of hers. -/
theorem boundToNode_iff (hnode : s.nodeOf user nodeId = some node) :
    boundToNode s nodeId = true ↔ ∃ sessionId session, s.sessionOf user sessionId = some session ∧
      ∃ persona ∈ session.board.personas.entries, persona.executorNodeId = some nodeId := by
  obtain ⟨hget, howner, -⟩ := nodeOf_eq_some.mp hnode
  simp only [boundToNode, List.any_eq_true, decide_eq_true_eq]
  constructor
  · rintro ⟨session, hmem, persona, hpersona, hbound⟩
    refine ⟨session.sessionId, session, sessionOf_eq_some.mpr ⟨Table.get?_of_mem hmem, ?_⟩,
      persona, hpersona, hbound⟩
    rcases (h.sessions session hmem).board.2.2.1 persona hpersona nodeId hbound with hempty | howns
    · exact absurd ((key_of_get? hget).trans hempty) (h.named node (mem_of_get? hget))
    · rw [nodeOwner_of_get? hget, howner] at howns
      exact (some.inj howns).symm
  · rintro ⟨sessionId, session, hsession, persona, hpersona, hbound⟩
    have hmem := mem_of_get? (sessionOf_eq_some.mp hsession).1
    exact ⟨session, hmem, persona, hpersona, hbound⟩

theorem deleteNode_alike (h' : Owned promised t)
    (heq : ownPart user s = ownPart user t) (nodeId : String) :
    ownPart user ((deleteNode s user nodeId).getD s) =
      ownPart user ((deleteNode t user nodeId).getD t) := by
  unfold deleteNode
  rw [← nodeOf_alike heq nodeId]
  cases hnode : s.nodeOf user nodeId with
  | none => exact heq
  | some node =>
    have hnode' : t.nodeOf user nodeId = some node := (nodeOf_alike heq nodeId).symm.trans hnode
    have hbound : boundToNode s nodeId = boundToNode t nodeId := by
      rw [Bool.eq_iff_iff, boundToNode_iff h hnode, boundToNode_iff h' hnode']
      simp only [sessionOf_alike heq]
    simp only [bind_some, hbound]
    split_ifs
    · exact heq
    · refine putNodeOf_alike h h' heq hnode ?_ ?_
      · rfl
      · rfl

end

/-- A node registers unless it is connected over another websocket. -/
theorem register_of_node
    (hnode : s.nodeOf user connection.nodeId = some node) :
    register cfg s user connection =
      if (s.connections.get? connection.nodeId).any fun existing =>
        existing.websocket ≠ connection.websocket then none
      else some { s with connections := s.connections.put connection } := by
  unfold register NodeManager.registerConnection
  rw [hnode, bind_some]
  by_cases htaken : ((s.connections.get? connection.nodeId).any fun existing =>
      existing.websocket ≠ connection.websocket) = true
  · simp only [Server.manager, htaken, if_true, map_none]
  · simp only [Server.manager, htaken, if_false, map_some, Bool.false_eq_true]

section

variable (heq : ownPart user s = ownPart user t)
include heq

theorem register_alike (connection : NodeConnection) :
    ownPart user ((register cfg s user connection).getD s) =
      ownPart user ((register cfg t user connection).getD t) := by
  cases hnode : s.nodeOf user connection.nodeId with
  | none =>
    rw [register, register, ← nodeOf_alike heq, hnode]
    exact heq
  | some node =>
    have hnode' : t.nodeOf user connection.nodeId = some node :=
      (nodeOf_alike heq connection.nodeId).symm.trans hnode
    obtain ⟨hget, howner, -⟩ := nodeOf_eq_some.mp hnode
    have howns : s.ownsNode user connection.nodeId = true := by
      rw [ownsNode_iff, nodeOwner_of_get? hget, howner]
    rw [register_of_node hnode, register_of_node hnode', ← connection_alike heq howns]
    split_ifs
    · exact heq
    · simp only [getD_some]
      rw [ownPart_putConnection, ownPart_putConnection, ← ownsNode_alike heq, heq]

theorem disconnect_alike (nodeId : String) : ownPart user ((disconnect s user nodeId).getD s) =
      ownPart user ((disconnect t user nodeId).getD t) := by
  simp only [disconnect, nodeOwner_alike heq]
  split_ifs
  · simp only [getD_some]
    rw [ownPart_eraseConnection, ownPart_eraseConnection, heq]
  · exact heq

theorem putPersonas_alike (personas : Table Persona.personaId) :
    ownPart user (s.putPersonas user personas) = ownPart user (t.putPersonas user personas) := by
  rw [ownPart_putPersonas, ownPart_putPersonas, if_pos rfl, if_pos rfl, heq]

theorem putPersona_alike (persona : Persona) : ownPart user ((putPersona s user persona).getD s) =
      ownPart user ((putPersona t user persona).getD t) := by
  have hguard : (persona.executorNodeId.all fun nodeId => s.nodeOwner nodeId = some user) =
      persona.executorNodeId.all fun nodeId => t.nodeOwner nodeId = some user := by
    simp only [nodeOwner_alike heq]
  simp only [putPersona, hguard, personasOf_alike heq]
  split_ifs
  · exact putPersonas_alike heq _
  · exact heq

end

/-- A busy persona that no one else's session knows is busy in a session of the user. -/
theorem personaIsBusy_iff
    (hunknown : issues s user (.deletePersona personaId) = true) :
    personaIsBusy s personaId = true ↔ ∃ sessionId session,
      s.sessionOf user sessionId = some session ∧
        ((session.board.getPersona personaId).any fun persona => persona.status = .busy) = true := by
  simp only [personaIsBusy, List.any_eq_true]
  constructor
  · rintro ⟨session, hmem, hbusy⟩
    refine ⟨session.sessionId, session, sessionOf_eq_some.mpr ⟨Table.get?_of_mem hmem, ?_⟩, hbusy⟩
    have hknown := List.all_eq_true.mp hunknown session hmem
    rw [Bool.or_eq_true, decide_eq_true_eq] at hknown
    refine hknown.resolve_right fun hnone => ?_
    have hget : session.board.getPersona personaId = none := by
      simpa [Table.contains, Blackboard.getPersona] using hnone
    rw [hget] at hbusy
    cases hbusy
  · rintro ⟨sessionId, session, hsession, hbusy⟩
    exact ⟨session, mem_of_get? (sessionOf_eq_some.mp hsession).1, hbusy⟩

theorem deletePersona_alike (heq : ownPart user s = ownPart user t)
    (hs : issues s user (.deletePersona personaId) = true)
    (ht : issues t user (.deletePersona personaId) = true) :
    ownPart user ((deletePersona s user personaId).getD s) =
      ownPart user ((deletePersona t user personaId).getD t) := by
  have hbusy : personaIsBusy s personaId = personaIsBusy t personaId := by
    rw [Bool.eq_iff_iff, personaIsBusy_iff hs, personaIsBusy_iff ht]
    simp only [sessionOf_alike heq]
  simp only [deletePersona, hbusy, personasOf_alike heq]
  split_ifs
  · exact heq
  · exact putPersonas_alike heq _

theorem readPersonas_alike (heq : ownPart user s = ownPart user t)
    (hs : s.listings.contains requestId = false) (ht : t.listings.contains requestId = false) :
    ownPart user ((readPersonas s user requestId sessionId).getD s) =
      ownPart user ((readPersonas t user requestId sessionId).getD t) := by
  simp only [readPersonas, hs, ht, personasOf_alike heq, ← sessionOf_alike heq]
  cases s.sessionOf user sessionId with
  | none => exact heq
  | some session =>
    have hnone : ∀ {r : Server}, r.listings.contains requestId = false →
        r.listings.get? requestId = none := by
      intro r hr
      simpa [Table.contains] using hr
    simp only [bind_some, Bool.false_eq_true, if_false, getD_some]
    rw [ownPart_putListing, ownPart_putListing, heq]
    · exact hnone ht
    · exact hnone hs

/-! ### Steps of a session -/

theorem putState_alike (h : Owned promised s) (h' : Owned promised t)
    (heq : ownPart user s = ownPart user t)
    (hsession : s.sessionOf user sessionId = some session) (state : Snapshots.State) :
    ownPart user (s.putSession { session with state := state }) =
      ownPart user (t.putSession { session with state := state }) := by
  have hsession' : t.sessionOf user sessionId = some session :=
    (sessionOf_alike heq sessionId).symm.trans hsession
  rw [ownPart_putState user h (sessionOf_eq_some.mp hsession).1,
    ownPart_putState user h' (sessionOf_eq_some.mp hsession').1, heq]

theorem syncPersonas_alike (h : Owned promised s) (h' : Owned promised t)
    (heq : ownPart user s = ownPart user t) (requestId : String) :
    ownPart user ((syncPersonas s user requestId).getD s) =
      ownPart user ((syncPersonas t user requestId).getD t) := by
  have hlistings : (s.listings.get? requestId).filter (fun listing => listing.user = user) =
      (t.listings.get? requestId).filter fun listing => listing.user = user :=
    congrFun (congrArg OwnPart.listings heq) requestId
  unfold syncPersonas
  rw [← hlistings]
  cases (s.listings.get? requestId).filter fun listing => listing.user = user with
  | none => exact heq
  | some listing =>
    simp only [bind_some, ← sessionOf_alike heq]
    cases hsession : s.sessionOf user listing.sessionId with
    | none => exact heq
    | some session =>
      have herased : ownPart user { s with listings := s.listings.erase requestId } =
          ownPart user { t with listings := t.listings.erase requestId } := by
        rw [ownPart_eraseListing, ownPart_eraseListing, heq]
      exact putState_alike (h.eraseListing requestId) (h'.eraseListing requestId) herased
        hsession _

theorem sessionStep_alike (h : Owned promised s) (h' : Owned promised t)
    (heq : ownPart user s = ownPart user t) (sessionId : String) (label : Snapshots.Label) :
    ownPart user ((sessionStep cfg s user sessionId label).getD s) =
      ownPart user ((sessionStep cfg t user sessionId label).getD t) := by
  unfold sessionStep
  rw [← sessionOf_alike heq]
  cases hsession : s.sessionOf user sessionId with
  | none => exact heq
  | some session =>
    simp only [bind_some]
    split_ifs
    · cases Snapshots.step cfg.snapshots session.state label with
      | none => exact heq
      | some state => exact putState_alike h h' heq hsession state
    · exact heq

theorem attachThread_alike (h : Owned promised s) (h' : Owned promised t)
    (heq : ownPart user s = ownPart user t)
    (sessionId outboundRequestId threadId executorThreadId : String) : ownPart user
        ((attachThread s user sessionId outboundRequestId threadId executorThreadId).getD s) =
      ownPart user
        ((attachThread t user sessionId outboundRequestId threadId executorThreadId).getD t) := by
  unfold attachThread
  rw [← sessionOf_alike heq]
  cases hsession : s.sessionOf user sessionId with
  | none => exact heq
  | some session =>
    simp only [bind_some]
    cases session.state.turns.requests.get? outboundRequestId with
    | none => exact heq
    | some outbound => exact putState_alike h h' heq hsession _

/-! ### What the node manager says of the user's nodes -/

theorem isExecutorConnected_alike (heq : ownPart user s = ownPart user t)
    (hown : s.ownsNode user nodeId = true) (executorType : String) :
    (s.manager cfg).isExecutorConnected executorType (some nodeId) =
      (t.manager cfg).isExecutorConnected executorType (some nodeId) := by
  simp only [NodeManager.isExecutorConnected, Server.manager, connection_alike heq hown]

/-- The node of a persona of the user is hers. -/
theorem ownsNode_of_personaNode (h : Owned promised s)
    (hsession : s.sessionOf user sessionId = some session)
    (hmem : persona ∈ session.board.personas.entries)
    (hnode : personaNode persona = some nodeId) : s.ownsNode user nodeId = true := by
  obtain ⟨hget, howner⟩ := sessionOf_eq_some.mp hsession
  obtain ⟨hbound, hne⟩ := filter_eq_some_iff.mp hnode
  have howns := (h.sessions session (mem_of_get? hget)).board.2.2.1 persona hmem nodeId hbound
  rw [ownsNode_iff, ← howner]
  exact howns.resolve_left (of_decide_eq_true hne)

section

variable {m m' : NodeManager} {session : UserSession}
  (hm : ∀ persona ∈ session.board.personas.entries, ∀ nodeId, personaNode persona = some nodeId →
    m.isExecutorConnected "codex" (some nodeId) = m'.isExecutorConnected "codex" (some nodeId))

include hm

theorem boundPersona_congr {bound : Persona × String}
    (hbound : boundPersona session.board personaId = some bound) :
    m.isExecutorConnected "codex" (some bound.2) =
      m'.isExecutorConnected "codex" (some bound.2) := by
  obtain ⟨persona, hpersona, hmap⟩ := bind_eq_some_iff.mp hbound
  obtain ⟨nodeId, hnode, rfl⟩ := map_eq_some_iff.mp hmap
  exact hm persona (mem_of_get? hpersona) nodeId hnode

theorem prepareInstruction_congr (command : NodeCommand) (personaId : String) :
    prepareInstruction m session command personaId =
      prepareInstruction m' session command personaId := by
  unfold prepareInstruction
  cases hbound : boundPersona session.board personaId with
  | none => rfl
  | some bound => simp only [bind_some, boundPersona_congr hm hbound]

theorem prepareSubscription_congr (personaId threadId : String) :
    prepareSubscription m session personaId threadId =
      prepareSubscription m' session personaId threadId := by
  unfold prepareSubscription
  cases hbound : boundPersona session.board personaId with
  | none => rfl
  | some bound => simp only [bind_some, boundPersona_congr hm hbound]

/-- A request asks the manager for the nodes of personas alone. -/
theorem prepare_congr (request : Request) : prepare m session request = prepare m' session request := by
  cases request with
  | instruct command personaId => exact prepareInstruction_congr hm command.command personaId
  | startTurn personaId request => simp only [prepare, prepareTurn, prepareInstruction_congr hm]
  | subscribe personaId threadId => exact prepareSubscription_congr hm personaId threadId
  | runTask | cancelRun | threadPage | timelinePage | unsubscribe | supplyAnswer => rfl

theorem prepareThreadSync_congr (listing : List String) :
    prepareThreadSync m session listing = prepareThreadSync m' session listing := by
  have heligible : eligiblePersonas m session.board listing =
      eligiblePersonas m' session.board listing := by
    refine List.filter_congr fun persona hmem => ?_
    cases hnode : personaNode persona with
    | none => rfl
    | some nodeId => simp only [any_some, hm persona hmem nodeId hnode]
  simp only [prepareThreadSync, heligible]

end

theorem personaNodes_alike (cfg : Config) (h : Owned promised s)
    (heq : ownPart user s = ownPart user t) (hsession : s.sessionOf user sessionId = some session) :
    ∀ persona ∈ session.board.personas.entries, ∀ nodeId, personaNode persona = some nodeId →
      (s.manager cfg).isExecutorConnected "codex" (some nodeId) =
        (t.manager cfg).isExecutorConnected "codex" (some nodeId) :=
  fun _ hmem _ hnode =>
    isExecutorConnected_alike heq (ownsNode_of_personaNode h hsession hmem hnode) "codex"

/-! ### Commands -/

theorem get?_of_contains {K V : Type*} [DecidableEq K] {key : V → K} {table : Table key} {k : K}
    (h : table.contains k = false) : table.get? k = none := by simpa [Table.contains] using h

theorem beginRequest_alike (h : Owned promised s) (h' : Owned promised t)
    (heq : ownPart user s = ownPart user t) (sessionId : String)
    (request : Request) (hs : s.pending.contains requestId = false)
    (ht : t.pending.contains requestId = false) :
    ownPart user ((beginRequest cfg s user requestId sessionId request).getD s) =
      ownPart user ((beginRequest cfg t user requestId sessionId request).getD t) := by
  unfold beginRequest
  rw [← sessionOf_alike heq]
  cases hsession : s.sessionOf user sessionId with
  | none => exact heq
  | some session =>
    have hsession' : t.sessionOf user sessionId = some session :=
      (sessionOf_alike heq sessionId).symm.trans hsession
    obtain ⟨hget, -⟩ := sessionOf_eq_some.mp hsession
    obtain ⟨hget', -⟩ := sessionOf_eq_some.mp hsession'
    have hprepare := prepare_congr (personaNodes_alike cfg h heq hsession) request
    simp only [bind_some, hs, ht, Bool.false_eq_true, if_false, ← hprepare]
    cases hprepared : prepare (s.manager cfg) session request with
    | none => exact heq
    | some prepared =>
      have hnodes := prepare_nodes (h.sessions session (mem_of_get? hget)) hprepared
      have hnodes' := prepare_nodes (h'.sessions session (mem_of_get? hget'))
        (hprepare.symm.trans hprepared)
      simp only [map_some, getD_some]
      rw [ownPart_beginCommand h hget hnodes (get?_of_contains hs),
        ownPart_beginCommand h' hget' hnodes' (get?_of_contains ht), heq]

/-- The sync of threads for a node of the user is hers in her own sessions. -/
theorem ownPart_refreshThreads (h : Owned promised s)
    (sessionId : String) (listing : List String) (hfresh : s.pending.contains requestId = false)
    (howner : s.nodeOwner nodeId = some user) :
    ownPart user ((refreshThreads cfg s user requestId nodeId sessionId listing).getD s) =
      match s.sessionOf user sessionId with
      | none => ownPart user s
      | some session =>
        let prepared := prepareThreadSync (s.manager cfg) session listing
        ((ownPart user s).putSession prepared.session).putPending
          ⟨requestId, user, sessionId, prepared.command, prepared.nodeIds, prepared.personas,
            true⟩ := by
  simp only [refreshThreads, howner, hfresh, decide_true, Bool.not_false, Bool.and_self, if_true]
  cases hget : s.sessions.get? sessionId with
  | none => simp [Server.sessionOf, hget]
  | some session =>
    have hnodes := prepareThreadSync_nodes (m := s.manager cfg)
      (h.sessions session (mem_of_get? hget)) listing
    simp only [map_some, getD_some]
    rw [ownPart_beginCommand h hget hnodes (get?_of_contains hfresh)]
    by_cases hown : session.owner = user
    · rw [if_pos hown, if_pos rfl, sessionOf_eq_some.mpr ⟨hget, hown⟩]
    · rw [if_neg hown, Server.sessionOf, hget, filter_some, if_neg (by simpa using hown)]

theorem refreshThreads_alike (h : Owned promised s) (h' : Owned promised t)
    (heq : ownPart user s = ownPart user t) (nodeId sessionId : String)
    (listing : List String) (hs : s.pending.contains requestId = false)
    (ht : t.pending.contains requestId = false) :
    ownPart user ((refreshThreads cfg s user requestId nodeId sessionId listing).getD s) =
      ownPart user ((refreshThreads cfg t user requestId nodeId sessionId listing).getD t) := by
  by_cases howner : s.nodeOwner nodeId = some user
  · have howner' := (nodeOwner_alike heq nodeId).mp howner
    rw [ownPart_refreshThreads h sessionId listing hs howner,
      ownPart_refreshThreads h' sessionId listing ht howner', ← sessionOf_alike heq, heq]
    cases hsession : s.sessionOf user sessionId with
    | none => rfl
    | some session => simp only [prepareThreadSync_congr (personaNodes_alike cfg h heq hsession)]
  · have howner' : ¬ t.nodeOwner nodeId = some user := fun ht =>
      howner ((nodeOwner_alike heq nodeId).mpr ht)
    simp only [refreshThreads, howner, howner', decide_false, Bool.false_and, Bool.false_eq_true,
      if_false]
    exact heq

/-- Commands that are sent change nothing that a user has. -/
theorem ownPart_send (requestId nodeId : String) :
    ownPart user ((send s user requestId nodeId).getD s) = ownPart user s := by
  cases hsent : send s user requestId nodeId with
  | none => rfl
  | some s' => exact send_unseen hsent

theorem ownPart_download (sessionId threadId : String) (thread : Option ProjectedThread) :
    ownPart user ((download cfg s user sessionId threadId thread).getD s) = ownPart user s := by
  cases hsent : download cfg s user sessionId threadId thread with
  | none => rfl
  | some s' => exact download_unseen hsent

/-- A command that the user's action finds is hers, or one for a session of someone else. -/
theorem ownPart_finish (requestId : String) :
    ownPart user ((finish s user requestId).getD s) = (ownPart user s).erasePending requestId := by
  unfold finish
  cases hpending : (s.pending.get? requestId).filter fun pending => pending.user = user with
  | some pending => exact ownPart_erasePending requestId
  | none =>
    refine (OwnPart.erasePending_of_none ?_).symm
    simp only [ownPart]
    rw [filter_eq_none_iff] at hpending ⊢
    intro pending hget hown
    exact hpending pending hget (Bool.and_eq_true_iff.mp hown).1

/-- The threads that the nodes list come into the session that the user asked for. -/
theorem ownPart_threadsListed (h : Owned promised s) (requestId : String)
    (listed : List (Persona × CodexThreadItem)) :
    ownPart user ((threadsListed s user requestId listed).getD s) =
      match (ownPart user s).pending requestId with
      | none => ownPart user s
      | some pending =>
        if listed.all fun entry => pending.personas.contains entry.1 then
          match (ownPart user s).sessions pending.sessionId with
          | none => ownPart user s
          | some session =>
            let before : ImportedThreads :=
              if pending.replaces then ⟨Table.empty, Table.empty⟩ else session.state.imported
            ((ownPart user s).erasePending requestId).putSession
              { session with
                state := { session.state with imported := importListed before listed } }
        else ownPart user s := by
  unfold threadsListed
  cases hpending : (s.pending.get? requestId).filter fun pending => pending.user = user with
  | none =>
    have hnone : (ownPart user s).pending requestId = none := by
      simp only [ownPart]
      rw [filter_eq_none_iff] at hpending ⊢
      intro pending hget hown
      exact hpending pending hget (Bool.and_eq_true_iff.mp hown).1
    rw [hnone]
    rfl
  | some pending =>
    obtain ⟨hget, huser⟩ := filter_eq_some_iff.mp hpending
    obtain ⟨session, hsession, -⟩ := h.pending pending (mem_of_get? hget)
    have hown : (ownPart user s).pending requestId =
        if session.owner = user then some pending else none := by
      simp only [ownPart, hget, filter_some, of_decide_eq_true huser, Server.sessionOf,
        hsession, decide_true, Bool.true_and]
      by_cases howner : session.owner = user <;> simp [howner]
    have hsessions : (ownPart user s).sessions pending.sessionId =
        if session.owner = user then some session else none := by
      simp only [ownPart, Server.sessionOf, hsession, filter_some, decide_eq_true_eq]
    have herased := ownPart_putState user (h.erasePending requestId) hsession
    by_cases howner : session.owner = user
    · rw [if_pos howner] at hown hsessions
      simp only [bind_some, hsession, map_some, hown, hsessions]
      by_cases hlisted : (listed.all fun entry => pending.personas.contains entry.1) = true
      · rw [if_pos hlisted, if_pos hlisted, getD_some, herased, if_pos howner, ownPart_erasePending]
      · rw [if_neg hlisted, if_neg hlisted, getD_none]
    · rw [if_neg howner] at hown
      simp only [bind_some, hsession, map_some, hown]
      by_cases hlisted : (listed.all fun entry => pending.personas.contains entry.1) = true
      · rw [if_pos hlisted, getD_some, herased, if_neg howner, ownPart_erasePending,
          OwnPart.erasePending_of_none hown]
      · rw [if_neg hlisted, getD_none]

/-! ### The scan for waiting tasks -/

section

variable (h : Owned promised s)
include h

/-- An executor is available to a task of the user alike: at the task's node, which is hers
if it has one, or where her nodes decide. -/
theorem isAvailable_alike (h' : Owned promised t) (heq : ownPart user s = ownPart user t)
    (hdecide : OwnNodesDecide cfg user (s, t)) (executorType : String) {nodeId : Option String}
    (hnode : ∀ id ∈ nodeId, s.Owns user id) :
    isAvailable cfg s executorType nodeId = isAvailable cfg t executorType nodeId := by
  by_cases hd : executorType ∈ cfg.detachedExecutorTypes
  · cases nodeId with
    | none =>
      obtain ⟨hs, ht⟩ := hdecide executorType hd
      have hconnections : ownConnections s user = ownConnections t user :=
        congrArg OwnPart.connections heq
      have hmanager : ownManager cfg s user = ownManager cfg t user := by
        rw [ownManager, ownManager, hconnections]
      simp only [isAvailable, availability_own hd hs, availability_own hd ht, hmanager]
    | some id =>
      have hconnection : s.connections.get? id = t.connections.get? id := by
        rcases hnode id rfl with rfl | howner
        · rw [h.get?_empty_id, h'.get?_empty_id]
        · exact connection_alike heq (ownsNode_iff.mpr howner)
      simp only [isAvailable, NodeManager.executorAvailability, Server.manager, hconnection]
      rfl
  · have hlocal : ∀ r : Server, (r.manager cfg).isDetachedExecutor executorType = false :=
      fun r => decide_eq_false hd
    simp only [isAvailable, NodeManager.executorAvailability, hlocal, Bool.not_false, if_true]

theorem requeueWaiting_alike (h' : Owned promised t)
    (heq : ownPart user s = ownPart user t) (hdecide : OwnNodesDecide cfg user (s, t))
    (hsession : s.sessionOf user sessionId = some session) :
    requeueWaitingExecutorTasks session.board (isAvailable cfg s) =
      requeueWaitingExecutorTasks session.board (isAvailable cfg t) := by
  obtain ⟨hget, howner⟩ := sessionOf_eq_some.mp hsession
  have hnodes := h.sessions session (mem_of_get? hget)
  refine List.foldl_ext _ _ _ fun b task hmem => ?_
  have hnode : ∀ id ∈ task.metadata.str? "executor_node_id", s.Owns user id := by
    intro id hid
    by_cases hempty : id = ""
    · exact .inl hempty
    · rw [← howner]
      refine hnodes.board.1 task hmem id ?_
      exact filter_eq_some_iff.mpr ⟨hid, decide_eq_true hempty⟩
  have hsame : requeueable (isAvailable cfg s) task = requeueable (isAvailable cfg t) task := by
    simp only [requeueable, isAvailable_alike h h' heq hdecide _ hnode]
  rw [requeueTask, requeueTask, hsame]

/-- The scan for a node of the user queues the waiting tasks of her own sessions. -/
theorem ownPart_requeueScan (sessionId : String)
    (howner : s.nodeOwner nodeId = some user) :
    ownPart user ((requeueScan cfg s user nodeId sessionId).getD s) =
      match s.sessionOf user sessionId with
      | none => ownPart user s
      | some session =>
        let board := requeueWaitingExecutorTasks session.board (isAvailable cfg s)
        let state := { session.state with session := { session.state.session with board := board } }
        (ownPart user s).putSession { session with state := state } := by
  simp only [requeueScan, howner, if_true]
  cases hget : s.sessions.get? sessionId with
  | none => simp [Server.sessionOf, hget]
  | some session =>
    simp only [map_some, getD_some]
    rw [ownPart_putState user h hget]
    by_cases hown : session.owner = user
    · rw [if_pos hown, sessionOf_eq_some.mpr ⟨hget, hown⟩]
    · rw [if_neg hown, Server.sessionOf, hget, filter_some, if_neg (by simpa using hown)]

theorem requeueScan_alike (h' : Owned promised t)
    (heq : ownPart user s = ownPart user t) (hdecide : OwnNodesDecide cfg user (s, t))
    (nodeId sessionId : String) : ownPart user ((requeueScan cfg s user nodeId sessionId).getD s) =
      ownPart user ((requeueScan cfg t user nodeId sessionId).getD t) := by
  by_cases howner : s.nodeOwner nodeId = some user
  · have howner' := (nodeOwner_alike heq nodeId).mp howner
    rw [ownPart_requeueScan h sessionId howner, ownPart_requeueScan h' sessionId howner',
      ← sessionOf_alike heq, heq]
    cases hsession : s.sessionOf user sessionId with
    | none => rfl
    | some session => simp only [requeueWaiting_alike h h' heq hdecide hsession]
  · have howner' : ¬ t.nodeOwner nodeId = some user := fun ht =>
      howner ((nodeOwner_alike heq nodeId).mpr ht)
    simp only [requeueScan, howner, howner', if_false]
    exact heq

/-- An action of the user leaves her the same in both servers. -/
theorem step_alike (h' : Owned promised t)
    (heq : ownPart user s = ownPart user t) (hdecide : OwnNodesDecide cfg user (s, t))
    {action : Action} (hs : issues s user action = true) (ht : issues t user action = true) :
    ownPart user (attempt cfg s ⟨user, action⟩) = ownPart user (attempt cfg t ⟨user, action⟩) := by
  have hnew : ∀ {b : Bool}, (!b) = true → b = false := fun hb => by simpa using hb
  cases action with
  | createSession sessionId => exact createSession_alike h h' heq (hnew hs) (hnew ht)
  | createNode nodeId name enabledExecutors => exact createNode_alike h h' heq (hnew hs) (hnew ht)
  | updateNode nodeId name enabledExecutors =>
    exact updateNode_alike h h' heq nodeId name enabledExecutors
  | deleteNode nodeId => exact deleteNode_alike h h' heq nodeId
  | register connection => exact register_alike heq connection
  | disconnect nodeId => exact disconnect_alike heq nodeId
  | requeueScan nodeId sessionId => exact requeueScan_alike h h' heq hdecide nodeId sessionId
  | refreshThreads requestId nodeId sessionId listing =>
    exact refreshThreads_alike h h' heq nodeId sessionId listing (hnew hs) (hnew ht)
  | putPersona persona => exact putPersona_alike heq persona
  | deletePersona personaId => exact deletePersona_alike heq hs ht
  | readPersonas requestId sessionId => exact readPersonas_alike heq (hnew hs) (hnew ht)
  | syncPersonas requestId => exact syncPersonas_alike h h' heq requestId
  | session sessionId label => exact sessionStep_alike h h' heq sessionId label
  | attachThread sessionId outboundRequestId threadId executorThreadId =>
    exact attachThread_alike h h' heq sessionId outboundRequestId threadId executorThreadId
  | request requestId sessionId request =>
    exact beginRequest_alike h h' heq sessionId request (hnew hs) (hnew ht)
  | send requestId nodeId =>
    exact (ownPart_send requestId nodeId).trans (heq.trans (ownPart_send requestId nodeId).symm)
  | threadsListed requestId listed =>
    show ownPart user ((threadsListed s user requestId listed).getD s) =
      ownPart user ((threadsListed t user requestId listed).getD t)
    rw [ownPart_threadsListed h, ownPart_threadsListed h', heq]
  | finish requestId =>
    show ownPart user ((finish s user requestId).getD s) =
      ownPart user ((finish t user requestId).getD t)
    rw [ownPart_finish, ownPart_finish, heq]
  | download sessionId threadId thread =>
    exact (ownPart_download sessionId threadId thread).trans
      (heq.trans (ownPart_download sessionId threadId thread).symm)

end

/-! ## What the user sees -/

theorem nodeSummary_alike (heq : ownPart user s = ownPart user t)
    (hown : s.ownsNode user nodeId = true) : nodeSummary s nodeId = nodeSummary t nodeId := by
  have hown' : t.ownsNode user nodeId = true := (ownsNode_alike heq nodeId).symm.trans hown
  have hnode : ∀ {r : Server}, r.ownsNode user nodeId = true →
      r.nodes.get? nodeId = (ownPart user r).nodes nodeId := by
    intro r hr
    obtain ⟨node, hget, howner⟩ := map_eq_some_iff.mp (ownsNode_iff.mp hr)
    simp [ownPart, hget, howner, filter_some]
  simp only [nodeSummary, Table.contains, hnode hown, hnode hown', heq, connection_alike heq hown]

theorem broList_alike (heq : ownPart user s = ownPart user t) (b : Blackboard) :
    broList s user b = broList t user b := by
  refine List.map_congr_left fun persona _ => ?_
  have hnode : ((personaNode persona).filter (s.ownsNode user)).bind (nodeSummary s) =
      ((personaNode persona).filter (t.ownsNode user)).bind (nodeSummary t) := by
    cases personaNode persona with
    | none => rfl
    | some nodeId =>
      rw [filter_some, filter_some, ← ownsNode_alike heq]
      split_ifs with hown
      · exact nodeSummary_alike heq hown
      · rfl
  rw [hnode]

/-- Where the nodes of the user decide, the executors are available alike. -/
theorem capabilities_alike (heq : ownPart user s = ownPart user t)
    (hdecide : OwnNodesDecide cfg user (s, t)) :
    executorCapabilitiesSnapshot cfg s = executorCapabilitiesSnapshot cfg t := by
  refine List.map_congr_left fun capability _ => ?_
  have havailable : (s.manager cfg).executorAvailability capability.executorType none =
      (t.manager cfg).executorAvailability capability.executorType none := by
    by_cases hd : capability.executorType ∈ cfg.detachedExecutorTypes
    · obtain ⟨hs, ht⟩ := hdecide capability.executorType hd
      have hconnections : ownConnections s user = ownConnections t user :=
        congrArg OwnPart.connections heq
      rw [availability_own hd hs, availability_own hd ht, ownManager, ownManager, hconnections]
    · have hlocal : ∀ r : Server,
          (r.manager cfg).isDetachedExecutor capability.executorType = false :=
        fun r => decide_eq_false hd
      simp only [NodeManager.executorAvailability, hlocal, Bool.not_false, if_true]
  rw [havailable]

theorem userView_alike {α : Type*} (project : ProjectionInput → α)
    (heq : ownPart user s = ownPart user t) (hdecide : OwnNodesDecide cfg user (s, t))
    (sessionId : String) :
    userView project cfg s user sessionId = userView project cfg t user sessionId := by
  simp only [userView, scopeSnapshot, userSnapshot, sessionOf_alike heq, broList_alike heq,
    capabilities_alike heq hdecide, List.filter_nil]

/-! ## Every two runs -/

theorem attempt_owned (h : Owned (fun command => command.recorded.isSome = true) s)
    (label : Label) : Owned (fun command => command.recorded.isSome = true) (attempt cfg s label) := by
  unfold attempt
  cases hs : step cfg s label with
  | none => exact h
  | some s' => exact h.step (.inl fun _ hrecorded => hrecorded) hs

theorem attempt_unseen (h : Owned promised s) (hne : label.user ≠ user)
    (halone : leavesAlone cfg user s label) :
    ownPart user (attempt cfg s label) = ownPart user s := by
  unfold attempt
  cases hs : step cfg s label with
  | none => rfl
  | some s' => exact step_unseen h hne halone hs

end

/-- The user has the same in both servers. -/
structure Alike (user : String) (s : Server × Server) : Prop where
  left : Owned (fun command => command.recorded.isSome = true) s.1
  right : Owned (fun command => command.recorded.isSome = true) s.2
  own : ownPart user s.1 = ownPart user s.2

theorem alike_step {cfg : Config} {user : String} {s s' : Server × Server} {label : ViewLabel}
    (h : Alike user s) (halone : LeavesAlone cfg user s label)
    (hdecide : OwnNodesDecide cfg user s) (hs : (runs cfg user).step s label = some s') :
    Alike user s' := by
  cases label with
  | own action =>
    obtain ⟨hissues, hs⟩ := ite_none_right_eq_some.mp hs
    obtain rfl := some.inj hs
    obtain ⟨hleft, hright⟩ := Bool.and_eq_true_iff.mp hissues
    exact ⟨attempt_owned h.left _, attempt_owned h.right _,
      step_alike h.left h.right h.own hdecide hleft hright⟩
  | left other =>
    obtain ⟨hne, hs⟩ := ite_none_left_eq_some.mp hs
    obtain rfl := some.inj hs
    exact ⟨attempt_owned h.left _, h.right, (attempt_unseen h.left hne halone).trans h.own⟩
  | right other =>
    obtain ⟨hne, hs⟩ := ite_none_left_eq_some.mp hs
    obtain rfl := some.inj hs
    exact ⟨h.left, attempt_owned h.right _, h.own.trans (attempt_unseen h.right hne halone).symm⟩

/-- In two runs that differ in what others do, the user sees the same throughout when the
others leave her sessions alone and her own nodes decide which executors are available. -/
theorem views_independent {α : Type u} (project : ProjectionInput → α) (cfg : Config)
    (user : String) (labels : List ViewLabel)
    (halone : (runs cfg user).Along (LeavesAlone cfg user) (initialServer, initialServer) labels)
    (hdecide : (runs cfg user).Always (OwnNodesDecide cfg user) (initialServer, initialServer)
      labels) :
    (runs cfg user).Always (SameViews project cfg user) (initialServer, initialServer) labels := by
  have hinitial : Alike user (initialServer, initialServer) :=
    ⟨initialServer_owned, initialServer_owned, rfl⟩
  have halike : (runs cfg user).Always (Alike user) (initialServer, initialServer) labels :=
    (halone.and hdecide.before).always hinitial fun s label s' h hc hs => alike_step h hc.1 hc.2 hs
  exact (halike.and hdecide).mono fun s h sessionId => userView_alike project h.1.own h.2 sessionId

/-- Alice connects her node; in one run bob then connects his. -/
def visitorLabels : List ViewLabel :=
  [.own (.createSession "s-1"), .own (.createNode "node-1" "Mac" ["codex"]),
    .own (.register ⟨"node-1", "ws-1", ["codex"]⟩), .left ⟨"bob", .createSession "s-2"⟩,
    .left ⟨"bob", .createNode "node-2" "PC" ["codex"]⟩,
    .left ⟨"bob", .register ⟨"node-2", "ws-2", ["codex"]⟩⟩, .own (.requeueScan "node-1" "s-1")]

theorem visitor_unseen :
    (runs smallConfig "alice").Always
      (SameViews (fun input => input.tasks.length) smallConfig "alice")
      (initialServer, initialServer) visitorLabels := by
  refine views_independent _ smallConfig "alice" visitorLabels ?_ ?_
  · refine System.along_of_steps fun before label after s s' hlabels _ _ => ?_
    have hmem : label ∈ visitorLabels := by
      rw [hlabels]
      exact List.mem_append_right _ List.mem_cons_self
    simp only [visitorLabels, List.mem_cons, List.not_mem_nil, or_false] at hmem
    rcases hmem with rfl | rfl | rfl | rfl | rfl | rfl | rfl <;> trivial
  · have hcheck : (runs smallConfig "alice").checkAlways (fun s =>
        ownNodesDecide s.1 "alice" "codex" && ownNodesDecide s.2 "alice" "codex")
        (initialServer, initialServer) visitorLabels = true := by decide
    refine (System.always_of_check hcheck).mono fun s hs executorType hmem => ?_
    rw [List.mem_singleton.mp hmem]
    exact Bool.and_eq_true_iff.mp hs

/-- The nodes that the executor capabilities of a snapshot name. -/
def shownNodes {α : Type u} (view : UserView α) : List (Option String) :=
  view.snapshot.executorCapabilities.map fun capability => capability.2.nodeId

/-- The node of bob shows in the snapshots of alice. -/
theorem stranger_node_shows :
    ¬ ∀ (cfg : Config) (user : String) (labels : List ViewLabel),
      (runs cfg user).Always (SameViews (fun input => input.tasks.length) cfg user)
        (initialServer, initialServer) labels := by
  intro h
  have hall := h smallConfig "alice"
    [.own (.createSession "s-1"), .left ⟨"bob", .createNode "node-2" "PC" ["codex"]⟩,
      .left ⟨"bob", .register ⟨"node-2", "ws-2", ["codex"]⟩⟩]
  have hrun : ((runs smallConfig "alice").run (initialServer, initialServer)
      [.own (.createSession "s-1"), .left ⟨"bob", .createNode "node-2" "PC" ["codex"]⟩,
        .left ⟨"bob", .register ⟨"node-2", "ws-2", ["codex"]⟩⟩]).map (fun s =>
      ((userView (fun input => input.tasks.length) smallConfig s.1 "alice" "s-1").map shownNodes,
        (userView (fun input => input.tasks.length) smallConfig s.2 "alice" "s-1").map shownNodes)) =
      some (some [some "node-2"], some [none]) := by decide
  obtain ⟨s, hs, hshown⟩ := map_eq_some_iff.mp hrun
  obtain ⟨hleft, hright⟩ := Prod.mk.inj hshown
  rw [hall.at_end hs "s-1", hright] at hleft
  exact absurd hleft (by decide)

end Newbro.Users
