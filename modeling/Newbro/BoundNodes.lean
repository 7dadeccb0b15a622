import Newbro.NodeBindings
import Newbro.RosterAgreement

/-!
# A bound node exists

Whether the node of every stored persona is in the registry and belongs to the persona's user.
The owner of a node never changes, and it is checked before every binding. The registry is
another matter: `delete_executor_node` looks at the boards of the live sessions only, and a
persona may be written after its node was deleted.
-/
namespace Newbro.NodeBindings

open Library Protocol Option Table
open SessionCommands (Config)
open Rosters (Stored PersonaUpdate Change Stage)

/-- The node that a change binds a persona to. -/
def boundNode : Change → Option String
  | .create record => record.executorNodeId
  | .update _ updates => updates.executorNodeId.bind id
  | .delete _ => none

/-- A node is deleted only while no stored persona names it, and a persona is bound to a node,
unless the database refuses the change, only while the node is in the registry. -/
def Kept (s : Server) : Label → Prop
  | .advance requestId =>
    match s.pending.get? requestId with
    | some ⟨_, _, _, .eraseNode nodeId⟩ =>
      ∀ row ∈ s.roster.stored.entries, ∀ persona ∈ row.personas.entries,
        persona.executorNodeId ≠ some nodeId
    | _ => True
  | .roster (.change requestId) =>
    match s.roster.requests.get? requestId with
    | some ⟨_, user, _, .change change⟩ =>
      (change.apply (s.roster.storedOf user)).isOk = true →
        ∀ nodeId ∈ boundNode change, s.registry.contains nodeId = true
    | _ => True
  | _ => True

/-! ## What a change writes -/

variable {user nodeId : String} {change : Change}

section change

variable {stored personas : Stored}

theorem executorNodeId_applyUpdates (current : Persona) (updates : PersonaUpdate) :
    (Rosters.applyUpdates current updates).executorNodeId =
      updates.executorNodeId.getD current.executorNodeId := rfl

theorem mem_storedOf {s : Rosters.Server} {persona : Persona}
    (h : persona ∈ (s.storedOf user).entries) :
    ∃ row ∈ s.stored.entries, row.userId = user ∧ persona ∈ row.personas.entries := by
  unfold Rosters.Server.storedOf at h
  cases hrow : s.stored.get? user with
  | none =>
    rw [hrow] at h
    cases h
  | some row =>
    rw [hrow] at h
    exact ⟨row, mem_of_get? hrow, key_of_get? hrow, h⟩

/-- A persona that is stored after a creation was stored before, up to its prompt, or is the new
one. -/
theorem createPersona_cases {record : Persona}
    (h : Rosters.createPersona stored record = .ok personas) :
    (∃ existing ∈ stored.entries, existing.executorNodeId = record.executorNodeId ∧
      record.executorNodeId.isSome = true ∧
        (personas = stored ∨ personas = stored.put
          { existing with basePrompt := Rosters.defaultBroBasePrompt })) ∨
      personas = stored.put record := by
  unfold Rosters.createPersona at h
  split at h
  · cases h
  split at h
  · rename_i existing hfound
    obtain ⟨nodeId, hnode, hfind⟩ := bind_eq_some_iff.mp hfound
    have hmem := List.mem_of_find?_eq_some hfind
    have hsame : existing.executorNodeId = some nodeId := by simpa using List.find?_some hfind
    refine .inl ⟨existing, hmem, hsame.trans hnode.symm, by rw [hnode]; rfl, ?_⟩
    split at h
    · exact .inr (Except.ok.inj h).symm
    · exact .inl (Except.ok.inj h).symm
  · split at h
    · cases h
    · exact .inr (Except.ok.inj h).symm

/-- The persona that an update is about is stored, and changed. -/
theorem updatePersona_cases {personaId : String} {updates : PersonaUpdate}
    (h : Rosters.updatePersona stored personaId updates = .ok personas) :
    ∃ current ∈ stored.entries, personas = stored.put (Rosters.applyUpdates current updates) := by
  unfold Rosters.updatePersona at h
  split at h
  · cases h
  · rename_i current hcurrent
    split at h
    · cases h
    · exact ⟨current, mem_of_get? hcurrent, (Except.ok.inj h).symm⟩

/-- A node that is named after a change was named before, or is the one that is bound. -/
theorem named_of_apply (h : change.apply stored = .ok personas)
    {persona : Persona} (hmem : persona ∈ personas.entries)
    (hnode : persona.executorNodeId = some nodeId) :
    (∃ old ∈ stored.entries, old.executorNodeId = some nodeId) ∨
      boundNode change = some nodeId := by
  cases change with
  | create record =>
    rcases createPersona_cases h with ⟨existing, hexisting, -, -, rfl | rfl⟩ | rfl
    · exact .inl ⟨persona, hmem, hnode⟩
    · rcases mem_put.mp hmem with rfl | ⟨hold, -⟩
      · exact .inl ⟨existing, hexisting, hnode⟩
      · exact .inl ⟨persona, hold, hnode⟩
    · rcases mem_put.mp hmem with rfl | ⟨hold, -⟩
      · exact .inr hnode
      · exact .inl ⟨persona, hold, hnode⟩
  | update personaId updates =>
    obtain ⟨current, hcurrent, rfl⟩ := updatePersona_cases h
    rcases mem_put.mp hmem with rfl | ⟨hold, -⟩
    · rw [executorNodeId_applyUpdates] at hnode
      cases hupdate : updates.executorNodeId with
      | none =>
        rw [hupdate] at hnode
        exact .inl ⟨current, hcurrent, hnode⟩
      | some node =>
        rw [hupdate] at hnode
        refine .inr ?_
        rw [boundNode, hupdate]
        exact hnode
    · exact .inl ⟨persona, hold, hnode⟩
  | delete personaId =>
    cases h
    exact .inl ⟨persona, (mem_erase.mp hmem).1, hnode⟩

/-- The node that is bound is named after the change. -/
theorem bound_of_apply (h : change.apply stored = .ok personas)
    (hnode : boundNode change = some nodeId) :
    ∃ persona ∈ personas.entries, persona.executorNodeId = some nodeId := by
  cases change with
  | create record =>
    have hrecord : record.executorNodeId = some nodeId := hnode
    rcases createPersona_cases h with ⟨existing, hexisting, hsame, -, rfl | rfl⟩ | rfl
    · exact ⟨existing, hexisting, hsame.trans hrecord⟩
    · exact ⟨_, mem_put.mpr (.inl rfl), hsame.trans hrecord⟩
    · exact ⟨_, mem_put.mpr (.inl rfl), hrecord⟩
  | update personaId updates =>
    obtain ⟨current, hcurrent, rfl⟩ := updatePersona_cases h
    refine ⟨_, mem_put.mpr (.inl rfl), ?_⟩
    obtain ⟨node, hupdate, rfl⟩ := bind_eq_some_iff.mp hnode
    rw [executorNodeId_applyUpdates, hupdate]
    rfl
  | delete personaId => cases hnode

end change

/-! ## The steps of the roster -/

variable {requestId sessionId : String}

section roster

variable {cfg : Config} {r r' : Rosters.Server}

/-- No request of the roster binds a persona that did not before. -/
structure Unbinding (r r' : Rosters.Server) : Prop where
  stored : r'.stored = r.stored
  requests : ∀ request ∈ r'.requests.entries, request ∈ r.requests.entries ∨
    ∀ change, request.stage = .change change → boundNode change = none

theorem Unbinding.of_put {r : Rosters.Server} {sessions : Table Rosters.Session.sessionId}
    {owners : Dict String String} {request : Rosters.Request}
    (h : ∀ change, request.stage = .change change → boundNode change = none) :
    Unbinding r ⟨r.stored, owners, sessions, r.requests.put request⟩ := by
  refine ⟨rfl, fun other hother => ?_⟩
  rcases mem_put.mp hother with rfl | ⟨hold, -⟩
  · exact .inr h
  · exact .inl hold

theorem Unbinding.begin {stage : Stage}
    (hstage : ∀ change, stage = .change change → boundNode change = none)
    (h : Rosters.begin r requestId user sessionId stage = some r') : Unbinding r r' := by
  unfold Rosters.begin at h
  split at h
  · cases h
  · cases h
    exact Unbinding.of_put hstage

theorem Unbinding.createSession {file : List Persona}
    (h : Rosters.createSession r requestId user sessionId file = some r') : Unbinding r r' := by
  unfold Rosters.createSession at h
  split at h
  · cases h
  · unfold Rosters.begin at h
    split at h
    · cases h
    · cases h
      exact Unbinding.of_put (by simp)

theorem Unbinding.beginDelete {personaId : String}
    (h : Rosters.beginDelete r requestId user sessionId personaId = some r') : Unbinding r r' := by
  unfold Rosters.beginDelete at h
  split at h
  · cases h
  · obtain ⟨persona, -, hbegin⟩ := bind_eq_some_iff.mp h
    refine Unbinding.begin (fun change hchange => ?_) hbegin
    cases hchange
    rfl

theorem Unbinding.readStored (h : Rosters.readStored r requestId = some r') : Unbinding r r' := by
  unfold Rosters.readStored at h
  split at h
  · cases h
    exact Unbinding.of_put (by simp)
  · cases h

theorem Unbinding.syncSession (h : Rosters.syncSession r requestId = some r') : Unbinding r r' := by
  unfold Rosters.syncSession at h
  split at h
  · dsimp only at h
    split at h
    all_goals
      cases h
      exact ⟨rfl, fun request hrequest => .inl (mem_erase.mp hrequest).1⟩
  · cases h

theorem Unbinding.sessionStep {label : SessionRuntime.Label}
    (h : Rosters.sessionStep cfg r sessionId label = some r') : Unbinding r r' := by
  unfold Rosters.sessionStep at h
  split at h
  · cases h
  · obtain ⟨session, -, hstep⟩ := bind_eq_some_iff.mp h
    obtain ⟨state, -, rfl⟩ := map_eq_some_iff.mp hstep
    exact ⟨rfl, fun request hrequest => .inl hrequest⟩

/-- A step of the roster makes a change or binds nothing. -/
theorem rosterStep_cases {s s' : Server} {label : Rosters.Label}
    (h : rosterStep cfg s label = some s') :
    (∃ requestId r', label = .change requestId ∧
        Rosters.changeStored s.roster requestId = some r' ∧ s' = { s with roster := r' }) ∨
      (∀ requestId, label ≠ .change requestId) ∧
        ∃ r', Unbinding s.roster r' ∧ s' = { s with roster := r' } := by
  unfold rosterStep at h
  cases label with
  | create => cases h
  | update => cases h
  | createSession requestId user sessionId file =>
    dsimp only at h
    split at h
    · cases h
    · obtain ⟨r', hstep, rfl⟩ := map_eq_some_iff.mp h
      exact .inr ⟨by simp, r', Unbinding.createSession hstep, rfl⟩
  | list requestId user sessionId =>
    dsimp only at h
    split at h
    · cases h
    · obtain ⟨r', hstep, rfl⟩ := map_eq_some_iff.mp h
      exact .inr ⟨by simp, r', Unbinding.begin (by simp) hstep, rfl⟩
  | delete requestId user sessionId personaId =>
    dsimp only at h
    split at h
    · cases h
    · obtain ⟨r', hstep, rfl⟩ := map_eq_some_iff.mp h
      exact .inr ⟨by simp, r', Unbinding.beginDelete hstep, rfl⟩
  | change requestId =>
    obtain ⟨r', hstep, rfl⟩ := map_eq_some_iff.mp h
    exact .inl ⟨requestId, r', rfl, hstep, rfl⟩
  | read requestId =>
    obtain ⟨r', hstep, rfl⟩ := map_eq_some_iff.mp h
    exact .inr ⟨by simp, r', Unbinding.readStored hstep, rfl⟩
  | sync requestId =>
    obtain ⟨r', hstep, rfl⟩ := map_eq_some_iff.mp h
    exact .inr ⟨by simp, r', Unbinding.syncSession hstep, rfl⟩
  | session sessionId label =>
    obtain ⟨r', hstep, rfl⟩ := map_eq_some_iff.mp h
    exact .inr ⟨by simp, r', Unbinding.sessionStep hstep, rfl⟩

/-- A change in the database: it is refused, or the personas of its user are written. -/
theorem changeStored_cases
    (h : Rosters.changeStored r requestId = some r') :
    ∃ user sessionId change, r.requests.get? requestId =
        some ⟨requestId, user, sessionId, .change change⟩ ∧
      ((∃ error, change.apply (r.storedOf user) = .error error ∧
          r' = { r with requests := r.requests.erase requestId }) ∨
        ∃ personas, change.apply (r.storedOf user) = .ok personas ∧
          r' = { r with
            stored := r.stored.put ⟨user, personas⟩
            requests := r.requests.put ⟨requestId, user, sessionId, .read⟩ }) := by
  unfold Rosters.changeStored at h
  split at h
  · rename_i id user sessionId change hrequest
    obtain rfl : id = requestId := key_of_get? hrequest
    refine ⟨user, sessionId, change, hrequest, ?_⟩
    split at h
    · rename_i error herror
      exact .inl ⟨error, herror, (some.inj h).symm⟩
    · rename_i personas hpersonas
      exact .inr ⟨personas, hpersonas, (some.inj h).symm⟩
  · cases h

end roster

/-! ## Owners -/

variable (owners : Dict String String)

/-- What a request has checked of the node that its change binds. -/
def Checked (user : String) : Check → Prop
  | .nodeOwned nodeId change => boundNode change = some nodeId
  | .nodeConnected nodeId change =>
    boundNode change = some nodeId ∧ owners.lookup nodeId = some user
  | _ => True

/-- A change that is on its way binds a node of its user. -/
def Attested (user : String) (stage : Stage) : Prop :=
  ∀ change, stage = .change change → ∀ nodeId, boundNode change = some nodeId →
    owners.lookup nodeId = some user

structure Guarded (s : Server) : Prop where
  owned : Owned s
  checked : ∀ request ∈ s.pending.entries, Checked s.nodeOwners request.user request.check
  attested : ∀ request ∈ s.roster.requests.entries,
    Attested s.nodeOwners request.user request.stage

/-- The owner of a node does not change. -/
def OwnersKept (owners' : Dict String String) : Prop :=
  ∀ nodeId user, owners.lookup nodeId = some user → owners'.lookup nodeId = some user

variable {check : Check} {request : Pending}

section owners

variable {s s' : Server} {cfg : Config}

theorem ownersKept_claimNode (user nodeId : String) :
    OwnersKept owners (claimNode owners user nodeId) := by
  intro other owner hother
  unfold claimNode
  split
  · exact hother
  · rename_i hfree
    rw [Dict.lookup_set_of_ne]
    · exact hother
    · intro heq
      rw [heq, hother] at hfree
      exact hfree rfl

theorem Checked.mono {owners owners' : Dict String String}
    (h : Checked owners user check) (hkept : OwnersKept owners owners') :
    Checked owners' user check := by
  cases check with
  | nodeConnected nodeId change => exact ⟨h.1, hkept nodeId user h.2⟩
  | _ => exact h

theorem Guarded.frame (h : Guarded s) (hkept : OwnersKept s.nodeOwners s'.nodeOwners)
    (hstored : s'.roster.stored = s.roster.stored)
    (hpending : ∀ request ∈ s'.pending.entries, request ∈ s.pending.entries ∨
      Checked s'.nodeOwners request.user request.check)
    (hrequests : ∀ request ∈ s'.roster.requests.entries, request ∈ s.roster.requests.entries ∨
      Attested s'.nodeOwners request.user request.stage) : Guarded s' where
  owned row hrow persona hpersona nodeId hnode := by
    rw [hstored] at hrow
    exact hkept nodeId row.userId (h.owned row hrow persona hpersona nodeId hnode)
  checked request hrequest := by
    rcases hpending request hrequest with hold | hnew
    · exact (h.checked request hold).mono hkept
    · exact hnew
  attested request hrequest := by
    rcases hrequests request hrequest with hold | hnew
    · exact fun change hchange nodeId hnode =>
        hkept nodeId request.user (h.attested request hold change hchange nodeId hnode)
    · exact hnew

theorem OwnersKept.refl : OwnersKept owners owners :=
  fun _ _ h => h

theorem Guarded.begin (h : Guarded s) (hcheck : Checked s.nodeOwners user check)
    (hbegin : begin s requestId user sessionId check = some s') : Guarded s' := by
  unfold NodeBindings.begin at hbegin
  split at hbegin
  · cases hbegin
    refine h.frame (OwnersKept.refl _) rfl (fun request hrequest => ?_) fun _ hold => .inl hold
    rcases mem_put.mp hrequest with rfl | ⟨hold, -⟩
    · exact .inr hcheck
    · exact .inl hold
  · cases hbegin

theorem Guarded.beginBinding (h : Guarded s)
    {nodeId : Option String} (hnode : boundNode change = nodeId)
    (hbegin : beginBinding s requestId user sessionId nodeId change = some s') : Guarded s' := by
  unfold NodeBindings.beginBinding at hbegin
  cases nodeId with
  | some nodeId =>
    have hcheck : Checked s.nodeOwners user (.nodeOwned nodeId change) := hnode
    exact h.begin hcheck hbegin
  | none =>
    simp only [beginChange] at hbegin
    split at hbegin
    · cases hbegin
      refine h.frame (OwnersKept.refl _) rfl (fun _ hold => .inl hold) fun request hrequest => ?_
      rcases mem_put.mp hrequest with rfl | ⟨hold, -⟩
      · refine .inr fun other hother nodeId hbound => ?_
        cases hother
        rw [hnode] at hbound
        cases hbound
      · exact .inl hold
    · cases hbegin

theorem boundNode_updatesOf (personaId : String) (body : PersonaUpdate) (listed : Persona)
    (freshDetailId : String) :
    boundNode (.update personaId (Rosters.updatesOf body listed freshDetailId)) =
      body.executorNodeId.bind id := rfl

/-- A request goes on to its next await. -/
theorem Guarded.goOn (h : Guarded s)
    (hcheck : Checked s.nodeOwners request.user check) : Guarded (s.goOn request check) := by
  refine h.frame (OwnersKept.refl _) rfl (fun other hother => ?_) fun _ hold => .inl hold
  rcases mem_put.mp hother with rfl | ⟨hold, -⟩
  · exact .inr hcheck
  · exact .inl hold

theorem Guarded.done (h : Guarded s) (requestId : String) : Guarded (s.done requestId) :=
  h.frame (OwnersKept.refl _) rfl (fun _ hrequest => .inl (mem_erase.mp hrequest).1)
    fun _ hold => .inl hold

theorem Guarded.advance (h : Guarded s)
    (hrequest : request ∈ s.pending.entries) : Guarded (advance s request) := by
  have hchecked := h.checked request hrequest
  have hdone := h.done request.requestId
  unfold NodeBindings.advance
  cases hcheck : request.check with
  | nodeOwned nodeId change =>
    rw [hcheck] at hchecked
    dsimp only
    split
    · rename_i howns
      exact h.goOn ⟨hchecked, of_decide_eq_true howns⟩
    · exact hdone
  | nodeConnected nodeId change =>
    rw [hcheck] at hchecked
    dsimp only
    split
    · refine h.frame (OwnersKept.refl _) rfl
        (fun _ hother => .inl (mem_erase.mp hother).1) fun other hother => ?_
      rcases mem_put.mp hother with rfl | ⟨hold, -⟩
      · refine .inr fun binding hbinding node hnode => ?_
        cases hbinding
        rw [hchecked.1] at hnode
        cases hnode
        exact hchecked.2
      · exact .inl hold
    · exact hdone
  | claim nodeId =>
    exact h.frame (ownersKept_claimNode _ _ _) rfl
      (fun _ hother => .inl (mem_erase.mp hother).1) fun _ hold => .inl hold
  | deletable nodeId =>
    dsimp only
    split
    · exact h.goOn trivial
    · exact hdone
  | unbound nodeId =>
    dsimp only
    split
    · exact hdone
    · exact h.goOn trivial
  | closeNode nodeId =>
    have hgone : Guarded (s.goOn request (.eraseNode nodeId)) := h.goOn trivial
    exact hgone.frame (OwnersKept.refl _) rfl (fun _ hold => .inl hold) fun _ hold => .inl hold
  | eraseNode nodeId =>
    exact hdone.frame (OwnersKept.refl _) rfl (fun _ hold => .inl hold) fun _ hold => .inl hold

/-- A change that is made writes a node that its user owns. -/
theorem Guarded.changeStored (h : Guarded s) {r' : Rosters.Server}
    (hstep : Rosters.changeStored s.roster requestId = some r') :
    Guarded { s with roster := r' } := by
  obtain ⟨user, sessionId, change, hrequest, hcases⟩ := changeStored_cases hstep
  rcases hcases with ⟨error, -, rfl⟩ | ⟨personas, happly, rfl⟩
  · exact h.frame (OwnersKept.refl _) rfl (fun _ hold => .inl hold)
      fun _ hother => .inl (mem_erase.mp hother).1
  · refine ⟨fun row hrow persona hpersona nodeId hnode => ?_, h.checked, fun other hother => ?_⟩
    · rcases mem_put.mp hrow with rfl | ⟨hold, -⟩
      · rcases named_of_apply happly hpersona hnode with ⟨old, holdmem, holdnode⟩ | hbound
        · obtain ⟨row, hrow, huser, hmem⟩ := mem_storedOf holdmem
          have howner := h.owned row hrow old hmem nodeId holdnode
          rwa [huser] at howner
        · exact h.attested _ (mem_of_get? hrequest) change rfl nodeId hbound
      · exact h.owned row hold persona hpersona nodeId hnode
    · rcases mem_put.mp hother with rfl | ⟨hold, -⟩
      · exact fun _ hchange => by cases hchange
      · exact h.attested other hold

theorem Guarded.step (h : Guarded s) {label : Label} (hstep : step cfg s label = some s') :
    Guarded s' := by
  cases label with
  | createPersona requestId user sessionId record =>
    simp only [NodeBindings.step, createPersona] at hstep
    split at hstep
    · cases hstep
    · have hbound : boundNode (.create record) = record.executorNodeId := rfl
      exact h.beginBinding hbound hstep
  | updatePersona requestId user sessionId personaId body freshDetailId =>
    simp only [NodeBindings.step, updatePersona] at hstep
    split at hstep
    · cases hstep
    · obtain ⟨listed, -, hbegin⟩ := bind_eq_some_iff.mp hstep
      exact h.beginBinding (boundNode_updatesOf personaId body listed freshDetailId) hbegin
  | createNode requestId user sessionId nodeId name enabledExecutors acpxAgent =>
    simp only [NodeBindings.step, createExecutorNode] at hstep
    split at hstep
    · cases hstep
    · obtain ⟨next, hbegin, rfl⟩ := map_eq_some_iff.mp hstep
      have hclaim : Checked s.nodeOwners user (.claim nodeId) := trivial
      have hnext : Guarded next := h.begin hclaim hbegin
      exact hnext.frame (OwnersKept.refl _) rfl (fun _ hold => .inl hold) fun _ hold => .inl hold
  | deleteNode requestId user sessionId nodeId =>
    have hdeletable : Checked s.nodeOwners user (.deletable nodeId) := trivial
    exact h.begin hdeletable hstep
  | advance requestId =>
    obtain ⟨request, hrequest, rfl⟩ := map_eq_some_iff.mp hstep
    exact h.advance (mem_of_get? hrequest)
  | connect nodeId timestamp =>
    obtain ⟨record, -, rfl⟩ := map_eq_some_iff.mp hstep
    exact h.frame (OwnersKept.refl _) rfl (fun _ hold => .inl hold) fun _ hold => .inl hold
  | disconnect nodeId =>
    cases hstep
    exact h.frame (OwnersKept.refl _) rfl (fun _ hold => .inl hold) fun _ hold => .inl hold
  | roster label =>
    rcases rosterStep_cases hstep with
      ⟨requestId, r', -, hchange, rfl⟩ | ⟨-, r', hunbinding, rfl⟩
    · exact h.changeStored hchange
    · refine h.frame (OwnersKept.refl _) hunbinding.stored (fun _ hold => .inl hold)
        fun request hrequest => ?_
      rcases hunbinding.requests request hrequest with hold | hnone
      · exact .inl hold
      · refine .inr fun change hchange nodeId hnode => ?_
        rw [hnone change hchange] at hnode
        cases hnode
  | restart =>
    cases hstep
    exact h.frame (OwnersKept.refl _) rfl (fun _ hother => by cases hother)
      fun _ hother => by cases hother

/-- In every run the node of every stored persona is owned by the persona's user. -/
theorem owned_always {labels : List Label} (h : (system cfg).initial s) :
    (system cfg).Always Guarded s labels := by
  obtain ⟨-, hrequests, -, hpending, -, howned⟩ := h
  have hguarded : Guarded s := by
    refine ⟨howned, fun request hrequest => ?_, fun request hrequest => ?_⟩
    · rw [hpending] at hrequest
      cases hrequest
    · rw [hrequests] at hrequest
      cases hrequest
  exact (System.along_true _ _).always hguarded fun s label s' hs _ hstep => hs.step hstep

end owners

/-! ## The registry -/

section registry

variable {s s' : Server} {cfg : Config}

theorem contains_put {registry : Registry} {record : NodeRecord}
    (h : registry.contains nodeId = true) : (registry.put record).contains nodeId = true :=
  isSome_get?_put registry record h

theorem contains_createNode {registry registry' : Registry} {name : String}
    {enabledExecutors : List String} {acpxAgent : Option String}
    (h : createNode registry nodeId name enabledExecutors acpxAgent = .ok registry')
    {other : String} (hother : registry.contains other = true) :
    registry'.contains other = true := by
  unfold createNode at h
  dsimp only at h
  split at h
  · cases h
  split at h
  · cases h
  split at h
  · cases h
  · cases h
    exact contains_put hother

theorem Registered.frame (h : Registered s) (hstored : s'.roster.stored = s.roster.stored)
    (hregistry : ∀ nodeId, s.registry.contains nodeId = true →
      s'.registry.contains nodeId = true) : Registered s' := by
  intro row hrow persona hpersona nodeId hnode
  rw [hstored] at hrow
  exact hregistry nodeId (h row hrow persona hpersona nodeId hnode)

theorem begin_frame (h : begin s requestId user sessionId check = some s') :
    s'.roster.stored = s.roster.stored ∧ s'.registry = s.registry := by
  unfold NodeBindings.begin at h
  split at h
  · cases h
    exact ⟨rfl, rfl⟩
  · cases h

theorem beginBinding_frame {nodeId : Option String}
    (h : beginBinding s requestId user sessionId nodeId change = some s') :
    s'.roster.stored = s.roster.stored ∧ s'.registry = s.registry := by
  unfold NodeBindings.beginBinding at h
  cases nodeId with
  | some nodeId => exact begin_frame h
  | none =>
    simp only [beginChange] at h
    split at h
    · cases h
      exact ⟨rfl, rfl⟩
    · cases h

/-- A node is deleted: the others stay registered. -/
theorem registered_eraseNode (h : Registered s) (hcheck : request.check = .eraseNode nodeId) :
    Registered (advance s request) ↔
      ∀ row ∈ s.roster.stored.entries, ∀ persona ∈ row.personas.entries,
        persona.executorNodeId ≠ some nodeId := by
  have hregistry : (advance s request).registry = s.registry.erase nodeId := by rw [advance, hcheck]
  have hstored : (advance s request).roster.stored = s.roster.stored := by
    rw [advance, hcheck]
    rfl
  constructor
  · intro hregistered row hrow persona hpersona hnode
    have hcontains := hregistered row (by rw [hstored]; exact hrow) persona hpersona nodeId hnode
    rw [hregistry, Table.contains, Table.get?_erase_self] at hcontains
    cases hcontains
  · intro hunnamed row hrow persona hpersona other hother
    rw [hstored] at hrow
    have hcontains := h row hrow persona hpersona other hother
    have hne : nodeId ≠ other := by
      intro heq
      exact hunnamed row hrow persona hpersona (heq ▸ hother)
    rw [hregistry, Table.contains, Table.get?_erase_of_ne _ hne]
    exact hcontains

/-- No check but the last of a deletion touches the registry. -/
theorem registered_advance (h : Registered s)
    (hcheck : ∀ nodeId, request.check ≠ .eraseNode nodeId) : Registered (advance s request) := by
  unfold NodeBindings.advance
  cases hnext : request.check with
  | eraseNode nodeId => exact absurd hnext (hcheck nodeId)
  | nodeOwned | nodeConnected | deletable | unbound =>
    dsimp only; split <;> exact h.frame rfl fun _ hold => hold
  | claim | closeNode => exact h.frame rfl fun _ hold => hold

/-- A change keeps the nodes registered exactly when the one that it binds is. -/
theorem registered_written (h : Registered s)
    {personas : Stored} {requests : Table Rosters.Request.requestId}
    (happly : change.apply (s.roster.storedOf user) = .ok personas) :
    Registered { s with roster := { s.roster with
        stored := s.roster.stored.put ⟨user, personas⟩
        requests := requests } } ↔
      ∀ nodeId, boundNode change = some nodeId → s.registry.contains nodeId = true := by
  constructor
  · intro hregistered nodeId hbound
    obtain ⟨persona, hpersona, hnode⟩ := bound_of_apply happly hbound
    exact hregistered ⟨user, personas⟩ (mem_put.mpr (.inl rfl)) persona hpersona nodeId hnode
  · intro hbound row hrow persona hpersona nodeId hnode
    rcases mem_put.mp hrow with rfl | ⟨hold, -⟩
    · rcases named_of_apply happly hpersona hnode with ⟨old, holdmem, holdnode⟩ | hnew
      · obtain ⟨row, hrow, -, hmem⟩ := mem_storedOf holdmem
        exact h row hrow old hmem nodeId holdnode
      · exact hbound nodeId hnew
    · exact h row hold persona hpersona nodeId hnode

theorem registered_changeStored (h : Registered s) {r' : Rosters.Server}
    (hstep : Rosters.changeStored s.roster requestId = some r') :
    Registered { s with roster := r' } ↔ Kept s (.roster (.change requestId)) := by
  obtain ⟨user, sessionId, change, hrequest, hcases⟩ := changeStored_cases hstep
  simp only [Kept, hrequest]
  rcases hcases with ⟨error, herror, rfl⟩ | ⟨personas, happly, rfl⟩
  · refine iff_of_true (h.frame rfl fun _ hold => hold) fun hok => ?_
    rw [herror] at hok
    cases hok
  · have hok : (change.apply (s.roster.storedOf user)).isOk = true := by
      rw [happly]
      rfl
    rw [registered_written h happly]
    constructor
    · intro hbound _ nodeId hnode
      exact hbound nodeId hnode
    · intro hkept nodeId hnode
      exact hkept hok nodeId hnode

/-- One step keeps the nodes of the personas registered exactly when it respects the bindings. -/
theorem registered_step (h : Registered s) {label : Label}
    (hstep : step cfg s label = some s') : Registered s' ↔ Kept s label := by
  have hkept : ∀ {next : Server}, next.roster.stored = s.roster.stored ∧
      next.registry = s.registry → Registered next := by
    intro next hnext
    exact h.frame hnext.1 fun _ hold => by rwa [hnext.2]
  cases label with
  | createPersona requestId user sessionId record =>
    simp only [NodeBindings.step, createPersona] at hstep
    split at hstep
    · cases hstep
    · exact iff_of_true (hkept (beginBinding_frame hstep)) trivial
  | updatePersona requestId user sessionId personaId body freshDetailId =>
    simp only [NodeBindings.step, updatePersona] at hstep
    split at hstep
    · cases hstep
    · obtain ⟨listed, -, hbegin⟩ := bind_eq_some_iff.mp hstep
      exact iff_of_true (hkept (beginBinding_frame hbegin)) trivial
  | createNode requestId user sessionId nodeId name enabledExecutors acpxAgent =>
    simp only [NodeBindings.step, createExecutorNode] at hstep
    split at hstep
    · cases hstep
    · rename_i registry hcreate
      obtain ⟨next, hbegin, rfl⟩ := map_eq_some_iff.mp hstep
      refine iff_of_true (h.frame (begin_frame hbegin).1 fun other hother => ?_) trivial
      exact contains_createNode hcreate hother
  | deleteNode requestId user sessionId nodeId =>
    exact iff_of_true (hkept (begin_frame hstep)) trivial
  | advance requestId =>
    obtain ⟨request, hrequest, rfl⟩ := map_eq_some_iff.mp hstep
    obtain ⟨id, user, sessionId, check⟩ := request
    simp only [Kept, hrequest]
    cases check with
    | eraseNode nodeId => exact registered_eraseNode h rfl
    | _ => exact iff_of_true (registered_advance h (by simp)) trivial
  | connect nodeId timestamp =>
    obtain ⟨record, -, rfl⟩ := map_eq_some_iff.mp hstep
    exact iff_of_true (h.frame rfl fun _ hold => contains_put hold) trivial
  | disconnect | restart =>
    cases hstep
    exact iff_of_true (hkept ⟨rfl, rfl⟩) trivial
  | roster label =>
    rcases rosterStep_cases hstep with
      ⟨requestId, r', rfl, hchange, rfl⟩ | ⟨hno, r', hunbinding, rfl⟩
    · exact registered_changeStored h hchange
    · refine iff_of_true (hkept ⟨hunbinding.stored, rfl⟩) ?_
      cases label with
      | change requestId => exact absurd rfl (hno requestId)
      | _ => trivial

/-- In every run the node of every stored persona exists and is one of its user throughout,
exactly when every deletion and every binding in it respects the bindings. -/
theorem nodes_exist_iff {labels : List Label} (h : (system cfg).initial s) :
    (system cfg).Always NodesExist s labels ↔ (system cfg).Along Kept s labels := by
  have hregistered : Registered s := h.2.2.2.2.1
  have howned : (system cfg).Always Owned s labels := (owned_always h).mono fun _ hs => hs.owned
  have hiff : (system cfg).Always Registered s labels ↔ (system cfg).Along Kept s labels :=
    System.always_iff_along (Q := fun _ _ => True)
      (fun s label s' hs _ hstep => registered_step hs hstep) hregistered
      (System.along_true _ _)
  rw [← hiff]
  exact ⟨fun hall => hall.mono fun _ => And.left, fun hall => hall.and howned⟩

end registry

/-! ## A node that is deleted after a restart -/

instance (s : Server) (label : Label) : Decidable (Kept s label) := by
  unfold Kept
  split
  · split <;> infer_instance
  · split <;> infer_instance
  · infer_instance

def emptyServer : Server :=
  ⟨Rosters.freshServer, Table.empty, Table.empty, [], Table.empty⟩

def boundAda : Persona := { Rosters.ada with executorNodeId := some "node-1" }

/-- A Bro is bound to a computer. -/
def boundLabels : List Label :=
  [.roster (.createSession "request-1" "user-1" "session-1" []), .roster (.read "request-1"),
    .roster (.sync "request-1"),
    .createNode "request-2" "user-1" "session-1" "node-1" "Laptop" ["codex"] none,
    .advance "request-2", .connect "node-1" "2026-06-01T08:00:00+00:00",
    .createPersona "request-3" "user-1" "session-1" boundAda, .advance "request-3",
    .advance "request-3", .roster (.change "request-3"), .roster (.read "request-3"),
    .roster (.sync "request-3")]

/-- The computer is deleted. -/
def deletionLabels : List Label :=
  [.deleteNode "request-4" "user-1" "session-1" "node-1", .advance "request-4",
    .advance "request-4", .advance "request-4", .advance "request-4"]

theorem initial_emptyServer (cfg : Config) : (system cfg).initial emptyServer := by
  have hnodes : NodesExist emptyServer := by constructor <;> exact fun row hrow => by cases hrow
  exact ⟨rfl, rfl, rfl, rfl, hnodes⟩

/-- The binding is kept while the Bro gets a computer. -/
theorem bound_bro_has_node :
    (system SessionRuntime.codexConfig).Always NodesExist emptyServer boundLabels := by
  refine (nodes_exist_iff (initial_emptyServer SessionRuntime.codexConfig)).mpr ?_
  exact (System.along_of_check (C := fun s label => decide (Kept s label)) (by decide)).mono
    fun _ _ => of_decide_eq_true

/-- The server starts again between the two. -/
def restartLabels : List Label := boundLabels ++ .restart :: deletionLabels

/-- The guard of the deletion sees no session, and the Bro is left with a computer that is gone. -/
theorem restart_hides_binding :
    ¬ ∀ (cfg : Config) (s : Server) (labels : List Label), (system cfg).initial s →
      (system cfg).Always NodesExist s labels := by
  intro h
  have hrun := h SessionRuntime.codexConfig emptyServer restartLabels (initial_emptyServer _)
  have henabled : ((system SessionRuntime.codexConfig).run emptyServer restartLabels).isSome =
      true := by decide
  have hregistered := (hrun.at_end (System.run_eq_target henabled)).1
  have hgone : ¬ ∀ row ∈ ((system SessionRuntime.codexConfig).target emptyServer
        restartLabels).roster.stored.entries,
      ∀ persona ∈ row.personas.entries, persona.executorNodeId = some "node-1" →
        ((system SessionRuntime.codexConfig).target emptyServer
          restartLabels).registry.contains "node-1" = true := by decide
  exact hgone fun row hrow persona hpersona hnode =>
    hregistered row hrow persona hpersona "node-1" hnode

end Newbro.NodeBindings
