import Newbro.Library.Table
import Newbro.Library.Transition

/-!
# Revocation of node credentials

`register_connection`, `rotate_node_credentials` and `delete_node` between their awaits, over
the registry's records and the connection table. A connection keeps the token that it was
admitted with, and a token that a returned call has revoked is remembered; neither is stored
by the source. Tokens and websockets are never used twice.
-/
namespace Newbro.Credentials

open Library Option Table List

/-- A connection with the token that was verified for it. -/
structure Admitted where
  nodeId : String
  websocket : String
  token : String
  deriving Repr, DecidableEq

/-- A `register_connection` whose credentials are verified. -/
structure Registration where
  websocket : String
  nodeId : String
  token : String
  deriving Repr, DecidableEq

inductive RevocationKind where
  /-- `rotate_node_credentials`, with the token that the new one has replaced. -/
  | rotate (superseded : String)
  | delete
  deriving Repr, DecidableEq

/-- How far a revocation has come: a rotation begins with the registry, a deletion ends with
it, and both look the connection up, close its websocket and pop it in between. -/
inductive RevocationStage where
  | begun
  | closing (websocket : String)
  | popped
  deriving Repr, DecidableEq

structure Revocation where
  revocationId : String
  kind : RevocationKind
  nodeId : String
  stage : RevocationStage
  deriving Repr, DecidableEq

structure State where
  /-- The token of each record of the registry. -/
  records : Dict String String
  connectionsByNode : Table Admitted.nodeId
  registrations : Table Registration.websocket
  revocations : Table Revocation.revocationId
  issued : List String
  /-- The tokens that are in no record any more. -/
  spent : List String
  /-- The tokens whose revocation has returned. -/
  revoked : List String
  websockets : List String

inductive Label where
  | createNode (nodeId token : String)
  | verifyCredentials (websocket nodeId token : String)
  | insertConnection (websocket : String)
  | disconnect (websocket : String)
  | rotateCredentials (revocationId nodeId token : String)
  | deleteNode (revocationId nodeId : String)
  | lookUp (revocationId : String)
  | popConnection (revocationId : String)
  | finish (revocationId : String)
  deriving Repr, DecidableEq

/-! ## Steps -/

namespace State

def createNode (s : State) (nodeId token : String) : Option State :=
  if token ∈ s.issued ∨ (s.records.lookup nodeId).isSome then none
  else some { s with records := s.records.set nodeId token, issued := s.issued ++ [token] }

/-- The first stretch of `register_connection`; wrong credentials end it. -/
def verifyCredentials (s : State) (websocket nodeId token : String) : Option State :=
  if websocket ∈ s.websockets then none
  else
    let s := { s with websockets := s.websockets ++ [websocket] }
    if s.records.lookup nodeId = some token then
      some { s with registrations := s.registrations.put ⟨websocket, nodeId, token⟩ }
    else some s

/-- The second stretch: a node that is connected already is refused. -/
def insertConnection (s : State) (websocket : String) : Option State :=
  (s.registrations.get? websocket).map fun registration =>
    let s := { s with registrations := s.registrations.erase websocket }
    if (s.connectionsByNode.get? registration.nodeId).isSome then s
    else
      let admitted := ⟨registration.nodeId, websocket, registration.token⟩
      { s with connectionsByNode := s.connectionsByNode.put admitted }

/-- `disconnect`: the connection with the websocket is popped, wherever it is. -/
def dropWebsocket (s : State) (websocket : String) : State :=
  match s.connectionsByNode.entries.find? fun c => c.websocket = websocket with
  | none => s
  | some c => { s with connectionsByNode := s.connectionsByNode.erase c.nodeId }

/-- The registry's part of `rotate_node_credentials`. -/
def rotateCredentials (s : State) (revocationId nodeId token : String) : Option State :=
  if token ∈ s.issued ∨ (s.revocations.get? revocationId).isSome then none
  else
    (s.records.lookup nodeId).map fun superseded =>
      { s with
        records := s.records.set nodeId token
        issued := s.issued ++ [token]
        spent := s.spent ++ [superseded]
        revocations := s.revocations.put ⟨revocationId, .rotate superseded, nodeId, .begun⟩ }

/-- What the look-up of the connection leads to. -/
def foundStage (s : State) (nodeId : String) : RevocationStage :=
  match s.connectionsByNode.get? nodeId with
  | none => .popped
  | some c => .closing c.websocket

/-- `delete_node` begins with the look-up. -/
def deleteNode (s : State) (revocationId nodeId : String) : Option State :=
  if (s.revocations.get? revocationId).isSome then none
  else
    let revocation := ⟨revocationId, .delete, nodeId, s.foundStage nodeId⟩
    some { s with revocations := s.revocations.put revocation }

/-- The look-up of a rotation. -/
def lookUp (s : State) (revocationId : String) : Option State :=
  ((s.revocations.get? revocationId).filter (·.stage = .begun)).map fun revocation =>
    let found := { revocation with stage := s.foundStage revocation.nodeId }
    { s with revocations := s.revocations.put found }

/-- The websocket that was found is closed and disconnected. -/
def popConnection (s : State) (revocationId : String) : Option State :=
  (s.revocations.get? revocationId).bind fun revocation =>
    match revocation.stage with
    | .closing websocket =>
      let popped := { revocation with stage := .popped }
      some { s.dropWebsocket websocket with revocations := s.revocations.put popped }
    | _ => none

/-- The call returns; a deletion removes the record first, if there still is one. -/
def finish (s : State) (revocationId : String) : Option State :=
  ((s.revocations.get? revocationId).filter (·.stage = .popped)).map fun revocation =>
    let s := { s with revocations := s.revocations.erase revocationId }
    match revocation.kind with
    | .rotate superseded => { s with revoked := s.revoked ++ [superseded] }
    | .delete =>
      match s.records.lookup revocation.nodeId with
      | none => s
      | some token =>
        { s with
          records := s.records.erase revocation.nodeId
          spent := s.spent ++ [token]
          revoked := s.revoked ++ [token] }

def step (s : State) : Label → Option State
  | .createNode nodeId token => s.createNode nodeId token
  | .verifyCredentials websocket nodeId token => s.verifyCredentials websocket nodeId token
  | .insertConnection websocket => s.insertConnection websocket
  | .disconnect websocket => some (s.dropWebsocket websocket)
  | .rotateCredentials revocationId nodeId token => s.rotateCredentials revocationId nodeId token
  | .deleteNode revocationId nodeId => s.deleteNode revocationId nodeId
  | .lookUp revocationId => s.lookUp revocationId
  | .popConnection revocationId => s.popConnection revocationId
  | .finish revocationId => s.finish revocationId

end State

def emptyState : State :=
  { records := Table.empty
    connectionsByNode := Table.empty
    registrations := Table.empty
    revocations := Table.empty
    issued := []
    spent := []
    revoked := []
    websockets := [] }

def credentialSystem : System State Label where
  initial s := s = emptyState
  step := State.step

/-! ## The property and the condition -/

/-- No connection was admitted with a token whose revocation has returned. -/
def RevocationFinal (s : State) : Prop :=
  ∀ c ∈ s.connectionsByNode.entries, c.token ∉ s.revoked

def Revocation.deletes (revocation : Revocation) (nodeId : String) : Bool :=
  revocation.kind = .delete && revocation.nodeId = nodeId

/-- The rotation has replaced the token and not yet looked up the connection. -/
def Revocation.willLookUp (revocation : Revocation) (nodeId token : String) : Bool :=
  revocation.kind = .rotate token && revocation.nodeId = nodeId && revocation.stage = .begun

/-- A connection is inserted while no deletion of its node is past its look-up, and with
a token that is the node's own, or whose rotation has still to look up the connection. -/
def insertsInTime (s : State) : Label → Bool
  | .insertConnection websocket =>
    (s.registrations.get? websocket).all fun registration =>
      s.revocations.entries.all (fun revocation => !revocation.deletes registration.nodeId) &&
        (s.records.lookup registration.nodeId = some registration.token ||
          s.revocations.entries.any fun revocation =>
            revocation.willLookUp registration.nodeId registration.token)
  | _ => true

/-! ## The invariant -/

/-- What is still to come for a connection if its token is given up. -/
inductive Tracked (s : State) (c : Admitted) : Prop
  | current (htoken : s.records.lookup c.nodeId = some c.token)
      (hdeletes : ∀ revocation ∈ s.revocations.entries, revocation.deletes c.nodeId = true →
        revocation.stage = .closing c.websocket)
  | superseded (revocation : Revocation) (hmem : revocation ∈ s.revocations.entries)
      (hkind : revocation.kind = .rotate c.token) (hnode : revocation.nodeId = c.nodeId)
      (hstage : revocation.stage = .begun ∨ revocation.stage = .closing c.websocket)

structure Sound (s : State) : Prop where
  current_issued : ∀ nodeId token, s.records.lookup nodeId = some token →
    token ∈ s.issued ∧ token ∉ s.spent
  current_unique : ∀ nodeId nodeId' token, s.records.lookup nodeId = some token →
    s.records.lookup nodeId' = some token → nodeId = nodeId'
  spent_issued : ∀ token ∈ s.spent, token ∈ s.issued
  revoked_spent : ∀ token ∈ s.revoked, token ∈ s.spent
  rotation_spent : ∀ revocation ∈ s.revocations.entries, ∀ token,
    revocation.kind = .rotate token → token ∈ s.spent ∧ token ∉ s.revoked
  rotation_unique : ∀ revocation ∈ s.revocations.entries, ∀ other ∈ s.revocations.entries,
    ∀ token, revocation.kind = .rotate token → other.kind = .rotate token → revocation = other
  registered : ∀ registration ∈ s.registrations.entries,
    registration.websocket ∈ s.websockets ∧
      ∀ c ∈ s.connectionsByNode.entries, c.websocket ≠ registration.websocket
  connected : ∀ c ∈ s.connectionsByNode.entries, c.websocket ∈ s.websockets ∧
    ∀ other ∈ s.connectionsByNode.entries, other.websocket = c.websocket → other = c
  tracked : ∀ c ∈ s.connectionsByNode.entries, Tracked s c

/-- A revoked token is neither a current one nor one whose rotation is under way. -/
theorem Sound.revocationFinal {s : State} (h : Sound s) : RevocationFinal s := by
  intro c hc hrevoked
  cases h.tracked c hc with
  | current htoken hdeletes =>
    exact (h.current_issued c.nodeId c.token htoken).2 (h.revoked_spent c.token hrevoked)
  | superseded revocation hmem hkind hnode hstage =>
    exact (h.rotation_spent revocation hmem c.token hkind).2 hrevoked

theorem sound_empty : Sound emptyState where
  current_issued := fun _ _ h => by cases h
  current_unique := fun _ _ _ h => by cases h
  spent_issued := fun _ h => by cases h
  revoked_spent := fun _ h => by cases h
  rotation_spent := fun _ h => by cases h
  rotation_unique := fun _ h => by cases h
  registered := fun _ h => by cases h
  connected := fun _ h => by cases h
  tracked := fun _ h => by cases h

/-! ## What each step preserves -/

variable {c : Admitted} {nodeId token websocket revocationId : String}

variable {connections : Table Admitted.nodeId} {revocation : Revocation}

section steps

variable {s s' : State}

theorem Tracked.frame (h : Tracked s c) (hrecords : s'.records = s.records)
    (hrevocations : s'.revocations = s.revocations) : Tracked s' c := by
  cases h with
  | current htoken hdeletes =>
    refine .current (hrecords ▸ htoken) ?_
    rw [hrevocations]
    exact hdeletes
  | superseded revocation hmem hkind hnode hstage =>
    exact .superseded revocation (hrevocations ▸ hmem) hkind hnode hstage

theorem sound_createNode (h : Sound s) (hs : s.createNode nodeId token = some s') : Sound s' := by
  unfold State.createNode at hs
  split at hs
  · cases hs
  · rename_i hnew
    cases hs
    simp only [not_or, Bool.not_eq_true, isSome_eq_false_iff, isNone_iff_eq_none] at hnew
    obtain ⟨hfresh, hnone⟩ := hnew
    have hspent : token ∉ s.spent := fun hmem => hfresh (h.spent_issued token hmem)
    refine ⟨?_, ?_, ?_, h.revoked_spent, h.rotation_spent, h.rotation_unique, h.registered,
      h.connected, ?_⟩
    · intro node current hcurrent
      rw [Dict.lookup_set] at hcurrent
      rw [mem_append]
      split at hcurrent
      · cases hcurrent
        exact ⟨.inr (mem_singleton_self token), hspent⟩
      · exact (h.current_issued node current hcurrent).imp_left .inl
    · intro node node' current hnode hnode'
      rw [Dict.lookup_set] at hnode hnode'
      split at hnode
      · split at hnode'
        · rename_i hsame hsame'
          exact hsame.symm.trans hsame'
        · cases hnode
          exact absurd (h.current_issued node' token hnode').1 hfresh
      · split at hnode'
        · cases hnode'
          exact absurd (h.current_issued node token hnode).1 hfresh
        · exact h.current_unique node node' current hnode hnode'
    · intro spent hmem
      exact mem_append_left _ (h.spent_issued spent hmem)
    · intro c hc
      cases h.tracked c hc with
      | current htoken hdeletes =>
        refine .current ?_ hdeletes
        have hne : nodeId ≠ c.nodeId := by
          rintro rfl
          rw [hnone] at htoken
          cases htoken
        rw [Dict.lookup_set_of_ne _ _ hne]
        exact htoken
      | superseded revocation hmem hkind hnode hstage =>
        exact .superseded revocation hmem hkind hnode hstage

theorem sound_verifyCredentials (h : Sound s)
    (hs : s.verifyCredentials websocket nodeId token = some s') : Sound s' := by
  unfold State.verifyCredentials at hs
  split at hs
  · cases hs
  · rename_i hnew
    have hconnected : ∀ c ∈ s.connectionsByNode.entries,
        c.websocket ∈ s.websockets ++ [websocket] ∧
          ∀ other ∈ s.connectionsByNode.entries, other.websocket = c.websocket → other = c :=
      fun c hc => (h.connected c hc).imp_left (mem_append_left _)
    have hregistered : ∀ registration ∈ s.registrations.entries,
        registration.websocket ∈ s.websockets ++ [websocket] ∧
          ∀ c ∈ s.connectionsByNode.entries, c.websocket ≠ registration.websocket :=
      fun registration hr => (h.registered registration hr).imp_left (mem_append_left _)
    simp only at hs
    split at hs
    · cases hs
      refine ⟨h.current_issued, h.current_unique, h.spent_issued, h.revoked_spent,
        h.rotation_spent, h.rotation_unique, ?_, hconnected, ?_⟩
      · intro registration hr
        rcases mem_put.mp hr with rfl | ⟨hold, -⟩
        · refine ⟨mem_append_right _ (mem_singleton_self websocket), ?_⟩
          intro c hc hsame
          have hused := (h.connected c hc).1
          rw [hsame] at hused
          exact hnew hused
        · exact hregistered registration hold
      · exact fun c hc => (h.tracked c hc).frame rfl rfl
    · cases hs
      refine ⟨h.current_issued, h.current_unique, h.spent_issued, h.revoked_spent,
        h.rotation_spent, h.rotation_unique, hregistered, hconnected, ?_⟩
      exact fun c hc => (h.tracked c hc).frame rfl rfl

/-- A registration that is inserted in time is tracked. -/
theorem sound_insertConnection (h : Sound s)
    (htime : insertsInTime s (.insertConnection websocket) = true)
    (hs : s.insertConnection websocket = some s') : Sound s' := by
  unfold State.insertConnection at hs
  obtain ⟨registration, hfound, hs⟩ := Option.map_eq_some_iff.mp hs
  have hmem : registration ∈ s.registrations.entries := Table.mem_of_get? hfound
  have hws : registration.websocket = websocket := Table.key_of_get? hfound
  have hregistered : ∀ other ∈ (s.registrations.erase websocket).entries,
      other.websocket ∈ s.websockets ∧
        ∀ c ∈ s.connectionsByNode.entries, c.websocket ≠ other.websocket :=
    fun other hother => h.registered other (Table.mem_erase.mp hother).1
  simp only at hs
  split at hs
  · subst hs
    refine ⟨h.current_issued, h.current_unique, h.spent_issued, h.revoked_spent,
      h.rotation_spent, h.rotation_unique, hregistered, h.connected, ?_⟩
    exact fun c hc => (h.tracked c hc).frame rfl rfl
  · rename_i hfree
    subst hs
    have hnew := h.registered registration hmem
    rw [hws] at hnew
    have hentry : ∀ c ∈ (s.connectionsByNode.put
        ⟨registration.nodeId, websocket, registration.token⟩).entries,
        c = ⟨registration.nodeId, websocket, registration.token⟩ ∨
          c ∈ s.connectionsByNode.entries :=
      fun c hc => (Table.mem_put.mp hc).imp_right And.left
    refine ⟨h.current_issued, h.current_unique, h.spent_issued, h.revoked_spent,
      h.rotation_spent, h.rotation_unique, ?_, ?_, ?_⟩
    · intro other hother
      obtain ⟨hused, hnone⟩ := hregistered other hother
      refine ⟨hused, ?_⟩
      intro c hc
      rcases hentry c hc with rfl | hc
      · exact ((Table.mem_erase.mp hother).2).symm
      · exact hnone c hc
    · intro c hc
      rcases hentry c hc with rfl | hc
      · refine ⟨hnew.1, ?_⟩
        intro other hother hsame
        rcases hentry other hother with rfl | hother
        · rfl
        · exact absurd hsame (hnew.2 other hother)
      · refine ⟨(h.connected c hc).1, ?_⟩
        intro other hother hsame
        rcases hentry other hother with rfl | hother
        · exact absurd hsame.symm (hnew.2 c hc)
        · exact (h.connected c hc).2 other hother hsame
    · intro c hc
      rcases hentry c hc with rfl | hc
      · simp only [insertsInTime, hfound, Option.all_some, Bool.and_eq_true, List.all_eq_true,
          Bool.not_eq_true', Bool.or_eq_true, decide_eq_true_eq, List.any_eq_true] at htime
        obtain ⟨hdeletes, htoken | ⟨revocation, hrevocation, hlook⟩⟩ := htime
        · refine .current htoken ?_
          intro revocation hrevocation hdelete
          rw [hdeletes revocation hrevocation] at hdelete
          cases hdelete
        · simp only [Revocation.willLookUp, Bool.and_eq_true, decide_eq_true_eq] at hlook
          exact .superseded revocation hrevocation hlook.1.1 hlook.1.2 (.inl hlook.2)
      · exact (h.tracked c hc).frame rfl rfl

/-- The connections that are left after a disconnect. -/
theorem mem_dropWebsocket (h : Sound s)
    (hc : c ∈ (s.dropWebsocket websocket).connectionsByNode.entries) :
    c ∈ s.connectionsByNode.entries ∧ c.websocket ≠ websocket := by
  unfold State.dropWebsocket at hc
  split at hc
  · rename_i hnone
    refine ⟨hc, ?_⟩
    have hnot := List.find?_eq_none.mp hnone c hc
    simpa using hnot
  · rename_i dropped hfound
    obtain ⟨hmem, hne⟩ := mem_erase.mp hc
    refine ⟨hmem, ?_⟩
    intro hsame
    have hdropped : dropped.websocket = websocket := by simpa using List.find?_some hfound
    have heq := (h.connected dropped (mem_of_find?_eq_some hfound)).2 c hmem
      (hsame.trans hdropped.symm)
    exact hne (congrArg Admitted.nodeId heq)

theorem dropWebsocket_frame (s : State) (websocket : String) :
    s.dropWebsocket websocket =
      { s with connectionsByNode := (s.dropWebsocket websocket).connectionsByNode } := by
  unfold State.dropWebsocket
  split <;> rfl

section

variable (h : Sound s)
include h

/-- Fewer connections and other revocations. -/
theorem Sound.shrink
    {revocations : Table Revocation.revocationId}
    (hconnections : ∀ c ∈ connections.entries, c ∈ s.connectionsByNode.entries)
    (hspent : ∀ revocation ∈ revocations.entries, ∀ token, revocation.kind = .rotate token →
      token ∈ s.spent ∧ token ∉ s.revoked)
    (hunique : ∀ revocation ∈ revocations.entries, ∀ other ∈ revocations.entries,
      ∀ token, revocation.kind = .rotate token → other.kind = .rotate token → revocation = other)
    (htracked : ∀ c ∈ connections.entries,
      Tracked { s with connectionsByNode := connections, revocations := revocations } c) :
    Sound { s with connectionsByNode := connections, revocations := revocations } :=
  ⟨h.current_issued, h.current_unique, h.spent_issued, h.revoked_spent, hspent, hunique,
    fun registration hr => (h.registered registration hr).imp_right
      fun hnone c hc => hnone c (hconnections c hc),
    fun c hc => (h.connected c (hconnections c hc)).imp_right
      fun hunique other hother => hunique other (hconnections other hother),
    htracked⟩

theorem sound_disconnect : Sound (s.dropWebsocket websocket) := by
  rw [dropWebsocket_frame]
  exact h.shrink (fun c hc => (mem_dropWebsocket h hc).1) h.rotation_spent h.rotation_unique
    fun c hc => (h.tracked c (mem_dropWebsocket h hc).1).frame rfl rfl

theorem sound_rotateCredentials
    (hs : s.rotateCredentials revocationId nodeId token = some s') : Sound s' := by
  unfold State.rotateCredentials at hs
  split at hs
  · cases hs
  · rename_i hnew
    simp only [not_or, Bool.not_eq_true, isSome_eq_false_iff, isNone_iff_eq_none] at hnew
    obtain ⟨hfresh, hunused⟩ := hnew
    obtain ⟨superseded, hold, rfl⟩ := map_eq_some_iff.mp hs
    obtain ⟨hissued, hcurrent⟩ := h.current_issued nodeId superseded hold
    have hentry : ∀ revocation ∈ (s.revocations.put
        ⟨revocationId, .rotate superseded, nodeId, .begun⟩).entries,
        revocation = ⟨revocationId, .rotate superseded, nodeId, .begun⟩ ∨
          revocation ∈ s.revocations.entries :=
      fun revocation hr => (mem_put.mp hr).imp_right And.left
    have hkept : ∀ revocation ∈ s.revocations.entries, revocation ∈ (s.revocations.put
        ⟨revocationId, .rotate superseded, nodeId, .begun⟩).entries := by
      intro revocation hr
      exact mem_put.mpr (.inr ⟨hr, Table.get?_eq_none_iff.mp hunused revocation hr⟩)
    refine ⟨?_, ?_, ?_, ?_, ?_, ?_, h.registered, h.connected, ?_⟩
    · intro node current hnode
      rw [Dict.lookup_set] at hnode
      simp only [mem_append, mem_singleton, not_or]
      split at hnode
      · cases hnode
        refine ⟨.inr rfl, fun hmem => hfresh (h.spent_issued token hmem), ?_⟩
        rintro rfl
        exact hfresh hissued
      · rename_i hne
        have hother := h.current_issued node current hnode
        refine ⟨.inl hother.1, hother.2, ?_⟩
        rintro rfl
        exact hne (h.current_unique nodeId node current hold hnode)
    · intro node node' current hnode hnode'
      rw [Dict.lookup_set] at hnode hnode'
      split at hnode
      · split at hnode'
        · rename_i hsame hsame'
          exact hsame.symm.trans hsame'
        · cases hnode
          exact absurd (h.current_issued node' token hnode').1 hfresh
      · split at hnode'
        · cases hnode'
          exact absurd (h.current_issued node token hnode).1 hfresh
        · exact h.current_unique node node' current hnode hnode'
    · intro spent hmem
      rcases mem_append.mp hmem with hmem | hmem
      · exact mem_append_left _ (h.spent_issued spent hmem)
      · rw [mem_singleton.mp hmem]
        exact mem_append_left _ hissued
    · exact fun revoked hmem => mem_append_left _ (h.revoked_spent revoked hmem)
    · intro revocation hr spent hkind
      rcases hentry revocation hr with rfl | hr
      · cases hkind
        exact ⟨mem_append_right _ (mem_singleton_self superseded),
          fun hmem => hcurrent (h.revoked_spent superseded hmem)⟩
      · exact (h.rotation_spent revocation hr spent hkind).imp_left (mem_append_left _)
    · intro revocation hr other hother spent hkind hkind'
      rcases hentry revocation hr with rfl | hr
      · rcases hentry other hother with rfl | hother
        · rfl
        · cases hkind
          exact absurd (h.rotation_spent other hother superseded hkind').1 hcurrent
      · rcases hentry other hother with rfl | hother
        · cases hkind'
          exact absurd (h.rotation_spent revocation hr superseded hkind).1 hcurrent
        · exact h.rotation_unique revocation hr other hother spent hkind hkind'
    · intro c hc
      cases h.tracked c hc with
      | current htoken hdeletes =>
        by_cases hsame : nodeId = c.nodeId
        · rw [← hsame, hold] at htoken
          cases htoken
          exact .superseded _ (mem_put.mpr (.inl rfl)) rfl hsame (.inl rfl)
        · refine .current ?_ ?_
          · rw [Dict.lookup_set_of_ne _ _ hsame]
            exact htoken
          · intro revocation hr hdelete
            rcases hentry revocation hr with rfl | hr
            · cases hdelete
            · exact hdeletes revocation hr hdelete
      | superseded revocation hmem hkind hnode hstage =>
        exact .superseded revocation (hkept revocation hmem) hkind hnode hstage

theorem sound_deleteNode (hs : s.deleteNode revocationId nodeId = some s') : Sound s' := by
  unfold State.deleteNode at hs
  split at hs
  · cases hs
  · rename_i hunused
    simp only [Bool.not_eq_true, isSome_eq_false_iff, isNone_iff_eq_none] at hunused
    cases hs
    have hentry : ∀ revocation ∈ (s.revocations.put
        ⟨revocationId, .delete, nodeId, s.foundStage nodeId⟩).entries,
        revocation = ⟨revocationId, .delete, nodeId, s.foundStage nodeId⟩ ∨
          revocation ∈ s.revocations.entries :=
      fun revocation hr => (mem_put.mp hr).imp_right And.left
    refine h.shrink (fun c hc => hc) ?_ ?_ ?_
    · intro revocation hr token hkind
      rcases hentry revocation hr with rfl | hr
      · cases hkind
      · exact h.rotation_spent revocation hr token hkind
    · intro revocation hr other hother token hkind hkind'
      rcases hentry revocation hr with rfl | hr
      · cases hkind
      · rcases hentry other hother with rfl | hother
        · cases hkind'
        · exact h.rotation_unique revocation hr other hother token hkind hkind'
    · intro c hc
      cases h.tracked c hc with
      | current htoken hdeletes =>
        refine .current htoken ?_
        intro revocation hr hdelete
        rcases hentry revocation hr with rfl | hr
        · simp only [Revocation.deletes, decide_true, Bool.true_and, decide_eq_true_eq] at hdelete
          have hget := Table.get?_of_mem hc
          simp only [State.foundStage, hdelete, hget]
        · exact hdeletes revocation hr hdelete
      | superseded revocation hmem hkind hnode hstage =>
        refine .superseded revocation (mem_put.mpr (.inr ⟨hmem, ?_⟩)) hkind hnode hstage
        exact Table.get?_eq_none_iff.mp hunused revocation hmem

/-- A revocation goes on to its next stage, with the connections that are left then. -/
theorem Sound.advance {stage : RevocationStage}
    (hmem : revocation ∈ s.revocations.entries)
    (hconnections : ∀ c ∈ connections.entries, c ∈ s.connectionsByNode.entries)
    (hstage : ∀ c ∈ connections.entries, c.nodeId = revocation.nodeId →
      revocation.stage = .begun ∨ revocation.stage = .closing c.websocket →
        stage = .closing c.websocket) :
    Sound { s with
      connectionsByNode := connections
      revocations := s.revocations.put { revocation with stage := stage } } := by
  have hentry : ∀ other ∈ (s.revocations.put { revocation with stage := stage }).entries,
      other = { revocation with stage := stage } ∨
        (other ∈ s.revocations.entries ∧ other.revocationId ≠ revocation.revocationId) :=
    fun other hother => mem_put.mp hother
  have hrotates : ∀ other ∈ (s.revocations.put { revocation with stage := stage }).entries,
      ∃ before ∈ s.revocations.entries, before.kind = other.kind ∧
        before.revocationId = other.revocationId := by
    intro other hother
    rcases hentry other hother with rfl | ⟨hold, -⟩
    · exact ⟨revocation, hmem, rfl, rfl⟩
    · exact ⟨other, hold, rfl, rfl⟩
  refine h.shrink hconnections ?_ ?_ ?_
  · intro other hother token hkind
    obtain ⟨before, hbefore, hsame, -⟩ := hrotates other hother
    exact h.rotation_spent before hbefore token (hsame.trans hkind)
  · intro other hother other' hother' token hkind hkind'
    obtain ⟨before, hbefore, hsame, hid⟩ := hrotates other hother
    obtain ⟨before', hbefore', hsame', hid'⟩ := hrotates other' hother'
    have heq := h.rotation_unique before hbefore before' hbefore' token (hsame.trans hkind)
      (hsame'.trans hkind')
    refine (s.revocations.put { revocation with stage := stage }).eq_of_key_eq hother hother' ?_
    rw [← hid, ← hid', heq]
  · intro c hc
    cases h.tracked c (hconnections c hc) with
    | current htoken hdeletes =>
      refine .current htoken ?_
      intro other hother hdelete
      rcases hentry other hother with rfl | ⟨hold, -⟩
      · have hnode : c.nodeId = revocation.nodeId := by
          simp only [Revocation.deletes, Bool.and_eq_true, decide_eq_true_eq] at hdelete
          exact hdelete.2.symm
        exact hstage c hc hnode (.inr (hdeletes revocation hmem hdelete))
      · exact hdeletes other hold hdelete
    | superseded rotation hrotation hkind hnode hstage' =>
      by_cases hsame : rotation.revocationId = revocation.revocationId
      · have heq := s.revocations.eq_of_key_eq hrotation hmem hsame
        subst heq
        exact .superseded _ (mem_put.mpr (.inl rfl)) hkind hnode
          (.inr (hstage c hc hnode.symm hstage'))
      · exact .superseded rotation (mem_put.mpr (.inr ⟨hrotation, hsame⟩)) hkind hnode
          hstage'

theorem sound_lookUp (hs : s.lookUp revocationId = some s') : Sound s' := by
  unfold State.lookUp at hs
  obtain ⟨revocation, hfound, rfl⟩ := map_eq_some_iff.mp hs
  obtain ⟨hget, hbegun⟩ := filter_eq_some_iff.mp hfound
  refine h.advance (mem_of_get? hget) (fun c hc => hc) ?_
  intro c hc hnode _
  have hconnection := Table.get?_of_mem hc
  simp only [State.foundStage, ← hnode, hconnection]

theorem sound_popConnection (hs : s.popConnection revocationId = some s') : Sound s' := by
  unfold State.popConnection at hs
  obtain ⟨revocation, hget, hs⟩ := bind_eq_some_iff.mp hs
  split at hs
  · rename_i websocket hclosing
    cases hs
    rw [dropWebsocket_frame]
    refine h.advance (mem_of_get? hget) (fun c hc => (mem_dropWebsocket h hc).1) ?_
    intro c hc _ hstage
    have hne := (mem_dropWebsocket h hc).2
    rcases hstage with hstage | hstage
    · rw [hclosing] at hstage
      cases hstage
    · rw [hclosing] at hstage
      cases hstage
      exact absurd rfl hne
  · cases hs

end

/-- A revocation that has popped the connection holds none any more. -/
theorem Tracked.not_popped (h : Tracked s c)
    (hmem : revocation ∈ s.revocations.entries) (hpopped : revocation.stage = .popped) :
    (s.records.lookup c.nodeId = some c.token ∧ revocation.deletes c.nodeId = false ∧
      ∀ other ∈ s.revocations.entries, other.deletes c.nodeId = true →
        other.stage = .closing c.websocket) ∨
      ∃ rotation ∈ s.revocations.entries, rotation.kind = .rotate c.token ∧
        rotation.nodeId = c.nodeId ∧
        (rotation.stage = .begun ∨ rotation.stage = .closing c.websocket) ∧
        rotation.revocationId ≠ revocation.revocationId := by
  cases h with
  | current htoken hdeletes =>
    refine .inl ⟨htoken, ?_, hdeletes⟩
    by_contra hdelete
    rw [Bool.not_eq_false] at hdelete
    have hclosing := hdeletes revocation hmem hdelete
    rw [hpopped] at hclosing
    cases hclosing
  | superseded rotation hrotation hkind hnode hstage =>
    refine .inr ⟨rotation, hrotation, hkind, hnode, hstage, ?_⟩
    intro hsame
    rw [s.revocations.eq_of_key_eq hrotation hmem hsame, hpopped] at hstage
    rcases hstage with hstage | hstage <;> cases hstage

theorem sound_finish (h : Sound s) (hs : s.finish revocationId = some s') : Sound s' := by
  unfold State.finish at hs
  obtain ⟨revocation, hfound, rfl⟩ := map_eq_some_iff.mp hs
  obtain ⟨hget, hpopped⟩ := filter_eq_some_iff.mp hfound
  have hmem := mem_of_get? hget
  have hid : revocation.revocationId = revocationId := key_of_get? hget
  have hstage : revocation.stage = .popped := of_decide_eq_true hpopped
  have hleft : ∀ other ∈ (s.revocations.erase revocationId).entries,
      other ∈ s.revocations.entries ∧ other.revocationId ≠ revocationId :=
    fun other hother => mem_erase.mp hother
  have hkeeps : ∀ rotation ∈ s.revocations.entries,
      rotation.revocationId ≠ revocation.revocationId →
        rotation ∈ (s.revocations.erase revocationId).entries :=
    fun rotation hr hne => mem_erase.mpr ⟨hr, hid ▸ hne⟩
  have hunique : ∀ other ∈ (s.revocations.erase revocationId).entries,
      ∀ other' ∈ (s.revocations.erase revocationId).entries, ∀ token,
        other.kind = .rotate token → other'.kind = .rotate token → other = other' :=
    fun other hother other' hother' =>
      h.rotation_unique other (hleft other hother).1 other' (hleft other' hother').1
  have htracked : ∀ c ∈ s.connectionsByNode.entries,
      Tracked { s with revocations := s.revocations.erase revocationId } c := by
    intro c hc
    rcases (h.tracked c hc).not_popped hmem hstage with ⟨htoken, -, hdeletes⟩ |
      ⟨rotation, hr, hkind, hnode, hstage', hne⟩
    · exact .current htoken fun other hother => hdeletes other (hleft other hother).1
    · exact .superseded rotation (hkeeps rotation hr hne) hkind hnode hstage'
  cases hkind : revocation.kind with
  | rotate superseded =>
    simp only
    obtain ⟨hspent, hnot⟩ := h.rotation_spent revocation hmem superseded hkind
    refine ⟨h.current_issued, h.current_unique, h.spent_issued, ?_, ?_, hunique,
      h.registered, h.connected, fun c hc => (htracked c hc).frame rfl rfl⟩
    · intro token htoken
      rcases mem_append.mp htoken with htoken | htoken
      · exact h.revoked_spent token htoken
      · rw [mem_singleton.mp htoken]
        exact hspent
    · intro other hother token hother'
      obtain ⟨hold, hne⟩ := hleft other hother
      obtain ⟨hspent', hnot'⟩ := h.rotation_spent other hold token hother'
      refine ⟨hspent', ?_⟩
      rw [mem_append, mem_singleton, not_or]
      refine ⟨hnot', ?_⟩
      rintro rfl
      have heq := h.rotation_unique other hold revocation hmem token hother' hkind
      rw [heq] at hne
      exact hne hid
  | delete =>
    simp only
    cases htoken : s.records.lookup revocation.nodeId with
    | none =>
      exact ⟨h.current_issued, h.current_unique, h.spent_issued, h.revoked_spent,
        fun other hother => h.rotation_spent other (hleft other hother).1, hunique,
        h.registered, h.connected, htracked⟩
    | some token =>
      simp only
      obtain ⟨hissued, hcurrent⟩ := h.current_issued revocation.nodeId token htoken
      refine ⟨?_, ?_, ?_, ?_, ?_, hunique, h.registered, h.connected, ?_⟩
      · intro node current hnode
        rw [Dict.lookup_erase] at hnode
        split at hnode
        · cases hnode
        · rename_i hne
          have hother := h.current_issued node current hnode
          refine ⟨hother.1, ?_⟩
          rw [mem_append, mem_singleton, not_or]
          refine ⟨hother.2, ?_⟩
          rintro rfl
          exact hne (h.current_unique revocation.nodeId node current htoken hnode)
      · intro node node' current hnode hnode'
        rw [Dict.lookup_erase] at hnode hnode'
        split at hnode
        · cases hnode
        · split at hnode'
          · cases hnode'
          · exact h.current_unique node node' current hnode hnode'
      · intro spent hspent
        rcases mem_append.mp hspent with hspent | hspent
        · exact h.spent_issued spent hspent
        · rw [mem_singleton.mp hspent]
          exact hissued
      · intro revoked hrevoked
        rcases mem_append.mp hrevoked with hrevoked | hrevoked
        · exact mem_append_left _ (h.revoked_spent revoked hrevoked)
        · exact mem_append_right _ hrevoked
      · intro other hother spent hother'
        obtain ⟨hold, -⟩ := hleft other hother
        obtain ⟨hspent, hnot⟩ := h.rotation_spent other hold spent hother'
        refine ⟨mem_append_left _ hspent, ?_⟩
        rw [mem_append, mem_singleton, not_or]
        refine ⟨hnot, ?_⟩
        rintro rfl
        exact hcurrent hspent
      · intro c hc
        rcases (h.tracked c hc).not_popped hmem hstage with ⟨hcurrent', hdelete, hdeletes⟩ |
          ⟨rotation, hr, hrotates, hnode, hstage', hne⟩
        · have hne : revocation.nodeId ≠ c.nodeId := by
            intro hsame
            simp [Revocation.deletes, hkind, hsame] at hdelete
          refine .current ?_ fun other hother => hdeletes other (hleft other hother).1
          rw [Dict.lookup_erase, if_neg hne]
          exact hcurrent'
        · exact .superseded rotation (hkeeps rotation hr hne) hrotates hnode hstage'

theorem sound_step {l : Label} (h : Sound s) (htime : insertsInTime s l = true)
    (hs : credentialSystem.step s l = some s') : Sound s' := by
  cases l with
  | createNode nodeId token => exact sound_createNode h hs
  | verifyCredentials websocket nodeId token => exact sound_verifyCredentials h hs
  | insertConnection websocket => exact sound_insertConnection h htime hs
  | disconnect websocket =>
    cases hs
    exact sound_disconnect h
  | rotateCredentials revocationId nodeId token => exact sound_rotateCredentials h hs
  | deleteNode revocationId nodeId => exact sound_deleteNode h hs
  | lookUp revocationId => exact sound_lookUp h hs
  | popConnection revocationId => exact sound_popConnection h hs
  | finish revocationId => exact sound_finish h hs

end steps

/-! ## Every run -/

/-- In every run whose insertions are all in time, a revocation that has returned is
final. -/
theorem revocation_final {s : State}
    (h : credentialSystem.ReachableUnder (fun s l => insertsInTime s l = true) s) :
    RevocationFinal s := by
  obtain ⟨s₀, hinitial, hsteps⟩ := h
  have hsound : Sound s := by
    refine hsteps.invariant ?_ fun s l s' hs htime hstep => sound_step hs htime hstep
    rw [hinitial]
    exact sound_empty
  exact hsound.revocationFinal

/-- A rotation that meets a connection, and closes it. -/
def rotatedRun : List Label :=
  [.createNode "node-1" "token-1", .verifyCredentials "ws-1" "node-1" "token-1",
    .insertConnection "ws-1", .rotateCredentials "rotate-1" "node-1" "token-2",
    .lookUp "rotate-1", .popConnection "rotate-1", .finish "rotate-1"]

theorem revocation_final_rotated :
    RevocationFinal (credentialSystem.target emptyState rotatedRun) :=
  revocation_final (System.ReachableUnder.target rfl (by decide))

/-- While `delete_node` closes the websocket that it has found, the node leaves and connects
again, with the record that is still there. -/
def reconnectedRun : List Label :=
  [.createNode "node-1" "token-1", .verifyCredentials "ws-1" "node-1" "token-1",
    .insertConnection "ws-1", .deleteNode "delete-1" "node-1", .disconnect "ws-1",
    .verifyCredentials "ws-2" "node-1" "token-1", .insertConnection "ws-2",
    .popConnection "delete-1", .finish "delete-1"]

theorem deletion_not_final : (credentialSystem.run emptyState reconnectedRun).isSome = true ∧
      ¬ RevocationFinal (credentialSystem.target emptyState reconnectedRun) := by
  refine ⟨by decide, ?_⟩
  intro hfinal
  have hadmitted : (⟨"node-1", "ws-2", "token-1"⟩ : Admitted) ∈
      (credentialSystem.target emptyState reconnectedRun).connectionsByNode.entries := by decide
  have hrevoked : "token-1" ∈ (credentialSystem.target emptyState reconnectedRun).revoked := by
    decide
  exact hfinal _ hadmitted hrevoked

end Newbro.Credentials
