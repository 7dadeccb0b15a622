import Newbro.Library.Table
import Newbro.Library.Transition
import Mathlib.Tactic.Common

/-!
# Sessions of the voice connector

`activate_session` reserves a binding of a Newbro session, starts a runtime session of the
ConvoAI service and keeps a handle of both; `stop_session` takes the handle, asks the
runtime session to stop, reports that to Newbro and unregisters the binding. A call runs
up to its next request or up to the registry's lock, which `reserve` holds while it has a
Newbro session created.
-/
namespace Newbro.ConnectorSessions

open Library Option Table

structure ActiveConnectorBinding where
  bindingId : String
  synapseSessionId : String
  runtimeSessionId : Option String
  deriving DecidableEq, Repr

structure ConnectorSessionHandle where
  bindingId : String
  synapseSessionId : String
  runtimeSessionId : String
  deriving DecidableEq, Repr

/-- The entry of a prepared session: the Newbro session it asks for, if any. -/
structure PreparedSession where
  preparedSessionId : String
  synapseSessionId : Option String
  deriving DecidableEq, Repr

/-- What a call waits for. -/
inductive Stage where
  /-- `reserve` waits for the lock. -/
  | reserving (preparedSessionId : String) (synapseSessionId : Option String)
  /-- `reserve` holds the lock and waits for a new Newbro session. -/
  | creating (preparedSessionId : String) (synapseSessionId : Option String)
  | activating (preparedSessionId bindingId : String)
  /-- `finalize` waits for the lock. -/
  | finalizing (preparedSessionId bindingId runtimeSessionId : String)
  /-- The runtime session of a binding that was not finalized is being stopped. -/
  | undoing (bindingId : String)
  | submittingStarted
  | stopping (handle : ConnectorSessionHandle)
  | submittingStopped (handle : ConnectorSessionHandle)
  /-- `unregister` waits for the lock; what follows it changes no table. -/
  | unregistering (bindingId : String)
  deriving DecidableEq, Repr

structure Call where
  callId : String
  stage : Stage
  deriving DecidableEq, Repr

/-- The binding that a call is about to finalize or to unregister. -/
def Call.binding? (call : Call) : Option String :=
  match call.stage with
  | .activating _ bindingId => some bindingId
  | .finalizing _ bindingId _ => some bindingId
  | .undoing bindingId => some bindingId
  | .stopping handle => some handle.bindingId
  | .submittingStopped handle => some handle.bindingId
  | .unregistering bindingId => some bindingId
  | _ => none

def Call.holdsLock (call : Call) : Bool :=
  match call.stage with
  | .creating _ _ => true
  | _ => false

/-- A runtime session that was started, and whether the service was asked to stop it. -/
structure RuntimeSession where
  runtimeSessionId : String
  askedToStop : Bool := false
  deriving DecidableEq, Repr

structure Connector where
  bindings : Table ActiveConnectorBinding.bindingId
  sessions : Table ConnectorSessionHandle.bindingId
  prepared : Table PreparedSession.preparedSessionId
  calls : Table Call.callId
  started : List RuntimeSession

inductive ActivateOutcome where
  | activated (runtimeSessionId : String)
  | keyError
  | runtimeError
  | otherError
  deriving DecidableEq

inductive StopOutcome where
  | stopped
  | keyError
  | runtimeError
  | otherError
  deriving DecidableEq

namespace Connector

def setStage (s : Connector) (callId : String) (stage : Stage) : Connector :=
  { s with calls := s.calls.put ⟨callId, stage⟩ }

def endCall (s : Connector) (callId : String) : Connector :=
  { s with calls := s.calls.erase callId }

def lockFree (s : Connector) : Bool := s.calls.entries.all fun call => !call.holdsLock

def isBound (s : Connector) (synapseSessionId : String) : Bool :=
  s.bindings.entries.any fun binding => binding.synapseSessionId = synapseSessionId

def dropPrepared (s : Connector) (preparedSessionId : String) : Connector :=
  { s with prepared := s.prepared.erase preparedSessionId }

/-- `self._convoai_service.stop_session(runtime_session_id)` -/
def askToStop (s : Connector) (runtimeSessionId : String) : Connector :=
  { s with
    started := s.started.map fun session =>
      if session.runtimeSessionId = runtimeSessionId then { session with askedToStop := true }
      else session }

/-- The rest of `reserve`, with the session resolved. Only a session that was asked for is
tested; a `DuplicateBindingError` ends the call. -/
def bind (s : Connector) (callId preparedSessionId : String)
    (requested : Option String) (resolved bindingId : String) : Connector :=
  if requested.isSome && s.isBound resolved then s.endCall callId
  else
    { s with bindings := s.bindings.put ⟨bindingId, resolved, none⟩ }.setStage callId
      (.activating preparedSessionId bindingId)

/-- `finalize` and what `activate_session` does with its outcome. -/
def finalize (s : Connector) (callId preparedSessionId bindingId runtimeSessionId : String) :
    Connector :=
  let undo := ((s.dropPrepared preparedSessionId).askToStop runtimeSessionId).setStage callId
    (.undoing bindingId)
  match s.bindings.get? bindingId with
  | none => undo
  | some binding =>
    if runtimeSessionId = "" then undo
    else if s.bindings.entries.any fun candidate => candidate.bindingId ≠ bindingId &&
        candidate.runtimeSessionId = some runtimeSessionId then undo
    else
      let handle : ConnectorSessionHandle :=
        ⟨bindingId, binding.synapseSessionId, runtimeSessionId⟩
      { s.dropPrepared preparedSessionId with
        bindings := s.bindings.put { binding with runtimeSessionId := some runtimeSessionId }
        sessions := s.sessions.put handle }.setStage callId .submittingStarted

def unregister (s : Connector) (callId bindingId : String) : Connector :=
  { s with bindings := s.bindings.erase bindingId }.endCall callId

end Connector

inductive Label where
  | prepareSession (prepared : PreparedSession)
  | activateSession (callId preparedSessionId : String)
  | stopSession (callId bindingId : String)
  /-- A call that waits for the lock gets it; a new binding gets the id `bindingId`. -/
  | takeLock (callId bindingId : String)
  | sessionCreated (callId : String) (synapseSessionId : Option String) (bindingId : String)
  | activateReturns (callId : String) (outcome : ActivateOutcome)
  | undoReturns (callId : String)
  | stopReturns (callId : String) (outcome : StopOutcome)
  | submitReturns (callId : String) (success : Bool)

def step (s : Connector) : Label → Option Connector
  | .prepareSession prepared => some { s with prepared := s.prepared.put prepared }
  | .activateSession callId preparedSessionId =>
    if s.calls.contains callId then none
    else
      let requested := (s.prepared.get? preparedSessionId).bind (·.synapseSessionId)
      some (s.setStage callId (.reserving preparedSessionId requested))
  | .stopSession callId bindingId =>
    if s.calls.contains callId then none
    else
      match s.sessions.get? bindingId with
      | none => some s
      | some handle =>
        some (({ s with sessions := s.sessions.erase bindingId }.askToStop
          handle.runtimeSessionId).setStage callId (.stopping handle))
  | .takeLock callId bindingId =>
    if s.lockFree then
      match (s.calls.get? callId).map Call.stage with
      | some (.reserving preparedSessionId requested) =>
        match requested.filter (· ≠ "") with
        | none => some (s.setStage callId (.creating preparedSessionId requested))
        | some resolved =>
          if s.bindings.contains bindingId || s.sessions.contains bindingId then none
          else some (s.bind callId preparedSessionId requested resolved bindingId)
      | some (.finalizing preparedSessionId bindingId runtimeSessionId) =>
        some (s.finalize callId preparedSessionId bindingId runtimeSessionId)
      | some (.unregistering bindingId) => some (s.unregister callId bindingId)
      | _ => none
    else none
  | .sessionCreated callId synapseSessionId bindingId =>
    match (s.calls.get? callId).map Call.stage with
    | some (.creating preparedSessionId requested) =>
      match synapseSessionId with
      | none => some (s.endCall callId)
      | some resolved =>
        -- the server makes a session that was not there before
        if s.isBound resolved || s.bindings.contains bindingId ||
            s.sessions.contains bindingId then none
        else some (s.bind callId preparedSessionId requested resolved bindingId)
    | _ => none
  | .activateReturns callId outcome =>
    match (s.calls.get? callId).map Call.stage with
    | some (.activating preparedSessionId bindingId) =>
      match outcome with
      | .activated runtimeSessionId =>
        let session : RuntimeSession := { runtimeSessionId := runtimeSessionId }
        some ({ s with started := s.started ++ [session] }.setStage callId
          (.finalizing preparedSessionId bindingId runtimeSessionId))
      | _ =>
        some ((s.dropPrepared preparedSessionId).setStage callId
          (.unregistering bindingId))
    | _ => none
  | .undoReturns callId =>
    match (s.calls.get? callId).map Call.stage with
    | some (.undoing bindingId) => some (s.setStage callId (.unregistering bindingId))
    | _ => none
  | .stopReturns callId outcome =>
    match (s.calls.get? callId).map Call.stage with
    | some (.stopping handle) =>
      match outcome with
      | .otherError => some (s.endCall callId)
      | _ => some (s.setStage callId (.submittingStopped handle))
    | _ => none
  | .submitReturns callId success =>
    match (s.calls.get? callId).map Call.stage with
    | some .submittingStarted => some (s.endCall callId)
    | some (.submittingStopped handle) =>
      if success then some (s.setStage callId (.unregistering handle.bindingId))
      else some (s.endCall callId)
    | _ => none

def noSessions : Connector where
  bindings := Table.empty
  sessions := Table.empty
  prepared := Table.empty
  calls := Table.empty
  started := []

def connectorSystem : System Connector Label where
  initial s := s = noSessions
  step := step

/-- A Newbro session has one binding; each binding has a handle and each runtime session is held by
one or was asked to stop, unless a call that is under way sees to it. -/
structure Managed (s : Connector) : Prop where
  oneBinding : ∀ binding ∈ s.bindings.entries, ∀ other ∈ s.bindings.entries,
    binding.synapseSessionId = other.synapseSessionId → binding = other
  handled : ∀ binding ∈ s.bindings.entries,
    (s.sessions.get? binding.bindingId).isSome = true ∨
      ∃ call ∈ s.calls.entries, call.binding? = some binding.bindingId
  accounted : ∀ session ∈ s.started, session.askedToStop = true ∨
    (∃ handle ∈ s.sessions.entries, handle.runtimeSessionId = session.runtimeSessionId) ∨
      ∃ call ∈ s.calls.entries, ∃ preparedSessionId bindingId,
        call.stage = .finalizing preparedSessionId bindingId session.runtimeSessionId

/-- A stop goes through to its end: the service stops the session or fails in a way that is
provided for, and Newbro takes the report. -/
def StopGoesThrough (s : Connector) : Label → Prop
  | .stopReturns _ outcome => outcome ≠ .otherError
  | .submitReturns callId success => success = true ∨
      (s.calls.get? callId).map Call.stage = some .submittingStarted
  | _ => True

/-! ## Who sees to a binding -/

/-- A binding that a call sees to is registered and has no handle, and no other call sees to it. -/
structure Owned (s : Connector) : Prop where
  binding : ∀ call ∈ s.calls.entries, ∀ bindingId, call.binding? = some bindingId →
    (s.bindings.get? bindingId).isSome = true ∧ s.sessions.get? bindingId = none
  unique : ∀ call ∈ s.calls.entries, ∀ other ∈ s.calls.entries, ∀ bindingId,
    call.binding? = some bindingId → other.binding? = some bindingId →
      call.callId = other.callId
  handle : ∀ handle ∈ s.sessions.entries, (s.bindings.get? handle.bindingId).isSome = true

def Sound (s : Connector) : Prop := Owned s ∧ Managed s

theorem sound_noSessions : Sound noSessions := by
  constructor
  · constructor <;> exact fun _ h => by cases h
  · constructor <;> exact fun _ h => by cases h

variable {s s' : Connector}

variable {call : Call} {callId : String}

theorem call_eq {other : Call} (hfound : s.calls.get? callId = some call)
    (hother : other ∈ s.calls.entries) (hsame : other.callId = callId) : other = call := by
  have hget := Table.get?_of_mem hother
  rw [hsame, hfound] at hget
  exact (some_inj.mp hget).symm

variable {stage : Stage}

/-- A call that goes on to its next stage still sees to its binding. -/
theorem sound_setStage (h : Sound s) (hfound : s.calls.get? callId = some call)
    (hbinding : (Call.mk callId stage).binding? = call.binding?)
    (hstage : ∀ preparedSessionId bindingId runtimeSessionId,
      call.stage = .finalizing preparedSessionId bindingId runtimeSessionId →
        ∀ session ∈ s.started, session.runtimeSessionId = runtimeSessionId →
          session.askedToStop = true) : Sound (s.setStage callId stage) := by
  obtain ⟨howned, hmanaged⟩ := h
  have hcall := mem_of_get? hfound
  have hid : call.callId = callId := key_of_get? hfound
  refine ⟨⟨?_, ?_, howned.handle⟩, ⟨hmanaged.oneBinding, ?_, ?_⟩⟩
  · intro other hother bindingId hof
    rcases mem_put.mp hother with rfl | ⟨hother, -⟩
    · exact howned.binding call hcall bindingId (hbinding.symm.trans hof)
    · exact howned.binding other hother bindingId hof
  · intro first hfirst second hsecond bindingId hof hof'
    rcases mem_put.mp hfirst with rfl | ⟨hfirst, -⟩
    · rcases mem_put.mp hsecond with rfl | ⟨hsecond, -⟩
      · rfl
      · have hsame := howned.unique call hcall second hsecond bindingId
          (hbinding.symm.trans hof) hof'
        exact hid.symm.trans hsame
    · rcases mem_put.mp hsecond with rfl | ⟨hsecond, -⟩
      · have hsame := howned.unique first hfirst call hcall bindingId hof
          (hbinding.symm.trans hof')
        exact hsame.trans hid
      · exact howned.unique first hfirst second hsecond bindingId hof hof'
  · intro binding hmem
    refine (hmanaged.handled binding hmem).imp_right ?_
    rintro ⟨other, hother, hof⟩
    by_cases hsame : other.callId = callId
    · rw [call_eq hfound hother hsame] at hof
      exact ⟨_, mem_put.mpr (.inl rfl), hbinding.trans hof⟩
    · exact ⟨other, mem_put.mpr (.inr ⟨hother, hsame⟩), hof⟩
  · intro session hsession
    rcases hmanaged.accounted session hsession with hasked | hheld | hcalls
    · exact .inl hasked
    · exact .inr (.inl hheld)
    · obtain ⟨other, hother, preparedSessionId, bindingId, hfinal⟩ := hcalls
      by_cases hsame : other.callId = callId
      · rw [call_eq hfound hother hsame] at hfinal
        exact .inl (hstage _ _ _ hfinal session hsession rfl)
      · exact .inr (.inr ⟨other, mem_put.mpr (.inr ⟨hother, hsame⟩), preparedSessionId,
          bindingId, hfinal⟩)

/-- A call that sees to no binding may begin. -/
theorem sound_newCall (h : Sound s)
    (hfresh : s.calls.get? callId = none) (hbinding : (Call.mk callId stage).binding? = none) :
    Sound (s.setStage callId stage) := by
  obtain ⟨howned, hmanaged⟩ := h
  have hkept {other : Call} (hother : other ∈ s.calls.entries) :
      other ∈ (s.calls.put ⟨callId, stage⟩).entries :=
    mem_put.mpr (.inr ⟨hother, Table.get?_eq_none_iff.mp hfresh other hother⟩)
  refine ⟨⟨?_, ?_, howned.handle⟩, ⟨hmanaged.oneBinding, ?_, ?_⟩⟩
  · intro other hother bindingId hof
    rcases mem_put.mp hother with rfl | ⟨hother, -⟩
    · rw [hbinding] at hof
      cases hof
    · exact howned.binding other hother bindingId hof
  · intro first hfirst second hsecond bindingId hof hof'
    rcases mem_put.mp hfirst with rfl | ⟨hfirst, -⟩
    · rw [hbinding] at hof
      cases hof
    · rcases mem_put.mp hsecond with rfl | ⟨hsecond, -⟩
      · rw [hbinding] at hof'
        cases hof'
      · exact howned.unique first hfirst second hsecond bindingId hof hof'
  · intro binding hmem
    refine (hmanaged.handled binding hmem).imp_right ?_
    rintro ⟨other, hother, hof⟩
    exact ⟨other, hkept hother, hof⟩
  · intro session hsession
    refine (hmanaged.accounted session hsession).imp_right (Or.imp_right ?_)
    rintro ⟨other, hother, hfinal⟩
    exact ⟨other, hkept hother, hfinal⟩

/-- A call that sees to no binding may end. -/
theorem sound_endCall (h : Sound s)
    (hfound : s.calls.get? callId = some call) (hbinding : call.binding? = none) :
    Sound (s.endCall callId) := by
  obtain ⟨howned, hmanaged⟩ := h
  refine ⟨⟨?_, ?_, howned.handle⟩, ⟨hmanaged.oneBinding, ?_, ?_⟩⟩
  · exact fun other hother => howned.binding other (mem_erase.mp hother).1
  · intro first hfirst second hsecond
    exact howned.unique first (mem_erase.mp hfirst).1 second (mem_erase.mp hsecond).1
  · intro binding hmem
    refine (hmanaged.handled binding hmem).imp_right ?_
    rintro ⟨other, hother, hof⟩
    refine ⟨other, mem_erase.mpr ⟨hother, ?_⟩, hof⟩
    intro hsame
    rw [call_eq hfound hother hsame, hbinding] at hof
    cases hof
  · intro session hsession
    refine (hmanaged.accounted session hsession).imp_right (Or.imp_right ?_)
    rintro ⟨other, hother, preparedSessionId, bindingId, hfinal⟩
    refine ⟨other, mem_erase.mpr ⟨hother, ?_⟩, preparedSessionId, bindingId, hfinal⟩
    intro hsame
    rw [call_eq hfound hother hsame] at hfinal
    rw [Call.binding?, hfinal] at hbinding
    cases hbinding

/-- The prepared entries do not matter. -/
theorem sound_dropPrepared (h : Sound s) (preparedSessionId : String) :
    Sound (s.dropPrepared preparedSessionId) :=
  ⟨⟨h.1.binding, h.1.unique, h.1.handle⟩, ⟨h.2.oneBinding, h.2.handled, h.2.accounted⟩⟩

variable {runtimeSessionId : String}

theorem mem_askToStop {session : RuntimeSession}
    (hsession : session ∈ (s.askToStop runtimeSessionId).started) : session.askedToStop = true ∨
      session ∈ s.started ∧ session.runtimeSessionId ≠ runtimeSessionId := by
  obtain ⟨old, hold, rfl⟩ := List.mem_map.mp hsession
  by_cases hsame : old.runtimeSessionId = runtimeSessionId
  · rw [if_pos hsame]
    exact .inl rfl
  · rw [if_neg hsame]
    exact .inr ⟨hold, hsame⟩

theorem sound_askToStop (h : Sound s) (runtimeSessionId : String) :
    Sound (s.askToStop runtimeSessionId) := by
  refine ⟨⟨h.1.binding, h.1.unique, h.1.handle⟩, ⟨h.2.oneBinding, h.2.handled, ?_⟩⟩
  intro session hsession
  rcases mem_askToStop hsession with hasked | ⟨hold, -⟩
  · exact .inl hasked
  · exact h.2.accounted session hold

variable {bindingId : String}

/-- `stop_session` takes the handle, and its call sees to the binding from then on. -/
theorem sound_takeHandle (h : Sound s)
    {handle : ConnectorSessionHandle} (hfresh : s.calls.get? callId = none)
    (hhandle : s.sessions.get? bindingId = some handle) :
    Sound (({ s with sessions := s.sessions.erase bindingId }.askToStop
      handle.runtimeSessionId).setStage callId (.stopping handle)) := by
  obtain ⟨howned, hmanaged⟩ := h
  have hid : handle.bindingId = bindingId := key_of_get? hhandle
  have hmem := mem_of_get? hhandle
  have hkept {other : Call} (hother : other ∈ s.calls.entries) :
      other ∈ (s.calls.put ⟨callId, .stopping handle⟩).entries :=
    mem_put.mpr (.inr ⟨hother, Table.get?_eq_none_iff.mp hfresh other hother⟩)
  have hnoOther {other : Call} (hother : other ∈ s.calls.entries) :
      other.binding? ≠ some bindingId := by
    intro hof
    have hnone := (howned.binding other hother bindingId hof).2
    rw [hhandle] at hnone
    cases hnone
  refine ⟨⟨?_, ?_, ?_⟩, ⟨hmanaged.oneBinding, ?_, ?_⟩⟩
  · intro other hother named hof
    rcases mem_put.mp hother with rfl | ⟨hother, -⟩
    · cases hof
      refine ⟨howned.handle handle hmem, ?_⟩
      rw [hid]
      exact Table.get?_erase_self s.sessions bindingId
    · obtain ⟨hbound, hnone⟩ := howned.binding other hother named hof
      refine ⟨hbound, ?_⟩
      have herase := Table.get?_erase s.sessions bindingId named
      rw [hnone, ite_self] at herase
      exact herase
  · intro first hfirst second hsecond named hof hof'
    rcases mem_put.mp hfirst with rfl | ⟨hfirst, -⟩
    · rcases mem_put.mp hsecond with rfl | ⟨hsecond, -⟩
      · rfl
      · cases hof
        rw [hid] at hof'
        exact absurd hof' (hnoOther hsecond)
    · rcases mem_put.mp hsecond with rfl | ⟨hsecond, -⟩
      · cases hof'
        rw [hid] at hof
        exact absurd hof (hnoOther hfirst)
      · exact howned.unique first hfirst second hsecond named hof hof'
  · exact fun other hother => howned.handle other (mem_erase.mp hother).1
  · intro binding hbinding
    by_cases hsame : binding.bindingId = bindingId
    · refine .inr ⟨_, mem_put.mpr (.inl rfl), ?_⟩
      rw [hsame, ← hid]
      rfl
    · refine (hmanaged.handled binding hbinding).imp ?_ ?_
      · intro hsome
        exact (congrArg Option.isSome
          (Table.get?_erase_of_ne s.sessions (Ne.symm hsame))).trans hsome
      · rintro ⟨other, hother, hof⟩
        exact ⟨other, hkept hother, hof⟩
  · intro session hsession
    rcases mem_askToStop hsession with hasked | ⟨hold, hruntime⟩
    · exact .inl hasked
    · refine (hmanaged.accounted session hold).imp_right (Or.imp ?_ ?_)
      · rintro ⟨other, hother, hheld⟩
        refine ⟨other, mem_erase.mpr ⟨hother, ?_⟩, hheld⟩
        intro hsame
        have hother' : other = handle :=
          s.sessions.eq_of_key_eq hother hmem (hsame.trans hid.symm)
        rw [hother'] at hheld
        exact hruntime hheld.symm
      · rintro ⟨other, hother, hfinal⟩
        exact ⟨other, hkept hother, hfinal⟩

/-- `reserve` registers a binding of a session that has none. -/
theorem sound_bind (h : Sound s)
    (hfound : s.calls.get? callId = some call) (hcall : call.binding? = none)
    (hnew : s.bindings.get? bindingId = none)
    (hunhandled : s.sessions.get? bindingId = none) {requested : Option String}
    {resolved : String} (hresolved : requested = none → s.isBound resolved = false)
    (preparedSessionId : String) :
    Sound (s.bind callId preparedSessionId requested resolved bindingId) := by
  rw [Connector.bind]
  split
  · exact sound_endCall h hfound hcall
  · rename_i hcheck
    have hunbound : ∀ binding ∈ s.bindings.entries, binding.synapseSessionId ≠ resolved := by
      have hfree : s.isBound resolved = false := by
        cases requested with
        | none => exact hresolved rfl
        | some requested => simpa using hcheck
      intro binding hbinding hsame
      rw [Connector.isBound, List.any_eq_false] at hfree
      exact hfree binding hbinding (decide_eq_true hsame)
    obtain ⟨howned, hmanaged⟩ := h
    have hkept {other : Call} {named : String} (hother : other ∈ s.calls.entries)
        (hof : other.binding? = some named) :
        other ∈ (s.calls.put ⟨callId, .activating preparedSessionId bindingId⟩).entries := by
      refine mem_put.mpr (.inr ⟨hother, ?_⟩)
      intro hsame
      rw [call_eq hfound hother hsame, hcall] at hof
      cases hof
    have hnoOther {other : Call} (hother : other ∈ s.calls.entries) :
        other.binding? ≠ some bindingId := by
      intro hof
      have hbound := (howned.binding other hother bindingId hof).1
      rw [hnew] at hbound
      cases hbound
    refine ⟨⟨?_, ?_, ?_⟩, ⟨?_, ?_, ?_⟩⟩
    · intro other hother named hof
      rcases mem_put.mp hother with rfl | ⟨hother, -⟩
      · cases hof
        refine ⟨?_, hunhandled⟩
        exact isSome_iff_exists.mpr
          ⟨_, Table.get?_put_self s.bindings ⟨bindingId, resolved, none⟩⟩
      · obtain ⟨hbound, hnone⟩ := howned.binding other hother named hof
        exact ⟨isSome_get?_put _ _ hbound, hnone⟩
    · intro first hfirst second hsecond named hof hof'
      rcases mem_put.mp hfirst with rfl | ⟨hfirst, -⟩
      · rcases mem_put.mp hsecond with rfl | ⟨hsecond, -⟩
        · rfl
        · cases hof
          exact absurd hof' (hnoOther hsecond)
      · rcases mem_put.mp hsecond with rfl | ⟨hsecond, -⟩
        · cases hof'
          exact absurd hof (hnoOther hfirst)
        · exact howned.unique first hfirst second hsecond named hof hof'
    · exact fun handle hhandle => isSome_get?_put _ _ (howned.handle handle hhandle)
    · intro binding hbinding other hother hsame
      rcases mem_put.mp hbinding with rfl | ⟨hbinding, -⟩
      · rcases mem_put.mp hother with rfl | ⟨hother, -⟩
        · rfl
        · exact absurd hsame.symm (hunbound other hother)
      · rcases mem_put.mp hother with rfl | ⟨hother, -⟩
        · exact absurd hsame (hunbound binding hbinding)
        · exact hmanaged.oneBinding binding hbinding other hother hsame
    · intro binding hbinding
      rcases mem_put.mp hbinding with rfl | ⟨hbinding, -⟩
      · exact .inr ⟨_, mem_put.mpr (.inl rfl), rfl⟩
      · refine (hmanaged.handled binding hbinding).imp_right ?_
        rintro ⟨other, hother, hof⟩
        exact ⟨other, hkept hother hof, hof⟩
    · intro session hsession
      refine (hmanaged.accounted session hsession).imp_right (Or.imp_right ?_)
      rintro ⟨other, hother, prepared, named, hfinal⟩
      have hof : other.binding? = some named := by rw [Call.binding?, hfinal]
      exact ⟨other, hkept hother hof, prepared, named, hfinal⟩

/-- A call under way is the only one that sees to its binding. -/
theorem ne_of_other (howned : Owned s) {other : Call} {named : String}
    (hfound : s.calls.get? callId = some call) (hof : call.binding? = some bindingId)
    (hother : other ∈ s.calls.entries) (hne : other.callId ≠ callId)
    (hof' : other.binding? = some named) : named ≠ bindingId := by
  intro hsame
  rw [hsame] at hof'
  have hcall := howned.unique other hother call (mem_of_get? hfound) bindingId hof' hof
  exact hne (hcall.trans (key_of_get? hfound))

variable {preparedSessionId : String}

/-- A finalized binding has its handle. -/
theorem sound_finalized (h : Sound s)
    (hfound : s.calls.get? callId =
      some ⟨callId, .finalizing preparedSessionId bindingId runtimeSessionId⟩)
    {binding : ActiveConnectorBinding} (hbinding : s.bindings.get? bindingId = some binding) :
    Sound ({ s with
      bindings := s.bindings.put { binding with runtimeSessionId := some runtimeSessionId }
      sessions := s.sessions.put ⟨bindingId, binding.synapseSessionId, runtimeSessionId⟩
      }.setStage callId .submittingStarted) := by
  obtain ⟨howned, hmanaged⟩ := h
  have hid : binding.bindingId = bindingId := key_of_get? hbinding
  have hmem := mem_of_get? hbinding
  have hunhandled := (howned.binding _ (mem_of_get? hfound) bindingId rfl).2
  have hheld : ((s.sessions.put ⟨bindingId, binding.synapseSessionId, runtimeSessionId⟩).get?
      bindingId).isSome = true :=
    isSome_iff_exists.mpr ⟨_, Table.get?_put_self s.sessions
      ⟨bindingId, binding.synapseSessionId, runtimeSessionId⟩⟩
  refine ⟨⟨?_, ?_, ?_⟩, ⟨?_, ?_, ?_⟩⟩
  · intro other hother named hof
    rcases mem_put.mp hother with rfl | ⟨hother, hne⟩
    · cases hof
    · obtain ⟨hbound, hnone⟩ := howned.binding other hother named hof
      have hnamed := ne_of_other howned hfound rfl hother hne hof
      refine ⟨isSome_get?_put _ _ hbound, ?_⟩
      exact (Table.get?_put_of_ne _ (Ne.symm hnamed)).trans hnone
  · intro first hfirst second hsecond named hof hof'
    rcases mem_put.mp hfirst with rfl | ⟨hfirst, -⟩
    · cases hof
    · rcases mem_put.mp hsecond with rfl | ⟨hsecond, -⟩
      · cases hof'
      · exact howned.unique first hfirst second hsecond named hof hof'
  · intro handle hhandle
    apply isSome_get?_put
    rcases mem_put.mp hhandle with rfl | ⟨hhandle, -⟩
    · exact isSome_iff_exists.mpr ⟨_, hbinding⟩
    · exact howned.handle handle hhandle
  · intro first hfirst second hsecond hsame
    rcases mem_put.mp hfirst with rfl | ⟨hfirst, hne⟩
    · rcases mem_put.mp hsecond with rfl | ⟨hsecond, hne⟩
      · rfl
      · have hold := hmanaged.oneBinding binding hmem second hsecond hsame
        exact absurd (congrArg ActiveConnectorBinding.bindingId hold.symm) hne
    · rcases mem_put.mp hsecond with rfl | ⟨hsecond, -⟩
      · have hold := hmanaged.oneBinding first hfirst binding hmem hsame
        exact absurd (congrArg ActiveConnectorBinding.bindingId hold) hne
      · exact hmanaged.oneBinding first hfirst second hsecond hsame
  · intro other hother
    by_cases hsame : other.bindingId = bindingId
    · rw [hsame]
      exact .inl hheld
    · rcases mem_put.mp hother with rfl | ⟨hother, -⟩
      · exact absurd hid hsame
      · refine (hmanaged.handled other hother).imp ?_ ?_
        · exact fun hsome => isSome_get?_put _ _ hsome
        · rintro ⟨call, hcall, hof⟩
          refine ⟨call, mem_put.mpr (.inr ⟨hcall, ?_⟩), hof⟩
          intro hcallId
          rw [call_eq hfound hcall hcallId] at hof
          exact hsame (some_inj.mp hof).symm
  · intro session hsession
    rcases hmanaged.accounted session hsession with hasked | hhandles | hcalls
    · exact .inl hasked
    · obtain ⟨handle, hhandle, hruntime⟩ := hhandles
      have hne := Table.get?_eq_none_iff.mp hunhandled handle hhandle
      exact .inr (.inl ⟨handle, mem_put.mpr (.inr ⟨hhandle, hne⟩), hruntime⟩)
    · obtain ⟨call, hcall, prepared, named, hfinal⟩ := hcalls
      by_cases hsame : call.callId = callId
      · rw [call_eq hfound hcall hsame] at hfinal
        cases hfinal
        exact .inr (.inl ⟨_, mem_put.mpr (.inl rfl), rfl⟩)
      · exact .inr (.inr ⟨call, mem_put.mpr (.inr ⟨hcall, hsame⟩), prepared, named, hfinal⟩)

theorem sound_finalize (h : Sound s) (hfound : s.calls.get? callId =
      some ⟨callId, .finalizing preparedSessionId bindingId runtimeSessionId⟩) :
    Sound (s.finalize callId preparedSessionId bindingId runtimeSessionId) := by
  have hundo : Sound (((s.dropPrepared preparedSessionId).askToStop runtimeSessionId).setStage
      callId (.undoing bindingId)) := by
    have hasked := sound_askToStop (sound_dropPrepared h preparedSessionId) runtimeSessionId
    refine sound_setStage hasked hfound rfl ?_
    intro prepared named runtime hfinal session hsession hsame
    cases hfinal
    rcases mem_askToStop hsession with hstopped | ⟨-, hother⟩
    · exact hstopped
    · exact absurd hsame hother
  rw [Connector.finalize]
  dsimp only
  split
  · exact hundo
  · rename_i binding hbinding
    split
    · exact hundo
    · split
      · exact hundo
      · have hdropped := sound_finalized h hfound hbinding
        exact sound_dropPrepared hdropped preparedSessionId

theorem sound_unregister (h : Sound s)
    (hfound : s.calls.get? callId = some ⟨callId, .unregistering bindingId⟩) :
    Sound (s.unregister callId bindingId) := by
  obtain ⟨howned, hmanaged⟩ := h
  have hunhandled := (howned.binding _ (mem_of_get? hfound) bindingId rfl).2
  have hkept {named : String} (hnamed : named ≠ bindingId)
      (hbound : (s.bindings.get? named).isSome = true) :
      ((s.bindings.erase bindingId).get? named).isSome = true := by
    rw [Table.get?_erase_of_ne _ (Ne.symm hnamed)]
    exact hbound
  refine ⟨⟨?_, ?_, ?_⟩, ⟨?_, ?_, ?_⟩⟩
  · intro other hother named hof
    obtain ⟨hother, hne⟩ := mem_erase.mp hother
    obtain ⟨hbound, hnone⟩ := howned.binding other hother named hof
    exact ⟨hkept (ne_of_other howned hfound rfl hother hne hof) hbound, hnone⟩
  · intro first hfirst second hsecond
    exact howned.unique first (mem_erase.mp hfirst).1 second (mem_erase.mp hsecond).1
  · intro handle hhandle
    exact hkept (Table.get?_eq_none_iff.mp hunhandled handle hhandle)
      (howned.handle handle hhandle)
  · intro first hfirst second hsecond
    exact hmanaged.oneBinding first (mem_erase.mp hfirst).1 second
      (mem_erase.mp hsecond).1
  · intro binding hbinding
    obtain ⟨hbinding, hne⟩ := mem_erase.mp hbinding
    refine (hmanaged.handled binding hbinding).imp_right ?_
    rintro ⟨call, hcall, hof⟩
    refine ⟨call, mem_erase.mpr ⟨hcall, ?_⟩, hof⟩
    intro hsame
    rw [call_eq hfound hcall hsame] at hof
    exact hne (some_inj.mp hof).symm
  · intro session hsession
    refine (hmanaged.accounted session hsession).imp_right (Or.imp_right ?_)
    rintro ⟨call, hcall, prepared, named, hfinal⟩
    refine ⟨call, mem_erase.mpr ⟨hcall, ?_⟩, prepared, named, hfinal⟩
    intro hsame
    rw [call_eq hfound hcall hsame] at hfinal
    cases hfinal

/-- A runtime session that has started is seen to by the call that finalizes its binding. -/
theorem sound_activated (h : Sound s)
    (hfound : s.calls.get? callId = some ⟨callId, .activating preparedSessionId bindingId⟩)
    (runtimeSessionId : String) :
    Sound ({ s with started := s.started ++ [RuntimeSession.mk runtimeSessionId false] }.setStage
      callId (.finalizing preparedSessionId bindingId runtimeSessionId)) := by
  have hstage : Sound (s.setStage callId
      (.finalizing preparedSessionId bindingId runtimeSessionId)) :=
    sound_setStage h hfound rfl fun _ _ _ hfinal => by cases hfinal
  refine ⟨⟨hstage.1.binding, hstage.1.unique, hstage.1.handle⟩,
    ⟨hstage.2.oneBinding, hstage.2.handled, ?_⟩⟩
  intro session hsession
  rcases List.mem_append.mp hsession with hold | hnew
  · exact hstage.2.accounted session hold
  · rw [List.mem_singleton.mp hnew]
    exact .inr (.inr ⟨_, mem_put.mpr (.inl rfl), preparedSessionId, bindingId, rfl⟩)

/-! ## Runs -/

theorem get?_of_stage (h : (s.calls.get? callId).map Call.stage = some stage) :
    s.calls.get? callId = some ⟨callId, stage⟩ := by
  obtain ⟨call, hfound, rfl⟩ := map_eq_some_iff.mp h
  rw [hfound, ← show call.callId = callId from key_of_get? hfound]

theorem get?_of_not_contains (h : ¬ s.calls.contains callId = true) :
    s.calls.get? callId = none := by
  rw [Table.contains, not_isSome_iff_eq_none] at h
  exact h

theorem sound_takeLock (h : Sound s)
    (hs : step s (.takeLock callId bindingId) = some s') : Sound s' := by
  simp only [step] at hs
  split at hs
  · split at hs
    · rename_i preparedSessionId requested hstage
      have hfound := get?_of_stage hstage
      split at hs
      · cases hs
        exact sound_setStage h hfound rfl fun _ _ _ hfinal => by cases hfinal
      · rename_i resolved hresolved
        split at hs
        · cases hs
        · rename_i hnew
          cases hs
          rw [Bool.or_eq_true, not_or, Table.contains, Table.contains,
            not_isSome_iff_eq_none, not_isSome_iff_eq_none] at hnew
          refine sound_bind h hfound rfl hnew.1 hnew.2 ?_ preparedSessionId
          intro hnone
          rw [hnone] at hresolved
          cases hresolved
    · rename_i hstage
      cases hs
      exact sound_finalize h (get?_of_stage hstage)
    · rename_i hstage
      cases hs
      exact sound_unregister h (get?_of_stage hstage)
    · cases hs
  · cases hs

theorem sound_sessionCreated (h : Sound s) {synapseSessionId : Option String}
    (hs : step s (.sessionCreated callId synapseSessionId bindingId) = some s') : Sound s' := by
  simp only [step] at hs
  split at hs
  · rename_i preparedSessionId requested hstage
    have hfound := get?_of_stage hstage
    split at hs
    · cases hs
      exact sound_endCall h hfound rfl
    · split at hs
      · cases hs
      · rename_i hnew
        cases hs
        rw [Bool.or_eq_true, Bool.or_eq_true, not_or, not_or, Table.contains, Table.contains,
          not_isSome_iff_eq_none, not_isSome_iff_eq_none, Bool.not_eq_true] at hnew
        exact sound_bind h hfound rfl hnew.1.2 hnew.2 (fun _ => hnew.1.1) preparedSessionId
  · cases hs

theorem sound_step {label : Label} (h : Sound s) (hs : step s label = some s')
    (hlabel : StopGoesThrough s label) : Sound s' := by
  cases label with
  | prepareSession prepared =>
    cases hs
    exact ⟨⟨h.1.binding, h.1.unique, h.1.handle⟩, ⟨h.2.oneBinding, h.2.handled, h.2.accounted⟩⟩
  | activateSession callId preparedSessionId =>
    simp only [step] at hs
    split at hs
    · cases hs
    · rename_i hcontains
      cases hs
      exact sound_newCall h (get?_of_not_contains hcontains) rfl
  | stopSession callId bindingId =>
    simp only [step] at hs
    split at hs
    · cases hs
    · rename_i hcontains
      split at hs
      · cases hs
        exact h
      · rename_i handle hhandle
        cases hs
        exact sound_takeHandle h (get?_of_not_contains hcontains) hhandle
  | takeLock callId bindingId => exact sound_takeLock h hs
  | sessionCreated callId synapseSessionId bindingId => exact sound_sessionCreated h hs
  | activateReturns callId outcome =>
    simp only [step] at hs
    split at hs
    · rename_i preparedSessionId bindingId hstage
      have hfound := get?_of_stage hstage
      split at hs
      · cases hs
        exact sound_activated h hfound _
      · cases hs
        exact sound_setStage (sound_dropPrepared h preparedSessionId) hfound rfl
          fun _ _ _ hfinal => by cases hfinal
    · cases hs
  | undoReturns callId =>
    simp only [step] at hs
    split at hs
    · rename_i bindingId hstage
      cases hs
      exact sound_setStage h (get?_of_stage hstage) rfl fun _ _ _ hfinal => by cases hfinal
    · cases hs
  | stopReturns callId outcome =>
    simp only [step] at hs
    split at hs
    · rename_i handle hstage
      split at hs
      · exact absurd rfl hlabel
      · cases hs
        exact sound_setStage h (get?_of_stage hstage) rfl fun _ _ _ hfinal => by cases hfinal
    · cases hs
  | submitReturns callId success =>
    simp only [step] at hs
    split at hs
    · rename_i hstage
      cases hs
      exact sound_endCall h (get?_of_stage hstage) rfl
    · rename_i handle hstage
      split at hs
      · cases hs
        exact sound_setStage h (get?_of_stage hstage) rfl fun _ _ _ hfinal => by cases hfinal
      · rename_i hfailed
        rw [StopGoesThrough, hstage] at hlabel
        rcases hlabel with hsuccess | hsubmitting
        · exact absurd hsuccess hfailed
        · cases hsubmitting
    · cases hs

/-- A stop that is cut short leaves a binding that nothing sees to. -/
theorem not_managed_endCall (h : Owned s)
    (hfound : s.calls.get? callId = some call) (hof : call.binding? = some bindingId) :
    ¬ Managed (s.endCall callId) := by
  intro hmanaged
  obtain ⟨hbound, hunhandled⟩ := h.binding call (mem_of_get? hfound) bindingId hof
  obtain ⟨binding, hbinding⟩ := isSome_iff_exists.mp hbound
  have hid : binding.bindingId = bindingId := key_of_get? hbinding
  rcases hmanaged.handled binding (mem_of_get? hbinding) with hhandled | hcalls
  · have hnone : s.sessions.get? binding.bindingId = none := hid ▸ hunhandled
    rw [show (s.endCall callId).sessions = s.sessions from rfl, hnone] at hhandled
    cases hhandled
  · obtain ⟨other, hother, hof'⟩ := hcalls
    obtain ⟨hother, hne⟩ := mem_erase.mp hother
    exact ne_of_other h hfound hof hother hne hof' hid

theorem stopGoesThrough_of_managed {label : Label} (h : Sound s)
    (hs : step s label = some s') (hmanaged : Managed s') : StopGoesThrough s label := by
  cases label with
  | stopReturns callId outcome =>
    intro hother
    subst hother
    simp only [step] at hs
    split at hs
    · rename_i handle hstage
      cases hs
      exact not_managed_endCall h.1 (get?_of_stage hstage) rfl hmanaged
    · cases hs
  | submitReturns callId success =>
    simp only [step] at hs
    split at hs
    · rename_i hstage
      exact .inr hstage
    · rename_i handle hstage
      split at hs
      · rename_i hsuccess
        exact .inl hsuccess
      · cases hs
        exact absurd hmanaged (not_managed_endCall h.1 (get?_of_stage hstage) rfl)
    · cases hs
  | _ => trivial

/-- Bindings, handles and runtime sessions stay managed throughout a run exactly if each stop goes
through to its end. -/
theorem managed_iff (labels : List Label) : connectorSystem.Always Managed noSessions labels ↔
      connectorSystem.Along StopGoesThrough noSessions labels := by
  constructor
  · intro hlaw
    refine System.Always.along (I := Sound) (Q := fun _ _ => True) ?_ ?_ hlaw sound_noSessions
      (System.along_true _ _)
    · exact fun s label s' h hlabel hs => sound_step h hs hlabel
    · exact fun s label s' h _ hs hlater => stopGoesThrough_of_managed h hs hlater
  · intro hstops
    have hsound : connectorSystem.Always Sound noSessions labels :=
      hstops.always sound_noSessions fun s label s' h hlabel hs => sound_step h hs hlabel
    exact hsound.mono fun _ h => h.2

/-! ## A stop that Newbro does not hear of -/

/-- A session is activated and stopped, and Newbro cannot be told. -/
def unheardStop : List Label :=
  [.prepareSession ⟨"prepared-1", some "session-1"⟩, .activateSession "call-1" "prepared-1",
    .takeLock "call-1" "binding-1", .activateReturns "call-1" (.activated "runtime-1"),
    .takeLock "call-1" "", .submitReturns "call-1" true, .stopSession "call-2" "binding-1",
    .stopReturns "call-2" .stopped, .submitReturns "call-2" false]

/-- The binding stays without a handle, and the Newbro session stays bound. -/
theorem unheard_stop_keeps_binding :
    ¬ ∀ labels : List Label, connectorSystem.Always Managed noSessions labels := by
  intro hall
  have hrun : connectorSystem.run noSessions unheardStop =
      some (connectorSystem.target noSessions unheardStop) :=
    System.run_eq_target (by decide)
  have hlaw := (hall unheardStop).at_end hrun
  have hbinding : ⟨"binding-1", "session-1", some "runtime-1"⟩ ∈
      (connectorSystem.target noSessions unheardStop).bindings.entries := by decide
  rcases hlaw.handled _ hbinding with hhandled | ⟨call, hcall, -⟩
  · exact absurd hhandled (by decide)
  · have hnone : (connectorSystem.target noSessions unheardStop).calls.entries = [] := by
      decide
    rw [hnone] at hcall
    cases hcall

end Newbro.ConnectorSessions
