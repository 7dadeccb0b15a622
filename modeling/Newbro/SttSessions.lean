import Newbro.Library.Table
import Newbro.Library.Text
import Newbro.Library.Transition
import Mathlib.Tactic.Common

/-!
# Speech-to-text agents

The connector joins an agent to a channel for each session and asks it to leave when the
session ends or when its heartbeats stop. A call runs up to its next request to the
service; a step is one such stretch. The session objects outlive the table of sessions,
as a sweep goes on with the objects that it listed when it began.
-/
namespace Newbro.SttSessions

open Library Option Table

structure PreparedSttSessionHandle where
  preparedSttSessionId : String
  createdAt : Nat
  deriving DecidableEq, Repr

structure SttSessionHandle where
  sttSessionId : String
  agentId : String
  lastHeartbeatAt : Nat
  deriving DecidableEq, Repr

/-- `PREPARED_SESSION_TTL_SECONDS`, in milliseconds. -/
def preparedSessionTtl : Nat := 60000

/-- `ACTIVE_HEARTBEAT_TIMEOUT_SECONDS`, in milliseconds. -/
def activeHeartbeatTimeout : Nat := 60000

/-- What goes on after a sweep: the sleep of the watchdog, the start of a session, or nothing. -/
inductive Sweeper where
  | watchdog
  | start (preparedSttSessionId : String)
  | caller
  deriving DecidableEq, Repr

/-- The request whose answer a call waits for. A sweep also has the time at which it began and
the sessions that it has still to look at. -/
inductive Stage where
  | joining (prepared : PreparedSttSessionHandle)
  | leaving (sttSessionId : String)
  | sweeping (sweeper : Sweeper) (now : Nat) (sttSessionId : String) (rest : List String)
  deriving DecidableEq, Repr

structure Call where
  callId : String
  stage : Stage
  deriving DecidableEq, Repr

/-- The session whose agent is asked to leave. -/
def Call.leaves? (call : Call) : Option String :=
  match call.stage with
  | .joining _ => none
  | .leaving sttSessionId => some sttSessionId
  | .sweeping _ _ sttSessionId _ => some sttSessionId

/-- The sessions that a sweep has still to look at. -/
def Call.rest (call : Call) : List String :=
  match call.stage with
  | .sweeping _ _ _ rest => rest
  | _ => []

def Call.joins (call : Call) : Bool :=
  match call.stage with
  | .joining _ => true
  | _ => false

inductive Watchdog where
  | absent
  | sleeping
  | sweeping
  | ended
  deriving DecidableEq, Repr

/-- `handles` are all session objects, `sessions` the keys of the session table. -/
structure SttService where
  now : Nat
  prepared : Table PreparedSttSessionHandle.preparedSttSessionId
  handles : Table SttSessionHandle.sttSessionId
  sessions : List String
  calls : Table Call.callId
  watchdog : Watchdog
  left : List String
  skipped : List String

/-- What the service answers to a join: an error, or a body that may name the agent. -/
inductive JoinAnswer where
  | failed
  | answered (agentId agentIdCamel taskId : Option String)

/-- `str(body.get("agent_id") or body.get("agentId") or body.get("taskId") or "")` -/
def JoinAnswer.agentId : JoinAnswer → String
  | .failed => ""
  | .answered agentId agentIdCamel taskId =>
    Text.orElse agentId (Text.orElse agentIdCamel (Text.orElse taskId ""))

namespace SttService

def isExpired (s : SttService) (now : Nat) (sttSessionId : String) : Bool :=
  (s.handles.get? sttSessionId).any fun handle =>
    decide (now - handle.lastHeartbeatAt > activeHeartbeatTimeout)

/-- The next session for a sweep to end, and those after it. -/
def nextExpired (s : SttService) (now : Nat) : List String → Option (String × List String)
  | [] => none
  | sttSessionId :: rest =>
    if s.isExpired now sttSessionId then some (sttSessionId, rest) else nextExpired s now rest

def ensureWatchdog (s : SttService) : SttService :=
  match s.watchdog with
  | .absent => { s with watchdog := .sleeping }
  | .ended => { s with watchdog := .sleeping }
  | _ => s

/-- `start_session` from its look at the prepared session to the request to join. -/
def beginJoin (s : SttService) (callId preparedSttSessionId : String) : SttService :=
  match s.prepared.get? preparedSttSessionId with
  | none => s
  | some prepared =>
    { s with
      prepared := s.prepared.erase preparedSttSessionId
      calls := s.calls.put ⟨callId, .joining prepared⟩ }

def afterSweep (s : SttService) (callId : String) : Sweeper → SttService
  | .watchdog => { s with watchdog := .sleeping }
  | .start preparedSttSessionId => s.ensureWatchdog.beginJoin callId preparedSttSessionId
  | .caller => s

/-- A sweep over the sessions it still has to look at. -/
def continueSweep (s : SttService) (callId : String) (sweeper : Sweeper) (now : Nat)
    (sttSessionIds : List String) : SttService :=
  match s.nextExpired now sttSessionIds with
  | none => s.afterSweep callId sweeper
  | some (sttSessionId, rest) =>
    { s with
      sessions := s.sessions.filter (· ≠ sttSessionId)
      calls := s.calls.put ⟨callId, .sweeping sweeper now sttSessionId rest⟩ }

def sweepPrepared (s : SttService) : SttService :=
  { s with
    prepared := s.prepared.restrict fun preparedSttSessionId =>
      !(s.prepared.get? preparedSttSessionId).any fun prepared =>
        decide (s.now - prepared.createdAt > preparedSessionTtl) }

def sweep (s : SttService) (callId : String) (sweeper : Sweeper) : SttService :=
  s.sweepPrepared.continueSweep callId sweeper s.now s.sessions

/-- Take a session out of the table and ask its agent to leave; an unknown session is not
there to be stopped. -/
def stop (s : SttService) (callId sttSessionId : String) : SttService :=
  if sttSessionId ∈ s.sessions then
    { s with
      sessions := s.sessions.filter (· ≠ sttSessionId)
      calls := s.calls.put ⟨callId, .leaving sttSessionId⟩ }
  else s

end SttService

inductive Label where
  | tick (elapsed : Nat)
  | prepare (preparedSttSessionId : String)
  | heartbeat (sttSessionId : String)
  | startSession (callId preparedSttSessionId : String)
  | leaveSession (callId : String) (sttSessionId preparedSttSessionId : Option String)
  | stopSession (callId sttSessionId : String)
  | sweepExpiredSessions (callId : String)
  | watchdogWakes (callId : String)
  | joinAnswer (callId : String) (answer : JoinAnswer) (sttSessionId : String)
  | leaveAnswer (callId : String) (success : Bool)

def step (s : SttService) : Label → Option SttService
  | .tick elapsed => some { s with now := s.now + elapsed }
  | .prepare preparedSttSessionId =>
    some { s with prepared := s.prepared.put ⟨preparedSttSessionId, s.now⟩ }
  | .heartbeat sttSessionId =>
    match s.handles.get? sttSessionId with
    | none => none
    | some handle =>
      if sttSessionId ∈ s.sessions then
        some { s with handles := s.handles.put { handle with lastHeartbeatAt := s.now } }
      else none
  | .startSession callId preparedSttSessionId =>
    if s.calls.contains callId then none
    else some (s.sweep callId (.start preparedSttSessionId))
  | .leaveSession callId sttSessionId preparedSttSessionId =>
    if s.calls.contains callId then none
    else
      match sttSessionId.filter (· ≠ ""), preparedSttSessionId.filter (· ≠ "") with
      | some sttSessionId, _ => some (s.stop callId sttSessionId)
      | none, some preparedSttSessionId =>
        some { s with prepared := s.prepared.erase preparedSttSessionId }
      | none, none => some s
  | .stopSession callId sttSessionId =>
    if s.calls.contains callId then none else some (s.stop callId sttSessionId)
  | .sweepExpiredSessions callId =>
    if s.calls.contains callId then none else some (s.sweep callId .caller)
  | .watchdogWakes callId =>
    if s.calls.contains callId || s.watchdog ≠ .sleeping then none
    else some ({ s with watchdog := .sweeping }.sweep callId .watchdog)
  | .joinAnswer callId answer sttSessionId =>
    match s.calls.get? callId with
    | some ⟨_, .joining _⟩ =>
      let s' := { s with calls := s.calls.erase callId }
      if answer.agentId = "" then some s'
      else if s.handles.contains sttSessionId then none
      else
        some { s' with
          handles := s.handles.put ⟨sttSessionId, answer.agentId, s.now⟩
          sessions := s.sessions ++ [sttSessionId] }
    | _ => none
  | .leaveAnswer callId success =>
    match s.calls.get? callId with
    | some ⟨_, .leaving sttSessionId⟩ =>
      some { s with
        calls := s.calls.erase callId
        left := if success then s.left ++ [sttSessionId] else s.left }
    | some ⟨_, .sweeping sweeper now sttSessionId rest⟩ =>
      if success then
        some ({ s with
          calls := s.calls.erase callId
          left := s.left ++ [sttSessionId] }.continueSweep callId sweeper now rest)
      else
        some { s with
          calls := s.calls.erase callId
          skipped := s.skipped ++ rest.filter fun other =>
            decide (other ∈ s.sessions) && s.isExpired now other
          watchdog := if sweeper = .watchdog then .ended else s.watchdog }
    | _ => none

def noSessions : SttService where
  now := 0
  prepared := Table.empty
  handles := Table.empty
  sessions := []
  calls := Table.empty
  watchdog := .absent
  left := []
  skipped := []

def sttSystem : System SttService Label where
  initial s := s = noSessions
  step := step

namespace SttService

/-- A request for the agent of the session to leave is under way. -/
def Leaves (s : SttService) (sttSessionId : String) : Prop :=
  ∃ call ∈ s.calls.entries, call.leaves? = some sttSessionId

/-- There is a session that may expire, or may come to be there. -/
def Open (s : SttService) : Prop :=
  s.sessions ≠ [] ∨ ∃ call ∈ s.calls.entries, call.joins = true

end SttService

/-- Each joined agent is in the table, or has left, or is being asked to; no sweep has passed
over an expired session; and sweeps go on as long as there may be sessions. -/
structure NoneLeaked (s : SttService) : Prop where
  held : ∀ handle ∈ s.handles.entries, handle.sttSessionId ∈ s.sessions ∨
    s.Leaves handle.sttSessionId ∨ handle.sttSessionId ∈ s.left
  swept : s.skipped = []
  watched : s.Open → s.watchdog = .sleeping ∨ s.watchdog = .sweeping

/-- A failing request to leave does no harm where another one gets the agent out, and where the
sweep it ends has no other expired session, and the watchdog it ends no session at all. -/
def Harmless (s : SttService) : Label → Prop
  | .leaveAnswer callId false => ∀ call, s.calls.get? callId = some call →
      (∀ sttSessionId, call.leaves? = some sttSessionId → sttSessionId ∈ s.left ∨
        ∃ other ∈ s.calls.entries, other.callId ≠ callId ∧ other.leaves? = some sttSessionId) ∧
      ∀ sweeper now sttSessionId rest, call.stage = .sweeping sweeper now sttSessionId rest →
        (∀ other ∈ rest, other ∈ s.sessions → s.isExpired now other = false) ∧
          (sweeper = .watchdog → ¬ s.Open)
  | _ => True

/-! ## What one sweep does -/

/-- The sessions that are listed or asked to leave are known, and the latter are out of the
table. -/
structure Consistent (s : SttService) : Prop where
  known : ∀ sttSessionId ∈ s.sessions, (s.handles.get? sttSessionId).isSome = true
  taken : ∀ call ∈ s.calls.entries, ∀ sttSessionId, call.leaves? = some sttSessionId →
    (s.handles.get? sttSessionId).isSome = true ∧ sttSessionId ∉ s.sessions
  listed : ∀ call ∈ s.calls.entries, ∀ sttSessionId ∈ call.rest,
    (s.handles.get? sttSessionId).isSome = true

theorem consistent_noSessions : Consistent noSessions where
  known := fun _ h => by cases h
  taken := fun _ h => by cases h
  listed := fun _ h => by cases h

theorem noneLeaked_noSessions : NoneLeaked noSessions where
  held := fun _ h => by cases h
  swept := rfl
  watched := by
    rintro (h | ⟨call, hcall, -⟩)
    · exact absurd rfl h
    · cases hcall

variable {s s' : SttService}

variable {now : Nat} {rest : List String} {sttSessionId : String}

variable {ids : List String}

theorem mem_of_nextExpired
    (h : s.nextExpired now ids = some (sttSessionId, rest)) :
    sttSessionId ∈ ids ∧ ∀ other ∈ rest, other ∈ ids := by
  induction ids with
  | nil => cases h
  | cons id ids ih =>
    rw [SttService.nextExpired] at h
    split at h
    · cases h
      exact ⟨List.mem_cons_self, fun other hother => List.mem_cons_of_mem _ hother⟩
    · obtain ⟨hmem, hrest⟩ := ih h
      exact ⟨List.mem_cons_of_mem _ hmem,
        fun other hother => List.mem_cons_of_mem _ (hrest other hother)⟩

/-- Removing a call keeps what the others say. -/
theorem consistent_erase (h : Consistent s) (callId : String) (left : List String) :
    Consistent { s with calls := s.calls.erase callId, left := left } where
  known := h.known
  taken := fun call hcall => h.taken call (mem_erase.mp hcall).1
  listed := fun call hcall => h.listed call (mem_erase.mp hcall).1

variable {call : Call}

/-- Take a session that is known out of the table, under a call that asks its agent to leave. -/
theorem consistent_take (h : Consistent s)
    (hleaves : call.leaves? = some sttSessionId)
    (hknown : (s.handles.get? sttSessionId).isSome = true)
    (hrest : ∀ other ∈ call.rest, (s.handles.get? other).isSome = true) :
    Consistent { s with
      sessions := s.sessions.filter (· ≠ sttSessionId), calls := s.calls.put call } where
  known := fun id hid => h.known id (List.mem_of_mem_filter hid)
  taken := by
    intro other hother id hid
    rcases mem_put.mp hother with rfl | ⟨hother, -⟩
    · rw [hleaves] at hid
      rw [← some_inj.mp hid]
      exact ⟨hknown, by simp⟩
    · obtain ⟨hfound, hout⟩ := h.taken other hother id hid
      exact ⟨hfound, fun hmem => hout (List.mem_of_mem_filter hmem)⟩
  listed := by
    intro other hother
    rcases mem_put.mp hother with rfl | ⟨hother, -⟩
    · exact hrest
    · exact h.listed other hother

/-- The session is then held by the call. -/
theorem noneLeaked_take (h : NoneLeaked s)
    (hfresh : s.calls.get? call.callId = none) (hleaves : call.leaves? = some sttSessionId)
    (hjoins : call.joins = false) :
    NoneLeaked { s with
      sessions := s.sessions.filter (· ≠ sttSessionId), calls := s.calls.put call } where
  held := by
    intro handle hhandle
    by_cases hsame : handle.sttSessionId = sttSessionId
    · exact .inr (.inl ⟨call, mem_put.mpr (.inl rfl), hsame ▸ hleaves⟩)
    · rcases h.held handle hhandle with hin | ⟨other, hother, hasked⟩ | hleft
      · exact .inl (List.mem_filter.mpr ⟨hin, decide_eq_true hsame⟩)
      · have hne := Table.get?_eq_none_iff.mp hfresh other hother
        exact .inr (.inl ⟨other, mem_put.mpr (.inr ⟨hother, hne⟩), hasked⟩)
      · exact .inr (.inr hleft)
  swept := h.swept
  watched := by
    intro hopen
    apply h.watched
    rcases hopen with hsome | ⟨other, hother, hjoining⟩
    · left
      intro hnone
      exact hsome (by simp only [hnone, List.filter_nil])
    · right
      rcases mem_put.mp hother with rfl | ⟨hother, -⟩
      · rw [hjoins] at hjoining
        cases hjoining
      · exact ⟨other, hother, hjoining⟩

theorem consistent_beginJoin (h : Consistent s) (callId preparedSttSessionId : String) :
    Consistent (s.beginJoin callId preparedSttSessionId) := by
  rw [SttService.beginJoin]
  split
  · exact h
  · refine ⟨h.known, ?_, ?_⟩
    · intro call hcall id hid
      rcases mem_put.mp hcall with rfl | ⟨hcall, -⟩
      · cases hid
      · exact h.taken call hcall id hid
    · intro call hcall id hid
      rcases mem_put.mp hcall with rfl | ⟨hcall, -⟩
      · cases hid
      · exact h.listed call hcall id hid

theorem watchdog_ensureWatchdog (s : SttService) :
    s.ensureWatchdog.watchdog = .sleeping ∨ s.ensureWatchdog.watchdog = .sweeping := by
  rw [SttService.ensureWatchdog]
  split
  · exact .inl rfl
  · exact .inl rfl
  · cases hwatchdog : s.watchdog <;> simp_all

theorem watchdog_beginJoin (s : SttService) (callId preparedSttSessionId : String) :
    (s.beginJoin callId preparedSttSessionId).watchdog = s.watchdog := by
  rw [SttService.beginJoin]
  split <;> rfl

theorem consistent_afterSweep (h : Consistent s) (callId : String) (sweeper : Sweeper) :
    Consistent (s.afterSweep callId sweeper) := by
  cases sweeper with
  | watchdog => exact ⟨h.known, h.taken, h.listed⟩
  | start preparedSttSessionId =>
    have hensured : Consistent s.ensureWatchdog := by
      rw [SttService.ensureWatchdog]
      split
      · exact ⟨h.known, h.taken, h.listed⟩
      · exact ⟨h.known, h.taken, h.listed⟩
      · exact h
    exact consistent_beginJoin hensured callId preparedSttSessionId
  | caller => exact h

variable {callId : String}

/-- What starts after the sweep is watched. -/
theorem noneLeaked_afterSweep (h : NoneLeaked s)
    (hfresh : s.calls.get? callId = none) (sweeper : Sweeper) :
    NoneLeaked (s.afterSweep callId sweeper) := by
  cases sweeper with
  | watchdog => exact ⟨h.held, h.swept, fun _ => .inl rfl⟩
  | caller => exact h
  | start preparedSttSessionId =>
    have hsame : s.ensureWatchdog.handles = s.handles ∧ s.ensureWatchdog.calls = s.calls ∧
        s.ensureWatchdog.sessions = s.sessions ∧ s.ensureWatchdog.left = s.left ∧
        s.ensureWatchdog.skipped = s.skipped := by
      rw [SttService.ensureWatchdog]
      split <;> exact ⟨rfl, rfl, rfl, rfl, rfl⟩
    obtain ⟨hhandles, hcalls, hsessions, hleft, hskipped⟩ := hsame
    have hwatched : (s.afterSweep callId (.start preparedSttSessionId)).watchdog = .sleeping ∨
        (s.afterSweep callId (.start preparedSttSessionId)).watchdog = .sweeping := by
      rw [SttService.afterSweep, watchdog_beginJoin]
      exact watchdog_ensureWatchdog s
    refine ⟨?_, ?_, fun _ => hwatched⟩
    · rw [SttService.afterSweep, SttService.beginJoin]
      split
      · intro handle hhandle
        rw [hhandles] at hhandle
        simp only [hsessions, hleft, SttService.Leaves, hcalls]
        exact h.held handle hhandle
      · intro handle hhandle
        simp only [hhandles] at hhandle
        simp only [hsessions, hleft, SttService.Leaves, hcalls]
        rcases h.held handle hhandle with hin | ⟨other, hother, hasked⟩ | hgone
        · exact .inl hin
        · have hne := Table.get?_eq_none_iff.mp hfresh other hother
          exact .inr (.inl ⟨other, mem_put.mpr (.inr ⟨hother, hne⟩), hasked⟩)
        · exact .inr (.inr hgone)
    · rw [SttService.afterSweep, SttService.beginJoin]
      split
      · exact hskipped.trans h.swept
      · exact hskipped.trans h.swept

theorem consistent_continueSweep (h : Consistent s) (callId : String) (sweeper : Sweeper)
    (now : Nat) (hids : ∀ id ∈ ids, (s.handles.get? id).isSome = true) :
    Consistent (s.continueSweep callId sweeper now ids) := by
  rw [SttService.continueSweep]
  split
  · exact consistent_afterSweep h callId sweeper
  · rename_i sttSessionId rest hnext
    obtain ⟨hmem, hrest⟩ := mem_of_nextExpired hnext
    exact consistent_take h rfl (hids _ hmem) fun other hother => hids other (hrest other hother)

theorem noneLeaked_continueSweep (h : NoneLeaked s)
    (hfresh : s.calls.get? callId = none) (sweeper : Sweeper) (now : Nat) (ids : List String) :
    NoneLeaked (s.continueSweep callId sweeper now ids) := by
  rw [SttService.continueSweep]
  split
  · exact noneLeaked_afterSweep h hfresh sweeper
  · exact noneLeaked_take h hfresh rfl rfl

theorem consistent_sweep (h : Consistent s) (callId : String) (sweeper : Sweeper) :
    Consistent (s.sweep callId sweeper) := by
  have hprepared : Consistent s.sweepPrepared := ⟨h.known, h.taken, h.listed⟩
  exact consistent_continueSweep hprepared callId sweeper s.now h.known

theorem noneLeaked_sweep (h : NoneLeaked s)
    (hfresh : s.calls.get? callId = none) (sweeper : Sweeper) :
    NoneLeaked (s.sweep callId sweeper) := by
  have hprepared : NoneLeaked s.sweepPrepared := ⟨h.held, h.swept, h.watched⟩
  exact noneLeaked_continueSweep hprepared hfresh sweeper s.now s.sessions

theorem consistent_stop (h : Consistent s) (callId sttSessionId : String) :
    Consistent (s.stop callId sttSessionId) := by
  rw [SttService.stop]
  split
  · rename_i hmem
    exact consistent_take h rfl (h.known _ hmem) fun _ hother => by cases hother
  · exact h

theorem noneLeaked_stop (h : NoneLeaked s)
    (hfresh : s.calls.get? callId = none) (sttSessionId : String) :
    NoneLeaked (s.stop callId sttSessionId) := by
  rw [SttService.stop]
  split
  · exact noneLeaked_take h hfresh rfl rfl
  · exact h

/-! ## Steps -/

theorem fresh_of_not_contains (h : ¬ s.calls.contains callId = true) :
    s.calls.get? callId = none := by
  rw [Table.contains, not_isSome_iff_eq_none] at h
  exact h

theorem call_eq {other : Call} (hfound : s.calls.get? callId = some call)
    (hother : other ∈ s.calls.entries) (hsame : other.callId = callId) : other = call := by
  have hget := Table.get?_of_mem hother
  rw [hsame, hfound] at hget
  exact (some_inj.mp hget).symm

/-- The step is the answer to a request to leave. -/
def answersLeave : Label → Bool
  | .leaveAnswer _ _ => true
  | _ => false

variable {label : Label}

theorem sound_step (hlabel : answersLeave label = false)
    (h : Consistent s) (hs : step s label = some s') :
    Consistent s' ∧ (NoneLeaked s → NoneLeaked s') := by
  cases label with
  | tick | prepare =>
    cases hs
    exact ⟨⟨h.known, h.taken, h.listed⟩, fun hlaw => ⟨hlaw.held, hlaw.swept, hlaw.watched⟩⟩
  | heartbeat sttSessionId =>
    simp only [step] at hs
    split at hs
    · cases hs
    · rename_i handle hfound
      split at hs
      · cases hs
        have hmem := mem_of_get? hfound
        have hkept {id : String} (hid : (s.handles.get? id).isSome = true) :=
          isSome_get?_put s.handles { handle with lastHeartbeatAt := s.now } hid
        refine ⟨⟨fun id hid => hkept (h.known id hid), ?_, ?_⟩, fun hlaw => ⟨?_, hlaw.swept,
          hlaw.watched⟩⟩
        · intro call hcall id hid
          obtain ⟨hknown, hout⟩ := h.taken call hcall id hid
          exact ⟨hkept hknown, hout⟩
        · exact fun call hcall id hid => hkept (h.listed call hcall id hid)
        · intro other hother
          rcases mem_put.mp hother with rfl | ⟨hother, -⟩
          · exact hlaw.held handle hmem
          · exact hlaw.held other hother
      · cases hs
  | startSession callId | sweepExpiredSessions callId =>
    simp only [step] at hs
    split at hs
    · cases hs
    · rename_i hcontains
      cases hs
      have hfresh := fresh_of_not_contains hcontains
      exact ⟨consistent_sweep h callId _, fun hlaw => noneLeaked_sweep hlaw hfresh _⟩
  | leaveSession callId sttSessionId preparedSttSessionId =>
    simp only [step] at hs
    split at hs
    · cases hs
    · rename_i hcontains
      have hfresh := fresh_of_not_contains hcontains
      split at hs
      · cases hs
        exact ⟨consistent_stop h callId _, fun hlaw => noneLeaked_stop hlaw hfresh _⟩
      · cases hs
        exact ⟨⟨h.known, h.taken, h.listed⟩, fun hlaw => ⟨hlaw.held, hlaw.swept, hlaw.watched⟩⟩
      · cases hs
        exact ⟨h, id⟩
  | stopSession callId sttSessionId =>
    simp only [step] at hs
    split at hs
    · cases hs
    · rename_i hcontains
      cases hs
      have hfresh := fresh_of_not_contains hcontains
      exact ⟨consistent_stop h callId _, fun hlaw => noneLeaked_stop hlaw hfresh _⟩
  | watchdogWakes callId =>
    simp only [step] at hs
    split at hs
    · cases hs
    · rename_i hcontains
      rw [Bool.or_eq_true, not_or] at hcontains
      cases hs
      have hfresh := fresh_of_not_contains hcontains.1
      have hawake : Consistent { s with watchdog := .sweeping } := ⟨h.known, h.taken, h.listed⟩
      refine ⟨consistent_sweep hawake callId _, fun hlaw => ?_⟩
      have hwatching : NoneLeaked { s with watchdog := .sweeping } :=
        ⟨hlaw.held, hlaw.swept, fun _ => .inr rfl⟩
      exact noneLeaked_sweep hwatching hfresh _
  | joinAnswer callId answer sttSessionId =>
    simp only [step] at hs
    split at hs
    · rename_i named prepared hfound
      have hcall := mem_of_get? hfound
      have herase := consistent_erase h callId s.left
      -- the call that waited for the answer asked no agent to leave
      have hleaves {id : String} (hid : s.Leaves id) :
          ∃ call ∈ (s.calls.erase callId).entries, call.leaves? = some id := by
        obtain ⟨other, hother, hasked⟩ := hid
        refine ⟨other, mem_erase.mpr ⟨hother, ?_⟩, hasked⟩
        intro hsame
        rw [call_eq hfound hother hsame] at hasked
        cases hasked
      have hopen : s.Open := .inr ⟨_, hcall, rfl⟩
      split at hs
      · cases hs
        refine ⟨herase, fun hlaw => ⟨?_, hlaw.swept, fun _ => hlaw.watched hopen⟩⟩
        intro handle hhandle
        exact (hlaw.held handle hhandle).imp_right (Or.imp_left hleaves)
      · split at hs
        · cases hs
        · rename_i hnew
          cases hs
          rw [Table.contains, not_isSome_iff_eq_none] at hnew
          have hkept {id : String} (hid : (s.handles.get? id).isSome = true) :=
            isSome_get?_put s.handles ⟨sttSessionId, answer.agentId, s.now⟩ hid
          refine ⟨⟨?_, ?_, ?_⟩, fun hlaw => ⟨?_, hlaw.swept, fun _ => hlaw.watched hopen⟩⟩
          · intro id hid
            rcases List.mem_append.mp hid with hold | hlast
            · exact hkept (h.known id hold)
            · rw [List.mem_singleton.mp hlast]
              exact isSome_iff_exists.mpr ⟨_, Table.get?_put_self s.handles
                ⟨sttSessionId, answer.agentId, s.now⟩⟩
          · intro call hmem id hid
            obtain ⟨hknown, hout⟩ := herase.taken call hmem id hid
            refine ⟨hkept hknown, ?_⟩
            intro hin
            rcases List.mem_append.mp hin with hold | hlast
            · exact hout hold
            · rw [List.mem_singleton.mp hlast, hnew] at hknown
              cases hknown
          · exact fun call hmem id hid => hkept (herase.listed call hmem id hid)
          · intro handle hhandle
            rcases mem_put.mp hhandle with rfl | ⟨hhandle, -⟩
            · exact .inl (List.mem_append_right _ (List.mem_singleton_self _))
            · exact (hlaw.held handle hhandle).imp (List.mem_append_left _)
                (Or.imp_left hleaves)
    · cases hs
  | leaveAnswer callId success => cases hlabel

/-- The agent whose leave succeeded is out, and the others stay as they were. -/
theorem noneLeaked_left (h : NoneLeaked s)
    (hfound : s.calls.get? callId = some call) (hleaves : call.leaves? = some sttSessionId) :
    NoneLeaked { s with calls := s.calls.erase callId, left := s.left ++ [sttSessionId] } where
  held := by
    intro handle hhandle
    rcases h.held handle hhandle with hin | ⟨other, hother, hasked⟩ | hgone
    · exact .inl hin
    · by_cases hsame : other.callId = callId
      · rw [call_eq hfound hother hsame, hleaves] at hasked
        rw [← some_inj.mp hasked]
        exact .inr (.inr (List.mem_append_right _ (List.mem_singleton_self _)))
      · exact .inr (.inl ⟨other, mem_erase.mpr ⟨hother, hsame⟩, hasked⟩)
    · exact .inr (.inr (List.mem_append_left _ hgone))
  swept := h.swept
  watched := by
    intro hopen
    apply h.watched
    rcases hopen with hsome | ⟨other, hother, hjoining⟩
    · exact .inl hsome
    · exact .inr ⟨other, (mem_erase.mp hother).1, hjoining⟩

/-- After a failing leave all agents are accounted for exactly if another request gets that
agent out. -/
theorem held_erase_iff (h : NoneLeaked s) (hconsistent : Consistent s)
    (hfound : s.calls.get? callId = some call) (hleaves : call.leaves? = some sttSessionId) :
    (∀ handle ∈ s.handles.entries, handle.sttSessionId ∈ s.sessions ∨
      (∃ other ∈ (s.calls.erase callId).entries, other.leaves? = some handle.sttSessionId) ∨
      handle.sttSessionId ∈ s.left) ↔
      sttSessionId ∈ s.left ∨
        ∃ other ∈ s.calls.entries, other.callId ≠ callId ∧ other.leaves? = some sttSessionId := by
  have hcall := mem_of_get? hfound
  obtain ⟨hknown, hout⟩ := hconsistent.taken call hcall sttSessionId hleaves
  constructor
  · intro hall
    obtain ⟨handle, hhandle⟩ := isSome_iff_exists.mp hknown
    have hid : handle.sttSessionId = sttSessionId := key_of_get? hhandle
    have hheld := hall handle (mem_of_get? hhandle)
    rw [hid] at hheld
    rcases hheld with hin | ⟨other, hother, hasked⟩ | hgone
    · exact absurd hin hout
    · obtain ⟨hmem, hne⟩ := mem_erase.mp hother
      exact .inr ⟨other, hmem, hne, hasked⟩
    · exact .inl hgone
  · intro hcovered handle hhandle
    rcases h.held handle hhandle with hin | ⟨other, hother, hasked⟩ | hgone
    · exact .inl hin
    · by_cases hsame : other.callId = callId
      · rw [call_eq hfound hother hsame, hleaves] at hasked
        rw [← some_inj.mp hasked]
        rcases hcovered with hleft | ⟨another, hanother, hne, hsecond⟩
        · exact .inr (.inr hleft)
        · exact .inr (.inl ⟨another, mem_erase.mpr ⟨hanother, hne⟩, hsecond⟩)
      · exact .inr (.inl ⟨other, mem_erase.mpr ⟨hother, hsame⟩, hasked⟩)
    · exact .inr (.inr hgone)

theorem noneLeaked_iff {t : SttService} : NoneLeaked t ↔
    (∀ handle ∈ t.handles.entries, handle.sttSessionId ∈ t.sessions ∨
      t.Leaves handle.sttSessionId ∨ handle.sttSessionId ∈ t.left) ∧ t.skipped = [] ∧
      (t.Open → t.watchdog = .sleeping ∨ t.watchdog = .sweeping) :=
  ⟨fun h => ⟨h.held, h.swept, h.watched⟩, fun h => ⟨h.1, h.2.1, h.2.2⟩⟩

variable {sweeper : Sweeper}

theorem failed_sweep_iff (h : NoneLeaked s) (hconsistent : Consistent s)
    (hfound : s.calls.get? callId = some ⟨callId, .sweeping sweeper now sttSessionId rest⟩) :
    NoneLeaked { s with
      calls := s.calls.erase callId
      skipped := s.skipped ++ rest.filter fun other =>
        decide (other ∈ s.sessions) && s.isExpired now other
      watchdog := if sweeper = .watchdog then .ended else s.watchdog } ↔
      (sttSessionId ∈ s.left ∨ ∃ other ∈ s.calls.entries, other.callId ≠ callId ∧
        other.leaves? = some sttSessionId) ∧
      (∀ other ∈ rest, other ∈ s.sessions → s.isExpired now other = false) ∧
      (sweeper = .watchdog → ¬ s.Open) := by
  have hskipped : s.skipped ++ (rest.filter fun other =>
      decide (other ∈ s.sessions) && s.isExpired now other) = [] ↔
      ∀ other ∈ rest, other ∈ s.sessions → s.isExpired now other = false := by
    rw [h.swept, List.nil_append, List.filter_eq_nil_iff]
    simp
  have hopen : (s.sessions ≠ [] ∨ ∃ call ∈ (s.calls.erase callId).entries, call.joins = true) ↔
      s.Open := by
    refine or_congr_right ?_
    constructor
    · rintro ⟨call, hcall, hjoins⟩
      exact ⟨call, (mem_erase.mp hcall).1, hjoins⟩
    · rintro ⟨call, hcall, hjoins⟩
      refine ⟨call, mem_erase.mpr ⟨hcall, ?_⟩, hjoins⟩
      intro hsame
      rw [call_eq hfound hcall hsame] at hjoins
      cases hjoins
  have hwatched : (s.Open → (if sweeper = .watchdog then Watchdog.ended else s.watchdog) =
      .sleeping ∨ (if sweeper = .watchdog then Watchdog.ended else s.watchdog) = .sweeping) ↔
      (sweeper = .watchdog → ¬ s.Open) := by
    by_cases hdog : sweeper = .watchdog
    · simp [hdog]
    · simp only [hdog, if_false, false_imp_iff, iff_true]
      exact h.watched
  rw [noneLeaked_iff, SttService.Open, hopen, hwatched, hskipped]
  exact and_congr_left fun _ => held_erase_iff h hconsistent hfound rfl

/-- Another request gets the agent out: one that has been answered, or one under way. -/
def Covered (s : SttService) (callId sttSessionId : String) : Prop :=
  sttSessionId ∈ s.left ∨
    ∃ other ∈ s.calls.entries, other.callId ≠ callId ∧ other.leaves? = some sttSessionId

theorem harmless_leaving_iff (hfound : s.calls.get? callId = some ⟨callId, .leaving sttSessionId⟩) :
    Harmless s (.leaveAnswer callId false) ↔ Covered s callId sttSessionId := by
  constructor
  · intro hharmless
    exact (hharmless _ hfound).1 sttSessionId rfl
  · intro hcovered call hcall
    rw [hfound] at hcall
    rw [← some_inj.mp hcall]
    refine ⟨?_, fun _ _ _ _ hstage => by cases hstage⟩
    intro id hleaves
    rw [← some_inj.mp hleaves]
    exact hcovered

theorem harmless_sweeping_iff
    (hfound : s.calls.get? callId = some ⟨callId, .sweeping sweeper now sttSessionId rest⟩) :
    Harmless s (.leaveAnswer callId false) ↔ Covered s callId sttSessionId ∧
      (∀ other ∈ rest, other ∈ s.sessions → s.isExpired now other = false) ∧
      (sweeper = .watchdog → ¬ s.Open) := by
  constructor
  · intro hharmless
    obtain ⟨hcovered, hothers⟩ := hharmless _ hfound
    exact ⟨hcovered sttSessionId rfl, hothers sweeper now sttSessionId rest rfl⟩
  · rintro ⟨hcovered, hothers⟩ call hcall
    rw [hfound] at hcall
    rw [← some_inj.mp hcall]
    refine ⟨?_, ?_⟩
    · intro id hleaves
      rw [← some_inj.mp hleaves]
      exact hcovered
    · intro _ _ _ _ hstage
      cases hstage
      exact hothers

variable {success : Bool}

theorem answer_leaving (h : NoneLeaked s) (hconsistent : Consistent s)
    (hfound : s.calls.get? callId = some ⟨callId, .leaving sttSessionId⟩)
    (hs : step s (.leaveAnswer callId success) = some s') :
    Consistent s' ∧ (NoneLeaked s' ↔ Harmless s (.leaveAnswer callId success)) := by
  simp only [step, hfound] at hs
  cases success with
  | true =>
    cases hs
    exact ⟨consistent_erase hconsistent callId _,
      iff_of_true (noneLeaked_left h hfound rfl) trivial⟩
  | false =>
    cases hs
    refine ⟨consistent_erase hconsistent callId s.left, ?_⟩
    have hheld := held_erase_iff h hconsistent hfound rfl
    rw [harmless_leaving_iff hfound]
    constructor
    · intro hlaw
      exact hheld.mp hlaw.held
    · intro hcovered
      refine ⟨hheld.mpr hcovered, h.swept, ?_⟩
      rintro (hsome | ⟨other, hother, hjoins⟩)
      · exact h.watched (.inl hsome)
      · exact h.watched (.inr ⟨other, (mem_erase.mp hother).1, hjoins⟩)

theorem answer_sweeping (h : NoneLeaked s) (hconsistent : Consistent s)
    (hfound : s.calls.get? callId = some ⟨callId, .sweeping sweeper now sttSessionId rest⟩)
    (hs : step s (.leaveAnswer callId success) = some s') :
    Consistent s' ∧ (NoneLeaked s' ↔ Harmless s (.leaveAnswer callId success)) := by
  have hlisted := hconsistent.listed _ (mem_of_get? hfound)
  have hfresh : (s.calls.erase callId).get? callId = none := Table.get?_erase_self _ _
  simp only [step, hfound] at hs
  cases success with
  | true =>
    cases hs
    have hleft := noneLeaked_left h hfound rfl
    have hcontinued := noneLeaked_continueSweep hleft hfresh sweeper now rest
    exact ⟨consistent_continueSweep (consistent_erase hconsistent callId _) callId sweeper now
      hlisted, iff_of_true hcontinued trivial⟩
  | false =>
    cases hs
    have herase := consistent_erase hconsistent callId s.left
    refine ⟨⟨herase.known, herase.taken, herase.listed⟩, ?_⟩
    rw [harmless_sweeping_iff hfound]
    exact failed_sweep_iff h hconsistent hfound

theorem noneLeaked_step (h : NoneLeaked s) (hconsistent : Consistent s)
    (hs : step s label = some s') : Consistent s' ∧ (NoneLeaked s' ↔ Harmless s label) := by
  cases hlabel : answersLeave label with
  | false =>
    obtain ⟨hconsistent', hlaw⟩ := sound_step hlabel hconsistent hs
    refine ⟨hconsistent', iff_of_true (hlaw h) ?_⟩
    cases label <;> trivial
  | true =>
    cases label with
    | leaveAnswer callId success =>
      cases hfound : s.calls.get? callId with
      | none =>
        simp only [step, hfound] at hs
        cases hs
      | some call =>
        have hid : call.callId = callId := key_of_get? hfound
        obtain ⟨named, stage⟩ := call
        subst hid
        cases stage with
        | joining prepared =>
          simp only [step, hfound] at hs
          cases hs
        | leaving sttSessionId => exact answer_leaving h hconsistent hfound hs
        | sweeping sweeper now sttSessionId rest => exact answer_sweeping h hconsistent hfound hs
    | _ => cases hlabel

/-- No agent is leaked in a run, and no sweep is cut short, exactly if each request to leave that
fails does no harm. -/
theorem noneLeaked_run_iff (labels : List Label) : sttSystem.Always NoneLeaked noSessions labels ↔
      sttSystem.Along Harmless noSessions labels := by
  have hstart : Consistent noSessions ∧ NoneLeaked noSessions :=
    ⟨consistent_noSessions, noneLeaked_noSessions⟩
  constructor
  · intro hlaw
    refine System.Always.along (I := fun s => Consistent s ∧ NoneLeaked s)
      (Q := fun _ _ => True) ?_ ?_ hlaw hstart (System.along_true _ _)
    · intro s label s' h hharmless hs
      obtain ⟨hconsistent', hiff⟩ := noneLeaked_step h.2 h.1 hs
      exact ⟨hconsistent', hiff.mpr hharmless⟩
    · intro s label s' h _ hs hlater
      exact (noneLeaked_step h.2 h.1 hs).2.mp hlater
  · intro hharmless
    have hsound : sttSystem.Always (fun s => Consistent s ∧ NoneLeaked s) noSessions labels := by
      refine hharmless.always hstart ?_
      intro s label s' h hlabel hs
      obtain ⟨hconsistent', hiff⟩ := noneLeaked_step h.2 h.1 hs
      exact ⟨hconsistent', hiff.mpr hlabel⟩
    exact hsound.mono fun _ h => h.2

/-! ## A leave that fails -/

/-- A session is started and stopped; the service does not answer the request to leave. -/
def failedLeave : List Label :=
  [.prepare "prepared-stt-1", .startSession "call-1" "prepared-stt-1",
    .joinAnswer "call-1" (.answered (some "agent-1") none none) "stt-1",
    .stopSession "call-2" "stt-1", .leaveAnswer "call-2" false]

/-- The session is gone from the table, and its agent goes on. -/
theorem failed_leave_leaks_agent :
    ¬ ∀ labels : List Label, sttSystem.Always NoneLeaked noSessions labels := by
  intro hall
  have hrun : sttSystem.run noSessions failedLeave =
      some (sttSystem.target noSessions failedLeave) := System.run_eq_target (by decide)
  have hlaw := (hall failedLeave).at_end hrun
  have hagent : ⟨"stt-1", "agent-1", 0⟩ ∈
      (sttSystem.target noSessions failedLeave).handles.entries := by decide
  rcases hlaw.held _ hagent with hin | ⟨call, hcall, -⟩ | hleft
  · exact absurd hin (by decide)
  · have hnone : (sttSystem.target noSessions failedLeave).calls.entries = [] := by decide
    rw [hnone] at hcall
    cases hcall
  · exact absurd hleft (by decide +kernel)

end Newbro.SttSessions
