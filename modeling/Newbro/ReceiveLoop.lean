import Newbro.NodeTurns

/-!
# When the receive loop waits on itself

A turn lock is held by one turn at a time, and a step brings the loop into a wait on itself in
two ways only: it takes up an instruction for a session whose turn waits for an answer, or the
turn whose lock it waits for asks a question.
-/
namespace Newbro.NodeTurns

open Library CodexTurn Option Table

/-! ## One stretch of a turn -/

section

variable {session session' : Session} {turn turn' : Turn} {move : Move}

/-- What every stretch of a turn leaves: the ids, and the lock of others. -/
structure Kept (session session' : Session) (turn turn' : Turn) : Prop where
  sessionId : session'.sessionId = session.sessionId
  turnId : turn'.turnId = turn.turnId
  sessionOf : turn'.sessionId = turn.sessionId
  others : ∀ other, other ≠ turn.turnId → session.turnLock = some other →
    session'.turnLock = some other
  held : (turn.point.locked = true → session.turnLock = some turn.turnId) →
    turn'.point.locked = true → session'.turnLock = some turn.turnId

/-- What a stretch leaves that asks no question. -/
structure Unasked (session session' : Session) (turn turn' : Turn) : Prop where
  wait : session'.blockedWait = some none → session.blockedWait = some none
  lock : ∀ other, other ≠ turn.turnId → session'.turnLock = some other →
    session.turnLock = some other
  blocked : turn'.point.inBlockedWait = true →
    turn.point.inBlockedWait = true ∧ session' = session

theorem release_turnLock_of_ne {other turnId : String} (h : other ≠ turnId) :
    (session.release turnId).turnLock = some other ↔ session.turnLock = some other := by
  rw [Session.release]
  by_cases hlock : session.turnLock = some turnId
  · have hne : some turnId ≠ some other := fun heq => h (some.inj heq).symm
    simp [hlock, hne]
  · simp [hlock]

theorem kept_enterLock (session : Session) (turn : Turn) :
    Kept session (enterLock session turn).1 turn (enterLock session turn).2 := by
  rw [enterLock]
  split_ifs with hfree
  · refine ⟨rfl, rfl, rfl, fun other _ hother => ?_, fun _ _ => rfl⟩
    rw [hfree.1] at hother
    cases hother
  · exact ⟨rfl, rfl, rfl, fun _ _ hother => hother, fun _ hlocked => by cases hlocked⟩

theorem unasked_enterLock (session : Session) (turn : Turn) :
    Unasked session (enterLock session turn).1 turn (enterLock session turn).2 := by
  rw [enterLock]
  split_ifs with hfree
  · refine ⟨id, fun other hne hother => absurd ?_ hne, fun hblocked => by cases hblocked⟩
    exact (some.inj hother).symm
  · exact ⟨id, fun _ _ hother => hother, fun hblocked => by cases hblocked⟩

theorem enterLock_of_waiting (h : (enterLock session turn).2.point = .waitingLock) :
    (enterLock session turn).1.turnLock = session.turnLock ∧
      (enterLock session turn).1.blockedWait = session.blockedWait := by
  rw [enterLock] at h ⊢
  split_ifs at h ⊢
  exact ⟨rfl, rfl⟩

section

variable (h : moveTurn session turn move = some (session', turn'))
include h

theorem kept_moveTurn : Kept session session' turn turn' := by
  cases move with
  | acquire =>
    simp only [moveTurn] at h
    split_ifs at h with hfree
    cases h
    refine ⟨rfl, rfl, rfl, fun other _ hother => ?_, fun _ _ => rfl⟩
    rw [hfree.2.1] at hother
    cases hother
  | setThread =>
    simp only [moveTurn] at h
    split_ifs at h
    cases h
    exact ⟨rfl, rfl, rfl, fun _ _ hother => hother, fun hheld hlocked => hheld hlocked⟩
  | ask =>
    simp only [moveTurn] at h
    split_ifs at h with hworking
    cases h
    exact ⟨rfl, rfl, rfl, fun _ _ hother => hother, fun hheld _ => hheld (by rw [hworking]; rfl)⟩
  | await =>
    simp only [moveTurn] at h
    split_ifs at h with hasking
    cases h
    exact ⟨rfl, rfl, rfl, fun _ _ hother => hother, fun hheld _ => hheld (by rw [hasking]; rfl)⟩
  | wake =>
    simp only [moveTurn] at h
    split_ifs at h with hblocked
    split at h
    · cases h
    · cases h
      exact ⟨rfl, rfl, rfl, fun _ hne hother => (release_turnLock_of_ne hne).mpr hother,
        fun _ hlocked => by cases hlocked⟩
    · cases h
      exact ⟨rfl, rfl, rfl, fun _ _ hother => hother, fun hheld _ => hheld (by rw [hblocked]; rfl)⟩
  | timeOut | leave =>
    simp only [moveTurn] at h
    split_ifs at h
    cases h
    exact ⟨rfl, rfl, rfl, fun _ hne hother => (release_turnLock_of_ne hne).mpr hother,
      fun _ hlocked => by cases hlocked⟩

theorem unasked_moveTurn (hmove : move ≠ .ask) : Unasked session session' turn turn' := by
  cases move with
  | acquire =>
    simp only [moveTurn] at h
    split_ifs at h
    cases h
    refine ⟨id, fun other hne hother => absurd ?_ hne, fun hblocked => by cases hblocked⟩
    exact (some.inj hother).symm
  | setThread =>
    simp only [moveTurn] at h
    split_ifs at h with hworking
    cases h
    refine ⟨id, fun _ _ hother => hother, fun hblocked => ?_⟩
    rw [hworking] at hblocked
    cases hblocked
  | ask => exact absurd rfl hmove
  | await =>
    simp only [moveTurn] at h
    split_ifs at h with hasking
    cases h
    exact ⟨id, fun _ _ hother => hother, fun _ => ⟨by rw [hasking]; rfl, rfl⟩⟩
  | wake =>
    simp only [moveTurn] at h
    split_ifs at h
    split at h
    · cases h
    · cases h
      refine ⟨fun hwait => ?_, fun _ hne hother => (release_turnLock_of_ne hne).mp hother,
        fun hblocked => by cases hblocked⟩
      cases hwait
    · cases h
      refine ⟨fun hwait => ?_, fun _ _ hother => hother, fun hblocked => by cases hblocked⟩
      cases hwait
  | timeOut =>
    simp only [moveTurn] at h
    split_ifs at h
    cases h
    refine ⟨fun hwait => ?_, fun _ hne hother => (release_turnLock_of_ne hne).mp hother,
      fun hblocked => by cases hblocked⟩
    cases hwait
  | leave =>
    simp only [moveTurn] at h
    split_ifs at h
    cases h
    exact ⟨id, fun _ hne hother => (release_turnLock_of_ne hne).mp hother,
      fun hblocked => by cases hblocked⟩

/-- Only `enterLock` makes a turn wait for the lock. -/
theorem point_moveTurn : turn'.point ≠ .waitingLock := by
  cases move with
  | setThread =>
    simp only [moveTurn] at h
    split_ifs at h with hworking
    cases h
    rw [hworking]
    decide
  | wake =>
    simp only [moveTurn] at h
    split_ifs at h
    split at h
    · cases h
    · cases h
      simp
    · cases h
      simp
  | _ =>
    simp only [moveTurn] at h
    split_ifs at h
    cases h
    simp

end

end

/-! ## One turn at a time -/

namespace State

/-- The turn has a task, or the loop consumes it. -/
def Running (s : State) (turn : Turn) : Prop :=
  turn ∈ s.turns.entries ∨ s.loop = .instructing turn

def lockOf (s : State) (sessionId : String) : Option String :=
  (s.sessions.get? sessionId).bind Session.turnLock

/-- Every turn inside its `async with` holds the lock, so there is one for each session. -/
structure Locked (s : State) : Prop where
  holds : ∀ turn, s.Running turn → turn.point.locked = true →
    s.lockOf turn.sessionId = some turn.turnId
  apart : ∀ turn, s.loop = .instructing turn → s.turns.get? turn.turnId = none

variable {s s' : State}

theorem Locked.of_locks (h : Locked s)
    (hrunning : ∀ turn, s'.Running turn → turn.point.locked = true → s.Running turn)
    (hlocks : ∀ turn, s'.Running turn → turn.point.locked = true →
      s.lockOf turn.sessionId = some turn.turnId → s'.lockOf turn.sessionId = some turn.turnId)
    (hapart : ∀ turn, s'.loop = .instructing turn → s'.turns.get? turn.turnId = none) :
    Locked s' := by
  refine ⟨fun turn hturn hlocked => ?_, hapart⟩
  have hbefore := h.holds turn (hrunning turn hturn hlocked) hlocked
  exact hlocks turn hturn hlocked hbefore

variable {session session' : Session} {turn turn' : Turn}

/-- A stretch of one turn leaves the locks of the others. -/
theorem Locked.of_kept (h : Locked s) (hsession : s.sessions.get? turn.sessionId = some session)
    (hkept : Kept session session' turn turn') (hheld : turn.point.locked = true → s.Running turn)
    (hsessions : s'.sessions = s.sessions.put session') (hrunning : ∀ other, s'.Running other →
      other = turn' ∨ s.Running other ∧ other.turnId ≠ turn.turnId)
    (hapart : ∀ other, s'.loop = .instructing other → s'.turns.get? other.turnId = none) :
    Locked s' := by
  have hid : session.sessionId = turn.sessionId := key_of_get? hsession
  refine ⟨fun other hother hlocked => ?_, hapart⟩
  rw [lockOf, hsessions, Table.get?_put, hkept.sessionId, hid]
  rcases hrunning other hother with rfl | ⟨hother, hne⟩
  · have hlock : turn.point.locked = true → session.turnLock = some turn.turnId := by
      intro hturn
      have hholds := h.holds turn (hheld hturn) hturn
      rwa [lockOf, hsession, bind_some] at hholds
    rw [hkept.sessionOf, if_pos rfl, bind_some, hkept.turnId]
    exact hkept.held hlock hlocked
  · have hholds := h.holds other hother hlocked
    split
    · rename_i hsame
      rw [lockOf, ← hsame, hsession, bind_some] at hholds
      rw [bind_some]
      exact hkept.others other.turnId hne hholds
    · exact hholds

variable {turnId : String}

/-- A stretch of a turn with a task. -/
theorem Locked.of_table (h : Locked s) (hturn : s.turns.get? turnId = some turn)
    (hsession : s.sessions.get? turn.sessionId = some session)
    (hkept : Kept session session' turn turn') (hsessions : s'.sessions = s.sessions.put session')
    (hturns : s'.turns = s.turns.put turn') (hloop : s'.loop = s.loop) : Locked s' := by
  have hid : turn.turnId = turnId := key_of_get? hturn
  have hother : ∀ other, s.loop = .instructing other → other.turnId ≠ turn.turnId := by
    intro other hother hsame
    have hnone := h.apart other hother
    rw [hsame, hid, hturn] at hnone
    cases hnone
  refine h.of_kept hsession hkept (fun _ => .inl (mem_of_get? hturn)) hsessions
    (fun other hrunning => ?_) fun other hinstructing => ?_
  · rw [Running, hturns, hloop] at hrunning
    rcases hrunning with hin | hinstructing
    · rcases mem_put.mp hin with rfl | ⟨hin, hne⟩
      · exact .inl rfl
      · exact .inr ⟨.inl hin, hkept.turnId ▸ hne⟩
    · exact .inr ⟨.inr hinstructing, hother other hinstructing⟩
  · rw [hloop] at hinstructing
    rw [hturns, Table.get?_put, if_neg, h.apart other hinstructing]
    rw [hkept.turnId]
    exact (hother other hinstructing).symm

theorem lockOf_endWaitOf (s : State) (sessionId : String) (result : WaitResult) (id : String) :
    (s.endWaitOf sessionId result).lockOf id = s.lockOf id := by
  rw [endWaitOf]
  split
  · rfl
  · rename_i session hsession
    have hid : session.sessionId = sessionId := key_of_get? hsession
    rw [lockOf, lockOf, Table.get?_put]
    split
    · rename_i heq
      have heq : session.sessionId = id := heq
      rw [← heq, hid, hsession]
      rfl
    · rfl

@[simp] theorem loop_endWaitOf (s : State) (sessionId : String) (result : WaitResult) :
    (s.endWaitOf sessionId result).loop = s.loop := by
  rw [endWaitOf]
  split <;> rfl

@[simp] theorem turns_endWaitOf (s : State) (sessionId : String) (result : WaitResult) :
    (s.endWaitOf sessionId result).turns = s.turns := by
  rw [endWaitOf]
  split <;> rfl

theorem lockOf_put_fresh {id : String}
    (hfresh : s.sessions.contains session.sessionId ≠ true) (h : s.lockOf id = some turnId) :
    ((s.sessions.put session).get? id).bind Session.turnLock = some turnId := by
  rw [Table.get?_put]
  split
  · rename_i heq
    rw [lockOf] at h
    obtain ⟨known, hknown, -⟩ := bind_eq_some_iff.mp h
    rw [← heq] at hknown
    simp [Table.contains, hknown] at hfresh
  · exact h

/-- Fewer turns and the same locks. -/
theorem Locked.of_fewer (h : Locked s) (hlocks : ∀ id, s'.lockOf id = s.lockOf id)
    (hturns : ∀ turn ∈ s'.turns.entries, turn ∈ s.turns.entries ∨ turn.point.locked = false)
    (hloop : ∀ turn, s'.loop ≠ .instructing turn) : Locked s' := by
  refine h.of_locks (fun turn hturn hlocked => ?_) (fun turn _ _ hholds => ?_)
    fun turn hturn => absurd hturn (hloop turn)
  · rcases hturn with hturn | hturn
    · rcases hturns turn hturn with hturn | hfree
      · exact .inl hturn
      · rw [hfree] at hlocked
        cases hlocked
    · exact absurd hturn (hloop turn)
  · rw [hlocks]
    exact hholds

/-- The turns and the locks stay while the loop moves on. -/
theorem Locked.of_loop (h : Locked s) (hsessions : s'.sessions = s.sessions)
    (hturns : s'.turns = s.turns) (hloop : ∀ turn, s'.loop ≠ .instructing turn) : Locked s' := by
  refine h.of_fewer (fun id => ?_) (fun turn hturn => .inl ?_) hloop
  · rw [lockOf, hsessions, lockOf]
  · rwa [hturns] at hturn

theorem mem_startRun {command : DispatchRun} {sessionId : String}
    (h : turn ∈ (s.startRun command sessionId).turns.entries) :
    turn ∈ s.turns.entries ∨ turn.point.locked = false := by
  rcases mem_put.mp h with rfl | ⟨hturn, -⟩
  · exact .inr rfl
  · exact .inl hturn

variable {command : Command}

theorem Locked.receive (h : Locked s) (hloop : s.loop = .receiving)
    (hs : s.receive command = some s') : Locked s' := by
  have hidle : ∀ turn, s.loop ≠ .instructing turn := by
    intro turn hturn
    rw [hloop] at hturn
    cases hturn
  cases command with
  | dispatchRun command =>
    have hs : s.dispatchRun command = some s' := hs
    rw [dispatchRun] at hs
    split_ifs at hs
    split at hs
    · cases some.inj hs
      exact h.of_fewer (fun _ => rfl) (fun _ hturn => mem_startRun hturn) fun turn hturn => by
        cases hturn
    · cases some.inj hs
      exact h.of_loop rfl rfl fun _ hturn => by cases hturn
  | dispatchText turnId runId executionSessionId text =>
    have hs : s.dispatchText turnId runId executionSessionId text = some s' := hs
    rw [dispatchText] at hs
    split_ifs at hs with hfresh
    have hnone : s.turns.get? turnId = none := by simpa [Table.contains] using hfresh
    split at hs
    · cases some.inj hs
      exact h
    · rename_i session haccepted
      cases some.inj hs
      have hsession : s.sessions.get? session.sessionId = some session := by
        rw [acceptsText] at haccepted
        split_ifs at haccepted
        obtain ⟨sessionId, -, haccepted⟩ := bind_eq_some_iff.mp haccepted
        split_ifs at haccepted
        have hget := (filter_eq_some_iff.mp haccepted).1
        exact Table.get?_of_mem (mem_of_get? hget)
      have hkept := kept_enterLock session
        ⟨turnId, runId, session.sessionId, .instruction, .waitingLock⟩
      refine h.of_kept hsession hkept (fun hlocked => by cases hlocked) rfl (fun other hother => ?_)
        fun other hother => ?_
      · rcases hother with hother | hother
        · refine .inr ⟨.inl hother, fun hsame => ?_⟩
          have hget := Table.get?_of_mem hother
          rw [show other.turnId = turnId from hsame, hnone] at hget
          cases hget
        · exact .inl (Loop.instructing.inj hother).symm
      · cases Loop.instructing.inj hother
        rw [hkept.turnId]
        exact hnone
  | startCodexTurn turnId requestId sessionId =>
    have hs : s.startCodexTurn turnId requestId sessionId = some s' := hs
    rw [startCodexTurn] at hs
    split_ifs at hs with hrefused
    rw [not_or] at hrefused
    cases some.inj hs
    refine h.of_locks (fun turn hturn hlocked => ?_)
      (fun turn _ _ hholds => lockOf_put_fresh hrefused.2 hholds) fun turn hturn =>
        absurd hturn (hidle turn)
    rcases hturn with hturn | hturn
    · rcases mem_put.mp hturn with rfl | ⟨hturn, -⟩
      · cases hlocked
      · exact .inl hturn
    · exact .inr hturn
  | cancelRun runId =>
    cases some.inj hs
    rw [cancelRun]
    split_ifs
    · split
      · exact h
      · refine h.of_fewer (fun id => lockOf_endWaitOf ..) (fun turn hturn => .inl ?_) ?_
        · rwa [turns_endWaitOf] at hturn
        · rw [loop_endWaitOf]
          exact hidle
    · exact h
  | supplyInteractionResponse executionSessionId outboundTurnRequestId hasNativeResponse =>
    simp only [State.receive] at hs
    split_ifs at hs
    · split at hs
      · cases some.inj hs
        exact h
      · cases some.inj hs
        exact h.of_loop rfl rfl fun _ hturn => by cases hturn
    · cases some.inj hs
      exact h
  | releaseRun executionSessionId =>
    cases some.inj hs
    exact h.of_loop rfl rfl hidle
  | other =>
    cases some.inj hs
    exact h.of_loop rfl rfl fun _ hturn => by cases hturn

theorem turns_dropTurn (s : State) (turn : Turn) :
    (s.dropTurn turn).turns = s.turns.erase turn.turnId := by
  rw [dropTurn]
  split_ifs
  · exact turns_endWaitOf ..
  · rfl

theorem loop_dropTurn (s : State) (turn : Turn) : (s.dropTurn turn).loop = s.loop := by
  rw [dropTurn]
  split_ifs
  · exact loop_endWaitOf ..
  · rfl

theorem lockOf_dropTurn (s : State) (turn : Turn) (id : String) :
    (s.dropTurn turn).lockOf id = s.lockOf id := by
  rw [dropTurn]
  split_ifs
  · exact lockOf_endWaitOf ..
  · rfl

theorem Locked.dropTurn (h : Locked s) (turn : Turn) : Locked (s.dropTurn turn) := by
  refine h.of_locks (fun other hother _ => ?_) (fun other _ _ hholds => ?_) fun other hother => ?_
  · rw [Running, turns_dropTurn, loop_dropTurn] at hother
    exact hother.imp_left fun hin => (mem_erase.mp hin).1
  · rw [lockOf_dropTurn]
    exact hholds
  · rw [loop_dropTurn] at hother
    rw [turns_dropTurn, Table.get?_erase]
    split
    · rfl
    · exact h.apart other hother

theorem loop_releaseLock (s : State) (turn : Turn) : (s.releaseLock turn).loop = s.loop := by
  rw [releaseLock]
  split <;> rfl

theorem turns_releaseLock (s : State) (turn : Turn) : (s.releaseLock turn).turns = s.turns := by
  rw [releaseLock]
  split <;> rfl

theorem lockOf_releaseLock {id other : String} (hne : other ≠ turn.turnId)
    (h : s.lockOf id = some other) : (s.releaseLock turn).lockOf id = some other := by
  rw [releaseLock]
  split
  · exact h
  · rename_i session hsession
    rw [lockOf, Table.get?_put]
    split
    · rename_i heq
      have hid : session.sessionId = turn.sessionId := key_of_get? hsession
      have heq : session.sessionId = id := heq
      rw [lockOf, ← heq, hid, hsession, bind_some] at h
      rw [bind_some]
      exact (release_turnLock_of_ne hne).mpr h
    · exact h

theorem Locked.step (h : Locked s) {label : Label} (hs : s.step label = some s') : Locked s' := by
  cases label with
  | receive command =>
    simp only [State.step] at hs
    split_ifs at hs with hloop
    exact h.receive hloop hs
  | sessionCreated sessionId resumed =>
    have hs : s.sessionCreated sessionId resumed = some s' := hs
    rw [sessionCreated] at hs
    split at hs
    · split_ifs at hs with hfresh
      cases some.inj hs
      refine h.of_locks (fun turn hturn hlocked => ?_)
        (fun turn _ _ hholds => lockOf_put_fresh hfresh hholds) fun turn hturn => by cases hturn
      rcases hturn with hturn | hturn
      · rcases mem_startRun hturn with hturn | hfree
        · exact .inl hturn
        · rw [hfree] at hlocked
          cases hlocked
      · cases hturn
    · cases hs
  | responded ok =>
    have hs : s.responded ok = some s' := hs
    rw [responded] at hs
    split at hs
    · cases some.inj hs
      split_ifs
      · refine h.of_fewer (fun id => lockOf_endWaitOf ..) (fun turn hturn => .inl ?_) ?_
        · rwa [turns_endWaitOf] at hturn
        · intro turn hturn
          rw [loop_endWaitOf] at hturn
          cases hturn
      · exact h.of_loop rfl rfl fun _ hturn => by cases hturn
    · cases hs
  | otherHandled | reconnected =>
    simp only [State.step] at hs
    split_ifs at hs
    cases some.inj hs
    exact h.of_loop rfl rfl fun _ hturn => by cases hturn
  | loopFails =>
    have hs : s.loopFails = some s' := hs
    rw [loopFails] at hs
    split at hs <;> cases hs <;>
      exact h.of_loop rfl rfl fun _ hturn => by cases hturn
  | begin turnId =>
    obtain ⟨turn, hturn, hs⟩ := bind_eq_some_iff.mp hs
    obtain ⟨session, hsession, rfl⟩ := map_eq_some_iff.mp hs
    have hget := (filter_eq_some_iff.mp hturn).1
    exact h.of_table hget hsession (kept_enterLock session turn) rfl rfl rfl
  | turn turnId move =>
    obtain ⟨turn, hget, hs⟩ := bind_eq_some_iff.mp hs
    obtain ⟨session, hsession, hs⟩ := bind_eq_some_iff.mp hs
    obtain ⟨moved, hmoved, rfl⟩ := map_eq_some_iff.mp hs
    exact h.of_table hget hsession (kept_moveTurn hmoved) rfl rfl rfl
  | finish turnId =>
    obtain ⟨turn, -, rfl⟩ := map_eq_some_iff.mp hs
    exact h.dropTurn turn
  | cancelTask turnId =>
    have hs : s.cancelTask turnId = some s' := hs
    rw [cancelTask] at hs
    split_ifs at hs with hloop
    obtain ⟨turn, hget, rfl⟩ := map_eq_some_iff.mp hs
    have hid : turn.turnId = turnId := key_of_get? hget
    refine h.of_locks (fun other hother _ => ?_) (fun other hother _ hholds => ?_)
      fun other hother => ?_
    · rw [Running, turns_dropTurn, loop_dropTurn, turns_releaseLock, loop_releaseLock] at hother
      exact hother.imp_left fun hin => (mem_erase.mp hin).1
    · rw [lockOf_dropTurn]
      refine lockOf_releaseLock (fun hsame => ?_) hholds
      rw [Running, turns_dropTurn, loop_dropTurn, turns_releaseLock, loop_releaseLock, hloop]
        at hother
      rcases hother with hother | hother
      · exact (mem_erase.mp hother).2 hsame
      · cases hother
    · rw [loop_dropTurn, loop_releaseLock, hloop] at hother
      cases hother
  | instruction move =>
    have hs : s.instructionMoves move = some s' := hs
    rw [instructionMoves] at hs
    split at hs
    · rename_i turn hloop
      obtain ⟨session, hsession, hs⟩ := bind_eq_some_iff.mp hs
      obtain ⟨moved, hmoved, rfl⟩ := map_eq_some_iff.mp hs
      have hkept := kept_moveTurn hmoved
      have hnone := h.apart turn hloop
      refine h.of_kept hsession hkept (fun _ => .inr hloop) rfl (fun other hother => ?_)
        fun other hother => ?_
      · rcases hother with hother | hother
        · refine .inr ⟨.inl hother, fun hsame => ?_⟩
          have hget := Table.get?_of_mem hother
          rw [hsame, hnone] at hget
          cases hget
        · exact .inl (Loop.instructing.inj hother).symm
      · cases Loop.instructing.inj hother
        rw [hkept.turnId]
        exact hnone
    · cases hs
  | instructionEnds =>
    have hs : s.instructionEnds = some s' := hs
    rw [instructionEnds] at hs
    split at hs
    · split_ifs at hs
      cases some.inj hs
      exact h.of_loop rfl rfl fun _ hturn => by cases hturn
    · cases hs
  | instructionFails =>
    have hs : s.instructionFails = some s' := hs
    rw [instructionFails] at hs
    split at hs
    · rename_i turn hloop
      split_ifs at hs
      cases some.inj hs
      have hnone := h.apart turn hloop
      refine h.of_locks (fun other hother _ => ?_) (fun other hother _ hholds => ?_)
        fun other hother => by cases hother
      · rcases hother with hother | hother
        · rw [turns_releaseLock] at hother
          exact .inl hother
        · cases hother
      · refine lockOf_releaseLock (fun hsame => ?_) hholds
        rcases hother with hother | hother
        · rw [turns_releaseLock] at hother
          have hget := Table.get?_of_mem hother
          rw [hsame, hnone] at hget
          cases hget
        · cases hother
    · cases hs

/-! ## What starts a wait on itself -/

/-- The loop takes up no instruction while the turn of its session waits for an answer, and no
turn asks while the loop waits for its lock. -/
def KeepsReceiving (s : State) : Label → Prop
  | .receive (.dispatchText _ runId executionSessionId text) =>
    ∀ session ∈ s.acceptsText runId executionSessionId text, s.holderAwaitsAnswer session = false
  | .turn turnId .ask => ∀ turn ∈ s.turns.get? turnId, s.loopAwaits turn.sessionId = false
  | _ => True

theorem holderAwaitsAnswer_iff :
    s.holderAwaitsAnswer session = true ↔ session.blockedWait = some none ∧
      ∃ turnId holder, session.turnLock = some turnId ∧ s.turns.get? turnId = some holder ∧
        holder.sessionId = session.sessionId ∧ holder.point.inBlockedWait = true := by
  simp only [holderAwaitsAnswer, Bool.and_eq_true, decide_eq_true_eq, any_eq_true, bind_eq_some_iff]
  constructor
  · rintro ⟨hwait, holder, ⟨turnId, hlock, hget⟩, hid, hblocked⟩
    exact ⟨hwait, turnId, holder, hlock, hget, hid, hblocked⟩
  · rintro ⟨hwait, turnId, holder, hlock, hget, hid, hblocked⟩
    exact ⟨hwait, holder, ⟨turnId, hlock, hget⟩, hid, hblocked⟩

/-- A loop that waits for no lock does not wait on itself. -/
theorem not_waits_of_loop (h : ∀ sessionId, s.loopAwaits sessionId = false) :
    ¬ s.WaitsOnItself := by
  rintro ⟨session, -, hloop, -⟩
  rw [h] at hloop
  cases hloop

theorem loopAwaits_of_ne (h : ∀ turn, s.loop ≠ .instructing turn) (sessionId : String) :
    s.loopAwaits sessionId = false := by
  rw [loopAwaits]
  split
  · rename_i turn hloop
    exact absurd hloop (h turn)
  · rfl

theorem loopAwaits_congr (h : s'.loop = s.loop) (sessionId : String) :
    s'.loopAwaits sessionId = s.loopAwaits sessionId := by
  rw [loopAwaits, loopAwaits, h]

/-- A wait on itself was there before when its session and the holder of the lock were. -/
theorem not_waits_of_frame (h : ¬ s.WaitsOnItself) (hloop : s'.loop = s.loop)
    (hsessions : ∀ session' ∈ s'.sessions.entries, s'.holderAwaitsAnswer session' = true →
      ∃ session ∈ s.sessions.entries, session.sessionId = session'.sessionId ∧
        s.holderAwaitsAnswer session = true) : ¬ s'.WaitsOnItself := by
  rintro ⟨session', hsession', hawaits, hholder⟩
  obtain ⟨session, hsession, hid, hbefore⟩ := hsessions session' hsession' hholder
  refine h ⟨session, hsession, ?_, hbefore⟩
  rw [hid, ← loopAwaits_congr hloop]
  exact hawaits

/-- A stretch in which nothing is asked starts no wait. -/
theorem not_waits_of_unasked (hlocked : Locked s) (h : ¬ s.WaitsOnItself)
    (hturn : s.turns.get? turnId = some turn)
    (hsession : s.sessions.get? turn.sessionId = some session)
    (hkept : Kept session session' turn turn') (hunasked : Unasked session session' turn turn')
    (hloop : s'.loop = s.loop) (hsessions : s'.sessions = s.sessions.put session')
    (hturns : s'.turns = s.turns.put turn') : ¬ s'.WaitsOnItself := by
  have hid : session.sessionId = turn.sessionId := key_of_get? hsession
  have hself : s.turns.get? turn.turnId = some turn :=
    Table.get?_of_mem (mem_of_get? hturn)
  refine not_waits_of_frame h hloop fun other hother hawaits => ?_
  obtain ⟨hwait, holderId, holder, hlock, hget, hof, hblocked⟩ :=
    holderAwaitsAnswer_iff.mp hawaits
  rw [hturns, Table.get?_put] at hget
  rw [hsessions] at hother
  by_cases hmoved : turn'.turnId = holderId
  · -- the turn that moved waits for an answer, as it did before
    rw [if_pos hmoved] at hget
    cases some.inj hget
    obtain ⟨hbefore, hsame⟩ := hunasked.blocked hblocked
    have hlockedPoint : turn.point.locked = true := by
      cases hpoint : turn.point <;> rw [hpoint] at hbefore <;> first | rfl | cases hbefore
    have hholds := hlocked.holds turn (.inl (mem_of_get? hturn)) hlockedPoint
    rw [lockOf, hsession, bind_some] at hholds
    rw [hkept.sessionOf] at hof
    have heq : other = session := by
      rcases mem_put.mp hother with rfl | ⟨hother, hne⟩
      · exact hsame
      · refine absurd ?_ hne
        rw [← hof, hsame, hid]
    rw [heq] at hwait ⊢
    exact ⟨session, mem_of_get? hsession, rfl, holderAwaitsAnswer_iff.mpr
      ⟨hwait, turn.turnId, turn, hholds, hself, hid.symm, hbefore⟩⟩
  · rw [if_neg hmoved] at hget
    rcases mem_put.mp hother with rfl | ⟨hother, -⟩
    · refine ⟨session, mem_of_get? hsession, hkept.sessionId.symm,
        holderAwaitsAnswer_iff.mpr ⟨hunasked.wait hwait, holderId, holder, ?_, hget, ?_, hblocked⟩⟩
      · refine hunasked.lock holderId (fun hsame => hmoved ?_) hlock
        rw [hsame, hkept.turnId]
      · rw [hof, hkept.sessionId]
    · exact ⟨other, hother, rfl, holderAwaitsAnswer_iff.mpr
        ⟨hwait, holderId, holder, hlock, hget, hof, hblocked⟩⟩

/-- An instruction that is let pass waits on itself exactly if its session's turn waits for an
answer. -/
theorem waits_dispatchText_iff
    (hsession : turn.sessionId = session.sessionId) :
    WaitsOnItself { s with
      loop := .instructing (enterLock session turn).2
      sessions := s.sessions.put (enterLock session turn).1 } ↔
        s.holderAwaitsAnswer session = true := by
  have hkept := kept_enterLock session turn
  constructor
  · rintro ⟨other, hother, hloop, hholder⟩
    simp only [loopAwaits, Bool.and_eq_true, decide_eq_true_eq] at hloop
    have hentered : other = (enterLock session turn).1 := by
      rcases mem_put.mp hother with heq | ⟨-, hne⟩
      · exact heq
      · refine absurd ?_ hne
        rw [← hloop.1, hkept.sessionOf, hsession, hkept.sessionId]
    obtain ⟨hwait, holderId, holder, hlock, hget, hof, hblocked⟩ :=
      holderAwaitsAnswer_iff.mp hholder
    -- the turn waits for the lock, so it did not take it
    obtain ⟨hlockKept, hwaitKept⟩ := enterLock_of_waiting hloop.2
    rw [hentered, hwaitKept] at hwait
    rw [hentered, hlockKept] at hlock
    rw [hentered, hkept.sessionId] at hof
    exact holderAwaitsAnswer_iff.mpr ⟨hwait, holderId, holder, hlock, hget, hof, hblocked⟩
  · intro hholder
    obtain ⟨hwait, holderId, holder, hlock, hget, hof, hblocked⟩ :=
      holderAwaitsAnswer_iff.mp hholder
    have hentered : enterLock session turn = ({ session with
        waiters := session.waiters ++ [turn.turnId] }, { turn with point := .waitingLock }) := by
      rw [enterLock, if_neg]
      rintro ⟨hfree, -⟩
      rw [hfree] at hlock
      cases hlock
    rw [hentered]
    refine ⟨_, mem_put.mpr (.inl rfl), ?_, holderAwaitsAnswer_iff.mpr
      ⟨hwait, holderId, holder, hlock, hget, hof, hblocked⟩⟩
    simp [loopAwaits, hsession]

theorem loop_receive (hloop : s.loop = .receiving) (htext : ∀ turnId runId executionSessionId text,
      command ≠ .dispatchText turnId runId executionSessionId text)
    (hs : s.receive command = some s') (turn : Turn) : s'.loop ≠ .instructing turn := by
  intro hturn
  cases command with
  | dispatchRun command =>
    have hs : s.dispatchRun command = some s' := hs
    rw [dispatchRun] at hs
    split_ifs at hs
    split at hs <;> cases some.inj hs <;> cases hturn
  | dispatchText turnId runId executionSessionId text => exact htext _ _ _ _ rfl
  | startCodexTurn turnId requestId sessionId =>
    have hs : s.startCodexTurn turnId requestId sessionId = some s' := hs
    rw [startCodexTurn] at hs
    split_ifs at hs
    cases some.inj hs
    rw [hloop] at hturn
    cases hturn
  | cancelRun runId =>
    cases some.inj hs
    rw [cancelRun] at hturn
    split_ifs at hturn
    · split at hturn
      · rw [hloop] at hturn
        cases hturn
      · rw [loop_endWaitOf, hloop] at hturn
        cases hturn
    · rw [hloop] at hturn
      cases hturn
  | supplyInteractionResponse executionSessionId outboundTurnRequestId hasNativeResponse =>
    simp only [State.receive] at hs
    split_ifs at hs
    · split at hs <;> cases some.inj hs
      · rw [hloop] at hturn
        cases hturn
      · cases hturn
    · cases some.inj hs
      rw [hloop] at hturn
      cases hturn
  | releaseRun executionSessionId =>
    cases some.inj hs
    rw [hloop] at hturn
    cases hturn
  | other =>
    cases some.inj hs
    cases hturn

theorem waits_receive_iff (hloop : s.loop = .receiving) (hs : s.receive command = some s') :
    ¬ s'.WaitsOnItself ↔ s.KeepsReceiving (.receive command) := by
  by_cases htext : ∃ turnId runId executionSessionId text,
      command = .dispatchText turnId runId executionSessionId text
  · obtain ⟨turnId, runId, executionSessionId, text, rfl⟩ := htext
    have hs : s.dispatchText turnId runId executionSessionId text = some s' := hs
    rw [dispatchText] at hs
    split_ifs at hs
    split at hs
    · rename_i hrefused
      cases some.inj hs
      refine iff_of_true (not_waits_of_loop (loopAwaits_of_ne fun turn hturn => ?_)) ?_
      · rw [hloop] at hturn
        cases hturn
      · intro session hsession
        rw [hrefused] at hsession
        cases hsession
    · rename_i session haccepted
      cases some.inj hs
      rw [waits_dispatchText_iff rfl, Bool.not_eq_true]
      constructor
      · intro hfree other hother
        rw [haccepted] at hother
        cases some.inj hother
        exact hfree
      · intro h
        exact h session haccepted
  · have hother : ∀ turnId runId executionSessionId text,
        command ≠ .dispatchText turnId runId executionSessionId text :=
      fun turnId runId executionSessionId text heq =>
        htext ⟨turnId, runId, executionSessionId, text, heq⟩
    refine iff_of_true (not_waits_of_loop (loopAwaits_of_ne (loop_receive hloop hother hs))) ?_
    cases command <;> first | trivial | exact absurd rfl (hother _ _ _ _)

theorem holderAwaitsAnswer_endWaitOf (s : State) (sessionId : String) (result : WaitResult)
    (hin : session' ∈ (s.endWaitOf sessionId result).sessions.entries)
    (h : (s.endWaitOf sessionId result).holderAwaitsAnswer session' = true) :
    session' ∈ s.sessions.entries ∧ s.holderAwaitsAnswer session' = true := by
  have hholder : s.holderAwaitsAnswer session' = true := by
    rwa [holderAwaitsAnswer, turns_endWaitOf] at h
  refine ⟨?_, hholder⟩
  rw [endWaitOf] at hin
  split at hin
  · exact hin
  · rename_i session hsession
    rcases mem_put.mp hin with rfl | ⟨hin, -⟩
    · -- the wait that was ended is no longer without a result
      have hwait := (holderAwaitsAnswer_iff.mp hholder).1
      simp only [Session.endWait, map_eq_some_iff] at hwait
      obtain ⟨_, -, hresult⟩ := hwait
      cases hresult
    · exact hin

theorem not_waits_dropTurn (h : ¬ s.WaitsOnItself) (turn : Turn) :
    ¬ (s.dropTurn turn).WaitsOnItself := by
  have hholder : ∀ {t : State} {session : Session}, t.turns = s.turns.erase turn.turnId →
      t.holderAwaitsAnswer session = true → s.holderAwaitsAnswer session = true := by
    intro t session hturns hawaits
    obtain ⟨hwait, holderId, holder, hlock, hget, hof, hblocked⟩ :=
      holderAwaitsAnswer_iff.mp hawaits
    rw [hturns, Table.get?_erase] at hget
    split_ifs at hget
    exact holderAwaitsAnswer_iff.mpr ⟨hwait, holderId, holder, hlock, hget, hof, hblocked⟩
  refine not_waits_of_frame h (loop_dropTurn s turn) fun session hsession hawaits => ?_
  refine ⟨session, ?_, rfl, hholder (turns_dropTurn s turn) hawaits⟩
  rw [dropTurn] at hsession hawaits
  split_ifs at hsession hawaits
  · exact (holderAwaitsAnswer_endWaitOf _ _ _ hsession hawaits).1
  · exact hsession

theorem waits_ask_iff (hlocked : Locked s) (h : ¬ s.WaitsOnItself)
    (hs : s.turnMoves turnId .ask = some s') :
    ¬ s'.WaitsOnItself ↔ s.KeepsReceiving (.turn turnId .ask) := by
  obtain ⟨turn, hturn, hs⟩ := bind_eq_some_iff.mp hs
  obtain ⟨session, hsession, hs⟩ := bind_eq_some_iff.mp hs
  obtain ⟨moved, hmoved, rfl⟩ := map_eq_some_iff.mp hs
  simp only [moveTurn] at hmoved
  split_ifs at hmoved with hworking
  cases hmoved
  have hid : session.sessionId = turn.sessionId := key_of_get? hsession
  have hholds := hlocked.holds turn (.inl (mem_of_get? hturn)) (by rw [hworking]; rfl)
  rw [lockOf, hsession, bind_some] at hholds
  constructor
  · intro hfree known hknown
    cases some.inj (hturn.symm.trans hknown)
    by_contra hawaits
    rw [Bool.not_eq_false] at hawaits
    refine hfree ⟨_, mem_put.mpr (.inl rfl), ?_, holderAwaitsAnswer_iff.mpr
      ⟨rfl, turn.turnId, _, hholds, Table.get?_put_self .., hid.symm, rfl⟩⟩
    show s.loopAwaits session.sessionId = true
    rw [hid]
    exact hawaits
  · rintro hkeeps ⟨other, hother, hawaits, hholder⟩
    have hawaits : s.loopAwaits other.sessionId = true := hawaits
    have hother : other = { session with blockedWait := some none } ∨
        other ∈ s.sessions.entries ∧ other.sessionId ≠ session.sessionId :=
      mem_put.mp hother
    rcases hother with rfl | ⟨hin, hne⟩
    · have hfree := hkeeps turn hturn
      rw [← hid] at hfree
      have hawaits : s.loopAwaits session.sessionId = true := hawaits
      rw [hfree] at hawaits
      cases hawaits
    · obtain ⟨hwait, holderId, holder, hlock, hget, hof, hblocked⟩ :=
        holderAwaitsAnswer_iff.mp hholder
      have hget : (s.turns.put { turn with point := .asking }).get? holderId = some holder := hget
      rw [Table.get?_put] at hget
      split at hget
      · cases some.inj hget
        exact hne (hof.symm.trans hid.symm)
      · exact h ⟨other, hin, hawaits, holderAwaitsAnswer_iff.mpr
          ⟨hwait, holderId, holder, hlock, hget, hof, hblocked⟩⟩

/-- A step starts a wait of the loop on itself exactly if it does not keep it receiving. -/
theorem waits_step_iff (hlocked : Locked s) (h : ¬ s.WaitsOnItself) {label : Label}
    (hs : s.step label = some s') : ¬ s'.WaitsOnItself ↔ s.KeepsReceiving label := by
  cases label with
  | receive command =>
    simp only [State.step] at hs
    split_ifs at hs with hloop
    exact waits_receive_iff hloop hs
  | sessionCreated sessionId resumed =>
    refine iff_of_true (not_waits_of_loop (loopAwaits_of_ne fun turn hturn => ?_)) trivial
    have hs : s.sessionCreated sessionId resumed = some s' := hs
    rw [sessionCreated] at hs
    split at hs
    · split_ifs at hs
      cases some.inj hs
      cases hturn
    · cases hs
  | responded ok =>
    refine iff_of_true (not_waits_of_loop (loopAwaits_of_ne fun turn hturn => ?_)) trivial
    have hs : s.responded ok = some s' := hs
    rw [responded] at hs
    split at hs
    · cases some.inj hs
      split_ifs at hturn
      rw [loop_endWaitOf] at hturn
      cases hturn
    · cases hs
  | otherHandled | reconnected =>
    simp only [State.step] at hs
    split_ifs at hs
    cases some.inj hs
    exact iff_of_true (not_waits_of_loop fun _ => rfl) trivial
  | loopFails =>
    have hs : s.loopFails = some s' := hs
    rw [loopFails] at hs
    split at hs <;> cases hs <;> exact iff_of_true (not_waits_of_loop fun _ => rfl) trivial
  | begin turnId =>
    obtain ⟨turn, hturn, hs⟩ := bind_eq_some_iff.mp hs
    obtain ⟨session, hsession, rfl⟩ := map_eq_some_iff.mp hs
    have hget := (filter_eq_some_iff.mp hturn).1
    exact iff_of_true (not_waits_of_unasked hlocked h hget hsession (kept_enterLock session turn)
      (unasked_enterLock session turn) rfl rfl rfl) trivial
  | turn turnId move =>
    by_cases hask : move = .ask
    · subst hask
      exact waits_ask_iff hlocked h hs
    · obtain ⟨turn, hget, hs⟩ := bind_eq_some_iff.mp hs
      obtain ⟨session, hsession, hs⟩ := bind_eq_some_iff.mp hs
      obtain ⟨moved, hmoved, rfl⟩ := map_eq_some_iff.mp hs
      refine iff_of_true (not_waits_of_unasked hlocked h hget hsession (kept_moveTurn hmoved)
        (unasked_moveTurn hmoved hask) rfl rfl rfl) ?_
      cases move <;> trivial
  | finish turnId =>
    obtain ⟨turn, -, rfl⟩ := map_eq_some_iff.mp hs
    exact iff_of_true (not_waits_dropTurn h turn) trivial
  | cancelTask turnId =>
    have hs : s.cancelTask turnId = some s' := hs
    rw [cancelTask] at hs
    split_ifs at hs with hloop
    obtain ⟨turn, -, rfl⟩ := map_eq_some_iff.mp hs
    refine iff_of_true (not_waits_of_loop (loopAwaits_of_ne fun other hother => ?_)) trivial
    rw [loop_dropTurn, loop_releaseLock, hloop] at hother
    cases hother
  | instruction move =>
    have hs : s.instructionMoves move = some s' := hs
    rw [instructionMoves] at hs
    split at hs
    · obtain ⟨session, -, hs⟩ := bind_eq_some_iff.mp hs
      obtain ⟨moved, hmoved, rfl⟩ := map_eq_some_iff.mp hs
      have hpoint := point_moveTurn hmoved
      refine iff_of_true (not_waits_of_loop fun sessionId => ?_) trivial
      simp [loopAwaits, hpoint]
    · cases hs
  | instructionEnds =>
    have hs : s.instructionEnds = some s' := hs
    rw [instructionEnds] at hs
    split at hs
    · split_ifs at hs
      cases some.inj hs
      exact iff_of_true (not_waits_of_loop fun _ => rfl) trivial
    · cases hs
  | instructionFails =>
    have hs : s.instructionFails = some s' := hs
    rw [instructionFails] at hs
    split at hs
    · split_ifs at hs
      cases some.inj hs
      exact iff_of_true (not_waits_of_loop fun _ => rfl) trivial
    · cases hs

end State

theorem locked_initial : State.Locked initialState where
  holds turn h := by
    rcases h with h | h
    · cases h
    · cases h
  apart turn h := by cases h

theorem not_waits_initial : ¬ State.WaitsOnItself initialState :=
  State.not_waits_of_loop fun _ => rfl

/-- Along every run the loop never waits on itself exactly if every step keeps it receiving. -/
theorem never_waits_on_itself_iff (labels : List Label) :
    system.Always (fun s => ¬ s.WaitsOnItself) initialState labels ↔
      system.Along State.KeepsReceiving initialState labels := by
  constructor
  · intro h
    refine h.along (I := fun s => s.Locked ∧ ¬ s.WaitsOnItself) (Q := fun _ _ => True) ?_ ?_
      ⟨locked_initial, not_waits_initial⟩ (System.along_true ..)
    · exact fun s label s' hs hkeeps hstep =>
        ⟨hs.1.step hstep, (State.waits_step_iff hs.1 hs.2 hstep).mpr hkeeps⟩
    · exact fun s label s' hs _ hstep hfree => (State.waits_step_iff hs.1 hs.2 hstep).mp hfree
  · intro h
    have halways := h.always (I := fun s => s.Locked ∧ ¬ s.WaitsOnItself)
      ⟨locked_initial, not_waits_initial⟩ fun s label s' hs hkeeps hstep =>
        ⟨hs.1.step hstep, (State.waits_step_iff hs.1 hs.2 hstep).mpr hkeeps⟩
    exact halways.mono fun s hs => hs.2

/-- A run whose turn asks a question, and an instruction for it before the answer. -/
def instructedWhileBlockedLabels : List Label :=
  [.receive (.dispatchRun ⟨"turn-1", "run-1", "session-1"⟩), .sessionCreated "codex-1" false,
    .begin "turn-1", .turn "turn-1" .setThread, .turn "turn-1" .ask, .turn "turn-1" .await,
    .receive (.dispatchText "turn-2" "run-1" "session-1" "Use the other file")]

/-- The loop waits for the lock, and will not receive the answer. -/
theorem instruction_blocks_loop :
    ¬ ∀ labels : List Label, system.Always (fun s => ¬ s.WaitsOnItself) initialState labels := by
  intro h
  have hrun : (system.run initialState instructedWhileBlockedLabels).isSome = true := by decide
  refine (h instructedWhileBlockedLabels).at_end (System.run_eq_target hrun) ?_
  have hwaits : ∃ session ∈
      (system.target initialState instructedWhileBlockedLabels).sessions.entries,
      (system.target initialState instructedWhileBlockedLabels).loopAwaits session.sessionId =
        true ∧
      (system.target initialState instructedWhileBlockedLabels).holderAwaitsAnswer session =
        true := by decide
  exact hwaits

/-- Whatever is received, no two turns of a session are inside its lock together. -/
theorem turn_lock_excludes (labels : List Label) :
    system.Always (fun s => ∀ turn turn', s.Running turn → s.Running turn' →
      turn.sessionId = turn'.sessionId → turn.point.locked = true → turn'.point.locked = true →
      turn.turnId = turn'.turnId) initialState labels := by
  have halways : system.Always State.Locked initialState labels :=
    (System.along_true _ _).always locked_initial fun s label s' h _ hs => h.step hs
  refine halways.mono fun s h turn turn' hturn hturn' hsession hlocked hlocked' => ?_
  have hholds := h.holds turn hturn hlocked
  rw [hsession, h.holds turn' hturn' hlocked'] at hholds
  exact (some.inj hholds).symm

end Newbro.NodeTurns
