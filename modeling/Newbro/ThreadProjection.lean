import Newbro.OutboundTurns

/-!
# The executor turns of a thread

What a session keeps of the native turns of its threads: the turns themselves, how far the
timeline of each thread is loaded, the goals, and the messages and plans that are still
streaming in. A turn that arrives is merged into the one it is known to be, or kept as a new
one (`upsert_bro_thread_executor_turn`).
-/
namespace Newbro.OutboundTurns

open Library Protocol

/-- A message or plan that streams in: its thread, its turn and its item. -/
abbrev ItemKey := String × String × String

structure ThreadProjection where
  broThreadExecutorTurns : Dict String (List TimelineTurn)
  timelineStatus : Dict String String
  timelineErrors : Dict String String
  broThreadGoals : Dict String String
  broThreadLiveItemPhase : Dict ItemKey String
  broThreadLiveMessageDeltas : Dict ItemKey String
  broThreadLivePlanDeltas : Dict ItemKey String
  broThreadLivePlanEmittedText : Dict ItemKey String

namespace ThreadProjection

def empty : ThreadProjection :=
  ⟨Table.empty, Table.empty, Table.empty, Table.empty, Table.empty, Table.empty, Table.empty,
    Table.empty⟩

variable (s : ThreadProjection) (threadId : String)

/-- The turns kept for a thread. -/
def turnsOf : List TimelineTurn :=
  (s.broThreadExecutorTurns.lookup threadId).getD []

def setTurns (turns : List TimelineTurn) :
    ThreadProjection :=
  { s with broThreadExecutorTurns := s.broThreadExecutorTurns.set threadId turns }

/-- A thread that has turns is loaded, unless loading it has failed. -/
def markLoaded : ThreadProjection :=
  if s.timelineStatus.lookup threadId = some "failed" then s
  else
    { s with
      timelineStatus := s.timelineStatus.set threadId "loaded"
      timelineErrors := s.timelineErrors.erase threadId }

variable (lower : String → String)

def upsertBroThreadExecutorTurn (s : ThreadProjection)
    (turn : TimelineTurn) : ThreadProjection :=
  (s.setTurns turn.threadId (upsertTurn lower turn (s.turnsOf turn.threadId))).markLoaded
    turn.threadId

@[simp] theorem turnsOf_setTurns_self
    (turns : List TimelineTurn) : (s.setTurns threadId turns).turnsOf threadId = turns := by
  simp [turnsOf, setTurns]

theorem turnsOf_setTurns_of_ne {threadId other : String}
    (turns : List TimelineTurn) (h : threadId ≠ other) :
    (s.setTurns threadId turns).turnsOf other = s.turnsOf other := by
  simp only [turnsOf, setTurns]
  rw [Dict.lookup_set_of_ne _ _ h]

@[simp] theorem broThreadExecutorTurns_markLoaded :
    (s.markLoaded threadId).broThreadExecutorTurns = s.broThreadExecutorTurns := by
  unfold markLoaded
  split <;> rfl

@[simp] theorem turnsOf_markLoaded (other : String) :
    (s.markLoaded threadId).turnsOf other = s.turnsOf other := by
  simp [turnsOf]

theorem turnsOf_upsert_self (s : ThreadProjection) (turn : TimelineTurn) :
    (s.upsertBroThreadExecutorTurn lower turn).turnsOf turn.threadId =
      upsertTurn lower turn (s.turnsOf turn.threadId) := by
  simp [upsertBroThreadExecutorTurn]

theorem turnsOf_upsert_of_ne (s : ThreadProjection)
    {turn : TimelineTurn} {threadId : String} (h : turn.threadId ≠ threadId) :
    (s.upsertBroThreadExecutorTurn lower turn).turnsOf threadId = s.turnsOf threadId := by
  rw [upsertBroThreadExecutorTurn, turnsOf_markLoaded, turnsOf_setTurns_of_ne s _ h]

end ThreadProjection

/-! ## The identity of a turn -/

/-- `_timeline_identity`: the executor, its thread and its turn, once all are known. -/
def timelineIdentity (turn : TimelineTurn) : Option (String × String × String) :=
  match turn.executorThreadId.filter (· ≠ ""), turn.executorTurnId.filter (· ≠ "") with
  | some threadId, some turnId => some (turn.executorId, threadId, turnId)
  | _, _ => none

theorem timelineIdentity_eq_some_iff {turn : TimelineTurn} {e t x : String} :
    timelineIdentity turn = some (e, t, x) ↔
      turn.executorId = e ∧ turn.executorThreadId = some t ∧ turn.executorTurnId = some x ∧
        t ≠ "" ∧ x ≠ "" := by
  unfold timelineIdentity
  constructor
  · intro h
    split at h
    · next _ _ ht hx =>
        obtain ⟨rfl, rfl, rfl⟩ := by simpa using h
        have ht' := Option.filter_eq_some_iff.mp ht
        have hx' := Option.filter_eq_some_iff.mp hx
        exact ⟨rfl, ht'.1, hx'.1, by simpa using ht'.2, by simpa using hx'.2⟩
    · exact absurd h (by simp)
  · rintro ⟨rfl, ht, hx, ht', hx'⟩
    simp [ht, hx, ht', hx', Option.filter]

variable (lower : String → String)

/-- A turn that is known keeps its identity when another one is merged into it. -/
theorem timelineIdentity_merge_of_some {existing : TimelineTurn}
    (incoming : TimelineTurn) {i : String × String × String}
    (h : timelineIdentity existing = some i) :
    timelineIdentity (mergeTimelineTurn lower existing incoming) = some i := by
  obtain ⟨e, t, x⟩ := i
  obtain ⟨he, ht, hx, ht', hx'⟩ := timelineIdentity_eq_some_iff.mp h
  refine timelineIdentity_eq_some_iff.mpr ⟨he, ?_, ?_, ht', hx'⟩
  · simp [mergeTimelineTurn, orText, ht, ht', Option.filter]
  · simp [mergeTimelineTurn, orText, hx, hx', Option.filter]

@[simp] theorem turnId_mergeTimelineTurn
    (existing incoming : TimelineTurn) :
    (mergeTimelineTurn lower existing incoming).turnId = existing.turnId := rfl

/-- The first turn that is the same is merged, all others stay; else the turn comes last. -/
theorem upsertTurn_cases (turn : TimelineTurn)
    (turns : List TimelineTurn) : ((∀ candidate ∈ turns, sameTurn turn candidate = false) ∧
        upsertTurn lower turn turns = turns ++ [turn]) ∨
      ∃ before candidate after, turns = before ++ candidate :: after ∧
        (∀ other ∈ before, sameTurn turn other = false) ∧ sameTurn turn candidate = true ∧
        upsertTurn lower turn turns =
          before ++ mergeTimelineTurn lower candidate turn :: after := by
  induction turns with
  | nil => exact .inl ⟨fun _ h => absurd h List.not_mem_nil, rfl⟩
  | cons first rest ih =>
    by_cases hfirst : sameTurn turn first = true
    · refine .inr ⟨[], first, rest, rfl, fun _ h => absurd h List.not_mem_nil, hfirst, ?_⟩
      simp [upsertTurn, hfirst]
    · have hno : sameTurn turn first = false := by simpa using hfirst
      rcases ih with ⟨hnone, heq⟩ | ⟨before, candidate, after, rfl, hbefore, hsame, heq⟩
      · refine .inl ⟨?_, ?_⟩
        · intro candidate hmem
          rcases List.mem_cons.mp hmem with rfl | hmem
          · exact hno
          · exact hnone candidate hmem
        · simp [upsertTurn, hno, heq]
      · refine .inr ⟨first :: before, candidate, after, rfl, ?_, hsame, ?_⟩
        · intro other hmem
          rcases List.mem_cons.mp hmem with rfl | hmem
          · exact hno
          · exact hbefore other hmem
        · simp [upsertTurn, hno, heq]

end Newbro.OutboundTurns
