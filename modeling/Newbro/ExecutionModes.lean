import Newbro.Protocol
import Mathlib.Order.Lattice
import Mathlib.Order.Nat
import Mathlib.Tactic.Common

/-!
# Execution modes of tasks

A task is undecided until an observation of one of its runs says how it is to be handled:
a run that took the threshold's time makes it a managed task, a run that ended sooner a
lightweight one. The mode of a task is the highest that any observation asked for.
-/
namespace Newbro.ExecutionModes

open Library Protocol

inductive ExecutionMode where
  | undecided
  | lightweight
  | managed
  deriving DecidableEq, Repr

/-- The place of a mode in the order in which modes follow each other. -/
def ExecutionMode.rank : ExecutionMode → Nat
  | .undecided => 0
  | .lightweight => 1
  | .managed => 2

theorem ExecutionMode.rank_injective : Function.Injective ExecutionMode.rank := by
  intro mode mode' h
  cases mode <;> cases mode' <;> first | rfl | cases h

instance : LinearOrder ExecutionMode := LinearOrder.lift' _ ExecutionMode.rank_injective

theorem ExecutionMode.undecided_le (mode : ExecutionMode) : .undecided ≤ mode := Nat.zero_le _

theorem ExecutionMode.le_managed (mode : ExecutionMode) : mode ≤ .managed := by
  cases mode <;> decide

structure TaskExecutionMode (τ : Type) [Zero τ] where
  taskId : String
  mode : ExecutionMode := .undecided
  decidedFromRunId : Option String := none
  elapsedSeconds : τ := 0

abbrev ModeStore (τ : Type) [Zero τ] := Table (V := TaskExecutionMode τ) (·.taskId)

def terminalRunStatuses : List RunStatus := [.completed, .failed, .cancelled]

variable {τ : Type} [Zero τ] [LE τ] [DecidableLE τ]

def initializeTaskMode (store : ModeStore τ) (taskId : String) :
    ModeStore τ × TaskExecutionMode τ :=
  match store.get? taskId with
  | some existing => (store, existing)
  | none =>
    let executionMode := { taskId := taskId }
    (store.put executionMode, executionMode)

def nextMode (thresholdSeconds : τ) (currentMode : ExecutionMode) (runStatus : RunStatus)
    (elapsedSeconds : τ) : ExecutionMode :=
  if currentMode = .managed then .managed
  else if elapsedSeconds ≥ thresholdSeconds then .managed
  else if currentMode = .lightweight then .lightweight
  else if runStatus ∈ terminalRunStatuses then .lightweight
  else .undecided

def classify (thresholdSeconds : τ) (store : ModeStore τ) (taskId runId : String)
    (runStatus : RunStatus) (elapsedSeconds : τ) : ModeStore τ × TaskExecutionMode τ :=
  let (store, current) := initializeTaskMode store taskId
  let mode := nextMode thresholdSeconds current.mode runStatus elapsedSeconds
  let decidedFromRunId := if mode ≠ .undecided then some runId else current.decidedFromRunId
  let shouldEmitUpdate := mode ≠ current.mode ∨ decidedFromRunId ≠ current.decidedFromRunId
  let updated := { current with
    mode := mode
    decidedFromRunId := decidedFromRunId
    elapsedSeconds := if shouldEmitUpdate then elapsedSeconds else current.elapsedSeconds }
  (if shouldEmitUpdate then store.put updated else store, updated)

/-! ## What one call does to a task's mode -/

/-- The mode that one observation asks for. -/
def asked (thresholdSeconds : τ) (runStatus : RunStatus) (elapsedSeconds : τ) : ExecutionMode :=
  if elapsedSeconds ≥ thresholdSeconds then .managed
  else if runStatus ∈ terminalRunStatuses then .lightweight
  else .undecided

omit [Zero τ] in
theorem asked_eq_managed {thresholdSeconds elapsedSeconds : τ} {runStatus : RunStatus} :
    asked thresholdSeconds runStatus elapsedSeconds = .managed ↔
      elapsedSeconds ≥ thresholdSeconds := by
  rw [asked]
  split
  · rename_i hreached
    exact iff_of_true rfl hreached
  · rename_i hsooner
    refine iff_of_false ?_ hsooner
    split <;> decide

omit [Zero τ] in
/-- The next mode is the higher one of the current mode and of the mode asked for. -/
theorem nextMode_eq_max (thresholdSeconds : τ) (currentMode : ExecutionMode)
    (runStatus : RunStatus) (elapsedSeconds : τ) :
    nextMode thresholdSeconds currentMode runStatus elapsedSeconds =
      max currentMode (asked thresholdSeconds runStatus elapsedSeconds) := by
  by_cases hreached : elapsedSeconds ≥ thresholdSeconds
  · have hasked : asked thresholdSeconds runStatus elapsedSeconds = .managed :=
      asked_eq_managed.mpr hreached
    rw [hasked, max_eq_right currentMode.le_managed, nextMode, if_pos hreached, ite_self]
  · by_cases hended : runStatus ∈ terminalRunStatuses
    · rw [nextMode, asked, if_neg hreached, if_neg hreached, if_pos hended]
      cases currentMode <;> decide
    · rw [nextMode, asked, if_neg hreached, if_neg hreached, if_neg hended]
      cases currentMode <;> decide

def modeOf (store : ModeStore τ) (taskId : String) : Option ExecutionMode :=
  (store.get? taskId).map (·.mode)

omit [LE τ] [DecidableLE τ] in
theorem modeOf_put (store : ModeStore τ) (record : TaskExecutionMode τ) (taskId : String) :
    modeOf (store.put record) taskId =
      if record.taskId = taskId then some record.mode else modeOf store taskId := by
  rw [modeOf, Table.get?_put]
  split <;> rfl

omit [LE τ] [DecidableLE τ] in
/-- Initialising returns the task's record, and leaves it as it is if there is one. -/
theorem initializeTaskMode_spec (store : ModeStore τ) (taskId : String) :
    (initializeTaskMode store taskId).2.taskId = taskId ∧
      (initializeTaskMode store taskId).2.mode = (modeOf store taskId).getD .undecided ∧
      (initializeTaskMode store taskId).1.get? taskId = some (initializeTaskMode store taskId).2 ∧
      ∀ other, other ≠ taskId →
        modeOf (initializeTaskMode store taskId).1 other = modeOf store other := by
  cases hfound : store.get? taskId with
  | some existing =>
    have hinit : initializeTaskMode store taskId = (store, existing) := by
      simp only [initializeTaskMode, hfound]
    have hmode : modeOf store taskId = some existing.mode := by rw [modeOf, hfound]; rfl
    rw [hinit, hmode]
    exact ⟨Table.key_of_get? hfound, rfl, hfound, fun _ _ => rfl⟩
  | none =>
    have hinit : initializeTaskMode store taskId =
        (store.put { taskId := taskId }, { taskId := taskId }) := by
      simp only [initializeTaskMode, hfound]
    have hmode : modeOf store taskId = none := by rw [modeOf, hfound]; rfl
    rw [hinit, hmode]
    refine ⟨rfl, rfl, Table.get?_put_self store { taskId := taskId }, ?_⟩
    intro other hother
    rw [modeOf_put, if_neg (Ne.symm hother)]

omit [LE τ] [DecidableLE τ] in
theorem modeOf_initializeTaskMode (store : ModeStore τ) (taskId other : String) :
    modeOf (initializeTaskMode store taskId).1 other =
      if taskId = other then some ((modeOf store taskId).getD .undecided)
      else modeOf store other := by
  obtain ⟨-, hmode, hstored, hframe⟩ := initializeTaskMode_spec store taskId
  by_cases h : taskId = other
  · subst h
    rw [if_pos rfl, modeOf, hstored, Option.map_some, hmode]
  · rw [if_neg h, hframe other (Ne.symm h)]

/-- A record that needs no update has the next mode already. -/
theorem modeOf_classify (thresholdSeconds : τ) (store : ModeStore τ) (taskId runId : String)
    (runStatus : RunStatus) (elapsedSeconds : τ) (other : String) :
    modeOf (classify thresholdSeconds store taskId runId runStatus elapsedSeconds).1 other =
      if taskId = other then
        some (max ((modeOf store taskId).getD .undecided)
          (asked thresholdSeconds runStatus elapsedSeconds))
      else modeOf store other := by
  obtain ⟨hid, hmode, hstored, hframe⟩ := initializeTaskMode_spec store taskId
  rw [← hmode, ← nextMode_eq_max]
  rw [classify]
  dsimp only
  generalize (if nextMode thresholdSeconds (initializeTaskMode store taskId).2.mode runStatus
    elapsedSeconds ≠ .undecided then some runId
    else (initializeTaskMode store taskId).2.decidedFromRunId) = decidedFromRunId
  split
  · rw [modeOf_put]
    by_cases h : taskId = other
    · rw [if_pos h, if_pos (hid.trans h)]
    · rw [if_neg h, if_neg (fun h' => h (hid.symm.trans h')), hframe other (Ne.symm h)]
  · rename_i hsame
    rw [not_or, not_not] at hsame
    by_cases h : taskId = other
    · subst h
      rw [if_pos rfl, modeOf, hstored, Option.map_some, hsame.1]
    · rw [if_neg h, hframe other (Ne.symm h)]

/-! ## Sequences of calls -/

inductive Call (τ : Type) where
  | initializeTaskMode (taskId : String)
  | classify (taskId runId : String) (runStatus : RunStatus) (elapsedSeconds : τ)

def Call.taskId : Call τ → String
  | .initializeTaskMode taskId => taskId
  | .classify taskId _ _ _ => taskId

/-- The mode that a call asks for its task. -/
def Call.asks (thresholdSeconds : τ) : Call τ → ExecutionMode
  | .initializeTaskMode _ => .undecided
  | .classify _ _ runStatus elapsedSeconds => asked thresholdSeconds runStatus elapsedSeconds

/-- An observation of the task that reached the threshold. -/
def Call.ReachesManaged (thresholdSeconds : τ) (observed : String) : Call τ → Prop
  | .initializeTaskMode _ => False
  | .classify taskId _ _ elapsedSeconds => taskId = observed ∧ elapsedSeconds ≥ thresholdSeconds

def call (thresholdSeconds : τ) (store : ModeStore τ) : Call τ → ModeStore τ
  | .initializeTaskMode taskId => (initializeTaskMode store taskId).1
  | .classify taskId runId runStatus elapsedSeconds =>
    (classify thresholdSeconds store taskId runId runStatus elapsedSeconds).1

/-- The store after calls on a fresh blackboard. -/
def afterCalls (thresholdSeconds : τ) (calls : List (Call τ)) : ModeStore τ :=
  calls.foldl (call thresholdSeconds) Table.empty

/-- Each call raises its task to the mode it asks for. -/
theorem modeOf_call (thresholdSeconds : τ) (store : ModeStore τ) (c : Call τ) (taskId : String) :
    modeOf (call thresholdSeconds store c) taskId =
      if c.taskId = taskId then
        some (max ((modeOf store taskId).getD .undecided) (c.asks thresholdSeconds))
      else modeOf store taskId := by
  cases c with
  | initializeTaskMode named =>
    have hmax (mode : ExecutionMode) : max mode .undecided = mode :=
      max_eq_left mode.undecided_le
    rw [call, modeOf_initializeTaskMode, Call.taskId, Call.asks, hmax]
    by_cases h : named = taskId
    · rw [if_pos h, if_pos h, h]
    · rw [if_neg h, if_neg h]
  | classify named runId runStatus elapsedSeconds =>
    rw [call, modeOf_classify, Call.taskId, Call.asks]
    by_cases h : named = taskId
    · rw [if_pos h, if_pos h, h]
    · rw [if_neg h, if_neg h]

/-- A mode that is there stays or gives way to a higher one. -/
def Escalates (before after : Option ExecutionMode) : Prop :=
  ∀ mode, before = some mode → ∃ higher, after = some higher ∧ mode ≤ higher

theorem escalates_call (thresholdSeconds : τ) (store : ModeStore τ) (c : Call τ) (taskId : String) :
    Escalates (modeOf store taskId) (modeOf (call thresholdSeconds store c) taskId) := by
  intro mode hmode
  rw [modeOf_call, hmode, Option.getD_some]
  split
  · exact ⟨_, rfl, le_max_left _ _⟩
  · exact ⟨mode, rfl, le_rfl⟩

theorem escalates_foldl (thresholdSeconds : τ) (calls : List (Call τ)) (store : ModeStore τ)
    (taskId : String) : Escalates (modeOf store taskId)
      (modeOf (calls.foldl (call thresholdSeconds) store) taskId) := by
  induction calls generalizing store with
  | nil => exact fun mode hmode => ⟨mode, hmode, le_rfl⟩
  | cons c calls ih =>
    intro mode hmode
    obtain ⟨next, hnext, hle⟩ := escalates_call thresholdSeconds store c taskId mode hmode
    obtain ⟨last, hlast, hle'⟩ := ih (call thresholdSeconds store c) next hnext
    exact ⟨last, hlast, hle.trans hle'⟩

theorem managed_call (thresholdSeconds : τ) (store : ModeStore τ) (c : Call τ) (taskId : String) :
    modeOf (call thresholdSeconds store c) taskId = some .managed ↔
      modeOf store taskId = some .managed ∨ c.ReachesManaged thresholdSeconds taskId := by
  have hmax (mode mode' : ExecutionMode) :
      max mode mode' = .managed ↔ mode = .managed ∨ mode' = .managed := by
    cases mode <;> cases mode' <;> decide
  have hstored : (modeOf store taskId).getD .undecided = .managed ↔
      modeOf store taskId = some .managed := by
    cases modeOf store taskId <;> simp
  rw [modeOf_call]
  by_cases h : c.taskId = taskId
  · rw [if_pos h, Option.some_inj, hmax, hstored]
    refine or_congr_right ?_
    cases c with
    | initializeTaskMode named => exact iff_of_false (fun h => by cases h) id
    | classify named runId runStatus elapsedSeconds =>
      rw [Call.asks, asked_eq_managed]
      exact (and_iff_right h).symm
  · rw [if_neg h]
    refine (or_iff_left ?_).symm
    cases c with
    | initializeTaskMode named => exact id
    | classify named runId runStatus elapsedSeconds => exact fun hreaches => h hreaches.1

theorem managed_foldl (thresholdSeconds : τ) (calls : List (Call τ)) (store : ModeStore τ)
    (taskId : String) : modeOf (calls.foldl (call thresholdSeconds) store) taskId = some .managed ↔
      modeOf store taskId = some .managed ∨
        ∃ c ∈ calls, c.ReachesManaged thresholdSeconds taskId := by
  induction calls generalizing store with
  | nil => simp
  | cons c calls ih => rw [List.foldl_cons, ih, managed_call, List.exists_mem_cons_iff, or_assoc]

/-- Whatever calls come, the mode of a task never goes back, and it is managed exactly if some
observation of the task reached the threshold. -/
theorem mode_only_escalates (thresholdSeconds : τ) (calls later : List (Call τ)) (taskId : String) :
    Escalates (modeOf (afterCalls thresholdSeconds calls) taskId)
        (modeOf (afterCalls thresholdSeconds (calls ++ later)) taskId) ∧
      (modeOf (afterCalls thresholdSeconds calls) taskId = some .managed ↔
        ∃ c ∈ calls, c.ReachesManaged thresholdSeconds taskId) := by
  constructor
  · rw [afterCalls, afterCalls, List.foldl_append]
    exact escalates_foldl thresholdSeconds later _ taskId
  · rw [afterCalls, managed_foldl]
    have hfresh : modeOf (Table.empty : ModeStore τ) taskId ≠ some .managed := by
      rw [modeOf, Table.get?_empty]
      exact Option.some_ne_none _ |>.symm
    exact or_iff_right hfresh

end Newbro.ExecutionModes
