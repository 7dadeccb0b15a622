import Newbro.OutboundTurns
import Newbro.Library.Recency
import Newbro.Library.Transition
import Mathlib.Data.List.DropRight

/-!
# The reasoning steps of native turns

What the session keeps of the commentary of Codex turns: the events of a turn record its steps,
and the history of a turn that is under way seeds them. `lower` is `str.lower`. Two turns are one
here when they have the same key.
-/
namespace Newbro.NativeReasoning

open Library Library.Recency Protocol OutboundTurns List

inductive StepKind where
  | progress | plan
  deriving DecidableEq

structure NativeReasoningStep where
  itemId : String
  text : String
  kind : StepKind
  createdAt : String
  deriving DecidableEq

/-- `_native_turn_reasoning`, in the order of the dictionary. -/
abbrev Turns := List (String × List NativeReasoningStep)

def nativeReasoningTextLimit : Nat := 280

def nativeReasoningStoreSteps : Nat := 16

def nativeReasoningStoreTurns : Nat := 20

def nativeReasoningKey (executorId : String) (executorThreadId executorTurnId : Option String) :
    Option String :=
  match executorThreadId.filter (· ≠ ""), executorTurnId.filter (· ≠ "") with
  | some thread, some turn => some (executorId ++ "::" ++ thread ++ "::" ++ turn)
  | _, _ => none

/-- The step that an event reports, with the key of its turn. -/
def reportedStep (lower : String → String) (request : OutboundTurnRequest) (event : CodexTurnEvent)
    (timestamp : String) : Option (String × NativeReasoningStep) :=
  let eventType := lower event.eventType
  if ! ["progress", "plan"].contains eventType then none
  else if event.metadata.str? "phase" = some "final_answer" then none
  else do
    let text ← Text.stripped? event.message
    let key ← nativeReasoningKey request.executorId
      (orText event.executorThreadId request.executorThreadId)
      (orText event.executorTurnId request.executorTurnId)
    let itemId ← event.metadata.nonemptyStr? "codex_item_id"
    return (key,
      { itemId
        text := Text.firstChars nativeReasoningTextLimit text
        kind := if eventType = "plan" then .plan else .progress
        createdAt := timestamp })

/-- `_native_turn_reasoning.get(key, [])` -/
def stepsOf (turns : Turns) (key : String) : List NativeReasoningStep :=
  (turns.lookup key).getD []

/-- The oldest turns are popped while there are too many. -/
def popOldest : Turns → Turns
  | [] => []
  | turn :: turns =>
    if (turn :: turns).length > nativeReasoningStoreTurns then popOldest turns
    else turn :: turns

/-- The turn is taken out and put back as the last one. -/
def keep (turns : Turns) (key : String) (steps : List NativeReasoningStep) : Turns :=
  popOldest (turns.filter (·.1 ≠ key) ++ [(key, steps)])

/-- The same item streaming grows in place. -/
def grown (steps : List NativeReasoningStep) (step : NativeReasoningStep) :
    List NativeReasoningStep :=
  if steps.getLast?.map (·.itemId) = some step.itemId then steps.dropLast ++ [step]
  else steps ++ [step]

def recordNativeTurnReasoning (lower : String → String) (turns : Turns)
    (request : OutboundTurnRequest) (event : CodexTurnEvent) (timestamp : String) : Turns :=
  match reportedStep lower request event timestamp with
  | none => turns
  | some (key, step) =>
    keep turns key ((grown (stepsOf turns key) step).rtake nativeReasoningStoreSteps)

/-- The steps built from the items of a history: id, text and time. -/
def builtSteps (steps : List (String × String × String)) : List NativeReasoningStep :=
  steps.filterMap fun (itemId, text, createdAt) =>
    let clean := Text.strip text
    if itemId = "" ∨ clean = "" then none
    else some ⟨itemId, Text.firstChars nativeReasoningTextLimit clean, .progress, createdAt⟩

def seedNativeTurnReasoningFromHistory (turns : Turns)
    (executorId executorThreadId executorTurnId : String)
    (steps : List (String × String × String)) : Turns :=
  match nativeReasoningKey executorId (some executorThreadId) (some executorTurnId) with
  | none => turns
  | some key =>
    if stepsOf turns key ≠ [] then turns
    else if builtSteps steps = [] then turns
    else keep turns key ((builtSteps steps).rtake nativeReasoningStoreSteps)

/-! ## What was reported -/

/-- The turns reported on, the most recent first; reports too have the most recent first. -/
def recentTurns (reports : List (String × NativeReasoningStep)) : List String :=
  latest id (reports.map Prod.fst)

def keptTurns (reports : List (String × NativeReasoningStep)) : List String :=
  (recentTurns reports).take nativeReasoningStoreTurns

/-- All that was reported on a turn. -/
def heard (key : String) (reports : List (String × NativeReasoningStep)) :
    List NativeReasoningStep :=
  (reports.filter (·.1 = key)).map Prod.snd

/-- What was reported on a turn since it was last not among the turns to keep. -/
@[grind =] def sinceKept (key : String) :
    List (String × NativeReasoningStep) → List NativeReasoningStep
  | [] => []
  | report :: reports =>
    if key ∉ keptTurns (report :: reports) then []
    else if report.1 = key then report.2 :: sinceKept key reports
    else sinceKept key reports

/-- The store and what was reported up to now. -/
structure Recorded where
  turns : Turns
  reports : List (String × NativeReasoningStep)

inductive Label where
  | event (request : OutboundTurnRequest) (event : CodexTurnEvent) (timestamp : String)
  | seed (executorId executorThreadId executorTurnId : String)
      (steps : List (String × String × String))

/-- What a history reports on a turn that has no steps; on a turn that has, it reports nothing. -/
def seedReports (reports : List (String × NativeReasoningStep))
    (executorId executorThreadId executorTurnId : String)
    (steps : List (String × String × String)) : List (String × NativeReasoningStep) :=
  match nativeReasoningKey executorId (some executorThreadId) (some executorTurnId) with
  | none => []
  | some key => if key ∈ keptTurns reports then [] else (builtSteps steps).reverse.map (key, ·)

def step (lower : String → String) (s : Recorded) : Label → Recorded
  | .event request event timestamp =>
    { turns := recordNativeTurnReasoning lower s.turns request event timestamp
      reports := (reportedStep lower request event timestamp).toList ++ s.reports }
  | .seed executorId thread turn steps =>
    { turns := seedNativeTurnReasoningFromHistory s.turns executorId thread turn steps
      reports := seedReports s.reports executorId thread turn steps ++ s.reports }

def reasoningSystem (lower : String → String) : System Recorded Label where
  initial s := s = ⟨[], []⟩
  step s label := some (step lower s label)

/-- The steps of a turn hold each item once, with its latest report; the turns and the steps are
bounded, those most recently reported on are kept, and no history replaces the steps of a turn. -/
structure WellKept (s : Recorded) : Prop where
  once : ∀ turn ∈ s.turns, (turn.2.map (·.itemId)).Nodup
  latestText : ∀ turn ∈ s.turns, ∀ step ∈ turn.2,
    (heard turn.1 s.reports).find? (fun other => other.itemId = step.itemId) = some step
  turnLimit : s.turns.length ≤ nativeReasoningStoreTurns
  stepLimit : ∀ turn ∈ s.turns, turn.2.length ≤ nativeReasoningStoreSteps
  turnsRecent : s.turns.reverse.map Prod.fst = keptTurns s.reports
  stepsRecent : ∀ turn ∈ s.turns, turn.2.reverse.map (·.itemId) =
    ((latest (·.itemId) (sinceKept turn.1 s.reports)).take nativeReasoningStoreSteps).map (·.itemId)
  seedsSpare : ∀ executorId thread turnId steps, ∀ turn ∈ s.turns,
    nativeReasoningKey executorId (some thread) (some turnId) = some turn.1 →
    seedNativeTurnReasoningFromHistory s.turns executorId thread turnId steps = s.turns

/-- An event is about the last step of its turn, or about no step of the turn that stays, and the
steps that a history seeds are about different items. -/
def InOrder (lower : String → String) (s : Recorded) : Label → Prop
  | .event request event timestamp => ∀ key step,
      reportedStep lower request event timestamp = some (key, step) →
      (stepsOf s.turns key).getLast?.map (·.itemId) = some step.itemId ∨
        step.itemId ∉
          ((stepsOf s.turns key).rtake (nativeReasoningStoreSteps - 1)).map (·.itemId)
  | .seed executorId thread turn steps => ∀ key,
      nativeReasoningKey executorId (some thread) (some turn) = some key →
      stepsOf s.turns key = [] →
      (((builtSteps steps).rtake nativeReasoningStoreSteps).map (·.itemId)).Nodup

/-! ## The turns that are kept -/

section turns

variable {key : String} {sts steps : List NativeReasoningStep} {turns : Turns}
  {reports : List (String × NativeReasoningStep)}

theorem popOldest_eq (turns : Turns) : popOldest turns = turns.rtake nativeReasoningStoreTurns := by
  induction turns with
  | nil => rfl
  | cons turn turns ih =>
    rw [popOldest]
    split_ifs with hlong
    · rw [ih, rtake, rtake, length_cons, Nat.succ_sub (Nat.lt_succ_iff.mp hlong), drop_succ_cons]
    · rw [rtake, Nat.sub_eq_zero_of_le (Nat.le_of_not_lt hlong), drop_zero]

theorem reverse_keep (turns : Turns) (key : String) (steps : List NativeReasoningStep) :
    (keep turns key steps).reverse =
      (key, steps) :: (turns.reverse.filter fun turn => turn.1 ≠ key).take
        (nativeReasoningStoreTurns - 1) := by
  rw [keep, popOldest_eq, rtake_eq_reverse_take_reverse, reverse_reverse, reverse_append,
    filter_reverse]
  rfl

theorem recentTurns_append (hsome : sts ≠ []) (reports : List (String × NativeReasoningStep)) :
    recentTurns (sts.map (key, ·) ++ reports) =
      key :: (recentTurns reports).filter fun other => other ≠ key := by
  induction sts with
  | nil => exact absurd rfl hsome
  | cons st sts ih =>
    cases sts with
    | nil => rfl
    | cons st' sts =>
      rw [map_cons, cons_append, recentTurns, map_cons, latest, ← recentTurns, ih (cons_ne_nil _ _)]
      simp

theorem keptTurns_append (hsome : sts ≠ []) (reports : List (String × NativeReasoningStep)) :
    keptTurns (sts.map (key, ·) ++ reports) =
      key :: ((keptTurns reports).filter fun other => other ≠ key).take
        (nativeReasoningStoreTurns - 1) := by
  rw [keptTurns, recentTurns_append hsome]
  exact congrArg (key :: ·) (take_filter_ne (nodup_latest id (reports.map Prod.fst)) key)

theorem sinceKept_of_notMem (h : key ∉ keptTurns reports) : sinceKept key reports = [] := by
  cases reports with
  | nil => rfl
  | cons report reports => rw [sinceKept, if_pos h]

theorem sinceKept_append_self (sts : List NativeReasoningStep)
    (reports : List (String × NativeReasoningStep)) :
    sinceKept key (sts.map (key, ·) ++ reports) = sts ++ sinceKept key reports := by
  induction sts with
  | nil => rfl
  | cons st sts ih =>
    have hkept : key ∈ keptTurns ((st :: sts).map (key, ·) ++ reports) := by
      rw [keptTurns_append (cons_ne_nil _ _)]
      exact mem_cons_self
    rw [map_cons, cons_append] at hkept ⊢
    rw [sinceKept, if_neg (not_not.mpr hkept), if_pos rfl, ih, cons_append]

theorem sinceKept_append_of_ne {other : String} (hne : key ≠ other)
    (h : other ∈ keptTurns (sts.map (key, ·) ++ reports)) :
    sinceKept other (sts.map (key, ·) ++ reports) = sinceKept other reports := by
  induction sts with
  | nil => rfl
  | cons st sts ih =>
    rw [map_cons, cons_append, sinceKept, ← cons_append, ← map_cons, if_neg (not_not.mpr h),
      if_neg hne]
    cases sts with
    | nil => rfl
    | cons st' sts =>
      refine ih ?_
      rw [keptTurns_append (cons_ne_nil _ _)] at h ⊢
      exact h

theorem sinceKept_isPrefix_heard (key : String) (reports : List (String × NativeReasoningStep)) :
    sinceKept key reports <+: heard key reports := by
  induction reports with
  | nil => exact prefix_rfl
  | cons report reports ih =>
    rw [sinceKept]
    split_ifs with hkept hkey
    · have hheard : heard key (report :: reports) = report.2 :: heard key reports := by
        simp [heard, hkey]
      rw [hheard]
      exact cons_prefix_cons.mpr ⟨rfl, ih⟩
    · rw [heard, filter_cons_of_neg (by simpa using hkey)]
      exact ih
    · exact nil_prefix

end turns

/-! ## The steps of a turn -/

/-- The turns are the most recent ones, each with its most recent steps. -/
structure Kept (s : Recorded) : Prop where
  turnsRecent : s.turns.reverse.map Prod.fst = keptTurns s.reports
  steps : ∀ turn ∈ s.turns, turn.2.reverse =
    (latest (·.itemId) (sinceKept turn.1 s.reports)).take nativeReasoningStoreSteps
  filled : ∀ turn ∈ s.turns, turn.2 ≠ []

section steps

variable {s : Recorded} {key : String} {sts steps : List NativeReasoningStep}

theorem mem_turns_of_lookup {turns : Turns} (h : turns.lookup key = some steps) :
    (key, steps) ∈ turns := by
  obtain ⟨before, after, rfl, -⟩ := lookup_eq_some_iff.mp h
  exact mem_append_right _ mem_cons_self

theorem Kept.mem_keptTurns (h : Kept s) :
    key ∈ keptTurns s.reports ↔ ∃ steps, (key, steps) ∈ s.turns := by
  rw [← h.turnsRecent]
  simp

theorem Kept.stepsOf_reverse (h : Kept s) (key : String) : (stepsOf s.turns key).reverse =
      (latest (·.itemId) (sinceKept key s.reports)).take nativeReasoningStoreSteps := by
  rw [stepsOf]
  cases hlookup : s.turns.lookup key with
  | some steps => exact h.steps _ (mem_turns_of_lookup hlookup)
  | none =>
    have hout : key ∉ keptTurns s.reports := by
      rw [h.mem_keptTurns]
      rintro ⟨steps, hmem⟩
      simpa using lookup_eq_none_iff.mp hlookup _ hmem
    rw [sinceKept_of_notMem hout]
    rfl

theorem Kept.stepsOf_eq_nil (h : Kept s) :
    stepsOf s.turns key = [] ↔ key ∉ keptTurns s.reports := by
  constructor
  · intro hnone hkept
    obtain ⟨steps, hmem⟩ := h.mem_keptTurns.mp hkept
    have hsteps := h.steps _ hmem
    rw [← h.stepsOf_reverse key, hnone] at hsteps
    exact h.filled _ hmem (reverse_eq_nil_iff.mp hsteps)
  · intro hout
    rw [← reverse_eq_nil_iff, h.stepsOf_reverse, sinceKept_of_notMem hout]
    rfl

/-- What is kept for a turn that was reported on: it becomes the most recent one. -/
theorem Kept.keep (h : Kept s) (hsome : sts ≠ []) (hfilled : steps ≠ [])
    (hsteps : steps.reverse = (latest (·.itemId) (sts ++ sinceKept key s.reports)).take
      nativeReasoningStoreSteps) :
    Kept ⟨keep s.turns key steps, sts.map (key, ·) ++ s.reports⟩ := by
  have hturns : (NativeReasoning.keep s.turns key steps).reverse.map Prod.fst =
      keptTurns (sts.map (key, ·) ++ s.reports) := by
    rw [reverse_keep, keptTurns_append hsome, ← h.turnsRecent, map_cons, map_take, filter_map]
    rfl
  have hmem : ∀ turn ∈ NativeReasoning.keep s.turns key steps,
      turn = (key, steps) ∨ turn ∈ s.turns ∧ key ≠ turn.1 := by
    intro turn hturn
    rw [← mem_reverse, reverse_keep, mem_cons] at hturn
    refine hturn.imp_right fun hturn => ?_
    obtain ⟨hold, hne⟩ := mem_filter.mp (mem_of_mem_take hturn)
    exact ⟨mem_reverse.mp hold, fun heq => of_decide_eq_true hne heq.symm⟩
  refine ⟨hturns, fun turn hturn => ?_, fun turn hturn => ?_⟩
  · rcases hmem turn hturn with rfl | ⟨hold, hne⟩
    · rw [sinceKept_append_self]
      exact hsteps
    · have hkept : turn.1 ∈ keptTurns (sts.map (key, ·) ++ s.reports) := by
        rw [← hturns]
        exact mem_map_of_mem (mem_reverse.mpr hturn)
      rw [sinceKept_append_of_ne hne hkept]
      exact h.steps turn hold
  · rcases hmem turn hturn with rfl | ⟨hold, -⟩
    · exact hfilled
    · exact h.filled turn hold

end steps

/-! ## One report -/

section step

variable {s : Recorded} {key : String} {lower : String → String}

theorem mem_keep (turns : Turns) (key : String) (steps : List NativeReasoningStep) :
    (key, steps) ∈ keep turns key steps := by
  rw [← mem_reverse, reverse_keep]
  exact mem_cons_self

/-- A step in order takes the place of the earlier one of its item. -/
theorem rtake_grown {old : List NativeReasoningStep} {st : NativeReasoningStep}
    (hnodup : (old.reverse.map (·.itemId)).Nodup)
    (horder : old.getLast?.map (·.itemId) = some st.itemId ∨
      st.itemId ∉ (old.rtake (nativeReasoningStoreSteps - 1)).map (·.itemId)) :
    ((grown old st).rtake nativeReasoningStoreSteps).reverse =
      st :: (old.reverse.filter fun other => other.itemId ≠ st.itemId).take
        (nativeReasoningStoreSteps - 1) := by
  rw [rtake_eq_reverse_take_reverse, reverse_reverse, grown]
  split_ifs with hlast
  · rw [reverse_append, ← tail_reverse]
    rw [getLast?_eq_head?_reverse] at hlast
    cases hold : old.reverse with
    | nil => rfl
    | cons last rest =>
      have hid : last.itemId = st.itemId := by simpa [hold] using hlast
      rw [hold, map_cons, nodup_cons, hid] at hnodup
      have hfree : ∀ other ∈ rest, decide (other.itemId ≠ st.itemId) = true :=
        fun other hother => decide_eq_true fun heq => hnodup.1 (heq ▸ mem_map_of_mem hother)
      rw [filter_cons_of_neg (by simpa using hid), filter_eq_self.mpr hfree]
      rfl
  · have hout := horder.resolve_left hlast
    rw [rtake_eq_reverse_take_reverse, map_reverse, mem_reverse] at hout
    rw [take_filter_of_notMem hout, reverse_append]
    rfl

theorem Kept.record (h : Kept s) {request : OutboundTurnRequest} {event : CodexTurnEvent}
    {timestamp : String} (horder : InOrder lower s (.event request event timestamp)) :
    Kept (step lower s (.event request event timestamp)) := by
  rw [step, recordNativeTurnReasoning]
  cases hreport : reportedStep lower request event timestamp with
  | none => exact h
  | some report =>
    obtain ⟨key, st⟩ := report
    have hold := h.stepsOf_reverse key
    have hnodup : ((stepsOf s.turns key).reverse.map (·.itemId)).Nodup := by
      rw [hold, map_take]
      exact (nodup_latest _ _).sublist (take_sublist _ _)
    have hgrown := rtake_grown hnodup (horder key st hreport)
    refine h.keep (cons_ne_nil st []) (fun hnone => ?_) ?_
    · rw [hnone] at hgrown
      cases hgrown
    · rw [hgrown, hold]
      exact (take_latest_cons st).symm

theorem Kept.seed (h : Kept s) {executorId thread turn : String}
    {steps : List (String × String × String)}
    (horder : InOrder lower s (.seed executorId thread turn steps)) :
    Kept (step lower s (.seed executorId thread turn steps)) := by
  rw [step, seedNativeTurnReasoningFromHistory, seedReports]
  cases hkey : nativeReasoningKey executorId (some thread) (some turn) with
  | none => exact h
  | some key =>
    by_cases hkept : key ∈ keptTurns s.reports
    · have hsteps : stepsOf s.turns key ≠ [] := fun hnone => h.stepsOf_eq_nil.mp hnone hkept
      simp only [if_pos hkept, if_pos hsteps]
      exact h
    · have hnone := h.stepsOf_eq_nil.mpr hkept
      simp only [if_neg hkept, hnone, ne_eq, not_true_eq_false, if_false]
      by_cases hbuilt : builtSteps steps = []
      · simp only [hbuilt, if_true]
        exact h
      · rw [if_neg hbuilt]
        have hsome : (builtSteps steps).reverse ≠ [] := by simpa using hbuilt
        have htaken : ((builtSteps steps).rtake nativeReasoningStoreSteps).reverse =
            (builtSteps steps).reverse.take nativeReasoningStoreSteps := by
          rw [rtake_eq_reverse_take_reverse, reverse_reverse]
        have hdistinct := horder key hkey hnone
        rw [← nodup_reverse, ← map_reverse, htaken] at hdistinct
        refine h.keep hsome (fun hnil => ?_) ?_
        · rw [hnil, reverse_nil, eq_comm, take_eq_nil_iff] at htaken
          exact htaken.elim (fun hzero => by cases hzero) hsome
        · rw [sinceKept_of_notMem hkept, append_nil, htaken, take_latest_of_nodup hdistinct]

theorem inOrder_of_once {label : Label}
    (hlater : ∀ turn ∈ (step lower s label).turns, (turn.2.map (·.itemId)).Nodup) :
    InOrder lower s label := by
  cases label with
  | event request event timestamp =>
    intro key st hreport
    rw [or_iff_not_imp_left]
    intro hlast hold
    have hmem : (key, (grown (stepsOf s.turns key) st).rtake nativeReasoningStoreSteps) ∈
        (step lower s (.event request event timestamp)).turns := by
      rw [step, recordNativeTurnReasoning, hreport]
      exact mem_keep _ _ _
    have hnodup := hlater _ hmem
    rw [grown, if_neg hlast, show nativeReasoningStoreSteps = nativeReasoningStoreSteps - 1 + 1
      from rfl, rtake_concat_succ, map_append, nodup_append] at hnodup
    exact hnodup.2.2 _ hold _ (mem_singleton_self _) rfl
  | seed executorId thread turn steps =>
    intro key hkey hnone
    by_cases hbuilt : builtSteps steps = []
    · rw [hbuilt]
      simp
    · refine hlater (key, (builtSteps steps).rtake nativeReasoningStoreSteps) ?_
      rw [step, seedNativeTurnReasoningFromHistory, hkey]
      simp only [hnone, ne_eq, not_true_eq_false, if_false, if_neg hbuilt]
      exact mem_keep _ _ _

theorem Kept.wellKept (h : Kept s) : WellKept s := by
  have hlatest : ∀ turn ∈ s.turns, (turn.2.reverse.map (·.itemId)).Nodup := by
    intro turn hturn
    rw [h.steps turn hturn, map_take]
    exact (nodup_latest _ _).sublist (take_sublist _ _)
  refine ⟨fun turn hturn => ?_, fun turn hturn st hst => ?_, ?_, fun turn hturn => ?_,
    h.turnsRecent, fun turn hturn => by rw [h.steps turn hturn], ?_⟩
  · simpa using hlatest turn hturn
  · rw [← mem_reverse, h.steps turn hturn] at hst
    exact (sinceKept_isPrefix_heard _ _).find?_eq_some (find?_of_mem_latest _ (mem_of_mem_take hst))
  · have hlength := congrArg length h.turnsRecent
    rw [length_map, length_reverse, keptTurns, length_take] at hlength
    omega
  · rw [← length_reverse, h.steps turn hturn, length_take]
    exact Nat.min_le_left _ _
  · intro executorId thread turnId steps turn hturn hkey
    have hsteps : stepsOf s.turns turn.1 ≠ [] := fun hnone =>
      h.stepsOf_eq_nil.mp hnone (h.mem_keptTurns.mpr ⟨turn.2, hturn⟩)
    simp only [seedNativeTurnReasoningFromHistory, hkey, if_pos hsteps]

/-- What is stored stays well kept throughout a run exactly if each event is about the last step
of its turn or about none that stays, and each history seeds steps of different items. -/
theorem wellKept_iff (lower : String → String) (labels : List Label) :
    (reasoningSystem lower).Always WellKept ⟨[], []⟩ labels ↔
      (reasoningSystem lower).Along (InOrder lower) ⟨[], []⟩ labels := by
  have hfirst : Kept ⟨[], []⟩ :=
    ⟨rfl, fun _ hturn => absurd hturn not_mem_nil, fun _ hturn => absurd hturn not_mem_nil⟩
  have hkeeps : ∀ s label s', Kept s → InOrder lower s label →
      (reasoningSystem lower).step s label = some s' → Kept s' := by
    intro s label s' h horder hs
    cases hs
    cases label with
    | event request event timestamp => exact h.record horder
    | seed executorId thread turn steps => exact h.seed horder
  constructor
  · intro hlaw
    refine System.Always.along (I := Kept) (Q := fun _ _ => True) ?_ ?_ hlaw hfirst
      (System.along_true _ _)
    · exact fun s label s' h horder hs => hkeeps s label s' h horder hs
    · intro s label s' h _ hs hlater
      cases hs
      exact inOrder_of_once hlater.once
  · intro horder
    exact (horder.always hfirst hkeeps).mono fun _ h => h.wellKept

end step

/-! ## Items whose updates interleave -/

def exampleRequest : OutboundTurnRequest :=
  { requestId := "out-turn-1"
    personaId := "forge"
    executorId := "codex"
    executorNodeId := "node-forge"
    targetThreadId := some "thread-1"
    clientRequestId := none
    inputModality := .text
    text := some "do the thing"
    audioInstructionId := none
    instructionId := .null
    status := .accepted
    error := none
    executorThreadId := none
    executorTurnId := none }

/-- One codex item of the turn, streaming. -/
def progressOf (itemId message : String) : Label :=
  .event exampleRequest
    { requestId := "out-turn-1"
      nodeId := "node-forge"
      targetPersonaId := "forge"
      targetThreadId := "thread-1"
      eventType := "progress"
      message := some message
      executorThreadId := some "native-thread-1"
      executorTurnId := some "turn-1"
      ok := true
      error := none
      metadata := Dict.set Table.empty "codex_item_id" (.str itemId) } "t0"

/-- An item grows after another one has begun: it is stored twice, once with its old text. -/
theorem interleaved_item_stored_twice :
    ¬ ∀ labels : List Label, (reasoningSystem id).Always WellKept ⟨[], []⟩ labels := by
  intro hall
  have hlaw := (hall [progressOf "item-1" "Looking", progressOf "item-2" "Writing",
    progressOf "item-1" "Looking at the file"]).at_end rfl
  exact absurd (hlaw.once _ (mem_cons_self ..)) (by decide)

end Newbro.NativeReasoning
