import Mathlib
import Newbro.CorrectionTurns
import Newbro.Library.Ranking

/-!
# Which task a reference means

`TaskResolver`: every task that has something in common with the reference gets points for its
texts, eight more if it is active and one for every place it comes later in the list. The first
of the ranking is meant if it is 25 points ahead of the second. Tasks that have nothing in common
with the reference move the others apart, so the answer depends on them unless the last that
matches leads already.
-/
namespace Newbro.TaskResolver
open Library Protocol List Ranking BrainTools

/-! ## Points for a text -/

/-- An entry of `weighted_fields`. -/
structure WeightedField where
  name : String
  value : String
  exactScore : Nat
  substringScore : Nat
  tokenScore : Nat

variable (task : Task)

/-- The notes that are not blank; none if `metadata["notes"]` cannot be run over. -/
def notes : Option (List String) :=
  (listed task.metadata "notes").map fun items => items.filterMap fun item =>
    Text.stripped? item.str?

def constraints : Option (List String) :=
  (listed task.metadata "constraints").map fun items => items.filterMap fun item =>
    (item.dict?.bind (Fields.str? · "constraint")).map Text.strip

def weightedFields : Option (List WeightedField) := do
  let notes ← notes task
  let constraints ← constraints task
  some ([⟨"title", task.title, 120, 70, 18⟩, ⟨"goal", task.goal, 100, 55, 12⟩,
      ⟨"latest_instruction", task.latestInstruction.getD "", 90, 45, 10⟩] ++
    (if notes = [] then [] else [⟨"notes", String.intercalate " " notes, 60, 30, 8⟩]) ++
    if constraints = [] then [] else
      [⟨"constraints", String.intercalate " " constraints, 70, 35, 8⟩])

/-- `[0-9A-Za-z\u4e00-\u9fff]` -/
def isTokenChar (c : Char) : Bool := c.isAlphanum || (0x4e00 ≤ c.toNat && c.toNat ≤ 0x9fff)

def referenceTokens (reference : String) : List String :=
  ((reference.toList.splitOnP fun c => !isTokenChar c).filter fun token =>
    !token.isEmpty).map String.ofList

/-- `needle in value` -/
def occursIn (needle value : String) : Bool := needle.toList <:+: value.toList

/-- A reference, and the tables behind `str.lower`. -/
structure Query where
  tables : Corrections.Casing
  reference : String

variable (q : Query)

def Query.lower (text : String) : String := Corrections.lower q.tables text

/-- What the texts are compared with. -/
def Query.needle : String := q.lower (Text.strip q.reference)

/-- The points for one field, and the reasons. -/
def scoreField (field : WeightedField) : Nat × List String :=
  let value := q.lower field.value
  if value = "" then (0, [])
  else if value = q.needle then (field.exactScore, ["exact_" ++ field.name])
  else
    let inside := occursIn q.needle value
    let matched := (referenceTokens q.needle).filter fun token =>
      2 ≤ token.length && occursIn token value
    ((if inside then field.substringScore else 0) + field.tokenScore * matched.length,
      (if inside then ["substring_" ++ field.name] else []) ++
        if matched = [] then [] else ["token_" ++ field.name])

/-- `_score_task_match`, which raises if the metadata cannot be run over. -/
def scoreTaskMatch : Option (Nat × List String) :=
  (weightedFields task).map fun fields =>
    let found := fields.map (scoreField q)
    ((found.map (·.1)).sum, found.flatMap (·.2))

/-! ## The ranking -/

/-- `TaskResolutionCandidate` -/
structure Candidate where
  task : Task
  score : Nat
  reasons : List String

def isActive : Bool := CorrectionTurns.activeTaskStatuses.contains task.status

/-- What the loop of `list_relevant` appends. -/
def candidate (index : Nat) (found : Nat × List String) : Candidate :=
  if isActive task then ⟨task, found.1 + 8 + (index + 1), found.2 ++ ["active"]⟩
  else ⟨task, found.1 + (index + 1), found.2⟩

/-- The loop from an index on. -/
def matchesFrom (index : Nat) : List Task → Option (List Candidate)
  | [] => some []
  | task :: tasks => do
    let found ← scoreTaskMatch task q
    let later ← matchesFrom (index + 1) tasks
    some (if found.1 = 0 then later else candidate task index found :: later)

/-- The sort by `(score, task_revision)`, highest first. -/
def above (a b : Candidate) : Bool :=
  b.score < a.score || (b.score = a.score && b.task.taskRevision ≤ a.task.taskRevision)

variable (tasks : List Task)

/-- The sorted matches of `list_relevant`. -/
def ranking : Option (List Candidate) :=
  if q.needle = "" then some [] else (matchesFrom q 0 tasks).map (mergeSort · above)

def listRelevant (limit : Nat) : Option (List Candidate) :=
  (ranking q tasks).map (take limit)

inductive ResolutionStatus where
  | resolved | ambiguous | notFound
  deriving DecidableEq

structure TaskResolution where
  status : ResolutionStatus
  task : Option Task := none
  candidates : List Candidate := []

/-- What the candidates come to. -/
def decideOn : List Candidate → TaskResolution
  | [] => { status := .notFound }
  | [only] => { status := .resolved, task := only.task, candidates := [only] }
  | top :: second :: rest =>
    if second.score + 25 ≤ top.score then
      { status := .resolved, task := top.task, candidates := top :: second :: rest }
    else { status := .ambiguous, candidates := top :: second :: rest }

/-- `TaskResolver.resolve`, which raises with `list_relevant`. -/
def resolve (tables : Corrections.Casing) (taskId reference : Option String) :
    Option TaskResolution :=
  match taskId.filter (· ≠ "") with
  | some taskId =>
    match tasks.find? (·.taskId = taskId) with
    | some task => some { status := .resolved, task := task }
    | none => some { status := .notFound }
  | none =>
    match reference.filter (Text.strip · ≠ "") with
    | some reference => (listRelevant ⟨tables, reference⟩ tasks 5).map decideOn
    | none => some { status := .notFound }

/-! ## Answers that do not depend on other tasks -/

/-- What callers read of an answer. -/
def TaskResolution.answer (r : TaskResolution) : ResolutionStatus × Option Task × List Task :=
  (r.status, r.task, if r.status = .ambiguous then r.candidates.map (·.task) else [])

namespace Query

def resolution : Option TaskResolution := resolve tasks q.tables none q.reference

def textScore : Option Nat := (scoreTaskMatch task q).map (·.1)

/-- Any number of tasks have been added anywhere that have nothing in common with the reference. -/
inductive Widened : List Task → Prop
  | refl : Widened tasks
  | add {before after task} : q.textScore task = some 0 →
      Widened (before ++ after) → Widened (before ++ task :: after)

def Independent : Prop := ∀ more, q.Widened tasks more →
  (q.resolution more).map (·.answer) = (q.resolution tasks).map (·.answer)

/-- The title is the reference. -/
def Titled : Prop := task.title = q.reference ∨ q.lower task.title = q.needle

/-- No text is the reference. -/
def Partly : Prop :=
  ¬q.Titled task ∧ ∀ fields ∈ weightedFields task, ∀ field ∈ fields, q.lower field.value ≠ q.needle

/-- An exact title and a partial match are not the wrong way round. -/
def InOrder (first second : Task) : Prop := q.Titled second → ¬q.Partly first

/-- No partial match is ranked before an exact title, or ambiguous with it. -/
def TitlesFirst : Prop :=
  (∀ ranked ∈ ranking q tasks, ranked.Pairwise fun a b => q.InOrder a.task b.task) ∧
  ∀ r ∈ q.resolution tasks, r.status = .ambiguous →
    ∀ a ∈ r.candidates, ∀ b ∈ r.candidates, q.InOrder a.task b.task

/-- The tasks with something in common with the reference, with their places. -/
def related (index : Nat) : List (Task × Nat) :=
  (tasks.zipIdx index).filter fun p => q.textScore p.1 ≠ some 0

/-- Points for the texts, for being active and for the place. -/
def total (p : Task × Nat) : Nat :=
  (q.textScore p.1).getD 0 + (if isActive p.1 then 8 else 0) + p.2

/-- The last is ahead of the others. -/
def LastLeads (found : List (Task × Nat)) : Prop :=
  ∀ others last, found = others ++ [last] → ∀ p ∈ others, q.total p + 25 ≤ q.total last

def Settled : Prop :=
  q.needle = "" ∨ (∃ task ∈ tasks, q.textScore task = none) ∨
    q.LastLeads (q.related tasks 0) ∧ (q.related tasks 0).Pairwise fun a b =>
      if q.total b < q.total a ∨ q.total b = q.total a ∧ b.1.taskRevision ≤ a.1.taskRevision
      then q.InOrder a.1 b.1 else q.InOrder b.1 a.1

section
variable {task q tasks} {more : List Task}

/-- The candidate that a related task becomes. -/
def candidateAt (q : Query) (p : Task × Nat) : Candidate :=
  candidate p.1 p.2 ((scoreTaskMatch p.1 q).getD (0, []))

@[simp] theorem candidateAt_task (p : Task × Nat) : (q.candidateAt p).task = p.1 := by
  unfold candidateAt candidate
  split <;> rfl

@[simp] theorem candidateAt_score (p : Task × Nat) :
    (q.candidateAt p).score = q.total p + 1 := by
  unfold candidateAt candidate total textScore
  cases scoreTaskMatch p.1 q <;> split <;> simp <;> omega

theorem related_append (a b : List Task) (index : Nat) :
    q.related (a ++ b) index = q.related a index ++ q.related b (index + a.length) := by
  rw [related, zipIdx_append, filter_append, related, related]

theorem related_cons (a : List Task) (index : Nat) : q.related (task :: a) index =
    if q.textScore task = some 0 then q.related a (index + 1)
    else (task, index) :: q.related a (index + 1) := by
  rw [related, zipIdx_cons, filter_cons]
  split <;> simp_all [related]

theorem related_shift (a : List Task) (index n : Nat) :
    q.related a (index + n) = (q.related a index).map fun p => (p.1, p.2 + n) := by
  induction a generalizing index with
  | nil => rfl
  | cons task a ih =>
    rw [related_cons, related_cons, show index + n + 1 = index + 1 + n by omega, ih]
    split <;> rfl

/-- The loop keeps the related tasks. -/
theorem matchesFrom_eq (h : ∀ task ∈ tasks, q.textScore task ≠ none) (index : Nat) :
    matchesFrom q index tasks = some ((q.related tasks index).map q.candidateAt) := by
  induction tasks generalizing index with
  | nil => rfl
  | cons task tasks ih =>
    obtain ⟨htask, htasks⟩ := forall_mem_cons.mp h
    rw [matchesFrom, ih htasks, related_cons]
    cases hscore : scoreTaskMatch task q with
    | none => simp [textScore, hscore] at htask
    | some found => by_cases hzero : found.1 = 0 <;> simp [textScore, hscore, hzero, candidateAt]

theorem matchesFrom_none (h : ∃ task ∈ tasks, q.textScore task = none) (index : Nat) :
    matchesFrom q index tasks = none := by
  induction tasks generalizing index with
  | nil => simp at h
  | cons first tasks ih =>
    rw [matchesFrom]
    rcases (exists_mem_cons_iff ..).mp h with hfirst | hrest
    · rw [show scoreTaskMatch first q = none by simpa [textScore] using hfirst]
      rfl
    · rw [ih hrest]
      cases scoreTaskMatch first q <;> rfl

/-! ## Ranked matches -/

theorem above_trans (a b c : Candidate) : above a b → above b c → above a c := by
  simp only [above, Bool.or_eq_true, Bool.and_eq_true, decide_eq_true_eq]
  omega

theorem above_total (a b : Candidate) : above a b || above b a := by
  simp only [above, Bool.or_eq_true, Bool.and_eq_true, decide_eq_true_eq]
  omega

/-- What is said of the matches. -/
def meant (found : List Candidate) : TaskResolution :=
  decideOn ((found.mergeSort above).take 5)

theorem meant_resolved {found : List Candidate} :
    (meant found).answer = (.resolved, some task, []) ↔
      ∃ c, Leads (·.score) 25 c found ∧ c.task = task := by
  have hleads : ∀ c, Leads (·.score) 25 c found ↔ _ := fun c =>
    leads_iff_mergeSort above_trans above_total (fun a b h => by simp [above] at h; omega)
      (by decide)
  simp only [hleads, meant]
  cases found.mergeSort above with
  | nil => simp [decideOn, TaskResolution.answer]
  | cons top rest =>
    cases rest with
    | nil => simp [decideOn, TaskResolution.answer]
    | cons second rest =>
      simp only [take_succ_cons, decideOn]
      split <;> simp_all [TaskResolution.answer]

theorem LastLeads.meant_eq {found : List (Task × Nat)} (h : q.LastLeads found) :
    (meant (found.map q.candidateAt)).answer = match (found.map Prod.fst).getLast? with
      | none => (.notFound, none, [])
      | some task => (.resolved, some task, []) := by
  rcases eq_nil_or_concat found with rfl | ⟨others, last, rfl⟩
  · simp [meant, decideOn, TaskResolution.answer]
  · rw [concat_eq_append] at h ⊢
    simp only [map_append, map_singleton, getLast?_concat, meant_resolved]
    refine ⟨q.candidateAt last, ⟨others.map q.candidateAt, by simp, ?_⟩, candidateAt_task last⟩
    intro c hc
    obtain ⟨p, hp, rfl⟩ := mem_map.mp hc
    have := h others last rfl p hp
    simp only [candidateAt_score]
    omega

/-! ## Added tasks -/

theorem LastLeads.shift {a b : List (Task × Nat)} (h : q.LastLeads (a ++ b)) (n : Nat) :
    q.LastLeads (a ++ b.map fun p => (p.1, p.2 + n)) := by
  intro others last heq p hp
  rcases eq_nil_or_concat b with rfl | ⟨b, z, rfl⟩
  · exact h others last (by simpa using heq) p hp
  · rw [concat_eq_append] at h heq
    simp only [map_append, map_singleton, ← append_assoc] at heq
    obtain ⟨rfl, hlast⟩ := append_inj' heq rfl
    obtain rfl := singleton_inj.mp hlast
    have hz := h (a ++ b) z (append_assoc ..).symm
    rcases mem_append.mp hp with hp | hp
    · have := hz p (mem_append_left b hp)
      simp only [total] at this ⊢
      omega
    · obtain ⟨w, hw, rfl⟩ := mem_map.mp hp
      have := hz w (mem_append_right a hw)
      simp only [total] at this ⊢
      omega

/-- Tasks without anything in common move the later ones. -/
theorem related_insert (more before after : List Task)
    (h : ∀ task ∈ more, q.textScore task = some 0) :
    q.related (before ++ (more ++ after)) 0 = q.related before 0 ++
      (q.related after before.length).map fun p => (p.1, p.2 + more.length) := by
  have hmore : ∀ index, q.related more index = [] := fun index =>
    filter_eq_nil_iff.mpr fun p hp => by simpa using h p.1 (fst_mem_of_mem_zipIdx hp)
  rw [related_append, related_append, hmore, nil_append, related_shift, Nat.zero_add]

theorem Widened.keeps (h : q.Widened tasks more) :
    ((∀ task ∈ more, q.textScore task ≠ none) ↔ ∀ task ∈ tasks, q.textScore task ≠ none) ∧
    (q.related more 0).map Prod.fst = (q.related tasks 0).map Prod.fst ∧
    (q.LastLeads (q.related tasks 0) → q.LastLeads (q.related more 0)) := by
  induction h with
  | refl => exact ⟨Iff.rfl, rfl, id⟩
  | @add before after task hzero _ ih =>
    have heq := related_insert [task] before after (by simpa using hzero)
    rw [related_append, Nat.zero_add] at ih
    rw [show before ++ task :: after = before ++ ([task] ++ after) from rfl, heq]
    refine ⟨?_, ?_, fun hlast => (ih.2.2 hlast).shift _⟩
    · rw [← ih.1]
      simp [hzero, or_imp, forall_and]
    · rw [← ih.2.1]
      simp

theorem lower_empty : q.lower "" = "" := by simp [lower, Corrections.lower, q.tables.lower_of_ascii]

def blankTask : Task := { taskId := "", rootTaskId := "", title := "", goal := "" }

theorem textScore_blankTask : q.textScore blankTask = some 0 := by
  simp [textScore, scoreTaskMatch, weightedFields, notes, constraints, listed, blankTask,
    scoreField, lower_empty, Dict.lookup]

theorem widened_replicate (before after : List Task) (n : Nat) :
    q.Widened (before ++ after) (before ++ (replicate n blankTask ++ after)) := by
  induction n with
  | zero => exact .refl
  | succ n ih => exact .add textScore_blankTask ih

theorem resolution_eq (h : q.needle ≠ "") :
    q.resolution tasks = (matchesFrom q 0 tasks).map meant := by
  have hstrip : Text.strip q.reference ≠ "" := fun heq => h (by rw [needle, heq, lower_empty])
  simp [resolution, resolve, Option.filter_some, hstrip, listRelevant, ranking, h, Function.comp_def]
  rfl

theorem resolution_blank (h : q.needle = "") :
    q.resolution tasks = some { status := .notFound } := by
  by_cases hstrip : Text.strip q.reference = "" <;>
    simp [resolution, resolve, Option.filter_some, hstrip, listRelevant, ranking, h, decideOn]

/-- Enough tasks before the last match put it ahead of all the others. -/
theorem LastLeads.of_independent (hne : q.needle ≠ "")
    (hread : ∀ task ∈ tasks, q.textScore task ≠ none) (h : q.Independent tasks) :
    q.LastLeads (q.related tasks 0) := by
  intro others last heq
  obtain ⟨l₁, l₂, hz, hothers, hlast⟩ := filter_eq_append_iff.mp heq
  obtain ⟨before, after, rfl, rfl, rfl⟩ := zipIdx_eq_append_iff.mp hz
  let n := (others.map q.total).sum + 25
  have hwide := widened_replicate (q := q) before after n
  have hmore := related_insert (q := q) _ before after fun task htask =>
    (eq_of_mem_replicate (n := n) htask).symm ▸ textScore_blankTask
  rw [show q.related before 0 = others from hothers,
    show q.related after before.length = [last] by simpa [related] using hlast,
    length_replicate] at hmore
  have hleads : q.LastLeads (others ++ [last].map fun p => (p.1, p.2 + n)) := by
    intro others' last' heq' p hp
    obtain ⟨rfl, hlast'⟩ := append_inj' heq' rfl
    obtain rfl := singleton_inj.mp hlast'
    have := le_sum_of_mem (mem_map_of_mem (f := q.total) hp)
    simp only [total, n] at this ⊢
    omega
  have hsame := h _ hwide
  rw [resolution_eq hne, resolution_eq hne, matchesFrom_eq hread,
    matchesFrom_eq (hwide.keeps.1.mpr hread), Option.map_some, Option.map_some, Option.map_some,
    Option.map_some, hmore, hleads.meant_eq, heq, Option.some_inj] at hsame
  simp only [map_append, map_singleton, getLast?_concat] at hsame
  obtain ⟨c, ⟨rest, hperm, hrest⟩, hc⟩ := meant_resolved.mp hsame.symm
  have hplace : ∀ p ∈ others, p.2 ≤ last.2 := by
    intro p hp
    have hp := snd_lt_add_of_mem_zipIdx (mem_of_mem_filter (hothers ▸ hp))
    have hlast : last ∈ after.zipIdx _ := mem_of_mem_filter (hlast ▸ mem_singleton_self last)
    have := le_snd_of_mem_zipIdx hlast
    omega
  -- The one that leads is the last: an equal task that comes earlier has fewer points.
  obtain rfl : q.candidateAt last = c := by
    rcases mem_cons.mp (hperm.subset mem_concat_self) with heq | hin
    · exact heq
    · exfalso
      have hlead := hrest _ hin
      have hmem : c ∈ (others ++ [last]).map q.candidateAt := by
        simpa using hperm.symm.subset mem_cons_self
      obtain ⟨p, hp, rfl⟩ := mem_map.mp hmem
      have hle : p.2 ≤ last.2 := by
        rcases mem_append.mp hp with hp | hp
        · exact hplace p hp
        · rw [mem_singleton.mp hp]
      rw [candidateAt_task] at hc
      simp only [candidateAt_score, total, hc] at hlead
      omega
  have hothers := (perm_cons _).mp ((perm_append_singleton _ _).symm.trans hperm)
  intro p hp
  have := hrest _ (hothers.subset (mem_map_of_mem hp))
  simp only [candidateAt_score] at this
  omega

/-- What comes first in the list stays first in the ranking unless it has fewer points. -/
theorem ranked_inOrder_iff (hne : q.needle ≠ "")
    (hread : ∀ task ∈ tasks, q.textScore task ≠ none) :
    (∀ ranked ∈ ranking q tasks, ranked.Pairwise fun a b => q.InOrder a.task b.task) ↔
      (q.related tasks 0).Pairwise fun a b =>
        if q.total b < q.total a ∨ q.total b = q.total a ∧ b.1.taskRevision ≤ a.1.taskRevision
        then q.InOrder a.1 b.1 else q.InOrder b.1 a.1 := by
  rw [ranking, if_neg hne, matchesFrom_eq hread]
  simp only [Option.map_some, Option.mem_some_iff, forall_eq', above, candidateAt_task,
    pairwise_mergeSort_iff above_trans above_total, pairwise_map, candidateAt_score,
    Nat.add_lt_add_iff_right, Nat.add_right_cancel_iff, Bool.or_eq_true, Bool.and_eq_true,
    decide_eq_true_eq]
end

/-- Nothing changes the answer exactly if it is that nothing matches, or the last match leads. -/
theorem independent_titlesFirst_iff :
    q.Independent tasks ∧ q.TitlesFirst tasks ↔ q.Settled tasks := by
  by_cases hne : q.needle = ""
  · refine iff_of_true ⟨fun more _ => by rw [resolution_blank hne, resolution_blank hne], ?_⟩
      (.inl hne)
    refine ⟨fun ranked hr => ?_, fun r hr hstatus => ?_⟩
    · simp only [ranking, hne, if_true, Option.mem_some_iff] at hr
      exact hr ▸ Pairwise.nil
    · rw [resolution_blank hne] at hr
      cases hr
      cases hstatus
  by_cases hread : ∀ task ∈ tasks, q.textScore task ≠ none
  · have hnone : ¬∃ task ∈ tasks, q.textScore task = none := by simpa using hread
    rw [Settled, or_iff_right hne, or_iff_right hnone, TitlesFirst, ranked_inOrder_iff hne hread]
    constructor
    · rintro ⟨hfree, hfirst, -⟩
      exact ⟨.of_independent hne hread hfree, hfirst⟩
    · rintro ⟨hlast, hfirst⟩
      refine ⟨fun more hmore => ?_, hfirst, fun r hr hstatus => ?_⟩
      · obtain ⟨hread', hsame, hlast'⟩ := hmore.keeps
        simp only [resolution_eq hne, matchesFrom_eq hread, matchesFrom_eq (hread'.mpr hread),
          Option.map_some, hlast.meant_eq, (hlast' hlast).meant_eq, hsame]
      · rw [resolution_eq hne, matchesFrom_eq hread] at hr
        cases hr
        have hmeant := congrArg Prod.fst hlast.meant_eq
        rw [TaskResolution.answer, hstatus] at hmeant
        cases h : ((q.related tasks 0).map Prod.fst).getLast? <;> simp [h] at hmeant
  · push Not at hread
    have hraises : ∀ more, (∃ task ∈ more, q.textScore task = none) → q.resolution more = none :=
      fun more h => by rw [resolution_eq hne, matchesFrom_none h, Option.map_none]
    refine iff_of_true ⟨fun more hmore => ?_, fun ranked hr => ?_, fun r hr => ?_⟩ (.inr (.inl hread))
    · have hmore := mt hmore.keeps.1.mp (by simpa using hread)
      rw [hraises tasks hread, hraises more (by simpa using hmore)]
    · simp [ranking, hne, matchesFrom_none hread] at hr
    · simp [hraises tasks hread] at hr

def uiQuery : Query := ⟨Corrections.asciiCasing, "fix my ui"⟩

def uiTask (taskId title : String) : Task :=
  { taskId, rootTaskId := taskId, title, goal := "Ship it" }

/-- The earlier of two active tasks has the title. -/
def uiTasks : List Task := [uiTask "a" "fix my ui", uiTask "b" "Fix my ui now"]

theorem exact_title_outranked : ¬uiQuery.Independent uiTasks ∧ ¬uiQuery.TitlesFirst uiTasks := by
  have hne : uiQuery.needle ≠ "" := by decide +kernel
  have hread : ∀ task ∈ uiTasks, uiQuery.textScore task ≠ none := by decide +kernel
  have hrelated : uiQuery.related uiTasks 0 = uiTasks.zipIdx :=
    filter_eq_self.mpr (by decide +kernel)
  refine ⟨fun hfree => ?_, fun hfirst => ?_⟩
  · have hlast := LastLeads.of_independent hne hread hfree [(uiTasks[0], 0)]
      (uiTasks[1], 1) hrelated _ (mem_singleton_self _)
    exact absurd hlast (by decide)
  · have horder := (ranked_inOrder_iff hne hread).mp hfirst.1
    rw [hrelated] at horder
    have hab := rel_of_pairwise_cons horder mem_cons_self
    rw [if_neg (by decide +kernel), InOrder, Titled, Partly, Titled] at hab
    exact absurd (hab (.inl rfl)) (not_not_intro (by decide +kernel))

end Query

end Newbro.TaskResolver
