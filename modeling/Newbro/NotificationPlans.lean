import Newbro.Notifications

/-!
# What a notification plan holds

`NotificationPolicy.plan` with the times as it reads them: a creation time may be unreadable, or
not comparable to the clock. The groups of a plan are a partition of the candidates that are to
be told now, and it says when the next of the others is due.
-/
namespace Newbro.Notifications

open Library Protocol List

/-- A `datetime`, in microseconds; one without a time zone is not comparable to one with it. -/
inductive Instant where
  | naive (microseconds : Int)
  | aware (microseconds : Int)
  deriving Repr, DecidableEq

/-- `a - b`; none where it raises. -/
def Instant.minus : Instant → Instant → Option Int
  | naive a, naive b => some (a - b)
  | aware a, aware b => some (a - b)
  | naive _, aware _ => none
  | aware _, naive _ => none

/-- What is left of the merge window of a candidate; none where reading that raises. -/
def waitOf (dueAt : String → Option Instant) (now : Instant) (c : Candidate) : Option Int :=
  (dueAt c.createdAt).bind fun due => due.minus now

/-- The loop that takes the minimum of the waits. -/
def smallest (waits : List Int) : Option Int :=
  waits.foldl (fun next seconds => some (next.elim seconds (min · seconds))) none

/-- `NotificationPolicy.plan`, where `dueAt` is `_due_at` of a creation time; none where it
raises. -/
def planOf (dueAt : String → Option Instant) (candidates : List Candidate)
    (assistantBusy hasPendingUserMessages : Bool) (now : Instant) : Option Plan :=
  let pending := candidates.filter fun c => c.deliveryStatus = .pending
  if pending = [] then some {}
  else if (assistantBusy || hasPendingUserMessages) = true then some {}
  else
    let completedPending := pending.filter fun c => !c.requiresImmediateDelivery
    let wait := waitOf dueAt now
    if (completedPending.all fun c => (wait c).isSome) = true then
      let due := completedPending.filter fun c => (wait c).any (· ≤ 0)
      let waits := ((completedPending.filter fun c => (wait c).any (0 < ·)).filterMap wait).map
        (max 0)
      let keys := (due.map (·.mergeKey)).dedup.insertionSort fun a b => a ≤ b
      some
        { groups := ((pending.filter (·.requiresImmediateDelivery)).map fun c => [c]) ++
            groupsOf keys due
          nextDue := smallest waits }
    else none

/-! ## The groups -/

variable {keys : List String}

/-- The candidates of some merge keys, in one group a key. -/
theorem flatten_groupsOf_perm (hkeys : keys.Nodup) (due : List Candidate) :
    (groupsOf keys due).flatten.Perm (due.filter fun c => keys.contains c.mergeKey) := by
  induction keys with
  | nil => simp [groupsOf]
  | cons mergeKey keys ih =>
    obtain ⟨hfresh, hkeys⟩ := nodup_cons.mp hkeys
    have hown : ((due.filter fun c => (mergeKey :: keys).contains c.mergeKey).filter
        fun c => c.mergeKey = mergeKey) = due.filter fun c => c.mergeKey = mergeKey := by
      rw [filter_filter]
      refine filter_congr fun c _ => ?_
      by_cases h : c.mergeKey = mergeKey <;> simp [h]
    have hothers : ((due.filter fun c => (mergeKey :: keys).contains c.mergeKey).filter
        fun c => !decide (c.mergeKey = mergeKey)) =
        due.filter fun c => keys.contains c.mergeKey := by
      rw [filter_filter]
      refine filter_congr fun c _ => ?_
      by_cases h : c.mergeKey = mergeKey
      · simp [h, hfresh]
      · simp [h]
    have hsplit := filter_append_perm (fun c : Candidate => decide (c.mergeKey = mergeKey))
      (due.filter fun c => (mergeKey :: keys).contains c.mergeKey)
    rw [hown, hothers] at hsplit
    rw [groupsOf, map_cons, flatten_cons]
    exact ((perm_insertionSort _ _).append (ih hkeys)).trans hsplit

/-- The keys of the due candidates hold all of them. -/
theorem flatten_groupsOf_keys (due : List Candidate) :
    (groupsOf ((due.map (·.mergeKey)).dedup.insertionSort fun a b => a ≤ b) due).flatten.Perm
      due := by
  have hkeys : ((due.map (·.mergeKey)).dedup.insertionSort fun a b => a ≤ b).Nodup :=
    (perm_insertionSort _ _).nodup_iff.mpr (nodup_dedup _)
  have hall : (due.filter fun c =>
      ((due.map (·.mergeKey)).dedup.insertionSort fun a b => a ≤ b).contains c.mergeKey) = due := by
    refine filter_eq_self.mpr fun c hc => ?_
    rw [contains_iff_mem, mem_insertionSort, mem_dedup]
    exact mem_map_of_mem hc
  have hperm := flatten_groupsOf_perm hkeys due
  rw [hall] at hperm
  exact hperm

/-- The waits have a minimum where there are any. -/
theorem smallest_eq_min? (waits : List Int) : smallest waits = waits.min? := by
  cases waits with
  | nil => rfl
  | cons wait waits =>
    have hfold : ∀ next : Int, waits.foldl
        (fun next seconds => some (next.elim seconds (min · seconds))) (some next) =
        some (waits.foldl min next) := by
      induction waits with
      | nil => exact fun _ => rfl
      | cons other waits ih => exact fun next => ih (min next other)
    rw [List.min?_cons']
    exact hfold wait

/-- A candidate that is to be told now. -/
def delivers (wait : Candidate → Option Int) (silent : Bool) (c : Candidate) : Bool :=
  c.deliveryStatus = .pending && !silent &&
    (c.requiresImmediateDelivery || (wait c).any (· ≤ 0))

/-- A candidate that waits for others to be told with. -/
def merges (c : Candidate) : Bool := c.deliveryStatus = .pending && !c.requiresImmediateDelivery

variable {candidates : List Candidate}

theorem mem_completedPending {c : Candidate} :
    c ∈ (candidates.filter fun c => c.deliveryStatus = .pending).filter
      (fun c => !c.requiresImmediateDelivery) ↔ c ∈ candidates ∧ merges c = true := by
  rw [mem_filter, mem_filter, merges, and_assoc, Bool.and_eq_true]

/-- The plan tells each candidate that is to be told now in one place, in groups of one merge key
by their creation times, and wakes up for the first of the others. -/
structure Partitions (wait : Candidate → Option Int) (silent : Bool) (candidates : List Candidate)
    (plan : Plan) : Prop where
  complete : plan.groups.flatten.Perm (candidates.filter (delivers wait silent))
  disjoint : candidates.Nodup → plan.groups.Pairwise List.Disjoint
  together : ∀ group ∈ plan.groups, ∀ c ∈ group, ∀ d ∈ group, c.mergeKey = d.mergeKey
  byCreation : ∀ group ∈ plan.groups, group.Pairwise fun c d => c.createdAt ≤ d.createdAt
  keepsOrder : ∀ group ∈ plan.groups, ∀ createdAt,
    (group.filter fun c => c.createdAt = createdAt).Sublist candidates
  nextDue : ∀ seconds, plan.nextDue = some seconds ↔ silent = false ∧
    IsLeast {left | ∃ c ∈ candidates, merges c = true ∧ wait c = some left ∧ 0 < left} seconds

variable {wait : Candidate → Option Int}

theorem partitions_empty {silent : Bool}
    (h : silent = true ∨ ∀ c ∈ candidates, c.deliveryStatus ≠ .pending) :
    Partitions wait silent candidates {} := by
  have hnone : candidates.filter (delivers wait silent) = [] := by
    refine filter_eq_nil_iff.mpr fun c hc hdelivers => ?_
    rcases h with hsilent | hidle
    · simp [delivers, hsilent] at hdelivers
    · simp [delivers, hidle c hc] at hdelivers
  refine
    { complete := ?_
      disjoint := fun _ => List.Pairwise.nil
      together := fun group hgroup => by cases hgroup
      byCreation := fun group hgroup => by cases hgroup
      keepsOrder := fun group hgroup => by cases hgroup
      nextDue := fun seconds => ⟨fun hsome => (by cases hsome), ?_⟩ }
  · rw [hnone]
    exact List.Perm.refl _
  · rintro ⟨hloud, ⟨c, hc, hmerges, -⟩, -⟩
    rcases h with hsilent | hidle
    · rw [hsilent] at hloud
      cases hloud
    · simp [merges, hidle c hc] at hmerges

/-- A group of due candidates. -/
theorem mem_groups_due {due group : List Candidate}
    (h : group ∈ groupsOf keys due) :
    ∃ mergeKey, group = (due.filter fun c => c.mergeKey = mergeKey).insertionSort fun c d =>
      c.createdAt ≤ d.createdAt := by
  obtain ⟨mergeKey, -, rfl⟩ := mem_map.mp h
  exact ⟨mergeKey, rfl⟩

/-- Sorting keeps the order of candidates that were created at one time. -/
theorem filter_insertionSort_sublist (cs : List Candidate) (createdAt : String) :
    ((cs.insertionSort fun c d => c.createdAt ≤ d.createdAt).filter
      fun c => c.createdAt = createdAt).Sublist cs := by
  have hsame : (cs.filter fun c => c.createdAt = createdAt).Pairwise
      fun c d => c.createdAt ≤ d.createdAt := by
    refine pairwise_of_forall_mem_list fun c hc d hd => ?_
    have hc := of_decide_eq_true (mem_filter.mp hc).2
    have hd := of_decide_eq_true (mem_filter.mp hd).2
    rw [hc, hd]
  have hkept := (sublist_insertionSort hsame filter_sublist).filter
    (fun c => decide (c.createdAt = createdAt))
  have hlength : ((cs.insertionSort fun c d => c.createdAt ≤ d.createdAt).filter
      fun c => c.createdAt = createdAt).length =
      ((cs.filter fun c => c.createdAt = createdAt).filter
        fun c => c.createdAt = createdAt).length := by
    rw [filter_filter]
    simp only [Bool.and_self]
    exact ((perm_insertionSort _ _).filter _).length_eq
  rw [← hkept.eq_of_length hlength.symm]
  exact filter_sublist.trans filter_sublist

/-- The plan of a policy that may speak. -/
theorem partitions_loud (candidates : List Candidate) :
    let pending := candidates.filter fun c => c.deliveryStatus = .pending
    let completedPending := pending.filter fun c => !c.requiresImmediateDelivery
    let due := completedPending.filter fun c => (wait c).any (· ≤ 0)
    Partitions wait false candidates
      { groups := ((pending.filter (·.requiresImmediateDelivery)).map fun c => [c]) ++
          groupsOf ((due.map (·.mergeKey)).dedup.insertionSort fun a b => a ≤ b) due
        nextDue := smallest
          (((completedPending.filter fun c => (wait c).any (0 < ·)).filterMap wait).map
            (max 0)) } := by
  intro pending completedPending due
  have hmerging : ∀ c, c ∈ completedPending ↔ c ∈ candidates ∧ merges c = true :=
    fun c => mem_completedPending
  have hdueSublist : due.Sublist candidates :=
    (filter_sublist.trans filter_sublist).trans filter_sublist
  have hcomplete : (((pending.filter (·.requiresImmediateDelivery)).map fun c => [c]) ++
      groupsOf ((due.map (·.mergeKey)).dedup.insertionSort fun a b => a ≤ b) due).flatten.Perm
      (candidates.filter (delivers wait false)) := by
    have hsingle : ((pending.filter (·.requiresImmediateDelivery)).map fun c => [c]).flatten =
        pending.filter (·.requiresImmediateDelivery) := by
      rw [← flatMap_def]
      exact flatMap_singleton' _
    have hsplit := filter_append_perm (fun c : Candidate => c.requiresImmediateDelivery)
      (candidates.filter (delivers wait false))
    have himmediate : (candidates.filter (delivers wait false)).filter
        (fun c => c.requiresImmediateDelivery) = pending.filter (·.requiresImmediateDelivery) := by
      simp only [pending, filter_filter]
      refine filter_congr fun c _ => ?_
      cases h : c.requiresImmediateDelivery <;> simp [delivers, h]
    have hdue : (candidates.filter (delivers wait false)).filter
        (fun c => !c.requiresImmediateDelivery) = due := by
      simp only [due, completedPending, pending, filter_filter]
      refine filter_congr fun c _ => ?_
      cases h : c.requiresImmediateDelivery <;> simp [delivers, h, Bool.and_comm]
    rw [himmediate, hdue] at hsplit
    rw [flatten_append, hsingle]
    exact ((flatten_groupsOf_keys due).append_left _).trans hsplit
  refine
    { complete := hcomplete
      disjoint := fun hnodup => ?_
      together := fun group hgroup => ?_
      byCreation := fun group hgroup => ?_
      keepsOrder := fun group hgroup createdAt => ?_
      nextDue := fun seconds => ?_ }
  · have hflat := hcomplete.nodup_iff.mpr (hnodup.sublist filter_sublist)
    exact (nodup_flatten.mp hflat).2
  · intro c hc d hd
    rcases mem_append.mp hgroup with hsingle | hmerged
    · obtain ⟨only, -, rfl⟩ := mem_map.mp hsingle
      rw [mem_singleton.mp hc, mem_singleton.mp hd]
    · obtain ⟨mergeKey, rfl⟩ := mem_groups_due hmerged
      have hc := (mem_filter.mp ((mem_insertionSort _).mp hc)).2
      have hd := (mem_filter.mp ((mem_insertionSort _).mp hd)).2
      rw [of_decide_eq_true hc, of_decide_eq_true hd]
  · rcases mem_append.mp hgroup with hsingle | hmerged
    · obtain ⟨only, -, rfl⟩ := mem_map.mp hsingle
      exact pairwise_singleton _ _
    · obtain ⟨mergeKey, rfl⟩ := mem_groups_due hmerged
      exact pairwise_insertionSort _ _
  · rcases mem_append.mp hgroup with hsingle | hmerged
    · obtain ⟨only, honly, rfl⟩ := mem_map.mp hsingle
      have hmem : only ∈ candidates := (mem_filter.mp (mem_filter.mp honly).1).1
      exact filter_sublist.trans (singleton_sublist.mpr hmem)
    · obtain ⟨mergeKey, rfl⟩ := mem_groups_due hmerged
      exact (filter_insertionSort_sublist _ createdAt).trans
        (filter_sublist.trans hdueSublist)
  · have hwaits : ∀ left, left ∈ ((completedPending.filter fun c => (wait c).any (0 < ·)).filterMap
        wait).map (max 0) ↔
        ∃ c ∈ candidates, merges c = true ∧ wait c = some left ∧ 0 < left := by
      intro left
      constructor
      · intro hmem
        obtain ⟨own, hown, rfl⟩ := mem_map.mp hmem
        obtain ⟨c, hc, hwait⟩ := mem_filterMap.mp hown
        obtain ⟨hc, hpositive⟩ := mem_filter.mp hc
        obtain ⟨hc, hmerges⟩ := (hmerging c).mp hc
        rw [hwait, Option.any_some] at hpositive
        have hlt : 0 < own := of_decide_eq_true hpositive
        have hmax : max 0 own = own := max_eq_right (le_of_lt hlt)
        rw [hmax]
        exact ⟨c, hc, hmerges, hwait, hlt⟩
      · rintro ⟨c, hc, hmerges, hwait, hlt⟩
        refine mem_map.mpr ⟨left, ?_, max_eq_right (le_of_lt hlt)⟩
        refine mem_filterMap.mpr ⟨c, mem_filter.mpr ⟨(hmerging c).mpr ⟨hc, hmerges⟩, ?_⟩, hwait⟩
        rw [hwait, Option.any_some]
        exact decide_eq_true hlt
    rw [smallest_eq_min?, List.min?_eq_some_iff]
    simp only [hwaits, true_and]
    rfl

/-- A plan raises only where it has to read a time that it cannot read, and otherwise tells each
candidate that is immediate or due in one place: none while the assistant is busy or a message
waits. -/
theorem plan_partitions (dueAt : String → Option Instant) (candidates : List Candidate)
    (assistantBusy hasPendingUserMessages : Bool) (now : Instant) :
    (planOf dueAt candidates assistantBusy hasPendingUserMessages now = none ↔
      (assistantBusy || hasPendingUserMessages) = false ∧
        ∃ c ∈ candidates, merges c = true ∧ waitOf dueAt now c = none) ∧
    ∀ plan, planOf dueAt candidates assistantBusy hasPendingUserMessages now = some plan →
      Partitions (waitOf dueAt now) (assistantBusy || hasPendingUserMessages) candidates plan := by
  have hidle : candidates.filter (fun c => c.deliveryStatus = .pending) = [] →
      ∀ c ∈ candidates, c.deliveryStatus ≠ .pending := by
    intro hnone c hc hpending
    exact filter_eq_nil_iff.mp hnone c hc (decide_eq_true hpending)
  simp only [planOf]
  by_cases hnone : candidates.filter (fun c => c.deliveryStatus = .pending) = []
  · rw [if_pos hnone]
    refine ⟨⟨fun hraised => (by cases hraised), ?_⟩, ?_⟩
    · rintro ⟨-, c, hc, hmerges, -⟩
      simp [merges, hidle hnone c hc] at hmerges
    · rintro plan ⟨⟩
      exact partitions_empty (.inr (hidle hnone))
  · rw [if_neg hnone]
    cases hsilent : assistantBusy || hasPendingUserMessages with
    | true =>
      refine ⟨⟨fun hraised => (by cases hraised), ?_⟩, ?_⟩
      · rintro ⟨hloud, -⟩
        cases hloud
      · rintro plan ⟨⟩
        exact partitions_empty (.inl rfl)
    | false =>
      rw [if_neg Bool.false_ne_true]
      by_cases hread : ((candidates.filter fun c => c.deliveryStatus = .pending).filter
          (fun c => !c.requiresImmediateDelivery)).all
            (fun c => (waitOf dueAt now c).isSome) = true
      · rw [if_pos hread]
        refine ⟨⟨fun hraised => (by cases hraised), ?_⟩, ?_⟩
        · rintro ⟨-, c, hc, hmerges, hunread⟩
          have hsome := all_eq_true.mp hread c (mem_completedPending.mpr ⟨hc, hmerges⟩)
          rw [hunread] at hsome
          cases hsome
        · rintro plan ⟨⟩
          exact partitions_loud candidates
      · rw [if_neg hread]
        refine ⟨⟨fun _ => ⟨rfl, ?_⟩, fun _ => rfl⟩, fun plan hplan => (by cases hplan)⟩
        rw [all_eq_true] at hread
        push Not at hread
        obtain ⟨c, hc, hunread⟩ := hread
        obtain ⟨hc, hmerges⟩ := mem_completedPending.mp hc
        exact ⟨c, hc, hmerges, Option.not_isSome_iff_eq_none.mp hunread⟩

/-- Two completed tasks, of which the one that is listed first was done last. -/
def completedAt (candidateId createdAt : String) : Candidate :=
  { candidateId := candidateId
    taskId := "task-1"
    candidateType := .completed
    summaryShort := "Done."
    createdAt := createdAt
    mergeKey := "completed_digest" }

/-- A group is sorted anew, and a plan that says nothing does not say when it will. -/
theorem plan_sorts_and_sleeps :
    (¬ ∀ (dueAt : String → Option Instant) candidates assistantBusy hasPendingUserMessages now plan,
      planOf dueAt candidates assistantBusy hasPendingUserMessages now = some plan →
        ∀ group ∈ plan.groups, group.Sublist candidates) ∧
    (¬ ∀ (dueAt : String → Option Instant) candidates assistantBusy hasPendingUserMessages now plan,
      planOf dueAt candidates assistantBusy hasPendingUserMessages now = some plan →
        ∀ seconds, plan.nextDue = some seconds ↔ IsLeast
          {left | ∃ c ∈ candidates, c.deliveryStatus = .pending ∧ c ∉ plan.groups.flatten ∧
            waitOf dueAt now c = some left} seconds) := by
  constructor
  · intro h
    have hkept := h (fun _ => some (.aware 0)) [completedAt "b" "2026-04-06T12:00:01+00:00",
      completedAt "a" "2026-04-06T12:00:00+00:00"] false false (.aware 0) _ rfl
      [completedAt "a" "2026-04-06T12:00:00+00:00", completedAt "b" "2026-04-06T12:00:01+00:00"]
      (by decide)
    revert hkept
    decide
  · intro h
    have hnext := (h (fun _ => some (.aware 2)) [completedAt "a" "2026-04-06T12:00:00+00:00"] true
      false (.aware 0) {} rfl 2).mpr
      ⟨⟨_, mem_singleton.mpr rfl, rfl, not_mem_nil, rfl⟩, fun left hleft => by
        obtain ⟨c, hc, -, -, hwait⟩ := hleft
        cases hwait
        exact le_refl _⟩
    cases hnext

end Newbro.Notifications
