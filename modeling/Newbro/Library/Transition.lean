import Mathlib.Init

/-!
# Guarded transition systems

A system is a set of initial states and a partial step function: a label that is not
enabled has no successor. Runs are followed under a condition on each step taken, so
that one induction serves both "in every run" and "in every run whose steps all
satisfy a condition".
-/
namespace Newbro.Library
open Option

universe u v

/-- Initial states and a step function; `none` means that the label is not enabled. -/
structure System (σ : Type u) (ℓ : Type v) where
  initial : σ → Prop
  step : σ → ℓ → Option σ

namespace System

variable {σ : Type u} {ℓ : Type v} (M : System σ ℓ)

/-- Take the labels in order. -/
def run : σ → List ℓ → Option σ
  | s, [] => some s
  | s, l :: ls => (M.step s l).bind fun s' => run s' ls

/-- `s'` is reached from `s` by steps that all satisfy `C`. -/
inductive Steps (C : σ → ℓ → Prop) : σ → σ → Prop
  | refl (s : σ) : Steps C s s
  | tail {s s' s'' : σ} {l : ℓ} :
      Steps C s s' → C s' l → M.step s' l = some s'' → Steps C s s''

/-- Every state that the labels lead through satisfies `I`. -/
def Always (I : σ → Prop) : σ → List ℓ → Prop
  | s, [] => I s
  | s, l :: ls => I s ∧ ∀ s', M.step s l = some s' → Always I s' ls

/-- Every step that the labels take satisfies `C`. -/
def Along (C : σ → ℓ → Prop) : σ → List ℓ → Prop
  | _, [] => True
  | s, l :: ls => ∀ s', M.step s l = some s' → C s l ∧ Along C s' ls

/-- Reached from an initial state by steps that all satisfy `C`. -/
def ReachableUnder (C : σ → ℓ → Prop) (s : σ) : Prop := ∃ s₀, M.initial s₀ ∧ M.Steps C s₀ s

/-- Reached from an initial state. -/
def Reachable (s : σ) : Prop := M.ReachableUnder (fun _ _ => True) s

/-- `I` holds initially and every step from a state satisfying it keeps it. -/
structure Inductive (I : σ → Prop) : Prop where
  initially : ∀ s, M.initial s → I s
  preserved : ∀ s l s', I s → M.step s l = some s' → I s'

variable {M}

namespace Steps

variable {C D : σ → ℓ → Prop} {s s' s'' : σ}

theorem trans (h : M.Steps C s s') (h' : M.Steps C s' s'') : M.Steps C s s'' := by
  induction h' with
  | refl => exact h
  | tail _ hc hs ih => exact ih.tail hc hs

theorem mono (hCD : ∀ s l, C s l → D s l) (h : M.Steps C s s') : M.Steps D s s' := by
  induction h with
  | refl => exact .refl _
  | tail _ hc hs ih => exact ih.tail (hCD _ _ hc) hs

theorem forget (h : M.Steps C s s') : M.Steps (fun _ _ => True) s s' :=
  h.mono fun _ _ _ => trivial

/-- What each permitted step preserves, the whole run preserves. -/
theorem invariant {I : σ → Prop} (h : M.Steps C s s') (h₀ : I s)
    (hstep : ∀ s l s', I s → C s l → M.step s l = some s' → I s') : I s' := by
  induction h with
  | refl => exact h₀
  | tail _ hc hs ih => exact hstep _ _ _ ih hc hs

theorem of_run {ls : List ℓ} (h : M.run s ls = some s') :
    M.Steps (fun _ _ => True) s s' := by
  induction ls generalizing s with
  | nil => cases h; exact .refl _
  | cons l ls ih =>
    obtain ⟨t, ht, hrun⟩ := bind_eq_some_iff.mp h
    exact ((Steps.refl s).tail trivial ht).trans (ih hrun)

end Steps

theorem run_append (s : σ) (ls ls' : List ℓ) :
    M.run s (ls ++ ls') = (M.run s ls).bind fun s' => M.run s' ls' := by
  induction ls generalizing s with
  | nil => rfl
  | cons l ls ih =>
    simp only [List.cons_append, run]
    cases M.step s l with
    | none => rfl
    | some s' => exact ih s'

variable {C : σ → ℓ → Prop} {s s' : σ} {ls ls' : List ℓ}

theorem Along.drop
    (h : M.Along C s (ls ++ ls')) (hrun : M.run s ls = some s') : M.Along C s' ls' := by
  induction ls generalizing s with
  | nil => cases hrun; exact h
  | cons l ls ih =>
    obtain ⟨t, ht, hrest⟩ := bind_eq_some_iff.mp hrun
    exact ih (h t ht).2 hrest

variable {I : σ → Prop}

/-- What each step satisfying `C` preserves holds at the end of a run along `C`. -/
theorem Along.invariant (h : M.Along C s (ls ++ ls')) (hrun : M.run s ls = some s') (h₀ : I s)
    (hstep : ∀ s l s', I s → C s l → M.step s l = some s' → I s') : I s' := by
  induction ls generalizing s with
  | nil => cases hrun; exact h₀
  | cons l ls ih =>
    obtain ⟨t, ht, hrest⟩ := bind_eq_some_iff.mp hrun
    have hc := h t ht
    exact ih hc.2 hrest (hstep s l t h₀ hc.1 ht)

/-- `Along` as a test. -/
def checkAlong (M : System σ ℓ) (C : σ → ℓ → Bool) : σ → List ℓ → Bool
  | _, [] => true
  | s, l :: ls =>
    match M.step s l with
    | none => true
    | some s' => C s l && M.checkAlong C s' ls

theorem along_of_check {C : σ → ℓ → Bool}
    (h : M.checkAlong C s ls = true) : M.Along (fun s l => C s l = true) s ls := by
  induction ls generalizing s with
  | nil => trivial
  | cons l ls ih =>
    intro s' hs
    simp only [checkAlong, hs, Bool.and_eq_true] at h
    exact ⟨h.1, ih h.2⟩

variable {D : σ → ℓ → Prop}

theorem Along.mono (hCD : ∀ s l, C s l → D s l) (h : M.Along C s ls) : M.Along D s ls := by
  induction ls generalizing s with
  | nil => trivial
  | cons l ls ih =>
    intro s' hs
    have hc := h s' hs
    exact ⟨hCD s l hc.1, ih hc.2⟩

theorem Along.and (h : M.Along C s ls)
    (h' : M.Along D s ls) : M.Along (fun s l => C s l ∧ D s l) s ls := by
  induction ls generalizing s with
  | nil => trivial
  | cons l ls ih =>
    intro s' hs
    have hc := h s' hs
    have hd := h' s' hs
    exact ⟨⟨hc.1, hd.1⟩, ih hc.2 hd.2⟩

/-- A condition holds along a run when it holds of each step that the run takes. -/
theorem along_of_steps
    (h : ∀ before l after mid next, ls = before ++ l :: after → M.run s before = some mid →
      M.step mid l = some next → C mid l) : M.Along C s ls := by
  induction ls generalizing s with
  | nil => trivial
  | cons l ls ih =>
    intro s' hs
    refine ⟨h [] l ls s s' rfl rfl hs, ih fun before l' after mid next hls hrun hnext => ?_⟩
    refine h (l :: before) l' after mid next ?_ ?_ hnext
    · rw [hls, List.cons_append]
    · simp only [run, hs, bind_some, hrun]

theorem along_true (s : σ) (ls : List ℓ) : M.Along (fun _ _ => True) s ls := by
  induction ls generalizing s with
  | nil => trivial
  | cons l ls ih => exact fun s' _ => ⟨trivial, ih s'⟩

theorem Always.head (h : M.Always I s ls) : I s := by
  cases ls with
  | nil => exact h
  | cons l ls => exact h.1

theorem Always.at_end (h : M.Always I s ls) (hrun : M.run s ls = some s') : I s' := by
  induction ls generalizing s with
  | nil => cases hrun; exact h
  | cons l ls ih =>
    obtain ⟨t, ht, hrest⟩ := bind_eq_some_iff.mp hrun
    exact ih (h.2 t ht) hrest

theorem Always.mono {P : σ → Prop} (hP : ∀ s, I s → P s)
    (h : M.Always I s ls) : M.Always P s ls := by
  induction ls generalizing s with
  | nil => exact hP s h
  | cons l ls ih => exact ⟨hP s h.1, fun s' hs => ih (h.2 s' hs)⟩

variable {J : σ → Prop}

theorem Always.and (h : M.Always I s ls)
    (h' : M.Always J s ls) : M.Always (fun s => I s ∧ J s) s ls := by
  induction ls generalizing s with
  | nil => exact ⟨h, h'⟩
  | cons l ls ih => exact ⟨⟨h.1, h'.1⟩, fun s' hs => ih (h.2 s' hs) (h'.2 s' hs)⟩

/-- What holds in every state of a run holds before every step of it. -/
theorem Always.before (h : M.Always I s ls) :
    M.Along (fun s _ => I s) s ls := by
  induction ls generalizing s with
  | nil => trivial
  | cons l ls ih => exact fun s' hs => ⟨h.1, ih (h.2 s' hs)⟩

/-- `Always` as a test. -/
def checkAlways (M : System σ ℓ) (I : σ → Bool) : σ → List ℓ → Bool
  | s, [] => I s
  | s, l :: ls =>
    I s && match M.step s l with
      | none => true
      | some s' => M.checkAlways I s' ls

theorem always_of_check {I : σ → Bool}
    (h : M.checkAlways I s ls = true) : M.Always (fun s => I s = true) s ls := by
  induction ls generalizing s with
  | nil => exact h
  | cons l ls ih =>
    rw [checkAlways, Bool.and_eq_true] at h
    refine ⟨h.1, fun s' hs => ih ?_⟩
    simpa only [hs] using h.2

/-- What each step satisfying `C` preserves holds throughout a run along `C`. -/
theorem Along.always (h : M.Along C s ls) (h₀ : I s)
    (hstep : ∀ s l s', I s → C s l → M.step s l = some s' → I s') : M.Always I s ls := by
  induction ls generalizing s with
  | nil => exact h₀
  | cons l ls ih =>
    refine ⟨h₀, fun s' hs => ?_⟩
    have hc := h s' hs
    exact ih hc.2 (hstep s l s' h₀ hc.1 hs)

/-- Let the steps satisfying `C` keep `I`, and let a step from `I` that ends in `P` satisfy
`C`. Then a run from `I` stays in `P` only along `C`. `Q` restricts the runs considered. -/
theorem Always.along {P : σ → Prop} {Q : σ → ℓ → Prop}
    (hkeeps : ∀ s l s', I s → C s l → M.step s l = some s' → I s')
    (hneeds : ∀ s l s', I s → Q s l → M.step s l = some s' → P s' → C s l)
    (h : M.Always P s ls) (hs : I s) (hQ : M.Along Q s ls) : M.Along C s ls := by
  induction ls generalizing s with
  | nil => trivial
  | cons l ls ih =>
    intro s' hs'
    have hq := hQ s' hs'
    have hrest := h.2 s' hs'
    have hc : C s l := hneeds s l s' hs hq.1 hs' hrest.head
    exact ⟨hc, ih hrest (hkeeps s l s' hs hc hs') hq.2⟩

/-- When one step keeps `I` exactly if `C` holds of it, a run keeps `I` throughout exactly
if `C` holds of every step it takes. `Q` restricts the runs considered. -/
theorem always_iff_along {Q : σ → ℓ → Prop}
    (hstep : ∀ s l s', I s → Q s l → M.step s l = some s' → (I s' ↔ C s l))
    (hs : I s) (hQ : M.Along Q s ls) : M.Always I s ls ↔ M.Along C s ls := by
  constructor
  · intro h
    refine (h.along (C := fun s l => C s l ∧ Q s l) ?_ ?_ hs hQ).mono fun _ _ => And.left
    · exact fun s l s' hI hc hs' => (hstep s l s' hI hc.2 hs').mpr hc.1
    · exact fun s l s' hI hq hs' hI' => ⟨(hstep s l s' hI hq hs').mp hI', hq⟩
  · intro h
    exact (h.and hQ).always hs fun s l s' hI hc hs' => (hstep s l s' hI hc.2 hs').mpr hc.1

/-- Conditions that agree on every step from a state satisfying `I` agree along every run, when
the steps that satisfy the first keep `I`. -/
theorem along_congr_of (hkeeps : ∀ s l s', I s → C s l → M.step s l = some s' → I s')
    (hCD : ∀ s l s', I s → M.step s l = some s' → (C s l ↔ D s l))
    (hs : I s) : M.Along C s ls ↔ M.Along D s ls := by
  induction ls generalizing s with
  | nil => exact Iff.rfl
  | cons l ls ih =>
    constructor
    · intro h s' hs'
      have hc := h s' hs'
      exact ⟨(hCD s l s' hs hs').mp hc.1, (ih (hkeeps s l s' hs hc.1 hs')).mp hc.2⟩
    · intro h s' hs'
      have hd := h s' hs'
      have hc : C s l := (hCD s l s' hs hs').mpr hd.1
      exact ⟨hc, (ih (hkeeps s l s' hs hc hs')).mpr hd.2⟩

/-- Conditions that agree on every step from a state satisfying an invariant agree along
every run. -/
theorem along_congr (hI : M.Inductive I)
    (hCD : ∀ s l s', I s → M.step s l = some s' → (C s l ↔ D s l))
    (hs : I s) : M.Along C s ls ↔ M.Along D s ls :=
  along_congr_of (fun s l s' h _ => hI.preserved s l s' h) hCD hs

theorem Inductive.always (hI : M.Inductive I) (h : M.initial s) : M.Always I s ls :=
  (along_true s ls).always (hI.initially s h) fun s l s' h _ hs => hI.preserved s l s' h hs

/-- Invariants may rest on each other. -/
theorem Inductive.and (hI : M.Inductive I) (h₀ : ∀ s, M.initial s → J s)
    (hstep : ∀ s l s', I s → J s → M.step s l = some s' → J s') :
    M.Inductive fun s => I s ∧ J s where
  initially s hs := ⟨hI.initially s hs, h₀ s hs⟩
  preserved s l s' h hs := ⟨hI.preserved s l s' h.1 hs, hstep s l s' h.1 h.2 hs⟩

variable {s₀ : σ}

theorem Reachable.of_run (hi : M.initial s₀) (h : M.run s₀ ls = some s) : M.Reachable s :=
  ⟨s₀, hi, Steps.of_run h⟩

theorem Inductive.of_reachable (hI : M.Inductive I) (h : M.Reachable s) : I s := by
  obtain ⟨s₀, hi, hs⟩ := h
  exact hs.invariant (hI.initially s₀ hi) fun s l s' h _ hs => hI.preserved s l s' h hs

/-- Where the labels lead; the start itself when they are not all enabled in turn. -/
def target (M : System σ ℓ) (s : σ) (ls : List ℓ) : σ := (M.run s ls).getD s

theorem run_eq_target (h : (M.run s ls).isSome) : M.run s ls = some (M.target s ls) := by
  obtain ⟨t, ht⟩ := isSome_iff_exists.mp h
  rw [target, ht, getD_some]

theorem run_target (h : (M.run s (ls ++ ls')).isSome) :
    M.run (M.target s ls) ls' = some (M.target s (ls ++ ls')) := by
  unfold target
  rw [run_append] at h ⊢
  cases hrun : M.run s ls with
  | none => simp [hrun] at h
  | some t =>
    simp only [hrun, bind_some, getD_some] at h ⊢
    obtain ⟨t', ht'⟩ := isSome_iff_exists.mp h
    simp [ht']

theorem Reachable.target (hi : M.initial s₀) (ls : List ℓ) : M.Reachable (M.target s₀ ls) := by
  unfold System.target
  cases h : M.run s₀ ls with
  | none => exact ⟨s₀, hi, .refl _⟩
  | some s => exact Reachable.of_run hi h

theorem Steps.of_check {C : σ → ℓ → Bool}
    (hcheck : M.checkAlong C s ls = true) (hrun : M.run s ls = some s') :
    M.Steps (fun s l => C s l = true) s s' := by
  induction ls generalizing s with
  | nil => cases hrun; exact .refl _
  | cons l ls ih =>
    obtain ⟨t, ht, hrest⟩ := bind_eq_some_iff.mp hrun
    simp only [checkAlong, ht, Bool.and_eq_true] at hcheck
    exact ((Steps.refl s).tail hcheck.1 ht).trans (ih hcheck.2 hrest)

theorem ReachableUnder.target {C : σ → ℓ → Bool} (hi : M.initial s₀)
    (hcheck : M.checkAlong C s₀ ls = true) :
    M.ReachableUnder (fun s l => C s l = true) (M.target s₀ ls) := by
  unfold System.target
  cases h : M.run s₀ ls with
  | none => exact ⟨s₀, hi, .refl _⟩
  | some s => exact ⟨s₀, hi, Steps.of_check hcheck h⟩

/-- An invariant of the runs under a condition, given one already known of every run. -/
theorem ReachableUnder.invariant (hJ : M.Inductive J) (h₀ : ∀ s, M.initial s → I s)
    (hstep : ∀ s l s', J s → I s → C s l → M.step s l = some s' → I s')
    (h : M.ReachableUnder C s) : I s := by
  obtain ⟨s₀, hi, hs⟩ := h
  have hIJ : J s ∧ I s := hs.invariant (I := fun s => J s ∧ I s)
    ⟨hJ.initially s₀ hi, h₀ s₀ hi⟩ fun s l s' h hc hs =>
      ⟨hJ.preserved s l s' h.1 hs, hstep s l s' h.1 h.2 hc hs⟩
  exact hIJ.2

/-! ## Two runs side by side -/

/-- Two copies of a system; a label says what each of them does, if anything. -/
def pair (M : System σ ℓ) {κ : Type*} (left right : κ → Option ℓ) : System (σ × σ) κ where
  initial s := M.initial s.1 ∧ M.initial s.2
  step s l := do
    let s₁ ← (left l).elim (some s.1) (M.step s.1)
    let s₂ ← (right l).elim (some s.2) (M.step s.2)
    some (s₁, s₂)

theorem pair_step_eq_some {κ : Type*} {left right : κ → Option ℓ} {s s' : σ × σ} {l : κ} :
    (M.pair left right).step s l = some s' ↔
      (left l).elim (some s.1) (M.step s.1) = some s'.1 ∧
        (right l).elim (some s.2) (M.step s.2) = some s'.2 := by
  simp only [pair, bind_eq_bind, bind_eq_some_iff, some.injEq]
  constructor
  · rintro ⟨s₁, h₁, s₂, h₂, rfl⟩
    exact ⟨h₁, h₂⟩
  · rintro ⟨h₁, h₂⟩
    exact ⟨s'.1, h₁, s'.2, h₂, rfl⟩

end System

end Newbro.Library
