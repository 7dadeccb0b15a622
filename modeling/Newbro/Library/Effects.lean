import Mathlib.Control.Basic

/-!
# Computations that change a state and may raise

What a computation has changed stays when it raises. A relation between states that is
reflexive and transitive and that every part keeps is kept by the whole, whether it returns
or not.
-/
namespace Newbro.Library

universe u

/-- A computation over a state that returns a value or raises. -/
abbrev Effect (σ ε : Type) := ExceptT ε (StateM σ)

namespace Effect

variable {σ ε α β : Type}

/-- The result and the state after it. -/
def exec (m : Effect σ ε α) (s : σ) : Except ε α × σ := m.run.run s

@[simp] theorem exec_pure (a : α) (s : σ) : exec (pure a : Effect σ ε α) s = (.ok a, s) := rfl

@[simp] theorem exec_throw (e : ε) (s : σ) : exec (throw e : Effect σ ε α) s = (.error e, s) := rfl

@[simp] theorem exec_get (s : σ) : exec (get : Effect σ ε σ) s = (.ok s, s) := rfl

@[simp] theorem exec_modify (f : σ → σ) (s : σ) :
    exec (modify f : Effect σ ε PUnit) s = (.ok ⟨⟩, f s) := rfl

theorem exec_bind (m : Effect σ ε α) (f : α → Effect σ ε β) (s : σ) :
    exec (m >>= f) s = match exec m s with
      | (.ok a, s') => exec (f a) s'
      | (.error e, s') => (.error e, s') := by
  show (StateT.run (ExceptT.run m >>= ExceptT.bindCont f) s) = _
  rw [StateT.run_bind]
  unfold exec
  show ExceptT.bindCont f (StateT.run m.run s).1 (StateT.run m.run s).2 = _
  rcases StateT.run m.run s with ⟨result, s'⟩
  cases result with
  | ok a => rfl
  | error e => rfl

variable {m : Effect σ ε α} {f : α → Effect σ ε β} {s s' : σ}

theorem exec_bind_ok {a : α} (h : exec m s = (.ok a, s')) : exec (m >>= f) s = exec (f a) s' := by
  rw [exec_bind, h]

theorem exec_bind_error {e : ε}
    (h : exec m s = (.error e, s')) : exec (m >>= f) s = (.error e, s') := by
  rw [exec_bind, h]

/-- A sequence that returns has returned from both of its parts. -/
theorem exec_bind_eq_ok_iff {s'' : σ} {b : β} : exec (m >>= f) s = (.ok b, s'') ↔
      ∃ a s', exec m s = (.ok a, s') ∧ exec (f a) s' = (.ok b, s'') := by
  constructor
  · intro h
    cases hm : exec m s with
    | mk result s' =>
      cases result with
      | ok a => exact ⟨a, s', rfl, by rw [← exec_bind_ok hm, h]⟩
      | error e =>
        rw [exec_bind_error hm] at h
        cases h
  · rintro ⟨a, s', hm, hf⟩
    rw [exec_bind_ok hm, hf]

theorem exec_tryCatch (m : Effect σ ε α) (handle : ε → Effect σ ε α) (s : σ) :
    exec (tryCatch m handle) s = match exec m s with
      | (.ok a, s') => (.ok a, s')
      | (.error e, s') => exec (handle e) s' := by
  unfold exec
  show StateT.run (ExceptT.run m >>= fun
    | .ok a => pure (.ok a)
    | .error e => handle e) s = _
  rw [StateT.run_bind]
  rcases h : StateT.run m.run s with ⟨result, s'⟩
  cases result with
  | ok a => rfl
  | error e => rfl

/-- A loop that returns has returned from every one of its rounds. -/
theorem exec_mapM_eq_ok {as : List α} {bs : List β} (h : exec (as.mapM f) s = (.ok bs, s')) :
    ∀ a ∈ as, ∃ s₁ b s₂, exec (f a) s₁ = (.ok b, s₂) := by
  induction as generalizing bs s s' with
  | nil =>
    intro a hmem
    cases hmem
  | cons a as ih =>
    rw [List.mapM_cons] at h
    obtain ⟨b, s₁, hfirst, hrest⟩ := exec_bind_eq_ok_iff.mp h
    obtain ⟨others, s₂, hothers, -⟩ := exec_bind_eq_ok_iff.mp hrest
    intro other hmem
    rcases List.mem_cons.mp hmem with rfl | hmem
    · exact ⟨s, b, s₁, hfirst⟩
    · exact ih hothers other hmem

/-- What every run of a computation keeps. -/
def Keeps (R : σ → σ → Prop) (m : Effect σ ε α) : Prop := ∀ s, R s (exec m s).2

section keeps

variable {R : σ → σ → Prop} (refl : ∀ s, R s s) (trans : ∀ a b c, R a b → R b c → R a c)

include refl in
theorem keeps_pure (a : α) : Keeps R (pure a : Effect σ ε α) := fun s => refl s

include refl in
theorem keeps_throw (e : ε) : Keeps R (throw e : Effect σ ε α) := fun s => refl s

include refl in
theorem keeps_get : Keeps R (get : Effect σ ε σ) := fun s => refl s

theorem keeps_modify {f : σ → σ} (h : ∀ s, R s (f s)) : Keeps R (modify f : Effect σ ε PUnit) := h

include refl in
/-- What the rest of a sequence keeps of the state after its first part. -/
theorem keeps_rest (hf : ∀ a, Keeps R (f a)) (s : σ) : R (exec m s).2 (exec (m >>= f) s).2 := by
  cases h : exec m s with
  | mk result s' =>
    cases result with
    | ok a =>
      rw [exec_bind_ok h]
      exact hf a s'
    | error e =>
      rw [exec_bind_error h]
      exact refl s'

include trans in
theorem keeps_bind (hm : Keeps R m) (hf : ∀ a, Keeps R (f a)) : Keeps R (m >>= f) := by
  intro s
  have hstart := hm s
  cases h : exec m s with
  | mk result s' =>
    rw [h] at hstart
    cases result with
    | ok a =>
      rw [exec_bind_ok h]
      exact trans _ _ _ hstart (hf a s')
    | error e =>
      rw [exec_bind_error h]
      exact hstart

include refl trans in
theorem keeps_mapM (h : ∀ a, Keeps R (f a)) (as : List α) : Keeps R (as.mapM f) := by
  induction as with
  | nil => exact keeps_pure refl _
  | cons a as ih =>
    rw [List.mapM_cons]
    have hcons : ∀ b, Keeps R (do
        let bs ← as.mapM f
        pure (b :: bs)) := fun b => keeps_bind trans ih fun bs => keeps_pure refl (b :: bs)
    exact keeps_bind trans (h a) hcons

end keeps

end Effect

end Newbro.Library
