import Mathlib.Data.List.Sort

/-!
# Rankings

A list sorted by an order of preference, where those that the order does not tell apart stay as
they were, and the one that is ahead of all the others by a margin.
-/
namespace Newbro.Library.Ranking
open List

variable {α : Type*} {above : α → α → Bool}
  (trans : ∀ a b c, above a b → above b c → above a c)
  (total : ∀ a b, above a b || above b a)

include trans total

/-- What holds of any two of a ranking, the higher first, in terms of the list as it was. -/
theorem pairwise_mergeSort_iff {P : α → α → Prop} (l : List α) :
    (l.mergeSort above).Pairwise P ↔ l.Pairwise fun a b => if above a b then P a b else P b a := by
  induction l with
  | nil => simp
  | cons a l ih =>
    obtain ⟨higher, lower, hcons, hl, hhigher⟩ := mergeSort_cons trans total a l
    have hsorted := pairwise_mergeSort trans total (a :: l)
    rw [hcons, pairwise_append] at hsorted
    have hlower : ∀ b ∈ lower, above a b := (pairwise_cons.mp hsorted.2.1).1
    have hmem : ∀ b, b ∈ l ↔ b ∈ higher ∨ b ∈ lower := fun b => by
      rw [← (mergeSort_perm l above).mem_iff, hl, mem_append]
    rw [pairwise_cons, ← ih, hl, hcons]
    have hnew : (∀ b ∈ l, if above a b then P a b else P b a) ↔
        (∀ b ∈ higher, P b a) ∧ ∀ b ∈ lower, P a b := by
      constructor
      · intro h
        refine ⟨fun b hb => ?_, fun b hb => ?_⟩
        · simpa [by simpa using hhigher b hb] using h b ((hmem b).mpr (.inl hb))
        · simpa [hlower b hb] using h b ((hmem b).mpr (.inr hb))
      · rintro ⟨hup, hdown⟩ b hb
        rcases (hmem b).mp hb with hb | hb
        · simpa [by simpa using hhigher b hb] using hup b hb
        · simpa [hlower b hb] using hdown b hb
    rw [hnew, pairwise_append, pairwise_append, pairwise_cons]
    constructor
    · rintro ⟨hup, ⟨hdown, hrest⟩, hacross⟩
      exact ⟨⟨fun b hb => hacross b hb a mem_cons_self, hdown⟩, hup, hrest,
        fun b hb c hc => hacross b hb c (mem_cons_of_mem a hc)⟩
    · rintro ⟨⟨hup', hdown⟩, hup, hrest, hacross⟩
      refine ⟨hup, ⟨hdown, hrest⟩, fun b hb => forall_mem_cons.mpr ⟨hup' b hb, hacross b hb⟩⟩

variable (score : α → Nat) (margin : Nat)

/-- One of a list is ahead of all the others. -/
def Leads (a : α) (l : List α) : Prop :=
  ∃ others, l ~ a :: others ∧ ∀ b ∈ others, score b + margin ≤ score a

variable {score margin} {a : α} {l : List α}

/-- Whether the first of a ranking leads is seen from the second. -/
theorem leads_iff_mergeSort (hscore : ∀ a b, above a b → score b ≤ score a)
    (hmargin : 0 < margin) :
    Leads score margin a l ↔ ∃ others, l.mergeSort above = a :: others ∧
      ∀ b ∈ others.head?, score b + margin ≤ score a := by
  have hperm := mergeSort_perm l above
  have hsorted := pairwise_mergeSort trans total l
  constructor
  · rintro ⟨others, hl, hothers⟩
    have hranked := hperm.trans hl
    cases h : l.mergeSort above with
    | nil => rw [h] at hranked; exact absurd hranked.nil_eq (by simp)
    | cons first rest =>
      rw [h] at hranked hsorted
      have hfirst : first = a := by
        rcases mem_cons.mp (hranked.subset mem_cons_self) with heq | hother
        · exact heq
        · rcases mem_cons.mp (hranked.symm.subset mem_cons_self) with heq | hrest
          · exact heq.symm
          · have := hscore _ _ (rel_of_pairwise_cons hsorted hrest)
            have := hothers first hother
            omega
      subst hfirst
      have hrest := (perm_cons first).mp hranked
      exact ⟨rest, rfl, fun b hb => hothers b (hrest.subset (mem_of_mem_head? hb))⟩
  · rintro ⟨others, h, hhead⟩
    rw [h] at hperm hsorted
    refine ⟨others, hperm.symm, fun b hb => ?_⟩
    cases others with
    | nil => cases hb
    | cons second rest =>
      have hsecond := hhead second rfl
      rcases mem_cons.mp hb with rfl | hb
      · exact hsecond
      · have := hscore _ _ (rel_of_pairwise_cons (pairwise_cons.mp hsorted).2 hb)
        omega

end Newbro.Library.Ranking
