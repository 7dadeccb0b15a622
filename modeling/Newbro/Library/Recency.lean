import Mathlib.Data.List.Nodup

/-!
# The most recent of keyed items

Items come one after the other, each with a key, and a later item takes the place of an earlier
one with its key. Lists have the most recent item first.
-/
namespace Newbro.Library.Recency
open List

variable {α κ : Type*} [DecidableEq κ] (key : α → κ)

/-- The latest item with each key. -/
def latest : List α → List α
  | [] => []
  | item :: items => item :: (latest items).filter fun other => key other ≠ key item

theorem nodup_latest (items : List α) : ((latest key items).map key).Nodup := by
  induction items with
  | nil => simp [latest]
  | cons item items ih =>
    rw [latest, map_cons, nodup_cons]
    refine ⟨by simp, ih.sublist ?_⟩
    exact (filter_sublist (l := latest key items)).map key

theorem find?_of_mem_latest {item : α} {items : List α} (h : item ∈ latest key items) :
    items.find? (fun other => key other = key item) = some item := by
  induction items with
  | nil => cases h
  | cons first items ih =>
    rcases mem_cons.mp h with rfl | hrest
    · simp
    · obtain ⟨hmem, hne⟩ := mem_filter.mp hrest
      have hother : key first ≠ key item := fun heq => of_decide_eq_true hne heq.symm
      rw [find?_cons_of_neg (by simpa using hother), ih hmem]

variable {key} {items : List α} {n : Nat}

/-- Removing one key takes at most one item, so one more than `n` items decide the first `n`. -/
theorem take_filter_ne (h : (items.map key).Nodup) (k : κ) :
    (items.filter fun item => key item ≠ k).take n =
      ((items.take (n + 1)).filter fun item => key item ≠ k).take n := by
  induction items generalizing n with
  | nil => simp
  | cons item items ih =>
    obtain ⟨hnew, hrest⟩ := nodup_cons.mp h
    by_cases hk : key item = k
    · have hfree : ∀ other ∈ items, decide (key other ≠ k) = true := fun other hother =>
        decide_eq_true fun heq => hnew (mem_map.mpr ⟨other, hother, heq.trans hk.symm⟩)
      rw [take_succ_cons, filter_cons_of_neg (by simpa using hk),
        filter_cons_of_neg (by simpa using hk), filter_eq_self.mpr hfree,
        filter_eq_self.mpr fun other hother => hfree other (mem_of_mem_take hother), take_take,
        Nat.min_self]
    · rw [take_succ_cons, filter_cons_of_pos (by simpa using hk),
        filter_cons_of_pos (by simpa using hk)]
      cases n with
      | zero => rfl
      | succ n => rw [take_succ_cons, take_succ_cons, ih hrest]

theorem take_latest_cons (item : α) :
    (latest key (item :: items)).take (n + 1) =
      item :: (((latest key items).take (n + 1)).filter fun other =>
        key other ≠ key item).take n := by
  rw [latest, take_succ_cons, take_filter_ne (nodup_latest key items)]

theorem take_filter_of_notMem {k : κ} (h : k ∉ (items.take n).map key) :
    (items.filter fun item => key item ≠ k).take n = items.take n := by
  induction items generalizing n with
  | nil => rfl
  | cons item items ih =>
    cases n with
    | zero => rfl
    | succ n =>
      rw [take_succ_cons, map_cons, mem_cons, not_or] at h
      rw [filter_cons_of_pos (by simpa using Ne.symm h.1), take_succ_cons, take_succ_cons, ih h.2]

/-- Items that have no key in common with a later one are the latest themselves. -/
theorem take_latest_of_nodup (h : ((items.take n).map key).Nodup) :
    (latest key items).take n = items.take n := by
  induction items generalizing n with
  | nil => rfl
  | cons item items ih =>
    cases n with
    | zero => rfl
    | succ n =>
      rw [take_succ_cons, map_cons, nodup_cons] at h
      have hsame : (latest key items).take n = items.take n := ih h.2
      rw [latest, take_succ_cons, take_succ_cons, take_filter_of_notMem (hsame ▸ h.1), hsame]

end Newbro.Library.Recency
