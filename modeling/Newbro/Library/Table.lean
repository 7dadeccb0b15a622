import Mathlib.Data.List.Nodup
import Mathlib.Data.List.Basic

/-!
# Keyed tables in insertion order

A `Table key` is a finite map whose values carry their own key. Entries keep the
order of their first insertion, and the structure carries the fact that no key
occurs twice, so a lookup has at most one answer.
-/
namespace Newbro.Library
open List

universe u v

/-- Values listed in the order their keys were first inserted, one per key. -/
structure Table {K : Type u} {V : Type v} (key : V → K) where
  entries : List V
  keys_nodup : (entries.map key).Nodup

/-- What no step of a fold changes, the fold does not change. -/
theorem foldl_frame {α β γ : Type*} {f : β → α → β} (view : β → γ)
    (h : ∀ b a, view (f b a) = view b) (as : List α) (b : β) : view (as.foldl f b) = view b := by
  induction as generalizing b with
  | nil => rfl
  | cons a as ih => rw [foldl_cons, ih, h]

/-- The first entry that is looked for is still the first one when others are left out. -/
theorem find?_filter_of_find? {α : Type*} {xs : List α} {p q : α → Bool} {a : α}
    (h : xs.find? q = some a) (ha : p a = true) : (xs.filter p).find? q = some a := by
  obtain ⟨hq, before, after, rfl, hbefore⟩ := List.find?_eq_some_iff_append.mp h
  refine List.find?_eq_some_iff_append.mpr ⟨hq, before.filter p, after.filter p, ?_, ?_⟩
  · rw [filter_append, filter_cons_of_pos ha]
  · exact fun other hmem => hbefore other (mem_of_mem_filter hmem)

/-- Setting the value of a key in an association list: in place where the key is there, else at
the end. -/
theorem lookup_setEntry {K : Type u} {V : Type v} [DecidableEq K] (entries : List (K × V))
    (k k' : K) (v : V) :
    (if entries.any (fun entry => entry.1 = k) then
        entries.map fun entry => if entry.1 = k then (k, v) else entry
      else entries ++ [(k, v)]).lookup k' = if k = k' then some v else entries.lookup k' := by
  induction entries with
  | nil =>
    by_cases h : k = k'
    · simp [h]
    · have hne : (k' == k) = false := by simpa using Ne.symm h
      simp [h, hne, lookup_cons]
  | cons entry entries ih =>
    obtain ⟨key, old⟩ := entry
    by_cases hkey : key = k
    · by_cases h : k = k'
      · simp [hkey, h]
      · have hne : (k' == k) = false := by simpa using Ne.symm h
        have hrest : (entries.map fun entry => if entry.1 = k then (k, v) else entry).lookup k' =
            entries.lookup k' := by
          clear ih
          induction entries with
          | nil => rfl
          | cons entry entries ih =>
            obtain ⟨other, value⟩ := entry
            by_cases hother : other = k
            · simp [hother, lookup_cons, hne, ih]
            · simp [hother, lookup_cons, ih]
        simp [hkey, h, lookup_cons, hne, hrest]
    · have hany : ((key, old) :: entries).any (fun entry => entry.1 = k) =
          entries.any (fun entry => entry.1 = k) := by simp [hkey]
      rw [hany]
      by_cases hrest : entries.any (fun entry => entry.1 = k) = true
      · rw [if_pos hrest] at ih ⊢
        rw [map_cons, if_neg hkey, lookup_cons, ih, lookup_cons]
        by_cases hk : k' == key
        · have hne : k ≠ k' := fun h => hkey (by rw [h]; exact (beq_iff_eq.mp hk).symm)
          simp [hk, hne]
        · simp [hk]
      · rw [if_neg hrest] at ih ⊢
        rw [cons_append, lookup_cons, ih, lookup_cons]
        by_cases hk : k' == key
        · have hne : k ≠ k' := fun h => hkey (by rw [h]; exact (beq_iff_eq.mp hk).symm)
          simp [hk, hne]
        · simp [hk]

namespace Table

variable {K : Type u} {V : Type v} {key : V → K}

/-- The table without entries. -/
def empty : Table key := ⟨[], by simp⟩

instance : Inhabited (Table key) := ⟨empty⟩

variable {t : Table key}

@[ext] theorem ext {t' : Table key} (h : t.entries = t'.entries) : t = t' := by
  cases t; cases t'; simp_all

@[simp] theorem entries_empty : (empty : Table key).entries = [] := rfl

variable {v w : V}

/-- Two entries with one key are the same entry. -/
theorem eq_of_key_eq (t : Table key) (hv : v ∈ t.entries) (hw : w ∈ t.entries)
    (h : key v = key w) : v = w :=
  inj_on_of_nodup_map t.keys_nodup hv hw h

variable [DecidableEq K]

/-- The value stored under a key. -/
def get? (t : Table key) (k : K) : Option V := t.entries.find? fun v => key v = k

/-- Whether a key is stored. -/
def contains (t : Table key) (k : K) : Bool := (t.get? k).isSome

@[simp] theorem get?_empty (k : K) : (empty : Table key).get? k = none := rfl

variable {k : K}

theorem get?_eq_some_iff : t.get? k = some v ↔ v ∈ t.entries ∧ key v = k := by
  constructor
  · intro h
    have hk : key v = k := by simpa using List.find?_some h
    exact ⟨mem_of_find?_eq_some h, hk⟩
  · rintro ⟨hv, rfl⟩
    cases h : t.get? (key v) with
    | none =>
      have := List.find?_eq_none.mp h v hv
      simp at this
    | some w =>
      have hw : key w = key v := by simpa using List.find?_some h
      rw [t.eq_of_key_eq (mem_of_find?_eq_some h) hv hw]

theorem get?_eq_none_iff : t.get? k = none ↔ ∀ v ∈ t.entries, key v ≠ k := by
  simp [get?, List.find?_eq_none]

theorem key_of_get? (h : t.get? k = some v) : key v = k := by
  rw [get?_eq_some_iff] at h
  exact h.2

theorem mem_of_get? (h : t.get? k = some v) : v ∈ t.entries := by
  rw [get?_eq_some_iff] at h
  exact h.1

theorem get?_of_mem (h : v ∈ t.entries) : t.get? (key v) = some v :=
  get?_eq_some_iff.mpr ⟨h, rfl⟩

/-- Overwrite the entry with the key of `v` where it stands. -/
def replace (key : V → K) (v : V) (xs : List V) : List V :=
  xs.map fun w => if key w = key v then v else w

theorem map_key_replace (v : V) (xs : List V) : (replace key v xs).map key = xs.map key := by
  rw [replace, map_map]
  refine map_congr_left fun w _ => ?_
  by_cases h : key w = key v <;> simp [h]

/-- Store a value: in place when its key is present, else at the end. -/
def put (t : Table key) (v : V) : Table key :=
  if h : t.contains (key v) then
    ⟨replace key v t.entries, by rw [map_key_replace]; exact t.keys_nodup⟩
  else
    ⟨t.entries ++ [v], by
      have hn : ∀ w ∈ t.entries, key w ≠ key v := by simpa [contains, get?_eq_none_iff] using h
      rw [map_append, nodup_append]
      refine ⟨t.keys_nodup, by simp, ?_⟩
      intro a ha b hb
      obtain ⟨w, hw, rfl⟩ := mem_map.mp ha
      simp only [map_cons, map_nil, mem_singleton] at hb
      rw [hb]
      exact hn w hw⟩

/-- Remove the entry stored under a key, if any. -/
def erase (t : Table key) (k : K) : Table key :=
  ⟨t.entries.filter fun v => key v ≠ k, t.keys_nodup.sublist (filter_sublist.map key)⟩

theorem entries_put_of_contains (h : t.contains (key v)) :
    (t.put v).entries = replace key v t.entries := by
  simp [put, h]

theorem entries_put_of_not_contains (h : ¬ t.contains (key v)) :
    (t.put v).entries = t.entries ++ [v] := by
  simp [put, h]

theorem mem_put : w ∈ (t.put v).entries ↔ w = v ∨ (w ∈ t.entries ∧ key w ≠ key v) := by
  by_cases h : t.contains (key v)
  · obtain ⟨u, hu⟩ := Option.isSome_iff_exists.mp h
    rw [entries_put_of_contains h, replace, mem_map]
    constructor
    · rintro ⟨x, hx, rfl⟩
      by_cases hk : key x = key v
      · simp [hk]
      · simp [hk, hx]
    · rintro (rfl | ⟨hw, hk⟩)
      · exact ⟨u, mem_of_get? hu, by simp [key_of_get? hu]⟩
      · exact ⟨w, hw, by simp [hk]⟩
  · have hn : ∀ x ∈ t.entries, key x ≠ key v := by simpa [contains, get?_eq_none_iff] using h
    rw [entries_put_of_not_contains h, mem_append, mem_singleton]
    constructor
    · rintro (hw | rfl)
      · exact .inr ⟨hw, hn w hw⟩
      · exact .inl rfl
    · rintro (rfl | ⟨hw, -⟩)
      · exact .inr rfl
      · exact .inl hw

/-- Overwriting one entry leaves every other. -/
theorem mem_put_of_ne (old : V) (hold : t.get? (key v) = some old)
    (hw : w ∈ t.entries) (hne : w ≠ old) : w ∈ (t.put v).entries := by
  rw [mem_put]
  refine .inr ⟨hw, fun hkey => ?_⟩
  exact hne (t.eq_of_key_eq hw (mem_of_get? hold) (hkey.trans (key_of_get? hold).symm))

@[simp] theorem get?_put_self (t : Table key) (v : V) : (t.put v).get? (key v) = some v := by
  rw [get?_eq_some_iff, mem_put]
  exact ⟨.inl rfl, rfl⟩

theorem get?_put_of_ne (t : Table key) (h : key v ≠ k) : (t.put v).get? k = t.get? k := by
  cases hk : t.get? k with
  | none =>
    rw [get?_eq_none_iff] at hk ⊢
    intro w hw
    rw [mem_put] at hw
    rcases hw with rfl | ⟨hw, -⟩
    · exact h
    · exact hk w hw
  | some w =>
    rw [get?_eq_some_iff] at hk ⊢
    rw [mem_put]
    exact ⟨.inr ⟨hk.1, by rw [hk.2]; exact h.symm⟩, hk.2⟩

theorem get?_put (t : Table key) (v : V) (k : K) :
    (t.put v).get? k = if key v = k then some v else t.get? k := by
  by_cases h : key v = k
  · subst h; simp
  · simp [h, get?_put_of_ne t h]

theorem isSome_get?_put (t : Table key) (v : V) (h : (t.get? k).isSome = true) :
    ((t.put v).get? k).isSome = true := by
  rw [get?_put]
  split
  · rfl
  · exact h

theorem get?_eq_none_of_put (h : (t.put v).get? k = none) : t.get? k = none := by
  simp only [get?_eq_none_iff, mem_put] at h ⊢
  intro w hw
  by_cases hk : key w = key v
  · rw [hk]
    exact h v (.inl rfl)
  · exact h w (.inr ⟨hw, hk⟩)

/-- What holds of all entries and of a value holds of all entries once it is stored. -/
theorem forall_put {P : V → Prop} (h : ∀ w ∈ t.entries, P w)
    (hv : P v) : ∀ w ∈ (t.put v).entries, P w := by
  intro w hw
  rw [mem_put] at hw
  rcases hw with rfl | ⟨hw, -⟩
  · exact hv
  · exact h w hw

theorem mem_erase : w ∈ (t.erase k).entries ↔ w ∈ t.entries ∧ key w ≠ k := by simp [erase]

@[simp] theorem get?_erase_self (t : Table key) (k : K) : (t.erase k).get? k = none := by
  rw [get?_eq_none_iff]
  exact fun w hw => (mem_erase.mp hw).2

theorem get?_erase_of_ne (t : Table key) {k' : K} (h : k ≠ k') :
    (t.erase k).get? k' = t.get? k' := by
  cases hk : t.get? k' with
  | none =>
    rw [get?_eq_none_iff] at hk ⊢
    exact fun w hw => hk w (mem_erase.mp hw).1
  | some w =>
    have hw := get?_eq_some_iff.mp hk
    exact get?_eq_some_iff.mpr ⟨mem_erase.mpr ⟨hw.1, by rw [hw.2]; exact h.symm⟩, hw.2⟩

theorem get?_erase (t : Table key) (k k' : K) :
    (t.erase k).get? k' = if k = k' then none else t.get? k' := by
  by_cases h : k = k'
  · subst h; simp
  · simp [h, get?_erase_of_ne t h]

/-- Overwriting an entry by one that looks the same under `f` is invisible under `f`. -/
theorem map_entries_put {α : Type*} (f : V → α) (h : t.get? (key v) = some w) (hf : f v = f w) :
    (t.put v).entries.map f = t.entries.map f := by
  rw [entries_put_of_contains (by simp [contains, h]), replace, map_map]
  refine map_congr_left fun x hx => ?_
  by_cases hk : key x = key v
  · have hx' : x = w := t.eq_of_key_eq hx (mem_of_get? h) (by rw [hk, key_of_get? h])
    subst hx'
    simp [hk, hf]
  · simp [hk]

theorem map_entries_put_fresh {α : Type*} (f : V → α)
    (h : t.get? (key v) = none) : (t.put v).entries.map f = t.entries.map f ++ [f v] := by
  rw [entries_put_of_not_contains (by simp [contains, h])]
  simp

/-- Change every entry by a function that leaves the keys alone. -/
def mapValues (t : Table key) (f : V → V) (hf : ∀ v, key (f v) = key v) : Table key where
  entries := t.entries.map f
  keys_nodup := by
    have hkeys : (t.entries.map f).map key = t.entries.map key := by
      rw [map_map]
      exact map_congr_left fun v _ => hf v
    rw [hkeys]
    exact t.keys_nodup

variable {f : V → V}

omit [DecidableEq K] in
theorem mem_mapValues {hf : ∀ v, key (f v) = key v} :
    w ∈ (t.mapValues f hf).entries ↔ ∃ v ∈ t.entries, f v = w := mem_map

theorem get?_mapValues (t : Table key) (f : V → V) (hf : ∀ v, key (f v) = key v) (k : K) :
    (t.mapValues f hf).get? k = (t.get? k).map f := by
  have hkey : (fun v => decide (key (f v) = k)) = fun v => decide (key v = k) := by
    funext v
    rw [hf v]
  simp only [get?, mapValues, List.find?_map, Function.comp_def, hkey]

/-- Values written in turn, each once: the one that is written under a key is found. -/
theorem get?_foldl_put (hf : ∀ v, key (f v) = key v) {vs : List V}
    (hnodup : (vs.map key).Nodup) (t : Table key) (k : K) :
    (vs.foldl (fun t v => t.put (f v)) t).get? k =
      ((vs.find? fun v => key v = k).map f).or (t.get? k) := by
  induction vs generalizing t with
  | nil => rfl
  | cons v vs ih =>
    rw [map_cons, nodup_cons] at hnodup
    rw [foldl_cons, ih hnodup.2, get?_put, hf]
    by_cases hk : key v = k
    · subst hk
      have hnone : vs.find? (fun w => key w = key v) = none := by
        refine List.find?_eq_none.mpr fun w hw heq => hnodup.1 ?_
        exact mem_map.mpr ⟨w, hw, of_decide_eq_true heq⟩
      simp [hnone]
    · simp [hk]

/-- Rewriting the entries that satisfy `p`, one after the other, changes each on its own. -/
theorem get?_foldl_put_filter (hf : ∀ v, key (f v) = key v) (p : V → Bool)
    (t : Table key) (k : K) :
    ((t.entries.filter p).foldl (fun t v => t.put (f v)) t).get? k =
      (t.get? k).map fun v => if p v then f v else v := by
  rw [get?_foldl_put hf (t.keys_nodup.sublist (filter_sublist.map key))]
  cases ht : t.get? k with
  | none =>
    have hnone : (t.entries.filter p).find? (fun v => key v = k) = none := by
      refine List.find?_eq_none.mpr fun v hv heq => ?_
      exact get?_eq_none_iff.mp ht v (mem_of_mem_filter hv) (of_decide_eq_true heq)
    simp [hnone]
  | some v =>
    by_cases hp : p v = true
    · have hfound : (t.entries.filter p).find? (fun v => key v = k) = some v :=
        find?_filter_of_find? ht hp
      simp [hfound, hp]
    · have hnone : (t.entries.filter p).find? (fun v => key v = k) = none := by
        refine List.find?_eq_none.mpr fun w hw heq => hp ?_
        obtain ⟨hmem, hpw⟩ := mem_filter.mp hw
        have hsame : w = v := t.eq_of_key_eq hmem (mem_of_get? ht)
          ((of_decide_eq_true heq).trans (key_of_get? ht).symm)
        exact hsame ▸ hpw
      simp [hnone, hp]

/-- The entries whose keys satisfy `q`. -/
def restrict (t : Table key) (q : K → Bool) : Table key :=
  ⟨t.entries.filter fun v => q (key v), t.keys_nodup.sublist (filter_sublist.map key)⟩

variable {q : K → Bool}

omit [DecidableEq K] in
theorem mem_restrict : v ∈ (t.restrict q).entries ↔ v ∈ t.entries ∧ q (key v) = true := mem_filter

theorem get?_restrict (hk : q k = true) : (t.restrict q).get? k = t.get? k := by
  cases h : t.get? k with
  | none =>
    rw [get?_eq_none_iff] at h ⊢
    exact fun v hv => h v (mem_restrict.mp hv).1
  | some v =>
    have hv := get?_eq_some_iff.mp h
    exact get?_eq_some_iff.mpr ⟨mem_restrict.mpr ⟨hv.1, by rw [hv.2]; exact hk⟩, hv.2⟩

omit [DecidableEq K] in
theorem restrict_congr {q' : K → Bool}
    (h : ∀ v ∈ t.entries, q (key v) = q' (key v)) : t.restrict q = t.restrict q' :=
  Table.ext (filter_congr h)

/-- Storing a value of another key is not seen in a restricted table. -/
theorem restrict_put_of_neg (hv : q (key v) = false) : (t.put v).restrict q = t.restrict q := by
  apply Table.ext
  by_cases h : t.contains (key v)
  · simp only [restrict, entries_put_of_contains h, replace]
    induction t.entries with
    | nil => rfl
    | cons w ws ih =>
      by_cases hw : key w = key v
      · simp [hw, hv, ih]
      · simp [hw, filter_cons, ih]
  · simp [restrict, entries_put_of_not_contains h, hv]

theorem restrict_put_of_pos (hv : q (key v) = true) :
    (t.put v).restrict q = (t.restrict q).put v := by
  apply Table.ext
  have hcontains : (t.restrict q).contains (key v) = t.contains (key v) := by
    rw [contains, get?_restrict hv, contains]
  by_cases h : t.contains (key v)
  · rw [entries_put_of_contains (hcontains.trans h)]
    simp only [restrict, entries_put_of_contains h, replace]
    induction t.entries with
    | nil => rfl
    | cons w ws ih =>
      by_cases hw : key w = key v
      · simp [hw, hv, ih]
      · by_cases hq : q (key w) = true <;> simp [hw, hq, ih]
  · rw [entries_put_of_not_contains (by rw [hcontains]; exact h)]
    simp [restrict, entries_put_of_not_contains h, hv]

theorem restrict_erase (t : Table key) (q : K → Bool) (k : K) :
    (t.erase k).restrict q = (t.restrict q).erase k := by
  apply Table.ext
  simp only [restrict, erase, filter_filter]
  exact filter_congr fun v _ => Bool.and_comm ..

/-- Storing an entry again changes nothing. -/
theorem put_of_get? (h : t.get? (key v) = some v) : t.put v = t := by
  apply Table.ext
  rw [entries_put_of_contains (by simp [contains, h]), replace]
  have hsame : ∀ w ∈ t.entries, (if key w = key v then v else w) = w := by
    intro w hw
    split_ifs with hk
    · exact t.eq_of_key_eq (mem_of_get? h) hw hk.symm
    · rfl
  rw [map_congr_left hsame, map_id']

theorem erase_of_get?_eq_none (h : t.get? k = none) : t.erase k = t :=
  Table.ext (filter_eq_self.mpr fun v hv => by simpa using get?_eq_none_iff.mp h v hv)

end Table

/-- A dictionary: key and value pairs, one per key, in insertion order. -/
abbrev Dict (K : Type u) (V : Type v) := Table (Prod.fst : K × V → K)

namespace Dict

variable {K : Type u} {V : Type v} [DecidableEq K]

variable (d : Dict K V)

def lookup (k : K) : Option V := (d.get? k).map Prod.snd

def set (k : K) (v : V) : Dict K V := d.put (k, v)

/-- The entries as an association list have the same values. -/
theorem lookup_entries (k : K) : d.entries.lookup k = d.lookup k := by
  obtain ⟨entries, hnodup⟩ := d
  simp only [lookup, Table.get?]
  clear hnodup
  induction entries with
  | nil => rfl
  | cons entry entries ih =>
    obtain ⟨key, v⟩ := entry
    by_cases hk : key = k
    · subst hk
      simp
    · have hne : (k == key) = false := by simpa using fun h : k = key => hk h.symm
      simp [lookup_cons, hne, hk, ih]

@[simp] theorem lookup_set_self (k : K) (v : V) : (d.set k v).lookup k = some v := by
  have h := Table.get?_put_self d (k, v)
  simp only at h
  simp [lookup, set, h]

theorem lookup_set_of_ne {k k' : K} (v : V) (h : k ≠ k') : (d.set k v).lookup k' = d.lookup k' := by
  simp only [lookup, set]
  rw [Table.get?_put_of_ne d (v := (k, v)) h]

theorem lookup_set (k k' : K) (v : V) :
    (d.set k v).lookup k' = if k = k' then some v else d.lookup k' := by
  by_cases h : k = k'
  · subst h; simp
  · simp [h, lookup_set_of_ne d v h]

theorem lookup_erase (k k' : K) :
    Dict.lookup (d.erase k) k' = if k = k' then none else d.lookup k' := by
  simp only [lookup]
  rw [Table.get?_erase]
  split <;> rfl

theorem lookup_erase_of_ne {k k' : K} (h : k ≠ k') : Dict.lookup (d.erase k) k' = d.lookup k' := by
  simp only [lookup]
  rw [Table.get?_erase_of_ne d h]

end Dict

end Newbro.Library
