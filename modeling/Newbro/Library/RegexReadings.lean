import Mathlib.Data.List.Forall2
import Newbro.Library.Regex

/-!
# What regular expressions read

The matches of an expression that does not look at its surroundings, as the texts that it reads
from a place on with the groups that it captures, whatever the order in which they are tried.
-/
namespace Newbro.Library
open List

/-- From the first place to the second, `text` is read and `groups` are captured, the latest
first. -/
structure Cursor.Reads (c : Cursor) (text : List Char) (groups : List (String × List Char))
    (next : Cursor) : Prop where
  rest : c.rest = text ++ next.rest
  previous : next.previous = text.getLast?.or c.previous
  groups : next.groups = groups ++ c.groups

namespace Cursor

/-- The place after the text. -/
def after (c : Cursor) (text : List Char) (groups : List (String × List Char))
    (rest : List Char) : Cursor where
  previous := text.getLast?.or c.previous
  rest := rest
  groups := groups ++ c.groups

variable {c : Cursor}

variable {text : List Char}

theorem reads_after {rest : List Char} (h : c.rest = text ++ rest)
    (groups : List (String × List Char)) : c.Reads text groups (c.after text groups rest) where
  rest := h
  previous := rfl
  groups := rfl

variable {next : Cursor}

theorem Reads.eq_after
    {groups : List (String × List Char)} (h : c.Reads text groups next) :
    next = c.after text groups next.rest := by
  obtain ⟨previous, rest, captured⟩ := next
  have hprevious : previous = text.getLast?.or c.previous := h.previous
  have hcaptured : captured = groups ++ c.groups := h.groups
  rw [hprevious, hcaptured]
  rfl

theorem Reads.refl (c : Cursor) : c.Reads [] [] c where
  rest := rfl
  previous := rfl
  groups := rfl

theorem Reads.eq_of_nil (h : c.Reads [] [] next) : next = c := by
  rw [h.eq_after, ← show c.rest = next.rest from h.rest]
  rfl

variable {u v : List Char} {g h : List (String × List Char)}

theorem Reads.trans {m : Cursor}
    (hu : c.Reads u g m) (hv : m.Reads v h next) : c.Reads (u ++ v) (h ++ g) next where
  rest := by rw [hu.rest, hv.rest, append_assoc]
  previous := by rw [hv.previous, hu.previous, List.getLast?_append, Option.or_assoc]
  groups := by rw [hv.groups, hu.groups, append_assoc]

/-- A longer reading goes through the place after its first part. -/
theorem Reads.split
    (hr : c.Reads (u ++ v) (h ++ g) next) : ∃ m, c.Reads u g m ∧ m.Reads v h next := by
  have hrest : c.rest = u ++ (v ++ next.rest) := by rw [hr.rest, append_assoc]
  refine ⟨c.after u g (v ++ next.rest), reads_after hrest g, ?_⟩
  constructor
  · rfl
  · rw [hr.previous, List.getLast?_append, Option.or_assoc]
    rfl
  · rw [hr.groups, append_assoc]
    rfl

end Cursor

namespace Regex

variable {isWord : Char → Bool}

/-- Texts with the groups captured on the way. -/
abbrev Language := List Char → List (String × List Char) → Prop

/-- What an expression reads at any place is the language. -/
def Recognizes (isWord : Char → Bool) (r : Regex) (L : Language) : Prop :=
  ∀ c next, next ∈ r.run isWord c ↔ ∃ text groups, L text groups ∧ c.Reads text groups next

/-- One character of a class. -/
def charOf (accepts : Char → Prop) : Language := fun text groups =>
  groups = [] ∧ ∃ d, accepts d ∧ text = [d]

variable {r : Regex} {L M : Language}

theorem Recognizes.congr (h : Recognizes isWord r L)
    (hLM : ∀ text groups, L text groups ↔ M text groups) : Recognizes isWord r M := by
  intro c next
  simp only [h c next, hLM]

variable {s : Regex}

theorem Recognizes.seq (hr : Recognizes isWord r L)
    (hs : Recognizes isWord s M) :
    Recognizes isWord (r.seq s) fun text groups =>
      ∃ u g v h, L u g ∧ M v h ∧ text = u ++ v ∧ groups = h ++ g := by
  intro c next
  rw [run, mem_flatMap]
  constructor
  · rintro ⟨m, hm, hnext⟩
    obtain ⟨u, g, hL, hu⟩ := (hr c m).mp hm
    obtain ⟨v, h, hM, hv⟩ := (hs m next).mp hnext
    exact ⟨u ++ v, h ++ g, ⟨u, g, v, h, hL, hM, rfl, rfl⟩, hu.trans hv⟩
  · rintro ⟨_, _, ⟨u, g, v, h, hL, hM, rfl, rfl⟩, hread⟩
    obtain ⟨m, hu, hv⟩ := hread.split
    exact ⟨m, (hr c m).mpr ⟨u, g, hL, hu⟩, (hs m next).mpr ⟨v, h, hM, hv⟩⟩

theorem Recognizes.either (hr : Recognizes isWord r L)
    (hs : Recognizes isWord s M) :
    Recognizes isWord (r.either s) fun text groups => L text groups ∨ M text groups := by
  intro c next
  rw [run, mem_append, hr c next, hs c next]
  constructor
  · rintro (⟨text, groups, h, hread⟩ | ⟨text, groups, h, hread⟩)
    · exact ⟨text, groups, Or.inl h, hread⟩
    · exact ⟨text, groups, Or.inr h, hread⟩
  · rintro ⟨text, groups, h | h, hread⟩
    · exact Or.inl ⟨text, groups, h, hread⟩
    · exact Or.inr ⟨text, groups, h, hread⟩

theorem Recognizes.group (hr : Recognizes isWord r L)
    (name : String) :
    Recognizes isWord (r.group name) fun text groups =>
      ∃ g, L text g ∧ groups = (name, text) :: g := by
  intro c next
  rw [run, mem_map]
  constructor
  · rintro ⟨m, hm, rfl⟩
    obtain ⟨text, g, hL, hread⟩ := (hr c m).mp hm
    have htext : c.rest.take (c.rest.length - m.rest.length) = text := by
      have hlength : c.rest.length - m.rest.length = text.length := by
        rw [hread.rest, length_append]
        omega
      rw [hlength, hread.rest, take_left']
      rfl
    refine ⟨text, (name, text) :: g, ⟨g, hL, rfl⟩, ?_⟩
    rw [htext]
    exact ⟨hread.rest, hread.previous, by rw [hread.groups, cons_append]⟩
  · rintro ⟨text, _, ⟨g, hL, rfl⟩, hread⟩
    refine ⟨c.after text g next.rest, ?_, ?_⟩
    · exact (hr c _).mpr ⟨text, g, hL, Cursor.reads_after hread.rest g⟩
    · have htext : c.rest.take (c.rest.length - next.rest.length) = text := by
        have hlength : c.rest.length - next.rest.length = text.length := by
          rw [hread.rest, length_append]
          omega
        rw [hlength, hread.rest, take_left']
        rfl
      rw [show (c.after text g next.rest).rest = next.rest from rfl, htext]
      exact hread.eq_after.symm

variable {accepts : Char → Prop}

/-- Zero or more characters of a class, whichever number is tried first. -/
theorem Recognizes.many
    (hr : Recognizes isWord r (charOf accepts)) (greedy : Bool) :
    Recognizes isWord (r.many greedy) fun text groups => groups = [] ∧ ∀ d ∈ text, accepts d := by
  have hmem : ∀ n c next, c.rest.length ≤ n →
      (next ∈ repeatedly greedy (r.run isWord) n c ↔
        ∃ text, (∀ d ∈ text, accepts d) ∧ c.Reads text [] next) := by
    intro n
    induction n with
    | zero =>
      intro c next hn
      have hc : c.rest = [] := length_eq_zero_iff.mp (by omega)
      rw [repeatedly, mem_singleton]
      constructor
      · rintro rfl
        exact ⟨[], by simp, Cursor.Reads.refl next⟩
      · rintro ⟨text, -, hread⟩
        have hrest := hread.rest
        rw [hc] at hrest
        obtain ⟨rfl, -⟩ := nil_eq_append_iff.mp hrest
        exact hread.eq_of_nil
    | succ n ih =>
      intro c next hn
      have hiff : next ∈ repeatedly greedy (r.run isWord) (n + 1) c ↔
          next = c ∨ ∃ m ∈ r.run isWord c, m.rest.length < c.rest.length ∧
            next ∈ repeatedly greedy (r.run isWord) n m := by
        rw [repeatedly]
        cases greedy with
        | false => simp [and_assoc]
        | true => simp [and_assoc, or_comm]
      rw [hiff]
      constructor
      · rintro (rfl | ⟨m, hm, hlt, hnext⟩)
        · exact ⟨[], by simp, Cursor.Reads.refl next⟩
        · obtain ⟨_, _, ⟨rfl, d, hd, rfl⟩, hstep⟩ := (hr c m).mp hm
          obtain ⟨text, htext, hread⟩ := (ih m next (by omega)).mp hnext
          refine ⟨d :: text, ?_, hstep.trans hread⟩
          intro e he
          rcases mem_cons.mp he with rfl | he
          · exact hd
          · exact htext e he
      · rintro ⟨text, htext, hread⟩
        cases text with
        | nil =>
          left
          exact hread.eq_of_nil
        | cons d text =>
          right
          have hsplit : c.Reads ([d] ++ text) ([] ++ []) next := hread
          obtain ⟨m, hstep, hlast⟩ := hsplit.split
          have hd : accepts d := htext d (mem_cons_self ..)
          have hlt : m.rest.length < c.rest.length := by
            rw [hstep.rest]
            simp
          refine ⟨m, (hr c m).mpr ⟨[d], [], ⟨rfl, d, hd, rfl⟩, hstep⟩, hlt, ?_⟩
          exact (ih m next (by omega)).mpr
            ⟨text, fun e he => htext e (mem_cons_of_mem _ he), hlast⟩
  intro c next
  rw [run, hmem _ c next (Nat.le_refl _)]
  constructor
  · rintro ⟨text, htext, hread⟩
    exact ⟨text, [], ⟨rfl, htext⟩, hread⟩
  · rintro ⟨text, _, ⟨rfl, htext⟩, hread⟩
    exact ⟨text, htext, hread⟩

/-- One or more characters of a class. -/
theorem Recognizes.some
    (hr : Recognizes isWord r (charOf accepts)) (greedy : Bool) :
    Recognizes isWord (r.seq (r.many greedy)) fun text groups =>
      groups = [] ∧ text ≠ [] ∧ ∀ d ∈ text, accepts d := by
  refine (hr.seq (hr.many greedy)).congr ?_
  intro text groups
  constructor
  · rintro ⟨_, _, v, _, ⟨rfl, d, hd, rfl⟩, ⟨rfl, hv⟩, rfl, rfl⟩
    refine ⟨rfl, by simp, ?_⟩
    intro e he
    rcases mem_cons.mp he with rfl | he
    · exact hd
    · exact hv e he
  · rintro ⟨rfl, hne, htext⟩
    cases text with
    | nil => exact absurd rfl hne
    | cons d text =>
      exact ⟨[d], [], text, [], ⟨rfl, d, htext d (mem_cons_self ..), rfl⟩,
        ⟨rfl, fun e he => htext e (mem_cons_of_mem _ he)⟩, rfl, rfl⟩

variable {rs : List Regex}

variable {c : Cursor}

end Regex

end Newbro.Library
