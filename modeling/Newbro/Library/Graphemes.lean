import Mathlib.Data.List.Basic

/-!
# Extended grapheme clusters

The boundaries of Unicode's text segmentation between the user-perceived characters of a text.
What the rules ask about a scalar is read from tables, of which only the printable ASCII
scalars are known here. Between an ASCII scalar and a scalar that does not join it there is
always a boundary, and what stands before it does not matter for what comes after.
-/
namespace Newbro.Library

/-- The values of `Grapheme_Cluster_Break`. -/
inductive GraphemeBreak where
  | cr | lf | control | extend | zwj | regionalIndicator | prepend | spacingMark
  | l | v | t | lv | lvt | other
  deriving Repr, DecidableEq

/-- The values of `Indic_Conjunct_Break`. -/
inductive ConjunctBreak where
  | none | linker | consonant | extend
  deriving Repr, DecidableEq

/-- A printable scalar of ASCII. -/
def isPrintableAscii (c : Char) : Bool := 0x20 ≤ c.toNat && c.toNat ≤ 0x7e

/-- The tables of the Unicode Character Database. -/
structure SegmentationTables where
  graphemeBreak : Char → GraphemeBreak
  conjunctBreak : Char → ConjunctBreak
  /-- `Extended_Pictographic` -/
  pictographic : Char → Bool
  whiteSpace : Char → Bool
  graphemeBreak_ascii : ∀ c, isPrintableAscii c = true → graphemeBreak c = .other
  conjunctBreak_ascii : ∀ c, isPrintableAscii c = true → conjunctBreak c = .none
  pictographic_ascii : ∀ c, isPrintableAscii c = true → pictographic c = false
  whiteSpace_ascii : ∀ c, isPrintableAscii c = true → whiteSpace c = decide (c = ' ')

/-- How far a pictographic sequence has come. -/
inductive Emoji where
  | none | pictographic | joined
  deriving Repr, DecidableEq

/-- How far a conjunct has come. -/
inductive Conjunct where
  | none | consonant | linked
  deriving Repr, DecidableEq

/-- What the rules ask about the scalars before a position. -/
structure SegmentationContext where
  previous : GraphemeBreak := .other
  emoji : Emoji := .none
  conjunct : Conjunct := .none
  /-- An odd number of regional indicators precedes. -/
  oddIndicators : Bool := false
  deriving Repr, DecidableEq

namespace SegmentationTables

variable (tables : SegmentationTables)

def nextEmoji (emoji : Emoji) (c : Char) : Emoji :=
  if tables.pictographic c then .pictographic
  else
    match emoji, tables.graphemeBreak c with
    | .pictographic, .extend => .pictographic
    | .pictographic, .zwj => .joined
    | _, _ => .none

def nextConjunct (conjunct : Conjunct) (c : Char) : Conjunct :=
  match tables.conjunctBreak c, conjunct with
  | .consonant, _ => .consonant
  | .linker, .consonant => .linked
  | .linker, .linked => .linked
  | .extend, conjunct => conjunct
  | _, _ => .none

variable (context : SegmentationContext)

def advance (c : Char) : SegmentationContext :=
  { previous := tables.graphemeBreak c
    emoji := tables.nextEmoji context.emoji c
    conjunct := tables.nextConjunct context.conjunct c
    oddIndicators := tables.graphemeBreak c = .regionalIndicator && !context.oddIndicators }

/-- Rules GB3 to GB999: whether there is a boundary before a scalar. -/
def breaksBefore (c : Char) : Bool :=
  match context.previous, tables.graphemeBreak c with
  | .cr, .lf => false
  | .cr, _ | .lf, _ | .control, _ => true
  | _, .cr | _, .lf | _, .control => true
  | .l, .l | .l, .v | .l, .lv | .l, .lvt => false
  | .lv, .v | .lv, .t | .v, .v | .v, .t => false
  | .lvt, .t | .t, .t => false
  | _, .extend | _, .zwj | _, .spacingMark => false
  | .prepend, _ => false
  | previous, next =>
    !(context.conjunct = .linked && tables.conjunctBreak c = .consonant) &&
      !(context.emoji = .joined && tables.pictographic c) &&
      !(previous = .regionalIndicator && next = .regionalIndicator && context.oddIndicators)

/-- The rest of a text, with the scalars of the cluster that is open. -/
def collect (cluster : List Char) (context : SegmentationContext) : List Char → List (List Char)
  | [] => [cluster]
  | c :: rest =>
    if tables.breaksBefore context c then cluster :: collect [c] (tables.advance context c) rest
    else collect (cluster ++ [c]) (tables.advance context c) rest

/-- The extended grapheme clusters of a text. -/
def characters : List Char → List (List Char)
  | [] => []
  | c :: rest => tables.collect [c] (tables.advance {} c) rest

/-- A scalar that is never first in a cluster after another: `Extend`, `ZWJ`, `SpacingMark`. -/
def joinsPrevious (c : Char) : Bool :=
  match tables.graphemeBreak c with
  | .extend | .zwj | .spacingMark => true
  | _ => false

/-- A scalar that is never last in a cluster before another. -/
def joinsNext (c : Char) : Bool := tables.graphemeBreak c = .prepend

/-! ## Boundaries at ASCII scalars -/

variable {tables}

variable {c : Char}

theorem joinsPrevious_ascii (h : isPrintableAscii c = true) : tables.joinsPrevious c = false := by
  simp [joinsPrevious, tables.graphemeBreak_ascii c h]

theorem joinsNext_ascii (h : isPrintableAscii c = true) : tables.joinsNext c = false := by
  simp [joinsNext, tables.graphemeBreak_ascii c h]

/-- After an ASCII scalar the rules have nothing to remember. -/
theorem advance_ascii (h : isPrintableAscii c = true) : tables.advance context c = {} := by
  have hbreak := tables.graphemeBreak_ascii c h
  have hconjunct := tables.conjunctBreak_ascii c h
  have hpictographic := tables.pictographic_ascii c h
  simp [advance, nextEmoji, nextConjunct, hbreak, hconjunct, hpictographic]

/-- There is a boundary after an ASCII scalar, unless the next one joins it. -/
theorem breaksBefore_start (h : tables.joinsPrevious c = false) :
    tables.breaksBefore {} c = true := by
  unfold joinsPrevious at h
  unfold breaksBefore
  cases hbreak : tables.graphemeBreak c <;> simp_all

/-- There is one before it, unless it is joined. -/
theorem breaksBefore_ascii
    (h : isPrintableAscii c = true) (hprevious : context.previous ≠ .prepend) :
    tables.breaksBefore context c = true := by
  have hbreak := tables.graphemeBreak_ascii c h
  have hconjunct := tables.conjunctBreak_ascii c h
  have hpictographic := tables.pictographic_ascii c h
  unfold breaksBefore
  cases hprev : context.previous <;> simp_all

variable {rest : List Char}

/-- At a boundary the clusters on the left end, and those on the right are found without
looking left. -/
theorem collect_append (text cluster : List Char) (context : SegmentationContext)
    (hbreak : tables.breaksBefore (text.foldl tables.advance context) c = true)
    (hforget : tables.advance (text.foldl tables.advance context) c = tables.advance {} c) :
    tables.collect cluster context (text ++ c :: rest) =
      tables.collect cluster context text ++ tables.characters (c :: rest) := by
  induction text generalizing cluster context with
  | nil =>
    have hb : tables.breaksBefore context c = true := hbreak
    have hf : tables.advance context c = tables.advance {} c := hforget
    simp [collect, characters, hb, hf]
  | cons first text ih =>
    simp only [List.cons_append, collect]
    split
    · rw [ih [first] _ hbreak hforget, List.cons_append]
    · exact ih _ _ hbreak hforget

theorem characters_append (text : List Char)
    (hbreak : tables.breaksBefore (text.foldl tables.advance {}) c = true)
    (hforget : tables.advance (text.foldl tables.advance {}) c = tables.advance {} c) :
    tables.characters (text ++ c :: rest) =
      tables.characters text ++ tables.characters (c :: rest) := by
  cases text with
  | nil => rfl
  | cons first text => exact collect_append text [first] _ hbreak hforget

variable {text : List Char}

theorem previous_foldl_advance {last : Char} (h : text.getLast? = some last)
    (context : SegmentationContext) :
    (text.foldl tables.advance context).previous = tables.graphemeBreak last := by
  obtain ⟨before, rfl⟩ := List.getLast?_eq_some_iff.mp h
  rw [List.foldl_append]
  rfl

/-- An ASCII scalar is a cluster of its own between texts that do not join it. -/
theorem characters_append_ascii (hc : isPrintableAscii c = true)
    (htext : ∀ last ∈ text.getLast?, tables.joinsNext last = false)
    (hrest : ∀ first ∈ rest.head?, tables.joinsPrevious first = false) :
    tables.characters (text ++ c :: rest) =
      tables.characters text ++ [c] :: tables.characters rest := by
  have hright : tables.characters (c :: rest) = [c] :: tables.characters rest := by
    cases rest with
    | nil => rfl
    | cons first rest =>
      have hfirst := breaksBefore_start (hrest first rfl)
      have hall := @characters_append tables first rest [c]
      simp only [List.foldl_cons, List.foldl_nil, advance_ascii _ hc] at hall
      exact hall hfirst trivial
  rw [← hright]
  refine characters_append text ?_ ?_
  · refine breaksBefore_ascii _ hc ?_
    cases hlast : text.getLast? with
    | none =>
      rw [List.getLast?_eq_none_iff.mp hlast]
      intro hprevious
      cases hprevious
    | some last =>
      rw [previous_foldl_advance hlast]
      simpa [joinsNext] using htext last hlast
  · rw [advance_ascii _ hc, advance_ascii _ hc]

/-- The clusters are those of the text, in order. -/
theorem flatten_collect (text cluster : List Char) (context : SegmentationContext) :
    (tables.collect cluster context text).flatten = cluster ++ text := by
  induction text generalizing cluster context with
  | nil => simp [collect]
  | cons first text ih =>
    simp only [collect]
    split
    · rw [List.flatten_cons, ih, List.singleton_append]
    · rw [ih, List.append_assoc, List.singleton_append]

theorem flatten_characters (text : List Char) : (tables.characters text).flatten = text := by
  cases text with
  | nil => rfl
  | cons first text => exact flatten_collect text [first] _

/-- A text of printable ASCII has one cluster for each scalar. -/
theorem characters_of_ascii (h : ∀ c ∈ text, isPrintableAscii c = true) :
    tables.characters text = text.map ([·]) := by
  induction text with
  | nil => rfl
  | cons first text ih =>
    have hfirst := h first List.mem_cons_self
    have hrest : ∀ c ∈ text, isPrintableAscii c = true :=
      fun c hmem => h c (List.mem_cons_of_mem _ hmem)
    have hsplit : tables.characters ([] ++ first :: text) =
        tables.characters [] ++ [first] :: tables.characters text :=
      characters_append_ascii hfirst (fun _ hlast => by cases hlast)
        fun c hhead => joinsPrevious_ascii (hrest c (List.mem_of_mem_head? hhead))
    rw [ih hrest] at hsplit
    exact hsplit

end SegmentationTables

end Newbro.Library
