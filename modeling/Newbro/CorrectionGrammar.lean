import Mathlib
import Newbro.CorrectionTexts
import Newbro.Library.RegexReadings

/-!
# The grammar of replacements

What `_parse_generic_correction` makes of `verb [cue] old separator new`. The expression names its
cue `cue`, but where a sentence has none, the code asks the match for a group `old_cue`, which
does not exist.
-/
namespace Newbro.Corrections

open Library Library.Text List

/-! ## Sentences -/

def verbs : List String := ["change", "replace", "switch"]

def separators : List String := ["to", "with", "for"]

/-- A word of a value: ASCII letters and hyphens, and not a word of the grammar. -/
structure ValueWord where
  text : String
  ne_empty : text.toList ≠ []
  plain : ∀ c ∈ text.toList, c.isAlpha = true ∨ c = '-'
  free : text.toLower ∉ cues ++ separators

/-- A sentence that asks for a replacement, in any letter case. -/
structure Replacement where
  verb : String
  cue : Option String
  old : List ValueWord
  separator : String
  new : List ValueWord
  verb_mem : verb.toLower ∈ verbs
  cue_mem : ∀ c ∈ cue, c.toLower ∈ cues
  old_ne_nil : old ≠ []
  separator_mem : separator.toLower ∈ separators
  new_ne_nil : new ≠ []

variable (value : List ValueWord)

def said : String := " ".intercalate (value.map ValueWord.text)

namespace Replacement

def words (r : Replacement) : List String :=
  r.verb :: r.cue.toList ++ r.old.map ValueWord.text ++
    r.separator :: r.new.map ValueWord.text

/-- The group that a cue stands for. -/
def group (r : Replacement) : Option SlotGroup :=
  r.cue.map fun cue => if cue.toLower = "from" then .origin else .destination

/-- What the sentence asks for. -/
def meant (tables : Casing) (r : Replacement) : CorrectionIntent where
  newValue := titleCaseLocation tables (said r.new)
  oldValue := some (titleCaseLocation tables (said r.old))
  targetGroup := r.group

end Replacement

def letters : List Char := "abcdefghijklmnopqrstuvwxyz".toList

variable {c : Char}

variable {text : List Char}

section characters

variable (tables : Casing)

end characters

/-! ## Words -/

/-- The words with a blank between them. -/
def spaced (ws : List (List Char)) : List Char := [' '].intercalate ws

variable {ws : List (List Char)}

def lowered (w : String) : List Char := w.toLower.toList

namespace Replacement

variable (r : Replacement)

end Replacement

variable {texts : List String} {w : String}

section readings

variable (tables : Casing)

end readings

/-! ## How a sentence can be split -/

/-- Words that the expression takes for a value. -/
def Fits (ws : List (List Char)) : Prop :=
  ∃ c d rest, spaced ws = c :: d :: rest ∧ c ∈ letters

variable {next : Cursor}

section splits

variable (tables : Casing)

end splits

/-! ## The first match -/

namespace Replacement

variable (r : Replacement)

/-- The words after the verb. -/
def values : List (List Char) :=
  r.cue.toList.map lowered ++
    ((r.old.map fun w => lowered w.text) ++
      lowered r.separator :: r.new.map fun w => lowered w.text)

end Replacement

section first

variable (tables : Casing) (r : Replacement)

end first

/-! ## Readings with a cue -/

section cued

variable (tables : Casing) {c next : Cursor} {ws : List (List Char)}

end cued

/-! ## What comes of a sentence -/

section outcome

variable (tables : Casing) (r : Replacement)

end outcome

end Newbro.Corrections
