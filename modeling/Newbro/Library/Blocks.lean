import Newbro.Library.Numerals

/-!
# Values of YAML documents

What a document in block style stands for: scalars, lists and mappings, and what holds of every
text in such a value.
-/
namespace Newbro.Library.Blocks

open Text

/-- What a document stands for. A float is kept as its text; `other` is what has no place here, such
as a date or a mapping with a key that is no text. -/
inductive Value where
  | null
  | bool (b : Bool)
  | int (n : Int)
  | float (text : List Char)
  | str (text : List Char)
  | list (items : List Value)
  | dict (entries : List (List Char × Value))
  | other (text : List Char)

abbrev Entries := List (List Char × Value)

/-- Every text in a value is of one line, and every key of a mapping satisfies `P`. -/
inductive Value.Made (P : List Char → Prop) : Value → Prop
  | null : Value.Made P .null
  | bool (b : Bool) : Value.Made P (.bool b)
  | int (n : Int) : Value.Made P (.int n)
  | float (text : List Char) : Value.Made P (.float text)
  | str {text : List Char} (h : ∀ c ∈ text, isLineBreak c = false) : Value.Made P (.str text)
  | list {items : List Value} (h : ∀ item ∈ items, item.Made P) : Value.Made P (.list items)
  | dict {entries : Entries} (hkey : ∀ entry ∈ entries, P entry.1)
      (hvalue : ∀ entry ∈ entries, entry.2.Made P) : Value.Made P (.dict entries)

def pad (indent : Nat) : List Char := List.replicate indent ' '

/-- No character at which a line ends. -/
def Free (text : List Char) : Prop := ∀ c ∈ text, isLineBreak c = false

end Newbro.Library.Blocks
