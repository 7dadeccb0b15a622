import Mathlib.Init

/-!
# Text as Python handles it

The white space that `str.strip` removes, and the `text or default` idiom on an
optional string.
-/
namespace Newbro.Library.Text

/-- The characters for which `str.isspace` holds. -/
def isSpace (c : Char) : Bool :=
  let n := c.toNat
  (0x09 ≤ n && n ≤ 0x0d) || (0x1c ≤ n && n ≤ 0x20) || n == 0x85 || n == 0xa0 || n == 0x1680 ||
    (0x2000 ≤ n && n ≤ 0x200a) || n == 0x2028 || n == 0x2029 || n == 0x202f || n == 0x205f ||
    n == 0x3000

variable (text : String)

/-- `text.strip()` -/
def strip : String :=
  String.ofList ((text.toList.dropWhile isSpace).reverse.dropWhile isSpace).reverse

/-- An optional text that is present and not blank: `isinstance(m, str) and m.strip()`. -/
def stripped? : Option String → Option String
  | none => none
  | some text => if strip text = "" then none else some (strip text)

/-- `text or default`, where an empty text counts as absent. -/
def orElse (text : Option String) (default : String) : String :=
  match text with
  | none => default
  | some text => if text = "" then default else text

/-- `text[-count:]` for a positive count. -/
def lastChars (count : Nat) (text : String) : String :=
  String.ofList (text.toList.drop (text.toList.length - count))

/-- `text.lstrip()` -/
def lstrip : String := String.ofList (text.toList.dropWhile isSpace)

/-- `text.split()` -/
def words : List String :=
  ((text.toList.splitOnP isSpace).filter fun word => !word.isEmpty).map String.ofList

/-- `text.rstrip(chars)` -/
def rstripChars (chars : List Char) (text : String) : String :=
  String.ofList (text.toList.reverse.dropWhile chars.contains).reverse

/-- `text.rstrip()` -/
def rstrip : String :=
  String.ofList (text.toList.reverse.dropWhile isSpace).reverse

/-- `text[:count]` -/
def firstChars (count : Nat) (text : String) : String := String.ofList (text.toList.take count)

/-- `text.startswith(start)` -/
def startsWith (start : String) : Bool := start.toList.isPrefixOf text.toList

/-- A statement about the characters of a text is decided by walking over the text, not over the
finite type of all characters. -/
instance (priority := 1100) decidableForallMem {p : Char → Prop} [DecidablePred p]
    (text : List Char) : Decidable (∀ c ∈ text, p c) :=
  List.decidableBAll p text

theorem toNat_of_isAlphanum {c : Char} (h : c.isAlphanum = true) :
    48 ≤ c.toNat ∧ c.toNat ≤ 122 := by
  delta Char.isAlphanum Char.isAlpha Char.isUpper Char.isLower Char.isDigit at h
  simp only [Bool.or_eq_true, Bool.and_eq_true, decide_eq_true_eq] at h
  rcases h with (⟨hl, hh⟩ | ⟨hl, hh⟩) | ⟨hl, hh⟩
  · have hl : 65 ≤ c.toNat := hl
    have hh : c.toNat ≤ 90 := hh
    omega
  · have hl : 97 ≤ c.toNat := hl
    have hh : c.toNat ≤ 122 := hh
    omega
  · have hl : 48 ≤ c.toNat := hl
    have hh : c.toNat ≤ 57 := hh
    omega

end Newbro.Library.Text
