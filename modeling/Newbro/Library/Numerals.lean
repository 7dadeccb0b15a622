import Newbro.Library.Lines

/-!
# Numerals

What Python's `int` and `float` accept. The texts have no white space at their ends; the decimal
digits outside of ASCII are a parameter.
-/
namespace Newbro.Library.Text

/-- The text that `int` and `float` look at: every decimal digit is an ASCII digit, and other
characters outside of ASCII fit nowhere. -/
def transformDecimal (decimal : Char → Option (Fin 10)) (text : List Char) : List Char :=
  text.map fun c =>
    if c.toNat < 128 then c
    else
      match decimal c with
      | some digit => Nat.digitChar digit
      | none => '?'

/-- Digits, perhaps with single underscores between them. -/
def isDigits : List Char → Bool
  | [] => false
  | [c] => c.isDigit
  | c :: '_' :: rest => c.isDigit && isDigits rest
  | c :: rest => c.isDigit && isDigits rest

/-- Whether there is a minus sign, and the text without its sign. -/
def splitSign : List Char → Bool × List Char
  | '-' :: rest => (true, rest)
  | '+' :: rest => (false, rest)
  | text => (false, text)

variable (text : List Char)

/-- `int(text)`, which refuses more than 4300 digits. -/
def readInt : Option Int :=
  let signed := splitSign text
  let digits := signed.2.filter (· ≠ '_')
  if isDigits signed.2 = true ∧ digits.length ≤ 4300 then
    let n : Int := Nat.ofDigitChars 10 digits 0
    some (if signed.1 = true then -n else n)
  else none

/-- `digits.digits`, where one of the two may be missing. -/
def isDecimal : Bool :=
  if '.' ∈ text then
    let whole := text.takeWhile (· ≠ '.')
    let fraction := (text.dropWhile (· ≠ '.')).tail
    (whole = [] || isDigits whole) && (fraction = [] || isDigits fraction) &&
      !(whole = [] && fraction = [])
  else isDigits text

def isExponentMark (c : Char) : Bool := c = 'e' || c = 'E'

/-- Whether `float(text)` succeeds. -/
def isFloat : Bool :=
  let body := (splitSign text).2
  let mantissa := body.takeWhile fun c => !isExponentMark c
  let lowered := body.map Char.toLower
  lowered = "inf".toList || lowered = "infinity".toList || lowered = "nan".toList ||
    (isDecimal mantissa &&
      match body.dropWhile fun c => !isExponentMark c with
      | [] => true
      | _ :: exponent => isDigits (splitSign exponent).2)

end Newbro.Library.Text
