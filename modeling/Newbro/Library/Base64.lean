import Mathlib.Init

/-!
# Base64

`base64.b64encode` and `base64.b64decode` on a text. The decoder passes over what is not a digit,
stops at padding that completes a group of four, and fails on a group that is left open.
-/
namespace Newbro.Library.Base64

def alphabet : List Char :=
  "ABCDEFGHIJKLMNOPQRSTUVWXYZabcdefghijklmnopqrstuvwxyz0123456789+/".toList

/-- The digit of six bits. -/
def digit (n : Nat) : Char := alphabet.getD n '='

/-- The six bits that a character stands for. -/
def value (c : Char) : Option Nat :=
  let n := c.toNat
  if 65 ≤ n ∧ n ≤ 90 then some (n - 65)
  else if 97 ≤ n ∧ n ≤ 122 then some (n - 71)
  else if 48 ≤ n ∧ n ≤ 57 then some (n + 4)
  else if c = '+' then some 62
  else if c = '/' then some 63
  else none

/-- `base64.b64encode` -/
def encode : List UInt8 → List Char
  | [] => []
  | [a] => [digit (a.toNat / 4), digit (a.toNat % 4 * 16), '=', '=']
  | [a, b] =>
    [digit (a.toNat / 4), digit (a.toNat % 4 * 16 + b.toNat / 16), digit (b.toNat % 16 * 4), '=']
  | a :: b :: c :: rest =>
    digit (a.toNat / 4) :: digit (a.toNat % 4 * 16 + b.toNat / 16) ::
      digit (b.toNat % 16 * 4 + c.toNat / 64) :: digit (c.toNat % 64) :: encode rest

/-- `binascii.a2b_base64` from a place on: how many digits of the group have been read, the bits
of the last one that are left, and how much padding has been seen since. -/
@[grind =] def decodeFrom (quadPos left pads : Nat) : List Char → Option (List UInt8)
  | [] => if quadPos = 0 then some [] else none
  | c :: rest =>
    if c = '=' then
      if 2 ≤ quadPos then
        if 4 ≤ quadPos + (pads + 1) then some [] else decodeFrom quadPos left (pads + 1) rest
      else decodeFrom quadPos left pads rest
    else
      match value c with
      | none => decodeFrom quadPos left pads rest
      | some bits =>
        match quadPos with
        | 0 => decodeFrom 1 bits 0 rest
        | 1 => (decodeFrom 2 (bits % 16) 0 rest).map (UInt8.ofNat (left * 4 + bits / 16) :: ·)
        | 2 => (decodeFrom 3 (bits % 4) 0 rest).map (UInt8.ofNat (left * 16 + bits / 4) :: ·)
        | _ => (decodeFrom 0 0 0 rest).map (UInt8.ofNat (left * 64 + bits) :: ·)

/-- `base64.b64decode`; a text with other characters than ASCII is refused. -/
def decode (text : List Char) : Option (List UInt8) :=
  if text.all fun c => c.toNat < 128 then decodeFrom 0 0 0 text else none

/-- A digit is read as what it stands for. -/
theorem value_digit :
    ∀ n < 64, value (digit n) = some n ∧ digit n ≠ '=' ∧ (digit n).toNat < 128 := by
  decide +kernel

section Digits

variable {n : Nat} (hn : n < 64) (left : Nat) (rest : List Char)

include hn

theorem decodeFrom_zero : decodeFrom 0 left 0 (digit n :: rest) = decodeFrom 1 n 0 rest := by
  obtain ⟨hvalue, hne, -⟩ := value_digit n hn
  rw [decodeFrom, if_neg hne, hvalue]
  rfl

theorem decodeFrom_one : decodeFrom 1 left 0 (digit n :: rest) =
    (decodeFrom 2 (n % 16) 0 rest).map (UInt8.ofNat (left * 4 + n / 16) :: ·) := by
  obtain ⟨hvalue, hne, -⟩ := value_digit n hn
  rw [decodeFrom, if_neg hne, hvalue]
  rfl

theorem decodeFrom_two : decodeFrom 2 left 0 (digit n :: rest) =
    (decodeFrom 3 (n % 4) 0 rest).map (UInt8.ofNat (left * 16 + n / 4) :: ·) := by
  obtain ⟨hvalue, hne, -⟩ := value_digit n hn
  rw [decodeFrom, if_neg hne, hvalue]
  rfl

theorem decodeFrom_three : decodeFrom 3 left 0 (digit n :: rest) =
    (decodeFrom 0 0 0 rest).map (UInt8.ofNat (left * 64 + n) :: ·) := by
  obtain ⟨hvalue, hne, -⟩ := value_digit n hn
  rw [decodeFrom, if_neg hne, hvalue]
  rfl

end Digits

theorem ofNat_eq {a : UInt8} {n : Nat} (h : n = a.toNat) : UInt8.ofNat n = a := by
  rw [h, UInt8.ofNat_toNat]

variable (bytes : List UInt8)

theorem decodeFrom_encode : decodeFrom 0 0 0 (encode bytes) = some bytes := by
  induction bytes using encode.induct with
  | case1 => rfl
  | case2 a =>
    have ha := a.toNat_lt
    have hfirst : UInt8.ofNat (a.toNat / 4 * 4 + a.toNat % 4 * 16 / 16) = a := ofNat_eq (by omega)
    rw [encode, decodeFrom_zero (by omega), decodeFrom_one (by omega), hfirst]
    simp [decodeFrom]
  | case3 a b =>
    have ha := a.toNat_lt
    have hb := b.toNat_lt
    have hfirst : UInt8.ofNat (a.toNat / 4 * 4 + (a.toNat % 4 * 16 + b.toNat / 16) / 16) = a :=
      ofNat_eq (by omega)
    have hsecond : UInt8.ofNat ((a.toNat % 4 * 16 + b.toNat / 16) % 16 * 16 +
        b.toNat % 16 * 4 / 4) = b := ofNat_eq (by omega)
    rw [encode, decodeFrom_zero (by omega), decodeFrom_one (by omega), decodeFrom_two (by omega),
      hfirst, hsecond]
    simp [decodeFrom]
  | case4 a b c rest ih =>
    have ha := a.toNat_lt
    have hb := b.toNat_lt
    have hc := c.toNat_lt
    have hfirst : UInt8.ofNat (a.toNat / 4 * 4 + (a.toNat % 4 * 16 + b.toNat / 16) / 16) = a :=
      ofNat_eq (by omega)
    have hsecond : UInt8.ofNat ((a.toNat % 4 * 16 + b.toNat / 16) % 16 * 16 +
        (b.toNat % 16 * 4 + c.toNat / 64) / 4) = b := ofNat_eq (by omega)
    have hthird : UInt8.ofNat ((b.toNat % 16 * 4 + c.toNat / 64) % 4 * 64 + c.toNat % 64) = c :=
      ofNat_eq (by omega)
    rw [encode, decodeFrom_zero (by omega), decodeFrom_one (by omega), decodeFrom_two (by omega),
      decodeFrom_three (by omega), hfirst, hsecond, hthird, ih]
    rfl

theorem ascii_encode : ∀ c ∈ encode bytes, c.toNat < 128 := by
  have hdigit : ∀ n, (digit n).toNat < 128 := by
    intro n
    by_cases hn : n < 64
    · exact (value_digit n hn).2.2
    · have hlength : alphabet.length ≤ n := by
        have h : alphabet.length = 64 := by decide
        omega
      rw [digit, List.getD_eq_getElem?_getD, List.getElem?_eq_none hlength]
      decide
  induction bytes using encode.induct with
  | case1 => simp [encode]
  | case2 | case3 => simp [encode, hdigit]
  | case4 a b c rest ih => simpa [encode, hdigit] using ih

theorem decode_encode : decode (encode bytes) = some bytes := by
  have hall : (encode bytes).all (fun c => c.toNat < 128) = true := by
    simpa using ascii_encode bytes
  rw [decode, if_pos hall, decodeFrom_encode]

end Newbro.Library.Base64
