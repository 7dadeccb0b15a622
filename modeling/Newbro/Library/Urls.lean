import Mathlib.Data.List.Basic

/-!
# Texts of a URL

Percent encoding over UTF-8, the `application/x-www-form-urlencoded` form of names and values,
and the parts of a URI that follow its generic syntax. A component that has been form encoded
is decoded to the same text.
-/
namespace Newbro.Library.Urls
open List

/-! ## Percent encoding -/

/-- An upper-case hexadecimal digit. -/
def hexDigit (n : Nat) : Char := Char.ofNat (if n < 10 then 0x30 + n else 0x41 + n - 10)

def hexValue (c : Char) : Option Nat :=
  if '0' ≤ c ∧ c ≤ '9' then some (c.toNat - 0x30)
  else if 'A' ≤ c ∧ c ≤ 'F' then some (c.toNat - 0x41 + 10)
  else if 'a' ≤ c ∧ c ≤ 'f' then some (c.toNat - 0x61 + 10)
  else none

def percentEncode (b : UInt8) : List Char :=
  ['%', hexDigit (b.toNat / 16), hexDigit (b.toNat % 16)]

/-- The bytes of a text in which escapes stand for bytes; none if an escape is cut short or
has no digits. -/
@[grind =] def percentDecode : List Char → Option (List UInt8)
  | [] => some []
  | '%' :: high :: low :: rest =>
    match hexValue high, hexValue low with
    | some high, some low =>
      (percentDecode rest).map fun bytes => UInt8.ofNat (high * 16 + low) :: bytes
    | _, _ => none
  | c :: rest =>
    if c = '%' then none
    else (percentDecode rest).map fun bytes => String.utf8EncodeChar c ++ bytes

/-- The text that the bytes encode; none if they are not UTF-8. -/
def removePercentEncoding (text : List Char) : Option (List Char) :=
  (percentDecode text).bind fun bytes => bytes.toByteArray.utf8Decode?.map Array.toList

theorem hexValue_hexDigit {n : Nat} (h : n < 16) : hexValue (hexDigit n) = some n := by
  have hall : ∀ m < 16, hexValue (hexDigit m) = some m := by decide
  exact hall n h

variable {c : Char}

theorem percentDecode_cons (h : c ≠ '%') (rest : List Char) :
    percentDecode (c :: rest) =
      (percentDecode rest).map fun bytes => String.utf8EncodeChar c ++ bytes := by
  rw [percentDecode.eq_def]
  split
  · rename_i heq
    cases heq
  · rename_i heq
    cases heq
    exact absurd rfl h
  · rename_i heq
    cases heq
    rw [if_neg h]

theorem percentDecode_encode (b : UInt8) (rest : List Char) :
    percentDecode (percentEncode b ++ rest) = (percentDecode rest).map fun bytes => b :: bytes := by
  have hlt : b.toNat < 256 := b.toNat_lt
  have hhigh := hexValue_hexDigit (n := b.toNat / 16) (by omega)
  have hlow := hexValue_hexDigit (n := b.toNat % 16) (by omega)
  have hvalue : UInt8.ofNat (b.toNat / 16 * 16 + b.toNat % 16) = b := by
    rw [show b.toNat / 16 * 16 + b.toNat % 16 = b.toNat by omega]
    exact UInt8.ofNat_toNat
  simp only [percentEncode, cons_append, nil_append, percentDecode, hhigh, hlow, hvalue]

theorem percentDecode_flatMap_encode (bytes : List UInt8) (rest : List Char) :
    percentDecode (bytes.flatMap percentEncode ++ rest) =
      (percentDecode rest).map fun more => bytes ++ more := by
  induction bytes with
  | nil => simp
  | cons b bytes ih =>
    rw [flatMap_cons, append_assoc, percentDecode_encode, ih, Option.map_map]
    rfl

/-! ## Form encoding -/

/-- The scalars that form encoding leaves alone. -/
def isFormSafe (c : Char) : Bool := c.isAlphanum || c = '*' || c = '-' || c = '.' || c = '_'

def formEncodeChar (c : Char) : List Char :=
  if c = ' ' then ['+']
  else if isFormSafe c then [c]
  else (String.utf8EncodeChar c).flatMap percentEncode

def formEncode (text : List Char) : List Char := text.flatMap formEncodeChar

def plusToSpace (text : List Char) : List Char := text.map fun c => if c = '+' then ' ' else c

/-- The scalars of an encoded component. -/
def isFormOutput (c : Char) : Bool := isFormSafe c || c = '+' || c = '%'

theorem isFormSafe_hexDigit {n : Nat} (h : n < 16) : isFormSafe (hexDigit n) = true := by
  have hall : ∀ m < 16, isFormSafe (hexDigit m) = true := by decide
  exact hall n h

theorem isFormOutput_percentEncode (b : UInt8) : ∀ c ∈ percentEncode b, isFormOutput c = true := by
  have hlt : b.toNat < 256 := b.toNat_lt
  have hhigh := isFormSafe_hexDigit (n := b.toNat / 16) (by omega)
  have hlow := isFormSafe_hexDigit (n := b.toNat % 16) (by omega)
  simp [percentEncode, isFormOutput, hhigh, hlow]

theorem isFormOutput_formEncode (text : List Char) :
    ∀ c ∈ formEncode text, isFormOutput c = true := by
  intro c hmem
  obtain ⟨source, -, hc⟩ := mem_flatMap.mp hmem
  unfold formEncodeChar at hc
  split at hc
  · obtain rfl := mem_singleton.mp hc
    rfl
  · split at hc
    · rename_i hsafe
      obtain rfl := mem_singleton.mp hc
      simp [isFormOutput, hsafe]
    · obtain ⟨b, -, hb⟩ := mem_flatMap.mp hc
      exact isFormOutput_percentEncode b c hb

variable {text : List Char}

theorem plusToSpace_of_safe (h : ∀ c ∈ text, c ≠ '+') : plusToSpace text = text := by
  have hsame : plusToSpace text = text.map id :=
    map_congr_left fun c hmem => if_neg (h c hmem)
  rw [hsame, map_id]

theorem ne_plus_of_isFormSafe (h : isFormSafe c = true) : c ≠ '+' := by
  rintro rfl
  cases h

theorem ne_percent_of_isFormSafe (h : isFormSafe c = true) : c ≠ '%' := by
  rintro rfl
  cases h

theorem plusToSpace_percentEncode (bytes : List UInt8) :
    plusToSpace (bytes.flatMap percentEncode) = bytes.flatMap percentEncode := by
  refine plusToSpace_of_safe fun c hmem => ?_
  obtain ⟨b, -, hc⟩ := mem_flatMap.mp hmem
  have hlt : b.toNat < 256 := b.toNat_lt
  have hhigh := isFormSafe_hexDigit (n := b.toNat / 16) (by omega)
  have hlow := isFormSafe_hexDigit (n := b.toNat % 16) (by omega)
  simp only [percentEncode, mem_cons, not_mem_nil, or_false] at hc
  rcases hc with rfl | rfl | rfl
  · decide
  · exact ne_plus_of_isFormSafe hhigh
  · exact ne_plus_of_isFormSafe hlow

theorem percentDecode_formEncode (text : List Char) :
    percentDecode (plusToSpace (formEncode text)) = some (text.flatMap String.utf8EncodeChar) := by
  induction text with
  | nil => rfl
  | cons c text ih =>
    have happend : plusToSpace (formEncode (c :: text)) =
        plusToSpace (formEncodeChar c) ++ plusToSpace (formEncode text) := by
      simp [plusToSpace, formEncode]
    rw [happend, flatMap_cons]
    unfold formEncodeChar
    split
    · rename_i hspace
      subst hspace
      rw [show plusToSpace ['+'] = [' '] from rfl, singleton_append,
        percentDecode_cons (by decide), ih]
      rfl
    · split
      · rename_i hsafe
        rw [plusToSpace_of_safe (by simpa using ne_plus_of_isFormSafe hsafe),
          singleton_append, percentDecode_cons (ne_percent_of_isFormSafe hsafe), ih]
        rfl
      · rw [plusToSpace_percentEncode, percentDecode_flatMap_encode, ih]
        rfl

/-- What has been form encoded is decoded to the same text. -/
theorem removePercentEncoding_formEncode (text : List Char) :
    removePercentEncoding (plusToSpace (formEncode text)) = some text := by
  have hbytes : (text.flatMap String.utf8EncodeChar).toByteArray = text.utf8Encode := rfl
  rw [removePercentEncoding, percentDecode_formEncode, Option.bind_some, hbytes,
    List.utf8Decode?_utf8Encode]
  simp

/-! ## Names and values -/

def formPair (pair : List Char × List Char) : List Char :=
  formEncode pair.1 ++ '=' :: formEncode pair.2

/-- The `application/x-www-form-urlencoded` serializer. -/
@[grind =] def formSerialize : List (List Char × List Char) → List Char
  | [] => []
  | [pair] => formPair pair
  | pair :: next :: pairs => formPair pair ++ '&' :: formSerialize (next :: pairs)

theorem not_mem_formEncode (h : isFormOutput c = false) (text : List Char) :
    c ∉ formEncode text := by
  intro hmem
  rw [isFormOutput_formEncode text c hmem] at h
  cases h

theorem not_mem_formPair (h : isFormOutput c = false) (hne : c ≠ '=')
    (pair : List Char × List Char) : c ∉ formPair pair := by
  intro hmem
  rcases mem_append.mp hmem with hname | hvalue
  · exact not_mem_formEncode h pair.1 hname
  · rcases mem_cons.mp hvalue with heq | hvalue
    · exact hne heq
    · exact not_mem_formEncode h pair.2 hvalue

variable {pairs : List (List Char × List Char)}

/-- The serialized pairs are found again between the ampersands. -/
theorem splitOn_formSerialize (h : pairs ≠ []) :
    (formSerialize pairs).splitOn '&' = pairs.map formPair := by
  induction pairs with
  | nil => exact absurd rfl h
  | cons pair pairs ih =>
    have hamp : '&' ∉ formPair pair := not_mem_formPair rfl (by decide) pair
    cases pairs with
    | nil => exact splitOn_eq_singleton hamp
    | cons next pairs =>
      rw [formSerialize, splitOn_append_cons_self_of_not_mem hamp, ih (by simp)]
      rfl

theorem not_mem_formSerialize (h : isFormOutput c = false) (hequals : c ≠ '=')
    (hamp : c ≠ '&') (pairs : List (List Char × List Char)) : c ∉ formSerialize pairs := by
  induction pairs with
  | nil => simp [formSerialize]
  | cons pair pairs ih =>
    have hpair := not_mem_formPair h hequals pair
    cases pairs with
    | nil => exact hpair
    | cons next pairs =>
      intro hmem
      rcases mem_append.mp hmem with hfirst | hrest
      · exact hpair hfirst
      · rcases mem_cons.mp hrest with heq | hrest
        · exact hamp heq
        · exact ih hrest

/-! ## The parts of a URI -/

/-- What comes before the first `c`, and what comes after it, if there is one. -/
def cutAt (c : Char) : List Char → List Char × Option (List Char)
  | [] => ([], none)
  | d :: text => if d = c then ([], some text) else (d :: (cutAt c text).1, (cutAt c text).2)

theorem cutAt_of_not_mem (h : c ∉ text) : cutAt c text = (text, none) := by
  induction text with
  | nil => rfl
  | cons d text ih =>
    have hne : d ≠ c := fun heq => h (heq ▸ mem_cons_self)
    rw [cutAt, if_neg hne, ih fun hmem => h (mem_cons_of_mem _ hmem)]

theorem cutAt_append {before : List Char} (h : c ∉ before) (after : List Char) :
    cutAt c (before ++ c :: after) = (before, some after) := by
  induction before with
  | nil => simp [cutAt]
  | cons d before ih =>
    have hne : d ≠ c := fun heq => h (heq ▸ mem_cons_self)
    rw [cons_append, cutAt, if_neg hne, ih fun hmem => h (mem_cons_of_mem _ hmem)]

structure UriComponents where
  scheme : Option (List Char)
  host : Option (List Char)
  percentEncodedQuery : Option (List Char)
  deriving Repr, DecidableEq

/-- The reserved and unreserved characters, and the percent sign. -/
def isUriChar (c : Char) : Bool :=
  c.isAlphanum || "-._~:/?#[]@!$&'()*+,;=%".toList.contains c

def isScheme (text : List Char) : Bool :=
  text.head?.any Char.isAlpha && text.all fun c => c.isAlphanum || ['+', '-', '.'].contains c

/-- The generic syntax: scheme, authority, path, query and fragment. -/
def uriComponents (text : List Char) : Option UriComponents :=
  if text.all isUriChar && (percentDecode text).isSome then
    let hierarchy := cutAt '?' (cutAt '#' text).1
    let scheme := cutAt ':' hierarchy.1
    let rest := if isScheme scheme.1 then scheme.2 else none
    let authority := match rest.getD hierarchy.1 with
      | '/' :: '/' :: authority => some (authority.takeWhile (· ≠ '/'))
      | _ => none
    some
      { scheme := rest.map fun _ => scheme.1
        host := authority.map fun authority =>
          (cutAt ':' ((cutAt '@' authority).2.getD authority)).1
        percentEncodedQuery := hierarchy.2 }
  else none

theorem isSome_percentDecode_cons (h : c ≠ '%') (rest : List Char) :
    (percentDecode (c :: rest)).isSome = (percentDecode rest).isSome := by
  rw [percentDecode_cons h, Option.isSome_map]

theorem isSome_percentDecode_formEncode (text rest : List Char) :
    (percentDecode (formEncode text ++ rest)).isSome = (percentDecode rest).isSome := by
  induction text with
  | nil => rfl
  | cons c text ih =>
    rw [show formEncode (c :: text) = formEncodeChar c ++ formEncode text from
      flatMap_cons, append_assoc, ← ih]
    unfold formEncodeChar
    split
    · exact isSome_percentDecode_cons (by decide) _
    · split
      · rename_i hsafe
        exact isSome_percentDecode_cons (ne_percent_of_isFormSafe hsafe) _
      · rw [percentDecode_flatMap_encode, Option.isSome_map]

theorem isSome_percentDecode_formPair (pair : List Char × List Char) (rest : List Char) :
    (percentDecode (formPair pair ++ rest)).isSome = (percentDecode rest).isSome := by
  rw [formPair, append_assoc, isSome_percentDecode_formEncode, cons_append,
    isSome_percentDecode_cons (by decide), isSome_percentDecode_formEncode]

theorem isSome_percentDecode_formSerialize (pairs : List (List Char × List Char)) :
    (percentDecode (formSerialize pairs)).isSome = true := by
  induction pairs with
  | nil => rfl
  | cons pair pairs ih =>
    cases pairs with
    | nil =>
      have hone := isSome_percentDecode_formPair pair []
      rw [append_nil] at hone
      exact hone
    | cons next pairs =>
      rw [formSerialize, isSome_percentDecode_formPair, isSome_percentDecode_cons (by decide), ih]

theorem mem_formSerialize
    (h : c ∈ formSerialize pairs) : isFormOutput c = true ∨ c = '=' ∨ c = '&' := by
  by_contra hnot
  simp only [not_or, Bool.not_eq_true] at hnot
  exact not_mem_formSerialize hnot.1 hnot.2.1 hnot.2.2 pairs h

theorem isUriChar_of_isFormOutput (h : isFormOutput c = true) : isUriChar c = true := by
  simp only [isFormOutput, isFormSafe, Bool.or_eq_true, decide_eq_true_eq] at h
  unfold isUriChar
  rcases h with (((((halpha | rfl) | rfl) | rfl) | rfl) | rfl) | rfl
  · rw [halpha, Bool.true_or]
  all_goals decide

theorem isUriChar_formSerialize (h : c ∈ formSerialize pairs) : isUriChar c = true := by
  rcases mem_formSerialize h with hform | rfl | rfl
  · exact isUriChar_of_isFormOutput hform
  · decide
  · decide

theorem isSome_percentDecode_append (h : '%' ∉ text) (rest : List Char) :
    (percentDecode (text ++ rest)).isSome = (percentDecode rest).isSome := by
  induction text with
  | nil => rfl
  | cons c text ih =>
    have hne : c ≠ '%' := fun heq => h (heq ▸ mem_cons_self)
    rw [cons_append, isSome_percentDecode_cons hne, ih fun hmem => h (mem_cons_of_mem _ hmem)]

/-- The parts of a URI that consists of a scheme, a host and a query. `base` is all before the
query. -/
theorem uriComponents_query {base : List Char} (pairs : List (List Char × List Char))
    (hchars : base.all isUriChar = true) (hplain : ∀ c ∈ base, c ≠ '#' ∧ c ≠ '?' ∧ c ≠ '%') :
    uriComponents (base ++ '?' :: formSerialize pairs) =
      (uriComponents base).map fun parts =>
        { parts with percentEncodedQuery := some (formSerialize pairs) } := by
  have hescapes := isSome_percentDecode_formSerialize pairs
  have hpercent : '%' ∉ base := fun hmem => (hplain '%' hmem).2.2 rfl
  have hall : (base ++ '?' :: formSerialize pairs).all isUriChar = true := by
    rw [all_append, hchars, all_cons, Bool.true_and, all_eq_true.mpr
      fun c hmem => isUriChar_formSerialize hmem]
    decide
  have hdecode : (percentDecode (base ++ '?' :: formSerialize pairs)).isSome = true := by
    rw [isSome_percentDecode_append hpercent, isSome_percentDecode_cons (by decide), hescapes]
  have hbase : (percentDecode base).isSome = true := by
    have hnil := isSome_percentDecode_append hpercent []
    rw [append_nil] at hnil
    exact hnil
  have hhash : '#' ∉ base ++ '?' :: formSerialize pairs := by
    intro hmem
    rcases mem_append.mp hmem with hin | hin
    · exact (hplain '#' hin).1 rfl
    · rcases mem_cons.mp hin with heq | hin
      · cases heq
      · exact not_mem_formSerialize rfl (by decide) (by decide) pairs hin
  have hhash' : '#' ∉ base := fun hmem => (hplain '#' hmem).1 rfl
  have hquestion : '?' ∉ base := fun hmem => (hplain '?' hmem).2.1 rfl
  simp only [uriComponents, hall, hdecode, hchars, hbase, Bool.and_self, if_true,
    cutAt_of_not_mem hhash, cutAt_of_not_mem hhash', cutAt_append hquestion,
    cutAt_of_not_mem hquestion, Option.map_some]

end Newbro.Library.Urls
