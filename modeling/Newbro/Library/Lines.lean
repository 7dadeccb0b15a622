import Mathlib.Data.List.DropRight
import Mathlib.Data.List.Infix
import Newbro.Library.Text

/-!
# Lines and replacements

A text as its characters, in the way Python reads a file, splits it into lines,
strips and replaces. The Unicode tables of Python are a parameter, with what is
documented of them.
-/
namespace Newbro.Library.Text
open List

/-- The characters at which `str.splitlines` ends a line. -/
def isLineBreak (c : Char) : Bool :=
  let n := c.toNat
  (0x0a ≤ n && n ≤ 0x0d) || (0x1c ≤ n && n ≤ 0x1e) || n == 0x85 || n == 0x2028 || n == 0x2029

def isAsciiWord (c : Char) : Bool := c.isAlphanum || c == '_'

variable {c : Char}

theorem toNat_of_isAsciiWord (h : isAsciiWord c = true) : 48 ≤ c.toNat ∧ c.toNat ≤ 122 := by
  simp only [isAsciiWord, Bool.or_eq_true, beq_iff_eq] at h
  rcases h with h | rfl
  · exact toNat_of_isAlphanum h
  · decide

theorem isSpace_of_isAsciiWord (h : isAsciiWord c = true) : isSpace c = false := by
  have hc := toNat_of_isAsciiWord h
  simp only [isSpace, Bool.or_eq_false_iff, Bool.and_eq_false_iff, decide_eq_false_iff_not,
    beq_eq_false_iff_ne]
  omega
/-- Python's `\w` and `str.lower`, of which the texts here only need what is documented for
ASCII, and that lower case makes no line break of what is none. -/
structure Unicode where
  isWord : Char → Bool
  lower : List Char → List Char
  isWord_of_ascii : ∀ c, isAsciiWord c = true → isWord c = true
  isWord_colon : isWord ':' = false
  lower_of_ascii : ∀ text, (∀ c ∈ text, c.toNat < 128) → lower text = text.map Char.toLower
  lower_breaks : ∀ text, (∀ c ∈ text, isLineBreak c = true → c = '\n') →
    ∀ c ∈ lower text, isLineBreak c = true → c = '\n'

theorem toLower_eq_or (c : Char) :
    c.toLower = c ∨ (97 ≤ c.toLower.toNat ∧ c.toLower.toNat ≤ 122) := by
  unfold Char.toLower
  split
  · rename_i h
    right
    have hA : 65 ≤ c.val.toNat := h.1
    have hZ : c.val.toNat ≤ 90 := h.2
    have hstep : (c.val + ('a'.val - 'A'.val)).toNat = c.val.toNat + 32 := by
      rw [UInt32.toNat_add]
      have h32 : ('a'.val - 'A'.val).toNat = 32 := by decide
      omega
    show 97 ≤ (c.val + ('a'.val - 'A'.val)).toNat ∧ (c.val + ('a'.val - 'A'.val)).toNat ≤ 122
    omega
  · exact Or.inl rfl

/-- The tables cut down to ASCII. -/
def ascii : Unicode where
  isWord := isAsciiWord
  lower := List.map Char.toLower
  isWord_of_ascii := fun _ h => h
  isWord_colon := by decide
  lower_of_ascii := fun _ _ => rfl
  lower_breaks := by
    intro text h c hc hb
    obtain ⟨d, hd, rfl⟩ := mem_map.mp hc
    rcases toLower_eq_or d with hsame | ⟨hlow, hhigh⟩
    · rw [hsame] at hb ⊢
      exact h d hd hb
    · have hno : isLineBreak d.toLower = false := by
        simp only [isLineBreak, Bool.or_eq_false_iff, Bool.and_eq_false_iff, decide_eq_false_iff_not,
          beq_eq_false_iff_ne]
        omega
      rw [hno] at hb
      cases hb

/-- `text.strip()` -/
def stripChars (text : List Char) : List Char :=
  ((text.dropWhile isSpace).reverse.dropWhile isSpace).reverse

theorem strip_eq (text : String) : strip text = String.ofList (stripChars text.toList) := rfl

variable {text : List Char}

theorem mem_stripChars (h : c ∈ stripChars text) : c ∈ text := by
  have hr := (dropWhile_sublist isSpace).mem (mem_reverse.mp h)
  exact (dropWhile_sublist isSpace).mem (mem_reverse.mp hr)

/-- A text with no white space at either end, after some white space. -/
theorem stripChars_append (pad : List Char) (hpad : ∀ c ∈ pad, isSpace c = true)
    (hne : text ≠ []) (hhead : isSpace (text.head hne) = false)
    (hlast : isSpace (text.getLast hne) = false) : stripChars (pad ++ text) = text := by
  have hdrop : (pad ++ text).dropWhile isSpace = text := by
    rw [dropWhile_append_of_pos hpad]
    cases text with
    | nil => exact absurd rfl hne
    | cons c rest => rw [dropWhile_cons_of_neg (by simpa using hhead)]
  have hback : text.reverse.dropWhile isSpace = text.reverse := by
    cases hrev : text.reverse with
    | nil => rfl
    | cons c rest =>
      have hc : text.getLast hne = c := by
        have h := head_reverse (l := text) (by simpa using hne)
        simpa [hrev] using h.symm
      rw [dropWhile_cons_of_neg (by simpa [← hc] using hlast)]
  rw [stripChars, hdrop, hback, reverse_reverse]

/-- Neither the first nor the last character of a stripped text is white space. -/
theorem ends_stripChars (text : List Char) (hne : stripChars text ≠ []) :
    isSpace ((stripChars text).head hne) = false ∧
      isSpace ((stripChars text).getLast hne) = false := by
  have hdrop : stripChars text = (text.dropWhile isSpace).rdropWhile isSpace := rfl
  obtain ⟨rest, hrest⟩ := rdropWhile_prefix isSpace (text.dropWhile isSpace)
  have hne' : (text.dropWhile isSpace).rdropWhile isSpace ≠ [] := hdrop ▸ hne
  constructor
  · have hfull : text.dropWhile isSpace ≠ [] := by
      intro h
      rw [h] at hne'
      exact hne' (rdropWhile_nil isSpace)
    have hhead := head_dropWhile_not isSpace hfull
    have hsame : (text.dropWhile isSpace).head? =
        ((text.dropWhile isSpace).rdropWhile isSpace).head? := by
      rw [← List.head?_append_of_ne_nil _ hne', hrest]
    rw [List.head?_eq_some_head hfull, List.head?_eq_some_head hne'] at hsame
    rw [Option.some.inj hsame] at hhead
    exact hhead
  · have hlast := rdropWhile_last_not isSpace (text.dropWhile isSpace) hne'
    rw [Bool.not_eq_true] at hlast
    exact hlast

theorem stripChars_stripChars (text : List Char) :
    stripChars (stripChars text) = stripChars text := by
  by_cases hne : stripChars text = []
  · rw [hne]
    rfl
  · obtain ⟨hhead, hlast⟩ := ends_stripChars text hne
    exact stripChars_append [] (by simp) hne hhead hlast

theorem strip_strip (text : String) : strip (strip text) = strip text := by
  rw [strip_eq, strip_eq, String.toList_ofList, stripChars_stripChars]

/-- What reading in text mode makes of the line ends. -/
def universalNewlines : List Char → List Char
  | [] => []
  | '\r' :: '\n' :: rest => '\n' :: universalNewlines rest
  | c :: rest => (if c = '\r' then '\n' else c) :: universalNewlines rest

/-- `text.splitlines()`, with the characters of the line read so far. -/
@[grind =] def splitLinesFrom (line : List Char) : List Char → List (List Char)
  | [] => if line = [] then [] else [line]
  | '\r' :: '\n' :: rest => line :: splitLinesFrom [] rest
  | c :: rest =>
    if isLineBreak c = true then line :: splitLinesFrom [] rest
    else splitLinesFrom (line ++ [c]) rest

def splitLines (text : List Char) : List (List Char) := splitLinesFrom [] text

theorem splitLinesFrom_newline (line rest : List Char) :
    splitLinesFrom line ('\n' :: rest) = line :: splitLinesFrom [] rest := by
  rw [splitLinesFrom]
  · exact if_pos (by decide)
  · intro _ h
    exact absurd h (by decide)

theorem splitLinesFrom_cons (hc : isLineBreak c = false) (line rest : List Char) :
    splitLinesFrom line (c :: rest) = splitLinesFrom (line ++ [c]) rest := by
  rw [splitLinesFrom]
  · exact if_neg (by simp [hc])
  · rintro _ rfl
    exact absurd hc (by decide)

/-- Text mode leaves the lines of a text as they are. -/
theorem splitLinesFrom_universalNewlines (line text : List Char) :
    splitLinesFrom line (universalNewlines text) = splitLinesFrom line text := by
  induction text using universalNewlines.induct generalizing line with
  | case1 => rfl
  | case2 rest ih => rw [universalNewlines, splitLinesFrom_newline, ih, splitLinesFrom]
  | case3 c rest hpair ih =>
    have hstep : universalNewlines (c :: rest) =
        (if c = '\r' then '\n' else c) :: universalNewlines rest := by
      rw [universalNewlines]
      exact hpair
    rw [hstep]
    by_cases hc : c = '\r'
    · subst hc
      rw [if_pos rfl, splitLinesFrom_newline, ih, splitLinesFrom]
      · exact (if_pos (by decide)).symm
      · exact hpair
    · rw [if_neg hc]
      by_cases hb : isLineBreak c = true
      · rw [splitLinesFrom, if_pos hb, ih, splitLinesFrom, if_pos hb]
        · exact fun rest h => absurd h hc
        · exact fun rest h => absurd h hc
      · have hb := Bool.eq_false_iff.mpr hb
        rw [splitLinesFrom_cons hb, splitLinesFrom_cons hb, ih]

/-- No line holds a line break. -/
theorem splitLinesFrom_free {line : List Char} (text : List Char)
    (hline : ∀ c ∈ line, isLineBreak c = false) :
    ∀ l ∈ splitLinesFrom line text, ∀ c ∈ l, isLineBreak c = false := by
  induction line, text using splitLinesFrom.induct with
  | case1 => simp [splitLinesFrom]
  | case2 line hne => simpa [splitLinesFrom, hne] using hline
  | case3 line rest ih =>
    intro l hl
    rw [splitLinesFrom] at hl
    rcases mem_cons.mp hl with rfl | hl
    · exact hline
    · exact ih (by simp) l hl
  | case4 line c rest hpair hb ih =>
    intro l hl
    rw [splitLinesFrom, if_pos hb] at hl
    · rcases mem_cons.mp hl with rfl | hl
      · exact hline
      · exact ih (by simp) l hl
    · exact hpair
  | case5 line c rest hpair hb ih =>
    have hb := Bool.eq_false_iff.mpr hb
    rw [splitLinesFrom_cons hb]
    apply ih
    intro d hd
    rcases mem_append.mp hd with hd | hd
    · exact hline d hd
    · rwa [mem_singleton.mp hd]

/-- A line without line breaks is read as it is. -/
theorem splitLinesFrom_line {l : List Char} (hl : ∀ c ∈ l, isLineBreak c = false)
    (line rest : List Char) :
    splitLinesFrom line (l ++ '\n' :: rest) = (line ++ l) :: splitLinesFrom [] rest := by
  induction l generalizing line with
  | nil => rw [nil_append, splitLinesFrom_newline, append_nil]
  | cons c l ih =>
    have hc : isLineBreak c = false := hl c (mem_cons_self ..)
    have hrest : ∀ d ∈ l, isLineBreak d = false := fun d hd => hl d (mem_cons_of_mem _ hd)
    rw [cons_append, splitLinesFrom_cons hc, ih hrest]
    simp

/-- `"\n".join(lines) + "\n"` for a list of lines that is not empty. -/
def joinLines (lines : List (List Char)) : List Char := lines.flatMap fun l => l ++ ['\n']

theorem splitLines_joinLines {lines : List (List Char)}
    (h : ∀ l ∈ lines, ∀ c ∈ l, isLineBreak c = false) : splitLines (joinLines lines) = lines := by
  induction lines with
  | nil => rfl
  | cons l lines ih =>
    have hl := h l (mem_cons_self ..)
    have hrest := ih fun m hm => h m (mem_cons_of_mem _ hm)
    calc splitLines (joinLines (l :: lines))
        = splitLinesFrom [] (l ++ '\n' :: joinLines lines) := by simp [splitLines, joinLines]
      _ = l :: splitLines (joinLines lines) := splitLinesFrom_line hl [] _
      _ = l :: lines := by rw [hrest]

/-- `text.replace(old, new)` for one character. -/
def replaceChar (old : Char) (new : List Char) (text : List Char) : List Char :=
  text.flatMap fun c => if c = old then new else [c]

/-- `text.replace(a + b, new)` for two characters, from left to right. -/
@[grind =] def replacePair (a b : Char) (new : List Char) : List Char → List Char
  | [] => []
  | [c] => [c]
  | c :: d :: rest =>
    if c = a ∧ d = b then new ++ replacePair a b new rest
    else c :: replacePair a b new (d :: rest)

variable {a : Char}

theorem replacePair_cons_of_ne (h : c ≠ a) (b : Char) (new rest : List Char) :
    replacePair a b new (c :: rest) = c :: replacePair a b new rest := by
  cases rest with
  | nil => rfl
  | cons d rest => rw [replacePair, if_neg fun hcd => h hcd.1]

variable {b : Char}

theorem replacePair_cons_cons_of_ne {d : Char} (h : d ≠ b) (a c : Char)
    (new rest : List Char) : replacePair a b new (c :: d :: rest) =
      c :: replacePair a b new (d :: rest) := by
  rw [replacePair, if_neg fun hcd => h hcd.2]

theorem replacePair_pair (a b : Char) (new rest : List Char) :
    replacePair a b new (a :: b :: rest) = new ++ replacePair a b new rest := by
  rw [replacePair, if_pos ⟨rfl, rfl⟩]

variable {new : List Char}

theorem mem_replacePair (h : c ∈ replacePair a b new text) : c ∈ text ∨ c ∈ new := by
  induction text using replacePair.induct a b with
  | case1 | case2 => exact Or.inl h
  | case3 d e rest hde ih =>
    rw [replacePair, if_pos hde] at h
    rcases mem_append.mp h with h | h
    · exact Or.inr h
    · exact (ih h).imp_left fun h => by simp [h]
  | case4 d e rest hde ih =>
    rw [replacePair, if_neg hde] at h
    rcases mem_cons.mp h with rfl | h
    · exact Or.inl (mem_cons_self ..)
    · exact (ih h).imp_left fun h => mem_cons_of_mem _ h

/-- Two characters for two: the length stays, and the text stays if and only if the
pair does not occur in it. -/
theorem length_replacePair (a b : Char) (hnew : new.length = 2)
    (text : List Char) : (replacePair a b new text).length = text.length := by
  induction text using replacePair.induct a b with
  | case1 => rfl
  | case2 c => rfl
  | case3 c d rest hcd ih => rw [replacePair, if_pos hcd]; simp [ih, hnew]; omega
  | case4 c d rest hcd ih => rw [replacePair, if_neg hcd]; simp [ih]

theorem replacePair_eq_self_iff (hlen : new.length = 2) (hnew : new ≠ [a, b]) (text : List Char) :
    replacePair a b new text = text ↔ ¬ [a, b] <:+: text := by
  induction text using replacePair.induct a b with
  | case1 => simp [replacePair]
  | case2 c =>
    have h : ¬ [a, b] <:+: [c] := fun h => by simpa using h.length_le
    simp [replacePair, h]
  | case3 c d rest hcd ih =>
    obtain ⟨rfl, rfl⟩ := hcd
    have hin : [c, d] <:+: c :: d :: rest := ⟨[], rest, rfl⟩
    have hout : replacePair c d new (c :: d :: rest) ≠ c :: d :: rest := by
      intro h
      rw [replacePair_pair] at h
      have htake := congrArg (List.take 2) h
      rw [take_append_of_le_length (by omega), ← hlen, take_length] at htake
      exact hnew (by simpa [hlen] using htake)
    simp [hout, hin]
  | case4 c d rest hcd ih =>
    have hinfix : [a, b] <:+: c :: d :: rest ↔ [a, b] <:+: d :: rest := by
      rw [infix_cons_iff]
      refine or_iff_right fun h => hcd ?_
      obtain ⟨u, hu⟩ := h
      simp only [cons_append, nil_append, List.cons.injEq] at hu
      exact ⟨hu.1.symm, hu.2.1.symm⟩
    rw [replacePair, if_neg hcd, List.cons.injEq, hinfix]
    simpa using ih

end Newbro.Library.Text
