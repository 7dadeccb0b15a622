import Newbro.YamlSupport

/-!
# Reading lines

What the parser written by hand makes of a line at a time: how a file is taken apart, and what the
loops over mappings and lists do with the first of the lines that are left.
-/
namespace Newbro.YamlSupport

open Library Library.Text Library.Blocks List

/-! ## From a file to its lines -/

/-- A line begins as its text does. -/
theorem splitLinesFrom_start {line : List Char} (hline : line ≠ []) (text : List Char) :
    ∃ tail others, splitLinesFrom line text = (line ++ tail) :: others := by
  induction line, text using splitLinesFrom.induct with
  | case1 => exact absurd rfl hline
  | case2 line hne => exact ⟨[], [], by simp [splitLinesFrom, hne]⟩
  | case3 line rest ih => exact ⟨[], splitLinesFrom [] rest, by simp [splitLinesFrom]⟩
  | case4 line c rest hpair hb ih =>
    refine ⟨[], splitLinesFrom [] rest, ?_⟩
    rw [splitLinesFrom, if_pos hb, append_nil]
    exact hpair
  | case5 line c rest hpair hb ih =>
    obtain ⟨tail, others, heq⟩ := ih (by simp)
    refine ⟨c :: tail, others, ?_⟩
    rw [splitLinesFrom_cons (Bool.eq_false_iff.mpr hb), heq, append_assoc, singleton_append]

/-- A text that goes on from characters without a line break has them on its first line. -/
theorem splitLines_start {start : List Char} (hne : start ≠ [])
    (hstart : ∀ c ∈ start, isLineBreak c = false) (text : List Char) :
    ∃ tail others, splitLines (start ++ text) = (start ++ tail) :: others := by
  have hread : ∀ (line start : List Char), (∀ c ∈ start, isLineBreak c = false) →
      splitLinesFrom line (start ++ text) = splitLinesFrom (line ++ start) text := by
    intro line start
    induction start generalizing line with
    | nil => simp
    | cons c start ih =>
      intro hall
      have hrest := ih (line ++ [c]) fun d hd => hall d (mem_cons_of_mem _ hd)
      rw [cons_append, splitLinesFrom_cons (hall c mem_cons_self), hrest,
        append_assoc, singleton_append]
  rw [splitLines, hread [] start hstart, nil_append]
  exact splitLinesFrom_start hne text

variable {c : Char}

theorem stripChars_pad (indent : Nat) (hc : isSpace c = false) (text : List Char) :
    ∃ rest, stripChars (pad indent ++ c :: text) = c :: rest := by
  have hpad : ∀ d ∈ pad indent, isSpace d = true := by
    intro d hd
    rw [eq_of_mem_replicate hd]
    decide
  have hdrop : (pad indent ++ c :: text).dropWhile isSpace = c :: text := by
    rw [dropWhile_append_of_pos hpad, dropWhile_cons_of_neg (by simp [hc])]
  have hprefix := rdropWhile_prefix isSpace (c :: text)
  have hne : (c :: text).rdropWhile isSpace ≠ [] := by
    rw [Ne, rdropWhile_eq_nil_iff]
    intro hall
    have hspace := hall c mem_cons_self
    rw [hc] at hspace
    cases hspace
  have hstrip : stripChars (pad indent ++ c :: text) = (c :: text).rdropWhile isSpace := by
    show ((pad indent ++ c :: text).dropWhile isSpace).rdropWhile isSpace = _
    rw [hdrop]
  rw [hstrip]
  cases hrest : (c :: text).rdropWhile isSpace with
  | nil => exact absurd hrest hne
  | cons d rest =>
    rw [hrest] at hprefix
    obtain ⟨more, hmore⟩ := hprefix
    rw [cons_append, List.cons.injEq] at hmore
    rw [hmore.1]
    exact ⟨rest, rfl⟩

/-- An indented line that is no comment is kept. -/
theorem tokenizeLine_pad (path : String) (lineno : Nat) {indent : Nat} (heven : indent % 2 = 0)
    (hc : isSpace c = false) (hcomment : c ≠ '#') (text : List Char) :
    tokenizeLine path lineno (pad indent ++ c :: text) =
      .ok (some ⟨indent, c :: text, lineno⟩) := by
  obtain ⟨rest, hstrip⟩ := stripChars_pad indent hc text
  have hblank : c ≠ ' ' := by
    rintro rfl
    revert hc
    decide
  have hindent : (pad indent ++ c :: text).takeWhile (· = ' ') = pad indent := by
    have hpad : ∀ d ∈ pad indent, decide (d = ' ') = true := by
      intro d hd
      rw [eq_of_mem_replicate hd]
      decide
    rw [takeWhile_append_of_pos hpad, takeWhile_cons_of_neg (by simpa using hblank), append_nil]
  have hlength : (pad indent).length = indent := length_replicate
  have hkept : ¬ (c :: rest = [] ∨ (c :: rest).head? = some '#') := by
    rintro (hnone | hhead)
    · cases hnone
    · exact hcomment (Option.some.inj hhead)
  have hdrop : (pad indent ++ c :: text).drop indent = c :: text := by
    have hleft : (pad indent ++ c :: text).drop (pad indent).length = c :: text :=
      drop_left
    rwa [hlength] at hleft
  unfold tokenizeLine
  dsimp only
  rw [hstrip, if_neg hkept, hindent, hlength, if_neg (by rw [heven]; simp), hdrop]

variable {path : String} {lineno : Nat}

variable {rawLine : List Char} {line : SimpleYamlLine}

theorem tokenizeFrom_cons
    (h : tokenizeLine path lineno rawLine = .ok (some line))
    (rest : List (List Char)) : tokenizeFrom path lineno (rawLine :: rest) =
      (tokenizeFrom path (lineno + 1) rest).map (line :: ·) := by
  rw [tokenizeFrom, h]
  dsimp only
  cases tokenizeFrom path (lineno + 1) rest with
  | error | ok => rfl

/-- What a key that is loaded is like. -/
structure KeyText (key : List Char) : Prop where
  free : Free key
  colon : ':' ∉ key
  ne_nil : key ≠ []
  strip : stripChars key = key
  comment : key.head? ≠ some '#'

variable {text : List Char}

/-- A line that begins with white space and goes on begins, without it, as the line does. -/
theorem head?_stripChars (hne : stripChars text ≠ []) :
    (stripChars text).head? = (text.dropWhile isSpace).head? := by
  obtain ⟨rest, hrest⟩ := rdropWhile_prefix isSpace (text.dropWhile isSpace)
  have hsame : stripChars text ++ rest = text.dropWhile isSpace := hrest
  rw [← hsame, List.head?_append_of_ne_nil _ hne]

theorem dropWhile_drop_blanks (text : List Char) :
    (text.drop (text.takeWhile (· = ' ')).length).dropWhile isSpace = text.dropWhile isSpace := by
  have hdrop : text.drop (text.takeWhile (· = ' ')).length = text.dropWhile (· = ' ') := by
    have hleft : (text.takeWhile (· = ' ') ++ text.dropWhile (· = ' ')).drop
        (text.takeWhile (· = ' ')).length = text.dropWhile (· = ' ') := drop_left
    rwa [takeWhile_append_dropWhile] at hleft
  rw [hdrop]
  have hblank : ∀ c ∈ text.takeWhile (· = ' '), isSpace c = true := by
    intro c hc
    have heq : c = ' ' := by simpa using mem_takeWhile_imp hc
    rw [heq]
    decide
  conv_rhs => rw [← takeWhile_append_dropWhile (p := (· = ' ')) (l := text)]
  rw [dropWhile_append_of_pos hblank]

/-- The key of a line that is no comment. -/
theorem keyText_of_tokenizeLine (hfree : Free rawLine)
    (h : tokenizeLine path lineno rawLine = .ok (some line)) : LineFits KeyText line := by
  unfold tokenizeLine at h
  dsimp only at h
  split_ifs at h with hskipped hodd
  · cases h
  obtain rfl := Option.some.inj (Except.ok.inj h)
  have hcontent : Free (rawLine.drop (rawLine.takeWhile (· = ' ')).length) :=
    fun c hc => hfree c (mem_of_mem_drop hc)
  refine ⟨hcontent, fun _ hne => ?_⟩
  have hmem : ∀ c ∈ stripChars ((rawLine.drop (rawLine.takeWhile (· = ' ')).length).takeWhile
      (· ≠ ':')), c ∈ (rawLine.drop (rawLine.takeWhile (· = ' ')).length).takeWhile (· ≠ ':') :=
    fun c hc => mem_stripChars hc
  refine ⟨fun c hc => hcontent c ((takeWhile_sublist _).mem (hmem c hc)), fun hcolon => ?_,
    hne, stripChars_stripChars _, fun hhash => hskipped (Or.inr ?_)⟩
  · have hnot := mem_takeWhile_imp (hmem ':' hcolon)
    simp at hnot
  · rw [head?_stripChars hne] at hhash
    have hstart : ((rawLine.drop (rawLine.takeWhile (· = ' ')).length).dropWhile isSpace).head? =
        some '#' := by
      conv_lhs =>
        rw [← takeWhile_append_dropWhile (p := (· ≠ ':'))
          (l := rawLine.drop (rawLine.takeWhile (· = ' ')).length)]
      rw [dropWhile_append]
      split
      · rename_i hempty
        rw [isEmpty_iff.mp hempty] at hhash
        cases hhash
      · rename_i hkept
        rw [List.head?_append_of_ne_nil _ (by simpa using hkept)]
        exact hhash
    rw [dropWhile_drop_blanks] at hstart
    rw [head?_stripChars fun hnone => hskipped (Or.inl hnone)]
    exact hstart

theorem fits_tokenizeFrom {rawLines : List (List Char)}
    {lines : List SimpleYamlLine} (h : ∀ rawLine ∈ rawLines, Free rawLine)
    (hlines : tokenizeFrom path lineno rawLines = .ok lines) : AllFit KeyText lines := by
  induction rawLines generalizing lineno lines with
  | nil =>
    cases hlines
    intro line hline
    cases hline
  | cons rawLine rest ih =>
    rw [tokenizeFrom] at hlines
    split at hlines
    · cases hlines
    · rename_i token htoken
      split at hlines
      · cases hlines
      · rename_i tokens htokens
        cases hlines
        have hrest := ih (fun other hother => h other (mem_cons_of_mem _ hother)) htokens
        intro line hline
        rcases mem_append.mp hline with hhere | hlater
        · obtain rfl := Option.mem_toList.mp hhere
          exact keyText_of_tokenizeLine (h rawLine mem_cons_self) htoken
        · exact hrest line hlater

variable {value : Value}

/-- No text that the parser written by hand makes of a file has a line break in it. -/
theorem made_of_loadSimpleYaml {u : Unicode} {decimal : Char → Option (Fin 10)}
    (h : loadSimpleYaml u decimal path text = .ok value) : value.Made KeyText :=
  loadSimpleYaml_made (fun _ hlines => fits_tokenizeFrom (splitLinesFrom_free text (by simp)) hlines)
    h

/-! ## From lines to values -/

variable {key : List Char} {entries : Entries}

variable {remainder : List Char} {items : List Value}

section steps

variable {u : Unicode} {decimal : Char → Option (Fin 10)}
variable {line : SimpleYamlLine} {rest : List SimpleYamlLine} {indent : Nat}

/-- What a function found, and the lines that it left. -/
def seen {α : Type} {lines : List SimpleYamlLine} (result : Except LoadError (α × Rest lines)) :
    Except LoadError (α × List SimpleYamlLine) :=
  result.map fun found => (found.1, found.2.val)

/-- The line is an entry of a mapping, with what stands after the colon. -/
structure HoldsEntry (line : SimpleYamlLine) (key remainder : List Char) : Prop where
  item : startsItem line.content = false
  colon : ':' ∈ line.content
  before : stripChars (line.content.takeWhile (· ≠ ':')) = key
  after : stripChars (line.content.dropWhile (· ≠ ':')).tail = remainder
  ne_nil : key ≠ []

theorem seen_parseMapping_scalar
    (h : HoldsEntry line key remainder) (hremainder : remainder ≠ []) :
    seen (parseMapping u decimal line.indent entries (line :: rest)) =
      seen (parseMapping u decimal line.indent
        (setEntry entries key (parseScalar u decimal remainder)) rest) := by
  rw [parseMapping]
  dsimp only
  rw [if_neg (lt_irrefl _), if_neg (not_not.mpr rfl), if_neg (by simp [h.item]),
    if_neg (not_not.mpr h.colon), h.before, h.after, if_neg h.ne_nil, if_pos hremainder]
  cases parseMapping u decimal line.indent
      (setEntry entries key (parseScalar u decimal remainder)) rest with
  | error | ok => rfl

theorem seen_parseMapping_nested
    {left : List SimpleYamlLine} (h : HoldsEntry line key [])
    (hvalue : seen (nestedValue u decimal line.indent rest) = .ok (value, left)) :
    seen (parseMapping u decimal line.indent entries (line :: rest)) =
      seen (parseMapping u decimal line.indent (setEntry entries key value) left) := by
  rw [parseMapping]
  dsimp only
  rw [if_neg (lt_irrefl _), if_neg (not_not.mpr rfl), if_neg (by simp [h.item]),
    if_neg (not_not.mpr h.colon), h.before, h.after, if_neg h.ne_nil, if_neg (not_not.mpr rfl)]
  cases hnested : nestedValue u decimal line.indent rest with
  | error e =>
    rw [hnested] at hvalue
    cases hvalue
  | ok found =>
    rw [hnested] at hvalue
    cases hvalue
    dsimp only
    cases parseMapping u decimal line.indent (setEntry entries key found.1) found.2.val with
    | error e => rfl
    | ok after => rfl

theorem parseMapping_deeper (h : indent < line.indent) :
    seen (parseMapping u decimal indent entries (line :: rest)) =
      .error (lineError line "unexpected indentation for mapping entry") := by
  rw [parseMapping, if_neg (Nat.not_lt.mpr h.le), if_pos h.ne']
  rfl

theorem seen_parseList_scalar {item : List Char}
    (hitem : startsItem line.content = true) (htext : stripChars (line.content.drop 2) = item)
    (hne : item ≠ []) : seen (parseList u decimal line.indent items (line :: rest)) =
      seen (parseList u decimal line.indent (items ++ [parseScalar u decimal item]) rest) := by
  rw [parseList]
  dsimp only
  rw [if_neg (by simp [hitem]), htext, if_pos hne]
  cases parseList u decimal line.indent (items ++ [parseScalar u decimal item]) rest with
  | error | ok => rfl

theorem seen_parseList_end (h : line.indent ≠ indent) :
    seen (parseList u decimal indent items (line :: rest)) = .ok (items, line :: rest) := by
  rw [parseList, if_pos (Or.inl h)]
  rfl

theorem seen_nestedValue_deeper (h : indent < line.indent) :
    seen (nestedValue u decimal indent (line :: rest)) =
      seen (parseBlock u decimal line.indent (line :: rest)) := by
  rw [nestedValue, if_neg (Nat.not_le.mpr h)]

theorem seen_parseBlock_list (hitem : startsItem line.content = true) :
    seen (parseBlock u decimal indent (line :: rest)) =
      (seen (parseList u decimal indent [] (line :: rest))).map
        fun found => (.list found.1, found.2) := by
  rw [parseBlock, if_pos hitem]
  cases parseList u decimal indent [] (line :: rest) with
  | error | ok => rfl

theorem seen_parseBlock_mapping (h : HoldsEntry line key remainder) :
    seen (parseBlock u decimal indent (line :: rest)) =
      (seen (parseMapping u decimal indent [] (line :: rest))).map
        fun found => (.dict found.1, found.2) := by
  have hempty : ¬ (line.content = "\x7b\x7d".toList ∨ line.content = "[]".toList) := by
    have hcolon := h.colon
    rintro (heq | heq)
    · rw [heq] at hcolon
      exact absurd hcolon (by decide)
    · rw [heq] at hcolon
      exact absurd hcolon (by decide)
  rw [parseBlock, if_neg (by simp [h.item]), if_neg hempty]
  cases parseMapping u decimal indent [] (line :: rest) with
  | error | ok => rfl

/-- Text mode changes nothing of what is loaded. -/
theorem loadSimpleYaml_universalNewlines (path : String) (text : List Char) :
    loadSimpleYaml u decimal path (universalNewlines text) =
      loadSimpleYaml u decimal path text := by
  have hsplit : splitLines (universalNewlines text) = splitLines text :=
    splitLinesFrom_universalNewlines [] text
  rw [loadSimpleYaml, loadSimpleYaml, hsplit]

/-- A file is loaded as the block of its lines, if that leaves none. -/
theorem loadSimpleYaml_eq (hlines : tokenizeFrom path 1 (splitLines text) = .ok (line :: rest)) :
    (∀ e, seen (parseBlock u decimal line.indent (line :: rest)) = .error e →
      loadSimpleYaml u decimal path text = .error e) ∧
    (∀ value, seen (parseBlock u decimal line.indent (line :: rest)) = .ok (value, []) →
      loadSimpleYaml u decimal path text = .ok value) := by
  rw [loadSimpleYaml, hlines]
  dsimp only
  cases parseBlock u decimal line.indent (line :: rest) with
  | error e =>
    refine ⟨fun e' h => ?_, fun value h => nomatch h⟩
    cases h
    rfl
  | ok found =>
    obtain ⟨value, after, hafter⟩ := found
    refine ⟨fun e' h => (nomatch h), fun value' h => ?_⟩
    cases h
    rfl

end steps

end Newbro.YamlSupport
