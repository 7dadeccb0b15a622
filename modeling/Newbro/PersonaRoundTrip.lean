import Newbro.PersonaPool

/-!
# Reading back the persona file

What the reader makes of a quoted text, of a line, of a persona and of the whole file,
and from it exactly which personas come back from the file as they were.
-/
namespace Newbro.PersonaPool

open Protocol Library Library.Text Option List

/-! ## One text -/

/-- The three replacements of the writer as one. -/
def escapeChar (c : Char) : List Char :=
  if c = '\\' then ['\\', '\\']
  else if c = '\n' then ['\\', 'n']
  else if c = '"' then ['\\', '"']
  else [c]

/-- The three replacements of the reader, one after the other. -/
def unescape (text : List Char) : List Char :=
  replacePair '\\' '\\' ['\\'] (replacePair '\\' '"' ['"'] (replacePair '\\' 'n' ['\n'] text))

/-- What comes back for a text: the letter after a backslash is lost if it is an n. -/
def reread (text : List Char) : List Char := replacePair '\\' 'n' ['\\', '\n'] text

theorem yamlQuote_eq (value : List Char) :
    yamlQuote value = '"' :: (value.flatMap escapeChar ++ ['"']) := by
  have h : replaceChar '"' ['\\', '"'] (replaceChar '\n' ['\\', 'n']
      (replaceChar '\\' ['\\', '\\'] value)) = value.flatMap escapeChar := by
    simp only [replaceChar, flatMap_assoc]
    congr 1
    funext c
    by_cases hslash : c = '\\'
    · subst hslash; rfl
    · by_cases hnewline : c = '\n'
      · subst hnewline; rfl
      · simp [escapeChar, hslash, hnewline]
  simp only [yamlQuote, h]

variable {c : Char}

theorem unescape_cons (hc : c ≠ '\\') (text : List Char) :
    unescape (c :: text) = c :: unescape text := by
  simp only [unescape, replacePair_cons_of_ne hc]

theorem unescape_newline (text : List Char) :
    unescape ('\\' :: 'n' :: text) = '\n' :: unescape text := by
  simp only [unescape, replacePair_pair, singleton_append]
  rw [replacePair_cons_of_ne (by decide), replacePair_cons_of_ne (by decide)]

theorem unescape_quote (text : List Char) :
    unescape ('\\' :: '"' :: text) = '"' :: unescape text := by
  have hn : '"' ≠ 'n' := by decide
  have hq : '"' ≠ '\\' := by decide
  simp only [unescape]
  rw [replacePair_cons_cons_of_ne hn, replacePair_cons_of_ne hq, replacePair_pair,
    singleton_append, replacePair_cons_of_ne hq]

/-- A backslash with an n after it: the newline is found in the middle of the two. -/
theorem unescape_slash_n (text : List Char) :
    unescape ('\\' :: '\\' :: 'n' :: text) = '\\' :: '\n' :: unescape text := by
  have hn : '\\' ≠ 'n' := by decide
  have hq : '\n' ≠ '"' := by decide
  have hs : '\n' ≠ '\\' := by decide
  simp only [unescape]
  rw [replacePair_cons_cons_of_ne hn, replacePair_pair, singleton_append,
    replacePair_cons_cons_of_ne hq, replacePair_cons_of_ne hs,
    replacePair_cons_cons_of_ne hs, replacePair_cons_of_ne hs]

variable {text : List Char}

theorem replacePair_cons_of_head {b : Char} (h : text.head? ≠ some b)
    (a c : Char) (new : List Char) :
    replacePair a b new (c :: text) = c :: replacePair a b new text := by
  cases text with
  | nil => rfl
  | cons d rest => exact replacePair_cons_cons_of_ne (fun hd => h (by rw [hd]; rfl)) a c new rest

/-- The first replacement puts no quote in front. -/
theorem head?_newlines (h : text.head? ≠ some '"') :
    (replacePair '\\' 'n' ['\n'] text).head? ≠ some '"' := by
  cases text with
  | nil => exact h
  | cons c rest =>
    by_cases hc : c = '\\'
    · subst hc
      cases rest with
      | nil => decide
      | cons d rest =>
        by_cases hd : d = 'n'
        · subst hd
          rw [replacePair_pair]
          exact fun h => absurd (some.inj h) (by decide)
        · rw [replacePair_cons_cons_of_ne hd]
          exact h
    · rw [replacePair_cons_of_ne hc]
      exact h

theorem unescape_slash (hn : text.head? ≠ some 'n')
    (hq : text.head? ≠ some '"') : unescape ('\\' :: '\\' :: text) = '\\' :: unescape text := by
  simp only [unescape]
  rw [replacePair_cons_cons_of_ne (by decide), replacePair_cons_of_head hn,
    replacePair_cons_cons_of_ne (by decide), replacePair_cons_of_head (head?_newlines hq),
    replacePair_pair, singleton_append]

theorem unescape_escapeChar (hn : c = '\\' → text.head? ≠ some 'n') (hq : text.head? ≠ some '"') :
    unescape (escapeChar c ++ text) = c :: unescape text := by
  by_cases hslash : c = '\\'
  · rw [hslash]
    exact unescape_slash (hn hslash) hq
  · by_cases hnewline : c = '\n'
    · rw [hnewline]
      exact unescape_newline text
    · by_cases hquote : c = '"'
      · rw [hquote]
        exact unescape_quote text
      · have h : escapeChar c = [c] := by simp [escapeChar, hslash, hnewline, hquote]
        rw [h]
        exact unescape_cons hslash text

theorem head?_escape_cons (c : Char) (text : List Char) :
    ((c :: text).flatMap escapeChar).head? =
      some (if c = '\\' ∨ c = '\n' ∨ c = '"' then '\\' else c) := by
  rw [flatMap_cons, escapeChar]
  split
  · simp_all
  · split
    · simp_all
    · split <;> simp_all

theorem head?_escape_ne_quote (text : List Char) : (text.flatMap escapeChar).head? ≠ some '"' := by
  cases text with
  | nil => simp
  | cons c rest =>
    rw [head?_escape_cons]
    intro h
    have h := some.inj h
    split at h
    · exact absurd h (by decide)
    · rename_i hc
      exact hc (Or.inr (Or.inr h))

/-- Escaping and unescaping: all comes back but the n after a backslash. -/
theorem unescape_escape (text : List Char) : unescape (text.flatMap escapeChar) = reread text := by
  induction text using replacePair.induct '\\' 'n' with
  | case1 => rfl
  | case2 c =>
    have hnil : ∀ d, ([] : List Char).head? ≠ some d := by simp
    have h := unescape_escapeChar (c := c) (fun _ => hnil 'n') (hnil '"')
    rw [append_nil] at h
    rw [flatMap_singleton, h]
    rfl
  | case3 c d rest hcd ih =>
    obtain ⟨rfl, rfl⟩ := hcd
    have h : ('\\' :: 'n' :: rest).flatMap escapeChar =
        '\\' :: '\\' :: 'n' :: rest.flatMap escapeChar := rfl
    rw [h, unescape_slash_n, ih, reread, reread, replacePair_pair]
    rfl
  | case4 c d rest hcd ih =>
    have hn : c = '\\' → ((d :: rest).flatMap escapeChar).head? ≠ some 'n' := by
      intro hc h
      rw [head?_escape_cons] at h
      have h := some.inj h
      split at h
      · exact absurd h (by decide)
      · exact hcd ⟨hc, h⟩
    rw [flatMap_cons, unescape_escapeChar hn (head?_escape_ne_quote _), ih, reread, reread,
      replacePair, if_neg hcd]

/-- A value that `strip` leaves as it is. -/
structure Trimmed (value : List Char) : Prop where
  ne_nil : value ≠ []
  head : isSpace (value.head ne_nil) = false
  last : isSpace (value.getLast ne_nil) = false

variable {value : List Char}

theorem Trimmed.stripChars_eq (h : Trimmed value) : stripChars value = value :=
  stripChars_append [] (by simp) h.ne_nil h.head h.last

theorem trimmed_yamlQuote (value : List Char) : Trimmed (yamlQuote value) := by
  rw [yamlQuote_eq]
  refine ⟨by simp, rfl, ?_⟩
  rw [getLast_cons (by simp), getLast_append_of_ne_nil _ (by simp)]
  decide

theorem unquote_yamlQuote (value : List Char) : unquote (yamlQuote value) = reread value := by
  have hlast : (yamlQuote value).getLast? = some '"' := by
    rw [yamlQuote_eq, ← cons_append, List.getLast?_concat]
  have hinner : (yamlQuote value).tail.dropLast = value.flatMap escapeChar := by
    rw [yamlQuote_eq, tail_cons, dropLast_concat]
  have hlong : 2 ≤ (yamlQuote value).length := by
    rw [yamlQuote_eq, length_cons, length_append, length_singleton]
    omega
  have hhead : (yamlQuote value).head? = some '"' := rfl
  simp only [unquote, (trimmed_yamlQuote value).stripChars_eq]
  rw [if_pos ⟨hlong, hhead, hlast⟩, hinner]
  exact unescape_escape value

theorem trimmed_executorNodeText (nodeId : Option String) : Trimmed (executorNodeText nodeId) := by
  have hnull : Trimmed "null".toList := ⟨by decide, by decide, by decide⟩
  cases nodeId with
  | none => exact hnull
  | some nodeId =>
    rw [executorNodeText]
    split
    · exact hnull
    · exact trimmed_yamlQuote _

/-! ## One line -/

variable {key : List Char} {st : Reading}

section

variable (u : Unicode)

/-- A key that is a word of ASCII letters and underscores. -/
structure IsKey (key : List Char) : Prop where
  ne_nil : key ≠ []
  word : ∀ c ∈ key, isAsciiWord c = true

theorem matchField_field (hkey : IsKey key) (hvalue : Trimmed value) :
    matchField u (key ++ ':' :: ' ' :: value) = some (key, value) := by
  have hword : ∀ c ∈ key, u.isWord c = true := fun c hc => u.isWord_of_ascii c (hkey.word c hc)
  have hcolon : ¬ u.isWord ':' = true := by simp [u.isWord_colon]
  have htake : (key ++ ':' :: ' ' :: value).takeWhile u.isWord = key := by
    rw [takeWhile_append_of_pos hword, takeWhile_cons_of_neg hcolon, append_nil]
  have hdrop : (key ++ ':' :: ' ' :: value).dropWhile u.isWord = ':' :: ' ' :: value := by
    rw [dropWhile_append_of_pos hword, dropWhile_cons_of_neg hcolon]
  have hspace : (' ' :: value).dropWhile isSpace = value := by
    have hc := hvalue.head
    rw [dropWhile_cons_of_pos (by decide)]
    cases value with
    | nil => rfl
    | cons c rest => exact dropWhile_cons_of_neg (by simpa using hc)
  obtain ⟨c, rest, rfl⟩ := exists_cons_of_ne_nil hkey.ne_nil
  rw [matchField, htake, hdrop]
  exact congrArg (fun v => some (c :: rest, v)) hspace

/-- The key and the value of a line, without the white space before them. -/
structure IsField (stripped : List Char) : Prop where
  ne_nil : stripped ≠ []
  comment : stripped.head? ≠ some '#'
  block : stripped ≠ "personas:".toList

theorem isField_field (hkey : IsKey key)
    (hvalue : Trimmed value) : IsField (key ++ ':' :: ' ' :: value) := by
  refine ⟨by simp, ?_, ?_⟩
  · obtain ⟨c, rest, rfl⟩ := exists_cons_of_ne_nil hkey.ne_nil
    intro h
    have hc : c = '#' := some.inj h
    have hword := hkey.word c (mem_cons_self ..)
    rw [hc] at hword
    exact absurd hword (by decide)
  · intro h
    have hblock : matchField ascii "personas:".toList = some ("personas".toList, []) := by decide
    have hfield := matchField_field ascii hkey hvalue
    rw [h, hblock] at hfield
    exact hvalue.ne_nil (congrArg Prod.snd (some.inj hfield)).symm

theorem matchItem_field (hkey : IsKey key) (rest : List Char) :
    matchItem u (key ++ rest) = none := by
  obtain ⟨c, key, rfl⟩ := exists_cons_of_ne_nil hkey.ne_nil
  have hc : c ≠ '-' := by
    rintro rfl
    exact absurd (hkey.word '-' (mem_cons_self ..)) (by decide)
  rw [cons_append, matchItem]
  rintro d tail h
  exact absurd (List.cons.inj h).1 hc

theorem stripChars_field (pad : List Char) (hpad : ∀ c ∈ pad, isSpace c = true)
    (hne : key ≠ []) (hhead : isSpace (key.head hne) = false) (hvalue : Trimmed value) :
    stripChars (pad ++ (key ++ ':' :: ' ' :: value)) = key ++ ':' :: ' ' :: value := by
  have hlast : (key ++ ':' :: ' ' :: value).getLast (by simp) = value.getLast hvalue.ne_nil := by
    rw [getLast_append_of_ne_nil _ (by simp), getLast_cons (by simp), getLast_cons hvalue.ne_nil]
  refine stripChars_append pad hpad (by simp) ?_ (by rw [hlast]; exact hvalue.last)
  rw [head_append_of_ne_nil hne]
  exact hhead

theorem IsKey.head (h : IsKey key) : isSpace (key.head h.ne_nil) = false :=
  isSpace_of_isAsciiWord (h.word _ (head_mem h.ne_nil))

theorem readLine_field (hst : st.inPersonasBlock = true)
    (hkey : IsKey key) (hvalue : Trimmed value) :
    readLine u st ("    ".toList ++ (key ++ ':' :: ' ' :: value)) =
      { st with current := st.current.set key (unquote value) } := by
  have hstrip := stripChars_field "    ".toList (by decide) hkey.ne_nil hkey.head hvalue
  have hfield := isField_field hkey hvalue
  simp only [readLine, hstrip]
  rw [if_neg (not_or.mpr ⟨hfield.ne_nil, hfield.comment⟩), if_neg hfield.block,
    if_neg (by simp [hst]), matchItem_field u hkey, matchField_field u hkey hvalue]

theorem readLine_item (hst : st.inPersonasBlock = true)
    (hkey : IsKey key) (hvalue : Trimmed value) :
    readLine u st ("  - ".toList ++ (key ++ ':' :: ' ' :: value)) =
      { st with personas := st.flush u, current := Dict.set Table.empty key (unquote value) } := by
  have hdash : "- ".toList ++ key ≠ [] := by simp
  have hstrip := stripChars_field "  ".toList (by decide) hdash (by rfl) hvalue
  have hdrop : (key ++ ':' :: ' ' :: value).dropWhile isSpace = key ++ ':' :: ' ' :: value := by
    have hhead := hkey.head
    obtain ⟨c, rest, rfl⟩ := exists_cons_of_ne_nil hkey.ne_nil
    exact dropWhile_cons_of_neg (by simpa using hhead)
  have hitem : matchItem u ("- ".toList ++ key ++ ':' :: ' ' :: value) = some (key, value) := by
    show (if isSpace ' ' = true then matchField u ((key ++ ':' :: ' ' :: value).dropWhile isSpace)
      else none) = _
    rw [if_pos (by decide), hdrop, matchField_field u hkey hvalue]
  have hshape : "  - ".toList ++ (key ++ ':' :: ' ' :: value) =
      "  ".toList ++ ("- ".toList ++ key ++ ':' :: ' ' :: value) := rfl
  simp only [readLine, hshape, hstrip]
  rw [if_neg (by rintro (h | h); exacts [absurd h (by simp), absurd h (by simp)]),
    if_neg (by simp), if_neg (by simp [hst]), hitem]

/-! ## One persona -/

/-- The fields that are read from the lines of a persona. -/
def fieldsOf (persona : Persona) : Fields :=
  Dict.set (Dict.set (Dict.set (Dict.set (Dict.set (Dict.set Table.empty
    "name".toList (reread persona.name.toList))
    "persona_id".toList (reread persona.personaId.toList))
    "avatar".toList (reread persona.avatar.toList))
    "base_prompt".toList (reread persona.basePrompt.toList))
    "executor_node_id".toList (unquote (executorNodeText persona.executorNodeId)))
    "bro_detail_session_id".toList (reread persona.broDetailSessionId.toList)

/-- The persona that comes back from the file for one that was written to it. -/
def rereadPersona (persona : Persona) : Persona :=
  let name := reread persona.name.toList
  let personaId := orElse (some (reread persona.personaId.toList))
    ("persona-".toList ++ replaceChar ' ' ['-'] (u.lower name))
  { personaId := String.ofList personaId
    name := String.ofList name
    avatar := String.ofList (reread persona.avatar.toList)
    basePrompt := String.ofList (reread persona.basePrompt.toList)
    executorNodeId := optionalValue (unquote (executorNodeText persona.executorNodeId))
    broDetailSessionId := String.ofList (orElse (some (reread persona.broDetailSessionId.toList))
      (legacyBroDetailSessionId personaId)) }

theorem lookup_fieldsOf (persona : Persona) (key : List Char) :
    (fieldsOf persona).lookup key =
      if "bro_detail_session_id".toList = key then some (reread persona.broDetailSessionId.toList)
      else if "executor_node_id".toList = key then
        some (unquote (executorNodeText persona.executorNodeId))
      else if "base_prompt".toList = key then some (reread persona.basePrompt.toList)
      else if "avatar".toList = key then some (reread persona.avatar.toList)
      else if "persona_id".toList = key then some (reread persona.personaId.toList)
      else if "name".toList = key then some (reread persona.name.toList)
      else none := by
  simp only [fieldsOf, Dict.lookup_set]
  rfl

theorem buildPersona_fieldsOf (persona : Persona) :
    buildPersona u (fieldsOf persona) = rereadPersona u persona := by
  simp [buildPersona, rereadPersona, lookup_fieldsOf]

theorem reread_eq_nil_iff : reread text = [] ↔ text = [] := by
  have h := length_replacePair '\\' 'n' (show ['\\', '\n'].length = 2 from rfl) text
  rw [← length_eq_zero_iff, ← length_eq_zero_iff, reread, h]

def fieldLine (field : List Char × List Char) : List Char :=
  "    ".toList ++ (field.1 ++ ':' :: ' ' :: field.2)

theorem foldl_fieldLines {fields : List (List Char × List Char)}
    (h : ∀ field ∈ fields, IsKey field.1 ∧ Trimmed field.2)
    (hst : st.inPersonasBlock = true) : (fields.map fieldLine).foldl (readLine u) st =
      { st with
        current := fields.foldl (fun d field => Dict.set d field.1 (unquote field.2)) st.current } := by
  induction fields generalizing st with
  | nil => rfl
  | cons field fields ih =>
    obtain ⟨hkey, hvalue⟩ := h field (mem_cons_self ..)
    rw [map_cons, foldl_cons, fieldLine, readLine_field u hst hkey hvalue]
    exact ih (fun f hf => h f (mem_cons_of_mem _ hf)) hst

/-- The fields after the name, as they are written. -/
def writtenFields (persona : Persona) : List (List Char × List Char) :=
  [ ("persona_id".toList, yamlQuote persona.personaId.toList),
    ("avatar".toList, yamlQuote persona.avatar.toList),
    ("base_prompt".toList, yamlQuote persona.basePrompt.toList),
    ("executor_node_id".toList, executorNodeText persona.executorNodeId),
    ("bro_detail_session_id".toList, yamlQuote persona.broDetailSessionId.toList) ]

theorem writtenFields_wellFormed (persona : Persona) :
    ∀ field ∈ writtenFields persona, IsKey field.1 ∧ Trimmed field.2 := by
  have hkeys : ∀ key ∈ ["persona_id".toList, "avatar".toList, "base_prompt".toList,
      "executor_node_id".toList, "bro_detail_session_id".toList],
      key ≠ [] ∧ ∀ c ∈ key, isAsciiWord c = true := by decide
  have hkey : ∀ key ∈ ["persona_id".toList, "avatar".toList, "base_prompt".toList,
      "executor_node_id".toList, "bro_detail_session_id".toList], IsKey key :=
    fun key h => ⟨(hkeys key h).1, (hkeys key h).2⟩
  intro field hfield
  simp only [writtenFields, mem_cons, not_mem_nil, or_false] at hfield
  rcases hfield with rfl | rfl | rfl | rfl | rfl
  · exact ⟨hkey _ (by simp), trimmed_yamlQuote _⟩
  · exact ⟨hkey _ (by simp), trimmed_yamlQuote _⟩
  · exact ⟨hkey _ (by simp), trimmed_yamlQuote _⟩
  · exact ⟨hkey _ (by simp), trimmed_executorNodeText _⟩
  · exact ⟨hkey _ (by simp), trimmed_yamlQuote _⟩

/-- The lines of a persona in the block: the persona before it is kept, and its own
fields are there. -/
theorem foldl_personaLines (hst : st.inPersonasBlock = true) (persona : Persona) :
    (personaLines persona).foldl (readLine u) st =
      { personas := st.flush u, current := fieldsOf persona, inPersonasBlock := true } := by
  have hlines : personaLines persona =
      ("  - ".toList ++ ("name".toList ++ ':' :: ' ' :: yamlQuote persona.name.toList)) ::
        (writtenFields persona).map fieldLine := rfl
  have hkey : IsKey "name".toList := ⟨by decide, by decide⟩
  have hname := readLine_item u hst hkey (trimmed_yamlQuote persona.name.toList)
  rw [hlines, foldl_cons, hname, foldl_fieldLines u (writtenFields_wellFormed persona)]
  · simp only [writtenFields, foldl_cons, foldl_nil, unquote_yamlQuote, hst, fieldsOf]
  · exact hst

/-! ## The whole file -/

/-- Whether a persona is there after reading: one with an empty name is dropped. -/
def isNamed (persona : Persona) : Bool := persona.name ≠ ""

theorem flush_fieldsOf (st : Reading) (persona : Persona) :
    Reading.flush u { st with current := fieldsOf persona } =
      st.personas ++ ([rereadPersona u persona].filter isNamed) := by
  have hname : ((fieldsOf persona).lookup "name".toList).getD [] = reread persona.name.toList := by
    simp [lookup_fieldsOf]
  simp only [Reading.flush, hname, buildPersona_fieldsOf]
  by_cases h : reread persona.name.toList = []
  · simp [h, isNamed, rereadPersona]
  · simp [h, isNamed, rereadPersona]

theorem foldl_personas (personas : List Persona) (hst : st.inPersonasBlock = true) :
    Reading.flush u ((personas.flatMap personaLines).foldl (readLine u) st) =
      st.flush u ++ ((personas.map (rereadPersona u)).filter isNamed) := by
  induction personas generalizing st with
  | nil => simp
  | cons persona personas ih =>
    rw [flatMap_cons, foldl_append, foldl_personaLines u hst, ih rfl,
      flush_fieldsOf u ⟨st.flush u, fieldsOf persona, true⟩, append_assoc,
      ← filter_append]
    rfl

/-- Only the newline ends a line in the text. -/
def OnlyNewlines (text : List Char) : Prop := ∀ c ∈ text, isLineBreak c = true → c = '\n'

instance (text : List Char) : Decidable (OnlyNewlines text) :=
  inferInstanceAs (Decidable (∀ c ∈ text, isLineBreak c = true → c = '\n'))

def texts (persona : Persona) : List String :=
  [persona.name, persona.personaId, persona.avatar, persona.basePrompt,
    persona.broDetailSessionId] ++ persona.executorNodeId.toList

theorem yamlQuote_free (h : OnlyNewlines text) : ∀ c ∈ yamlQuote text, isLineBreak c = false := by
  intro c hc
  rw [yamlQuote_eq] at hc
  simp only [mem_cons, mem_append, mem_flatMap, not_mem_nil, or_false] at hc
  rcases hc with rfl | ⟨d, hd, hc⟩ | rfl
  · decide
  · by_cases hslash : d = '\\'
    · subst hslash
      revert c
      decide
    · by_cases hnewline : d = '\n'
      · subst hnewline
        revert c
        decide
      · by_cases hquote : d = '"'
        · subst hquote
          revert c
          decide
        · have hsame : c = d := by simpa [escapeChar, hslash, hnewline, hquote] using hc
          rw [hsame]
          by_contra hb
          exact hnewline (h d hd (by simpa using hb))
  · decide

theorem personaLines_free {persona : Persona}
    (h : ∀ text ∈ texts persona, OnlyNewlines text.toList) :
    ∀ line ∈ personaLines persona, ∀ c ∈ line, isLineBreak c = false := by
  have hnode : ∀ c ∈ executorNodeText persona.executorNodeId, isLineBreak c = false := by
    cases hid : persona.executorNodeId with
    | none => decide
    | some nodeId =>
      rw [executorNodeText]
      split
      · decide
      · exact yamlQuote_free (h nodeId (by simp [texts, hid]))
  have hquoted : ∀ text ∈ texts persona, ∀ c ∈ yamlQuote text.toList, isLineBreak c = false :=
    fun text htext => yamlQuote_free (h text htext)
  have hlit : ∀ start ∈ ["  - name: ".toList, "    persona_id: ".toList, "    avatar: ".toList,
      "    base_prompt: ".toList, "    executor_node_id: ".toList,
      "    bro_detail_session_id: ".toList], ∀ c ∈ start, isLineBreak c = false := by decide
  have happ : ∀ {a b : List Char}, (∀ c ∈ a, isLineBreak c = false) →
      (∀ c ∈ b, isLineBreak c = false) → ∀ c ∈ a ++ b, isLineBreak c = false :=
    fun ha hb c hc => (mem_append.mp hc).elim (ha c) (hb c)
  intro line hline
  simp only [personaLines, mem_cons, not_mem_nil, or_false] at hline
  rcases hline with rfl | rfl | rfl | rfl | rfl | rfl
  · exact happ (hlit _ (by simp)) (hquoted _ (by simp [texts]))
  · exact happ (hlit _ (by simp)) (hquoted _ (by simp [texts]))
  · exact happ (hlit _ (by simp)) (hquoted _ (by simp [texts]))
  · exact happ (hlit _ (by simp)) (hquoted _ (by simp [texts]))
  · exact happ (hlit _ (by simp)) hnode
  · exact happ (hlit _ (by simp)) (hquoted _ (by simp [texts]))

/-- What the reader makes of a file whose texts have no line ends but newlines. -/
theorem parse_writePersonaStore {personas : List Persona}
    (h : ∀ persona ∈ personas, ∀ text ∈ texts persona, OnlyNewlines text.toList) :
    parsePersonaStoreYaml u (writePersonaStore personas) =
      (personas.map (rereadPersona u)).filter isNamed := by
  have hfree : ∀ line ∈ "personas:".toList :: personas.flatMap personaLines,
      ∀ c ∈ line, isLineBreak c = false := by
    intro line hline
    rcases mem_cons.mp hline with rfl | hline
    · decide
    · obtain ⟨persona, hpersona, hline⟩ := mem_flatMap.mp hline
      exact personaLines_free (h persona hpersona) line hline
  have hstart : readLine u ⟨[], Table.empty, false⟩ "personas:".toList =
      ⟨[], Table.empty, true⟩ := rfl
  rw [parsePersonaStoreYaml, writePersonaStore, splitLines_joinLines hfree, foldl_cons,
    hstart, foldl_personas u personas rfl]
  rfl

/-! ## Line ends do not come back -/

theorem OnlyNewlines.of_subset {other : List Char} (h : OnlyNewlines other)
    (hsub : ∀ c ∈ text, c ∈ other) : OnlyNewlines text :=
  fun c hc => h c (hsub c hc)

theorem OnlyNewlines.append {other : List Char} (h : OnlyNewlines text)
    (hother : OnlyNewlines other) : OnlyNewlines (text ++ other) :=
  fun c hc => (mem_append.mp hc).elim (h c) (hother c)

theorem OnlyNewlines.replacePair {a b : Char} {new : List Char} (h : OnlyNewlines text)
    (hnew : OnlyNewlines new) : OnlyNewlines (replacePair a b new text) :=
  fun c hc => (mem_replacePair hc).elim (h c) (hnew c)

theorem OnlyNewlines.orElse {text : Option (List Char)} {default : List Char}
    (h : ∀ t, text = some t → OnlyNewlines t) (hdefault : OnlyNewlines default) :
    OnlyNewlines (orElse text default) := by
  cases text with
  | none => exact hdefault
  | some text =>
    rw [PersonaPool.orElse]
    split
    · exact hdefault
    · exact h text rfl

theorem OnlyNewlines.unquote (h : OnlyNewlines value) : OnlyNewlines (unquote value) := by
  have hstrip : OnlyNewlines (stripChars value) := h.of_subset fun _ hc => mem_stripChars hc
  have hinner : OnlyNewlines (stripChars value).tail.dropLast :=
    hstrip.of_subset fun _ hc => mem_of_mem_tail (mem_of_mem_dropLast hc)
  have hlit : OnlyNewlines ['\n'] ∧ OnlyNewlines ['"'] ∧ OnlyNewlines ['\\'] := by decide
  simp only [PersonaPool.unquote]
  split
  · exact ((hinner.replacePair hlit.1).replacePair hlit.2.1).replacePair hlit.2.2
  · split
    · exact hinner
    · exact hstrip

theorem mem_subSlug {inRun : Bool} (h : c ∈ subSlug inRun text) : c ∈ text ∨ c = '-' := by
  induction text generalizing inRun with
  | nil => exact Or.inl h
  | cons d rest ih =>
    have hrest : ∀ {inRun : Bool}, c ∈ subSlug inRun rest → c ∈ d :: rest ∨ c = '-' :=
      fun h => (ih h).imp_left (mem_cons_of_mem d)
    rw [subSlug] at h
    split at h
    · rcases mem_cons.mp h with rfl | h
      · exact Or.inl (mem_cons_self ..)
      · exact hrest h
    · split at h
      · exact hrest h
      · rcases mem_cons.mp h with rfl | h
        · exact Or.inr rfl
        · exact hrest h

theorem onlyNewlines_legacyBroDetailSessionId {personaId : List Char} (h : OnlyNewlines personaId) :
    OnlyNewlines (legacyBroDetailSessionId personaId) := by
  have hstart : OnlyNewlines "bro-detail-".toList := by decide
  have hbro : OnlyNewlines "bro".toList := by decide
  have hslug : OnlyNewlines (stripDashes (subSlug false personaId)) := by
    intro c hc
    have hback := (dropWhile_sublist _).mem (mem_reverse.mp hc)
    have hfront := (dropWhile_sublist _).mem (mem_reverse.mp hback)
    rcases mem_subSlug hfront with hc | rfl
    · exact h c hc
    · decide
  exact hstart.append (OnlyNewlines.orElse (fun t ht => some.inj ht ▸ hslug) hbro)

/-- The persona's texts come from one line each. -/
def FlatPersona (persona : Persona) : Prop := ∀ text ∈ texts persona, OnlyNewlines text.toList

theorem flatPersona_buildPersona {fields : Fields}
    (h : ∀ key value, fields.lookup key = some value → OnlyNewlines value) :
    FlatPersona (buildPersona u fields) := by
  have hget : ∀ key, OnlyNewlines ((fields.lookup key).getD []) := by
    intro key
    cases hkey : fields.lookup key with
    | none => exact fun c hc => absurd hc (by simp)
    | some value => exact h key value hkey
  have hid : OnlyNewlines (buildPersona u fields).personaId.toList := by
    have hstart : OnlyNewlines "persona-".toList := by decide
    have hlower : OnlyNewlines (replaceChar ' ' ['-'] (u.lower ((fields.lookup "name".toList).getD []))) := by
      intro c hc
      obtain ⟨d, hd, hc⟩ := mem_flatMap.mp hc
      by_cases hspace : d = ' '
      · rw [if_pos hspace] at hc
        rw [mem_singleton.mp hc]
        decide
      · rw [if_neg hspace] at hc
        rw [mem_singleton.mp hc]
        exact u.lower_breaks _ (hget _) d hd
    simp only [buildPersona, String.toList_ofList]
    exact OnlyNewlines.orElse (fun t ht => h _ t ht) (hstart.append hlower)
  intro text htext
  simp only [texts, mem_append, mem_cons, not_mem_nil, or_false, mem_toList] at htext
  rcases htext with (rfl | rfl | rfl | rfl | rfl) | htext
  · simpa [buildPersona] using hget "name".toList
  · exact hid
  · simpa [buildPersona] using hget "avatar".toList
  · simpa [buildPersona] using hget "base_prompt".toList
  · have hlegacy := onlyNewlines_legacyBroDetailSessionId hid
    simp only [buildPersona, String.toList_ofList] at hlegacy ⊢
    exact OnlyNewlines.orElse (fun t ht => h _ t ht) hlegacy
  · simp only [buildPersona, optionalValue] at htext
    split at htext
    · cases htext
    · rw [← some.inj htext, String.toList_ofList]
      exact hget _

/-- What has been read comes from lines without line breaks. -/
structure Reading.Flat (st : Reading) : Prop where
  personas : ∀ persona ∈ st.personas, FlatPersona persona
  current : ∀ key value, st.current.lookup key = some value → OnlyNewlines value

theorem Reading.Flat.flush (h : st.Flat) : ∀ persona ∈ st.flush u, FlatPersona persona := by
  intro persona hpersona
  rw [Reading.flush] at hpersona
  split at hpersona
  · exact h.personas persona hpersona
  · rcases mem_append.mp hpersona with hpersona | hpersona
    · exact h.personas persona hpersona
    · rw [mem_singleton.mp hpersona]
      exact flatPersona_buildPersona u h.current

theorem mem_of_matchField {stripped : List Char}
    (h : matchField u stripped = some (key, value)) : ∀ c ∈ value, c ∈ stripped := by
  intro c hc
  rw [matchField] at h
  split at h
  · rename_i k rest hkey hrest
    obtain ⟨-, rfl⟩ := Prod.mk.inj (some.inj h)
    have hin : c ∈ stripped.dropWhile u.isWord := by
      rw [hrest]
      exact mem_cons_of_mem _ ((dropWhile_sublist isSpace).mem hc)
    exact (dropWhile_sublist _).mem hin
  · cases h

theorem mem_of_matchItem {stripped : List Char}
    (h : matchItem u stripped = some (key, value)) : ∀ c ∈ value, c ∈ stripped := by
  intro c hc
  rw [matchItem.eq_def] at h
  split at h
  · split at h
    · have hin := (dropWhile_sublist isSpace).mem (mem_of_matchField u h c hc)
      exact mem_cons_of_mem _ (mem_cons_of_mem _ hin)
    · cases h
  · cases h

theorem Reading.Flat.readLine (h : st.Flat) {line : List Char}
    (hline : OnlyNewlines line) : (readLine u st line).Flat := by
  have hvalue : ∀ {value : List Char}, (∀ c ∈ value, c ∈ stripChars line) →
      OnlyNewlines (PersonaPool.unquote value) :=
    fun hsub => (hline.of_subset fun c hc => mem_stripChars (hsub c hc)).unquote
  have hset : ∀ (fields : Fields) {key value : List Char},
      (∀ k v, fields.lookup k = some v → OnlyNewlines v) → OnlyNewlines value →
      ∀ k v, (fields.set key value).lookup k = some v → OnlyNewlines v := by
    intro fields key value hfields hnew k v hlookup
    rw [Dict.lookup_set] at hlookup
    split at hlookup
    · exact some.inj hlookup ▸ hnew
    · exact hfields k v hlookup
  simp only [PersonaPool.readLine]
  split
  · exact h
  · split
    · exact ⟨h.personas, h.current⟩
    · split
      · exact h
      · split
        · rename_i key value hitem
          have hempty : ∀ k v, Dict.lookup (Table.empty : Fields) k = some v → OnlyNewlines v :=
            fun k v hlookup => by cases hlookup
          exact ⟨h.flush u, hset _ hempty (hvalue (mem_of_matchItem u hitem))⟩
        · split
          · rename_i key value hfield
            exact ⟨h.personas, hset _ h.current (hvalue (mem_of_matchField u hfield))⟩
          · exact h

/-- No text that is read holds a line end other than the newline. -/
theorem flatPersona_parse (text : List Char) :
    ∀ persona ∈ parsePersonaStoreYaml u text, FlatPersona persona := by
  have hlines : ∀ lines : List (List Char), (∀ line ∈ lines, ∀ c ∈ line, isLineBreak c = false) →
      ∀ st : Reading, st.Flat → (lines.foldl (readLine u) st).Flat := by
    intro lines
    induction lines with
    | nil => exact fun _ _ h => h
    | cons line lines ih =>
      intro hfree st hst
      have hline : OnlyNewlines line := fun c hc hb =>
        absurd hb (by simp [hfree line (mem_cons_self ..) c hc])
      exact ih (fun l hl => hfree l (mem_cons_of_mem _ hl)) _ (hst.readLine u hline)
  have hstart : Reading.Flat ⟨[], Table.empty, false⟩ := ⟨by simp, fun k v h => by cases h⟩
  exact (hlines _ (splitLinesFrom_free text (by simp)) _ hstart).flush u

/-! ## What comes back -/

/-- A text that comes back as it is. -/
structure KeptText (text : List Char) : Prop where
  onlyNewlines : OnlyNewlines text
  noSlashN : ¬ ['\\', 'n'] <:+: text

structure KeptPersona (persona : Persona) : Prop where
  kept : ∀ text ∈ texts persona, KeptText text.toList
  name : persona.name ≠ ""
  personaId : persona.personaId ≠ ""
  broDetailSessionId : persona.broDetailSessionId ≠ ""
  executorNodeId : ∀ nodeId ∈ persona.executorNodeId,
    nodeId ≠ "" ∧ nodeId ≠ "null" ∧ nodeId ≠ "~"

theorem ofList_eq_iff {chars : List Char} {text : String} :
    String.ofList chars = text ↔ chars = text.toList := by
  constructor
  · rintro rfl
    exact String.toList_ofList.symm
  · rintro rfl
    exact String.ofList_toList

theorem reread_eq_iff (text : List Char) : reread text = text ↔ ¬ ['\\', 'n'] <:+: text :=
  replacePair_eq_self_iff (show ['\\', '\n'].length = 2 from rfl) (by decide) text

theorem ofList_orElse_eq_iff {text : String} {default : List Char} (hdefault : default ≠ []) :
    String.ofList (orElse (some (reread text.toList)) default) = text ↔
      text ≠ "" ∧ ¬ ['\\', 'n'] <:+: text.toList := by
  rw [orElse]
  by_cases hempty : text = ""
  · subst hempty
    simp [reread_eq_nil_iff, hdefault]
  · have hne : text.toList ≠ [] := by simpa using hempty
    rw [if_neg (by simpa [reread_eq_nil_iff] using hne), ofList_eq_iff, reread_eq_iff]
    simp [hempty]

theorem optionalValue_eq_iff (nodeId : Option String) :
    optionalValue (unquote (executorNodeText nodeId)) = nodeId ↔
      ∀ text ∈ nodeId, (text ≠ "" ∧ text ≠ "null" ∧ text ≠ "~") ∧
        ¬ ['\\', 'n'] <:+: text.toList := by
  have hnull : optionalValue (unquote "null".toList) = none := by decide
  cases nodeId with
  | none => simpa [executorNodeText] using hnull
  | some text =>
    by_cases hempty : text = ""
    · subst hempty
      rw [executorNodeText, if_pos rfl, hnull]
      simp
    · have hread : optionalValue (unquote (executorNodeText (some text))) =
          optionalValue (reread text.toList) := by
        rw [executorNodeText, if_neg hempty, unquote_yamlQuote]
      have hne : reread text.toList ≠ [] := by simpa [reread_eq_nil_iff] using hempty
      simp only [hread, ← reread_eq_iff]
      constructor
      · intro h
        rw [optionalValue] at h
        split at h
        · cases h
        · rename_i hno
          have hback := ofList_eq_iff.mp (some.inj h)
          rw [hback] at hno
          rintro other ⟨⟩
          refine ⟨⟨hempty, ?_, ?_⟩, hback⟩
          · rintro rfl
            exact hno (Or.inr (Or.inl rfl))
          · rintro rfl
            exact hno (Or.inr (Or.inr rfl))
      · intro h
        obtain ⟨⟨-, hnull, htilde⟩, hback⟩ := h text rfl
        rw [optionalValue, if_neg, ofList_eq_iff.mpr hback]
        rw [hback]
        rintro (h | h | h)
        · exact hne (hback.trans h)
        · exact hnull (String.toList_injective h)
        · exact htilde (String.toList_injective h)

theorem rereadPersona_eq_iff (persona : Persona) : rereadPersona u persona = persisted persona ↔
      (∀ text ∈ texts persona, ¬ ['\\', 'n'] <:+: text.toList) ∧ persona.personaId ≠ "" ∧
        persona.broDetailSessionId ≠ "" ∧ ∀ nodeId ∈ persona.executorNodeId,
          nodeId ≠ "" ∧ nodeId ≠ "null" ∧ nodeId ≠ "~" := by
  have hlegacy : ∀ personaId, legacyBroDetailSessionId personaId ≠ [] := fun personaId h => by
    have hhead := congrArg List.head? h
    cases hhead
  have hfresh : ∀ name, "persona-".toList ++ replaceChar ' ' ['-'] (u.lower name) ≠ [] :=
    fun name h => by
      have hhead := congrArg List.head? h
      cases hhead
  simp only [rereadPersona, persisted, Persona.mk.injEq, ofList_orElse_eq_iff (hfresh _),
    ofList_orElse_eq_iff (hlegacy _), ofList_eq_iff, reread_eq_iff, optionalValue_eq_iff, texts,
    mem_append, mem_cons, not_mem_nil, or_false, mem_toList]
  constructor
  · rintro ⟨⟨hid, hidn⟩, hname, havatar, hprompt, hnode, ⟨hbro, hbron⟩, -⟩
    refine ⟨?_, hid, hbro, fun nodeId h => (hnode nodeId h).1⟩
    rintro text ((rfl | rfl | rfl | rfl | rfl) | h)
    · exact hname
    · exact hidn
    · exact havatar
    · exact hprompt
    · exact hbron
    · exact (hnode text h).2
  · rintro ⟨htexts, hid, hbro, hnode⟩
    exact ⟨⟨hid, htexts _ (by simp)⟩, htexts _ (by simp), htexts _ (by simp), htexts _ (by simp),
      fun text h => ⟨hnode text h, htexts text (Or.inr h)⟩, ⟨hbro, htexts _ (by simp)⟩, trivial⟩

theorem isNamed_rereadPersona (persona : Persona) :
    isNamed (rereadPersona u persona) = true ↔ persona.name ≠ "" := by
  simp [isNamed, rereadPersona, reread_eq_nil_iff]

/-- The list comes back if and only if each persona of it does. -/
theorem load_write_eq_iff (personas : List Persona) :
    loadPersonasFromFile u (writePersonaStore personas) = personas.map persisted ↔
      ∀ persona ∈ personas, KeptPersona persona := by
  rw [loadPersonasFromFile_eq]
  constructor
  · intro h
    have hflat : ∀ persona ∈ personas, FlatPersona persona := fun persona hpersona =>
      flatPersona_parse u _ (persisted persona) (by rw [h]; exact mem_map_of_mem hpersona)
    rw [parse_writePersonaStore u hflat] at h
    have hlength := congrArg List.length h
    rw [length_map] at hlength
    have hall := length_filter_eq_length_iff.mp
      (hlength.trans (length_map (rereadPersona u)).symm)
    rw [filter_eq_self.mpr hall] at h
    have hsame := map_inj_left.mp h
    intro persona hpersona
    obtain ⟨hno, hid, hbro, hnode⟩ := (rereadPersona_eq_iff u persona).mp (hsame persona hpersona)
    have hname := (isNamed_rereadPersona u persona).mp (hall _ (mem_map_of_mem hpersona))
    exact ⟨fun text htext => ⟨hflat persona hpersona text htext, hno text htext⟩, hname, hid,
      hbro, hnode⟩
  · intro h
    rw [parse_writePersonaStore u fun persona hp text ht => ((h persona hp).kept text ht).onlyNewlines]
    have hnamed : ∀ persona ∈ personas.map (rereadPersona u), isNamed persona = true := by
      intro persona hpersona
      obtain ⟨old, hold, rfl⟩ := mem_map.mp hpersona
      exact (isNamed_rereadPersona u old).mpr (h old hold).name
    rw [filter_eq_self.mpr hnamed]
    refine map_congr_left fun persona hpersona => ?_
    have hkept := h persona hpersona
    exact (rereadPersona_eq_iff u persona).mpr ⟨fun text ht => (hkept.kept text ht).noSlashN,
      hkept.personaId, hkept.broDetailSessionId, hkept.executorNodeId⟩

end

/-- A prompt with a path in it: the n of `C:\new` comes back as a line end. -/
def pathPersona : Persona :=
  { personaId := "persona-alex", name := "Alex", basePrompt := "C:\\new"
    broDetailSessionId := "bro-detail-1" }

theorem pathPersona_not_read_back :
    loadPersonasFromFile ascii (writePersonaStore [pathPersona]) ≠ [persisted pathPersona] := by
  decide +kernel

end Newbro.PersonaPool
