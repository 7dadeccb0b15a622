import Newbro.Library.Blocks

/-!
# The YAML loader

`yaml_support.py`: PyYAML where it is installed, which is a parameter, and otherwise the parser that
is written by hand. That parser takes apart what is left of the lines; a position in the source is
here the lines from it on, which are an end of the lines that a function was given.
-/
namespace Newbro.YamlSupport

open Library Library.Text Library.Blocks List

/-- `entries[key] = value` -/
def setEntry (entries : Entries) (key : List Char) (value : Value) : Entries :=
  if entries.any (fun entry => entry.1 = key) then
    entries.map fun entry => if entry.1 = key then (key, value) else entry
  else entries ++ [(key, value)]

/-- What loading raises: a `YAMLParseError`, or an error of PyYAML. -/
inductive LoadError where
  | parse (message : String)
  | yaml (message : String)
  deriving Repr, DecidableEq

structure SimpleYamlLine where
  indent : Nat
  content : List Char
  lineno : Nat

/-- The lines from some position on. -/
abbrev Rest (lines : List SimpleYamlLine) := { rest : List SimpleYamlLine // rest <:+ lines }

def Rest.widen {line : SimpleYamlLine} {lines : List SimpleYamlLine} (rest : Rest lines) :
    Rest (line :: lines) :=
  ⟨rest.val, rest.property.trans (suffix_cons line lines)⟩

section parser

variable (u : Unicode) (decimal : Char → Option (Fin 10))

/-- Whether a text starts and ends with a quote, which are two characters. -/
def isQuoted (quote : Char) (value : List Char) : Bool :=
  value.head? = some quote && value.getLast? = some quote && 2 ≤ value.length

def parseScalar (value : List Char) : Value :=
  let lowered := u.lower value
  if lowered = "null".toList ∨ lowered = "~".toList then .null
  else if lowered = "true".toList then .bool true
  else if lowered = "false".toList then .bool false
  else if isQuoted '"' value then .str (replacePair '\\' '"' ['"'] value.tail.dropLast)
  else if isQuoted '\'' value then .str (replacePair '\\' '\'' ['\''] value.tail.dropLast)
  else if value = "\x7b\x7d".toList then .dict []
  else if value = "[]".toList then .list []
  else
    match readInt (transformDecimal decimal value) with
    | some n => .int n
    | none => if isFloat (transformDecimal decimal value) then .float value else .str value

/-- `content.startswith("- ")` -/
def startsItem (content : List Char) : Bool := "- ".toList.isPrefixOf content

def lineError (line : SimpleYamlLine) (message : String) : LoadError :=
  .parse ("line " ++ toString line.lineno ++ ": " ++ message)

mutual

def parseBlock (indent : Nat) (lines : List SimpleYamlLine) :
    Except LoadError (Value × Rest lines) :=
  match lines with
  | [] => .error (.parse "unexpected end of YAML input")
  | line :: rest =>
    if startsItem line.content then
      match parseList indent [] (line :: rest) with
      | .error e => .error e
      | .ok (items, after) => .ok (.list items, after)
    else if line.content = "\x7b\x7d".toList ∨ line.content = "[]".toList then
      .ok (parseScalar u decimal line.content, ⟨rest, suffix_cons line rest⟩)
    else
      match parseMapping indent [] (line :: rest) with
      | .error e => .error e
      | .ok (entries, after) => .ok (.dict entries, after)
termination_by (lines.length, 1)

/-- `_parse_mapping`, with the entries so far. -/
def parseMapping (indent : Nat) (entries : Entries) (lines : List SimpleYamlLine) :
    Except LoadError (Entries × Rest lines) :=
  match lines with
  | [] => .ok (entries, ⟨[], suffix_refl []⟩)
  | line :: rest =>
    if line.indent < indent then .ok (entries, ⟨line :: rest, suffix_refl _⟩)
    else if line.indent ≠ indent then
      .error (lineError line "unexpected indentation for mapping entry")
    else if startsItem line.content then .ok (entries, ⟨line :: rest, suffix_refl _⟩)
    else if ':' ∉ line.content then
      .error (lineError line "expected key: value mapping entry")
    else
      let key := stripChars (line.content.takeWhile (· ≠ ':'))
      let remainder := stripChars (line.content.dropWhile (· ≠ ':')).tail
      if key = [] then .error (lineError line "empty mapping key")
      else if remainder ≠ [] then
        match parseMapping indent (setEntry entries key (parseScalar u decimal remainder)) rest with
        | .error e => .error e
        | .ok (entries, after) => .ok (entries, after.widen)
      else
        match nestedValue indent rest with
        | .error e => .error e
        | .ok (value, inner) =>
          have : inner.val.length ≤ rest.length := inner.property.length_le
          match parseMapping indent (setEntry entries key value) inner.val with
          | .error e => .error e
          | .ok (entries, after) =>
            .ok (entries, ⟨after.val, after.property.trans inner.widen.property⟩)
termination_by (lines.length, 0)

/-- `_parse_list`, with the items so far. -/
def parseList (indent : Nat) (items : List Value) (lines : List SimpleYamlLine) :
    Except LoadError (List Value × Rest lines) :=
  match lines with
  | [] => .ok (items, ⟨[], suffix_refl []⟩)
  | line :: rest =>
    if line.indent ≠ indent ∨ startsItem line.content = false then
      .ok (items, ⟨line :: rest, suffix_refl _⟩)
    else
      let item := stripChars (line.content.drop 2)
      if item ≠ [] then
        match parseList indent (items ++ [parseScalar u decimal item]) rest with
        | .error e => .error e
        | .ok (items, after) => .ok (items, after.widen)
      else
        match nestedValue indent rest with
        | .error e => .error e
        | .ok (value, inner) =>
          have : inner.val.length ≤ rest.length := inner.property.length_le
          match parseList indent (items ++ [value]) inner.val with
          | .error e => .error e
          | .ok (items, after) =>
            .ok (items, ⟨after.val, after.property.trans inner.widen.property⟩)
termination_by (lines.length, 0)

/-- What stands under a key or a dash that has nothing on its line: a deeper block, or nothing. -/
def nestedValue (indent : Nat) (lines : List SimpleYamlLine) :
    Except LoadError (Value × Rest lines) :=
  match lines with
  | [] => .ok (.null, ⟨[], suffix_refl []⟩)
  | line :: rest =>
    if line.indent ≤ indent then .ok (.null, ⟨line :: rest, suffix_refl _⟩)
    else parseBlock line.indent (line :: rest)
termination_by (lines.length, 2)

end

/-- What a line of the file comes to, with its number: nothing where it is blank or a comment. -/
def tokenizeLine (path : String) (lineno : Nat) (rawLine : List Char) :
    Except LoadError (Option SimpleYamlLine) :=
  let stripped := stripChars rawLine
  if stripped = [] ∨ stripped.head? = some '#' then .ok none
  else
    let indent := (rawLine.takeWhile (· = ' ')).length
    if indent % 2 ≠ 0 then
      .error (.parse (path ++ ":" ++ toString lineno ++
        ": indentation must use multiples of 2 spaces"))
    else .ok (some ⟨indent, rawLine.drop indent, lineno⟩)

/-- The loop of `_tokenize_simple_yaml` from a line number on. -/
def tokenizeFrom (path : String) (lineno : Nat) :
    List (List Char) → Except LoadError (List SimpleYamlLine)
  | [] => .ok []
  | rawLine :: rest =>
    match tokenizeLine path lineno rawLine with
    | .error e => .error e
    | .ok line =>
      match tokenizeFrom path (lineno + 1) rest with
      | .error e => .error e
      | .ok lines => .ok (line.toList ++ lines)

/-- `_load_simple_yaml` of the text of a file. -/
def loadSimpleYaml (path : String) (text : List Char) : Except LoadError Value :=
  match tokenizeFrom path 1 (splitLines text) with
  | .error e => .error e
  | .ok [] => .ok (.dict [])
  | .ok (line :: lines) =>
    match parseBlock u decimal line.indent (line :: lines) with
    | .error e => .error e
    | .ok (value, ⟨[], _⟩) => .ok value
    | .ok (_, ⟨next :: _, _⟩) =>
      .error (.parse (path ++ ":" ++ toString next.lineno ++ ": unexpected trailing YAML content"))

/-- `yaml.safe_load` of a text, where PyYAML is installed. -/
abbrev SafeLoad := List Char → Except LoadError Value

/-- `load_yaml_file` of a file that is read in text mode. -/
def loadYamlFile (safeLoad : Option SafeLoad) (path : String) (file : List Char) :
    Except LoadError Value :=
  match safeLoad with
  | none => loadSimpleYaml u decimal path (universalNewlines file)
  | some safeLoad => safeLoad (universalNewlines file)

/-! ## Texts of a document -/

variable {u decimal}

section made

variable {P : List Char → Prop}

theorem made_setEntry {entries : Entries} (h : (Value.dict entries).Made P) {key : List Char}
    (hkey : P key) {value : Value} (hvalue : value.Made P) :
    (Value.dict (setEntry entries key value)).Made P := by
  cases h with
  | dict hkeys hvalues =>
    have hentry : ∀ entry ∈ setEntry entries key value, P entry.1 ∧ entry.2.Made P := by
      intro entry hentry
      unfold setEntry at hentry
      split at hentry
      · obtain ⟨old, hold, rfl⟩ := mem_map.mp hentry
        split
        · exact ⟨hkey, hvalue⟩
        · exact ⟨hkeys old hold, hvalues old hold⟩
      · rcases mem_append.mp hentry with hold | hnew
        · exact ⟨hkeys entry hold, hvalues entry hold⟩
        · rw [mem_singleton.mp hnew]
          exact ⟨hkey, hvalue⟩
    exact .dict (fun entry h => (hentry entry h).1) fun entry h => (hentry entry h).2

theorem made_dict_nil : (Value.dict []).Made P :=
  .dict (fun _ h => by cases h) fun _ h => by cases h

theorem made_parseScalar {value : List Char} (h : Free value) :
    (parseScalar u decimal value).Made P := by
  have hinside : Free value.tail.dropLast := by
    intro c hc
    exact h c (mem_of_mem_tail (mem_of_mem_dropLast hc))
  have hquoted : ∀ quote, isLineBreak quote = false →
      (Value.str (replacePair '\\' quote [quote] value.tail.dropLast)).Made P := by
    intro quote hquote
    refine .str fun c hc => ?_
    rcases mem_replacePair hc with hold | hnew
    · exact hinside c hold
    · rw [mem_singleton.mp hnew]
      exact hquote
  unfold parseScalar
  dsimp only
  split_ifs
  · exact .null
  · exact .bool true
  · exact .bool false
  · exact hquoted '"' (by decide)
  · exact hquoted '\'' (by decide)
  · exact made_dict_nil
  · exact .list fun item hitem => by cases hitem
  · split
    · exact .int _
    · exact .float _
  · split
    · exact .int _
    · exact .str h

/-- A line without a line break, whose key satisfies `P` where it has one. -/
structure LineFits (P : List Char → Prop) (line : SimpleYamlLine) : Prop where
  free : Free line.content
  key : startsItem line.content = false → stripChars (line.content.takeWhile (· ≠ ':')) ≠ [] →
    P (stripChars (line.content.takeWhile (· ≠ ':')))

def AllFit (P : List Char → Prop) (lines : List SimpleYamlLine) : Prop :=
  ∀ line ∈ lines, LineFits P line

theorem AllFit.rest {lines : List SimpleYamlLine} (h : AllFit P lines) (rest : Rest lines) :
    AllFit P rest.val :=
  fun line hline => h line (rest.property.subset hline)

/-- What is parsed from lines. -/
structure ParsesMade (u : Unicode) (decimal : Char → Option (Fin 10)) (P : List Char → Prop)
    (lines : List SimpleYamlLine) : Prop where
  mapping : ∀ {indent : Nat} {entries entries' : Entries} {after : Rest lines},
    (Value.dict entries).Made P →
    parseMapping u decimal indent entries lines = .ok (entries', after) →
    (Value.dict entries').Made P
  list : ∀ {indent : Nat} {items items' : List Value} {after : Rest lines},
    (∀ item ∈ items, item.Made P) →
    parseList u decimal indent items lines = .ok (items', after) → ∀ item ∈ items', item.Made P
  block : ∀ {indent : Nat} {value : Value} {after : Rest lines},
    parseBlock u decimal indent lines = .ok (value, after) → value.Made P
  nested : ∀ {indent : Nat} {value : Value} {after : Rest lines},
    nestedValue u decimal indent lines = .ok (value, after) → value.Made P

section steps

variable {line : SimpleYamlLine} {rest : List SimpleYamlLine}

theorem LineFits.remainder (h : LineFits P line) :
    Free (stripChars (line.content.dropWhile (· ≠ ':')).tail) :=
  fun c hc => h.free c
    ((dropWhile_sublist _).mem (mem_of_mem_tail (mem_stripChars hc)))

theorem LineFits.item (h : LineFits P line) : Free (stripChars (line.content.drop 2)) :=
  fun c hc => h.free c (mem_of_mem_drop (mem_stripChars hc))

theorem parseMapping_made (h : AllFit P (line :: rest))
    (ih : ∀ lines : List SimpleYamlLine, lines.length ≤ rest.length → AllFit P lines →
      ParsesMade u decimal P lines) {indent : Nat} {entries entries' : Entries}
    {after : Rest (line :: rest)} (hentries : (Value.dict entries).Made P)
    (hparse : parseMapping u decimal indent entries (line :: rest) = .ok (entries', after)) :
    (Value.dict entries').Made P := by
  have hrest : AllFit P rest := fun other hother => h other (mem_cons_of_mem _ hother)
  have hline := h line mem_cons_self
  rw [parseMapping] at hparse
  dsimp only at hparse
  split_ifs at hparse with _ _ hitem _ hkey
  · cases hparse
    exact hentries
  · cases hparse
    exact hentries
  · split at hparse
    · cases hparse
    · rename_i heq
      cases hparse
      have hkept := hline.key (Bool.eq_false_iff.mpr hitem) hkey
      exact (ih rest le_rfl hrest).mapping
        (made_setEntry hentries hkept (made_parseScalar hline.remainder)) heq
  · split at hparse
    · cases hparse
    · rename_i value inner heq
      have hkept := hline.key (Bool.eq_false_iff.mpr hitem) hkey
      have hvalue := (ih rest le_rfl hrest).nested heq
      split at hparse
      · cases hparse
      · rename_i heq'
        cases hparse
        exact (ih inner.val inner.property.length_le (hrest.rest inner)).mapping
          (made_setEntry hentries hkept hvalue) heq'

theorem parseList_made (h : AllFit P (line :: rest))
    (ih : ∀ lines : List SimpleYamlLine, lines.length ≤ rest.length → AllFit P lines →
      ParsesMade u decimal P lines) {indent : Nat} {items items' : List Value}
    {after : Rest (line :: rest)} (hitems : ∀ item ∈ items, item.Made P)
    (hparse : parseList u decimal indent items (line :: rest) = .ok (items', after)) :
    ∀ item ∈ items', item.Made P := by
  have hrest : AllFit P rest := fun other hother => h other (mem_cons_of_mem _ hother)
  have hline := h line mem_cons_self
  have hsnoc : ∀ value : Value, value.Made P → ∀ item ∈ items ++ [value], item.Made P := by
    intro value hvalue item hitem
    rcases mem_append.mp hitem with hold | hnew
    · exact hitems item hold
    · rw [mem_singleton.mp hnew]
      exact hvalue
  rw [parseList] at hparse
  dsimp only at hparse
  split_ifs at hparse
  · cases hparse
    exact hitems
  · split at hparse
    · cases hparse
    · rename_i heq
      cases hparse
      exact (ih rest le_rfl hrest).list (hsnoc _ (made_parseScalar hline.item)) heq
  · split at hparse
    · cases hparse
    · rename_i value inner heq
      have hvalue := (ih rest le_rfl hrest).nested heq
      split at hparse
      · cases hparse
      · rename_i heq'
        cases hparse
        exact (ih inner.val inner.property.length_le (hrest.rest inner)).list (hsnoc _ hvalue) heq'

/-- The induction is on the number of lines: a block is read by the mapping and the list of the
same lines, and these go on with fewer. -/
theorem parses_made : ∀ (n : Nat) (lines : List SimpleYamlLine), lines.length = n →
    AllFit P lines → ParsesMade u decimal P lines := by
  intro n
  induction n using Nat.strong_induction_on with
  | _ n ih =>
    intro lines hn h
    cases lines with
    | nil =>
      refine ⟨fun hentries hparse => ?_, fun hitems hparse => ?_, fun hparse => ?_,
        fun hparse => ?_⟩
      · rw [parseMapping] at hparse
        cases hparse
        exact hentries
      · rw [parseList] at hparse
        cases hparse
        exact hitems
      · rw [parseBlock] at hparse
        cases hparse
      · rw [nestedValue] at hparse
        cases hparse
        exact .null
    | cons line rest =>
      have hfewer : ∀ lines : List SimpleYamlLine, lines.length ≤ rest.length →
          AllFit P lines → ParsesMade u decimal P lines := by
        intro lines hle hfit
        refine ih lines.length ?_ lines rfl hfit
        rw [← hn, length_cons]
        omega
      have hblock : ∀ {indent : Nat} {value : Value} {after : Rest (line :: rest)},
          parseBlock u decimal indent (line :: rest) = .ok (value, after) → value.Made P := by
        intro indent value after hparse
        rw [parseBlock] at hparse
        split_ifs at hparse
        · split at hparse
          · cases hparse
          · rename_i heq
            cases hparse
            exact .list (parseList_made h hfewer (fun item hitem => by cases hitem) heq)
        · cases hparse
          exact made_parseScalar (h line mem_cons_self).free
        · split at hparse
          · cases hparse
          · rename_i heq
            cases hparse
            exact parseMapping_made h hfewer made_dict_nil heq
      refine ⟨parseMapping_made h hfewer, parseList_made h hfewer, hblock, ?_⟩
      intro indent value after hparse
      rw [nestedValue] at hparse
      split_ifs at hparse
      · cases hparse
        exact .null
      · exact hblock hparse

end steps

theorem loadSimpleYaml_made {path : String} {text : List Char} {value : Value}
    (hfit : ∀ lines, tokenizeFrom path 1 (splitLines text) = .ok lines → AllFit P lines)
    (h : loadSimpleYaml u decimal path text = .ok value) : value.Made P := by
  unfold loadSimpleYaml at h
  split at h
  · cases h
  · cases h
    exact made_dict_nil
  · rename_i line lines hlines
    split at h
    · cases h
    · rename_i hparse
      cases h
      exact (parses_made _ _ rfl (hfit _ hlines)).block hparse
    · cases h

end made

end parser

end Newbro.YamlSupport
