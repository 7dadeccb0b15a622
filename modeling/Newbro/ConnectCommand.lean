import Mathlib.Data.List.Chain
import Newbro.Library.Graphemes
import Newbro.Library.Text
import Newbro.Library.Urls

/-!
# Connect settings on their way to the macOS app

The command and the URL that the web client shows for a new executor node
(`buildExecutorRunCommand`, `buildExecutorConnectSettingsURL`), and how the macOS app reads what
has been pasted (`parseConnectCommand`, `parseConnectSettings`). Texts are lists of scalars; the
app walks over its text by characters, which are extended grapheme clusters.
-/
namespace Newbro.ConnectCommand

open Library Library.Urls List

/-! ## The web client -/

/-- `options`; a list that is absent is empty. -/
structure ExecutorRunCommandOptions where
  enabledExecutors : List (List Char) := []
  acpxAgent : Option (List Char) := none
  audioLanguage : Option (List Char) := none
  whisperModel : Option (List Char) := none
  deriving Repr, DecidableEq

/-- What a single quote becomes: the quotes are closed, the quote itself is put between double
quotes, and the quotes are opened again. -/
def escapeQuote (c : Char) : List Char := if c = '\'' then "'\"'\"'".toList else [c]

def shellQuote (value : List Char) : List Char :=
  '\'' :: (value.flatMap escapeQuote ++ ['\''])

/-- The options that the app does not know, as far as they are there. -/
def otherOptions (options : ExecutorRunCommandOptions) : List (List Char × List Char) :=
  let given := fun (name : String) (value : Option (List Char)) =>
    ((value.filter (· ≠ [])).map fun value => (name.toList, value)).toList
  given "--acpx-agent" options.acpxAgent ++ given "--audio-language" options.audioLanguage ++
    given "--whisper-model" options.whisperModel

def buildExecutorRunArgs (baseUrl nodeId token : List Char) (options : ExecutorRunCommandOptions) :
    List (List Char) :=
  ["executor".toList, "run".toList, "--base-url".toList, shellQuote baseUrl, "--node-id".toList,
    shellQuote nodeId, "--token".toList, shellQuote token] ++
  options.enabledExecutors.flatMap
    (fun executorType => ["--enabled-executor".toList, shellQuote executorType]) ++
  (otherOptions options).flatMap fun option => [option.1, shellQuote option.2]

/-- `args.join(" ")` -/
def joinWords : List (List Char) → List Char
  | [] => []
  | [word] => word
  | word :: next :: words => word ++ ' ' :: joinWords (next :: words)

def buildExecutorRunCommand (baseUrl nodeId token : List Char)
    (options : ExecutorRunCommandOptions) : List Char :=
  joinWords ("newbro".toList :: buildExecutorRunArgs baseUrl nodeId token options)

def connectParams (baseUrl nodeId token : List Char) (options : ExecutorRunCommandOptions) :
    List (List Char × List Char) :=
  [("base_url".toList, baseUrl), ("node_id".toList, nodeId), ("token".toList, token)] ++
    options.enabledExecutors.map fun executorType => ("enabled_executor".toList, executorType)

def buildExecutorConnectSettingsURL (baseUrl nodeId token : List Char)
    (options : ExecutorRunCommandOptions) : List Char :=
  "newbro://connect".toList ++ '?' :: formSerialize (connectParams baseUrl nodeId token options)

/-! ## The macOS app -/

structure ConnectCommandFields where
  baseURL : List Char := []
  nodeID : List Char := []
  token : List Char := []
  enabledExecutors : List (List Char) := []
  deriving Repr, DecidableEq

inductive ConnectCommandError where
  | invalidConnectSettings
  | missingFields (names : List String)
  deriving Repr, DecidableEq

/-- `missing` -/
def missingNames (baseURL nodeID token : String) (fields : ConnectCommandFields) : List String :=
  (if fields.baseURL = [] then [baseURL] else []) ++
    (if fields.nodeID = [] then [nodeID] else []) ++ (if fields.token = [] then [token] else [])

/-- The fields, unless one of the first three is empty. -/
def requireFields (baseURL nodeID token : String) (fields : ConnectCommandFields) :
    Except ConnectCommandError ConnectCommandFields :=
  if missingNames baseURL nodeID token fields = [] then .ok fields
  else .error (.missingFields (missingNames baseURL nodeID token fields))

def decodeQueryComponent (value : List Char) : List Char :=
  (removePercentEncoding (plusToSpace value)).getD value

def parsePercentEncodedQuery (query : List Char) : List (List Char × List Char) :=
  if query = [] then []
  else
    (query.splitOn '&').map fun pair =>
      let parts := cutAt '=' pair
      (decodeQueryComponent parts.1, (parts.2.map decodeQueryComponent).getD [])

variable (pairs : List (List Char × List Char))

/-- `values[key]` -/
def valuesOf (key : String) : List (List Char) :=
  (pairs.filter (·.1 = key.toList)).map Prod.snd

/-- `text.trimmingCharacters(in: .whitespacesAndNewlines)` -/
def trim (tables : SegmentationTables) (text : List Char) : List Char :=
  ((text.dropWhile tables.whiteSpace).reverse.dropWhile tables.whiteSpace).reverse

def parseConnectSettings (tables : SegmentationTables) (text : List Char) :
    Except ConnectCommandError ConnectCommandFields :=
  match (uriComponents (trim tables text)).filter fun components =>
      components.scheme = some "newbro".toList && components.host = some "connect".toList with
  | none => .error .invalidConnectSettings
  | some components =>
    let pairs := parsePercentEncodedQuery (components.percentEncodedQuery.getD [])
    requireFields "base_url" "node_id" "token"
      { baseURL := (valuesOf pairs "base_url").getLast?.getD []
        nodeID := (valuesOf pairs "node_id").getLast?.getD []
        token := (valuesOf pairs "token").getLast?.getD []
        enabledExecutors := valuesOf pairs "enabled_executor" }

/-- The variables of `shellTokenize`. -/
structure Tokenizer where
  tokens : List (List Char) := []
  current : List Char := []
  hasToken : Bool := false
  quote : Option (List Char) := none
  deriving Repr, DecidableEq

namespace Tokenizer

def isQuote (ch : List Char) : Bool := ch = ['\''] || ch = ['"']

/-- `ch.isWhitespace`, which is decided by the first scalar. -/
def isWhitespace (tables : SegmentationTables) (ch : List Char) : Bool :=
  ch.head?.any tables.whiteSpace

/-- The loop of `shellTokenize`. -/
def read (tables : SegmentationTables) (t : Tokenizer) (ch : List Char) : Tokenizer :=
  match t.quote with
  | some active =>
    if ch = active then { t with quote := none } else { t with current := t.current ++ ch }
  | none =>
    if isQuote ch then { t with quote := some ch, hasToken := true }
    else if isWhitespace tables ch then
      if t.hasToken then
        { t with tokens := t.tokens ++ [t.current], current := [], hasToken := false }
      else t
    else { t with current := t.current ++ ch, hasToken := true }

def finish (t : Tokenizer) : List (List Char) :=
  if t.hasToken then t.tokens ++ [t.current] else t.tokens

end Tokenizer

def shellTokenize (tables : SegmentationTables) (text : List Char) : List (List Char) :=
  ((tables.characters text).foldl (Tokenizer.read tables) {}).finish

def valueFlags : List (List Char) :=
  ["--base-url".toList, "--node-id".toList, "--token".toList, "--enabled-executor".toList]

variable (fields : ConnectCommandFields)

/-- The `switch` of `parseConnectCommand`. -/
def ConnectCommandFields.assign (flag value : List Char) :
    ConnectCommandFields :=
  if flag = "--base-url".toList then { fields with baseURL := value }
  else if flag = "--node-id".toList then { fields with nodeID := value }
  else if flag = "--token".toList then { fields with token := value }
  else { fields with enabledExecutors := fields.enabledExecutors ++ [value] }

/-- The loop of `parseConnectCommand`: a flag takes the token after it, whatever it is. -/
@[grind =] def scan : List (List Char) → ConnectCommandFields → ConnectCommandFields
  | flag :: value :: rest, fields =>
    if valueFlags.contains flag then scan rest (fields.assign flag value)
    else scan (value :: rest) fields
  | _, fields => fields

def parseConnectCommand (tables : SegmentationTables) (text : List Char) :
    Except ConnectCommandError ConnectCommandFields :=
  requireFields "--base-url" "--node-id" "--token" (scan (shellTokenize tables text) {})

/-! ## Quoting and tokens -/

variable {word text rest value : List Char} {c : Char} {words : List (List Char)}

variable {t : Tokenizer} {quote : List Char} {tokens : List (List Char)}

section tokens

variable {tables : SegmentationTables}

/-- Next to a quote no scalar of the value, or of the quotes around it, joins it. -/
def StandsApart (tables : SegmentationTables) (a b : Char) : Prop :=
  (a = '\'' → tables.joinsPrevious b = false) ∧ (b = '\'' → tables.joinsNext a = false)

def Unjoined (tables : SegmentationTables) (value : List Char) : Prop :=
  ('\'' :: (value ++ ['\''])).IsChain (StandsApart tables)

/-- The tokenizer reads the word from a fresh start as the token. -/
def Reads (tables : SegmentationTables) (word token : List Char) : Prop :=
  ∀ tokens, (tables.characters word).foldl (Tokenizer.read tables) { tokens := tokens } =
    { tokens := tokens, current := token, hasToken := true }

/-- The word begins and ends with ASCII. -/
structure Framed (word : List Char) : Prop where
  first : ∀ c ∈ word.head?, isPrintableAscii c = true
  last : ∀ c ∈ word.getLast?, isPrintableAscii c = true

/-- A word that means itself. -/
def isPlainWord (word : List Char) : Bool :=
  word ≠ [] && word.all fun c => isPrintableAscii c && c ≠ '\'' && c ≠ '"' && c ≠ ' '

theorem framed_of_plain (h : isPlainWord word = true) : Framed word := by
  simp only [isPlainWord, Bool.and_eq_true, all_eq_true] at h
  exact ⟨fun c hc => (h.2 c (mem_of_mem_head? hc)).1.1.1,
    fun c hc => (h.2 c (mem_of_getLast? hc)).1.1.1⟩

theorem framed_shellQuote (value : List Char) : Framed (shellQuote value) := by
  refine ⟨fun c hc => ?_, fun c hc => ?_⟩
  · cases hc
    decide
  · have hlast : (shellQuote value).getLast? = some '\'' := by
      rw [shellQuote, ← cons_append, List.getLast?_append]
      rfl
    rw [hlast] at hc
    cases hc
    decide

theorem foldl_read_plain (t : Tokenizer) (hquote : t.quote = none)
    (h : ∀ c ∈ word, isPrintableAscii c = true ∧ c ≠ '\'' ∧ c ≠ '"' ∧ c ≠ ' ') :
    (word.map ([·])).foldl (Tokenizer.read tables) t =
      { t with current := t.current ++ word, hasToken := t.hasToken || !word.isEmpty } := by
  induction word generalizing t with
  | nil => simp
  | cons c word ih =>
    obtain ⟨hascii, hsingle, hdouble, hspace⟩ := h c mem_cons_self
    have hread : Tokenizer.read tables t [c] =
        { t with current := t.current ++ [c], hasToken := true } := by
      have hwhite := tables.whiteSpace_ascii c hascii
      simp [Tokenizer.read, hquote, Tokenizer.isQuote, Tokenizer.isWhitespace, hsingle, hdouble,
        hwhite, hspace]
    have hrest := ih { t with current := t.current ++ [c], hasToken := true } hquote
      fun d hmem => h d (mem_cons_of_mem _ hmem)
    rw [map_cons, foldl_cons, hread, hrest]
    simp

theorem reads_of_plain (h : isPlainWord word = true) : Reads tables word word := by
  simp only [isPlainWord, Bool.and_eq_true, all_eq_true, decide_eq_true_eq] at h
  obtain ⟨hne, hall⟩ := h
  intro tokens
  rw [SegmentationTables.characters_of_ascii fun c hmem => (hall c hmem).1.1.1,
    foldl_read_plain _ rfl fun c hmem =>
      ⟨(hall c hmem).1.1.1, (hall c hmem).1.1.2, (hall c hmem).1.2, (hall c hmem).2⟩]
  simpa using hne

/-- Between single quotes everything but a single quote is kept. -/
theorem foldl_read_quoted {clusters : List (List Char)} (t : Tokenizer)
    (hquote : t.quote = some ['\'']) (h : ∀ ch ∈ clusters, ch ≠ ['\'']) :
    clusters.foldl (Tokenizer.read tables) t = { t with current := t.current ++ clusters.flatten } := by
  induction clusters generalizing t with
  | nil => simp
  | cons ch clusters ih =>
    have hread : Tokenizer.read tables t ch = { t with current := t.current ++ ch } := by
      simp [Tokenizer.read, hquote, h ch mem_cons_self]
    have hrest := ih { t with current := t.current ++ ch } hquote
      fun other hmem => h other (mem_cons_of_mem _ hmem)
    rw [foldl_cons, hread, hrest, flatten_cons, append_assoc]

theorem read_closing (hquote : t.quote = some quote) :
    Tokenizer.read tables t quote = { t with quote := none } := by
  simp [Tokenizer.read, hquote]

theorem read_opening (hquote : t.quote = none)
    (h : Tokenizer.isQuote quote = true) :
    Tokenizer.read tables t quote = { t with quote := some quote, hasToken := true } := by
  simp [Tokenizer.read, hquote, h]

/-- A single quote on its own. -/
theorem characters_quote (htext : ∀ last ∈ text.getLast?, tables.joinsNext last = false)
    (hrest : ∀ first ∈ rest.head?, tables.joinsPrevious first = false) :
    tables.characters (text ++ '\'' :: rest) =
      tables.characters text ++ ['\''] :: tables.characters rest :=
  SegmentationTables.characters_append_ascii (by decide) htext hrest

/-- No cluster of a text without single quotes is one. -/
theorem ne_quote_of_mem_characters (h : '\'' ∉ text) :
    ∀ ch ∈ tables.characters text, ch ≠ ['\''] := by
  rintro ch hmem rfl
  refine h ?_
  rw [← @SegmentationTables.flatten_characters tables text]
  exact mem_flatten.mpr ⟨['\''], hmem, mem_singleton_self _⟩

theorem flatMap_escapeQuote (h : '\'' ∉ text) : text.flatMap escapeQuote = text := by
  induction text with
  | nil => rfl
  | cons c text ih =>
    have hne : c ≠ '\'' := fun heq => h (heq ▸ mem_cons_self)
    rw [flatMap_cons, ih fun hmem => h (mem_cons_of_mem _ hmem), escapeQuote,
      if_neg hne, singleton_append]

/-- What follows an opening quote does not join it. -/
theorem head_apart (h : Unjoined tables value) :
    ∀ first ∈ (value.flatMap escapeQuote ++ ['\'']).head?, tables.joinsPrevious first = false := by
  intro first hfirst
  cases value with
  | nil =>
    cases hfirst
    exact SegmentationTables.joinsPrevious_ascii (by decide)
  | cons c value =>
    unfold Unjoined at h
    rw [cons_append, isChain_cons_cons] at h
    by_cases hc : c = '\''
    · subst hc
      cases hfirst
      exact SegmentationTables.joinsPrevious_ascii (by decide)
    · rw [flatMap_cons, escapeQuote, if_neg hc] at hfirst
      cases hfirst
      exact h.1.1 rfl

/-- What precedes a quote does not join it. -/
theorem last_apart (h : ('\'' :: (text ++ '\'' :: rest)).IsChain (StandsApart tables)) :
    ∀ last ∈ text.getLast?, tables.joinsNext last = false := by
  intro last hlast
  obtain ⟨before, rfl⟩ := List.getLast?_eq_some_iff.mp hlast
  have hchain : (('\'' :: before) ++ last :: '\'' :: rest).IsChain (StandsApart tables) := by
    simpa using h
  exact (isChain_append_cons_cons.mp hchain).2.1.2 rfl

/-- A scalar of ASCII before another one. -/
theorem characters_cons_ascii (hc : isPrintableAscii c = true)
    (hrest : ∀ first ∈ rest.head?, tables.joinsPrevious first = false) :
    tables.characters (c :: rest) = [c] :: tables.characters rest := by
  have hsplit : tables.characters ([] ++ c :: rest) =
      tables.characters [] ++ [c] :: tables.characters rest :=
    SegmentationTables.characters_append_ascii hc (fun _ hlast => by cases hlast) hrest
  exact hsplit

theorem head_ascii (hc : isPrintableAscii c = true) :
    ∀ first ∈ (c :: rest).head?, tables.joinsPrevious first = false := by
  intro first hfirst
  cases hfirst
  exact SegmentationTables.joinsPrevious_ascii hc

/-- The five characters of an escaped quote. -/
theorem characters_escape (htext : ∀ last ∈ text.getLast?, tables.joinsNext last = false)
    (hrest : ∀ first ∈ rest.head?, tables.joinsPrevious first = false) :
    tables.characters (text ++ '\'' :: '"' :: '\'' :: '"' :: '\'' :: rest) =
      tables.characters text ++
        ['\''] :: ['"'] :: ['\''] :: ['"'] :: ['\''] :: tables.characters rest := by
  rw [characters_quote htext (head_ascii (by decide)),
    characters_cons_ascii (by decide) (head_ascii (by decide)),
    characters_cons_ascii (by decide) (head_ascii (by decide)),
    characters_cons_ascii (by decide) (head_ascii (by decide)),
    characters_cons_ascii (by decide) hrest]

/-- The tokenizer reads an escaped quote between single quotes as a quote. -/
theorem foldl_read_escape (t : Tokenizer) (hquote : t.quote = some ['\''])
    (htoken : t.hasToken = true) :
    [['\''], ['"'], ['\''], ['"'], ['\'']].foldl (Tokenizer.read tables) t =
      { t with current := t.current ++ ['\''] } := by
  obtain ⟨tokens, current, hasToken, quote⟩ := t
  cases hquote
  cases htoken
  simp [Tokenizer.read, Tokenizer.isQuote]

/-- The tokenizer reads the rest of a quoted value up to its last quote. -/
theorem foldl_read_value (value : List Char) (h : Unjoined tables value) (t : Tokenizer)
    (hquote : t.quote = some ['\'']) (htoken : t.hasToken = true) :
    (tables.characters (value.flatMap escapeQuote ++ ['\''])).foldl (Tokenizer.read tables) t =
      { t with current := t.current ++ value, quote := none } := by
  -- The induction is on the number of quotes in the value.
  induction hlength : value.length using Nat.strongRecOn generalizing value t with
  | ind length ih =>
    by_cases hmem : '\'' ∈ value
    · obtain ⟨text, rest, rfl, htext⟩ := eq_append_cons_of_mem hmem
      have hchain : ('\'' :: (text ++ '\'' :: (rest ++ ['\'']))).IsChain (StandsApart tables) := by
        simpa [Unjoined] using h
      have hrest : Unjoined tables rest := by
        have hcut : (('\'' :: text) ++ '\'' :: (rest ++ ['\''])).IsChain (StandsApart tables) := hchain
        exact hcut.right_of_append
      have hsplit : (text ++ '\'' :: rest).flatMap escapeQuote ++ ['\''] =
          text ++ '\'' :: '"' :: '\'' :: '"' :: '\'' :: (rest.flatMap escapeQuote ++ ['\'']) := by
        rw [flatMap_append, flatMap_escapeQuote htext, flatMap_cons]
        simp [escapeQuote]
      let after : Tokenizer := { t with current := t.current ++ text ++ ['\''] }
      have hread : (tables.characters text ++
          [['\''], ['"'], ['\''], ['"'], ['\'']]).foldl (Tokenizer.read tables) t = after := by
        rw [foldl_append, foldl_read_quoted t hquote (ne_quote_of_mem_characters htext),
          SegmentationTables.flatten_characters,
          foldl_read_escape { t with current := t.current ++ text } hquote htoken]
      have hlater := ih rest.length (by simp [← hlength]; omega) rest hrest after hquote htoken rfl
      have hclusters : tables.characters text ++ ['\''] :: ['"'] :: ['\''] :: ['"'] :: ['\''] ::
          tables.characters (rest.flatMap escapeQuote ++ ['\'']) =
          (tables.characters text ++ [['\''], ['"'], ['\''], ['"'], ['\'']]) ++
            tables.characters (rest.flatMap escapeQuote ++ ['\'']) := by simp
      rw [hsplit, characters_escape (last_apart hchain) (head_apart hrest), hclusters,
        foldl_append, hread, hlater]
      simp [after]
    · have hclusters : tables.characters (value ++ ['\'']) = tables.characters value ++ [['\'']] :=
        characters_quote (last_apart h) fun _ hfirst => by cases hfirst
      rw [flatMap_escapeQuote hmem, hclusters, foldl_append,
        foldl_read_quoted t hquote (ne_quote_of_mem_characters hmem),
        SegmentationTables.flatten_characters]
      exact read_closing hquote

/-- A quoted value is read as the value. -/
theorem reads_shellQuote (h : Unjoined tables value) : Reads tables (shellQuote value) value := by
  intro tokens
  have hopen : Tokenizer.read tables { tokens := tokens } ['\''] =
      { tokens := tokens, hasToken := true, quote := some ['\''] } :=
    read_opening rfl rfl
  rw [shellQuote, characters_cons_ascii (by decide) (head_apart h), foldl_cons, hopen,
    foldl_read_value value h _ rfl rfl]
  simp

/-- A space between two words ends the token. -/
theorem characters_word (hword : Framed word)
    (hrest : ∀ c ∈ rest.head?, isPrintableAscii c = true) :
    tables.characters (word ++ ' ' :: rest) =
      tables.characters word ++ [' '] :: tables.characters rest :=
  SegmentationTables.characters_append_ascii (by decide)
    (fun c hc => SegmentationTables.joinsNext_ascii (hword.last c hc))
    fun c hc => SegmentationTables.joinsPrevious_ascii (hrest c hc)

theorem head_joinWords (hne : word ≠ [])
    (h : Framed word) : ∀ c ∈ (joinWords (word :: words)).head?, isPrintableAscii c = true := by
  cases word with
  | nil => exact absurd rfl hne
  | cons first word =>
    cases words with
    | nil => exact h.first
    | cons next words => exact h.first

/-- A word of the command and the token that it is read as. -/
structure IsWord (tables : SegmentationTables) (word token : List Char) : Prop where
  reads : Reads tables word token
  framed : Framed word
  ne_nil : word ≠ []

theorem foldl_read_words
    (h : List.Forall₂ (IsWord tables) words tokens) (before : List (List Char)) :
    ((tables.characters (joinWords words)).foldl (Tokenizer.read tables)
      { tokens := before }).finish = before ++ tokens := by
  induction h generalizing before with
  | nil => simp [joinWords, SegmentationTables.characters, Tokenizer.finish]
  | @cons word token words tokens hword hwords ih =>
    cases hwords with
    | nil =>
      rw [joinWords, hword.reads before]
      rfl
    | @cons next token' words tokens hnext hwords =>
      have hspace : Tokenizer.read tables
          { tokens := before, current := token, hasToken := true } [' '] =
            { tokens := before ++ [token] } := by
        have hwhite := tables.whiteSpace_ascii ' ' (by decide)
        simp [Tokenizer.read, Tokenizer.isQuote, Tokenizer.isWhitespace, hwhite]
      rw [joinWords, characters_word hword.framed (head_joinWords hnext.ne_nil hnext.framed),
        foldl_append, hword.reads before, foldl_cons, hspace, ih (before ++ [token]),
        append_assoc, singleton_append]

/-- The tokens of a command are those of its words. -/
theorem shellTokenize_joinWords
    (h : List.Forall₂ (IsWord tables) words tokens) :
    shellTokenize tables (joinWords words) = tokens := by
  have hall := foldl_read_words h []
  rwa [nil_append] at hall

theorem isWord_plain (h : isPlainWord word = true) :
    IsWord tables word word where
  reads := reads_of_plain h
  framed := framed_of_plain h
  ne_nil := by
    rintro rfl
    cases h

theorem isWord_shellQuote (h : Unjoined tables value) :
    IsWord tables (shellQuote value) value where
  reads := reads_shellQuote h
  framed := framed_shellQuote value
  ne_nil := by simp [shellQuote]

end tokens

/-! ## What the scanner makes of the tokens -/

/-- The tokens of the command that is built. -/
def commandTokens (baseUrl nodeId token : List Char) (options : ExecutorRunCommandOptions) :
    List (List Char) :=
  ["newbro".toList, "executor".toList, "run".toList, "--base-url".toList, baseUrl,
    "--node-id".toList, nodeId, "--token".toList, token] ++
  options.enabledExecutors.flatMap (fun executorType => ["--enabled-executor".toList, executorType]) ++
  (otherOptions options).flatMap fun option => [option.1, option.2]

/-- The values that are quoted. -/
def quotedValues (baseUrl nodeId token : List Char) (options : ExecutorRunCommandOptions) :
    List (List Char) :=
  [baseUrl, nodeId, token] ++ options.enabledExecutors ++ (otherOptions options).map Prod.snd

/-- Where an option is followed by another one: its value, and the name of the other. -/
def followed : List (List Char × List Char) → List (List Char × List Char)
  | first :: second :: rest => (first.2, second.1) :: followed (second :: rest)
  | _ => []

/-- A value that is one of the flags takes the name after it. -/
def takeName (pair : List Char × List Char) :
    ConnectCommandFields :=
  if valueFlags.contains pair.1 then fields.assign pair.1 pair.2 else fields

variable {options : ExecutorRunCommandOptions}

theorem name_mem_otherOptions :
    ∀ option ∈ otherOptions options, option.1 ∈
      ["--acpx-agent".toList, "--audio-language".toList, "--whisper-model".toList] := by
  intro option hmem
  simp only [otherOptions, mem_append, Option.mem_toList, Option.map_eq_some_iff] at hmem
  rcases hmem with (⟨value, -, rfl⟩ | ⟨value, -, rfl⟩) | ⟨value, -, rfl⟩ <;> simp

theorem scan_enabled (executors rest : List (List Char)) (fields : ConnectCommandFields) :
    scan (executors.flatMap (fun executorType => ["--enabled-executor".toList, executorType]) ++
        rest) fields =
      scan rest { fields with enabledExecutors := fields.enabledExecutors ++ executors } := by
  induction executors generalizing fields with
  | nil => simp
  | cons executorType executors ih =>
    have hflag : valueFlags.contains "--enabled-executor".toList = true := by decide
    have hassign : fields.assign "--enabled-executor".toList executorType =
        { fields with enabledExecutors := fields.enabledExecutors ++ [executorType] } := rfl
    simp only [flatMap_cons, cons_append, nil_append, scan, hflag, if_true, hassign,
      ih, append_assoc]

/-- From the value of an option on, the scanner looks at values only. -/
theorem scan_options {first : List Char × List Char} {options : List (List Char × List Char)}
    (h : ∀ option ∈ options, valueFlags.contains option.1 = false)
    (fields : ConnectCommandFields) :
    scan (first.2 :: options.flatMap fun option => [option.1, option.2]) fields =
      (followed (first :: options)).foldl takeName fields := by
  induction options generalizing first fields with
  | nil => simp [scan, followed]
  | cons second options ih =>
    have hname := h second mem_cons_self
    have hrest : ∀ fields,
        scan (second.2 :: options.flatMap fun option => [option.1, option.2]) fields =
          (followed (second :: options)).foldl takeName fields :=
      ih fun option hmem => h option (mem_cons_of_mem _ hmem)
    simp only [flatMap_cons, cons_append, nil_append, followed, foldl_cons, ← hrest]
    rw [scan]
    unfold takeName
    split
    · rfl
    · rw [scan, hname]
      rfl

variable {flag : List Char}

theorem scan_skip (h : valueFlags.contains flag = false) (value : List Char)
    (rest : List (List Char)) (fields : ConnectCommandFields) :
    scan (flag :: value :: rest) fields = scan (value :: rest) fields := by
  rw [scan, h]
  rfl

theorem scan_take (h : valueFlags.contains flag = true) (value : List Char)
    (rest : List (List Char)) (fields : ConnectCommandFields) :
    scan (flag :: value :: rest) fields = scan rest (fields.assign flag value) := by
  rw [scan, h, if_pos rfl]

/-- What the scanner makes of the tokens of the command. -/
theorem scan_commandTokens (baseUrl nodeId token : List Char)
    (options : ExecutorRunCommandOptions) : scan (commandTokens baseUrl nodeId token options) {} =
      (followed (otherOptions options)).foldl takeName
        { baseURL := baseUrl
          nodeID := nodeId
          token := token
          enabledExecutors := options.enabledExecutors } := by
  have hnames : ∀ option ∈ otherOptions options, valueFlags.contains option.1 = false := by
    intro option hmem
    have hname := name_mem_otherOptions option hmem
    simp only [mem_cons, not_mem_nil, or_false] at hname
    rcases hname with hname | hname | hname <;> rw [hname] <;> decide
  have hfront : scan (commandTokens baseUrl nodeId token options) {} =
      scan (options.enabledExecutors.flatMap
          (fun executorType => ["--enabled-executor".toList, executorType]) ++
        (otherOptions options).flatMap fun option => [option.1, option.2])
        { baseURL := baseUrl, nodeID := nodeId, token := token } := by
    simp only [commandTokens, cons_append, nil_append]
    rw [scan_skip (by decide), scan_skip (by decide), scan_skip (by decide),
      scan_take (by decide), scan_take (by decide), scan_take (by decide)]
    rfl
  rw [hfront, scan_enabled]
  generalize otherOptions options = others at hnames ⊢
  cases others with
  | nil => rfl
  | cons first others =>
    have hfirst := hnames first mem_cons_self
    rw [flatMap_cons, cons_append, singleton_append, scan, hfirst]
    exact scan_options (fun option hmem => hnames option (mem_cons_of_mem _ hmem)) _

theorem valuesOf_cons (pair : List Char × List Char) (pairs : List (List Char × List Char))
    (key : String) :
    valuesOf (pair :: pairs) key =
      if pair.1 = key.toList then pair.2 :: valuesOf pairs key else valuesOf pairs key := by
  unfold valuesOf
  rw [filter_cons]
  by_cases h : pair.1 = key.toList
  · rw [if_pos h, if_pos (decide_eq_true h), map_cons]
  · rw [if_neg h, if_neg (by simpa using h)]

theorem foldl_takeName :
    pairs.foldl takeName fields =
      { baseURL := (valuesOf pairs "--base-url").getLast?.getD fields.baseURL
        nodeID := (valuesOf pairs "--node-id").getLast?.getD fields.nodeID
        token := (valuesOf pairs "--token").getLast?.getD fields.token
        enabledExecutors :=
          fields.enabledExecutors ++ valuesOf pairs "--enabled-executor" } := by
  induction pairs generalizing fields with
  | nil => simp [valuesOf]
  | cons pair pairs ih =>
    obtain ⟨value, name⟩ := pair
    rw [foldl_cons, ih]
    by_cases hflag : value ∈ valueFlags
    · simp only [valueFlags, mem_cons, not_mem_nil, or_false] at hflag
      rcases hflag with rfl | rfl | rfl | rfl <;>
        simp [takeName, valueFlags, ConnectCommandFields.assign, valuesOf, List.getLast?_cons]
    · have hnot : takeName fields (value, name) = fields := if_neg (by simpa using hflag)
      have hne : ∀ flag : String, flag.toList ∈ valueFlags → value ≠ flag.toList :=
        fun flag hmem heq => hflag (heq ▸ hmem)
      rw [hnot, valuesOf_cons, valuesOf_cons, valuesOf_cons, valuesOf_cons,
        if_neg (hne _ (by decide)), if_neg (hne _ (by decide)), if_neg (hne _ (by decide)),
        if_neg (hne _ (by decide))]

/-! ## Both ways into the app -/

def sentFields (baseUrl nodeId token : List Char) (options : ExecutorRunCommandOptions) :
    ConnectCommandFields :=
  { baseURL := baseUrl
    nodeID := nodeId
    token := token
    enabledExecutors := options.enabledExecutors }

/-- No value of an option that another option follows is a flag of the app, unless the name of
the last option that such a value takes is what the flag was given. -/
def takesNoName (baseUrl nodeId token : List Char) (options : ExecutorRunCommandOptions) : Bool :=
  let taken := valuesOf (followed (otherOptions options))
  (taken "--base-url").getLast?.all (· = baseUrl) && (taken "--node-id").getLast?.all (· = nodeId) &&
    (taken "--token").getLast?.all (· = token) && (taken "--enabled-executor").isEmpty

theorem requireFields_eq_ok_iff {baseURL nodeID token : String}
    {fields sent : ConnectCommandFields} (hbase : sent.baseURL ≠ []) (hnode : sent.nodeID ≠ [])
    (htoken : sent.token ≠ []) :
    requireFields baseURL nodeID token fields = .ok sent ↔ fields = sent := by
  constructor
  · intro h
    unfold requireFields at h
    split at h
    · cases h
      rfl
    · cases h
  · rintro rfl
    simp [requireFields, missingNames, hbase, hnode, htoken]

theorem getD_eq_iff_all {value : Option (List Char)} {own : List Char} :
    value.getD own = own ↔ value.all (· = own) = true := by
  cases value <;> simp

/-- The scanner gives back what was sent exactly if no flag takes a name. -/
theorem scan_commandTokens_eq_iff (baseUrl nodeId token : List Char)
    (options : ExecutorRunCommandOptions) : scan (commandTokens baseUrl nodeId token options) {} =
        sentFields baseUrl nodeId token options ↔
      takesNoName baseUrl nodeId token options = true := by
  rw [scan_commandTokens, foldl_takeName]
  simp only [sentFields, ConnectCommandFields.mk.injEq, getD_eq_iff_all, List.append_right_eq_self,
    takesNoName, Bool.and_eq_true, List.isEmpty_iff, and_assoc]

variable {tables : SegmentationTables}

/-- A flag and a quoted value for each entry. -/
theorem flaggedWords {α : Type} {flag value : α → List Char}
    {entries : List α} (hflag : ∀ entry ∈ entries, isPlainWord (flag entry) = true)
    (hvalue : ∀ entry ∈ entries, Unjoined tables (value entry)) :
    List.Forall₂ (IsWord tables)
      (entries.flatMap fun entry => [flag entry, shellQuote (value entry)])
      (entries.flatMap fun entry => [flag entry, value entry]) := by
  induction entries with
  | nil => exact .nil
  | cons entry entries ih =>
    have hrest := ih (fun other hmem => hflag other (mem_cons_of_mem _ hmem))
      fun other hmem => hvalue other (mem_cons_of_mem _ hmem)
    exact .cons (isWord_plain (hflag entry mem_cons_self))
      (.cons (isWord_shellQuote (hvalue entry mem_cons_self)) hrest)

variable {baseUrl nodeId token : List Char}

/-- The words of the command and their tokens. -/
theorem commandWords
    (h : ∀ value ∈ quotedValues baseUrl nodeId token options, Unjoined tables value) :
    List.Forall₂ (IsWord tables)
      ("newbro".toList :: buildExecutorRunArgs baseUrl nodeId token options)
      (commandTokens baseUrl nodeId token options) := by
  have hexecutors : ∀ executorType ∈ options.enabledExecutors, Unjoined tables executorType :=
    fun executorType hmem => h executorType
      (mem_append_left _ (mem_append_right _ hmem))
  have hothers : ∀ option ∈ otherOptions options, Unjoined tables option.2 :=
    fun option hmem => h option.2 (mem_append_right _ (mem_map_of_mem hmem))
  have hnames : ∀ option ∈ otherOptions options, isPlainWord option.1 = true := by
    intro option hmem
    have hname := name_mem_otherOptions option hmem
    simp only [mem_cons, not_mem_nil, or_false] at hname
    rcases hname with hname | hname | hname <;> rw [hname] <;> decide
  have hfield : ∀ value ∈ [baseUrl, nodeId, token], IsWord tables (shellQuote value) value :=
    fun value hmem => isWord_shellQuote (h value
      (mem_append_left _ (mem_append_left _ hmem)))
  have hfront : List.Forall₂ (IsWord tables)
      ["newbro".toList, "executor".toList, "run".toList, "--base-url".toList, shellQuote baseUrl,
        "--node-id".toList, shellQuote nodeId, "--token".toList, shellQuote token]
      ["newbro".toList, "executor".toList, "run".toList, "--base-url".toList, baseUrl,
        "--node-id".toList, nodeId, "--token".toList, token] :=
    .cons (isWord_plain (by decide)) (.cons (isWord_plain (by decide))
      (.cons (isWord_plain (by decide)) (.cons (isWord_plain (by decide))
        (.cons (hfield baseUrl (by simp)) (.cons (isWord_plain (by decide))
          (.cons (hfield nodeId (by simp)) (.cons (isWord_plain (by decide))
            (.cons (hfield token (by simp)) .nil))))))))
  exact rel_append (rel_append hfront (flaggedWords (fun _ _ => by decide) hexecutors))
    (flaggedWords hnames hothers)

/-- The command, where no value is joined with a quote. -/
theorem parseConnectCommand_iff (hbase : baseUrl ≠ []) (hnode : nodeId ≠ []) (htoken : token ≠ [])
    (h : ∀ value ∈ quotedValues baseUrl nodeId token options, Unjoined tables value) :
    parseConnectCommand tables (buildExecutorRunCommand baseUrl nodeId token options) =
        .ok (sentFields baseUrl nodeId token options) ↔
      takesNoName baseUrl nodeId token options = true := by
  rw [parseConnectCommand, buildExecutorRunCommand, shellTokenize_joinWords (commandWords h),
    requireFields_eq_ok_iff hbase hnode htoken, scan_commandTokens_eq_iff]

/-! ## The URL -/

theorem decodeQueryComponent_formEncode (text : List Char) :
    decodeQueryComponent (formEncode text) = text := by
  rw [decodeQueryComponent, removePercentEncoding_formEncode, Option.getD_some]

theorem parsePercentEncodedQuery_formSerialize {pairs : List (List Char × List Char)}
    (h : pairs ≠ []) : parsePercentEncodedQuery (formSerialize pairs) = pairs := by
  have hne : formSerialize pairs ≠ [] := by
    intro hnil
    have hsplit := splitOn_formSerialize h
    rw [hnil, splitOn_nil] at hsplit
    obtain ⟨pair, rest, rfl⟩ := exists_cons_of_ne_nil h
    have hpair := (List.cons.inj hsplit).1
    simp [formPair] at hpair
  have hdecode : ∀ pair ∈ pairs, ((fun text =>
      (decodeQueryComponent (cutAt '=' text).1,
        ((cutAt '=' text).2.map decodeQueryComponent).getD [])) ∘ formPair) pair = id pair := by
    intro pair _
    have hcut := cutAt_append (not_mem_formEncode (c := '=') rfl pair.1) (formEncode pair.2)
    simp only [Function.comp_apply, formPair, hcut, decodeQueryComponent_formEncode,
      Option.map_some, Option.getD_some, id_eq]
  unfold parsePercentEncodedQuery
  rw [if_neg hne, splitOn_formSerialize h, map_map]
  exact (map_congr_left hdecode).trans (map_id pairs)

theorem valuesOf_map (name : List Char) (values : List (List Char)) (key : String) :
    valuesOf (values.map fun value => (name, value)) key =
      if name = key.toList then values else [] := by
  induction values with
  | nil => exact (ite_self _).symm
  | cons value values ih =>
    rw [map_cons, valuesOf_cons, ih]
    by_cases h : name = key.toList
    · rw [if_pos h, if_pos h, if_pos h]
    · rw [if_neg h, if_neg h, if_neg h]

/-- What is found under each of four keys of which the last may be set many times. -/
theorem valuesOf_params (first second third last : String) (x y z : List Char)
    (values : List (List Char))
    (h : [first.toList, second.toList, third.toList, last.toList].Nodup) :
    let pairs := [(first.toList, x), (second.toList, y), (third.toList, z)] ++
      values.map fun value => (last.toList, value)
    valuesOf pairs first = [x] ∧ valuesOf pairs second = [y] ∧ valuesOf pairs third = [z] ∧
      valuesOf pairs last = values := by
  intro pairs
  simp only [nodup_cons, mem_cons, not_mem_nil, or_false, not_or, not_false_eq_true,
    nodup_nil, and_true] at h
  obtain ⟨⟨h₁₂, h₁₃, h₁₄⟩, ⟨h₂₃, h₂₄⟩, h₃₄⟩ := h
  simp only [pairs, cons_append, nil_append, valuesOf_cons, valuesOf_map, h₁₂, h₁₃, h₁₄,
    h₂₃, h₂₄, h₃₄, Ne.symm h₁₂, Ne.symm h₁₃, Ne.symm h₁₄, Ne.symm h₂₃, Ne.symm h₂₄, Ne.symm h₃₄,
    if_true, if_false, and_self]

theorem trim_of_visible
    (h : ∀ c ∈ text, tables.whiteSpace c = false) : trim tables text = text := by
  have hkeep : ∀ {text : List Char}, (∀ c ∈ text, tables.whiteSpace c = false) →
      text.dropWhile tables.whiteSpace = text := by
    intro text hall
    cases text with
    | nil => rfl
    | cons c text => rw [dropWhile_cons, hall c mem_cons_self, if_neg (by simp)]
  rw [trim, hkeep h, hkeep fun c hmem => h c (mem_reverse.mp hmem), reverse_reverse]

theorem isVisible_of_isUriChar (h : isUriChar c = true) : isPrintableAscii c = true ∧ c ≠ ' ' := by
  unfold isUriChar at h
  rcases Bool.or_eq_true_iff.mp h with halpha | hmem
  · have hrange := Text.toNat_of_isAlphanum halpha
    refine ⟨?_, fun heq => ?_⟩
    · simp only [isPrintableAscii, Bool.and_eq_true, decide_eq_true_eq]
      omega
    · subst heq
      cases halpha
  · have hall : ∀ d ∈ "-._~:/?#[]@!$&'()*+,;=%".toList, isPrintableAscii d = true ∧ d ≠ ' ' := by
      decide
    exact hall c (contains_iff_mem.mp hmem)

/-- The URL holds printable ASCII and no space. -/
theorem visible_url (baseUrl nodeId token : List Char) (options : ExecutorRunCommandOptions) :
    ∀ c ∈ buildExecutorConnectSettingsURL baseUrl nodeId token options,
      tables.whiteSpace c = false := by
  intro c hmem
  have hvisible : isPrintableAscii c = true ∧ c ≠ ' ' := by
    rcases mem_append.mp hmem with hbase | hrest
    · have hall : ∀ d ∈ "newbro://connect".toList, isPrintableAscii d = true ∧ d ≠ ' ' := by decide
      exact hall c hbase
    · rcases mem_cons.mp hrest with rfl | hquery
      · decide
      · exact isVisible_of_isUriChar (isUriChar_formSerialize hquery)
  rw [tables.whiteSpace_ascii c hvisible.1, decide_eq_false hvisible.2]

theorem uriComponents_connect : uriComponents "newbro://connect".toList =
      some ⟨some "newbro".toList, some "connect".toList, none⟩ := by
  decide

theorem uriComponents_connect_query :
    uriComponents ("newbro://connect".toList ++ '?' :: formSerialize pairs) =
      some ⟨some "newbro".toList, some "connect".toList, some (formSerialize pairs)⟩ := by
  rw [uriComponents_query _ (by decide) (by decide), uriComponents_connect, Option.map_some]

theorem nodup_keys : ["base_url".toList, "node_id".toList, "token".toList,
    "enabled_executor".toList].Nodup := by
  decide

/-- The URL is always read as it was meant. -/
theorem parseConnectSettings_build (hbase : baseUrl ≠ []) (hnode : nodeId ≠ [])
    (htoken : token ≠ []) :
    parseConnectSettings tables (buildExecutorConnectSettingsURL baseUrl nodeId token options) =
      .ok (sentFields baseUrl nodeId token options) := by
  have hparams : connectParams baseUrl nodeId token options ≠ [] := by simp [connectParams]
  have hparts : uriComponents (buildExecutorConnectSettingsURL baseUrl nodeId token options) =
      some ⟨some "newbro".toList, some "connect".toList,
        some (formSerialize (connectParams baseUrl nodeId token options))⟩ := by
    exact uriComponents_connect_query _
  obtain ⟨hbaseUrl, hnodeId, htokens, hexecutors⟩ :=
    valuesOf_params "base_url" "node_id" "token" "enabled_executor" baseUrl nodeId token
      options.enabledExecutors nodup_keys
  have hpairs := parsePercentEncodedQuery_formSerialize hparams
  unfold parseConnectSettings
  rw [trim_of_visible (visible_url baseUrl nodeId token options), hparts]
  simp only [Option.filter_some, decide_true, Bool.and_self, if_true, Option.getD_some, hpairs]
  have hread : ({ baseURL := (valuesOf (connectParams baseUrl nodeId token options)
                    "base_url").getLast?.getD []
                  nodeID := (valuesOf (connectParams baseUrl nodeId token options)
                    "node_id").getLast?.getD []
                  token := (valuesOf (connectParams baseUrl nodeId token options)
                    "token").getLast?.getD []
                  enabledExecutors := valuesOf (connectParams baseUrl nodeId token options)
                    "enabled_executor" } : ConnectCommandFields) =
      sentFields baseUrl nodeId token options := by
    unfold connectParams
    rw [hbaseUrl, hnodeId, htokens, hexecutors]
    rfl
  exact (requireFields_eq_ok_iff hbase hnode htoken).mpr hread

/-- Both ways give back what was sent. -/
def SettingsSurvive (tables : SegmentationTables) (baseUrl nodeId token : List Char)
    (options : ExecutorRunCommandOptions) : Prop :=
  parseConnectCommand tables (buildExecutorRunCommand baseUrl nodeId token options) =
      .ok (sentFields baseUrl nodeId token options) ∧
    parseConnectSettings tables (buildExecutorConnectSettingsURL baseUrl nodeId token options) =
      .ok (sentFields baseUrl nodeId token options)

/-- The URL survives whatever the texts are. The command does, of texts that are not joined with
the quotes around them, exactly if no flag takes the name of another option. -/
theorem settings_survive_iff (tables : SegmentationTables) (baseUrl nodeId token : List Char)
    (options : ExecutorRunCommandOptions) (hbase : baseUrl ≠ []) (hnode : nodeId ≠ [])
    (htoken : token ≠ []) :
    parseConnectSettings tables (buildExecutorConnectSettingsURL baseUrl nodeId token options) =
        .ok (sentFields baseUrl nodeId token options) ∧
      ((∀ value ∈ quotedValues baseUrl nodeId token options, Unjoined tables value) →
        (SettingsSurvive tables baseUrl nodeId token options ↔
          takesNoName baseUrl nodeId token options = true)) := by
  have hurl : parseConnectSettings tables
      (buildExecutorConnectSettingsURL baseUrl nodeId token options) =
        .ok (sentFields baseUrl nodeId token options) :=
    parseConnectSettings_build hbase hnode htoken
  refine ⟨hurl, fun hunjoined => ?_⟩
  have hcommand := parseConnectCommand_iff hbase hnode htoken hunjoined
  constructor
  · intro hsurvive
    exact hcommand.mp hsurvive.1
  · intro hnames
    exact ⟨hcommand.mpr hnames, hurl⟩

/-- Tables for texts of printable ASCII, an acute accent that is joined and nothing else. -/
def accentTables : SegmentationTables where
  graphemeBreak c := if c = '\u0301' then .extend else .other
  conjunctBreak _ := .none
  pictographic _ := false
  whiteSpace c := c = ' '
  graphemeBreak_ascii c h := if_neg fun heq => by subst heq; cases h
  conjunctBreak_ascii _ _ := rfl
  pictographic_ascii _ _ := rfl
  whiteSpace_ascii _ _ := rfl

instance (tables : SegmentationTables) : DecidableRel (StandsApart tables) :=
  fun _ _ => inferInstanceAs (Decidable (_ ∧ _))

instance (tables : SegmentationTables) (value : List Char) : Decidable (Unjoined tables value) :=
  inferInstanceAs (Decidable (List.IsChain _ _))

/-- Quotes, option names and other signs in every value. -/
theorem settings_survive_signs :
    SettingsSurvive accentTables "http://h/?a='&b=\"+%".toList "--token".toList
      "it's e\u0301 --node-id".toList
      { enabledExecutors := ["--base-url".toList, []]
        acpxAgent := some "a'b".toList
        whisperModel := some "--token".toList } :=
  ((settings_survive_iff accentTables _ _ _ _ (by decide) (by decide) (by decide)).2
    (by decide)).mpr (by decide +kernel)

/-- A value that is a flag's name takes the name of the next option for the token. -/
theorem option_value_replaces_token :
    ¬ ∀ (tables : SegmentationTables) (baseUrl nodeId token : List Char)
      (options : ExecutorRunCommandOptions), baseUrl ≠ [] → nodeId ≠ [] → token ≠ [] →
        SettingsSurvive tables baseUrl nodeId token options := by
  intro h
  have hsurvive := h accentTables "http://localhost".toList "node".toList "secret".toList
    { acpxAgent := some "--token".toList, audioLanguage := some "en".toList } (by decide)
    (by decide) (by decide)
  exact absurd hsurvive.1 (by decide +kernel)

end Newbro.ConnectCommand
