import Newbro.Library.Lines
import Newbro.Protocol

/-!
# The persona file

The writer and the reader of `personas.yaml` in `communication/persona_pool.py`. Both
are written by hand: the reader knows just the lines that the writer makes.
-/
namespace Newbro.PersonaPool

open Protocol Library Library.Text

variable (value : List Char)

def yamlQuote : List Char :=
  let escaped := replaceChar '"' ['\\', '"']
    (replaceChar '\n' ['\\', 'n'] (replaceChar '\\' ['\\', '\\'] value))
  '"' :: (escaped ++ ['"'])

def unquote : List Char :=
  let s := stripChars value
  if 2 ≤ s.length ∧ s.head? = some '"' ∧ s.getLast? = some '"' then
    replacePair '\\' '\\' ['\\']
      (replacePair '\\' '"' ['"'] (replacePair '\\' 'n' ['\n'] s.tail.dropLast))
  else if 2 ≤ s.length ∧ s.head? = some '\'' ∧ s.getLast? = some '\'' then s.tail.dropLast
  else s

/-- `_yaml_quote(id) if id else "null"` -/
def executorNodeText : Option String → List Char
  | none => "null".toList
  | some nodeId => if nodeId = "" then "null".toList else yamlQuote nodeId.toList

def personaLines (persona : Persona) : List (List Char) :=
  [ "  - name: ".toList ++ yamlQuote persona.name.toList,
    "    persona_id: ".toList ++ yamlQuote persona.personaId.toList,
    "    avatar: ".toList ++ yamlQuote persona.avatar.toList,
    "    base_prompt: ".toList ++ yamlQuote persona.basePrompt.toList,
    "    executor_node_id: ".toList ++ executorNodeText persona.executorNodeId,
    "    bro_detail_session_id: ".toList ++ yamlQuote persona.broDetailSessionId.toList ]

/-- The text of the file that `_write_persona_store` writes. -/
def writePersonaStore (personas : List Persona) : List Char :=
  joinLines ("personas:".toList :: personas.flatMap personaLines)

/-- `text or default` -/
def orElse (text : Option (List Char)) (default : List Char) : List Char :=
  match text with
  | none => default
  | some text => if text = [] then default else text

def optionalValue : Option String :=
  if value = [] ∨ value = "null".toList ∨ value = "~".toList then none
  else some (String.ofList value)

def isSlugChar (c : Char) : Bool := c.isAlphanum || c == '_' || c == '-'

/-- `re.sub(r"[^a-zA-Z0-9_-]+", "-", text)`: each run of other characters becomes one dash. -/
def subSlug (inRun : Bool) : List Char → List Char
  | [] => []
  | c :: rest =>
    if isSlugChar c = true then c :: subSlug false rest
    else if inRun = true then subSlug true rest
    else '-' :: subSlug true rest

def stripDashes (text : List Char) : List Char :=
  ((text.dropWhile (· == '-')).reverse.dropWhile (· == '-')).reverse

def legacyBroDetailSessionId (personaId : List Char) : List Char :=
  "bro-detail-".toList ++ orElse (some (stripDashes (subSlug false personaId))) "bro".toList

abbrev Fields := Dict (List Char) (List Char)

variable (u : Unicode)

def buildPersona (fields : Fields) : Persona :=
  let name := (fields.lookup "name".toList).getD []
  let personaId := orElse (fields.lookup "persona_id".toList)
    ("persona-".toList ++ replaceChar ' ' ['-'] (u.lower name))
  { personaId := String.ofList personaId
    name := String.ofList name
    avatar := String.ofList ((fields.lookup "avatar".toList).getD [])
    basePrompt := String.ofList ((fields.lookup "base_prompt".toList).getD [])
    executorNodeId := optionalValue ((fields.lookup "executor_node_id".toList).getD [])
    broDetailSessionId := String.ofList (orElse (fields.lookup "bro_detail_session_id".toList)
      (legacyBroDetailSessionId personaId)) }

/-- `re.match(r'^(\w+):\s*(.*)', stripped)`. A line holds no newline, so `.*` is the rest. -/
def matchField (stripped : List Char) : Option (List Char × List Char) :=
  match stripped.takeWhile u.isWord, stripped.dropWhile u.isWord with
  | c :: key, ':' :: rest => some (c :: key, rest.dropWhile isSpace)
  | _, _ => none

/-- `re.match(r'^-\s+(\w+):\s*(.*)', stripped)` -/
def matchItem : List Char → Option (List Char × List Char)
  | '-' :: c :: rest => if isSpace c = true then matchField u (rest.dropWhile isSpace) else none
  | _ => none

/-- What the loop over the lines of the file carries. -/
structure Reading where
  personas : List Persona
  current : Fields
  inPersonasBlock : Bool

/-- `if current.get("name"): personas.append(_build_persona(current))` -/
def Reading.flush (st : Reading) : List Persona :=
  if (st.current.lookup "name".toList).getD [] = [] then st.personas
  else st.personas ++ [buildPersona u st.current]

def readLine (st : Reading) (line : List Char) : Reading :=
  let stripped := stripChars line
  if stripped = [] ∨ stripped.head? = some '#' then st
  else if stripped = "personas:".toList then { st with inPersonasBlock := true }
  else if st.inPersonasBlock = false then st
  else match matchItem u stripped with
    | some (key, value) =>
      { st with personas := st.flush u, current := Dict.set Table.empty key (unquote value) }
    | none =>
      match matchField u stripped with
      | some (key, value) => { st with current := st.current.set key (unquote value) }
      | none => st

def parsePersonaStoreYaml (text : List Char) : List Persona :=
  ((splitLines text).foldl (readLine u) ⟨[], Table.empty, false⟩).flush u

/-- `load_personas_from_file` on a file that is there: it is read in text mode. -/
def loadPersonasFromFile (file : List Char) : List Persona :=
  parsePersonaStoreYaml u (universalNewlines file)

/-- The fields of a persona that the file keeps: all but the status. -/
def persisted (persona : Persona) : Persona := { persona with status := .idle }

theorem loadPersonasFromFile_eq (file : List Char) :
    loadPersonasFromFile u file = parsePersonaStoreYaml u file := by
  rw [loadPersonasFromFile, parsePersonaStoreYaml, splitLines, splitLinesFrom_universalNewlines]
  rfl

end Newbro.PersonaPool
