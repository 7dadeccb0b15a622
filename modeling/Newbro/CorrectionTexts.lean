import Newbro.Library.Lines
import Newbro.Library.Regex
import Newbro.Protocol

/-!
# The texts of a correction

How the communication brain reads a correction in what the user says, finds the places and
targets that tasks speak of (`_extract_bundle_slots`), and puts another one into their texts.
-/
namespace Newbro.Corrections

open Library Library.Text Protocol

/-- The tables of Python for `str.capitalize` and `re.IGNORECASE`, with what is documented of
them for ASCII. -/
structure Casing extends Unicode where
  capitalize : List Char → List Char
  /-- Whether a character of the text matches one of the pattern. -/
  sameCase : Char → Char → Bool
  capitalize_of_ascii : ∀ c text, (∀ d ∈ c :: text, d.toNat < 128) →
    capitalize (c :: text) = c.toUpper :: text.map Char.toLower
  sameCase_of_ascii : ∀ c d, c.toNat < 128 → d.toNat < 128 →
    sameCase c d = (c.toLower == d.toLower)

/-- The tables cut down to ASCII. -/
def asciiCasing : Casing where
  toUnicode := Text.ascii
  capitalize text := (text.head?.map Char.toUpper).toList ++ text.tail.map Char.toLower
  sameCase c d := c.toLower == d.toLower
  capitalize_of_ascii _ _ _ := rfl
  sameCase_of_ascii _ _ _ _ := rfl

/-! ## Patterns -/

section patterns

variable (tables : Casing)

def word (text : String) : Regex := Regex.literal tables.sameCase text.toList

def words (texts : List String) : Regex := Regex.oneOf (texts.map (word tables))

/-- `[A-Za-z]` -/
def letter : Regex :=
  .one fun c => "abcdefghijklmnopqrstuvwxyz".toList.any (tables.sameCase c)

/-- `[A-Za-z\s-]` -/
def placeChar : Regex :=
  .either (letter tables) (.one fun c => isSpace c || c = '-')

/-- `\s+` -/
def spaces : Regex := .plus (.one isSpace)

def cues : List String := ["from", "to", "in", "at"]

/-- `(?=\s+(?:for|from|to|instead|today|tomorrow)\b|[.,!?]|$)` -/
def slotEnd : Regex :=
  .ahead (Regex.oneOf
    [Regex.sequence
      [spaces, words tables ["for", "from", "to", "instead", "today", "tomorrow"], .wordBoundary],
    .one fun c => ['.', ',', '!', '?'].contains c,
    .atEnd])

def slotPhraseRe : Regex :=
  Regex.sequence
    [.wordBoundary, .group "cue" (words tables cues), spaces,
      .group "value" (.seq (letter tables) (.plusLazy (placeChar tables))), slotEnd tables]

def correctionOldNewRe : Regex :=
  Regex.sequence
    [.atStart, words tables ["change", "replace", "switch"], spaces,
      .optional (.seq (.group "cue" (words tables cues)) spaces),
      .group "old" (.seq (letter tables) (.plusLazy (placeChar tables))), spaces,
      words tables ["to", "with", "for"], spaces,
      .group "new" (.seq (letter tables) (.plus (placeChar tables))), .atEnd]

def correctionShouldBeRe : Regex :=
  Regex.sequence
    [.atStart, .optional (.seq (words tables ["it", "that", "this", "destination", "origin"]) spaces),
      word tables "should", spaces, word tables "be", spaces,
      .group "new" (.seq (letter tables) (.plusLazy (placeChar tables))),
      .optional (.seq spaces (.group "cue" (words tables cues))), .atEnd]

def correctionDirectCueRe : Regex :=
  Regex.sequence
    [.atStart, .group "cue" (words tables cues), spaces,
      .group "new" (.seq (letter tables) (.plus (placeChar tables))), .atEnd]

/-- The cue and the value of a slot, as they stand in a text. -/
def cuedValueRe (cue value : String) : Regex :=
  Regex.sequence
    [.wordBoundary, word tables cue, spaces, word tables value, slotEnd tables]

end patterns

/-! ## What the user says -/

inductive SlotGroup where
  | origin | destination
  deriving Repr, DecidableEq

def SlotGroup.value : SlotGroup → String
  | origin => "origin"
  | destination => "destination"

structure CorrectionIntent where
  newValue : String
  oldValue : Option String := none
  targetGroup : Option SlotGroup := none
  deriving Repr, DecidableEq

variable (tables : Casing)

def lower (text : String) : String := String.ofList (tables.lower text.toList)

def titleCaseLocation (value : String) : String :=
  String.intercalate " "
    ((Text.words value).map fun part => String.ofList (tables.capitalize part.toList))

def cueToGroup (cue : Option String) : Option SlotGroup :=
  cue.bind fun cue =>
    let normalized := lower tables cue
    if normalized = "from" then some .origin
    else if ["to", "in", "at"].contains normalized then some .destination
    else none

def normalizeUserText (userText : String) : String :=
  let lowered := tables.lower (strip userText).toList
  let spaced := lowered.map fun c => if ['?', '!', '.', ','].contains c then ' ' else c
  String.intercalate " " (Text.words (String.ofList spaced))

def groupText (c : Cursor) (name : String) : Option String :=
  (Regex.groupOf c name).map String.ofList

/-- What `_parse_generic_correction` comes to. -/
inductive ParsedCorrection where
  | none
  | intent (intent : CorrectionIntent)
  /-- `match.group("old_cue")`: there is no such group. -/
  | noSuchGroup
  deriving Repr, DecidableEq

def parseGenericCorrection (userText : String) : ParsedCorrection :=
  let normalized := (normalizeUserText tables userText).toList
  let matching (r : Regex) := r.matchStart tables.isWord normalized
  let titled (c : Cursor) (name : String) := titleCaseLocation tables ((groupText c name).getD "")
  match matching (correctionOldNewRe tables) with
  | some c =>
    match groupText c "cue" with
    | .none => .noSuchGroup
    | some cue =>
      .intent
        { newValue := titled c "new"
          oldValue := some (titled c "old")
          targetGroup := cueToGroup tables (some cue) }
  | .none =>
    match (matching (correctionShouldBeRe tables)).or (matching (correctionDirectCueRe tables)) with
    | some c =>
      .intent
        { newValue := titled c "new", targetGroup := cueToGroup tables (groupText c "cue") }
    | .none => .none

/-! ## The slots of tasks -/

structure BundleSlot where
  taskId : String
  fieldName : String
  cue : String
  group : Option SlotGroup
  value : String
  deriving Repr, DecidableEq

def slotsOfText (taskId fieldName text : String) : List BundleSlot :=
  ((slotPhraseRe tables).findIter tables.isWord text.toList).map fun c =>
    let cue := lower tables ((groupText c "cue").getD "")
    { taskId := taskId
      fieldName := fieldName
      cue := cue
      group := cueToGroup tables (some cue)
      value := titleCaseLocation tables ((groupText c "value").getD "") }

def extractBundleSlots (tasks : List Task) : List BundleSlot :=
  tasks.flatMap fun task =>
    slotsOfText tables task.taskId "title" task.title ++
      slotsOfText tables task.taskId "goal" task.goal ++
      slotsOfText tables task.taskId "latest_instruction" (task.latestInstruction.getD "")

def selectCorrectionSlots (slots : List BundleSlot) (intent : CorrectionIntent) :
    Option (List BundleSlot) :=
  if slots = [] then none
  else
    match intent.oldValue, intent.targetGroup with
    | some oldValue, targetGroup =>
      let matched := slots.filter fun slot => lower tables slot.value = lower tables oldValue
      let matched :=
        if targetGroup.isSome then matched.filter fun slot => slot.group = targetGroup else matched
      if matched = [] then none
      else if targetGroup.isNone && (matched.map BundleSlot.group).dedup.length > 1 then none
      else some matched
    | none, some group =>
      let matched := slots.filter fun slot => slot.group = some group
      if matched = [] then none else some matched
    | none, none => if slots.length = 1 then some slots else none

/-- `_apply_correction_to_text`, of a text that is there. -/
def applyCorrectionToText (targetSlots : List BundleSlot) (intent : CorrectionIntent)
    (value : String) : String :=
  targetSlots.foldl
    (fun updated slot =>
      String.ofList ((cuedValueRe tables slot.cue slot.value).sub tables.isWord
        (slot.cue ++ " " ++ intent.newValue).toList updated.toList))
    value

/-- Whether one of the texts has the value with its cue. -/
def anyHasCuedValue (texts : List String) (cue value : String) : Bool :=
  texts.any fun text => text ≠ "" && (cuedValueRe tables cue value).search tables.isWord text.toList

/-! ## Replies -/

def inferCommonSlotValue (slots : List BundleSlot) (group : SlotGroup) : Option String :=
  match (slots.filter fun slot => slot.group = some group).map BundleSlot.value with
  | [] => none
  | first :: rest => if rest.all (· = first) then some first else none

def buildCorrectionClarification (slots : List BundleSlot) (intent : CorrectionIntent) : String :=
  let insteadOf (current : Option String) :=
    match current with
    | some current => " instead of " ++ current ++ "?"
    | none => " instead?"
  match intent.oldValue, intent.targetGroup with
  | some oldValue, some group =>
    "Do you mean the " ++ group.value ++ " should be " ++ intent.newValue ++ insteadOf oldValue
  | some oldValue, none => "Do you mean " ++ intent.newValue ++ insteadOf oldValue
  | none, some group =>
    "Do you mean the " ++ group.value ++ " should be " ++ intent.newValue ++
      insteadOf (inferCommonSlotValue slots group)
  | none, none =>
    match inferCommonSlotValue slots .destination with
    | some current =>
      "Do you mean the destination should be " ++ intent.newValue ++ insteadOf current
    | none => "Do you mean " ++ intent.newValue ++ insteadOf none

def buildCorrectionAcknowledgement (intent : CorrectionIntent) : String :=
  match intent.oldValue, intent.targetGroup with
  | some oldValue, _ =>
    "Okay, I replaced " ++ oldValue ++ " with " ++ intent.newValue ++ " in those tasks."
  | none, some group => "Okay, I updated the " ++ group.value ++ " to " ++ intent.newValue ++ "."
  | none, none => "Okay, I updated that to " ++ intent.newValue ++ "."

end Newbro.Corrections
