import Mathlib.Data.List.Infix
import Newbro.Protocol

/-!
# Redacted diagnostics

`sanitize_details`: what a diagnostic event says is cut down before it is logged or kept. Values
under a sensitive key are replaced, at any depth, long lists and texts are cut.
-/
namespace Newbro.Redaction
open Library Protocol List

def sensitiveKeyParts : List String := ["api_key", "authorization", "password", "secret", "token"]

def textPreviewKeys : List String :=
  ["content", "delta", "message", "prompt", "reply_text", "summary", "text", "user_text"]

variable (lower : String → String) (debugEnabled : Bool)

def isSensitive (key : String) : Bool :=
  sensitiveKeyParts.any fun part => part.toList <:+: (lower key).toList

/-- A text of at most `limit` characters, the last three of them dots if it has been cut. -/
def preview (limit : Nat) (value : String) : String :=
  if value.length ≤ limit then value else Text.firstChars (limit - 3) value ++ "..."

/-- `_sanitize_text`, for a key in lower case. -/
def sanitizeText (preserveFullText : Bool) (key value : String) : String :=
  if preserveFullText then value
  else if debugEnabled then Text.firstChars 500 value
  else if key ∈ textPreviewKeys ∨ key.endsWith "_text" ∨ key.endsWith "_message" then
    preview 80 value
  else preview 160 value

mutual

def sanitizeValue (preserveFullText : Bool) (key : String) : Value → Value
  | .dict fields =>
    if isSensitive lower key then .str "[redacted]"
    else .dict (sanitizeMapping preserveFullText fields)
  | .list items =>
    if isSensitive lower key then .str "[redacted]"
    else .list ((sanitizeItems (preserveFullText || lower key = "system_messages") key items).take 20)
  | .str value =>
    if isSensitive lower key then .str "[redacted]"
    else .str (sanitizeText debugEnabled preserveFullText (lower key) value)
  | value => if isSensitive lower key then .str "[redacted]" else value

def sanitizeItems (preserveFullText : Bool) (key : String) : List Value → List Value
  | [] => []
  | item :: items =>
    sanitizeValue preserveFullText key item :: sanitizeItems preserveFullText key items

def sanitizeMapping (preserveFullText : Bool) : Fields → Fields
  | [] => []
  | (key, item) :: fields =>
    (key, sanitizeValue preserveFullText key item) :: sanitizeMapping preserveFullText fields

end

def sanitizeDetails (details : Option Fields) : Fields :=
  sanitizeMapping lower debugEnabled false (details.getD [])

/-! ## What is behind a sensitive key -/

mutual

/-- A value without what is under a sensitive key. -/
def hideValue (key : String) : Value → Value
  | .dict fields => if isSensitive lower key then .null else .dict (hideFields fields)
  | .list items => if isSensitive lower key then .null else .list (hideItems key items)
  | value => if isSensitive lower key then .null else value

def hideItems (key : String) : List Value → List Value
  | [] => []
  | item :: items => hideValue key item :: hideItems key items

def hideFields : Fields → Fields
  | [] => []
  | (key, item) :: fields => (key, hideValue key item) :: hideFields fields

end

mutual

theorem sanitizeValue_hideValue (p : Bool) (key : String) : ∀ value,
    sanitizeValue lower debugEnabled p key (hideValue lower key value) =
      sanitizeValue lower debugEnabled p key value
  | .dict fields => by
    by_cases h : isSensitive lower key <;>
      simp [hideValue, sanitizeValue, h, sanitizeMapping_hideFields p fields]
  | .list items => by
    by_cases h : isSensitive lower key <;>
      simp [hideValue, sanitizeValue, h, sanitizeItems_hideItems _ key items]
  | .null | .bool _ | .int _ | .str _ => by
    by_cases h : isSensitive lower key <;> simp [hideValue, sanitizeValue, h]

theorem sanitizeItems_hideItems (p : Bool) (key : String) : ∀ items,
    sanitizeItems lower debugEnabled p key (hideItems lower key items) =
      sanitizeItems lower debugEnabled p key items
  | [] => rfl
  | item :: items => by
    rw [hideItems, sanitizeItems, sanitizeItems, sanitizeValue_hideValue p key item,
      sanitizeItems_hideItems p key items]

theorem sanitizeMapping_hideFields (p : Bool) : ∀ fields,
    sanitizeMapping lower debugEnabled p (hideFields lower fields) =
      sanitizeMapping lower debugEnabled p fields
  | [] => rfl
  | (key, item) :: fields => by
    rw [hideFields, sanitizeMapping, sanitizeMapping, sanitizeValue_hideValue p key item,
      sanitizeMapping_hideFields p fields]

end

/-- Details that differ only under sensitive keys, at any depth, are logged alike. -/
theorem sanitizeDetails_of_hidden_eq {a b : Fields} (h : hideFields lower a = hideFields lower b) :
    sanitizeDetails lower debugEnabled (some a) = sanitizeDetails lower debugEnabled (some b) := by
  simp only [sanitizeDetails, Option.getD_some]
  rw [← sanitizeMapping_hideFields, h, sanitizeMapping_hideFields]

/-- Two sign-ins of one user with different tokens. -/
theorem signIn_logged_alike :
    sanitizeDetails String.toLower true (some [("user", .dict [("Token", .str "k1")])]) =
      sanitizeDetails String.toLower true (some [("user", .dict [("Token", .str "k2")])]) := by
  have huser : isSensitive String.toLower "user" = false := by decide +kernel
  have htoken : isSensitive String.toLower "Token" = true := by decide +kernel
  exact sanitizeDetails_of_hidden_eq _ _ (by simp [hideFields, hideValue, huser, htoken])

end Newbro.Redaction
