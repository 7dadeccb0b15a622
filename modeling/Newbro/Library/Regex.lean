import Mathlib.Data.List.Infix

/-!
# Regular expressions by backtracking

The matches of an expression at a place of a text, in the order in which a backtracking matcher
tries them, with lazy and greedy repetition, named groups and what looks at the surroundings of
the place. Searches skip matches that read nothing.
-/
namespace Newbro.Library

/-- A place in a text, with the groups that have been captured on the way. -/
structure Cursor where
  previous : Option Char := none
  rest : List Char
  groups : List (String × List Char) := []
  deriving Repr, DecidableEq

inductive Regex where
  | empty
  | one (accepts : Char → Bool)
  | seq (first second : Regex)
  | either (first second : Regex)
  | many (greedy : Bool) (body : Regex)
  | group (name : String) (body : Regex)
  | wordBoundary
  | ahead (body : Regex)
  | atStart
  /-- The end of the text, or a line feed that ends it. -/
  | atEnd

namespace Regex

/-- A step, repeated while it reads something. -/
def repeatedly (greedy : Bool) (step : Cursor → List Cursor) : Nat → Cursor → List Cursor
  | 0, c => [c]
  | n + 1, c =>
    let more := ((step c).filter fun next => next.rest.length < c.rest.length).flatMap
      (repeatedly greedy step n)
    if greedy then more ++ [c] else c :: more

/-- The places after a match at the cursor, the preferred one first. -/
@[grind =] def run (isWord : Char → Bool) : Regex → Cursor → List Cursor
  | empty, c => [c]
  | one accepts, c =>
    match c.rest with
    | [] => []
    | d :: rest => if accepts d then [{ c with previous := some d, rest := rest }] else []
  | seq first second, c => (run isWord first c).flatMap (run isWord second)
  | either first second, c => run isWord first c ++ run isWord second c
  | many greedy body, c => repeatedly greedy (run isWord body) c.rest.length c
  | group name body, c =>
    (run isWord body c).map fun next =>
      { next with groups :=
          (name, c.rest.take (c.rest.length - next.rest.length)) :: next.groups }
  | wordBoundary, c => if c.previous.any isWord != c.rest.head?.any isWord then [c] else []
  | ahead body, c =>
    (run isWord body c).head?.toList.map fun next => { c with groups := next.groups }
  | atStart, c => if c.previous.isNone then [c] else []
  | atEnd, c => if c.rest = [] || c.rest = ['\n'] then [c] else []

/-- One of the expressions, tried in order. -/
def oneOf : List Regex → Regex
  | [] => one fun _ => false
  | [r] => r
  | r :: next :: rs => either r (oneOf (next :: rs))

def sequence (rs : List Regex) : Regex := rs.foldr seq empty

/-- The characters one after the other, each compared in the given way. -/
def literal (same : Char → Char → Bool) (text : List Char) : Regex :=
  sequence (text.map fun c => one fun d => same d c)

/-- `body+` -/
def plus (body : Regex) : Regex := seq body (many true body)

/-- `body+?` -/
def plusLazy (body : Regex) : Regex := seq body (many false body)

/-- `(?:body)?` -/
def optional (body : Regex) : Regex := either body empty

variable (isWord : Char → Bool) (r : Regex)

variable (text : List Char)

/-- `re.match` -/
def matchStart : Option Cursor :=
  (r.run isWord { rest := text }).head?

/-- The first match at a place. -/
def matchAt (previous : Option Char) (text : List Char) :
    Option Cursor :=
  (r.run isWord { previous := previous, rest := text }).find? fun c => c.rest.length < text.length

/-- The matches from a place on; every step reads a character. -/
def findFrom (isWord : Char → Bool) (r : Regex) : Nat → Option Char → List Char → List Cursor
  | 0, _, _ => []
  | n + 1, previous, text =>
    match r.matchAt isWord previous text, text with
    | some c, _ => c :: findFrom isWord r n c.previous c.rest
    | none, [] => []
    | none, d :: rest => findFrom isWord r n (some d) rest

def replaceFrom (isWord : Char → Bool) (r : Regex) (replacement : List Char) :
    Nat → Option Char → List Char → List Char
  | 0, _, text => text
  | n + 1, previous, text =>
    match r.matchAt isWord previous text, text with
    | some c, _ => replacement ++ replaceFrom isWord r replacement n c.previous c.rest
    | none, [] => []
    | none, d :: rest => d :: replaceFrom isWord r replacement n (some d) rest

/-- `re.finditer` -/
def findIter : List Cursor :=
  findFrom isWord r text.length none text

def sub (replacement text : List Char) : List Char :=
  replaceFrom isWord r replacement text.length none text

def search : Bool :=
  !(findIter isWord r text).isEmpty

/-- `match.group(name)` -/
def groupOf (c : Cursor) (name : String) : Option (List Char) := c.groups.lookup name

end Regex

end Newbro.Library
