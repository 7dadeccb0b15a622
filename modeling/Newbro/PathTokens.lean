import Mathlib.Data.Finset.Dedup
import Mathlib.Data.Finset.Empty
import Mathlib.Data.List.DropRight
import Newbro.Library.Text

/-!
# Paths written in a text

The absolute paths that the server finds in what an assistant wrote
(`newbro/api/workspace_path_tokens.py`) and those that the web client finds there
(`workspace-paths.ts`). Both search for the same expression, but `\s` does not stand for the same
characters in the two engines. A text is the list of its scalars, which is how the server reads
it; the client reads code units, and none of the characters that the grammar names is a surrogate.
-/
namespace Newbro.PathTokens

open Library.Text List

/-- What an engine takes for `\s`; no visible character of ASCII is among it. -/
structure Engine where
  isSpace : Char → Bool
  visible : ∀ c : Char, 0x21 ≤ c.toNat → c.toNat ≤ 0x7e → isSpace c = false

/-- `\s` of the `re` module. -/
def python : Engine where
  isSpace := isSpace
  visible := by
    intro c hlow hhigh
    simp only [isSpace, Bool.or_eq_false_iff, Bool.and_eq_false_iff, decide_eq_false_iff_not,
      beq_eq_false_iff_ne]
    omega

/-- `\s` of the client's engine. -/
def isClientSpace (c : Char) : Bool :=
  let n := c.toNat
  (0x09 ≤ n && n ≤ 0x0d) || n == 0x20 || n == 0xa0 || n == 0x1680 ||
    (0x2000 ≤ n && n ≤ 0x200a) || n == 0x2028 || n == 0x2029 || n == 0x202f || n == 0x205f ||
    n == 0x3000 || n == 0xfeff

def ecmaScript : Engine where
  isSpace := isClientSpace
  visible := by
    intro c hlow hhigh
    simp only [isClientSpace, Bool.or_eq_false_iff, Bool.and_eq_false_iff, decide_eq_false_iff_not,
      beq_eq_false_iff_ne]
    omega

/-- `([{<"'` and the backquote, after which a path may start. -/
def openers : List Char := ['(', '[', '{', '<', '"', '\'', Char.ofNat 0x60]

/-- What ends a path besides white space. -/
def delimiters : List Char :=
  ['(', ')', '[', ']', '{', '}', '<', '>', '"', '\'', Char.ofNat 0x60]

def trailing : List Char := ['.', ',', ';', ':', '!', '?']

namespace Engine

variable (engine : Engine)

/-- `^`, or a look behind at what may stand before a path. -/
def opens : Option Char → Bool
  | none => true
  | some c => engine.isSpace c || openers.contains c

/-- The negated class, of which a path is made. -/
def continues (c : Char) : Bool := !(engine.isSpace c || delimiters.contains c)

/-- `_PATH_TOKEN_RE.finditer(text)`, from a place with the character before it. -/
def findPaths (previous : Option Char) : List Char → List (List Char)
  | [] => []
  | c :: rest =>
    if engine.opens previous = true ∧ c = '/' then
      (c :: rest.takeWhile engine.continues) ::
        findPaths (c :: rest.takeWhile engine.continues).getLast?
          (rest.dropWhile engine.continues)
    else findPaths (some c) rest
termination_by text => text.length
decreasing_by
  · have h := (dropWhile_sublist engine.continues (l := rest)).length_le
    simp only [length_cons]
    omega
  · simp

/-- The same search, character by character. -/
def scanPaths (previous : Option Char) : List Char → List (List Char)
  | [] => []
  | c :: rest =>
    if engine.opens previous = true ∧ c = '/' then
      (c :: rest.takeWhile engine.continues) :: scanPaths (some c) rest
    else scanPaths (some c) rest

end Engine

/-- `token.rstrip(_TRAILING)` -/
def withoutTrailing (found : List Char) : List Char := found.rdropWhile trailing.contains

/-- The tokens of the matches that are kept, in the order of the text. -/
def tokensOf (engine : Engine) (text : List Char) : List (List Char) :=
  ((engine.findPaths none text).map withoutTrailing).filter
    fun token => token ≠ [] && !token.contains '\x00'

/-- `extract_path_tokens`; a text that is absent has no tokens. -/
def Server.extractPathTokens (text : Option (List Char)) : Finset (List Char) :=
  match text with
  | none => ∅
  | some text => (tokensOf python text).toFinset

/-- `extractPathTokens`: every token once, where it is found first. -/
def Client.extractPathTokens (text : List Char) : List (List Char) :=
  (tokensOf ecmaScript text).foldl
    (fun out token => if token ∈ out then out else out ++ [token]) []

/-! ## The places of the matches -/

variable {engine : Engine}

variable {c : Char}

theorem continues_eq_true :
    engine.continues c = true ↔ engine.isSpace c = false ∧ c ∉ delimiters := by
  simp [Engine.continues]

theorem continues_slash : engine.continues '/' = true := by
  apply continues_eq_true.mpr
  exact ⟨engine.visible '/' (by decide) (by decide), by decide⟩

theorem mem_delimiters_of_mem_openers (h : c ∈ openers) : c ∈ delimiters := by
  simp only [openers, delimiters, mem_cons, not_mem_nil, or_false] at h ⊢
  tauto

theorem opens_of_continues (h : engine.continues c = true) : engine.opens (some c) = false := by
  obtain ⟨hspace, hdelimiter⟩ := continues_eq_true.mp h
  have hopener : c ∉ openers := fun hc => hdelimiter (mem_delimiters_of_mem_openers hc)
  simp [Engine.opens, hspace, hopener]

/-- Inside a match there is no place at which a path may start. -/
theorem scanPaths_run {previous : Char} (hprevious : engine.continues previous = true)
    (text : List Char) : engine.scanPaths (some previous) text =
      engine.scanPaths (previous :: text.takeWhile engine.continues).getLast?
        (text.dropWhile engine.continues) := by
  induction text generalizing previous with
  | nil => rfl
  | cons c rest ih =>
    cases hc : engine.continues c with
    | false => simp [hc]
    | true =>
      have hskip : engine.scanPaths (some previous) (c :: rest) =
          engine.scanPaths (some c) rest := by
        rw [Engine.scanPaths, if_neg]
        simp [opens_of_continues hprevious]
      rw [hskip, ih hc, takeWhile_cons_of_pos hc, dropWhile_cons_of_pos hc]
      simp

theorem findPaths_eq_scanPaths (previous : Option Char) (text : List Char) :
    engine.findPaths previous text = engine.scanPaths previous text := by
  induction previous, text using Engine.findPaths.induct engine with
  | case1 => rw [Engine.findPaths, Engine.scanPaths]
  | case2 previous c rest hstart ih =>
    obtain ⟨-, rfl⟩ := id hstart
    rw [Engine.findPaths, if_pos hstart, Engine.scanPaths, if_pos hstart, ih,
      scanPaths_run continues_slash rest]
  | case3 previous c rest hstart ih =>
    rw [Engine.findPaths, if_neg hstart, Engine.scanPaths, if_neg hstart, ih]

/-- A match at its place: what stands before it, the match, and what stands after it. -/
structure MatchAt (engine : Engine) (before found after : List Char) : Prop where
  opens : engine.opens before.getLast? = true
  slash : found.head? = some '/'
  inside : ∀ c ∈ found, engine.continues c = true
  stops : ∀ c ∈ after.head?, engine.continues c = false

variable {found : List Char}

/-- The longest run of characters of a path. -/
theorem takeWhile_continues {after : List Char} (hinside : ∀ c ∈ found, engine.continues c = true)
    (hstops : ∀ c ∈ after.head?, engine.continues c = false) :
    (found ++ after).takeWhile engine.continues = found := by
  rw [takeWhile_append_of_pos hinside]
  cases after with
  | nil => simp
  | cons c after => simp [hstops c rfl]

/-- The match that starts at a place is the only one that does. -/
theorem matchAt_iff {before after : List Char} {rest : List Char}
    (htext : c :: rest = found ++ after) : MatchAt engine before found after ↔
      (engine.opens before.getLast? = true ∧ c = '/') ∧
        found = c :: rest.takeWhile engine.continues := by
  constructor
  · intro h
    have hc : c = '/' := by
      cases found with
      | nil => cases h.slash
      | cons d found =>
        have hd : d = '/' := by simpa using h.slash
        rw [← hd]
        exact (List.cons.inj htext).1
    refine ⟨⟨h.opens, hc⟩, ?_⟩
    have hrun := takeWhile_continues h.inside h.stops
    rw [← htext, takeWhile_cons_of_pos (by rw [hc]; exact continues_slash)] at hrun
    exact hrun.symm
  · rintro ⟨⟨hopens, hc⟩, hfound⟩
    have hafter : after = rest.dropWhile engine.continues := by
      have hsplit := takeWhile_append_dropWhile (p := engine.continues) (l := rest)
      rw [hfound, cons_append] at htext
      have htail := (List.cons.inj htext).2
      exact (append_cancel_left (hsplit.trans htail)).symm
    refine ⟨hopens, by simp [hfound, hc], ?_, ?_⟩
    · intro d hd
      rw [hfound] at hd
      rcases mem_cons.mp hd with rfl | hd
      · rw [hc]
        exact continues_slash
      · exact mem_takeWhile_imp hd
    · intro d hd
      have hstop := List.head?_dropWhile_not engine.continues rest
      rw [← hafter, Option.mem_def.mp hd] at hstop
      exact hstop

theorem mem_scanPaths (pre text found : List Char) : found ∈ engine.scanPaths pre.getLast? text ↔
      ∃ before after, text = before ++ (found ++ after) ∧
        MatchAt engine (pre ++ before) found after := by
  induction text generalizing pre with
  | nil =>
    refine iff_of_false (by simp [Engine.scanPaths]) ?_
    rintro ⟨before, after, htext, h⟩
    have hfound : found = [] := by
      simp only [nil_eq, append_eq_nil_iff] at htext
      exact htext.2.1
    have hslash := h.slash
    simp [hfound] at hslash
  | cons c rest ih =>
    have hhere : found ∈ engine.scanPaths pre.getLast? (c :: rest) ↔
        ((engine.opens pre.getLast? = true ∧ c = '/') ∧
            found = c :: rest.takeWhile engine.continues) ∨
          found ∈ engine.scanPaths (some c) rest := by
      rw [Engine.scanPaths]
      split
      · rename_i hstart
        simp [hstart]
      · rename_i hstart
        simp [hstart]
    have hlater := ih (pre ++ [c])
    rw [List.getLast?_concat] at hlater
    rw [hhere, hlater]
    constructor
    · rintro (hstart | ⟨before, after, rfl, h⟩)
      · have htext : c :: rest = found ++ rest.dropWhile engine.continues := by
          rw [hstart.2, cons_append, takeWhile_append_dropWhile]
        refine ⟨[], rest.dropWhile engine.continues, htext, ?_⟩
        rw [append_nil]
        exact (matchAt_iff htext).mpr hstart
      · exact ⟨c :: before, after, rfl, by simpa using h⟩
    · rintro ⟨before, after, htext, h⟩
      cases before with
      | nil =>
        rw [append_nil] at h
        have htext : c :: rest = found ++ after := htext
        exact Or.inl ((matchAt_iff htext).mp h)
      | cons d before =>
        obtain ⟨rfl, rfl⟩ := List.cons.inj htext
        exact Or.inr ⟨before, after, rfl, by simpa using h⟩

/-- A path that is written at a place, with the punctuation that follows it. -/
structure WrittenAt (engine : Engine) (before path punctuation after : List Char) : Prop where
  opens : engine.opens before.getLast? = true
  slash : path.head? = some '/'
  inside : ∀ c ∈ path, engine.continues c = true
  ends : ∀ c ∈ path.getLast?, c ∉ trailing
  nul : '\x00' ∉ path
  punctuation : ∀ c ∈ punctuation, c ∈ trailing
  stops : ∀ c ∈ after.head?, engine.continues c = false

def Written (engine : Engine) (text path : List Char) : Prop :=
  ∃ before punctuation after, text = before ++ (path ++ punctuation ++ after) ∧
    WrittenAt engine before path punctuation after

theorem continues_of_trailing (h : c ∈ trailing) : engine.continues c = true := by
  have hall : ∀ c ∈ trailing, c ∉ delimiters ∧ 0x21 ≤ c.toNat ∧ c.toNat ≤ 0x7e := by decide
  obtain ⟨hdelimiter, hlow, hhigh⟩ := hall c h
  exact continues_eq_true.mpr ⟨engine.visible c hlow hhigh, hdelimiter⟩

theorem withoutTrailing_append (path : List Char) {punctuation : List Char}
    (h : ∀ c ∈ punctuation, c ∈ trailing) :
    withoutTrailing (path ++ punctuation) = withoutTrailing path := by
  induction punctuation using List.reverseRecOn with
  | nil => rw [append_nil]
  | append_singleton punctuation c ih =>
    have hc : trailing.contains c = true := by simpa using h c (by simp)
    rw [withoutTrailing, ← append_assoc, rdropWhile_concat_pos _ _ _ hc]
    exact ih fun d hd => h d (mem_append_left _ hd)

variable {path : List Char}

/-- A match is a path with punctuation after it, in one way only. -/
theorem withoutTrailing_eq_iff : withoutTrailing found = path ↔
      ∃ punctuation, found = path ++ punctuation ∧ (∀ c ∈ punctuation, c ∈ trailing) ∧
        ∀ c ∈ path.getLast?, c ∉ trailing := by
  constructor
  · rintro rfl
    refine ⟨found.rtakeWhile trailing.contains, ?_, ?_, ?_⟩
    · exact (rdropWhile_append_rtakeWhile ..).symm
    · intro c hc
      simpa using mem_rtakeWhile_imp hc
    · intro c hc
      obtain ⟨hne, rfl⟩ := mem_getLast?_eq_getLast hc
      have hlast := rdropWhile_last_not trailing.contains found hne
      simpa [withoutTrailing] using hlast
  · rintro ⟨punctuation, rfl, hall, hends⟩
    rw [withoutTrailing_append path hall]
    apply rdropWhile_eq_self_iff.mpr
    intro hne
    have hlast := hends (path.getLast hne) (List.getLast?_eq_getLast_of_ne_nil hne)
    simpa using hlast

variable {text : List Char}

/-- The tokens of a text are the paths that are written in it. -/
theorem mem_tokensOf : path ∈ tokensOf engine text ↔ Written engine text path := by
  have hkept : path ∈ tokensOf engine text ↔
      (∃ found ∈ engine.findPaths none text, withoutTrailing found = path) ∧
        path ≠ [] ∧ '\x00' ∉ path := by
    simp [tokensOf]
  rw [hkept]
  constructor
  · rintro ⟨⟨found, hfound, hpath⟩, hne, hnul⟩
    rw [findPaths_eq_scanPaths] at hfound
    obtain ⟨before, after, htext, h⟩ := (mem_scanPaths [] text found).mp hfound
    obtain ⟨punctuation, rfl, hall, hends⟩ := withoutTrailing_eq_iff.mp hpath
    refine ⟨before, punctuation, after, htext, ?_⟩
    exact {
      opens := h.opens
      slash := by
        have hslash := h.slash
        rwa [List.head?_append_of_ne_nil _ hne] at hslash
      inside := fun c hc => h.inside c (mem_append_left _ hc)
      ends := hends
      nul := hnul
      punctuation := hall
      stops := h.stops }
  · rintro ⟨before, punctuation, after, htext, h⟩
    have hne : path ≠ [] := by
      rintro rfl
      cases h.slash
    refine ⟨⟨path ++ punctuation, ?_, ?_⟩, hne, h.nul⟩
    · rw [findPaths_eq_scanPaths]
      refine (mem_scanPaths [] text _).mpr ⟨before, after, htext, ?_⟩
      exact {
        opens := h.opens
        slash := by rw [List.head?_append_of_ne_nil _ hne]; exact h.slash
        inside := by
          intro c hc
          rcases mem_append.mp hc with hc | hc
          · exact h.inside c hc
          · exact continues_of_trailing (h.punctuation c hc)
        stops := h.stops }
    · exact withoutTrailing_eq_iff.mpr ⟨punctuation, rfl, h.punctuation, h.ends⟩

theorem mem_serverTokens :
    path ∈ Server.extractPathTokens (some text) ↔ Written python text path := by
  rw [Server.extractPathTokens, mem_toFinset, mem_tokensOf]

theorem mem_firstSeen (tokens seen : List (List Char)) (path : List Char) :
    path ∈ tokens.foldl (fun out token => if token ∈ out then out else out ++ [token]) seen ↔
      path ∈ seen ∨ path ∈ tokens := by
  induction tokens generalizing seen with
  | nil => simp
  | cons token tokens ih =>
    rw [foldl_cons, ih, mem_cons]
    by_cases hseen : token ∈ seen
    · have hpath : path = token → path ∈ seen := fun h => h ▸ hseen
      rw [if_pos hseen]
      tauto
    · rw [if_neg hseen, mem_append, mem_singleton]
      tauto

theorem mem_clientTokens : path ∈ Client.extractPathTokens text ↔ Written ecmaScript text path := by
  rw [Client.extractPathTokens, mem_firstSeen, mem_tokensOf]
  simp

/-! ## Where the two engines differ -/

/-- A path that the first engine delimits by white space of its own, just before or just after. -/
def OwnEdge (engine other : Engine) (text path : List Char) : Prop :=
  ∃ before punctuation after, text = before ++ (path ++ punctuation ++ after) ∧
    WrittenAt engine before path punctuation after ∧
    ∃ c, (c ∈ before.getLast? ∨ c ∈ after.head?) ∧ engine.isSpace c = true ∧
      other.isSpace c = false

/-- What one engine reads, the other reads as well: no path holds white space of the other, and
one that stands at white space of the first engine alone is written for the other elsewhere. -/
structure ReadAlike (engine other : Engine) (text : List Char) : Prop where
  whole : ∀ path, Written engine text path → ∀ c ∈ path, other.isSpace c = false
  edges : ∀ path, OwnEdge engine other text path → Written other text path

theorem readAlike_iff {other : Engine} :
    ReadAlike engine other text ↔ ∀ path, Written engine text path → Written other text path := by
  constructor
  · intro h path hwritten
    obtain ⟨before, punctuation, after, htext, hpath⟩ := id hwritten
    by_cases hedge : ∃ c, (c ∈ before.getLast? ∨ c ∈ after.head?) ∧ engine.isSpace c = true ∧
        other.isSpace c = false
    · exact h.edges path ⟨before, punctuation, after, htext, hpath, hedge⟩
    · have hshared : ∀ c, (c ∈ before.getLast? ∨ c ∈ after.head?) → engine.isSpace c = true →
          other.isSpace c = true := by
        intro c hc hspace
        by_contra hno
        exact hedge ⟨c, hc, hspace, by simpa using hno⟩
      refine ⟨before, punctuation, after, htext, ?_⟩
      exact {
        opens := by
          have hopens := hpath.opens
          cases hlast : before.getLast? with
          | none => rfl
          | some c =>
            simp only [hlast, Engine.opens, Bool.or_eq_true] at hopens ⊢
            rcases hopens with hspace | hopener
            · exact Or.inl (hshared c (Or.inl hlast) hspace)
            · exact Or.inr hopener
        slash := hpath.slash
        inside := by
          intro c hc
          have hdelimiter := (continues_eq_true.mp (hpath.inside c hc)).2
          exact continues_eq_true.mpr ⟨h.whole path hwritten c hc, hdelimiter⟩
        ends := hpath.ends
        nul := hpath.nul
        punctuation := hpath.punctuation
        stops := by
          intro c hc
          have hstop := hpath.stops c hc
          simp only [Engine.continues, Bool.not_eq_false', Bool.or_eq_true] at hstop ⊢
          rcases hstop with hspace | hdelimiter
          · exact Or.inl (hshared c (Or.inr hc) hspace)
          · exact Or.inr hdelimiter }
  · intro h
    refine ⟨?_, ?_⟩
    · intro path hwritten c hc
      obtain ⟨before, punctuation, after, htext, hpath⟩ := h path hwritten
      exact (continues_eq_true.mp (hpath.inside c hc)).1
    · rintro path ⟨before, punctuation, after, htext, hpath, -⟩
      exact h path ⟨before, punctuation, after, htext, hpath⟩

/-- Server and client find the same paths in a text exactly when no path runs over a character
that is white space for one of them alone, and every path that stands at such a character is
written elsewhere for the other. -/
theorem extractPathTokens_agree_iff (text : List Char) :
    Server.extractPathTokens (some text) = (Client.extractPathTokens text).toFinset ↔
      ReadAlike python ecmaScript text ∧ ReadAlike ecmaScript python text := by
  rw [readAlike_iff, readAlike_iff, ← forall_and]
  constructor
  · intro h path
    have hpath := Finset.ext_iff.mp h path
    rw [mem_serverTokens, mem_toFinset, mem_clientTokens] at hpath
    exact ⟨hpath.mp, hpath.mpr⟩
  · intro h
    ext path
    rw [mem_serverTokens, mem_toFinset, mem_clientTokens]
    exact ⟨(h path).1, (h path).2⟩

/-- A next line ends a path for the server, and the client reads on. -/
theorem extractPathTokens_disagree : ¬ ∀ text : List Char,
      Server.extractPathTokens (some text) = (Client.extractPathTokens text).toFinset := by
  intro h
  have hserver : "/a".toList ∈ Server.extractPathTokens (some "/a\u0085b".toList) := by
    rw [Server.extractPathTokens, mem_toFinset, tokensOf, findPaths_eq_scanPaths]
    decide
  have hclient : "/a".toList ∉ Client.extractPathTokens "/a\u0085b".toList := by
    rw [Client.extractPathTokens, tokensOf, findPaths_eq_scanPaths]
    decide
  rw [h, mem_toFinset] at hserver
  exact hclient hserver

end Newbro.PathTokens
