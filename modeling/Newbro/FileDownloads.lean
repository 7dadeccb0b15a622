import Newbro.FileTransfers
import Newbro.PathTokens

/-!
# The download of a workspace file

`download_workspace_file` after the turn has been found: the path is to be written in the turn,
the first item of the file decides on the status, and the answer carries the name of the file in
its `Content-Disposition`. A header value can be sent if it is Latin-1 without control characters,
and a client reads the name back from a quoted string, in which a backslash quotes what follows.
-/
namespace Newbro.FileDownloads

open FileTransfers (FileErrorCode ReadError)
open PathTokens List

/-! ## The route -/

def basename (path : List Char) : List Char := path.rtakeWhile (· ≠ '/')

def removed : List Char := ['"', '\n', '\r']

def safeFilename (path : List Char) : List Char :=
  (if basename path = [] then "download".toList else basename path).filter
    fun c => !removed.contains c

def contentDisposition (path : List Char) : List Char :=
  "attachment; filename=\"".toList ++ safeFilename path ++ ['"']

/-- `_CODE_TO_STATUS` -/
def statusOf : FileErrorCode → Nat
  | .denied => 403
  | .notFound => 404
  | .tooLarge => 413
  | .readError => 502

/-- What asking for the first item of the file comes to. -/
inductive FirstItem where
  | block (bytes : List UInt8)
  | stopped
  | raised (error : ReadError)

inductive Response where
  | httpError (status : Nat)
  /-- An exception that the route does not handle. -/
  | fails
  | file (first : List UInt8) (contentDisposition : List Char)
  deriving DecidableEq

def downloadWorkspaceFile (assistantText : Option (List Char)) (path : List Char)
    (nodeId : Option String) (first : FirstItem) : Response :=
  if path ∉ Server.extractPathTokens assistantText then .httpError 403
  else
    match nodeId with
    | none => .httpError 504
    | some _ =>
      match first with
      | .raised (.denied code _) => .httpError (statusOf code)
      | .raised (.unavailable _ _) => .httpError 504
      | .raised _ => .fails
      | .stopped => .file [] (contentDisposition path)
      | .block bytes => .file bytes (contentDisposition path)

/-! ## The header -/

/-- `Cc` -/
def isControl (c : Char) : Bool :=
  let n := c.toNat
  n < 0x20 || (0x7f ≤ n && n ≤ 0x9f)

/-- Latin-1 without control characters. -/
def isHeaderChar (c : Char) : Bool := c.toNat ≤ 0xff && !isControl c

/-- The value can be sent as that of a header. -/
def Encodable (value : List Char) : Prop := ∀ c ∈ value, isHeaderChar c = true

/-- The rest of a quoted string, and what comes after it. -/
@[grind =] def readQuoted : List Char → Option (List Char × List Char)
  | [] => none
  | c :: rest =>
    if c = '"' then some ([], rest)
    else if c = '\\' then
      match rest with
      | [] => none
      | quoted :: rest => (readQuoted rest).map fun read => (quoted :: read.1, read.2)
    else (readQuoted rest).map fun read => (c :: read.1, read.2)

/-- The `filename` parameter of a `Content-Disposition`, as a quoted string. -/
def parseFilename (value : List Char) : Option (List Char) :=
  let parameter := ((value.dropWhile (· ≠ ';')).drop 1).dropWhile (· = ' ')
  if parameter.takeWhile (· ≠ '=') = "filename".toList then
    match (parameter.dropWhile (· ≠ '=')).drop 1 with
    | '"' :: quoted =>
      match readQuoted quoted with
      | some (name, []) => some name
      | _ => none
    | _ => none
  else none

/-- The path can be downloaded under its name: the header can be sent, and the name is read back
from it. -/
def Downloadable (path : List Char) : Prop :=
  Encodable (contentDisposition path) ∧
    parseFilename (contentDisposition path) = some (basename path)

/-! ## Reading a name back -/

theorem readQuoted_end (rest : List Char) : readQuoted ('"' :: rest) = some ([], rest) := by
  cases rest <;> simp [readQuoted]

theorem readQuoted_backslash (c : Char) (rest : List Char) :
    readQuoted ('\\' :: c :: rest) = (readQuoted rest).map fun read => (c :: read.1, read.2) := by
  simp [readQuoted]

variable {c : Char}

theorem readQuoted_plain (hquote : c ≠ '"') (hbackslash : c ≠ '\\') (rest : List Char) :
    readQuoted (c :: rest) = (readQuoted rest).map fun read => (c :: read.1, read.2) := by
  cases rest <;> simp [readQuoted, hquote, hbackslash]

/-- What is read is shorter than the text. -/
theorem length_readQuoted {text : List Char} {read : List Char × List Char}
    (h : readQuoted text = some read) : read.1.length + 1 ≤ text.length := by
  induction text using readQuoted.induct generalizing read with
  | case1 => cases h
  | case2 rest =>
    rw [readQuoted_end] at h
    cases h
    simp
  | case3 => cases h
  | case4 _ c rest ih =>
    rw [readQuoted_backslash] at h
    obtain ⟨inner, hinner, rfl⟩ := Option.map_eq_some_iff.mp h
    have hle := ih hinner
    simp only [length_cons]
    omega
  | case5 c rest hquote hbackslash ih =>
    rw [readQuoted_plain hquote hbackslash] at h
    obtain ⟨inner, hinner, rfl⟩ := Option.map_eq_some_iff.mp h
    have hle := ih hinner
    simp only [length_cons]
    omega

/-- Characters that are neither a quote nor a backslash are read as they are. -/
theorem readQuoted_append {plain : List Char} (h : ∀ c ∈ plain, c ≠ '"' ∧ c ≠ '\\')
    (text : List Char) :
    readQuoted (plain ++ text) = (readQuoted text).map fun read => (plain ++ read.1, read.2) := by
  induction plain with
  | nil => simp
  | cons c plain ih =>
    obtain ⟨hquote, hbackslash⟩ := h c (by simp)
    rw [cons_append, readQuoted_plain hquote hbackslash,
      ih fun d hd => h d (mem_cons_of_mem c hd), Option.map_map]
    rfl

/-- A name without quotes is read back as it is exactly if it has no backslash. -/
theorem readQuoted_name_iff {name : List Char} (hquote : '"' ∉ name) :
    readQuoted (name ++ ['"']) = some (name, []) ↔ '\\' ∉ name := by
  constructor
  · intro hread hbackslash
    obtain ⟨plain, rest, rfl, hfirst⟩ := eq_append_cons_of_mem hbackslash
    have hplain : ∀ c ∈ plain, c ≠ '"' ∧ c ≠ '\\' := by
      intro c hc
      exact ⟨fun h => hquote (h ▸ mem_append_left _ hc), fun h => hfirst (h ▸ hc)⟩
    rw [append_assoc, readQuoted_append hplain] at hread
    obtain ⟨read, hrest, heq⟩ := Option.map_eq_some_iff.mp hread
    have hlength : plain.length + read.1.length = plain.length + rest.length + 1 := by
      have h := congrArg (fun pair => pair.1.length) heq
      simp only [length_append, length_cons] at h
      omega
    cases rest with
    | nil =>
      rw [cons_append, nil_append, readQuoted_backslash] at hrest
      simp [readQuoted] at hrest
    | cons c rest =>
      rw [cons_append, cons_append, readQuoted_backslash] at hrest
      obtain ⟨inner, hinner, rfl⟩ := Option.map_eq_some_iff.mp hrest
      have hle := length_readQuoted hinner
      simp only [length_append, length_cons, length_nil] at hlength hle
      omega
  · intro hbackslash
    have hplain : ∀ c ∈ name, c ≠ '"' ∧ c ≠ '\\' := by
      intro c hc
      exact ⟨fun h => hquote (h ▸ hc), fun h => hbackslash (h ▸ hc)⟩
    rw [readQuoted_append hplain, readQuoted_end]
    simp

/-! ## The paths of a text -/

/-- What a path in a text is made of is neither removed from its name nor ends a quoted string. -/
theorem not_removed_of_continues (h : python.continues c = true) : c ∉ removed := by
  obtain ⟨hspace, hdelimiter⟩ := continues_eq_true.mp h
  intro hc
  simp only [removed, mem_cons, not_mem_nil, or_false] at hc
  rcases hc with rfl | rfl | rfl
  · exact hdelimiter (by decide)
  · exact absurd hspace (by decide)
  · exact absurd hspace (by decide)

variable {path : List Char}

theorem mem_of_mem_basename (h : c ∈ basename path) : c ∈ path :=
  (rtakeWhile_suffix _ _).mem h

/-- The name of a path of which nothing is removed. -/
theorem safeFilename_eq (h : ∀ c ∈ path, c ∉ removed) :
    safeFilename path = if basename path = [] then "download".toList else basename path := by
  rw [safeFilename, filter_eq_self]
  intro c hc
  split at hc
  · have hall : ∀ d ∈ "download".toList, (!removed.contains d) = true := by decide
    exact hall c hc
  · have hmem := h c (mem_of_mem_basename hc)
    simpa using hmem

theorem contentDisposition_eq (path : List Char) : contentDisposition path = "attachment".toList ++
      ';' :: ' ' :: ("filename".toList ++ '=' :: '"' :: (safeFilename path ++ ['"'])) := by
  have hstart : "attachment; filename=\"".toList = "attachment".toList ++
      ';' :: ' ' :: ("filename".toList ++ ['=', '"']) := by decide
  have happend : ∀ start kind name tail : List Char,
      start = kind ++ ';' :: ' ' :: (name ++ ['=', '"']) →
        start ++ tail ++ ['"'] = kind ++ ';' :: ' ' :: (name ++ '=' :: '"' :: (tail ++ ['"'])) := by
    rintro _ kind name tail rfl
    simp
  exact happend _ _ _ _ hstart

/-- The parameter of a header, up to its value. -/
theorem dropWhile_parameter {kind name : List Char} (value : List Char) (hkind : ';' ∉ kind)
    (hname : ∀ c ∈ name.head?, c ≠ ' ') (hne : name ≠ []) :
    (((kind ++ ';' :: ' ' :: (name ++ value)).dropWhile (· ≠ ';')).drop 1).dropWhile (· = ' ') =
      name ++ value := by
  have hall : ∀ c ∈ kind, decide (c ≠ ';') = true := by
    intro c hc
    simpa using fun h : c = ';' => hkind (h ▸ hc)
  rw [dropWhile_append_of_pos hall]
  cases name with
  | nil => exact absurd rfl hne
  | cons c name =>
    have hc : c ≠ ' ' := hname c rfl
    simp [hc]

/-- The name is what the header's quoted string holds. -/
theorem parseFilename_contentDisposition (path : List Char) :
    parseFilename (contentDisposition path) = match readQuoted (safeFilename path ++ ['"']) with
      | some (name, []) => some name
      | _ => none := by
  have hkind : ';' ∉ "attachment".toList := by decide
  have hfirst : "filename".toList.head? = some 'f' := by decide +kernel
  have hhead : ∀ c ∈ "filename".toList.head?, c ≠ ' ' := by
    rw [hfirst]
    rintro c ⟨⟩
    decide
  have hne : "filename".toList ≠ [] := by decide
  have hname : ∀ c ∈ "filename".toList, decide (c ≠ '=') = true :=
    all_eq_true.mp (by decide)
  unfold parseFilename
  rw [contentDisposition_eq, dropWhile_parameter _ hkind hhead hne]
  generalize "filename".toList = name at hname ⊢
  dsimp only
  rw [takeWhile_append_of_pos hname, dropWhile_append_of_pos hname]
  simp

theorem encodable_contentDisposition_iff (path : List Char) :
    Encodable (contentDisposition path) ↔ ∀ c ∈ safeFilename path, isHeaderChar c = true := by
  have hstart : ∀ c ∈ "attachment; filename=\"".toList, isHeaderChar c = true :=
    all_eq_true.mp (by decide)
  have hend : isHeaderChar '"' = true := by decide
  unfold Encodable contentDisposition
  generalize "attachment; filename=\"".toList = start at hstart ⊢
  simp only [forall_mem_append, forall_mem_singleton, hend, and_true]
  exact ⟨fun h => h.2, fun h => ⟨hstart, h⟩⟩

/-- A file is answered only for a path that is written in the turn, under that path's name. -/
theorem downloadWorkspaceFile_eq_file {text : Option (List Char)} {header : List Char}
    {nodeId : Option String} {first : FirstItem} {bytes : List UInt8}
    (h : downloadWorkspaceFile text path nodeId first = .file bytes header) :
    path ∈ Server.extractPathTokens text ∧ header = contentDisposition path := by
  unfold downloadWorkspaceFile at h
  split at h
  · cases h
  · rename_i hpath
    refine ⟨not_not.mp hpath, ?_⟩
    cases nodeId with
    | none => cases h
    | some node =>
      cases first with
      | block bytes =>
        cases h
        rfl
      | stopped =>
        cases h
        rfl
      | raised error => cases error <;> cases h

/-- A path that is written in a text can be downloaded under its name exactly if it has a name, of
printable Latin-1 characters other than the backslash. -/
theorem downloadable_iff {text path : List Char}
    (hpath : path ∈ Server.extractPathTokens (some text)) : Downloadable path ↔
      basename path ≠ [] ∧ ∀ c ∈ basename path, isHeaderChar c = true ∧ c ≠ '\\' := by
  obtain ⟨before, punctuation, after, -, hwritten⟩ := mem_serverTokens.mp hpath
  have hkept : ∀ c ∈ path, c ∉ removed :=
    fun c hc => not_removed_of_continues (hwritten.inside c hc)
  have hquote : '"' ∉ basename path :=
    fun hc => hkept '"' (mem_of_mem_basename hc) (by decide)
  rw [Downloadable, encodable_contentDisposition_iff, parseFilename_contentDisposition,
    safeFilename_eq hkept]
  by_cases hname : basename path = []
  · rw [if_pos hname, hname]
    refine iff_of_false ?_ (fun h => h.1 rfl)
    rintro ⟨-, hparse⟩
    revert hparse
    decide +kernel
  · rw [if_neg hname]
    have hread : (match readQuoted (basename path ++ ['"']) with
        | some (name, []) => some name
        | _ => none) = some (basename path) ↔ '\\' ∉ basename path := by
      rw [← readQuoted_name_iff hquote]
      constructor
      · intro h
        split at h
        · rename_i name hsome
          rw [hsome, Option.some.inj h]
        · cases h
      · intro h
        rw [h]
    rw [hread]
    constructor
    · rintro ⟨hchars, hbackslash⟩
      exact ⟨hname, fun c hc => ⟨hchars c hc, fun h => hbackslash (h ▸ hc)⟩⟩
    · rintro ⟨-, hchars⟩
      exact ⟨fun c hc => (hchars c hc).1, fun hc => (hchars '\\' hc).2 rfl⟩

theorem downloadable_iff_report :
    Downloadable "/work/report.pdf".toList ↔ basename "/work/report.pdf".toList ≠ [] ∧
      ∀ c ∈ basename "/work/report.pdf".toList, isHeaderChar c = true ∧ c ≠ '\\' := by
  have htext : "/work/report.pdf".toList ∈
      Server.extractPathTokens (some "see /work/report.pdf.".toList) := by
    rw [Server.extractPathTokens, mem_toFinset, tokensOf, findPaths_eq_scanPaths]
    decide
  exact downloadable_iff htext

/-- A name outside Latin-1 cannot be sent. -/
theorem not_downloadable :
    ¬ ∀ text path : List Char, path ∈ Server.extractPathTokens (some text) → Downloadable path := by
  intro h
  have htext : "/work/报告.pdf".toList ∈ Server.extractPathTokens (some "/work/报告.pdf".toList) := by
    rw [Server.extractPathTokens, mem_toFinset, tokensOf, findPaths_eq_scanPaths]
    decide
  have hsent := (h _ _ htext).1 '报' (by decide)
  exact absurd hsent (by decide)

end Newbro.FileDownloads
