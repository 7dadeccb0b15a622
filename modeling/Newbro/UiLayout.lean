import Mathlib.Data.List.TakeWhile
import Newbro.Library.LineBreaking

/-!
# Text on the handheld

`wrapLines` of the Cardputer's user interface, which breaks a text into lines for the screen, and
when its lines show the words of the text.
-/
namespace Newbro.UiLayout

open Library.LineBreaking List

/-- `std::string` -/
abbrev Bytes := List UInt8

def space : UInt8 := 32

def ellipsis : Bytes := [46, 46, 46]

/-- The state of the loop: what lies behind `i`, and the lines. -/
structure Scan where
  rest : Bytes
  lines : List Bytes := []
  line : Bytes := []
  deriving Repr, DecidableEq

/-- What stands between blanks. -/
def words (text : Bytes) : List Bytes :=
  (text.splitOnP (· = space)).filter fun word => !word.isEmpty

/-- A word is cut only when it alone exceeds the width. -/
def shownWord (maxChars : ℕ) (word : Bytes) : Bytes :=
  if maxChars < word.length then word.take (maxChars - 3) ++ ellipsis else word

def shownLine (maxChars : ℕ) (group : List Bytes) : Bytes :=
  [space].intercalate (group.map (shownWord maxChars))

/-- The columns of a word, which is cut where it is wider than the line. -/
def size (maxChars : ℕ) (word : Bytes) : ℕ := min word.length maxChars

def EndsBlank (text : Bytes) : Prop := text.getLast? = some space

variable {a : Bytes}

variable {word rest : Bytes}

/-- What one round of the loop reads. -/
structure Scanned (text word rest : Bytes) : Prop where
  words_eq : words text = word :: words rest
  ne_nil : word ≠ []
  shorter : rest.length < text.length
  endsBlank : rest ≠ [] → (EndsBlank rest ↔ EndsBlank text)
  ended : rest = [] → ¬ EndsBlank text
  blank : rest ≠ [] → words rest = [] → EndsBlank rest

variable {text : Bytes}

variable {group ws shorter read left before : List Bytes} {groups after : List (List Bytes)}
   {line : Bytes} {maxLines : ℕ} {s : Scan}

section loop

variable {maxChars : ℕ}

/-- The words without cuts. -/
def plainLine (group : List Bytes) : Bytes := [space].intercalate group

/-- The texts of the lines as the loop makes them, which cuts the very first word only. -/
def texts (maxChars : ℕ) : List (List Bytes) → List Bytes
  | [] => []
  | group :: groups => shownLine maxChars group :: groups.map plainLine

theorem plainLine_singleton (word : Bytes) : plainLine [word] = word := by simp [plainLine]

theorem plainLine_snoc (h : group ≠ []) (word : Bytes) :
    plainLine (group ++ [word]) = plainLine group ++ space :: word := by
  induction group with
  | nil => exact absurd rfl h
  | cons first group ih =>
    cases group with
    | nil => simp [plainLine, intercalate_cons_cons]
    | cons second group =>
      have ih := ih (by simp)
      simp only [plainLine, cons_append, intercalate_cons_cons] at ih ⊢
      rw [ih]
      simp

theorem shownLine_eq (group : List Bytes) :
    shownLine maxChars group = plainLine (group.map (shownWord maxChars)) := rfl

theorem shownLine_snoc (h : group ≠ []) (word : Bytes) :
    shownLine maxChars (group ++ [word]) =
      shownLine maxChars group ++ space :: shownWord maxChars word := by
  rw [shownLine_eq, map_append, map_singleton, plainLine_snoc (by simpa using h)]
  rfl

theorem shownWord_of_le (h : word.length ≤ maxChars) :
    shownWord maxChars word = word := if_neg (by omega)

theorem length_shownWord (hmax : 3 < maxChars) (word : Bytes) :
    (shownWord maxChars word).length = size maxChars word := by
  unfold shownWord size
  split
  · simp [ellipsis]
    omega
  · omega

theorem length_plainLine (h : group ≠ []) :
    (plainLine group).length = width List.length group := by
  induction group using List.reverseRecOn with
  | nil => exact absurd rfl h
  | append_singleton group word ih =>
    by_cases hgroup : group = []
    · subst hgroup
      rw [nil_append, plainLine_singleton, width_singleton]
    · rw [plainLine_snoc hgroup, width_snoc hgroup, length_append, ih hgroup, length_cons]
      omega

theorem length_shownLine (hmax : 3 < maxChars) (h : group ≠ []) :
    (shownLine maxChars group).length = width (size maxChars) group := by
  have hmap : (group.map (shownWord maxChars)).map List.length = group.map (size maxChars) := by
    rw [map_map]
    exact map_congr_left fun word _ => length_shownWord hmax word
  rw [shownLine_eq, length_plainLine (by simpa using h), width, width, hmap, length_map]

/-- Without wide words nothing is cut. -/
theorem shownLine_of_narrow (h : ∀ word ∈ group, word.length ≤ maxChars) :
    shownLine maxChars group = plainLine group := by
  rw [shownLine_eq, map_congr_left fun word hword => shownWord_of_le (h word hword), map_id']

/-- A line that is not too long holds a wide word alone, or none. -/
theorem wide_or_narrow (h : width (size maxChars) group ≤ maxChars) :
    (∃ word, group = [word] ∧ maxChars < word.length) ∨ ∀ word ∈ group, word.length ≤ maxChars := by
  by_cases hwide : ∃ word ∈ group, maxChars < word.length
  · obtain ⟨word, hmem, hword⟩ := hwide
    have hsize : maxChars ≤ size maxChars word := by
      rw [size]
      omega
    exact Or.inl ⟨word, eq_singleton_of_size h hmem hsize, hword⟩
  · right
    intro word hmem
    by_contra hword
    exact hwide ⟨word, hmem, by omega⟩

theorem texts_snoc (h : groups ≠ []) (group : List Bytes) :
    texts maxChars (groups ++ [group]) = texts maxChars groups ++ [plainLine group] := by
  cases groups with
  | nil => exact absurd rfl h
  | cons first groups => simp [texts]

theorem length_texts (groups : List (List Bytes)) :
    (texts maxChars groups).length = groups.length := by
  cases groups with
  | nil => rfl
  | cons group groups => simp [texts]

/-- The state of filling lines with words that may be cut. -/
abbrev filled (maxChars : ℕ) (ws : List Bytes) : Filled Bytes := fill (size maxChars) maxChars ws

theorem size_le (word : Bytes) : size maxChars word ≤ maxChars := Nat.min_le_right _ _

theorem layout_filled (ws : List Bytes) :
    Layout (size maxChars) maxChars ws (filled maxChars ws).lines :=
  layout_fill fun word _ => size_le word

variable (maxChars) in
theorem fits_line (h : ws ≠ []) :
    width (size maxChars) (filled maxChars ws).line ≤ maxChars := by
  apply (layout_filled ws).fits
  rw [lines_fill _ _ h]
  simp

/-- The text of the last line: it is cut if it is the first line, too. -/
theorem texts_last (hws : ws ≠ [])
    (h : texts maxChars (filled maxChars ws).lines = shorter ++ [line]) :
    ((filled maxChars ws).done = [] ∧ shorter = [] ∧
      line = shownLine maxChars (filled maxChars ws).line) ∨
    ((filled maxChars ws).done ≠ [] ∧ shorter = texts maxChars (filled maxChars ws).done ∧
      line = plainLine (filled maxChars ws).line) := by
  rw [lines_fill _ _ hws] at h
  by_cases hdone : (filled maxChars ws).done = []
  · rw [hdone] at h
    have hone : shorter ++ [line] = [] ++ [shownLine maxChars (filled maxChars ws).line] := h.symm
    obtain ⟨hshorter, hline⟩ := append_inj' hone rfl
    exact Or.inl ⟨hdone, hshorter, singleton_inj.mp hline⟩
  · rw [texts_snoc hdone] at h
    obtain ⟨hshorter, hline⟩ := append_inj' h.symm rfl
    exact Or.inr ⟨hdone, hshorter, singleton_inj.mp hline⟩

/-- The loop asks for room as filling does, though it looks at the text of the line. -/
theorem room_iff (hmax : 3 < maxChars) (hws : ws ≠ [])
    (h : texts maxChars (filled maxChars ws).lines = shorter ++ [line])
    (word : Bytes) : line.length + 1 + word.length ≤ maxChars ↔
      width (size maxChars) (filled maxChars ws).line + 1 + size maxChars word ≤ maxChars := by
  have hne := line_fill_ne_nil (size maxChars) maxChars hws
  have hfits := fits_line maxChars hws
  have hshown := length_shownLine hmax hne
  have hline := (texts_last hws h).imp (fun hfirst => hfirst.2.2) fun hlater => hlater.2.2
  have hword : size maxChars word = min word.length maxChars := rfl
  rcases wide_or_narrow hfits with ⟨wide, hgroup, hwide⟩ | hnarrow
  · have hlength : maxChars ≤ line.length := by
      rcases hline with rfl | rfl
      · rw [hshown, hgroup, width_singleton, size]
        omega
      · rw [hgroup, plainLine_singleton]
        omega
    have hsize : width (size maxChars) (filled maxChars ws).line = maxChars := by
      rw [hgroup, width_singleton, size]
      omega
    omega
  · have hlength : line.length = width (size maxChars) (filled maxChars ws).line := by
      rcases hline with rfl | rfl
      · exact hshown
      · rw [← shownLine_of_narrow hnarrow]
        exact hshown
    omega

/-- A word behind the others in the last line. -/
theorem texts_sameLine (hmax : 3 < maxChars) (hws : ws ≠ [])
    (h : texts maxChars (filled maxChars ws).lines = shorter ++ [line])
    (hroom : line.length + 1 + word.length ≤ maxChars) :
    texts maxChars (filled maxChars (ws ++ [word])).lines = shorter ++ [line ++ space :: word] := by
  have hfree := (room_iff hmax hws h word).mp hroom
  have hne := line_fill_ne_nil (size maxChars) maxChars hws
  have hword : shownWord maxChars word = word := shownWord_of_le (by omega)
  obtain ⟨-, hfill⟩ | ⟨hfull, -⟩ := fill_snoc_cases (size maxChars) maxChars hws word
  · rw [lines_fill _ _ (by simp), hfill]
    rcases texts_last hws h with ⟨hdone, rfl, rfl⟩ | ⟨hdone, rfl, rfl⟩
    · show texts maxChars ((filled maxChars ws).done ++ [_]) = _
      rw [hdone]
      show [shownLine maxChars ((filled maxChars ws).line ++ [word])] = _
      rw [shownLine_snoc hne, hword]
      rfl
    · show texts maxChars ((filled maxChars ws).done ++ [_]) = _
      rw [texts_snoc hdone, plainLine_snoc hne]
  · exact absurd hfree (Nat.not_le.mpr hfull)

/-- A word in a new line. -/
theorem texts_newLine (hmax : 3 < maxChars) (hws : ws ≠ [])
    (h : texts maxChars (filled maxChars ws).lines = shorter ++ [line])
    (hroom : ¬ line.length + 1 + word.length ≤ maxChars) :
    texts maxChars (filled maxChars (ws ++ [word])).lines = (shorter ++ [line]) ++ [word] ∧
    rows (size maxChars) maxChars (ws ++ [word]) = rows (size maxChars) maxChars ws + 1 := by
  have hfree := mt (room_iff hmax hws h word).mpr hroom
  obtain ⟨hroom', -⟩ | ⟨-, hfill⟩ := fill_snoc_cases (size maxChars) maxChars hws word
  · exact absurd hroom' hfree
  · have hlines : (filled maxChars ws).lines ≠ [] := by
      rw [lines_fill _ _ hws]
      simp
    constructor
    · rw [lines_fill _ _ (by simp), hfill]
      show texts maxChars ((filled maxChars ws).lines ++ [[word]]) = _
      rw [texts_snoc hlines, h, plainLine_singleton]
    · rw [rows_eq _ _ (by simp), hfill]
      rfl

/-- What the loop has behind it when it has read some words. -/
structure Reached (maxChars maxLines : ℕ) (text : Bytes) (read left : List Bytes) (s : Scan) :
    Prop where
  words_eq : words text = read ++ left
  rest : words s.rest = left
  endsBlank : s.rest ≠ [] → (EndsBlank s.rest ↔ EndsBlank text)
  none : read = [] → s.lines = [] ∧ s.line = []
  some : read ≠ [] → s.line ≠ [] ∧ texts maxChars (filled maxChars read).lines = s.lines ++ [s.line]
  few : s.lines.length < maxLines

theorem Reached.rows_le
    (h : Reached maxChars maxLines text read left s) (hread : read ≠ []) :
    rows (size maxChars) maxChars read = s.lines.length + 1 := by
  have hlength := congrArg List.length (h.some hread).2
  rw [length_texts] at hlength
  simpa [rows] using hlength

/-- How the loop ends: all words are in its lines, or the lines are full and a word is left out. -/
def Ended (maxChars maxLines : ℕ) (text : Bytes) (s : Scan) : Prop :=
  (s.rest = [] ∧ Reached maxChars maxLines text (words text) [] s) ∨
    ∃ read word left, words text = read ++ word :: left ∧ read ≠ [] ∧
      rows (size maxChars) maxChars read = maxLines ∧
      rows (size maxChars) maxChars (read ++ [word]) = maxLines + 1 ∧
      s.lines = texts maxChars (filled maxChars read).lines ∧
      (s.rest ≠ [] ↔ left ≠ [] ∨ EndsBlank text)

/-- One round: the next word is put into the lines, or it finds no room. -/
theorem Reached.round
    (hmax : 3 < maxChars) (h : Reached maxChars maxLines text read left s)
    (hscan : Scanned s.rest word rest) :
    ∃ left', left = word :: left' ∧
      (s.line = [] → Reached maxChars maxLines text (read ++ [word]) left'
        { s with rest := rest, line := shownWord maxChars word }) ∧
      (s.line ≠ [] → s.line.length + 1 + word.length ≤ maxChars →
        Reached maxChars maxLines text (read ++ [word]) left'
          { s with rest := rest, line := s.line ++ space :: word }) ∧
      (s.line ≠ [] → ¬ s.line.length + 1 + word.length ≤ maxChars →
        (s.lines.length + 1 < maxLines → Reached maxChars maxLines text (read ++ [word]) left'
          { rest := rest, lines := s.lines ++ [s.line], line := word }) ∧
        (s.lines.length + 1 = maxLines → Ended maxChars maxLines text
          { rest := rest, lines := s.lines ++ [s.line], line := word })) := by
  have hleft : left = word :: words rest := by rw [← h.rest, hscan.words_eq]
  have hne : s.rest ≠ [] := by
    intro hnil
    have hshorter := hscan.shorter
    rw [hnil] at hshorter
    simp at hshorter
  have hwords : words text = (read ++ [word]) ++ words rest := by
    rw [h.words_eq, hleft]
    simp
  have hends : rest ≠ [] → (EndsBlank rest ↔ EndsBlank text) :=
    fun hrest => (hscan.endsBlank hrest).trans (h.endsBlank hne)
  have hread : s.line ≠ [] → read ≠ [] := fun hline hread => hline (h.none hread).2
  refine ⟨words rest, hleft, ?_, ?_, ?_⟩
  · intro hline
    have hnone : read = [] := by
      by_contra hread
      exact (h.some hread).1 hline
    subst hnone
    refine ⟨hwords, rfl, hends, by simp, fun _ => ?_, h.few⟩
    have hone : (filled maxChars ([] ++ [word])).lines = [[word]] := by
      simp [filled, fill, Filled.place, Filled.lines]
    have hpos := length_shownWord hmax word
    have hword := length_pos_iff.mpr hscan.ne_nil
    rw [size] at hpos
    constructor
    · intro hnil
      have hnil : shownWord maxChars word = [] := hnil
      rw [hnil, length_nil] at hpos
      omega
    · rw [hone, (h.none rfl).1]
      show [shownLine maxChars [word]] = [] ++ [shownWord maxChars word]
      rw [shownLine_eq, map_singleton, plainLine_singleton]
      rfl
  · intro hline hroom
    obtain ⟨-, htexts⟩ := h.some (hread hline)
    refine ⟨hwords, rfl, hends, by simp, fun _ => ⟨by simp, ?_⟩, h.few⟩
    exact texts_sameLine hmax (hread hline) htexts hroom
  · intro hline hroom
    obtain ⟨-, htexts⟩ := h.some (hread hline)
    obtain ⟨hnew, hrows⟩ := texts_newLine hmax (hread hline) htexts hroom
    have hcount := h.rows_le (hread hline)
    constructor
    · intro hfew
      exact ⟨hwords, rfl, hends, by simp, fun _ => ⟨hscan.ne_nil, hnew⟩, by simpa using hfew⟩
    · intro hfull
      refine Or.inr ⟨read, word, words rest, by rw [h.words_eq, hleft], hread hline, by omega,
        by omega, htexts.symm, ?_⟩
      show rest ≠ [] ↔ words rest ≠ [] ∨ EndsBlank text
      constructor
      · intro hrest
        by_cases hnone : words rest = []
        · exact Or.inr ((hends hrest).mp (hscan.blank hrest hnone))
        · exact Or.inl hnone
      · rintro hor rfl
        rcases hor with hsome | hblank
        · exact hsome rfl
        · exact hscan.ended rfl ((h.endsBlank hne).mpr hblank)

theorem Reached.finished
    (h : Reached maxChars maxLines text read left s) (hrest : s.rest = []) :
    Ended maxChars maxLines text s := by
  have hleft : left = [] := by rw [← h.rest, hrest]; rfl
  subst hleft
  have hread : words text = read := by rw [h.words_eq, append_nil]
  exact Or.inl ⟨hrest, hread ▸ h⟩

section result

variable {maxLines : ℕ} {text : Bytes}

end result

end loop

end Newbro.UiLayout
