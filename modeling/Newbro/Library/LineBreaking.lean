import Mathlib

/-!
# Breaking words into lines

Words of any kind with a size are set in lines of a given room, with one column between two of
them. Filling each line as far as it goes takes the fewest lines.
-/
namespace Newbro.Library.LineBreaking
open List

variable {α : Type} (size : α → ℕ) (room : ℕ)

/-- The columns that the words of a line take. -/
def width (line : List α) : ℕ := (line.map size).sum + (line.length - 1)

/-- A way to set the words, in order, in lines that have room for them. -/
structure Layout (ws : List α) (lines : List (List α)) : Prop where
  flatten : lines.flatten = ws
  ne_nil : ∀ line ∈ lines, line ≠ []
  fits : ∀ line ∈ lines, width size line ≤ room

/-- Lines that are done, and the one that is being filled. -/
structure Filled (α : Type) where
  done : List (List α) := []
  line : List α := []

namespace Filled

def lines (s : Filled α) : List (List α) := if s.line = [] then s.done else s.done ++ [s.line]

/-- Put a word into the line if there is room, else start the next line with it. -/
def place (s : Filled α) (w : α) : Filled α :=
  if s.line = [] then { s with line := [w] }
  else if width size s.line + 1 + size w ≤ room then { s with line := s.line ++ [w] }
  else { done := s.done ++ [s.line], line := [w] }

end Filled

open Filled

def fill (ws : List α) : Filled α := ws.foldl (place size room) {}

/-- The number of lines that filling takes. -/
def rows (ws : List α) : ℕ := (fill size room ws).lines.length

variable {size room}

theorem width_singleton (w : α) : width size [w] = size w := by simp [width]

variable {line : List α}

theorem width_snoc (h : line ≠ []) (w : α) :
    width size (line ++ [w]) = width size line + 1 + size w := by
  have hlength : 0 < line.length := length_pos_iff.mpr h
  simp only [width, map_append, map_cons, map_nil, sum_append, sum_cons,
    sum_nil, length_append, length_cons, length_nil]
  omega

variable {w : α}

/-- A word that takes the whole room stands alone. -/
theorem eq_singleton_of_size (h : width size line ≤ room) (hw : w ∈ line)
    (hsize : room ≤ size w) : line = [w] := by
  obtain ⟨before, after, rfl⟩ := append_of_mem hw
  have hnil : before.length + after.length = 0 := by
    simp only [width, map_append, map_cons, sum_append, sum_cons, length_append, length_cons] at h
    omega
  have hb : before = [] := length_eq_zero_iff.mp (by omega)
  have ha : after = [] := length_eq_zero_iff.mp (by omega)
  rw [hb, ha]
  rfl

theorem fill_snoc (ws : List α) (w : α) :
    fill size room (ws ++ [w]) = (fill size room ws).place size room w := by
  simp [fill]

theorem line_place_ne_nil (s : Filled α) (w : α) : (s.place size room w).line ≠ [] := by
  unfold place
  split
  · simp
  · split <;> simp

variable {ws : List α}

section

variable (size room)

theorem line_fill_ne_nil (h : ws ≠ []) : (fill size room ws).line ≠ [] := by
  obtain ⟨us, w, rfl⟩ : ∃ us w, ws = us ++ [w] :=
    ⟨_, _, (dropLast_append_getLast h).symm⟩
  rw [fill_snoc]
  exact line_place_ne_nil _ w

theorem lines_fill (h : ws ≠ []) :
    (fill size room ws).lines = (fill size room ws).done ++ [(fill size room ws).line] := by
  rw [lines, if_neg (line_fill_ne_nil size room h)]

/-- One more word goes behind the others in the last line or into a new one. -/
theorem fill_snoc_cases (h : ws ≠ []) (w : α) :
    (width size (fill size room ws).line + 1 + size w ≤ room ∧
      fill size room (ws ++ [w]) =
        { done := (fill size room ws).done, line := (fill size room ws).line ++ [w] }) ∨
    (room < width size (fill size room ws).line + 1 + size w ∧
      fill size room (ws ++ [w]) = { done := (fill size room ws).lines, line := [w] }) := by
  have hline := line_fill_ne_nil size room h
  rw [fill_snoc, lines_fill size room h]
  by_cases hroom : width size (fill size room ws).line + 1 + size w ≤ room
  · left
    refine ⟨hroom, ?_⟩
    simp [place, hline, hroom]
  · right
    refine ⟨by omega, ?_⟩
    simp [place, hline, hroom]

theorem rows_eq (h : ws ≠ []) :
    rows size room ws = (fill size room ws).done.length + 1 := by
  rw [rows, lines_fill size room h]
  simp

theorem rows_snoc (h : ws ≠ []) (w : α) :
    (width size (fill size room ws).line + 1 + size w ≤ room ∧
      (fill size room (ws ++ [w])).line = (fill size room ws).line ++ [w] ∧
      rows size room (ws ++ [w]) = rows size room ws) ∨
    (room < width size (fill size room ws).line + 1 + size w ∧
      (fill size room (ws ++ [w])).line = [w] ∧
      rows size room (ws ++ [w]) = rows size room ws + 1) := by
  have hne : ws ++ [w] ≠ [] := by simp
  rw [rows_eq size room hne, rows_eq size room h]
  obtain ⟨hroom, hfill⟩ | ⟨hroom, hfill⟩ := fill_snoc_cases size room h w
  · left
    rw [hfill]
    exact ⟨hroom, rfl, rfl⟩
  · right
    rw [hfill, lines_fill size room h]
    exact ⟨hroom, rfl, by simp⟩

end

/-! ## Layouts grow word by word -/

variable {lines : List (List α)}

theorem Layout.newLine (h : Layout size room ws lines)
    (hw : size w ≤ room) : Layout size room (ws ++ [w]) (lines ++ [[w]]) where
  flatten := by rw [flatten_append, h.flatten]; rfl
  ne_nil := by
    intro line hmem
    rcases mem_append.mp hmem with hmem | hmem
    · exact h.ne_nil line hmem
    · rw [mem_singleton.mp hmem]
      simp
  fits := by
    intro line hmem
    rcases mem_append.mp hmem with hmem | hmem
    · exact h.fits line hmem
    · rw [mem_singleton.mp hmem, width_singleton]
      exact hw

theorem Layout.sameLine {init : List (List α)}
    (h : Layout size room ws (init ++ [line]))
    (hw : width size line + 1 + size w ≤ room) :
    Layout size room (ws ++ [w]) (init ++ [line ++ [w]]) where
  flatten := by
    rw [← h.flatten]
    simp
  ne_nil := by
    intro l hmem
    rcases mem_append.mp hmem with hmem | hmem
    · exact h.ne_nil l (mem_append_left _ hmem)
    · rw [mem_singleton.mp hmem]
      simp
  fits := by
    intro l hmem
    rcases mem_append.mp hmem with hmem | hmem
    · exact h.fits l (mem_append_left _ hmem)
    · rw [mem_singleton.mp hmem, width_snoc (h.ne_nil line (by simp))]
      exact hw

/-- The last word of a layout stands alone in its line or behind others. -/
theorem Layout.last_word
    (h : Layout size room (ws ++ [w]) lines) :
    (∃ init, lines = init ++ [[w]] ∧ Layout size room ws init) ∨
      ∃ init line, lines = init ++ [line ++ [w]] ∧ line ≠ [] ∧
        width size line + 1 + size w ≤ room ∧ Layout size room ws (init ++ [line]) := by
  have hlines : lines ≠ [] := by
    rintro rfl
    have hflat := h.flatten
    simp at hflat
  obtain ⟨init, last, rfl⟩ : ∃ init last, lines = init ++ [last] :=
    ⟨_, _, (dropLast_append_getLast hlines).symm⟩
  have hlast : last ≠ [] := h.ne_nil last (by simp)
  obtain ⟨line, v, rfl⟩ : ∃ line v, last = line ++ [v] :=
    ⟨_, _, (dropLast_append_getLast hlast).symm⟩
  have hflat : (init.flatten ++ line) ++ [v] = ws ++ [w] := by
    rw [← h.flatten]
    simp
  obtain ⟨hws, hv⟩ := append_inj' hflat rfl
  obtain rfl : v = w := by simpa using hv
  have hinit : ∀ l ∈ init, l ≠ [] ∧ width size l ≤ room :=
    fun l hl => ⟨h.ne_nil l (mem_append_left _ hl), h.fits l (mem_append_left _ hl)⟩
  have hfits := h.fits (line ++ [v]) (by simp)
  by_cases hline : line = []
  · left
    subst hline
    exact ⟨init, rfl, by simpa using hws, fun l hl => (hinit l hl).1, fun l hl => (hinit l hl).2⟩
  · right
    rw [width_snoc hline] at hfits
    refine ⟨init, line, rfl, hline, hfits, by simpa using hws, ?_, ?_⟩
    · intro l hl
      rcases mem_append.mp hl with hl | hl
      · exact (hinit l hl).1
      · rw [mem_singleton.mp hl]
        exact hline
    · intro l hl
      rcases mem_append.mp hl with hl | hl
      · exact (hinit l hl).2
      · rw [mem_singleton.mp hl]
        omega

theorem layout_fill (h : ∀ w ∈ ws, size w ≤ room) :
    Layout size room ws (fill size room ws).lines := by
  induction ws using List.reverseRecOn with
  | nil => exact ⟨rfl, by simp [fill, lines], by simp [fill, lines]⟩
  | append_singleton ws w ih =>
    have hw : size w ≤ room := h w (by simp)
    have ih := ih fun v hv => h v (by simp [hv])
    by_cases hws : ws = []
    · subst hws
      have hone : (fill size room ([] ++ [w])).lines = [] ++ [[w]] := by simp [fill, place, lines]
      rw [hone]
      have hempty : Layout size room ([] : List α) [] := ⟨rfl, by simp, by simp⟩
      exact hempty.newLine hw
    · rw [lines_fill size room (by simp)]
      obtain ⟨hroom, hfill⟩ | ⟨-, hfill⟩ := fill_snoc_cases size room hws w
      · rw [hfill]
        rw [lines_fill size room hws] at ih
        exact ih.sameLine hroom
      · rw [hfill]
        exact ih.newLine hw

/-- No layout takes fewer lines than filling, and one with as many has no more room left in its
last line. -/
theorem Layout.rows_le (h : Layout size room ws lines) :
    rows size room ws ≤ lines.length ∧ ∀ init line, lines = init ++ [line] →
      rows size room ws = lines.length → width size (fill size room ws).line ≤ width size line := by
  induction ws using List.reverseRecOn generalizing lines with
  | nil => exact ⟨Nat.zero_le _, fun init line _ _ => Nat.zero_le _⟩
  | append_singleton ws w ih =>
    by_cases hws : ws = []
    · subst hws
      have hone : fill size room ([] ++ [w]) = { line := [w] } := by simp [fill, place]
      have hrows : rows size room ([] ++ [w]) = 1 := by rw [rows, hone]; rfl
      have hlength : 1 ≤ lines.length := by
        rcases h.last_word with ⟨init, rfl, -⟩ | ⟨init, line, rfl, -⟩ <;> simp
      refine ⟨by omega, ?_⟩
      rintro init line rfl -
      rw [hone, width_singleton]
      rcases h.last_word with ⟨init', heq, -⟩ | ⟨init', line', heq, hne, -⟩
      · obtain ⟨-, heq⟩ := append_inj' heq rfl
        obtain rfl : line = [w] := by simpa using heq
        rw [width_singleton]
      · obtain ⟨-, heq⟩ := append_inj' heq rfl
        obtain rfl : line = line' ++ [w] := by simpa using heq
        rw [width_snoc hne]
        omega
    · have hstep := rows_snoc size room hws w
      have hline := line_fill_ne_nil size room hws
      rcases h.last_word with ⟨init, rfl, hlayout⟩ | ⟨init, line, rfl, hne, hroom, hlayout⟩
      · have hrows := (ih hlayout).1
        simp only [length_append, length_singleton]
        refine ⟨by omega, ?_⟩
        intro init' line' heq hcount
        obtain ⟨-, heq⟩ := append_inj' heq rfl
        obtain rfl : line' = [w] := by simpa using heq.symm
        obtain ⟨-, -, hsame⟩ | ⟨-, hnew, -⟩ := hstep
        · omega
        · rw [hnew]
      · obtain ⟨hrows, hlast⟩ := ih hlayout
        have hlast := hlast init line rfl
        simp only [length_append, length_singleton] at hrows hlast ⊢
        obtain ⟨hfree, hline', hsame⟩ | ⟨hfull, hnew, hmore⟩ := hstep
        · refine ⟨by omega, ?_⟩
          intro init' line' heq hcount
          obtain ⟨-, heq⟩ := append_inj' heq rfl
          obtain rfl : line' = line ++ [w] := by simpa using heq.symm
          have hle := hlast (by omega)
          rw [hline', width_snoc hline, width_snoc hne]
          omega
        · have hless : rows size room ws ≠ init.length + 1 := by
            intro heq
            have hle := hlast heq
            omega
          refine ⟨by omega, ?_⟩
          intro init' line' heq hcount
          obtain ⟨-, heq⟩ := append_inj' heq rfl
          obtain rfl : line' = line ++ [w] := by simpa using heq.symm
          rw [hnew, width_singleton, width_snoc hne]
          omega

end Newbro.Library.LineBreaking
