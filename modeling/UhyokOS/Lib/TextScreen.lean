import Mathlib.Data.Fin.Basic
import Mathlib.Logic.Function.Basic

/-!
# Screens of text

A screen of `rows` lines to which text is written at its end. A line takes `width` characters, what
is written to a full line is lost, and a new line at the bottom scrolls the screen up.

* `cell_put`, `cell_newline_of_lt`, `cell_newline_of_last`: what writing does to the cells.
* `cell_newline_eq_iff`: scrolling is visible unless the screen is blank.
-/

/-- A screen and where it is written to. -/
@[ext]
structure TextScreen (α : Type*) (rows width : ℕ) where
  /-- The text of each line. -/
  lines : Fin rows → List α
  /-- The line that is written to. -/
  row : Fin rows
  /-- No line is longer than the screen is wide. -/
  fits : ∀ r, (lines r).length ≤ width
  /-- The lines below `row` are empty. -/
  below : ∀ r, row < r → lines r = []

namespace TextScreen

variable {α : Type*} {rows width : ℕ} (s : TextScreen α rows width)

/-- A screen without text. -/
def blank (row : Fin rows) : TextScreen α rows width where
  lines := fun _ => []
  row := row
  fits := fun _ => Nat.zero_le _
  below := fun _ _ => rfl

/-- The column that is written to next. -/
def column : ℕ := (s.lines s.row).length

/-- Write a character that is not the end of a line. -/
def put (a : α) : TextScreen α rows width :=
  if h : s.column < width then
    { s with
      lines := Function.update s.lines s.row (s.lines s.row ++ [a])
      fits := fun r => by
        by_cases hr : r = s.row
        · rw [hr, Function.update_self, List.length_append]
          exact h
        · rw [Function.update_of_ne hr]
          exact s.fits r
      below := fun r hr => by
        rw [Function.update_of_ne (Fin.ne_of_gt hr)]
        exact s.below r hr }
  else s

/-- Go to the next line. -/
def newline : TextScreen α rows width :=
  if h : s.row.val + 1 < rows then
    { s with
      row := ⟨s.row.val + 1, h⟩
      below := fun r hr => s.below r (Nat.lt_trans (Nat.lt_succ_self _) hr) }
  else
    { lines := fun r => if hr : r.val + 1 < rows then s.lines ⟨r.val + 1, hr⟩ else []
      row := s.row
      fits := fun r => by
        split
        · exact s.fits _
        · exact Nat.zero_le _
      below := fun r hr => absurd r.isLt (by have : s.row.val < r.val := hr; omega) }

/-- Write a character, `eol` ends the line. -/
def write [DecidableEq α] (eol a : α) : TextScreen α rows width :=
  if a = eol then s.newline else s.put a

/-- The character in a cell. -/
def cell (r : Fin rows) (c : ℕ) : Option α := (s.lines r)[c]?

/-! ## Cells -/

/-- The cell that is written to next is empty. -/
theorem cell_column : s.cell s.row s.column = none := List.getElem?_eq_none (Nat.le_refl _)

/-- Writing fills the next cell. -/
theorem cell_put {s : TextScreen α rows width} (h : s.column < width) (a : α) (r : Fin rows)
    (c : ℕ) : (s.put a).cell r c = if r = s.row ∧ c = s.column then some a else s.cell r c := by
  unfold put cell
  rw [dif_pos h]
  simp only
  by_cases hr : r = s.row
  · subst hr
    rw [Function.update_self]
    unfold column
    rcases Nat.lt_trichotomy c (s.lines s.row).length with hc | hc | hc
    · rw [List.getElem?_append_left hc, if_neg fun h => absurd h.2 (Nat.ne_of_lt hc)]
    · rw [hc, List.getElem?_concat_length, if_pos ⟨rfl, rfl⟩]
    · rw [if_neg fun h => absurd h.2 (Nat.ne_of_gt hc), List.getElem?_eq_none (by
        rw [List.length_append, List.length_singleton]
        omega), List.getElem?_eq_none (Nat.le_of_lt hc)]
  · rw [Function.update_of_ne hr, if_neg fun h => hr h.1]

/-- Writing to a full line changes nothing. -/
theorem put_of_full {s : TextScreen α rows width} (h : ¬s.column < width) (a : α) : s.put a = s :=
  dif_neg h

theorem row_put (a : α) : (s.put a).row = s.row := by
  unfold put
  split <;> rfl

theorem column_put {s : TextScreen α rows width} (h : s.column < width) (a : α) :
    (s.put a).column = s.column + 1 := by
  unfold column
  rw [row_put]
  unfold put
  rw [dif_pos h]
  simp only
  rw [Function.update_self, List.length_append, List.length_singleton]

/-- A new line above the bottom only moves the place that is written to. -/
theorem cell_newline_of_lt {s : TextScreen α rows width} (h : s.row.val + 1 < rows) (r : Fin rows)
    (c : ℕ) : s.newline.cell r c = s.cell r c := by
  unfold newline
  rw [dif_pos h]
  rfl

theorem row_newline_of_lt {s : TextScreen α rows width} (h : s.row.val + 1 < rows) :
    s.newline.row = ⟨s.row.val + 1, h⟩ := by
  unfold newline
  rw [dif_pos h]

/-- A new line at the bottom moves every line up. -/
theorem cell_newline_of_last {s : TextScreen α rows width} (h : ¬s.row.val + 1 < rows)
    (r : Fin rows) (c : ℕ) :
    s.newline.cell r c = if hr : r.val + 1 < rows then s.cell ⟨r.val + 1, hr⟩ c else none := by
  unfold newline cell
  rw [dif_neg h]
  simp only
  split
  · rfl
  · exact List.getElem?_nil

theorem row_newline_of_last {s : TextScreen α rows width} (h : ¬s.row.val + 1 < rows) :
    s.newline.row = s.row := by
  unfold newline
  rw [dif_neg h]

/-- A new line is empty. -/
theorem column_newline : s.newline.column = 0 := by
  unfold column
  by_cases h : s.row.val + 1 < rows
  · have hbelow := s.below ⟨s.row.val + 1, h⟩ (Nat.lt_succ_self _)
    rw [row_newline_of_lt h]
    unfold newline
    rw [dif_pos h]
    simp only
    rw [hbelow, List.length_nil]
  · rw [row_newline_of_last h]
    unfold newline
    rw [dif_neg h]
    simp only
    rw [dif_neg h, List.length_nil]

/-- **Scrolling is visible** unless there is no text on the screen. -/
theorem cell_newline_eq_iff {s : TextScreen α rows width} (h : ¬s.row.val + 1 < rows) :
    (∀ r c, s.newline.cell r c = s.cell r c) ↔ ∀ r c, s.cell r c = none := by
  constructor
  · intro hsame
    -- every line is the line below it, and the last one is empty
    have hup : ∀ k (r : Fin rows), r.val + k + 1 = rows → ∀ c, s.cell r c = none := by
      intro k
      induction k with
      | zero =>
          intro r hr c
          rw [← hsame, cell_newline_of_last h, dif_neg (by omega)]
      | succ k ih =>
          intro r hr c
          rw [← hsame, cell_newline_of_last h, dif_pos (by omega)]
          exact ih ⟨r.val + 1, by omega⟩ (by simp only; omega) c
    intro r c
    exact hup (rows - 1 - r.val) r (by have := r.isLt; omega) c
  · intro hblank r c
    rw [cell_newline_of_last h, hblank r c]
    split
    · exact hblank _ c
    · rfl

end TextScreen
