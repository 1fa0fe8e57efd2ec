import UhyokOS.Lib.TextScreen
import Mathlib.Data.List.GetD

/-!
# Text laid out in rows

A text is laid out by breaking it at every end of line and right after every row that is full. A
screen to which it is typed shows the last rows of that.

* `Holds.put`, `Holds.newline`: what a character and the end of a row do to the layout and to the
  screen.
* `Holds.typeAll`, `holds_layout`: the screen after a text, by induction on the text.
-/

/-- The rows of a text, the first of which has been begun with `row`. -/
def layoutFrom {α : Type*} [DecidableEq α] (width : ℕ) (eol : α) (row : List α) :
    List α → List (List α)
  | [] => [row]
  | a :: text =>
      if a = eol then row :: layoutFrom width eol [] text
      else if row.length + 1 = width then (row ++ [a]) :: layoutFrom width eol [] text
      else layoutFrom width eol (row ++ [a]) text

/-- The rows of a text. -/
def layout {α : Type*} [DecidableEq α] (width : ℕ) (eol : α) (text : List α) : List (List α) :=
  layoutFrom width eol [] text

/-- The last `n` rows. -/
def lastRows {α : Type*} (n : ℕ) (laid : List (List α)) : List (List α) :=
  laid.drop (laid.length - n)

/-- A layout has a last row. -/
theorem exists_last_layoutFrom {α : Type*} [DecidableEq α] (width : ℕ) (eol : α)
    (row text : List α) : ∃ done line, layoutFrom width eol row text = done ++ [line] := by
  induction text generalizing row with
  | nil => exact ⟨[], row, rfl⟩
  | cons a text ih =>
      unfold layoutFrom
      split_ifs
      · obtain ⟨done, line, heq⟩ := ih []
        exact ⟨row :: done, line, by rw [heq, List.cons_append]⟩
      · obtain ⟨done, line, heq⟩ := ih []
        exact ⟨(row ++ [a]) :: done, line, by rw [heq, List.cons_append]⟩
      · exact ih (row ++ [a])

theorem length_lastRows {α : Type*} (n : ℕ) (laid : List (List α)) :
    (lastRows n laid).length = min laid.length n := by
  unfold lastRows
  rw [List.length_drop]
  omega

/-- The last row is one of the last rows. -/
theorem getLastD_lastRows {α : Type*} {n : ℕ} (hn : 0 < n) (done : List (List α)) (line : List α) :
    (lastRows n (done ++ [line])).getLastD [] = line := by
  unfold lastRows
  rw [List.length_append, List.length_singleton, List.drop_append_of_le_length (by omega),
    List.getLastD_concat]

namespace TextScreen

variable {α : Type*} {rows width : ℕ} {s : TextScreen α rows width} {laid done : List (List α)}
  {row : List α} {eol a : α}

/-- The screen shows the last of the rows and is written to at their end. -/
structure Holds (s : TextScreen α rows width) (laid : List (List α)) : Prop where
  lines : ∀ r : Fin rows, s.lines r = laid.getD (r + (laid.length - rows)) []
  row : s.row.val + 1 = min laid.length rows

theorem holds_blank (h : 0 < rows) : (blank ⟨0, h⟩ : TextScreen α rows width).Holds [[]] := by
  refine ⟨fun r => ?_, ?_⟩
  · show [] = _
    cases r.val + ([[]].length - rows) <;> rfl
  · show 0 + 1 = min 1 rows
    omega

/-- The row that is written to is the last one. -/
theorem Holds.line (h : s.Holds (done ++ [row])) : s.lines s.row = row := by
  have hrow := h.row
  rw [List.length_append, List.length_singleton] at hrow
  rw [h.lines, List.length_append, List.length_singleton]
  have hindex : s.row.val + (done.length + 1 - rows) = done.length := by omega
  rw [hindex, List.getD_append_right _ _ _ _ (Nat.le_refl _), Nat.sub_self]
  rfl

theorem Holds.column (h : s.Holds (done ++ [row])) : s.column = row.length := by
  unfold TextScreen.column
  rw [h.line]

/-- **A character that fits** goes to the end of the last row. -/
theorem Holds.put (h : s.Holds (done ++ [row])) (hroom : row.length < width) (a : α) :
    (s.put a).Holds (done ++ [row ++ [a]]) := by
  have hrow := h.row
  have hlt : s.column < width := by rwa [h.column]
  have hlength : (done ++ [row ++ [a]]).length = (done ++ [row]).length := by
    rw [List.length_append, List.length_append]
    rfl
  refine ⟨fun r => ?_, by rw [row_put, hlength, hrow]⟩
  rw [hlength]
  unfold TextScreen.put
  rw [dif_pos hlt]
  simp only
  rw [List.length_append, List.length_singleton] at hrow ⊢
  by_cases hr : r = s.row
  · have hindex : s.row.val + (done.length + 1 - rows) = done.length := by omega
    rw [hr, Function.update_self, h.line, hindex, List.getD_append_right _ _ _ _ (Nat.le_refl _),
      Nat.sub_self]
    rfl
  · rw [Function.update_of_ne hr, h.lines, List.length_append, List.length_singleton]
    have hne : r.val ≠ s.row.val := fun heq => hr (Fin.ext heq)
    rcases Nat.lt_or_ge (r.val + (done.length + 1 - rows)) done.length with hd | hd
    · rw [List.getD_append _ _ _ _ hd, List.getD_append _ _ _ _ hd]
    · -- below the last row there is nothing
      have hlong : ∀ x : List α, (done ++ [x]).length ≤ r.val + (done.length + 1 - rows) := by
        intro x
        rw [List.length_append, List.length_singleton]
        omega
      rw [List.getD_eq_default _ _ (hlong _), List.getD_eq_default _ _ (hlong _)]

/-- **A new line** adds an empty row. -/
theorem Holds.newline (h : s.Holds laid) (hsome : laid ≠ []) : s.newline.Holds (laid ++ [[]]) := by
  have hrow := h.row
  have hpos : 0 < laid.length := List.length_pos_iff.mpr hsome
  have hsame : ∀ i, (laid ++ [[]]).getD i [] = laid.getD i [] := by
    intro i
    rcases Nat.lt_or_ge i laid.length with hi | hi
    · rw [List.getD_append _ _ _ _ hi]
    · rw [List.getD_append_right _ _ _ _ hi, List.getD_eq_default _ _ hi]
      cases i - laid.length <;> rfl
  by_cases hlt : s.row.val + 1 < rows
  · refine ⟨fun r => ?_, ?_⟩
    · have hlines : s.newline.lines r = s.lines r := by
        unfold TextScreen.newline
        rw [dif_pos hlt]
      rw [hlines, h.lines, hsame, List.length_append, List.length_singleton]
      have h₁ : laid.length - rows = 0 := by omega
      have h₂ : laid.length + 1 - rows = 0 := by omega
      rw [h₁, h₂]
    · rw [row_newline_of_lt hlt, List.length_append, List.length_singleton]
      simp only
      omega
  · refine ⟨fun r => ?_, ?_⟩
    · have hlines : s.newline.lines r =
          if hr : r.val + 1 < rows then s.lines ⟨r.val + 1, hr⟩ else [] := by
        unfold TextScreen.newline
        rw [dif_neg hlt]
      have hr := r.isLt
      rw [hlines, hsame, List.length_append, List.length_singleton]
      split_ifs with hup
      · rw [h.lines]
        congr 1
        simp only
        omega
      · rw [List.getD_eq_default]
        omega
    · rw [row_newline_of_last hlt, List.length_append, List.length_singleton]
      omega

variable [DecidableEq α]

/-- Write a character; a row that it fills is ended at once. -/
def type (s : TextScreen α rows width) (eol a : α) : TextScreen α rows width :=
  if a = eol then s.newline else if s.column + 1 = width then (s.put a).newline else s.put a

/-- There is room in the row that is written to after a character. -/
theorem column_type (h : s.column < width) (eol a : α) : (s.type eol a).column < width := by
  unfold type
  split_ifs with hend hfull
  · rw [column_newline]
    omega
  · rw [column_newline]
    omega
  · rw [column_put h]
    omega

/-- Write a text. -/
def typeAll (s : TextScreen α rows width) (eol : α) (text : List α) : TextScreen α rows width :=
  text.foldl (fun s a => s.type eol a) s

theorem typeAll_append (s : TextScreen α rows width) (eol : α) (text text' : List α) :
    s.typeAll eol (text ++ text') = (s.typeAll eol text).typeAll eol text' := List.foldl_append

theorem column_typeAll (h : s.column < width) (eol : α) (text : List α) :
    (s.typeAll eol text).column < width := by
  unfold typeAll
  induction text generalizing s with
  | nil => exact h
  | cons a text ih => exact ih (column_type h eol a)

/-- **A text**, by induction on it. -/
theorem Holds.typeAll (h : s.Holds (done ++ [row])) (hroom : row.length < width) (eol : α)
    (text : List α) : (s.typeAll eol text).Holds (done ++ layoutFrom width eol row text) := by
  have hwidth : 0 < width := Nat.lt_of_le_of_lt (Nat.zero_le _) hroom
  unfold TextScreen.typeAll
  induction text generalizing s done row with
  | nil => exact h
  | cons a text ih =>
      rw [List.foldl_cons]
      unfold layoutFrom type
      have hnext : ∀ {s' : TextScreen α rows width} {row' : List α}, s'.Holds (done ++ [row']) →
          (text.foldl (fun s a => s.type eol a) s'.newline).Holds
            (done ++ row' :: layoutFrom width eol [] text) := by
        intro s' row' h'
        have hnew := ih (h'.newline (by simp)) hwidth
        rwa [List.append_assoc, List.singleton_append] at hnew
      rw [h.column]
      split_ifs with hend hfull
      · exact hnext h
      · exact hnext (h.put hroom a)
      · refine ih (h.put hroom a) ?_
        rw [List.length_append, List.length_singleton]
        omega

/-- **The screen shows the last rows of the text.** -/
theorem holds_layout (hrows : 0 < rows) (hwidth : 0 < width) (eol : α) (text : List α) :
    ((blank ⟨0, hrows⟩ : TextScreen α rows width).typeAll eol text).Holds
      (layout width eol text) := by
  have hblank : (blank ⟨0, hrows⟩ : TextScreen α rows width).Holds ([] ++ [[]]) :=
    holds_blank hrows
  exact hblank.typeAll hwidth eol text

/-- A newline after a full row leaves an empty row. -/
example : layout 3 0 [1, 2, 3, 0, 4] = [[1, 2, 3], [], [4]] := by decide

omit [DecidableEq α] in
/-- The cells of the last rows. -/
theorem Holds.cell (h : s.Holds laid) (r : Fin rows) (c : ℕ) :
    s.cell r c = ((lastRows rows laid).getD r [])[c]? := by
  unfold TextScreen.cell lastRows
  rw [h.lines, List.getD_eq_getElem?_getD, List.getD_eq_getElem?_getD, List.getElem?_drop,
    Nat.add_comm]

end TextScreen
