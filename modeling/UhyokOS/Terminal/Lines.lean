import UhyokOS.Terminal.Prompt

/-!
# What the keys do to the line and the cursor

One lemma for each branch of `InputKey`, on the invariant all of them keep: the typed text has no
terminator in it, the entries of the history are strings, both fit a bound below `kLineMax`, and
the cursor stays in the rows of the grid.

* `print_inGrid` and `print_newline`: `Print` stays in the grid, and a text that ends with a
  newline leaves the cursor in column 0.
* `enter_spec`, `backspace_spec`, `typeChar_spec`, `historyUpDown_spec` describe the branches.
-/

namespace UhyokOS

namespace Terminal

variable {t t' : Terminal} {m : Machine}

/-! ## Printing -/

/-- The cursor is on a cell of the grid. -/
structure InGrid (t : Terminal) : Prop where
  x_nonneg : 0 ≤ t.cursor.x
  x_lt : t.cursor.x < kColumns
  y_nonneg : 0 ≤ t.cursor.y
  y_lt : t.cursor.y < kRows

/-- Only the cursor and the window differ. -/
structure SameEditor (t t' : Terminal) : Prop where
  linebufIndex : t'.linebufIndex = t.linebufIndex
  linebuf : t'.linebuf = t.linebuf
  cmdHistory : t'.cmdHistory = t.cmdHistory
  cmdHistoryIndex : t'.cmdHistoryIndex = t.cmdHistoryIndex

/-- Where nothing happens the editor stays. -/
theorem SameEditor.refl (t : Terminal) : SameEditor t t := ⟨rfl, rfl, rfl, rfl⟩

/-- Two calls of which neither touches the editor. -/
theorem SameEditor.trans {t'' : Terminal} (h : SameEditor t t') (h' : SameEditor t' t'') :
    SameEditor t t'' :=
  ⟨h'.1.trans h.1, h'.2.trans h.2, h'.3.trans h.3, h'.4.trans h.4⟩

/-- Drawing does not touch the editor. -/
theorem draw_editor (t : Terminal) (call : DrawCall) : SameEditor t (t.draw call) :=
  ⟨rfl, rfl, rfl, rfl⟩

/-- A new line does not touch the editor, also where it scrolls. -/
theorem newline_editor (t : Terminal) : SameEditor t t.newline := by
  unfold newline scroll1 draw
  simp only
  split_ifs <;> exact ⟨rfl, rfl, rfl, rfl⟩

/-- A new line starts in column 0 and stays in the rows. -/
theorem newline_cursor (h₀ : 0 ≤ t.cursor.y) (h : t.cursor.y < kRows) :
    t.newline.cursor.x = 0 ∧ 0 ≤ t.newline.cursor.y ∧ t.newline.cursor.y < kRows := by
  unfold newline scroll1 draw
  simp only [kRows] at *
  split_ifs with hlt
  · refine ⟨rfl, ?_, ?_⟩ <;> simp only <;> omega
  · exact ⟨rfl, h₀, h⟩

/-- A new line leaves the cursor in the grid: on the last row it scrolls. -/
theorem newline_inGrid (h₀ : 0 ≤ t.cursor.y) (h : t.cursor.y < kRows) : t.newline.InGrid := by
  obtain ⟨hx, hy₀, hy⟩ := newline_cursor h₀ h
  exact ⟨Int.le_of_eq hx.symm, by rw [hx]; decide, hy₀, hy⟩

/-- A printed character does not touch the editor. -/
theorem printChar_editor (t : Terminal) (c : UInt8) : SameEditor t (t.printChar c) := by
  unfold printChar
  simp only
  split_ifs
  · exact newline_editor t
  · exact (draw_editor t _).trans (newline_editor _)
  · exact ⟨rfl, rfl, rfl, rfl⟩

/-- A printed character leaves the cursor in the grid: behind the last column it begins a new
line. -/
theorem printChar_inGrid (h : t.InGrid) (c : UInt8) : (t.printChar c).InGrid := by
  have hx := h.x_lt
  unfold printChar draw
  simp only [kColumns] at *
  split_ifs with hc hlast
  · exact newline_inGrid h.y_nonneg h.y_lt
  · exact newline_inGrid h.y_nonneg h.y_lt
  · have hx₀ := h.x_nonneg
    refine ⟨?_, ?_, h.y_nonneg, h.y_lt⟩ <;> simp only [kColumns] <;> omega

/-- Printed characters do not touch the editor. -/
theorem foldl_printChar_editor (t : Terminal) (s : List UInt8) :
    SameEditor t (s.foldl printChar t) := by
  induction s generalizing t with
  | nil => exact .refl t
  | cons c s ih => exact (printChar_editor t c).trans (ih _)

/-- Printed characters leave the cursor in the grid. -/
theorem foldl_printChar_inGrid (h : t.InGrid) (s : List UInt8) :
    (s.foldl printChar t).InGrid := by
  induction s generalizing t with
  | nil => exact h
  | cons c s ih => exact ih (printChar_inGrid h c)

/-- Printing does not touch the editor. -/
theorem print_editor (t : Terminal) (s : List UInt8) : SameEditor t (t.print s) := by
  obtain ⟨h₁, h₂, h₃, h₄⟩ := foldl_printChar_editor (t.drawCursor false) s
  exact ⟨h₁, h₂, h₃, h₄⟩

/-- **`Print` stays in the grid.** -/
theorem print_inGrid (h : t.InGrid) (s : List UInt8) : (t.print s).InGrid := by
  have h' : (t.drawCursor false).InGrid := ⟨h.1, h.2, h.3, h.4⟩
  obtain ⟨h₁, h₂, h₃, h₄⟩ := foldl_printChar_inGrid h' s
  exact ⟨h₁, h₂, h₃, h₄⟩

/-- A text that ends with a newline leaves the cursor in column 0. -/
theorem print_newline (h : t.InGrid) (s : List UInt8) :
    (t.print (s ++ text "\n")).cursor.x = 0 := by
  have h' : (t.drawCursor false).InGrid := ⟨h.1, h.2, h.3, h.4⟩
  have hs := foldl_printChar_inGrid h' s
  have hnl : text "\n" = [0x0a] := by decide
  show ((s ++ text "\n").foldl printChar (t.drawCursor false)).cursor.x = 0
  rw [hnl, List.foldl_append]
  exact (newline_cursor hs.y_nonneg hs.y_lt).1

/-! ## Commands -/

/-- The cursor is at the start of a row. -/
structure AtLineStart (t : Terminal) : Prop where
  grid : t.InGrid
  column : t.cursor.x = 0

/-- A line that is printed with its end leaves the cursor at the start of a line. -/
theorem AtLineStart.print (h : t.AtLineStart) (s : List UInt8) :
    (t.print (s ++ text "\n")).AtLineStart :=
  ⟨print_inGrid h.grid _, print_newline h.grid s⟩

/-- Printing whole lines. -/
theorem AtLineStart.foldl_print (h : t.AtLineStart) {lines : List (List UInt8)}
    (hlines : ∀ line ∈ lines, ∃ s, line = s ++ text "\n") :
    (lines.foldl Terminal.print t).AtLineStart ∧ SameEditor t (lines.foldl Terminal.print t) := by
  induction lines generalizing t with
  | nil => exact ⟨h, .refl t⟩
  | cons line lines ih =>
      obtain ⟨s, rfl⟩ := hlines line List.mem_cons_self
      obtain ⟨hstart, hsame⟩ := ih (h.print s) fun l hl => hlines l (List.mem_cons_of_mem _ hl)
      exact ⟨hstart, (print_editor t _).trans hsame⟩

/-- Printing something and then a newline. -/
private theorem print_then_newline (h : t.InGrid) :
    (t.print (text "\n")).AtLineStart := by
  have := print_newline h []
  rw [List.nil_append] at this
  exact ⟨print_inGrid h _, this⟩

/-- **Every command ends in column 0** and touches only the cursor and the window. -/
theorem runCommand_spec (h : t.AtLineStart) (m : Machine) (command : List UInt8)
    (firstArg : Option (List UInt8)) :
    (t.runCommand m command firstArg).AtLineStart ∧
      SameEditor t (t.runCommand m command firstArg) := by
  unfold runCommand
  split_ifs with hecho hclear hlspci hls hother
  · cases firstArg with
    | none => exact ⟨print_then_newline h.grid, print_editor t _⟩
    | some arg =>
        exact ⟨print_then_newline (print_inGrid h.grid arg),
          (print_editor t arg).trans (print_editor _ _)⟩
  · refine ⟨⟨⟨h.grid.x_nonneg, h.grid.x_lt, ?_, ?_⟩, h.column⟩, ⟨rfl, rfl, rfl, rfl⟩⟩
    · exact Int.le_refl 0
    · show (0 : Int) < kRows
      decide
  · refine h.foldl_print fun line hline => ?_
    obtain ⟨dev, -, rfl⟩ := List.mem_map.mp hline
    exact exists_lspciLine m dev
  · exact h.foldl_print fun line hline => exists_of_mem_lsLines hline
  · refine ⟨print_then_newline (print_inGrid (print_inGrid h.grid _) _), ?_⟩
    exact ((print_editor t _).trans (print_editor _ _)).trans (print_editor _ _)
  · exact ⟨h, .refl t⟩

/-- `ExecuteLine` is defined on a string; it may cut the line, and nothing else of the editor
changes. -/
theorem executeLine_spec (h : t.AtLineStart) {line : List UInt8}
    (hline : t.linebuf.text? = some line) (m : Machine) :
    ∃ t', t.executeLine m = some t' ∧ t'.AtLineStart ∧
      t'.linebufIndex = t.linebufIndex ∧ t'.cmdHistory = t.cmdHistory ∧
      t'.cmdHistoryIndex = t.cmdHistoryIndex := by
  unfold executeLine
  simp only [hline, Option.bind_eq_bind, Option.bind_some]
  cases hidx : line.idxOf? 0x20 with
  | none =>
      obtain ⟨hstart, hsame⟩ := runCommand_spec h m line none
      exact ⟨_, rfl, hstart, hsame.linebufIndex, hsame.cmdHistory, hsame.cmdHistoryIndex⟩
  | some i =>
      have hi : i < kLineMax := by
        have hlt : i < line.length := by
          unfold List.idxOf? at hidx
          exact (List.findIdx?_eq_some_iff_getElem.mp hidx).1
        exact lt_trans hlt (CharArray.length_lt_of_text? hline)
      simp only [CharArray.write?_eq hi, Option.bind_some]
      set t₁ : Terminal := { t with linebuf := ⟨t.linebuf.chars.set i 0, _⟩ }
      have h₁ : t₁.AtLineStart := ⟨⟨h.1.1, h.1.2, h.1.3, h.1.4⟩, h.2⟩
      obtain ⟨hstart, hsame⟩ := runCommand_spec h₁ m (line.take i) (some (line.drop (i + 1)))
      exact ⟨_, rfl, hstart, hsame.linebufIndex, hsame.cmdHistory, hsame.cmdHistoryIndex⟩

/-! ## The branches of `InputKey` -/

/-- The text typed so far. -/
def typed (t : Terminal) : List UInt8 := t.linebuf.chars.take t.linebufIndex

/-- The entry at `cmd_history_index_`, the empty line if that is negative. -/
def recalled (t : Terminal) : Option (List UInt8) :=
  if t.cmdHistoryIndex ≥ 0 then (t.cmdHistory[toSizeT t.cmdHistoryIndex]?).bind CharArray.text?
  else some []

/-- The invariant of the line editor, for lines of at most `bound` characters. -/
structure EditorInv (bound : Nat) (t : Terminal) : Prop where
  y_nonneg : 0 ≤ t.cursor.y
  y_lt : t.cursor.y < kRows
  typed_le : t.linebufIndex ≤ bound
  /-- No terminator in the typed text. -/
  typed_text : 0 ∉ t.typed
  /-- Every entry of the history is a line. -/
  entries : ∀ e ∈ t.cmdHistory, ∃ s, e.text? = some s ∧ s.length ≤ bound
  history_le : t.cmdHistory.length ≤ 8
  index_ge : -1 ≤ t.cmdHistoryIndex
  index_lt : t.cmdHistoryIndex < t.cmdHistory.length

variable {bound : Nat}

/-- The constructor prints the prompt, and the cursor stands behind it. -/
theorem init_cursor : init.cursor = ⟨1, 0⟩ :=
  print_prompt (t := ({} : Terminal).draw _) rfl

/-- The constructor leaves the line empty and the history index at `-1`. -/
theorem init_editor : SameEditor {} init :=
  (draw_editor {} _).trans (print_editor _ _)

/-- The constructor's terminal, with a history of empty lines. -/
theorem editorInv_init (bound : Nat) {history : List LineBuf}
    (hempty : ∀ e ∈ history, e = .zeros kLineMax) (hlen : history.length ≤ 8) :
    EditorInv bound { init with cmdHistory := history } := by
  refine ⟨?_, ?_, ?_, ?_, fun e he => ?_, hlen, ?_, ?_⟩
  · simp [init_cursor]
  · simp only [init_cursor]
    decide
  · simp [init_editor.linebufIndex]
  · simp [typed, init_editor.linebufIndex]
  · rw [hempty e he]
    exact ⟨[], CharArray.text?_zeros (by decide), Nat.zero_le _⟩
  · simp [init_editor.cmdHistoryIndex]
  · simp only [init_editor.cmdHistoryIndex]
    omega

/-- Moving the cursor and drawing do not concern the line editor. -/
theorem EditorInv.congr (h : EditorInv bound t) (hsame : SameEditor t t')
    (h₀ : 0 ≤ t'.cursor.y) (hy : t'.cursor.y < kRows) : EditorInv bound t' := by
  obtain ⟨hindex, hbuf, hhist, hhidx⟩ := hsame
  have htyped : t'.typed = t.typed := by rw [typed, typed, hbuf, hindex]
  refine ⟨h₀, hy, by rw [hindex]; exact h.typed_le, by rw [htyped]; exact h.typed_text,
    ?_, ?_, ?_, ?_⟩
  · rw [hhist]
    exact h.entries
  · rw [hhist]
    exact h.history_le
  · rw [hhidx]
    exact h.index_ge
  · rw [hhist, hhidx]
    exact h.index_lt

/-- Drawing the cursor keeps the conditions of the editor. -/
theorem EditorInv.drawCursor (h : EditorInv bound t) (visible : Bool) :
    EditorInv bound (t.drawCursor visible) :=
  h.congr ⟨rfl, rfl, rfl, rfl⟩ h.y_nonneg h.y_lt

/-- An index that is not negative is the same as a `size_t`. -/
theorem toSizeT_of_lt {i : Int} (h₀ : 0 ≤ i) (h : i < 2 ^ 64) : toSizeT i = i.toNat := by
  unfold toSizeT
  rw [Int.emod_eq_of_lt h₀ h]

/-- The history has as many entries as it is resized to. -/
theorem length_resizeHistory (history : List LineBuf) (n : Nat) :
    (resizeHistory history n).length = n := by
  unfold resizeHistory
  rw [List.length_append, List.length_take, List.length_replicate]
  omega

/-- An entry of a resized history is an old one or empty. -/
theorem mem_resizeHistory {history : List LineBuf} {n : Nat} {e : LineBuf}
    (h : e ∈ resizeHistory history n) : e ∈ history ∨ e = .zeros kLineMax := by
  rcases List.mem_append.mp h with h | h
  · exact Or.inl (List.mem_of_mem_take h)
  · exact Or.inr (List.eq_of_mem_replicate h)

/-- A history that has its entries stays as it is. -/
theorem resizeHistory_of_length {history : List LineBuf} {n : Nat} (h : history.length = n) :
    resizeHistory history n = history := by
  unfold resizeHistory
  rw [List.take_of_length_le h.le, h, Nat.sub_self, List.replicate_zero, List.append_nil]

/-- The history after a line was entered. -/
def entered (t : Terminal) (entry : LineBuf) : List LineBuf :=
  resizeHistory (if 0 < t.linebufIndex then entry :: t.cmdHistory.dropLast else t.cmdHistory) 8

/-- The history after a line was entered holds lines again. -/
theorem EditorInv.entered (h : EditorInv bound t) {entry : LineBuf}
    (htext : entry.text? = some t.typed) :
    ∀ e ∈ t.entered entry, ∃ s, e.text? = some s ∧ s.length ≤ bound := by
  have htyped : t.typed.length ≤ bound := by
    unfold typed
    rw [List.length_take]
    exact le_trans (Nat.min_le_left _ _) h.typed_le
  intro e he
  rcases mem_resizeHistory he with he | rfl
  · split_ifs at he
    · rcases List.mem_cons.mp he with rfl | he
      · exact ⟨_, htext, htyped⟩
      · exact h.entries e (List.dropLast_subset _ he)
    · exact h.entries e he
  · exact ⟨[], CharArray.text?_zeros (by decide), Nat.zero_le _⟩

/-- The prompt behind the output of a command. -/
def prompted (t : Terminal) : Terminal :=
  { t.print (text ">") with cmdHistory := resizeHistory (t.print (text ">")).cmdHistory 8 }

/-- Behind the prompt the editor starts over. -/
theorem prompted_spec (hstart : t.AtLineStart) (hindex : t.linebufIndex = 0)
    (hhidx : t.cmdHistoryIndex = -1)
    (hentries : ∀ e ∈ resizeHistory t.cmdHistory 8, ∃ s, e.text? = some s ∧ s.length ≤ bound) :
    EditorInv bound t.prompted ∧ t.prompted.cursor.x = 1 ∧ t.prompted.linebufIndex = 0 ∧
      t.prompted.cmdHistoryIndex = -1 ∧ t.prompted.cmdHistory = resizeHistory t.cmdHistory 8 ∧
      t.prompted.PromptShown := by
  have hsame := print_editor t (text ">")
  have hcursor : t.prompted.cursor = ⟨1, t.cursor.y⟩ := print_prompt hstart.column
  have hindex' : t.prompted.linebufIndex = 0 := hsame.linebufIndex.trans hindex
  have hhidx' : t.prompted.cmdHistoryIndex = -1 := hsame.cmdHistoryIndex.trans hhidx
  have hhist : t.prompted.cmdHistory = resizeHistory t.cmdHistory 8 := by
    show resizeHistory (t.print (text ">")).cmdHistory 8 = _
    rw [hsame.cmdHistory]
  refine ⟨⟨?_, ?_, ?_, ?_, ?_, ?_, ?_, ?_⟩, by rw [hcursor], hindex', hhidx', hhist,
    (promptShown_print hstart.column).congr rfl rfl⟩
  · rw [hcursor]
    exact hstart.grid.y_nonneg
  · rw [hcursor]
    exact hstart.grid.y_lt
  · rw [hindex']
    exact Nat.zero_le _
  · simp [typed, hindex']
  · rw [hhist]
    exact hentries
  · rw [hhist]
    exact (length_resizeHistory _ _).le
  · rw [hhidx']
  · rw [hhidx', hhist, length_resizeHistory]
    omega

/-- **Enter**, unless it has to drop an entry of an empty history: the line is pushed if it is not
empty, and the editor starts over after the prompt. -/
theorem enter_spec (h : EditorInv bound t) (hbound : bound < kLineMax)
    (hok : 0 < t.linebufIndex → t.cmdHistory ≠ []) (m : Machine) :
    ∃ (t' : Terminal) (area : Rectangle) (entry : LineBuf), t.enter m = some (t', area) ∧
      EditorInv bound t' ∧ t'.cursor.x = 1 ∧ t'.linebufIndex = 0 ∧ t'.cmdHistoryIndex = -1 ∧
      entry.text? = some t.typed ∧ t'.cmdHistory = t.entered entry ∧ t'.PromptShown := by
  have hi : t.linebufIndex < kLineMax := lt_of_le_of_lt h.typed_le hbound
  have hwrite := CharArray.write?_eq (a := t.linebuf) hi 0
  set entry : LineBuf := ⟨t.linebuf.chars.set t.linebufIndex 0, _⟩ with hentry
  have htext : entry.text? = some t.typed := CharArray.text?_write_nul hi h.typed_text hwrite
  set history := if 0 < t.linebufIndex then entry :: t.cmdHistory.dropLast else t.cmdHistory
    with hhistory
  have hpush : (if t.linebufIndex > 0 then Terminal.pushHistory { t with linebuf := entry }
      else some { t with linebuf := entry }) =
      some { t with linebuf := entry, cmdHistory := history } := by
    by_cases hpos : 0 < t.linebufIndex
    · simp [hpos, pushHistory, hok hpos, hhistory]
    · simp [hpos, hhistory]
  set t₁ : Terminal := { t with
    linebuf := entry
    cmdHistory := history
    linebufIndex := 0
    cmdHistoryIndex := -1 } with ht₁
  obtain ⟨hx, hy₀, hy⟩ := newline_cursor (t := t₁) h.y_nonneg h.y_lt
  have hsame₁ := newline_editor t₁
  have hstart : t₁.newline.AtLineStart := ⟨newline_inGrid h.y_nonneg h.y_lt, hx⟩
  have hline : t₁.newline.linebuf.text? = some t.typed := by
    rw [hsame₁.linebuf]
    exact htext
  obtain ⟨t₂, heq, hstart₂, hindex₂, hhist₂, hhidx₂⟩ := executeLine_spec hstart hline m
  have hentered : resizeHistory t₂.cmdHistory 8 = t.entered entry := by
    rw [hhist₂, hsame₁.cmdHistory]
    rfl
  obtain ⟨hinv, hcolumn, hindex, hhidx, hhist, hprompt⟩ := prompted_spec hstart₂
    (hindex₂.trans hsame₁.linebufIndex) (hhidx₂.trans hsame₁.cmdHistoryIndex)
    (hentered ▸ h.entered htext)
  refine ⟨t₂.prompted, ⟨kTopLeftMargin, innerSize⟩, entry, ?_, hinv, hcolumn, hindex, hhidx, htext,
    hhist.trans hentered, hprompt⟩
  unfold enter
  simp only [hwrite, hpush, Option.bind_eq_bind, Option.bind_some]
  rw [heq]
  rfl

/-- **Backspace** moves the cursor left unless it is in column 0, and shortens the text unless that
is empty. -/
theorem backspace_spec (h : EditorInv bound t) (area : Rectangle) :
    EditorInv bound (t.backspace area).1 ∧
      (t.backspace area).1.cursor.x = (if 0 < t.cursor.x then t.cursor.x - 1 else t.cursor.x) ∧
      (t.backspace area).1.linebufIndex =
        (if 0 < t.cursor.x then t.linebufIndex - 1 else t.linebufIndex) ∧
      (t.backspace area).1.cmdHistory = t.cmdHistory ∧
      (t.backspace area).1.cmdHistoryIndex = t.cmdHistoryIndex := by
  unfold backspace
  by_cases hx : t.cursor.x > 0
  · have hindex : ∀ u : Terminal, (if u.linebufIndex > 0 then
        { u with linebufIndex := u.linebufIndex - 1 } else u) =
        { u with linebufIndex := u.linebufIndex - 1 } := by
      intro u
      split_ifs with hpos
      · rfl
      · have h0 : u.linebufIndex - 1 = u.linebufIndex := by omega
        rw [h0]
    simp only [hx, if_true, hindex]
    refine ⟨⟨h.y_nonneg, h.y_lt, le_trans (Nat.sub_le _ _) h.typed_le, fun hmem => ?_, h.entries,
      h.history_le, h.index_ge, h.index_lt⟩, rfl, rfl, rfl, rfl⟩
    exact h.typed_text (List.take_subset_take_left _ (Nat.sub_le _ _) hmem)
  · simp only [if_neg hx, and_true]
    exact h

/-- **A character** is appended to the text if the cursor is left of the last column. -/
theorem typeChar_spec (h : EditorInv bound t) (hbound : bound < kLineMax)
    (hroom : t.cursor.x < kColumns - 1 → t.linebufIndex < bound) {c : UInt8} (hc : c ≠ 0) :
    ∃ t', t.typeChar c = some t' ∧ EditorInv bound t' ∧ t'.cmdHistory = t.cmdHistory ∧
      t'.cmdHistoryIndex = t.cmdHistoryIndex ∧
      ((t.cursor.x < kColumns - 1 ∧ t'.cursor.x = t.cursor.x + 1 ∧
          t'.linebufIndex = t.linebufIndex + 1) ∨
        (t'.cursor.x = t.cursor.x ∧ t'.linebufIndex = t.linebufIndex)) := by
  unfold typeChar
  by_cases hcond : t.cursor.x < kColumns - 1 ∧ t.linebufIndex < kLineMax - 1
  · have hlt := hroom hcond.1
    have hi : t.linebufIndex < kLineMax := lt_trans hlt hbound
    have hwrite := CharArray.write?_eq (a := t.linebuf) hi c
    rw [if_pos hcond]
    simp only [hwrite, Option.bind_eq_bind, Option.bind_some]
    refine ⟨_, rfl, ⟨h.y_nonneg, h.y_lt, hlt, ?_, h.entries, h.history_le, h.index_ge,
      h.index_lt⟩, rfl, rfl, Or.inl ⟨hcond.1, rfl, rfl⟩⟩
    unfold typed
    simp only [draw]
    rw [CharArray.take_write hi hwrite, List.mem_append, List.mem_singleton, not_or]
    exact ⟨h.typed_text, hc.symm⟩
  · rw [if_neg hcond]
    exact ⟨t, rfl, h, rfl, rfl, Or.inr ⟨rfl, rfl⟩⟩

/-- `cmd_history_index_` after an arrow key.
Source: `kernel/terminal.cpp`, `Terminal::HistoryUpDown` -/
def nextIndex (t : Terminal) (direction : Int) : Int :=
  if direction = -1 ∧ t.cmdHistoryIndex ≥ 0 then t.cmdHistoryIndex - 1
  else if direction = 1 ∧ toSizeT (t.cmdHistoryIndex + 1) < t.cmdHistory.length then
    t.cmdHistoryIndex + 1
  else t.cmdHistoryIndex

/-- The line that an arrow key shows.
Source: `kernel/terminal.cpp`, `Terminal::HistoryUpDown` -/
def shownLine (t : Terminal) (direction : Int) : Option (List UInt8) :=
  if t.nextIndex direction ≥ 0 then
    (t.cmdHistory[toSizeT (t.nextIndex direction)]?).bind CharArray.text?
  else some []

/-- The index stays in range, so the line it shows is there. -/
theorem EditorInv.shownLine (h : EditorInv bound t) (direction : Int) :
    (-1 ≤ t.nextIndex direction ∧ t.nextIndex direction < t.cmdHistory.length) ∧
      ∃ line, t.shownLine direction = some line ∧ 0 ∉ line ∧ line.length ≤ bound := by
  have hge := h.index_ge
  have hlt := h.index_lt
  have hle := h.history_le
  have hrange : -1 ≤ t.nextIndex direction ∧ t.nextIndex direction < t.cmdHistory.length := by
    unfold nextIndex
    split_ifs with hdown hup
    · omega
    · rw [toSizeT_of_lt (by omega) (by omega)] at hup
      omega
    · omega
  refine ⟨hrange, ?_⟩
  unfold Terminal.shownLine
  by_cases hpos : t.nextIndex direction ≥ 0
  · have hidx : toSizeT (t.nextIndex direction) < t.cmdHistory.length := by
      rw [toSizeT_of_lt hpos (by omega)]
      omega
    obtain ⟨line, hline, hlen⟩ := h.entries _ (List.getElem_mem hidx)
    refine ⟨line, ?_, CharArray.not_mem_of_text? hline, hlen⟩
    rw [if_pos hpos, List.getElem?_eq_getElem hidx]
    exact hline
  · exact ⟨[], if_neg hpos, List.not_mem_nil, Nat.zero_le _⟩

/-- **The arrow keys** replace the text by an entry of the history. -/
theorem historyUpDown_spec (h : EditorInv bound t) (hbound : bound < kLineMax) (direction : Int) :
    ∃ (t' : Terminal) (area : Rectangle) (line : List UInt8),
      t.historyUpDown direction = some (t', area) ∧ EditorInv bound t' ∧
      t'.cmdHistory = t.cmdHistory ∧ t'.recalled = some line ∧ t'.linebuf.text? = some line ∧
      t'.linebufIndex = line.length ∧ t'.cursor.x = line.length + 1 := by
  obtain ⟨hrange, line, hline, htext, hlen⟩ := h.shownLine direction
  unfold Terminal.shownLine nextIndex at hline
  unfold nextIndex at hrange
  unfold historyUpDown
  set index := if direction = -1 ∧ t.cmdHistoryIndex ≥ 0 then t.cmdHistoryIndex - 1
    else if direction = 1 ∧ toSizeT (t.cmdHistoryIndex + 1) < t.cmdHistory.length then
      t.cmdHistoryIndex + 1
    else t.cmdHistoryIndex
  obtain ⟨linebuf, hcopy, -⟩ := CharArray.copy?_eq (a := t.linebuf) (lt_of_le_of_lt hlen hbound)
  obtain ⟨hcopied, htake⟩ := CharArray.text?_copy htext hcopy
  simp only [hline, draw, hcopy, Option.bind_eq_bind, Option.bind_some]
  refine ⟨_, _, line, rfl, ⟨h.y_nonneg, h.y_lt, hlen, ?_, h.entries, h.history_le, hrange.1,
    hrange.2⟩, rfl, hline, hcopied, rfl, rfl⟩
  show 0 ∉ linebuf.chars.take line.length
  rw [htake]
  exact htext

/-! ## Keys -/

end Terminal

/-- The up and the down arrow. -/
def Key.isArrow (key : Key) : Bool :=
  key.ascii = 0 ∧ (key.keycode = 0x51 ∨ key.keycode = 0x52)

namespace Terminal

/-- What a key does to the line, the column and the history. -/
inductive KeyEffect (t : Terminal) (key : Key) (t' : Terminal) : Prop
  /-- The line is entered. -/
  | enter (entry : LineBuf) (isEnter : key.ascii = 0x0a) (x : t'.cursor.x = 1)
      (index : t'.linebufIndex = 0) (text : entry.text? = some t.typed)
      (history : t'.cmdHistory = t.entered entry)
  /-- The cursor goes back. -/
  | backspace (isBackspace : key.ascii = 0x08)
      (x : t'.cursor.x = if 0 < t.cursor.x then t.cursor.x - 1 else t.cursor.x)
      (index : t'.linebufIndex = if 0 < t.cursor.x then t.linebufIndex - 1 else t.linebufIndex)
      (history : t'.cmdHistory = t.cmdHistory)
  /-- A character is typed. -/
  | append (notArrow : key.isArrow = false) (notEnter : key.ascii ≠ 0x0a)
      (notBackspace : key.ascii ≠ 0x08) (room : t.cursor.x < kColumns - 1)
      (x : t'.cursor.x = t.cursor.x + 1) (index : t'.linebufIndex = t.linebufIndex + 1)
      (history : t'.cmdHistory = t.cmdHistory)
  /-- An entry of the history is shown. -/
  | arrow (line : List UInt8) (notEnter : key.ascii ≠ 0x0a) (notBackspace : key.ascii ≠ 0x08)
      (recalled : t'.recalled = some line) (text : t'.linebuf.text? = some line)
      (x : t'.cursor.x = line.length + 1) (index : t'.linebufIndex = line.length)
      (history : t'.cmdHistory = t.cmdHistory)
  /-- Nothing happens. -/
  | ignore (notArrow : key.isArrow = false) (notEnter : key.ascii ≠ 0x0a)
      (notBackspace : key.ascii ≠ 0x08) (x : t'.cursor.x = t.cursor.x)
      (index : t'.linebufIndex = t.linebufIndex) (history : t'.cmdHistory = t.cmdHistory)

/-- **What `InputKey` does**, unless it has to drop an entry of an empty history. -/
theorem handleKey_spec (h : EditorInv bound t) (hbound : bound < kLineMax)
    (hroom : t.cursor.x < kColumns - 1 → t.linebufIndex < bound) {key : Key}
    (hok : key.ascii = 0x0a → 0 < t.linebufIndex → t.cmdHistory ≠ []) (m : Machine)
    (area : Rectangle) :
    ∃ (t' : Terminal) (area' : Rectangle), t.handleKey m key area = some (t', area') ∧
      EditorInv bound t' ∧ KeyEffect t key t' ∧
      (1 ≤ t.cursor.x → 1 ≤ t'.cursor.x → t.PromptShown → t'.PromptShown) := by
  unfold handleKey
  by_cases hnl : key.ascii = 0x0a
  · obtain ⟨t', area', entry, heq, hinv, hx, hindex, -, htext, hhist, hprompt⟩ :=
      enter_spec h hbound (hok hnl) m
    exact ⟨t', area', (if_pos hnl).trans heq, hinv, .enter entry hnl hx hindex htext hhist,
      fun _ _ _ => hprompt⟩
  rw [if_neg hnl]
  by_cases hbs : key.ascii = 0x08
  · obtain ⟨hinv, hx, hindex, hhist, -⟩ := backspace_spec h area
    exact ⟨_, _, if_pos hbs, hinv, .backspace hbs hx hindex hhist,
      fun _ hright hprompt => backspace_promptShown hprompt hright⟩
  rw [if_neg hbs]
  by_cases hascii : key.ascii ≠ 0
  · have hnot : key.isArrow = false := by simp [Key.isArrow, hascii]
    obtain ⟨t', heq, hinv, hhist, -, hmove⟩ := typeChar_spec h hbound hroom hascii
    refine ⟨t', area, by rw [if_pos hascii, heq]; rfl, hinv, ?_,
      fun hright _ hprompt => typeChar_promptShown hprompt hright heq⟩
    rcases hmove with ⟨hlt, hx, hindex⟩ | ⟨hx, hindex⟩
    · exact .append hnot hnl hbs hlt hx hindex hhist
    · exact .ignore hnot hnl hbs hx hindex hhist
  rw [if_neg hascii]
  have hrecall : ∀ direction, ∃ (t' : Terminal) (area' : Rectangle),
      t.historyUpDown direction = some (t', area') ∧ EditorInv bound t' ∧ KeyEffect t key t' ∧
      (1 ≤ t.cursor.x → 1 ≤ t'.cursor.x → t.PromptShown → t'.PromptShown) := by
    intro direction
    obtain ⟨t', area', line, heq, hinv, hhist, hrec, htext, hindex, hx⟩ :=
      historyUpDown_spec h hbound direction
    exact ⟨t', area', heq, hinv, .arrow line hnl hbs hrec htext hx hindex hhist,
      fun _ _ hprompt => historyUpDown_promptShown hprompt heq⟩
  by_cases hdown : key.keycode = 0x51
  · rw [if_pos hdown]
    exact hrecall (-1)
  rw [if_neg hdown]
  by_cases hup : key.keycode = 0x52
  · rw [if_pos hup]
    exact hrecall 1
  rw [if_neg hup]
  have hnot : key.isArrow = false := by simp [Key.isArrow, hdown, hup]
  exact ⟨t, area, rfl, h, .ignore hnot hnl hbs rfl rfl rfl, fun _ _ hprompt => hprompt⟩

/-- An Enter that records a line runs into `pop_back` if the deque is empty. -/
theorem inputKey_of_empty (t : Terminal) {m : Machine} {key : Key} (hnl : key.ascii = 0x0a)
    (hpos : 0 < t.linebufIndex) (hempty : t.cmdHistory = []) : t.inputKey m key = none := by
  have henter : (t.drawCursor false).enter m = none := by
    unfold enter
    have hpos' : (t.drawCursor false).linebufIndex > 0 := hpos
    have hempty' : (t.drawCursor false).cmdHistory = [] := hempty
    simp [hpos', pushHistory, hempty']
  unfold inputKey
  simp only [handleKey, if_pos hnl, henter, Option.bind_eq_bind, Option.bind_none]

/-- The keys draw the cursor before and after; the prompt stays on the window as long as the cursor
is right of it. -/
theorem inputKey_spec (h : EditorInv bound t) (hbound : bound < kLineMax)
    (hroom : t.cursor.x < kColumns - 1 → t.linebufIndex < bound) {key : Key}
    (hok : key.ascii = 0x0a → 0 < t.linebufIndex → t.cmdHistory ≠ []) (m : Machine) :
    ∃ (t' : Terminal) (area : Rectangle), t.inputKey m key = some (t', area) ∧
      EditorInv bound t' ∧ KeyEffect t key t' ∧
      (1 ≤ t.cursor.x → 1 ≤ t'.cursor.x → t.PromptShown → t'.PromptShown) := by
  obtain ⟨t', area', heq, hinv, heffect, hprompt⟩ := handleKey_spec (t := t.drawCursor false)
    (h.drawCursor false) hbound hroom hok m ⟨(t.drawCursor false).calcCursorPos, ⟨8 * 2, 16⟩⟩
  refine ⟨t'.drawCursor true, area', ?_, hinv.drawCursor true, ?_, fun hright hright' hshown =>
    (hprompt hright hright' (hshown.drawCursor hright false)).drawCursor hright' true⟩
  · unfold inputKey
    simp only [heq, Option.bind_eq_bind, Option.bind_some]
    rfl
  · cases heffect with
    | enter entry isEnter x index text history => exact .enter entry isEnter x index text history
    | backspace isBackspace x index history => exact .backspace isBackspace x index history
    | append notArrow notEnter notBackspace room x index history =>
        exact .append notArrow notEnter notBackspace room x index history
    | arrow line notEnter notBackspace recalled text x index history =>
        exact .arrow line notEnter notBackspace recalled text x index history
    | ignore notArrow notEnter notBackspace x index history =>
        exact .ignore notArrow notEnter notBackspace x index history

end Terminal

end UhyokOS
