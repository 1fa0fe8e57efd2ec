import UhyokOS.Layer.Redraw
import UhyokOS.Terminal.Cursor
import UhyokOS.Terminal.Window

/-!
# The rectangles that `InputKey` returns

The terminal task asks for a redraw of the rectangle that `InputKey` returns. Every key erases the
cursor, draws in the rectangle and draws the cursor again; the two cursors are the only pixels that
can lie outside.

* `inputKey_drew`: the calls of a key, in this order.
* `changedWithin_iff`, `covered_iff`: when the pixels that a key changes are in its rectangle.
* `redraw_inputKey`: then the redraw leaves the screen showing the window.
-/

namespace UhyokOS

open Transition Terminal

/-- The call stays in a rectangle of the terminal's window. -/
structure DrawCall.InArea (area : Rectangle) (call : DrawCall) : Prop where
  fits : call.Fits terminalBounds
  within : call.area.Within area

namespace Terminal

variable {t t' : Terminal} {m : Machine} {area : Rectangle} {P : DrawCall → Prop}

/-! ## The calls of a function -/

/-- The calls on the window between two states. -/
def Drew (P : DrawCall → Prop) (t t' : Terminal) : Prop :=
  ∃ calls, t'.drawn = t.drawn ++ calls ∧ ∀ call ∈ calls, P call

/-- A call that draws nothing draws what is allowed. -/
theorem Drew.of_eq (h : t'.drawn = t.drawn) : Drew P t t' :=
  ⟨[], h.trans (List.append_nil _).symm, fun _ hc => absurd hc List.not_mem_nil⟩

/-- A call that draws once draws what is allowed if that is. -/
theorem Drew.one {call : DrawCall} (h : t'.drawn = t.drawn ++ [call]) (hcall : P call) :
    Drew P t t' :=
  ⟨[call], h, fun _ hc => List.mem_singleton.mp hc ▸ hcall⟩

/-- Two calls, one after the other. -/
theorem Drew.trans {t'' : Terminal} (h : Drew P t t') (h' : Drew P t' t'') : Drew P t t'' := by
  obtain ⟨calls, hdrawn, hall⟩ := h
  obtain ⟨calls', hdrawn', hall'⟩ := h'
  refine ⟨calls ++ calls', ?_, ?_⟩
  · rw [hdrawn', hdrawn, List.append_assoc]
  · rw [List.forall_mem_append]
    exact ⟨hall, hall'⟩

/-- The box of the cursor. -/
def cursorBox (t : Terminal) : Rectangle := ⟨t.calcCursorPos, ⟨7, 15⟩⟩

/-- The cursor's cell. -/
def cursorCell (t : Terminal) : Rectangle := ⟨t.calcCursorPos, ⟨8, 16⟩⟩

/-- The inner area is a part of the window. -/
theorem within_innerArea : innerArea.Within terminalBounds := by decide

/-- A cell of the grid is in the inner area. -/
theorem InGrid.cell (h : t.InGrid) : t.cursorCell.Within innerArea := by
  obtain ⟨hx₀, hx, hy₀, hy⟩ := h
  unfold cursorCell calcCursorPos innerArea innerSize kTopLeftMargin
  simp only [kColumns, kRows] at hx hy ⊢
  constructor <;> simp only [Vector2D.add_x, Vector2D.add_y] <;> omega

/-- The cursor is drawn inside the cell at its position. -/
theorem cursorBox_within_cell (t : Terminal) : t.cursorBox.Within t.cursorCell := by
  unfold cursorBox cursorCell
  constructor <;> simp only <;> omega

/-- A rectangle that is filled is drawn in its own area. -/
theorem inArea_fillRectangle {inner : Bool} {pos size : Vector2D} {c : PixelColor}
    (h : (DrawCall.fillRectangle inner pos size c).area.Within area)
    (hbounds : (DrawCall.fillRectangle inner pos size c).area.Within terminalBounds) :
    (DrawCall.fillRectangle inner pos size c).InArea area :=
  ⟨⟨hbounds, fun _ _ hmove => by cases hmove⟩, h⟩

/-- A new line draws in the inner area: it moves the rows up and clears the last one. -/
theorem newline_drew (h₀ : 0 ≤ t.cursor.y) (h : t.cursor.y < kRows) :
    Drew (DrawCall.InArea innerArea) t t.newline := by
  unfold newline
  simp only
  split_ifs with hlt
  · exact .of_eq rfl
  · -- the last row: the text is moved up
    have hlast : t.cursor.y = 14 := by
      simp only [kRows] at h hlt
      omega
    have hfill : (DrawCall.fillRectangle true ⟨4, 4 + 16 * 14⟩ ⟨8 * kColumns, 16⟩
        kTerminalColor).area.Within innerArea := by decide
    have hmove : ∀ {u : Terminal}, Drew (DrawCall.InArea innerArea) u (u.draw (.move
        (kTopLeftMargin + ⟨4, 4⟩)
        ⟨kTopLeftMargin + ⟨4, 4 + 16⟩, ⟨8 * kColumns, 16 * (kRows - 1)⟩⟩)) := by
      intro u
      refine .one rfl ⟨⟨by decide, ?_⟩, by decide⟩
      intro dstPos src hsame
      cases hsame
      decide
    unfold scroll1
    simp only [hlast]
    exact hmove.trans (.one rfl (inArea_fillRectangle hfill (hfill.trans within_innerArea)))

/-- A character is drawn in a cell of the grid. -/
theorem printChar_drew (h : t.InGrid) (c : UInt8) :
    Drew (DrawCall.InArea innerArea) t (t.printChar c) := by
  unfold printChar
  simp only
  have hcell : Drew (DrawCall.InArea innerArea) t
      (t.draw (.writeAscii t.calcCursorPos c kTextColor)) :=
    .one rfl ⟨⟨h.cell.trans within_innerArea, fun _ _ hmove => by cases hmove⟩, h.cell⟩
  split_ifs
  · exact newline_drew h.y_nonneg h.y_lt
  · exact hcell.trans (newline_drew h.y_nonneg h.y_lt)
  · exact hcell

/-- Characters are drawn in the inner area. -/
theorem foldl_printChar_drew (h : t.InGrid) (s : List UInt8) :
    Drew (DrawCall.InArea innerArea) t (s.foldl printChar t) := by
  induction s generalizing t with
  | nil => exact .of_eq rfl
  | cons c s ih => exact (printChar_drew h c).trans (ih (printChar_inGrid h c))

/-- **`Print` draws in the inner area.** -/
theorem print_drew (h : t.InGrid) (s : List UInt8) :
    Drew (DrawCall.InArea innerArea) t (t.print s) := by
  have hcursor : ∀ {u : Terminal} (visible : Bool), u.InGrid →
      Drew (DrawCall.InArea innerArea) u (u.drawCursor visible) := by
    intro u visible hu
    have hbox : u.cursorBox.Within innerArea := (cursorBox_within_cell u).trans hu.cell
    exact .one rfl (inArea_fillRectangle hbox (hbox.trans within_innerArea))
  have h' : (t.drawCursor false).InGrid := ⟨h.1, h.2, h.3, h.4⟩
  unfold print
  exact ((hcursor false h).trans (foldl_printChar_drew h' s)).trans
    (hcursor true (foldl_printChar_inGrid h' s))

/-- Lines are printed in the inner area. -/
theorem foldl_print_drew (h : t.InGrid) (lines : List (List UInt8)) :
    Drew (DrawCall.InArea innerArea) t (lines.foldl print t) := by
  induction lines generalizing t with
  | nil => exact .of_eq rfl
  | cons line lines ih => exact (print_drew h line).trans (ih (print_inGrid h line))

/-- What a command prints is in the inner area, whatever the machine's tables and files say. -/
theorem runCommand_drew (h : t.InGrid) (m : Machine) (command : List UInt8)
    (firstArg : Option (List UInt8)) :
    Drew (DrawCall.InArea innerArea) t (t.runCommand m command firstArg) := by
  unfold runCommand
  split_ifs
  · cases firstArg with
    | none => exact print_drew h _
    | some arg => exact (print_drew h arg).trans (print_drew (print_inGrid h arg) _)
  · exact .one rfl (inArea_fillRectangle (by decide) (by decide))
  · exact foldl_print_drew h _
  · exact foldl_print_drew h _
  · exact ((print_drew h _).trans (print_drew (print_inGrid h _) _)).trans
      (print_drew (print_inGrid (print_inGrid h _) _) _)
  · exact .of_eq rfl

/-- Executing a line draws in the inner area, and begins the next one. -/
theorem executeLine_drew (h : t.AtLineStart) (heq : t.executeLine m = some t') :
    Drew (DrawCall.InArea innerArea) t t' ∧ t'.AtLineStart := by
  unfold executeLine at heq
  obtain ⟨line, hline, heq⟩ := Option.bind_eq_some_iff.mp heq
  cases hidx : line.idxOf? 0x20 with
  | none =>
      simp only [hidx] at heq
      cases heq
      exact ⟨runCommand_drew h.grid m line none, (runCommand_spec h m line none).1⟩
  | some i =>
      simp only [hidx] at heq
      obtain ⟨linebuf, -, heq⟩ := Option.bind_eq_some_iff.mp heq
      cases heq
      have h' : ({ t with linebuf := linebuf } : Terminal).AtLineStart :=
        ⟨⟨h.grid.1, h.grid.2, h.grid.3, h.grid.4⟩, h.column⟩
      refine ⟨?_, (runCommand_spec h' m _ _).1⟩
      obtain ⟨calls, hdrawn, hall⟩ := runCommand_drew h'.grid m (line.take i)
        (some (line.drop (i + 1)))
      exact ⟨calls, hdrawn, hall⟩

/-! ## The branches of `InputKey` -/

/-- **Enter** draws in the inner area and leaves the cursor there. -/
theorem enter_drew (h₀ : 0 ≤ t.cursor.y) (h : t.cursor.y < kRows)
    (heq : t.enter m = some (t', area)) :
    area = innerArea ∧ Drew (DrawCall.InArea innerArea) t t' ∧ t'.InGrid := by
  unfold enter at heq
  simp only [Option.bind_eq_bind] at heq
  obtain ⟨linebuf, -, heq⟩ := Option.bind_eq_some_iff.mp heq
  obtain ⟨t₁, hpush, heq⟩ := Option.bind_eq_some_iff.mp heq
  obtain ⟨t₂, hexec, heq⟩ := Option.bind_eq_some_iff.mp heq
  cases heq
  obtain ⟨hdrawn, hcursor⟩ : t₁.drawn = t.drawn ∧ t₁.cursor = t.cursor := by
    unfold pushHistory at hpush
    split_ifs at hpush <;> cases hpush <;> exact ⟨rfl, rfl⟩
  have hstart : ({ t₁ with linebufIndex := 0, cmdHistoryIndex := -1 } :
      Terminal).newline.AtLineStart :=
    ⟨newline_inGrid (hcursor ▸ h₀) (hcursor ▸ h), (newline_cursor (hcursor ▸ h₀) (hcursor ▸ h)).1⟩
  obtain ⟨hline, hstart₂⟩ := executeLine_drew hstart hexec
  have hgrid := print_inGrid hstart₂.grid (text ">")
  refine ⟨rfl, ?_, ⟨hgrid.1, hgrid.2, hgrid.3, hgrid.4⟩⟩
  have hnewline : Drew (DrawCall.InArea innerArea) t
      ({ t₁ with linebufIndex := 0, cmdHistoryIndex := -1 } : Terminal).newline := by
    obtain ⟨calls, hcalls, hall⟩ := newline_drew
      (t := { t₁ with linebufIndex := 0, cmdHistoryIndex := -1 }) (hcursor ▸ h₀) (hcursor ▸ h)
    exact ⟨calls, by rw [hcalls, ← hdrawn], hall⟩
  obtain ⟨calls, hcalls, hall⟩ := (hnewline.trans hline).trans (print_drew hstart₂.grid (text ">"))
  exact ⟨calls, hcalls, hall⟩

/-- The cursor is in a row of the grid, in one of its columns or right of them. -/
structure InRow (t : Terminal) : Prop where
  x_nonneg : 0 ≤ t.cursor.x
  x_le : t.cursor.x ≤ kColumns
  y_nonneg : 0 ≤ t.cursor.y
  y_lt : t.cursor.y < kRows

/-- The window has room for the cursor. -/
theorem InRow.cursorBox (h : t.InRow) : t.cursorBox.Within terminalBounds := by
  obtain ⟨hx₀, hx, hy₀, hy⟩ := h
  unfold Terminal.cursorBox calcCursorPos terminalBounds terminalSize kTopLeftMargin
  simp only [kColumns, kRows] at hx hy ⊢
  constructor <;> simp only [Vector2D.add_x, Vector2D.add_y] <;> omega

/-- The rectangle that `InputKey` starts with. -/
def keyArea (t : Terminal) : Rectangle := ⟨t.calcCursorPos, ⟨8 * 2, 16⟩⟩

/-- **Backspace** draws in the two cells of the cursor. -/
theorem backspace_drew (h : t.InRow) (heq : t.backspace t.keyArea = (t', area)) :
    Drew (DrawCall.InArea area) t t' ∧ t.cursorBox.Within area ∧ t'.cursorBox.Within area := by
  obtain ⟨hx₀, hx, hy₀, hy⟩ := h
  unfold backspace at heq
  by_cases hpos : t.cursor.x > 0
  · rw [if_pos hpos] at heq
    simp only [Prod.mk.injEq] at heq
    obtain ⟨ht', rfl⟩ := heq
    have hcursor : t'.cursor = ⟨t.cursor.x - 1, t.cursor.y⟩ := by
      rw [← ht']
      split_ifs <;> rfl
    have hdrawn : t'.drawn = t.drawn ++ [.fillRectangle false
        ({ t with cursor := ⟨t.cursor.x - 1, t.cursor.y⟩ } : Terminal).calcCursorPos ⟨8, 16⟩
          kTerminalColor] := by
      rw [← ht']
      split_ifs <;> rfl
    refine ⟨.one hdrawn (inArea_fillRectangle ?_ ?_), ?_, ?_⟩
    · unfold DrawCall.area draw keyArea calcCursorPos
      constructor <;> simp
    · unfold DrawCall.area calcCursorPos terminalBounds terminalSize kTopLeftMargin
      simp only [kColumns, kRows] at hx hy ⊢
      constructor <;> simp <;> omega
    · unfold Terminal.cursorBox draw keyArea calcCursorPos
      constructor <;> simp only [Vector2D.add_x, Vector2D.add_y] <;> omega
    · unfold Terminal.cursorBox draw keyArea calcCursorPos
      rw [hcursor]
      constructor <;> simp
  · rw [if_neg hpos] at heq
    cases heq
    refine ⟨.of_eq rfl, ?_, ?_⟩
    · unfold Terminal.cursorBox keyArea
      constructor <;> simp
    · unfold Terminal.cursorBox keyArea
      constructor <;> simp

/-- **A character** is drawn in the cursor's cell, the cursor in the next one. -/
theorem typeChar_drew (h : t.InRow) {c : UInt8} (heq : t.typeChar c = some t') :
    Drew (DrawCall.InArea t.keyArea) t t' ∧ t.cursorBox.Within t.keyArea ∧
      t'.cursorBox.Within t.keyArea := by
  obtain ⟨hx₀, hx, hy₀, hy⟩ := h
  have hbox : t.cursorBox.Within t.keyArea := by
    unfold Terminal.cursorBox keyArea
    constructor <;> simp
  unfold typeChar at heq
  split_ifs at heq with hroom
  · obtain ⟨linebuf, -, heq⟩ := Option.bind_eq_some_iff.mp heq
    cases heq
    refine ⟨.one rfl ⟨⟨?_, fun _ _ hmove => by cases hmove⟩, ?_⟩, hbox, ?_⟩
    · unfold DrawCall.area calcCursorPos terminalBounds terminalSize kTopLeftMargin
      simp only [kColumns, kRows] at hroom hy ⊢
      constructor <;> simp <;> omega
    · unfold DrawCall.area keyArea calcCursorPos
      constructor <;> simp
    · unfold Terminal.cursorBox draw keyArea calcCursorPos
      constructor <;> simp only [Vector2D.add_x, Vector2D.add_y] <;> omega
  · cases heq
    exact ⟨.of_eq rfl, hbox, hbox⟩

/-- The cursor's row from column 1 on. -/
def lineArea (t : Terminal) : Rectangle :=
  ⟨({ t with cursor := ⟨1, t.cursor.y⟩ } : Terminal).calcCursorPos, ⟨8 * (kColumns - 1), 16⟩⟩

/-- **The arrow keys** draw in the row, and leave the cursor after the line that they show. -/
theorem historyUpDown_drew (h : t.InRow) {direction : Int} {line : List UInt8}
    (hline : t.shownLine direction = some line) (hlen : line.length < 60)
    (heq : t.historyUpDown direction = some (t', area)) :
    area = t.lineArea ∧ Drew (DrawCall.InArea t.lineArea) t t' ∧
      t'.cursor = ⟨line.length + 1, t.cursor.y⟩ := by
  obtain ⟨hx₀, hx, hy₀, hy⟩ := h
  unfold historyUpDown at heq
  simp only [Option.bind_eq_bind] at heq
  obtain ⟨line', hline', heq⟩ := Option.bind_eq_some_iff.mp heq
  obtain ⟨linebuf, -, heq⟩ := Option.bind_eq_some_iff.mp heq
  have hsame : line' = line := Option.some.inj (hline'.symm.trans hline)
  subst hsame
  cases heq
  refine ⟨rfl, ⟨[_, _], List.append_assoc _ _ _, ?_⟩, rfl⟩
  have hrow : t.lineArea.Within terminalBounds := by
    unfold lineArea calcCursorPos terminalBounds terminalSize kTopLeftMargin
    simp only [kColumns, kRows] at hy ⊢
    constructor <;> simp <;> omega
  have htext : (⟨t.lineArea.pos, ⟨8 * line'.length, 16⟩⟩ : Rectangle).Within t.lineArea := by
    unfold lineArea
    simp only [kColumns]
    constructor <;> simp only <;> omega
  simp only [List.forall_mem_cons, List.not_mem_nil, false_imp_iff, implies_true, and_true]
  constructor
  · exact inArea_fillRectangle ⟨Int.le_refl _, Int.le_refl _, Int.le_refl _, Int.le_refl _⟩ hrow
  · exact ⟨⟨htext.trans hrow, fun _ _ hmove => by cases hmove⟩, htext⟩

/-- The direction that the key passes to `HistoryUpDown`.
Source: `kernel/terminal.cpp`, `Terminal::InputKey` -/
def arrowDirection (key : Key) : Option Int :=
  if key.ascii ≠ 0 then none
  else if key.keycode = 0x51 then some (-1)
  else if key.keycode = 0x52 then some 1
  else none

/-- Where the cursors before and after a key are, and the rectangle the key returns. -/
inductive Damage (t : Terminal) (key : Key) (t' : Terminal) (area : Rectangle) : Prop
  | enter (isEnter : key.ascii = 0x0a) (area : area = innerArea) (grid : t'.InGrid)
  | line (direction : Int) (line : List UInt8) (isArrow : arrowDirection key = some direction)
      (shown : t.shownLine direction = some line) (area : area = t.lineArea)
      (cursor : t'.cursor = ⟨line.length + 1, t.cursor.y⟩)
  | cell (notEnter : key.ascii ≠ 0x0a) (notArrow : arrowDirection key = none)
      (before : t.cursorBox.Within area) (after : t'.cursorBox.Within area)

/-- **What the branches of `InputKey` draw.** -/
theorem handleKey_drew (h : t.InRow) {key : Key}
    (hlines : ∀ direction line, t.shownLine direction = some line → line.length < 60)
    (hdefined : ∀ direction, ∃ line, t.shownLine direction = some line)
    (heq : t.handleKey m key t.keyArea = some (t', area)) :
    Drew (DrawCall.InArea area) t t' ∧ Damage t key t' area := by
  unfold handleKey at heq
  split_ifs at heq with hnl hbs hascii hdown hup
  · obtain ⟨rfl, hdrew, hgrid⟩ := enter_drew h.y_nonneg h.y_lt heq
    exact ⟨hdrew, .enter hnl rfl hgrid⟩
  · obtain ⟨hdrew, hbefore, hafter⟩ := backspace_drew h (Option.some.inj heq)
    refine ⟨hdrew, .cell hnl ?_ hbefore hafter⟩
    unfold arrowDirection
    rw [if_pos (by rw [hbs]; decide)]
  · obtain ⟨t₁, htype, heq⟩ := Option.map_eq_some_iff.mp heq
    cases heq
    obtain ⟨hdrew, hbefore, hafter⟩ := typeChar_drew h htype
    exact ⟨hdrew, .cell hnl (if_pos hascii) hbefore hafter⟩
  · obtain ⟨line, hline⟩ := hdefined (-1)
    obtain ⟨rfl, hdrew, hcursor⟩ := historyUpDown_drew h hline (hlines _ _ hline) heq
    refine ⟨hdrew, .line (-1) line ?_ hline rfl hcursor⟩
    unfold arrowDirection
    rw [if_neg hascii, if_pos hdown]
  · obtain ⟨line, hline⟩ := hdefined 1
    obtain ⟨rfl, hdrew, hcursor⟩ := historyUpDown_drew h hline (hlines _ _ hline) heq
    refine ⟨hdrew, .line 1 line ?_ hline rfl hcursor⟩
    unfold arrowDirection
    rw [if_neg hascii, if_neg hdown, if_pos hup]
  · cases heq
    refine ⟨.of_eq rfl, .cell hnl ?_ ?_ ?_⟩
    · unfold arrowDirection
      rw [if_neg hascii, if_neg hdown, if_neg hup]
    · unfold Terminal.cursorBox keyArea
      constructor <;> simp
    · unfold Terminal.cursorBox keyArea
      constructor <;> simp

end Terminal

/-! ## Changed pixels -/

/-- The colour of the cursor. -/
def kCursorColor : PixelColor := toColor 0xa47fff

/-- The window shows one colour in a rectangle. -/
def Window.Shows (w : Window) (r : Rectangle) (c : PixelColor) : Prop :=
  ∀ p, r.Contains p → w.ink p = some c

/-- **The two cursors decide**: calls in the rectangle between erasing the cursor in one box and
drawing it in another. -/
theorem changedWithin_iff (font : Font) {w : Window} (hw : IsTerminalWindow w)
    {box box' area : Rectangle} (hbox : box.Within terminalBounds)
    (hbox' : box'.Within terminalBounds) {calls : List DrawCall}
    (hcalls : ∀ call ∈ calls, call.InArea area) :
    ∃ w', DrawCall.performAll font w (.fillRectangle false box.pos box.size kTerminalColor ::
        (calls ++ [.fillRectangle false box'.pos box'.size kCursorColor])) = some w' ∧
      (w.ChangedWithin w' area ↔ ∀ p, ¬area.Contains p →
        (box'.Contains p → w.ink p = some kCursorColor) ∧
          (box.Contains p → ¬box'.Contains p → w.ink p = some kTerminalColor)) := by
  obtain ⟨w₁, herase, hframe₁, hink₁⟩ := DrawCall.fill_spec font kTerminalColor hw.solid
    (hw.bounds ▸ hbox)
  have hw₁ := hw.of_sameFrame hframe₁
  obtain ⟨w₂, hdraw, hframe₂, hink₂⟩ := DrawCall.performAll_spec font fun call hmem =>
    hw₁.bounds ▸ (hcalls call hmem).fits
  have hw₂ := hw₁.of_sameFrame hframe₂
  obtain ⟨w', hcursor, -, hink'⟩ := DrawCall.fill_spec font kCursorColor hw₂.solid
    (hw₂.bounds ▸ hbox')
  have hperform : DrawCall.performAll font w (.fillRectangle false box.pos box.size kTerminalColor ::
      (calls ++ [.fillRectangle false box'.pos box'.size kCursorColor])) = some w' := by
    rw [DrawCall.performAll_cons, herase, Option.bind_some, DrawCall.performAll_append, hdraw,
      Option.bind_some, DrawCall.performAll_cons, hcursor]
    rfl
  have hfinal : ∀ p, ¬area.Contains p → w'.ink p =
      if box'.Contains p then some kCursorColor
      else if box.Contains p then some kTerminalColor else w.ink p := by
    intro p hp
    rw [hink' p, hink₂ p fun call hmem hin => hp ((hcalls call hmem).within.contains hin), hink₁ p]
  refine ⟨w', hperform, ?_⟩
  unfold Window.ChangedWithin
  constructor
  · intro hall p hp
    have hsame : w'.ink p = w.ink p := by
      by_contra hne
      exact hp (hall p hne)
    rw [hfinal p hp] at hsame
    constructor
    · intro hin
      rw [if_pos hin] at hsame
      exact hsame.symm
    · intro hin hout
      rw [if_neg hout, if_pos hin] at hsame
      exact hsame.symm
  · intro hall p hne
    by_contra hp
    obtain ⟨hcursor, herased⟩ := hall p hp
    rw [hfinal p hp] at hne
    by_cases hin' : box'.Contains p
    · rw [if_pos hin', hcursor hin'] at hne
      exact hne rfl
    · by_cases hin : box.Contains p
      · rw [if_neg hin', if_pos hin, herased hin hin'] at hne
        exact hne rfl
      · rw [if_neg hin', if_neg hin] at hne
        exact hne rfl

/-! ## Runs -/

/-- A constructed terminal, with some empty entries in its history. -/
def Terminal.constructed (n : Nat) : Terminal :=
  { Terminal.init with cmdHistory := List.replicate n (.zeros kLineMax) }

/-- The invariant of the runs: lines have up to 59 characters, the cursor is behind the text or, after
a backspace in an empty line, one column to the left of that. -/
structure DamageInv (t : Terminal) : Prop where
  editor : EditorInv 59 t
  column : t.cursor.x = t.linebufIndex ∨ t.cursor.x = t.linebufIndex + 1
  fits : ∀ call ∈ t.drawn, call.Fits terminalBounds

variable {t t' : Terminal} {m : Machine} {key : Key} {area : Rectangle}

/-- The line editor stays in its row. -/
theorem DamageInv.inRow (h : DamageInv t) : t.InRow := by
  have hcolumn := h.column
  have hle := h.editor.typed_le
  refine ⟨by omega, ?_, h.editor.y_nonneg, h.editor.y_lt⟩
  simp only [kColumns]
  omega

/-- A cursor that is not in the last column leaves room for a character. -/
theorem DamageInv.typed_lt (h : DamageInv t) (hlt : t.cursor.x < kColumns - 1) :
    t.linebufIndex < 59 := by
  have hcolumn := h.column
  simp only [kColumns] at hlt
  omega

/-- An arrow key shows a line that fits into its row. -/
theorem DamageInv.shownLine_lt (h : DamageInv t) (direction : Int) (line : List UInt8)
    (hline : t.shownLine direction = some line) : line.length < 60 := by
  obtain ⟨-, line', hline', -, hlen⟩ := h.editor.shownLine direction
  rw [hline, Option.some.injEq] at hline'
  rw [hline']
  omega

/-- What is drawn in the area of a key fits into the window. -/
theorem Terminal.Drew.fits (h : Drew (DrawCall.InArea area) t t')
    (hfits : ∀ call ∈ t.drawn, call.Fits terminalBounds) :
    ∀ call ∈ t'.drawn, call.Fits terminalBounds := by
  obtain ⟨calls, hdrawn, hall⟩ := h
  rw [hdrawn, List.forall_mem_append]
  exact ⟨hfits, fun call hmem => (hall call hmem).fits⟩

/-- The constructor, with a history of at most eight lines. -/
theorem damageInv_constructed {n : Nat} (hn : n ≤ 8) : DamageInv (constructed n) := by
  refine ⟨editorInv_init 59 (fun e he => List.eq_of_mem_replicate he) (by simpa using hn), ?_, ?_⟩
  · right
    show Terminal.init.cursor.x = Terminal.init.linebufIndex + 1
    rw [init_cursor, init_editor.linebufIndex]
    rfl
  · have hgrid : (({} : Terminal).draw
        (.fillRectangle true ⟨0, 0⟩ innerSize (toColor 0xC8B2FF))).InGrid := by
      constructor <;> decide
    have hfill : Drew (DrawCall.InArea innerArea) ({} : Terminal) (({} : Terminal).draw
        (.fillRectangle true ⟨0, 0⟩ innerSize (toColor 0xC8B2FF))) :=
      .one rfl (inArea_fillRectangle (by decide) (by decide))
    have hinit : Drew (DrawCall.InArea innerArea) ({} : Terminal) Terminal.init :=
      hfill.trans (print_drew hgrid (text ">"))
    exact hinit.fits fun call hmem => absurd hmem List.not_mem_nil

/-- **What `InputKey` draws**: it erases the cursor, draws in the rectangle and draws the cursor. -/
theorem inputKey_drew (h : DamageInv t) (heq : t.inputKey m key = some (t', area)) :
    ∃ calls, t'.drawn = t.drawn ++ (.fillRectangle false t.cursorBox.pos t.cursorBox.size
        kTerminalColor :: (calls ++
          [.fillRectangle false t'.cursorBox.pos t'.cursorBox.size kCursorColor])) ∧
      (∀ call ∈ calls, call.InArea area) ∧ Damage t key t' area := by
  unfold inputKey at heq
  obtain ⟨⟨u, area'⟩, hkey, heq⟩ := Option.bind_eq_some_iff.mp heq
  cases heq
  have hrow : (t.drawCursor false).InRow := ⟨h.inRow.1, h.inRow.2, h.inRow.3, h.inRow.4⟩
  obtain ⟨⟨calls, hdrawn, hall⟩, hdamage⟩ := handleKey_drew hrow h.shownLine_lt
    (fun direction => (h.editor.shownLine direction).2.imp fun _ hline => hline.1) hkey
  refine ⟨calls, ?_, hall, ?_⟩
  · show u.drawn ++ _ = _
    rw [hdrawn]
    show t.drawn ++ [_] ++ calls ++ [_] = _
    simp only [List.append_assoc, List.singleton_append]
    rfl
  · cases hdamage with
    | enter isEnter area grid => exact .enter isEnter area ⟨grid.1, grid.2, grid.3, grid.4⟩
    | line direction line isArrow shown area cursor =>
        exact .line direction line isArrow shown area cursor
    | cell notEnter notArrow before after => exact .cell notEnter notArrow before after

/-- A line is recorded only if there is an entry to drop. -/
theorem ne_nil_of_inputKey (heq : t.inputKey m key = some (t', area)) (hnl : key.ascii = 0x0a)
    (hpos : 0 < t.linebufIndex) : t.cmdHistory ≠ [] := by
  intro hempty
  rw [t.inputKey_of_empty hnl hpos hempty] at heq
  cases heq

/-- **The step lemma.** -/
theorem DamageInv.inputKey (h : DamageInv t) (heq : t.inputKey m key = some (t', area)) :
    DamageInv t' := by
  have hcolumn := h.column
  obtain ⟨t'', area', heq', hinv, heffect, -⟩ := inputKey_spec h.editor (by decide) h.typed_lt
    (fun hnl hpos => ne_nil_of_inputKey heq hnl hpos) m
  rw [heq] at heq'
  cases heq'
  have hcolumn' : t'.cursor.x = t'.linebufIndex ∨ t'.cursor.x = t'.linebufIndex + 1 := by
    cases heffect with
    | enter entry isEnter x index text history => omega
    | backspace isBackspace x index history =>
        rw [x, index]
        split_ifs <;> omega
    | append notArrow notEnter notBackspace room x index history => omega
    | arrow line notEnter notBackspace recalled text x index history => omega
    | ignore notArrow notEnter notBackspace x index history => omega
  refine ⟨hinv, hcolumn', ?_⟩
  obtain ⟨calls, hdrawn, hall, -⟩ := inputKey_drew h heq
  have hle := hinv.typed_le
  have hrow' : t'.InRow := by
    refine ⟨by omega, ?_, hinv.y_nonneg, hinv.y_lt⟩
    simp only [kColumns]
    omega
  rw [hdrawn]
  simp only [List.forall_mem_append, List.forall_mem_cons]
  refine ⟨h.fits, ?_, fun call hmem => (hall call hmem).fits, ?_, ?_⟩
  · exact ⟨h.inRow.cursorBox, fun _ _ hmove => by cases hmove⟩
  · exact ⟨hrow'.cursorBox, fun _ _ hmove => by cases hmove⟩
  · exact fun call hmem => absurd hmem List.not_mem_nil

/-- Every input keeps the conditions. -/
theorem damageInv_keeps : Keeps Terminal.step (fun _ _ => True) DamageInv := by
  rintro t (⟨m, key⟩ | _) t' h - hs
  · obtain ⟨⟨t'', area⟩, heq, rfl⟩ := Option.map_eq_some_iff.mp hs
    exact h.inputKey heq
  · cases hs
    refine ⟨h.editor.congr ⟨rfl, rfl, rfl, rfl⟩ h.editor.y_nonneg h.editor.y_lt, h.column, ?_⟩
    show ∀ call ∈ t.drawn ++ [_], _
    rw [List.forall_mem_append]
    refine ⟨h.fits, fun call hmem => ?_⟩
    rw [List.mem_singleton.mp hmem]
    exact ⟨h.inRow.cursorBox, fun _ _ hmove => by cases hmove⟩

/-- Everything drawn so far fits into the window. -/
theorem DamageInv.window (h : DamageInv t) (font : Font) (format : PixelFormat) :
    ∃ w, t.window? font format = some w ∧ IsTerminalWindow w := by
  obtain ⟨w₀, hnew, hw₀⟩ := newWindow?_spec font format
  obtain ⟨w, hdraw, hframe, -⟩ := DrawCall.performAll_spec font (w := w₀) fun call hmem =>
    hw₀.bounds ▸ h.fits call hmem
  refine ⟨w, ?_, hw₀.of_sameFrame hframe⟩
  unfold Terminal.window?
  rw [hnew]
  exact hdraw

/-! ## When the rectangle is complete -/

/-- What an arrow key relies on if it shows a line of `n` characters: a cursor to the left or to the
right of the columns it redraws is not visible, and one that it will draw to the right of them is
there already. -/
structure Terminal.RecallCovered (t : Terminal) (w : Window) (n : Nat) : Prop where
  left : t.cursor.x = 0 → w.Shows t.cursorBox kTerminalColor
  right : t.cursor.x = kColumns → (n : Int) + 1 ≠ kColumns → w.Shows t.cursorBox kTerminalColor
  full : (n : Int) + 1 = kColumns → w.Shows
    ({ t with cursor := ⟨kColumns, t.cursor.y⟩ } : Terminal).cursorBox kCursorColor

/-- The rectangle for the key will be complete: the part of the cursor's box to the right of the
inner area is not visible before an Enter, and an arrow key relies on `RecallCovered`. -/
structure Terminal.Covered (t : Terminal) (w : Window) (key : Key) : Prop where
  enter : key.ascii = 0x0a → ∀ p, t.cursorBox.Contains p →
    innerArea.pos.x + innerArea.size.x ≤ p.x → w.ink p = some kTerminalColor
  arrow : ∀ direction line, arrowDirection key = some direction →
    t.shownLine direction = some line → t.RecallCovered w line.length

/-- The pixels of the cursor. -/
theorem contains_cursorBox {p : Vector2D} : t.cursorBox.Contains p ↔
    8 + 8 * t.cursor.x ≤ p.x ∧ p.x < 15 + 8 * t.cursor.x ∧
      28 + 16 * t.cursor.y ≤ p.y ∧ p.y < 43 + 16 * t.cursor.y := by
  unfold Terminal.cursorBox Rectangle.Contains calcCursorPos kTopLeftMargin
  simp only [Vector2D.add_x, Vector2D.add_y]
  omega

/-- The pixels of the line, behind the prompt. -/
theorem contains_lineArea {p : Vector2D} : t.lineArea.Contains p ↔
    16 ≤ p.x ∧ p.x < 488 ∧ 28 + 16 * t.cursor.y ≤ p.y ∧ p.y < 44 + 16 * t.cursor.y := by
  unfold Terminal.lineArea Rectangle.Contains calcCursorPos kTopLeftMargin
  simp only [Vector2D.add_x, Vector2D.add_y, kColumns]
  omega

/-- The cursor's box is in the inner area but for three columns of pixels. -/
theorem Terminal.InRow.contains_innerArea (h : t.InRow) {p : Vector2D} (hp : t.cursorBox.Contains p) :
    innerArea.Contains p ↔ p.x < innerArea.pos.x + innerArea.size.x := by
  obtain ⟨hx₀, hx, hy₀, hy⟩ := h
  rw [contains_cursorBox] at hp
  unfold Rectangle.Contains innerArea innerSize kTopLeftMargin
  simp only [kColumns, kRows] at hx hy ⊢
  omega

/-- Outside of the rectangle, the window shows the cursor where it is now and the background where it
has been. -/
def ShowsOutside (w : Window) (t t' : Terminal) (area : Rectangle) : Prop :=
  ∀ p, ¬area.Contains p → (t'.cursorBox.Contains p → w.ink p = some kCursorColor) ∧
    (t.cursorBox.Contains p → ¬t'.cursorBox.Contains p → w.ink p = some kTerminalColor)

/-- An Enter leaves the box of the cursor to the right of the inner area. -/
theorem covered_iff_of_enter {w : Window} (h : t.InRow) (isEnter : key.ascii = 0x0a)
    (grid : t'.InGrid) : ShowsOutside w t t' innerArea ↔ t.Covered w key := by
  have hafter : t'.cursorBox.Within innerArea := (cursorBox_within_cell t').trans grid.cell
  have hno : arrowDirection key = none := by
    unfold arrowDirection
    rw [if_pos (by rw [isEnter]; decide)]
  constructor
  · intro hall
    refine ⟨fun _ p hp hright => ?_, fun direction line hsome => ?_⟩
    · have hout : ¬innerArea.Contains p := by
        rw [h.contains_innerArea hp]
        omega
      exact (hall p hout).2 hp fun hp' => hout (hafter.contains hp')
    · rw [hno] at hsome
      cases hsome
  · intro hcovered p hout
    refine ⟨fun hp' => absurd (hafter.contains hp') hout, fun hp _ => ?_⟩
    rw [h.contains_innerArea hp] at hout
    exact hcovered.enter isEnter p hp (by omega)

/-- A key that changes a cell has both boxes of the cursor in its rectangle. -/
theorem covered_iff_of_cell {w : Window} (notEnter : key.ascii ≠ 0x0a)
    (notArrow : arrowDirection key = none) (before : t.cursorBox.Within area)
    (after : t'.cursorBox.Within area) : ShowsOutside w t t' area ↔ t.Covered w key := by
  constructor
  · intro _
    refine ⟨fun isEnter => absurd isEnter notEnter, fun direction line hsome => ?_⟩
    rw [notArrow] at hsome
    cases hsome
  · intro _ p hout
    exact ⟨fun hp' => absurd (after.contains hp') hout,
      fun hp _ => absurd (before.contains hp) hout⟩

/-- An arrow key is not the enter key. -/
theorem ascii_ne_of_arrow {direction : Int} (isArrow : arrowDirection key = some direction) :
    key.ascii ≠ 0x0a := by
  intro isEnter
  unfold arrowDirection at isArrow
  rw [if_pos (by rw [isEnter]; decide)] at isArrow
  cases isArrow

section Line

/-! An arrow key redraws the columns between the prompt and the last one. -/

variable {w : Window} {direction : Int} {line : List UInt8} (h : t.InRow)
  (isArrow : arrowDirection key = some direction) (shown : t.shownLine direction = some line)
  (hlen : line.length < 60) (cursor : t'.cursor = ⟨line.length + 1, t.cursor.y⟩)
include h isArrow shown hlen cursor

/-- The boxes of the old and of the new cursor outside of these columns must show already. -/
theorem covered_of_line (hall : ShowsOutside w t t' t.lineArea) : t.Covered w key := by
  obtain ⟨hx₀, hx, hy₀, hy⟩ := h
  simp only [kColumns] at hx
  refine ⟨fun isEnter => absurd isEnter (ascii_ne_of_arrow isArrow),
    fun direction' line' hsome hline => ?_⟩
  rw [isArrow, Option.some.injEq] at hsome
  subst hsome
  rw [shown, Option.some.injEq] at hline
  subst hline
  refine ⟨fun hleft p hp => ?_, fun hright hshort p hp => ?_, fun hfull p hp => ?_⟩
  · rw [contains_cursorBox] at hp
    apply (hall p _).2
    · rw [contains_cursorBox]
      omega
    · rw [contains_cursorBox, cursor]
      simp only
      omega
    · rw [contains_lineArea]
      omega
  · rw [contains_cursorBox] at hp
    simp only [kColumns] at hright hshort
    apply (hall p _).2
    · rw [contains_cursorBox]
      omega
    · rw [contains_cursorBox, cursor]
      simp only
      omega
    · rw [contains_lineArea]
      omega
  · rw [contains_cursorBox] at hp
    simp only [kColumns] at hfull hp
    apply (hall p _).1
    · rw [contains_cursorBox, cursor]
      simp only
      omega
    · rw [contains_lineArea]
      omega

/-- And if they do, nothing outside of the columns is missed. -/
theorem showsOutside_of_line (hcovered : t.Covered w key) : ShowsOutside w t t' t.lineArea := by
  obtain ⟨hx₀, hx, hy₀, hy⟩ := h
  simp only [kColumns] at hx
  intro p hout
  obtain ⟨hleft, hright, hfull⟩ := hcovered.arrow direction line isArrow shown
  rw [contains_lineArea] at hout
  simp only [kColumns] at hright hfull
  constructor
  · intro hp
    rw [contains_cursorBox, cursor] at hp
    simp only at hp
    apply hfull (by omega) p
    rw [contains_cursorBox]
    simp only
    omega
  · intro hp hp'
    have hbox := contains_cursorBox.mp hp
    rw [contains_cursorBox, cursor] at hp'
    simp only at hp'
    rcases Int.lt_or_le 0 t.cursor.x with hpos | hzero
    · exact hright (by omega) (by omega) p hp
    · exact hleft (by omega) p hp

/-- For a key that rewrites the line, the rectangle of the line is complete exactly under the
condition. -/
theorem covered_iff_of_line : ShowsOutside w t t' t.lineArea ↔ t.Covered w key :=
  ⟨covered_of_line h isArrow shown hlen cursor, showsOutside_of_line h isArrow shown hlen cursor⟩

end Line

/-- **The condition, key by key.** -/
theorem covered_iff {w : Window} (h : t.InRow) (hd : Damage t key t' area)
    (hlines : ∀ direction line, t.shownLine direction = some line → line.length < 60) :
    ShowsOutside w t t' area ↔ t.Covered w key := by
  cases hd with
  | enter isEnter area grid =>
      subst area
      exact covered_iff_of_enter h isEnter grid
  | cell notEnter notArrow before after =>
      exact covered_iff_of_cell notEnter notArrow before after
  | line direction line isArrow shown area cursor =>
      subst area
      exact covered_iff_of_line h isArrow shown (hlines direction line shown) cursor

/-- The rectangle of a key that is pressed in a state of the invariant. -/
theorem DamageInv.changedWithin_iff (h : DamageInv t) (font : Font) (format : PixelFormat)
    (heq : t.inputKey m key = some (t', area)) :
    ∃ w w', t.window? font format = some w ∧ t'.window? font format = some w' ∧
      (w.ChangedWithin w' area ↔ t.Covered w key) := by
  obtain ⟨w, hw, hterminal⟩ := h.window font format
  obtain ⟨calls, hdrawn, hall, hdamage⟩ := inputKey_drew h heq
  obtain ⟨w', hperform, hiff⟩ := UhyokOS.changedWithin_iff font hterminal h.inRow.cursorBox
    (h.inputKey heq).inRow.cursorBox hall
  refine ⟨w, w', hw, ?_, hiff.trans (covered_iff h.inRow hdamage h.shownLine_lt)⟩
  unfold Terminal.window? at hw ⊢
  obtain ⟨w₀, hnew, hdraw⟩ := Option.bind_eq_some_iff.mp hw
  rw [hnew, Option.bind_some, hdrawn, DrawCall.performAll_append, hdraw]
  exact hperform

/-- The rectangle has a size. -/
theorem Terminal.Damage.proper (h : Damage t key t' area) : area.Proper := by
  cases h with
  | enter isEnter area grid =>
      subst area
      constructor <;> decide
  | line direction line isArrow shown area cursor =>
      subst area
      have hwidth : (0 : Int) ≤ 8 * (kColumns - 1) := by decide
      exact ⟨hwidth, Int.natCast_nonneg 16⟩
  | cell notEnter notArrow before after =>
      obtain ⟨hleft, hright, htop, hbottom⟩ := before
      unfold Terminal.cursorBox at hleft hright htop hbottom
      simp only at hleft hright htop hbottom
      exact ⟨by omega, by omega⟩

/-- **A complete rectangle is enough**: once the terminal's layer is redrawn there, the screen shows
the window. -/
theorem redraw_inputKey {config : FrameBufferConfig} {font : Font} {lm : LayerManager config}
    {id : Nat} {layer : Layer} {w : Window} (h : DamageInv t)
    (heq : t.inputKey m key = some (t', area)) (hcovered : t.Covered w key)
    (hready : LayerManager.Ready font lm fun _ => False) (hdisplayed : lm.Displayed id)
    (hderef : lm.deref (lm.findLayer id) = some layer) (hwindow : layer.window = some w)
    (hterminal : IsTerminalWindow w) (junk : Rectangle) :
    ∃ calls lm', t'.drawn = t.drawn ++ calls ∧
      ((lm.updateWindow id fun w => DrawCall.performAll font w calls).bind fun lm =>
        lm.drawLayerArea id area junk) = some lm' ∧
          LayerManager.Ready font lm' fun _ => False := by
  obtain ⟨calls, hdrawn, hall, hdamage⟩ := inputKey_drew h heq
  obtain ⟨w', hperform, hiff⟩ := changedWithin_iff font hterminal h.inRow.cursorBox
    (h.inputKey heq).inRow.cursorBox hall
  have hframe : w.SameFrame w' := by
    have hfits := (h.inputKey heq).fits
    rw [hdrawn, List.forall_mem_append] at hfits
    obtain ⟨w'', hperform', hframe, -⟩ := DrawCall.performAll_spec font fun call hmem =>
      hterminal.bounds ▸ hfits.2 call hmem
    rw [hperform] at hperform'
    cases hperform'
    exact hframe
  have hchanged := hiff.mpr ((covered_iff h.inRow hdamage h.shownLine_lt).mpr hcovered)
  obtain ⟨lm', hredraw, -, hready'⟩ := hready.redrawArea hdisplayed hderef hwindow hterminal.solid
    (f := fun w => DrawCall.performAll font w _) hperform hframe hdamage.proper hchanged junk
  exact ⟨_, lm', hdrawn, hredraw, hready'⟩

/-- A key leaves the cursor on the window. -/
theorem shows_cursorBox {font : Font} {format : PixelFormat} {w' : Window} (h : DamageInv t)
    (heq : t.inputKey m key = some (t', area)) (hw' : t'.window? font format = some w') :
    w'.Shows t'.cursorBox kCursorColor := by
  obtain ⟨w₀, hnew, hw₀⟩ := newWindow?_spec font format
  obtain ⟨calls, hdrawn, -, -⟩ := inputKey_drew h heq
  have hfits := (h.inputKey heq).fits
  unfold Terminal.window? at hw'
  rw [hdrawn, ← List.cons_append, ← List.append_assoc] at hw' hfits
  rw [hnew, Option.bind_some, DrawCall.performAll_append] at hw'
  obtain ⟨w, hbefore, hlast⟩ := Option.bind_eq_some_iff.mp hw'
  obtain ⟨w₁, hbefore', hframe, -⟩ := DrawCall.performAll_spec font fun call hmem =>
    hw₀.bounds ▸ hfits call (List.mem_append_left _ hmem)
  rw [hbefore] at hbefore'
  cases hbefore'
  have hw := hw₀.of_sameFrame hframe
  have hbox : (⟨t'.cursorBox.pos, t'.cursorBox.size⟩ : Rectangle).Within w.bounds := by
    rw [hw.bounds]
    exact (h.inputKey heq).inRow.cursorBox
  obtain ⟨w'', hfill, -, hink⟩ := DrawCall.fill_spec font kCursorColor hw.solid hbox
  rw [DrawCall.performAll_cons, hfill] at hlast
  cases hlast
  intro p hp
  rw [hink p, if_pos hp]

/-- **The rectangle is complete, exactly.** In every state that is reached with a history of eight
entries, for every key. -/
theorem inputKey_changedWithin_iff (font : Font) (format : PixelFormat) {n : Nat} (hn : n ≤ 8)
    (hr : Reachable Terminal.step (fun _ _ => True) (constructed n) t)
    (hsized : t.cmdHistory.length = 8) (m : Machine) (key : Key) :
    ∃ w t' area w', t.window? font format = some w ∧ t.inputKey m key = some (t', area) ∧
      t'.window? font format = some w' ∧ (w.ChangedWithin w' area ↔ t.Covered w key) := by
  have h : DamageInv t := hr.invariant_of_keeps (damageInv_constructed hn) damageInv_keeps
  have hsome : t.cmdHistory ≠ [] := by
    intro hempty
    rw [hempty] at hsized
    cases hsized
  obtain ⟨t', area, heq, -⟩ : ∃ t' area, t.inputKey m key = some (t', area) ∧ _ :=
    inputKey_spec h.editor (by decide) h.typed_lt (fun _ _ => hsome) m
  obtain ⟨w, w', hw, hw', hiff⟩ := h.changedWithin_iff font format heq
  exact ⟨w, t', area, w', hw, heq, hw', hiff⟩

/-- The up arrow. -/
def upKey : Key := { modifier := 0, keycode := 0x52, ascii := 0 }

/-- The backspace key. -/
def eraseKey : Key := { modifier := 0, keycode := 0x2a, ascii := 0x08 }

/-- The line of the example is empty. -/
theorem sizedTerminal_shownLine : sizedTerminal.shownLine 1 = some [] := by decide

/-- On a new terminal the up arrow shows an empty line; the cursor stays behind the prompt. -/
theorem inputKey_changedWithin_iff_upKey : ∃ w t' area w',
    sizedTerminal.window? LayerSystem.noFont .kPixelRGBResv8BitPerColor = some w ∧
      sizedTerminal.inputKey emptyMachine upKey = some (t', area) ∧
        t'.window? LayerSystem.noFont .kPixelRGBResv8BitPerColor = some w' ∧
          w.ChangedWithin w' area := by
  obtain ⟨w, t', area, w', hw, heq, hw', hiff⟩ := inputKey_changedWithin_iff LayerSystem.noFont
    .kPixelRGBResv8BitPerColor (Nat.le_refl 8) .init (by decide) emptyMachine upKey
  refine ⟨w, t', area, w', hw, heq, hw', hiff.mpr ⟨fun hnl => absurd hnl (by decide), ?_⟩⟩
  intro direction line harrow hline
  have hup : arrowDirection upKey = some 1 := by decide
  rw [hup, Option.some.injEq] at harrow
  subst harrow
  have hempty : line = [] := Option.some.inj (hline.symm.trans sizedTerminal_shownLine)
  subst hempty
  refine ⟨fun hleft => ?_, fun hright => ?_, fun hfull => absurd hfull (by decide)⟩
  · exact absurd hleft (by decide)
  · exact absurd hright (by decide)

/-- **After a backspace in an empty line, an arrow key leaves the old cursor on the screen.** -/
theorem inputKey_not_changedWithin :
    ¬∀ (font : Font) (format : PixelFormat) (n : Nat) (t : Terminal) (m : Machine) (key : Key),
      n ≤ 8 → Reachable Terminal.step (fun _ _ => True) (constructed n) t →
        t.cmdHistory.length = 8 →
          ∃ w t' area w', t.window? font format = some w ∧ t.inputKey m key = some (t', area) ∧
            t'.window? font format = some w' ∧ w.ChangedWithin w' area := by
  intro hall
  have hdefined : (sizedTerminal.inputKey emptyMachine eraseKey).isSome = true := by decide
  obtain ⟨⟨t, area₀⟩, hback⟩ := Option.isSome_iff_exists.mp hdefined
  have hafter : ∀ u ∈ (sizedTerminal.inputKey emptyMachine eraseKey).map Prod.fst,
      u.cursor = ⟨0, 0⟩ ∧ u.cmdHistory.length = 8 ∧ u.shownLine 1 = some [] := by decide
  obtain ⟨hcursor, hsized, hshown⟩ := hafter t (by rw [hback]; rfl)
  have hstep : sizedTerminal.step (.inputKey emptyMachine eraseKey) = some t := by
    have hmap : (sizedTerminal.inputKey emptyMachine eraseKey).map Prod.fst = some t := by
      rw [hback]
      rfl
    exact hmap
  have hr : Reachable Terminal.step (fun _ _ => True) (constructed 8) t :=
    .step .init trivial hstep
  have hinv₀ : DamageInv sizedTerminal := damageInv_constructed (Nat.le_refl 8)
  have hinv : DamageInv t := hinv₀.inputKey hback
  obtain ⟨w, t', area, w', hw, heq, hw', hchanged⟩ := hall LayerSystem.noFont
    .kPixelRGBResv8BitPerColor 8 t emptyMachine upKey (Nat.le_refl 8) hr hsized
  obtain ⟨w₁, w₁', hw₁, hw₁', hiff⟩ := hinv.changedWithin_iff LayerSystem.noFont
    .kPixelRGBResv8BitPerColor heq
  rw [hw, Option.some.injEq] at hw₁
  rw [hw', Option.some.injEq] at hw₁'
  subst hw₁ hw₁'
  -- the cursor is on the prompt's cell, to the left of the rectangle
  have hblank := ((hiff.mp hchanged).arrow 1 [] (by decide) hshown).left (by rw [hcursor])
  have hcursorColor := shows_cursorBox hinv₀ hback hw
  have hp : t.cursorBox.Contains ⟨8, 28⟩ := by
    rw [contains_cursorBox, hcursor]
    decide
  have hsame := (hblank _ hp).symm.trans (hcursorColor _ hp)
  exact absurd (Option.some.inj hsame) (by decide)

end UhyokOS
