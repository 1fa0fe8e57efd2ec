import UhyokOS.Terminal.Window
import UhyokOS.Terminal.Lines
import UhyokOS.Lib.TextLayout

/-!
# The terminal as a screen of text

`Print` draws characters into the cells of the window and scrolls by moving its pixels, and keeps no
text. Still the shadow buffer always shows a screen of text: each cell the glyph of its character on
the background, with the cursor on the empty cell after the text.

* `printChar_grid`: a character does to the window what it does to the screen of text.
* `print_shows_layout`: so what was printed on a cleared terminal is on display, laid out in rows.
-/

namespace UhyokOS

open DrawCall

namespace Terminal

variable {font : Font} {t t' : Terminal} {w w' : Window} {d : Vector2D}

/-- The text on the terminal. -/
abbrev Screen := TextScreen UInt8 kRows.toNat kColumns.toNat

/-- The upper left corner of a cell. -/
def gridCell (row column : Nat) : Vector2D := kTopLeftMargin + ⟨4 + 8 * column, 4 + 16 * row⟩

/-- The pixels of the cells. -/
def gridArea : Rectangle := ⟨kTopLeftMargin + ⟨4, 4⟩, ⟨8 * kColumns, 16 * kRows⟩⟩

/-- The pixels of the cursor in its cell. -/
def cursorShape : Rectangle := ⟨⟨0, 0⟩, ⟨7, 15⟩⟩

/-- The colour of a pixel of a cell. -/
def cellColor (font : Font) (c : Option UInt8) (d : Vector2D) : PixelColor :=
  match c with
  | none => kTerminalColor
  | some c => if font.lit c d = true then kTextColor else kTerminalColor

/-- The calls between two states turn the one window into the other. -/
def Draws (font : Font) (t : Terminal) (w : Window) (t' : Terminal) (w' : Window) : Prop :=
  ∃ calls, t'.drawn = t.drawn ++ calls ∧ performAll font w calls = some w'

theorem Draws.of_eq (h : t'.drawn = t.drawn) : Draws font t w t' w :=
  ⟨[], h.trans (List.append_nil _).symm, rfl⟩

theorem Draws.one {call : DrawCall} (h : t'.drawn = t.drawn ++ [call])
    (hperform : perform font w call = some w') : Draws font t w t' w' := by
  refine ⟨[call], h, ?_⟩
  rw [performAll_cons, hperform]
  rfl

theorem Draws.trans {t'' : Terminal} {w'' : Window} (h : Draws font t w t' w')
    (h' : Draws font t' w' t'' w'') : Draws font t w t'' w'' := by
  obtain ⟨calls, hdrawn, hperform⟩ := h
  obtain ⟨calls', hdrawn', hperform'⟩ := h'
  refine ⟨calls ++ calls', ?_, ?_⟩
  · rw [hdrawn', hdrawn, List.append_assoc]
  · rw [performAll_append, hperform]
    exact hperform'

/-- The window shows a screen of text, with the cursor or without it. -/
structure Grid (font : Font) (visible : Bool) (w : Window) (s : Screen) : Prop where
  window : IsTerminalWindow w
  pixels : ∀ (row : Fin kRows.toNat) (column : Fin kColumns.toNat) (d : Vector2D),
    cellBox.Contains d → w.shadowBuffer.pixel (gridCell row column + d) =
      if visible = true ∧ row = s.row ∧ column.val = s.column ∧ cursorShape.Contains d then
        toColor 0xa47fff
      else cellColor font (s.cell row column) d

/-- The cursor is where the screen is written to. -/
def AtEnd (t : Terminal) (s : Screen) : Prop := t.cursor = ⟨s.column, s.row⟩

/-! ## The pixels of the cells -/

variable {s : Screen} {row : Fin kRows.toNat} {column : Fin kColumns.toNat}

/-- The pixels of a cell are in the grid. -/
theorem contains_gridCell (row : Fin kRows.toNat) (column : Fin kColumns.toNat)
    (hd : cellBox.Contains d) : gridArea.Contains (gridCell row column + d) := by
  have hrow : row.val < 15 := row.isLt
  have hcolumn : column.val < 60 := column.isLt
  unfold cellBox Rectangle.Contains at hd
  unfold gridArea gridCell kTopLeftMargin Rectangle.Contains
  simp only [Vector2D.add_x, Vector2D.add_y, kRows, kColumns] at hd ⊢
  omega

theorem gridArea_within : gridArea.Within terminalBounds := by decide

/-- Cells do not overlap. -/
theorem contains_cell_iff {size : Vector2D} (hwidth : size.x ≤ 8) (hheight : size.y ≤ 16)
    (hd : cellBox.Contains d) (row' column' : Nat) :
    (⟨gridCell row' column', size⟩ : Rectangle).Contains (gridCell row column + d) ↔
      row.val = row' ∧ column.val = column' ∧ (⟨⟨0, 0⟩, size⟩ : Rectangle).Contains d := by
  unfold cellBox Rectangle.Contains at *
  unfold gridCell kTopLeftMargin
  simp only [Vector2D.add_x, Vector2D.add_y] at hd ⊢
  omega

/-- The cursor's cell. -/
theorem AtEnd.calcCursorPos (h : t.AtEnd s) : t.calcCursorPos = gridCell s.row s.column := by
  unfold Terminal.calcCursorPos gridCell
  rw [h]

/-- A filled rectangle, in the shadow buffer. -/
theorem fill_pixels (font : Font) (hw : IsTerminalWindow w) {inner : Bool} {pos size : Vector2D}
    {c : PixelColor}
    (hin : (DrawCall.fillRectangle inner pos size c).area.Within terminalBounds) :
    ∃ w', perform font w (.fillRectangle inner pos size c) = some w' ∧ IsTerminalWindow w' ∧
      ∀ p, terminalBounds.Contains p → w'.shadowBuffer.pixel p =
        if (DrawCall.fillRectangle inner pos size c).area.Contains p then c
        else w.shadowBuffer.pixel p := by
  have hmem : ∀ p, p ∈ ((DrawCall.fillRectangle inner pos size c).writes font).map Prod.fst ↔
      (DrawCall.fillRectangle inner pos size c).area.Contains p := by
    intro p
    refine ⟨contains_of_mem_writes, fun hp => ?_⟩
    unfold DrawCall.writes
    cases inner with
    | false => exact mem_fillRectangle.mpr hp
    | true =>
        have hshift : (⟨pos, size⟩ : Rectangle).Contains (p - kTopLeftMargin) := by
          unfold DrawCall.area Rectangle.Contains at hp
          unfold Rectangle.Contains
          simp only [if_true, Vector2D.add_x, Vector2D.add_y, Vector2D.sub_x, Vector2D.sub_y] at *
          omega
        have hfill : p - kTopLeftMargin ∈ (UhyokOS.fillRectangle pos size c).map Prod.fst :=
          mem_fillRectangle.mpr hshift
        obtain ⟨write, hwrite, hpos⟩ := List.mem_map.mp hfill
        refine List.mem_map.mpr ⟨(write.1 + kTopLeftMargin, write.2), ?_, ?_⟩
        · exact List.mem_map.mpr ⟨write, hwrite, rfl⟩
        · rw [hpos]
          apply Vector2D.ext <;> simp
  have hcolor : ∀ call ∈ (DrawCall.fillRectangle inner pos size c).writes font, call.2 = c := by
    intro call hcall
    unfold DrawCall.writes innerWrites at hcall
    cases inner with
    | false => exact color_fillRectangle call hcall
    | true =>
        obtain ⟨write, hwrite, rfl⟩ := List.mem_map.mp hcall
        exact color_fillRectangle write hwrite
  obtain ⟨w', hdraw, hframe, hpixel⟩ := w.writeAll_color_spec _
    (fun p hp => by
      rw [hw.bounds]
      exact hin.contains ((hmem p).mp hp)) hcolor
  refine ⟨w', hdraw, hw.of_sameFrame hframe, fun p hp => ?_⟩
  rw [hpixel p (by rwa [hw.bounds])]
  simp only [hmem]

/-! ## The cursor -/

/-- **`DrawCursor`** shows or hides the cursor on the empty cell after the text. -/
theorem drawCursor_grid {visible : Bool} (h : Grid font visible w s) (hcursor : t.AtEnd s)
    (hroom : s.column < kColumns.toNat) (visible' : Bool) :
    ∃ w', Draws font t w (t.drawCursor visible') w' ∧ Grid font visible' w' s := by
  have hpos := hcursor.calcCursorPos
  have hin : (DrawCall.fillRectangle false t.calcCursorPos ⟨7, 15⟩
      (if visible' then toColor 0xa47fff else toColor 0xC8B2FF)).area.Within terminalBounds := by
    have hrow : s.row.val < 15 := s.row.isLt
    have hcolumn : s.column < 60 := hroom
    show (⟨t.calcCursorPos, ⟨7, 15⟩⟩ : Rectangle).Within terminalBounds
    rw [hpos]
    unfold gridCell kTopLeftMargin terminalBounds terminalSize
    constructor <;> simp only [Vector2D.add_x, Vector2D.add_y, kRows, kColumns] <;> omega
  obtain ⟨w', hperform, hwindow, hpixel⟩ := fill_pixels font h.window hin
  refine ⟨w', .one rfl hperform, hwindow, fun row column d hd => ?_⟩
  rw [hpixel _ (gridArea_within.contains (contains_gridCell row column hd)), h.pixels row column d hd]
  have hbox : (DrawCall.fillRectangle false t.calcCursorPos ⟨7, 15⟩
      (if visible' then toColor 0xa47fff else toColor 0xC8B2FF)).area.Contains
        (gridCell row column + d) ↔
      row = s.row ∧ column.val = s.column ∧ cursorShape.Contains d := by
    unfold DrawCall.area
    rw [hpos, Fin.ext_iff]
    exact contains_cell_iff (by decide) (by decide) hd _ _
  by_cases hcell : row = s.row ∧ column.val = s.column ∧ cursorShape.Contains d
  · rw [if_pos (hbox.mpr hcell)]
    cases visible' with
    | true => exact (if_pos ⟨rfl, hcell⟩).symm
    | false =>
        -- the cell of the cursor is empty
        show toColor 0xC8B2FF = _
        rw [if_neg fun hvisible => absurd hvisible.1 (by decide), hcell.1, hcell.2.1,
          TextScreen.cell_column]
        rfl
  · rw [if_neg fun hin => hcell (hbox.mp hin), if_neg fun hv => hcell hv.2,
      if_neg fun hv => hcell hv.2]

/-! ## Characters -/

/-- The colour of a cell while the cursor is hidden. -/
theorem Grid.hidden (h : Grid font false w s) (row : Fin kRows.toNat) (column : Fin kColumns.toNat)
    (hd : cellBox.Contains d) :
    w.shadowBuffer.pixel (gridCell row column + d) = cellColor font (s.cell row column) d := by
  rw [h.pixels row column d hd, if_neg fun hvisible => absurd hvisible.1 (by decide)]

theorem grid_of_hidden (hw : IsTerminalWindow w)
    (h : ∀ (row : Fin kRows.toNat) (column : Fin kColumns.toNat) (d : Vector2D),
      cellBox.Contains d →
        w.shadowBuffer.pixel (gridCell row column + d) = cellColor font (s.cell row column) d) :
    Grid font false w s := by
  refine ⟨hw, fun row column d hd => ?_⟩
  rw [if_neg fun hvisible => absurd hvisible.1 (by decide)]
  exact h row column d hd

/-- **A character** is drawn on its empty cell. -/
theorem put_grid (h : Grid font false w s) (hcursor : t.AtEnd s)
    (hroom : s.column < kColumns.toNat) (c : UInt8) :
    ∃ w', Draws font t w (t.draw (.writeAscii t.calcCursorPos c kTextColor)) w' ∧
      Grid font false w' (s.put c) := by
  have hpos := hcursor.calcCursorPos
  have hbounds : ∀ p, p ∈ (writeAscii font t.calcCursorPos c kTextColor).map Prod.fst →
      w.bounds.Contains p := by
    intro p hp
    have hbox := (mem_writeAscii.mp hp).1
    have hin := contains_gridCell s.row ⟨s.column, hroom⟩ hbox
    rw [h.window.bounds]
    apply gridArea_within.contains
    rwa [← hpos, Vector2D.add_sub_cancel] at hin
  obtain ⟨w', hdraw, hframe, hpixel⟩ := w.writeAll_color_spec _ hbounds color_writeAscii
  refine ⟨w', .one rfl hdraw, grid_of_hidden (h.window.of_sameFrame hframe) ?_⟩
  intro row column d hd
  have hp : w.bounds.Contains (gridCell row column + d) := by
    rw [h.window.bounds]
    exact gridArea_within.contains (contains_gridCell row column hd)
  have hcell : cellBox.Contains (gridCell row column + d - t.calcCursorPos) ↔
      row = s.row ∧ column.val = s.column := by
    rw [hpos, cellBox, Rectangle.contains_sub, contains_cell_iff (by decide) (by decide) hd,
      Fin.ext_iff]
    exact ⟨fun hin => ⟨hin.1, hin.2.1⟩, fun hin => ⟨hin.1, hin.2, hd⟩⟩
  rw [hpixel _ hp, h.hidden row column hd, TextScreen.cell_put hroom]
  simp only [mem_writeAscii, hcell]
  by_cases hsame : row = s.row ∧ column.val = s.column
  · have hoffset : gridCell row column + d - t.calcCursorPos = d := by
      rw [hpos, hsame.1, hsame.2, Vector2D.add_sub_cancel_left]
    rw [if_pos hsame, hoffset, hsame.1, hsame.2, TextScreen.cell_column]
    simp only [and_self, true_and]
    rfl
  · rw [if_neg hsame, if_neg fun hlit => hsame hlit.1]

/-- The area that is moved up. -/
def scrolledArea : Rectangle := ⟨kTopLeftMargin + ⟨4, 4 + 16⟩, ⟨8 * kColumns, 16 * (kRows - 1)⟩⟩

/-- The last row. -/
def lastRow : Rectangle := ⟨kTopLeftMargin + ⟨4, 4 + 16 * 14⟩, ⟨8 * kColumns, 16⟩⟩

/-- When the pixels are moved, a pixel of a cell comes from the row below; there is none below the
last one, which is filled. -/
theorem gridCell_scrolled (row : Fin kRows.toNat) (column : Fin kColumns.toNat)
    (hd : cellBox.Contains d) :
    (row.val + 1 < kRows.toNat → ¬lastRow.Contains (gridCell row column + d) ∧
      (⟨kTopLeftMargin + ⟨4, 4⟩, scrolledArea.size⟩ : Rectangle).Contains
        (gridCell row column + d) ∧
      scrolledArea.pos + (gridCell row column + d - (kTopLeftMargin + ⟨4, 4⟩)) =
        gridCell (row.val + 1) column + d) ∧
    (¬row.val + 1 < kRows.toNat → lastRow.Contains (gridCell row column + d)) := by
  have hrow : row.val < 15 := row.isLt
  have hcolumn : column.val < 60 := column.isLt
  have hheight : kRows.toNat = 15 := rfl
  unfold cellBox Rectangle.Contains at hd
  refine ⟨fun hr => ⟨?_, ?_, ?_⟩, fun hr => ?_⟩
  · unfold gridCell lastRow kTopLeftMargin Rectangle.Contains
    simp only [Vector2D.add_x, Vector2D.add_y] at hd ⊢
    omega
  · unfold gridCell scrolledArea kTopLeftMargin Rectangle.Contains
    simp only [Vector2D.add_x, Vector2D.add_y, kRows, kColumns] at hd ⊢
    omega
  · unfold gridCell scrolledArea kTopLeftMargin
    apply Vector2D.ext
    · simp only [Vector2D.add_x, Vector2D.sub_x]
      omega
    · simp only [Vector2D.add_y, Vector2D.sub_y]
      omega
  · unfold gridCell lastRow kTopLeftMargin Rectangle.Contains
    simp only [Vector2D.add_x, Vector2D.add_y, kColumns] at hd ⊢
    omega

/-- **Scrolling** moves every row up and clears the last one. -/
theorem scroll1_grid (h : Grid font false w s) (hlast : ¬s.row.val + 1 < kRows.toNat)
    (hrow : t.cursor.y = 14) :
    ∃ w', Draws font t w t.scroll1 w' ∧ Grid font false w' s.newline := by
  have hin : w.MoveInBounds (kTopLeftMargin + ⟨4, 4⟩) scrolledArea := by
    constructor
    · decide
    · rw [h.window.bounds]
      decide
    · rw [h.window.bounds]
      decide
  obtain ⟨w₁, hmove, hframe, -, hmoved⟩ := Window.move_spec hin fun _ _ hsame => by
    cases hsame
  have hw₁ := h.window.of_sameFrame hframe
  have hlastRow : (DrawCall.fillRectangle true ⟨4, 4 + 16 * 14⟩ ⟨8 * kColumns, 16⟩
      kTerminalColor).area.Within terminalBounds := by decide
  obtain ⟨w', hfill, hw', hfilled⟩ := fill_pixels font hw₁ hlastRow
  refine ⟨w', ?_, grid_of_hidden hw' fun row column d hd => ?_⟩
  · have hscroll : t.scroll1 = (t.draw (.move (kTopLeftMargin + ⟨4, 4⟩) scrolledArea)).draw
        (.fillRectangle true ⟨4, 4 + 16 * 14⟩ ⟨8 * kColumns, 16⟩ kTerminalColor) := by
      unfold scroll1 draw
      simp only [hrow]
      rfl
    have hmoved : Draws font t w
        (t.draw (.move (kTopLeftMargin + ⟨4, 4⟩) scrolledArea)) w₁ := .one rfl hmove
    rw [hscroll]
    exact hmoved.trans (.one rfl hfill)
  · have hp := gridArea_within.contains (contains_gridCell row column hd)
    obtain ⟨hupper, hbottom⟩ := gridCell_scrolled row column hd
    rw [hfilled _ hp, hmoved _ (by rwa [h.window.bounds]), TextScreen.cell_newline_of_last hlast]
    have harea : (DrawCall.fillRectangle true ⟨4, 4 + 16 * 14⟩ ⟨8 * kColumns, 16⟩
        kTerminalColor).area = lastRow := rfl
    rw [harea]
    by_cases hr : row.val + 1 < kRows.toNat
    · obtain ⟨hnot, hmem, hfrom⟩ := hupper hr
      rw [if_neg hnot, if_pos hmem, hfrom, dif_pos hr]
      exact h.hidden ⟨row.val + 1, hr⟩ column hd
    · rw [if_pos (hbottom hr), dif_neg hr]
      rfl

/-- **A new line** goes to the next row or scrolls. -/
theorem newline_grid (h : Grid font false w s) (hrow : t.cursor.y = s.row.val) :
    ∃ w', Draws font t w t.newline w' ∧ Grid font false w' s.newline ∧ t.newline.AtEnd s.newline := by
  have hheight : kRows.toNat = 15 := rfl
  have hlt := s.row.isLt
  unfold newline AtEnd
  simp only [TextScreen.column_newline, kRows, hrow]
  by_cases hnext : s.row.val + 1 < kRows.toNat
  · rw [if_pos (by omega)]
    refine ⟨w, .of_eq rfl, grid_of_hidden h.window fun row column d hd => ?_, ?_⟩
    · rw [TextScreen.cell_newline_of_lt hnext]
      exact h.hidden row column hd
    · rw [TextScreen.row_newline_of_lt hnext]
      rfl
  · rw [if_neg (by omega)]
    obtain ⟨w', hdraws, hgrid⟩ := scroll1_grid (t := { t with cursor := ⟨0, s.row.val⟩ }) h hnext
      (by simp only; omega)
    refine ⟨w', hdraws, hgrid, ?_⟩
    rw [TextScreen.row_newline_of_last hnext]
    rfl

/-- **The step lemma**: a character does to the window what typing it does to the screen of text. -/
theorem printChar_grid (h : Grid font false w s) (hcursor : t.AtEnd s)
    (hroom : s.column < kColumns.toNat) (c : UInt8) :
    ∃ w', Draws font t w (t.printChar c) w' ∧ Grid font false w' (s.type 0x0a c) ∧
      (t.printChar c).AtEnd (s.type 0x0a c) := by
  have hwidth : kColumns.toNat = 60 := rfl
  have hx : t.cursor.x = s.column := by rw [hcursor]
  have hy : t.cursor.y = s.row.val := by rw [hcursor]
  unfold printChar TextScreen.type
  by_cases hend : c = 0x0a
  · rw [if_pos hend, if_pos hend]
    exact newline_grid h hy
  · rw [if_neg hend, if_neg hend]
    obtain ⟨w₁, hdraws, hgrid⟩ := put_grid h hcursor hroom c
    have hrow₁ : (t.draw (.writeAscii t.calcCursorPos c kTextColor)).cursor.y =
        (s.put c).row.val := by
      rw [TextScreen.row_put]
      exact hy
    by_cases hfull : s.column + 1 = kColumns.toNat
    · have hlast : (t.draw (.writeAscii t.calcCursorPos c kTextColor)).cursor.x = kColumns - 1 := by
        show t.cursor.x = _
        rw [hx]
        simp only [kColumns]
        omega
      obtain ⟨w', hdraws', hgrid', hcursor'⟩ := newline_grid hgrid hrow₁
      simp only [if_pos hlast, if_pos hfull]
      exact ⟨w', hdraws.trans hdraws', hgrid', hcursor'⟩
    · have hlast : ¬(t.draw (.writeAscii t.calcCursorPos c kTextColor)).cursor.x = kColumns - 1 := by
        show ¬t.cursor.x = _
        rw [hx]
        simp only [kColumns]
        omega
      simp only [if_neg hlast, if_neg hfull]
      refine ⟨w₁, hdraws, hgrid, ?_⟩
      unfold AtEnd
      rw [TextScreen.column_put hroom, TextScreen.row_put, Int.natCast_succ, ← hx, ← hy]
      rfl

/-! ## Strings -/

/-- The loop of `Print`, by induction on the string. -/
theorem foldl_printChar_grid (h : Grid font false w s) (hcursor : t.AtEnd s)
    (hroom : s.column < kColumns.toNat) (str : List UInt8) :
    ∃ w', Draws font t w (str.foldl printChar t) w' ∧ Grid font false w' (s.typeAll 0x0a str) ∧
      (str.foldl printChar t).AtEnd (s.typeAll 0x0a str) := by
  induction str generalizing t w s with
  | nil => exact ⟨w, .of_eq rfl, h, hcursor⟩
  | cons c str ih =>
      obtain ⟨w₁, hdraws₁, hgrid₁, hcursor₁⟩ := printChar_grid h hcursor hroom c
      obtain ⟨w', hdraws, hgrid, hend⟩ := ih hgrid₁ hcursor₁ (TextScreen.column_type hroom 0x0a c)
      exact ⟨w', hdraws₁.trans hdraws, hgrid, hend⟩

/-- **`Print`** types the string and leaves the cursor visible. -/
theorem print_grid {visible : Bool} (h : Grid font visible w s) (hcursor : t.AtEnd s)
    (hroom : s.column < kColumns.toNat) (str : List UInt8) :
    ∃ w', Draws font t w (t.print str) w' ∧ Grid font true w' (s.typeAll 0x0a str) ∧
      (t.print str).AtEnd (s.typeAll 0x0a str) := by
  obtain ⟨w₁, hhide, hgrid₁⟩ := drawCursor_grid h hcursor hroom false
  have hcursor₁ : (t.drawCursor false).AtEnd s := hcursor
  obtain ⟨w₂, hloop, hgrid₂, hend⟩ := foldl_printChar_grid hgrid₁ hcursor₁ hroom str
  obtain ⟨w', hshow, hgrid⟩ := drawCursor_grid hgrid₂ hend
    (TextScreen.column_typeAll hroom 0x0a str) true
  exact ⟨w', (hhide.trans hloop).trans hshow, hgrid, hend⟩

/-- A sequence of strings, by induction on it. -/
theorem foldl_print_grid {visible : Bool} (h : Grid font visible w s) (hcursor : t.AtEnd s)
    (hroom : s.column < kColumns.toNat) (strings : List (List UInt8)) :
    ∃ w', Draws font t w (strings.foldl print t) w' ∧
      Grid font (visible || !strings.isEmpty) w' (s.typeAll 0x0a strings.flatten) ∧
      (strings.foldl print t).AtEnd (s.typeAll 0x0a strings.flatten) := by
  induction strings generalizing visible t w s with
  | nil =>
      rw [List.isEmpty_nil, Bool.not_true, Bool.or_false]
      exact ⟨w, .of_eq rfl, h, hcursor⟩
  | cons str strings ih =>
      obtain ⟨w₁, hdraws₁, hgrid₁, hcursor₁⟩ := print_grid h hcursor hroom str
      obtain ⟨w', hdraws, hgrid, hend⟩ := ih hgrid₁ hcursor₁
        (TextScreen.column_typeAll hroom 0x0a str)
      rw [Bool.true_or, ← TextScreen.typeAll_append, ← List.flatten_cons] at hgrid
      rw [← TextScreen.typeAll_append, ← List.flatten_cons] at hend
      rw [List.isEmpty_cons, Bool.not_false, Bool.or_true]
      exact ⟨w', hdraws₁.trans hdraws, hgrid, hend⟩

/-! ## The layout -/

/-- No text and no cursor in the cells. -/
def Cleared (w : Window) : Prop :=
  ∀ p, gridArea.Contains p → w.shadowBuffer.pixel p = kTerminalColor

/-- The shadow buffer shows the last rows of a text that is laid out, and the cursor is at its end. If
the cursor is visible, it is on the cell where the text continues. -/
structure ShowsLayout (font : Font) (visible : Bool) (w : Window) (t : Terminal)
    (laid : List (List UInt8)) : Prop where
  pixels : ∀ (row : Fin kRows.toNat) (column : Fin kColumns.toNat) (d : Vector2D),
    cellBox.Contains d → w.shadowBuffer.pixel (gridCell row column + d) =
      if visible = true ∧ t.cursor = ⟨column, row⟩ ∧ cursorShape.Contains d then toColor 0xa47fff
      else cellColor font ((lastRows kRows.toNat laid).getD row [])[column.val]? d
  cursor : t.cursor =
    ⟨((lastRows kRows.toNat laid).getLastD []).length, (lastRows kRows.toNat laid).length - 1⟩

/-- The screen of text, read off the layout. -/
theorem showsLayout_of_grid {visible : Bool} {done : List (List UInt8)} {line : List UInt8}
    (h : Grid font visible w s) (hcursor : t.AtEnd s) (hlaid : s.Holds (done ++ [line])) :
    ShowsLayout font visible w t (done ++ [line]) := by
  refine ⟨fun row column d hd => ?_, ?_⟩
  · have hcell : t.cursor = ⟨column, row⟩ ↔ row = s.row ∧ column.val = s.column := by
      rw [hcursor, Vector2D.ext_iff, Fin.ext_iff]
      simp only
      omega
    rw [h.pixels row column d hd, hlaid.cell]
    simp only [hcell, and_assoc]
  · have hrow := hlaid.row
    rw [hcursor, getLastD_lastRows (by decide), hlaid.column, length_lastRows, ← hrow]
    simp

/-- Every pixel of the grid is one of a cell. -/
theorem exists_gridCell {p : Vector2D} (hp : gridArea.Contains p) :
    ∃ (row : Fin kRows.toNat) (column : Fin kColumns.toNat) (d : Vector2D), cellBox.Contains d ∧
      gridCell row column + d = p := by
  unfold gridArea kTopLeftMargin Rectangle.Contains at hp
  simp only [Vector2D.add_x, Vector2D.add_y, kRows, kColumns] at hp
  have hrow : ((p.y - 28) / 16).toNat < 15 := by omega
  have hcolumn : ((p.x - 8) / 8).toNat < 60 := by omega
  refine ⟨⟨_, hrow⟩, ⟨_, hcolumn⟩, ⟨(p.x - 8) % 8, (p.y - 28) % 16⟩, ?_, ?_⟩
  · unfold cellBox Rectangle.Contains
    simp only
    omega
  · unfold gridCell kTopLeftMargin
    apply Vector2D.ext <;> simp only [Vector2D.add_x, Vector2D.add_y] <;> omega

/-- The text decides what the cells show. -/
theorem Grid.pixel_eq {visible : Bool} (h : Grid font visible w s) (h' : Grid font visible w' s)
    {p : Vector2D} (hp : gridArea.Contains p) :
    w.shadowBuffer.pixel p = w'.shadowBuffer.pixel p := by
  obtain ⟨row, column, d, hd, rfl⟩ := exists_gridCell hp
  rw [h.pixels row column d hd, h'.pixels row column d hd]

/-- **`Print` is a scrolling screen of text.** From a cleared terminal with the cursor at the top left,
any sequence of strings leaves in the shadow buffer the last rows of their concatenation, laid out by
breaking a row at every newline and after its last column, and the cursor at the end; so printing two
strings is printing their concatenation. -/
theorem print_shows_layout (font : Font) (hw : IsTerminalWindow w) (hclear : Cleared w)
    (hcursor : t.cursor = ⟨0, 0⟩) :
    (∀ strings : List (List UInt8), ∃ w', Draws font t w (strings.foldl print t) w' ∧
      ShowsLayout font (!strings.isEmpty) w' (strings.foldl print t)
        (layout kColumns.toNat 0x0a strings.flatten)) ∧
    ∀ str str' : List UInt8, ((t.print str).print str').cursor = (t.print (str ++ str')).cursor ∧
      ∃ w₁ w₂, Draws font t w ((t.print str).print str') w₁ ∧
        Draws font t w (t.print (str ++ str')) w₂ ∧
        ∀ p, gridArea.Contains p → w₁.shadowBuffer.pixel p = w₂.shadowBuffer.pixel p := by
  have hblank : Grid font false w (TextScreen.blank ⟨0, by decide⟩ : Screen) :=
    grid_of_hidden hw fun row column d hd => hclear _ (contains_gridCell row column hd)
  have hend : t.AtEnd (TextScreen.blank ⟨0, by decide⟩ : Screen) := hcursor
  have hroom : (TextScreen.blank ⟨0, by decide⟩ : Screen).column < kColumns.toNat := by decide
  constructor
  · intro strings
    obtain ⟨w', hdraws, hgrid, hcursor'⟩ := foldl_print_grid hblank hend hroom strings
    have hholds : ((TextScreen.blank ⟨0, by decide⟩ : Screen).typeAll 0x0a strings.flatten).Holds
        (layout kColumns.toNat 0x0a strings.flatten) :=
      TextScreen.holds_layout (by decide) (by decide) 0x0a strings.flatten
    obtain ⟨done, line, hlaid⟩ :=
      exists_last_layoutFrom kColumns.toNat 0x0a [] strings.flatten
    unfold layout at hholds ⊢
    rw [hlaid] at hholds ⊢
    exact ⟨w', hdraws, showsLayout_of_grid hgrid hcursor' hholds⟩
  · intro str str'
    obtain ⟨w₁, hdraws₁, hgrid₁, hcursor₁⟩ := foldl_print_grid hblank hend hroom [str, str']
    obtain ⟨w₂, hdraws₂, hgrid₂, hcursor₂⟩ := foldl_print_grid hblank hend hroom [str ++ str']
    have hsame : [str, str'].flatten = [str ++ str'].flatten := by simp
    rw [hsame] at hgrid₁ hcursor₁
    exact ⟨hcursor₁.trans hcursor₂.symm, w₁, w₂, hdraws₁, hdraws₂, fun p => hgrid₁.pixel_eq hgrid₂⟩

/-- The terminal in its constructor, before the prompt. -/
def beforePrompt : Terminal :=
  ({} : Terminal).draw (.fillRectangle true ⟨0, 0⟩ innerSize (toColor 0xC8B2FF))

/-- **The constructor clears the terminal.** -/
theorem cleared_beforePrompt (font : Font) (format : PixelFormat) :
    ∃ w, window? font format beforePrompt = some w ∧ IsTerminalWindow w ∧ Cleared w := by
  obtain ⟨w₀, hnew, hw₀⟩ := newWindow?_spec font format
  have hin : (DrawCall.fillRectangle true ⟨0, 0⟩ innerSize (toColor 0xC8B2FF)).area.Within
      terminalBounds := by decide
  obtain ⟨w, hfill, hw, hpixel⟩ := fill_pixels font hw₀ hin
  refine ⟨w, ?_, hw, fun p hp => ?_⟩
  · unfold window?
    rw [hnew, Option.bind_some]
    show performAll font w₀ [_] = some w
    rw [performAll_cons, hfill]
    rfl
  · have harea : (DrawCall.fillRectangle true ⟨0, 0⟩ innerSize
        (toColor 0xC8B2FF)).area.Contains p := Rectangle.Within.contains (by decide) hp
    rw [hpixel p (gridArea_within.contains hp), if_pos harea]
    rfl

/-- A font of full blocks. -/
def blockFont : Font := ⟨List.replicate (16 * 128) 0xff, by rw [List.length_replicate]; decide⟩

/-- The constructor prints the prompt. -/
theorem print_shows_layout_prompt :
    ∃ w w', window? blockFont .kPixelRGBResv8BitPerColor beforePrompt = some w ∧
      Draws blockFont beforePrompt w init w' ∧ ShowsLayout blockFont true w' init [[0x3e]] := by
  obtain ⟨w, hwindow, hw, hclear⟩ := cleared_beforePrompt blockFont .kPixelRGBResv8BitPerColor
  obtain ⟨hprint, -⟩ := print_shows_layout (t := beforePrompt) blockFont hw hclear rfl
  obtain ⟨w', hdraws, hshows⟩ := hprint [text ">"]
  have hlaid : layout kColumns.toNat 0x0a [text ">"].flatten = [[0x3e]] := by decide
  rw [hlaid] at hshows
  exact ⟨w, w', hwindow, hdraws, hshows⟩

end Terminal

end UhyokOS
