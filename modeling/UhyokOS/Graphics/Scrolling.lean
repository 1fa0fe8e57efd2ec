import UhyokOS.Graphics.Console

/-!
# What the console shows

The console shows a screen of text: in each of its cells the glyph of a character, on the background
colour.

* `putChar_spec`: with a window and without one, writing a character shows what it does to the
  screen of text.
-/

namespace UhyokOS

open FrameBufferConfig Transition

variable {config : FrameBufferConfig} {font : Font}

/-- The pixels of the console. -/
def textArea : Rectangle := ⟨⟨0, 0⟩, ⟨8 * Console.kColumns, 16 * Console.kRows⟩⟩

/-- The upper left corner of a cell. -/
def cellPos (row column : Nat) : Vector2D := ⟨8 * column, 16 * row⟩

/-! ## Targets -/

namespace ConsoleTarget

/-- The target has all pixels of the console; a window has no transparent colour. -/
def HasRoom : ConsoleTarget config → Prop
  | null => False
  | screen _ => textArea.Within config.outline
  | window w => textArea.Within w.bounds ∧ w.transparentColor = none

instance decidableHasRoom : (target : ConsoleTarget config) → Decidable target.HasRoom
  | null => inferInstanceAs (Decidable False)
  | screen _ => inferInstanceAs (Decidable (textArea.Within config.outline))
  | window w => inferInstanceAs (Decidable (textArea.Within w.bounds ∧ w.transparentColor = none))

/-- Drawing in one colour. -/
theorem writeAll_spec {target : ConsoleTarget config} (hroom : target.HasRoom) (calls : Writes)
    {color : PixelColor} (hin : ∀ p ∈ calls.map Prod.fst, textArea.Contains p)
    (hcolor : ∀ call ∈ calls, call.2 = color) :
    ∃ target', target.writeAll calls = some target' ∧ target'.HasRoom ∧
      target'.isWindow = target.isWindow ∧ ∀ p, textArea.Contains p →
        target'.pixel p = if p ∈ calls.map Prod.fst then color else target.pixel p := by
  cases target with
  | null => exact absurd hroom id
  | screen fb =>
      obtain ⟨fb', hdraw, hpixel⟩ := fb.writeAll_spec (f := fun _ => color) calls
        (fun call hmem => hroom.contains (hin _ (List.mem_map_of_mem hmem))) hcolor
      refine ⟨screen fb', ?_, hroom, rfl, fun p hp => hpixel p (hroom.contains hp)⟩
      rw [writeAll_screen, hdraw, Option.map_some]
  | window w =>
      obtain ⟨hwithin, hopaque⟩ := hroom
      obtain ⟨w', hdraw, hframe, hpixel⟩ := w.writeAll_color_spec calls
        (fun p hmem => hwithin.contains (hin p hmem)) hcolor
      refine ⟨window w', ?_, ⟨?_, ?_⟩, rfl, fun p hp => hpixel p (hwithin.contains hp)⟩
      · rw [writeAll_window, hdraw, Option.map_some]
      · rw [hframe.bounds]
        exact hwithin
      · rw [hframe.transparentColor]
        exact hopaque

theorem writeAll_append {target target' : ConsoleTarget config} {calls : Writes}
    (h : target.writeAll calls = some target') (calls' : Writes) :
    target.writeAll (calls ++ calls') = target'.writeAll calls' := by
  cases target with
  | null =>
      cases calls with
      | nil =>
          cases h
          rfl
      | cons call calls => cases h
  | screen fb =>
      rw [writeAll_screen] at h
      obtain ⟨fb', hdraw, rfl⟩ := Option.map_eq_some_iff.mp h
      rw [writeAll_screen, writeAll_screen]
      unfold FrameBuffer.writeAll at hdraw ⊢
      rw [List.foldlM_append, hdraw]
      rfl
  | window w =>
      rw [writeAll_window] at h
      obtain ⟨w', hdraw, rfl⟩ := Option.map_eq_some_iff.mp h
      rw [writeAll_window, writeAll_window]
      unfold Window.writeAll at hdraw ⊢
      rw [List.foldlM_append, hdraw]
      rfl

/-- Filling the console and drawing text of one colour over it. -/
theorem writeAll_fill_spec {target : ConsoleTarget config} (hroom : target.HasRoom)
    (bg : PixelColor) {calls : Writes} {color : PixelColor}
    (hin : ∀ p ∈ calls.map Prod.fst, textArea.Contains p)
    (hcolor : ∀ call ∈ calls, call.2 = color) :
    ∃ target', target.writeAll (fillRectangle textArea.pos textArea.size bg ++ calls) =
        some target' ∧ target'.HasRoom ∧ target'.isWindow = target.isWindow ∧
      ∀ p, textArea.Contains p →
        target'.pixel p = if p ∈ calls.map Prod.fst then color else bg := by
  obtain ⟨target₁, hfill, hroom₁, hkind₁, hpixel₁⟩ := writeAll_spec hroom
    (fillRectangle textArea.pos textArea.size bg) (fun p hmem => mem_fillRectangle.mp hmem)
    color_fillRectangle
  obtain ⟨target', htext, hroom', hkind', hpixel'⟩ := writeAll_spec hroom₁ calls hin hcolor
  refine ⟨target', (writeAll_append hfill calls).trans htext, hroom', hkind'.trans hkind₁, ?_⟩
  intro p hp
  have hfilled : p ∈ (fillRectangle textArea.pos textArea.size bg).map Prod.fst :=
    mem_fillRectangle.mpr hp
  rw [hpixel' p hp, hpixel₁ p hp, if_pos hfilled]

end ConsoleTarget

/-! ## Cells -/

namespace Console

/-- The text on the console; the last column of a line stays free. -/
abbrev Screen := TextScreen TextChar kRows (kColumns - 1)

/-- The character of a cell in `buffer_`, `0` if there is none. -/
def code : Option TextChar → UInt8
  | none => 0
  | some c => c

/-- The contents of `buffer_` when it holds the text on a screen. -/
def gridOf (s : Screen) : Buffer := fun row column => code (s.cell row column)

/-- The colour of a pixel of a cell. -/
def glyphColor (font : Font) (fgColor bgColor : PixelColor) (c : UInt8) (d : Vector2D) :
    PixelColor :=
  if c ≠ 0 ∧ font.lit c d = true then fgColor else bgColor

/-- The characters on display. -/
def Shows (font : Font) (c : Console config) (grid : Buffer) : Prop :=
  ∀ (row : Fin kRows) (column : Fin kColumns) (d : Vector2D), cellBox.Contains d →
    c.target.pixel (cellPos row column + d) =
      glyphColor font c.fgColor c.bgColor (grid row column.castSucc) d

variable {s : Screen} {row row' : Fin kRows} {column : Fin kColumns} {d p : Vector2D}
  {color : PixelColor}

/-- The pixels of the cells are those of the console. -/
theorem contains_textArea (row : Fin kRows) (column : Fin kColumns) (hd : cellBox.Contains d) :
    textArea.Contains (cellPos row column + d) := by
  have hrow := row.isLt
  have hcolumn := column.isLt
  unfold cellBox Rectangle.Contains at hd
  unfold textArea cellPos Rectangle.Contains
  simp only [Vector2D.add_x, Vector2D.add_y] at hd ⊢
  omega

theorem code_eq_zero {c : Option TextChar} : code c = 0 ↔ c = none := by
  cases c with
  | none => exact iff_of_true rfl rfl
  | some c => exact iff_of_false c.property (Option.some_ne_none c)

/-- A row of `buffer_` is the string of its line. -/
theorem cText_gridOf (s : Screen) (row : Fin kRows) :
    cText (List.ofFn (gridOf s row)) = (s.lines row).map Subtype.val := by
  have hlength := s.fits row
  have hsplit : List.ofFn (gridOf s row) = (s.lines row).map Subtype.val ++
      List.replicate (kColumns + 1 - (s.lines row).length) 0 := by
    apply List.ext_getElem?
    intro i
    rw [List.getElem?_ofFn]
    by_cases hi : i < (s.lines row).length
    · rw [dif_pos (by omega), List.getElem?_append_left (by rwa [List.length_map]),
        List.getElem?_map]
      unfold gridOf TextScreen.cell
      rw [List.getElem?_eq_getElem hi]
      rfl
    · rw [List.getElem?_append_right (by rw [List.length_map]; omega), List.length_map,
        List.getElem?_replicate]
      unfold gridOf TextScreen.cell
      by_cases hmax : i < kColumns + 1
      · rw [dif_pos hmax, if_pos (by omega), List.getElem?_eq_none (Nat.le_of_not_lt hi)]
        rfl
      · rw [dif_neg hmax, if_neg (by omega)]
  unfold cText
  rw [hsplit, List.takeWhile_append_of_pos]
  · obtain ⟨n, hn⟩ : ∃ n, kColumns + 1 - (s.lines row).length = n + 1 :=
      Nat.exists_eq_add_one.mpr (by omega)
    rw [hn, List.replicate_succ, List.takeWhile_cons_of_neg (by simp), List.append_nil]
  · intro c hc
    obtain ⟨c', -, rfl⟩ := List.mem_map.mp hc
    exact bne_iff_ne.mpr c'.property

/-- `WriteString` of a row of `buffer_`. -/
abbrev rowText (font : Font) (grid : Buffer) (color : PixelColor) (row : Fin kRows) : Writes :=
  writeString font ⟨0, 16 * row.val⟩ (List.ofFn (grid row)) color

/-- The pixels of a cell that it writes. -/
theorem mem_rowText (hd : cellBox.Contains d) :
    cellPos row column + d ∈ (rowText font (gridOf s) color row').map Prod.fst ↔
      row = row' ∧ gridOf s row column.castSucc ≠ 0 ∧
        font.lit (gridOf s row column.castSucc) d = true := by
  rw [mem_writeString, cText_gridOf]
  have hoffset : ∀ i : Nat, i = column.val → row = row' →
      cellPos row column + d - (⟨0, 16 * row'.val⟩ + ⟨8 * (i : Int), 0⟩) = d := by
    rintro i rfl rfl
    unfold cellPos
    apply Vector2D.ext <;> simp only [Vector2D.add_x, Vector2D.add_y, Vector2D.sub_x,
      Vector2D.sub_y] <;> omega
  have hcell : ∀ ch : TextChar, (s.lines row)[column.val]? = some ch →
      gridOf s row column.castSucc = ch := by
    intro ch hch
    unfold gridOf TextScreen.cell
    rw [Fin.val_castSucc, hch]
    rfl
  constructor
  · rintro ⟨i, c, hchar, hbox, hlit⟩
    have hsame : i = column.val ∧ row = row' := by
      unfold cellBox Rectangle.Contains cellPos at *
      simp only [Vector2D.add_x, Vector2D.add_y, Vector2D.sub_x, Vector2D.sub_y] at hbox hd
      exact ⟨by omega, Fin.ext (by omega)⟩
    rw [hoffset i hsame.1 hsame.2] at hlit
    obtain ⟨rfl, rfl⟩ := hsame
    rw [List.getElem?_map] at hchar
    obtain ⟨ch, hch, rfl⟩ := Option.map_eq_some_iff.mp hchar
    rw [hcell ch hch]
    exact ⟨rfl, ch.property, hlit⟩
  · rintro ⟨rfl, hchar, hlit⟩
    obtain ⟨ch, hch⟩ : ∃ ch, (s.lines row)[column.val]? = some ch :=
      Option.ne_none_iff_exists'.mp fun h => hchar (code_eq_zero.mpr h)
    refine ⟨column.val, ch, ?_, ?_, ?_⟩
    · rw [List.getElem?_map, hch]
      rfl
    · rwa [hoffset _ rfl rfl]
    · rwa [hoffset _ rfl rfl, ← hcell ch hch]

/-- It stays on the console. -/
theorem contains_rowText (hp : p ∈ (rowText font (gridOf s) color row).map Prod.fst) :
    textArea.Contains p := by
  obtain ⟨i, c, hchar, hbox, -⟩ := mem_writeString.mp hp
  rw [cText_gridOf, List.getElem?_map] at hchar
  obtain ⟨ch, hch, -⟩ := Option.map_eq_some_iff.mp hchar
  have hi := (List.getElem?_eq_some_iff.mp hch).1
  have hlength := s.fits row
  have hrow := row.isLt
  unfold cellBox Rectangle.Contains at hbox
  unfold textArea Rectangle.Contains
  simp only [Vector2D.add_x, Vector2D.add_y, Vector2D.sub_x, Vector2D.sub_y] at hbox ⊢
  omega

/-! ## Redrawing -/

/-- Filling the console and drawing the text of all rows shows the text. -/
theorem redraw_spec (font : Font) {target : ConsoleTarget config} (hroom : target.HasRoom)
    (s : Screen) (fg bg : PixelColor) (calls : Writes)
    (hmem : ∀ p, p ∈ calls.map Prod.fst ↔ ∃ row, p ∈ (rowText font (gridOf s) fg row).map Prod.fst)
    (hcolor : ∀ call ∈ calls, call.2 = fg) :
    ∃ target', target.writeAll (fillRectangle textArea.pos textArea.size bg ++ calls) =
        some target' ∧ target'.HasRoom ∧ target'.isWindow = target.isWindow ∧
      ∀ (row : Fin kRows) (column : Fin kColumns) (d : Vector2D), cellBox.Contains d →
        target'.pixel (cellPos row column + d) =
          glyphColor font fg bg (gridOf s row column.castSucc) d := by
  obtain ⟨target', hdraw, hroom', hkind, hpixel⟩ := ConsoleTarget.writeAll_fill_spec hroom bg
    (fun p hp => contains_rowText ((hmem p).mp hp).choose_spec) hcolor
  refine ⟨target', hdraw, hroom', hkind, fun row column d hd => ?_⟩
  rw [hpixel _ (contains_textArea row column hd)]
  unfold glyphColor
  apply if_congr _ rfl rfl
  rw [hmem]
  constructor
  · rintro ⟨row', hrow'⟩
    obtain ⟨-, hglyph⟩ := (mem_rowText hd).mp hrow'
    exact hglyph
  · intro hglyph
    exact ⟨row, (mem_rowText hd).mpr ⟨rfl, hglyph⟩⟩

/-- **`Refresh` shows the text in `buffer_`.** -/
theorem refresh_spec (font : Font) (c : Console config) (hroom : c.target.HasRoom)
    (hbuffer : c.buffer = gridOf s) :
    ∃ target, c.refresh font = some { c with target := target } ∧ target.HasRoom ∧
      target.isWindow = c.target.isWindow ∧
      Shows font { c with target := target } (gridOf s) := by
  obtain ⟨target, hdraw, hroom', hkind, hshows⟩ := redraw_spec font hroom s c.fgColor
    c.bgColor ((List.finRange kRows).flatMap fun row => rowText font (gridOf s) c.fgColor row)
    (fun p => by simp only [List.map_flatMap, List.mem_flatMap, List.mem_finRange, true_and])
    (fun call hmem => by
      obtain ⟨row, -, hcall⟩ := List.mem_flatMap.mp hmem
      exact color_writeString call hcall)
  refine ⟨target, ?_, hroom', hkind, hshows⟩
  rw [← hbuffer] at hdraw
  unfold refresh
  exact congrArg (Option.map fun target => { c with target := target }) hdraw

/-- `buffer_` after `k` rows of the loop. -/
theorem scrollRows_buffer (fg : PixelColor) (buffer : Buffer) (k : Nat) (hk : k < kRows) :
    ∀ row : Fin kRows, (scrollRows font fg buffer k hk).1 row =
      if h : row.val < k then buffer ⟨row.val + 1, by omega⟩ else buffer row := by
  induction k with
  | zero =>
      intro row
      rw [dif_neg (Nat.not_lt_zero _)]
      rfl
  | succ k ih =>
      intro row
      have hprev := ih (Nat.lt_of_succ_lt hk)
      unfold scrollRows
      simp only
      by_cases hrow : row = ⟨k, Nat.lt_of_succ_lt hk⟩
      · rw [hrow, Function.update_self, hprev, dif_neg (by simp only; omega),
          dif_pos (Nat.lt_succ_self k)]
      · have hne : row.val ≠ k := fun h => hrow (Fin.ext h)
        rw [Function.update_of_ne hrow, hprev]
        by_cases hlt : row.val < k
        · rw [dif_pos hlt, dif_pos (Nat.lt_succ_of_lt hlt)]
        · rw [dif_neg hlt, dif_neg (by omega)]

/-- The calls of the first `k` rows: each row is drawn with the text of the next one. -/
theorem mem_scrollRows (font : Font) (fg : PixelColor) {buffer shifted : Buffer}
    (hshift : ∀ (row : Fin kRows) (h : row.val + 1 < kRows), shifted row = buffer ⟨row.val + 1, h⟩)
    (k : Nat) (hk : k < kRows) (call : Vector2D × PixelColor) :
    call ∈ (scrollRows font fg buffer k hk).2 ↔
      ∃ row : Fin kRows, row.val < k ∧ call ∈ rowText font shifted fg row := by
  induction k with
  | zero =>
      refine iff_of_false List.not_mem_nil ?_
      rintro ⟨row, hrow, -⟩
      exact Nat.not_lt_zero _ hrow
  | succ k ih =>
      have hrow : (scrollRows font fg buffer k (Nat.lt_of_succ_lt hk)).1 ⟨k + 1, hk⟩ =
          shifted ⟨k, Nat.lt_of_succ_lt hk⟩ := by
        rw [scrollRows_buffer, dif_neg (by simp only; omega), hshift]
      unfold scrollRows
      simp only
      rw [List.mem_append, ih (Nat.lt_of_succ_lt hk), Function.update_self, hrow]
      constructor
      · rintro (⟨row, hlt, hcall⟩ | hcall)
        · exact ⟨row, Nat.lt_succ_of_lt hlt, hcall⟩
        · exact ⟨⟨k, Nat.lt_of_succ_lt hk⟩, Nat.lt_succ_self k, hcall⟩
      · rintro ⟨row, hlt, hcall⟩
        rcases Nat.lt_succ_iff_lt_or_eq.mp hlt with hlt | heq
        · exact Or.inl ⟨row, hlt, hcall⟩
        · obtain rfl : row = ⟨k, Nat.lt_of_succ_lt hk⟩ := Fin.ext heq
          exact Or.inr hcall

/-! ## Writing a character -/

/-- The console shows the screen of text. -/
structure Holds (font : Font) (c : Console config) (s : Screen) : Prop where
  room : c.target.HasRoom
  row : c.cursorRow = s.row
  column : c.cursorColumn.val = s.column
  shows : c.Shows font (gridOf s)

/-- Writing changes neither the colours nor whether there is a window. -/
structure SameMode (c c' : Console config) : Prop where
  fgColor : c'.fgColor = c.fgColor
  bgColor : c'.bgColor = c.bgColor
  isWindow : c'.target.isWindow = c.target.isWindow

/-- `buffer_` after the bottom row has been scrolled up. -/
def shiftUp (buffer : Buffer) : Buffer :=
  fun row => if h : row.val + 1 < kRows then buffer ⟨row.val + 1, h⟩ else fun _ => 0

/-- `buffer_` after a character: scrolling leaves it as it is if there is a window. -/
def nextBuffer (c : Console config) (a : TextChar) : Buffer :=
  if a = TextChar.eol then
    if c.cursorRow.val < kRows - 1 ∨ c.target.isWindow = true then c.buffer else shiftUp c.buffer
  else if c.cursorColumn.val < kColumns - 1 then
    Function.update c.buffer c.cursorRow
      (Function.update (c.buffer c.cursorRow) c.cursorColumn.castSucc a)
  else c.buffer

theorem gridOf_newline_of_lt (h : s.row.val + 1 < kRows) : gridOf s.newline = gridOf s := by
  funext row column
  unfold gridOf
  rw [TextScreen.cell_newline_of_lt h]

theorem gridOf_newline_of_last (h : ¬s.row.val + 1 < kRows) :
    gridOf s.newline = shiftUp (gridOf s) := by
  funext row column
  unfold gridOf shiftUp
  rw [TextScreen.cell_newline_of_last h]
  split <;> rfl

theorem gridOf_put (h : s.column < kColumns - 1) (a : TextChar) (column : Fin (kColumns + 1)) :
    gridOf (s.put a) row column =
      if row = s.row ∧ column.val = s.column then a.val else gridOf s row column := by
  unfold gridOf
  rw [TextScreen.cell_put h]
  split_ifs <;> rfl

/-- The cell that is written to next is empty. -/
theorem gridOf_next (s : Screen) (column : Fin (kColumns + 1)) (h : column.val = s.column) :
    gridOf s s.row column = 0 := by
  unfold gridOf
  rw [h, TextScreen.cell_column]
  rfl

/-- Cells do not overlap. -/
theorem contains_cellBox_iff (hd : cellBox.Contains d) (row' column' : Nat) :
    cellBox.Contains (cellPos row column + d - cellPos row' column') ↔
      row.val = row' ∧ column.val = column' := by
  unfold cellBox cellPos Rectangle.Contains at *
  simp only [Vector2D.add_x, Vector2D.add_y, Vector2D.sub_x, Vector2D.sub_y] at hd ⊢
  omega

variable {c : Console config} {a : TextChar}

/-- A character that fits into its line. -/
theorem put_spec (h : c.Holds font s) (ha : a ≠ TextChar.eol) (hroom : s.column < kColumns - 1) :
    ∃ c', c.putChar font a = some c' ∧ c'.Holds font (s.put a) ∧ SameMode c c' ∧
      c'.buffer = c.nextBuffer a := by
  have hcolumn : c.cursorColumn.val < kColumns - 1 := h.column ▸ hroom
  have hpos : (⟨8 * c.cursorColumn.val, 16 * c.cursorRow.val⟩ : Vector2D) =
      cellPos c.cursorRow c.cursorColumn := rfl
  obtain ⟨target, hdraw, htarget, hkind, hpixel⟩ := ConsoleTarget.writeAll_spec h.room
    (writeAscii font (cellPos c.cursorRow c.cursorColumn) a c.fgColor)
    (fun p hp => by
      have hin := contains_textArea c.cursorRow c.cursorColumn (mem_writeAscii.mp hp).1
      rwa [Vector2D.add_sub_cancel] at hin) color_writeAscii
  unfold putChar nextBuffer
  rw [if_neg ha, if_neg ha, dif_pos hcolumn, if_pos hcolumn, hpos, hdraw, Option.map_some]
  refine ⟨_, rfl, ⟨htarget, ?_, ?_, ?_⟩, ⟨rfl, rfl, hkind⟩, rfl⟩
  · rw [TextScreen.row_put]
    exact h.row
  · rw [TextScreen.column_put hroom, ← h.column]
  · intro row column d hd
    have hold := h.shows row column d hd
    simp only
    rw [hpixel _ (contains_textArea row column hd), gridOf_put hroom, hold]
    simp only [mem_writeAscii, contains_cellBox_iff hd]
    by_cases hcell : row = s.row ∧ column.val = s.column
    · -- the cell was empty
      obtain ⟨rfl, hlast⟩ := hcell
      have hlast' : column.castSucc.val = s.column := hlast
      have hempty := gridOf_next s column.castSucc hlast'
      have hrow := h.row
      have hsame : cellPos s.row column + d - cellPos c.cursorRow c.cursorColumn = d := by
        rw [hrow, h.column, ← hlast]
        exact Vector2D.add_sub_cancel_left _ d
      have hhere : s.row.val = c.cursorRow.val ∧ column.val = c.cursorColumn.val :=
        ⟨by rw [hrow], by rw [hlast, h.column]⟩
      have hnew : (if s.row = s.row ∧ column.castSucc.val = s.column then a.val else 0) = a :=
        if_pos ⟨rfl, hlast'⟩
      rw [hsame, hempty, hnew]
      unfold glyphColor
      simp only [hhere, true_and, and_self, ne_eq, not_true_eq_false, false_and, if_false,
        a.property, not_false_eq_true]
    · have hother : ¬(row.val = c.cursorRow.val ∧ column.val = c.cursorColumn.val) := by
        rintro ⟨hrow, hcol⟩
        exact hcell ⟨Fin.ext (hrow.trans (congrArg Fin.val h.row)), hcol.trans h.column⟩
      have hcell' : ¬(row = s.row ∧ column.castSucc.val = s.column) := hcell
      rw [if_neg fun hin => hother hin.1, if_neg hcell']

/-- A new line above the bottom. -/
theorem newline_of_lt_spec (h : c.Holds font s) (hrow : s.row.val + 1 < kRows) :
    ∃ c', c.newline font = some c' ∧ c'.Holds font s.newline ∧ SameMode c c' ∧
      c'.buffer = c.buffer := by
  have hlt : c.cursorRow.val < kRows - 1 := by
    rw [h.row]
    omega
  unfold newline
  simp only
  rw [dif_pos hlt]
  refine ⟨_, rfl, ⟨h.room, ?_, ?_, ?_⟩, ⟨rfl, rfl, rfl⟩, rfl⟩
  · rw [TextScreen.row_newline_of_lt hrow]
    exact Fin.ext (congrArg (·.val + 1) h.row)
  · rw [TextScreen.column_newline]
    rfl
  · rw [gridOf_newline_of_lt hrow]
    exact h.shows

/-- After scrolling the last row is empty, so no pixel of its text is drawn. -/
theorem notMem_rowText_last (hrow : ¬s.row.val + 1 < kRows) (fg : PixelColor) {row : Fin kRows}
    (hr : ¬row.val < kRows - 1) (p : Vector2D) :
    p ∉ (rowText font (gridOf s.newline) fg row).map Prod.fst := by
  intro hp
  obtain ⟨i, ch, hchar, -⟩ := mem_writeString.mp hp
  have hempty : s.newline.cell row i = none := by
    rw [TextScreen.cell_newline_of_last hrow, dif_neg (by omega)]
  rw [cText_gridOf, List.getElem?_map] at hchar
  unfold TextScreen.cell at hempty
  rw [hempty] at hchar
  cases hchar

/-- The loop and the `memset` behind it shift the whole buffer. -/
theorem update_scrollRows (font : Font) (fg : PixelColor) (buffer : Buffer) :
    Function.update (scrollRows font fg buffer (kRows - 1) (by decide)).1 (Fin.last (kRows - 1))
      (fun _ => 0) = shiftUp buffer := by
  funext row
  unfold shiftUp
  by_cases hr : row.val + 1 < kRows
  · rw [Function.update_of_ne (by rintro rfl; exact absurd hr (by decide)), scrollRows_buffer,
      dif_pos (by omega), dif_pos hr]
  · obtain rfl : row = Fin.last (kRows - 1) := Fin.ext (by simp only [Fin.val_last]; omega)
    rw [Function.update_self, dif_neg hr]

/-- The loop draws the text of the shifted buffer. -/
theorem scrollRows_shows (font : Font) (hrow : ¬s.row.val + 1 < kRows) (fg : PixelColor) {buffer : Buffer}
    (hgrid : gridOf s.newline = shiftUp buffer) :
    (∀ p, p ∈ (scrollRows font fg buffer (kRows - 1) (by decide)).2.map Prod.fst ↔
      ∃ row, p ∈ (rowText font (gridOf s.newline) fg row).map Prod.fst) ∧
    ∀ call ∈ (scrollRows font fg buffer (kRows - 1) (by decide)).2, call.2 = fg := by
  have hshift : ∀ (row : Fin kRows) (hr : row.val + 1 < kRows),
      gridOf s.newline row = buffer ⟨row.val + 1, hr⟩ := by
    intro row hr
    rw [hgrid]
    exact dif_pos hr
  have hmem := fun call => mem_scrollRows font fg hshift (kRows - 1) (by decide) call
  refine ⟨fun p => ⟨?_, ?_⟩, ?_⟩
  · intro hp
    obtain ⟨call, hcall, rfl⟩ := List.mem_map.mp hp
    obtain ⟨row, -, hcall⟩ := (hmem call).mp hcall
    exact ⟨row, List.mem_map_of_mem hcall⟩
  · rintro ⟨row, hp⟩
    obtain ⟨call, hcall, rfl⟩ := List.mem_map.mp hp
    by_cases hr : row.val < kRows - 1
    · exact List.mem_map_of_mem ((hmem call).mpr ⟨row, hr, hcall⟩)
    · exact absurd hp (notMem_rowText_last hrow fg hr _)
  · intro call hcall
    obtain ⟨row, -, hcall⟩ := (hmem call).mp hcall
    exact color_writeString call hcall

/-- **Scrolling without a window**: the text is shifted and drawn again. -/
theorem newline_redraw_spec (h : c.Holds font s) (hrow : ¬s.row.val + 1 < kRows)
    (hwriter : c.target.isWindow = false) (hbuffer : c.buffer = gridOf s) :
    ∃ c', c.newline font = some c' ∧ c'.Holds font s.newline ∧ SameMode c c' ∧
      c'.buffer = shiftUp c.buffer := by
  have hlast : ¬c.cursorRow.val < kRows - 1 := by
    rw [h.row]
    omega
  have hgrid : gridOf s.newline = shiftUp c.buffer := by rw [hbuffer, gridOf_newline_of_last hrow]
  obtain ⟨hmem, hcolor⟩ := scrollRows_shows font hrow c.fgColor hgrid
  obtain ⟨target, hdraw, htarget, hkind, hshows⟩ :=
    redraw_spec font h.room s.newline c.fgColor c.bgColor _ hmem hcolor
  refine ⟨{ c with
    target := target
    buffer := shiftUp c.buffer
    cursorColumn := 0 }, ?_, ⟨htarget, ?_, ?_, hshows⟩, ⟨rfl, rfl, hkind⟩, rfl⟩
  · have hfinal := update_scrollRows font c.fgColor c.buffer
    unfold newline
    simp only
    rw [dif_neg hlast]
    have hroom := h.room
    cases htarget' : c.target with
    | null =>
        rw [htarget'] at hroom
        exact absurd hroom id
    | window w =>
        rw [htarget'] at hwriter
        cases hwriter
    | screen fb =>
        rw [htarget'] at hdraw
        simp only
        generalize scrollRows font c.fgColor c.buffer (kRows - 1) _ = scrolled at hdraw hfinal ⊢
        rw [hfinal]
        exact congrArg (Option.map _) hdraw
  · rw [TextScreen.row_newline_of_last hrow]
    exact h.row
  · rw [TextScreen.column_newline]
    rfl

/-- The area that is moved up. -/
def movedArea : Rectangle := ⟨⟨0, 16⟩, ⟨8 * kColumns, 16 * (kRows - 1)⟩⟩

/-- The row that is filled. -/
def lastRowArea : Rectangle := ⟨⟨0, 16 * (kRows - 1)⟩, ⟨8 * kColumns, 16⟩⟩

/-- Where a pixel of a cell comes from when the pixels are moved: from the row below, and there is
none below the last one. -/
theorem cellPos_moved (row : Fin kRows) (column : Fin kColumns) (hd : cellBox.Contains d) :
    (row.val + 1 < kRows → ¬lastRowArea.Contains (cellPos row column + d) ∧
      (⟨⟨0, 0⟩, movedArea.size⟩ : Rectangle).Contains (cellPos row column + d) ∧
      movedArea.pos + (cellPos row column + d - ⟨0, 0⟩) = cellPos (row.val + 1) column + d) ∧
    (¬row.val + 1 < kRows → lastRowArea.Contains (cellPos row column + d)) := by
  have hrow := row.isLt
  have hcolumn := column.isLt
  unfold cellBox Rectangle.Contains at hd
  refine ⟨fun hr => ⟨?_, ?_, ?_⟩, fun hr => ?_⟩
  · intro hin
    unfold cellPos lastRowArea Rectangle.Contains at hin
    simp only [Vector2D.add_x, Vector2D.add_y] at hin hd
    omega
  · unfold cellPos movedArea Rectangle.Contains
    simp only [Vector2D.add_x, Vector2D.add_y] at hd ⊢
    omega
  · unfold cellPos movedArea
    apply Vector2D.ext
    · simp only [Vector2D.add_x, Vector2D.sub_x]
      omega
    · simp only [Vector2D.add_y, Vector2D.sub_y]
      omega
  · unfold cellPos lastRowArea Rectangle.Contains
    simp only [Vector2D.add_x, Vector2D.add_y] at hd ⊢
    omega

/-- Moving the rows up and filling the last one. -/
theorem moveRowsUp_spec {w : Window} (hwithin : textArea.Within w.bounds) (color : PixelColor) :
    ∃ w₁ w', w.move ⟨0, 0⟩ movedArea = some w₁ ∧
      w₁.writeAll (fillRectangle lastRowArea.pos lastRowArea.size color) = some w' ∧
      Window.SameFrame w w' ∧ ∀ p, w.bounds.Contains p → w'.shadowBuffer.pixel p =
        if lastRowArea.Contains p then color
        else if (⟨⟨0, 0⟩, movedArea.size⟩ : Rectangle).Contains p then
          w.shadowBuffer.pixel (movedArea.pos + (p - ⟨0, 0⟩))
        else w.shadowBuffer.pixel p := by
  have hin : w.MoveInBounds ⟨0, 0⟩ movedArea :=
    ⟨by decide, .trans (s := textArea) (by decide) hwithin,
      .trans (s := textArea) (by decide) hwithin⟩
  obtain ⟨w₁, hmove, hframe₁, -, hmoved⟩ := Window.move_spec hin (fun _ _ hsame => by cases hsame)
  have hlastRow : ∀ p, p ∈ (fillRectangle lastRowArea.pos lastRowArea.size color).map Prod.fst ↔
      lastRowArea.Contains p := fun p => mem_fillRectangle
  have hbottom : lastRowArea.Within w₁.bounds := by
    rw [hframe₁.bounds]
    exact .trans (s := textArea) (by decide) hwithin
  obtain ⟨w', hfill, hframe, hfilled⟩ := w₁.writeAll_color_spec
    (fillRectangle lastRowArea.pos lastRowArea.size color)
    (fun p hp => hbottom.contains ((hlastRow p).mp hp)) color_fillRectangle
  refine ⟨w₁, w', hmove, hfill, hframe₁.trans hframe, fun p hp => ?_⟩
  rw [hfilled p (by rwa [hframe₁.bounds]), hmoved p hp]
  simp only [hlastRow]

/-- **Scrolling in a window**: the pixels are moved, `buffer_` stays. -/
theorem newline_move_spec (h : c.Holds font s) (hrow : ¬s.row.val + 1 < kRows)
    (hwindow : c.target.isWindow = true) :
    ∃ c', c.newline font = some c' ∧ c'.Holds font s.newline ∧ SameMode c c' ∧
      c'.buffer = c.buffer := by
  have hlast : ¬c.cursorRow.val < kRows - 1 := by
    rw [h.row]
    omega
  obtain ⟨w, hw⟩ : ∃ w, c.target = .window w := by
    cases htarget : c.target with
    | window w => exact ⟨w, rfl⟩
    | null =>
        rw [htarget] at hwindow
        cases hwindow
    | screen fb =>
        rw [htarget] at hwindow
        cases hwindow
  have hroom := h.room
  have hold := h.shows
  unfold Shows at hold
  rw [hw] at hroom hold
  obtain ⟨hwithin, hopaque⟩ := hroom
  obtain ⟨w₁, w', hmove, hfill, hframe, hpixel⟩ := moveRowsUp_spec hwithin c.bgColor
  refine ⟨{ c with target := .window w', cursorColumn := 0 }, ?_, ⟨⟨?_, ?_⟩, ?_, ?_, ?_⟩,
    ⟨rfl, rfl, ?_⟩, rfl⟩
  · unfold newline
    simp only
    rw [dif_neg hlast, hw]
    show (w.move ⟨0, 0⟩ movedArea).bind _ = _
    rw [hmove, Option.bind_some]
    exact congrArg (Option.map _) hfill
  · rw [hframe.bounds]
    exact hwithin
  · rw [hframe.transparentColor]
    exact hopaque
  · rw [TextScreen.row_newline_of_last hrow]
    exact h.row
  · rw [TextScreen.column_newline]
    rfl
  · intro row column d hd
    have hp := hwithin.contains (contains_textArea row column hd)
    obtain ⟨hupper, hbelow⟩ := cellPos_moved row column hd
    show w'.shadowBuffer.pixel _ = _
    rw [hpixel _ hp, gridOf_newline_of_last hrow]
    unfold shiftUp
    by_cases hr : row.val + 1 < kRows
    · obtain ⟨hnot, hmem, hfrom⟩ := hupper hr
      rw [if_neg hnot, if_pos hmem, hfrom, dif_pos hr]
      exact hold ⟨row.val + 1, hr⟩ column d hd
    · rw [if_pos (hbelow hr), dif_neg hr]
      exact (if_neg fun h => h.1 rfl).symm
  · rw [hw]
    rfl

/-- **Writing a character.** Without a window it needs `buffer_` to hold the text on display. -/
theorem putChar_spec (h : c.Holds font s) (a : TextChar)
    (hbuffer : c.target.isWindow = false → c.buffer = gridOf s) :
    ∃ c', c.putChar font a = some c' ∧ c'.Holds font (s.write TextChar.eol a) ∧ SameMode c c' ∧
      c'.buffer = c.nextBuffer a := by
  unfold TextScreen.write
  by_cases ha : a = TextChar.eol
  · unfold putChar nextBuffer
    rw [if_pos ha, if_pos ha, if_pos ha]
    by_cases hrow : s.row.val + 1 < kRows
    · have hlt : c.cursorRow.val < kRows - 1 := by
        rw [h.row]
        omega
      rw [if_pos (Or.inl hlt)]
      exact newline_of_lt_spec h hrow
    · have hlast : ¬c.cursorRow.val < kRows - 1 := by
        rw [h.row]
        omega
      by_cases hwindow : c.target.isWindow = true
      · rw [if_pos (Or.inr hwindow)]
        exact newline_move_spec h hrow hwindow
      · rw [if_neg (not_or.mpr ⟨hlast, hwindow⟩)]
        have hwriter := Bool.eq_false_iff.mpr hwindow
        exact newline_redraw_spec h hrow hwriter (hbuffer hwriter)
  · rw [if_neg ha]
    by_cases hroom : s.column < kColumns - 1
    · exact put_spec h ha hroom
    · -- what does not fit is lost
      have hfull : ¬c.cursorColumn.val < kColumns - 1 := by
        rw [h.column]
        exact hroom
      unfold putChar nextBuffer
      rw [if_neg ha, if_neg ha, dif_neg hfull, if_neg hfull, TextScreen.put_of_full hroom]
      exact ⟨c, rfl, h, ⟨rfl, rfl, rfl⟩, rfl⟩

/-! ## `buffer_` -/

/-- A new line in the bottom row finds no text in `buffer_`. -/
def ScrollsNoText (c : Console config) (a : TextChar) : Prop :=
  a = TextChar.eol → ¬c.cursorRow.val < kRows - 1 → ∀ row column, c.buffer row column = 0

theorem code_inj {x y : Option TextChar} (h : code x = code y) : x = y := by
  cases x with
  | none => exact (code_eq_zero.mp h.symm).symm
  | some x =>
      cases y with
      | none => exact absurd h x.property
      | some y => exact congrArg some (Subtype.ext h)

/-- The cells of a screen can be read off `buffer_`. -/
theorem gridOf_eq_iff {s s' : Screen} :
    gridOf s = gridOf s' ↔ ∀ row column, s.cell row column = s'.cell row column := by
  constructor
  · intro h row column
    by_cases hcolumn : column < kColumns + 1
    · exact code_inj (congrFun (congrFun h row) ⟨column, hcolumn⟩)
    · have hs := s.fits row
      have hs' := s'.fits row
      unfold TextScreen.cell
      rw [List.getElem?_eq_none (by omega), List.getElem?_eq_none (by omega)]
  · intro h
    funext row column
    exact congrArg code (h row column)

/-- As long as nothing is scrolled, the buffer follows the text in both modes. -/
theorem nextBuffer_of_not_scroll (h : c.Holds font s) (hbuffer : c.buffer = gridOf s)
    (hno : a = TextChar.eol → s.row.val + 1 < kRows) :
    c.nextBuffer a = gridOf (s.write TextChar.eol a) := by
  unfold nextBuffer TextScreen.write
  by_cases ha : a = TextChar.eol
  · have hrow := hno ha
    have hlt : c.cursorRow.val < kRows - 1 := by
      rw [h.row]
      omega
    rw [if_pos ha, if_pos (Or.inl hlt), if_pos ha, gridOf_newline_of_lt hrow]
    exact hbuffer
  · rw [if_neg ha, if_neg ha, h.column]
    by_cases hroom : s.column < kColumns - 1
    · rw [if_pos hroom]
      funext row column
      rw [gridOf_put hroom, h.row, hbuffer]
      by_cases hrow : row = s.row
      · have hcolumn : column = c.cursorColumn.castSucc ↔ column.val = s.column := by
          rw [← h.column]
          exact Fin.ext_iff
        rw [hrow, Function.update_self, Function.update_apply]
        simp only [hcolumn, true_and]
      · rw [Function.update_of_ne hrow, if_neg fun hcell => hrow hcell.1]
    · rw [if_neg hroom, TextScreen.put_of_full hroom]
      exact hbuffer

/-- The buffer that writing without a window leaves. -/
theorem nextBuffer_writer (h : c.Holds font s) (hwriter : c.target.isWindow = false)
    (hbuffer : c.buffer = gridOf s) (a : TextChar) :
    c.nextBuffer a = gridOf (s.write TextChar.eol a) := by
  by_cases hscroll : a = TextChar.eol ∧ ¬s.row.val + 1 < kRows
  · obtain ⟨ha, hrow⟩ := hscroll
    have hmode : ¬(c.cursorRow.val < kRows - 1 ∨ c.target.isWindow = true) := by
      rw [h.row, hwriter]
      rintro (hlt | hwindow)
      · omega
      · cases hwindow
    unfold nextBuffer TextScreen.write
    rw [if_pos ha, if_neg hmode, if_pos ha, gridOf_newline_of_last hrow, hbuffer]
  · exact nextBuffer_of_not_scroll h hbuffer fun ha => by_contra fun hrow => hscroll ⟨ha, hrow⟩

/-- **The buffer in window mode** holds the text on display after a character iff it was not
scrolled. -/
theorem nextBuffer_window_iff (h : c.Holds font s) (hwindow : c.target.isWindow = true)
    (hbuffer : c.buffer = gridOf s) (a : TextChar) :
    c.nextBuffer a = gridOf (s.write TextChar.eol a) ↔ c.ScrollsNoText a := by
  by_cases hscroll : a = TextChar.eol ∧ ¬s.row.val + 1 < kRows
  · obtain ⟨ha, hrow⟩ := hscroll
    have hlast : ¬c.cursorRow.val < kRows - 1 := by
      rw [h.row]
      omega
    have hempty : (∀ row column, c.buffer row column = 0) ↔
        ∀ row column, s.cell row column = none := by
      rw [hbuffer]
      constructor
      · intro hzero
        have hblank : gridOf s = gridOf (.blank s.row) := by
          funext row column
          exact hzero row column
        exact gridOf_eq_iff.mp hblank
      · intro hnone row column
        exact code_eq_zero.mpr (hnone row column)
    unfold nextBuffer TextScreen.write ScrollsNoText
    rw [if_pos ha, if_pos (Or.inr hwindow), if_pos ha, hbuffer, eq_comm, gridOf_eq_iff,
      TextScreen.cell_newline_eq_iff hrow, ← hempty, hbuffer]
    exact ⟨fun hzero _ _ => hzero, fun hkeeps => hkeeps ha hlast⟩
  · have hno : a = TextChar.eol → s.row.val + 1 < kRows :=
      fun ha => by_contra fun hrow => hscroll ⟨ha, hrow⟩
    refine iff_of_true (nextBuffer_of_not_scroll h hbuffer hno) ?_
    intro ha hlast
    rw [h.row] at hlast
    have hrow := hno ha
    omega

end Console

end UhyokOS
