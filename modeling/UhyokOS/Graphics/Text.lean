import UhyokOS.Graphics.Drawing

/-!
# The pixels of text

Which pixels the drawing functions of one colour write: `FillRectangle` those of the rectangle, and
`WriteAscii` and `WriteString` those that the font lights in the cells of the characters. A cell is
eight pixels wide and sixteen high.

* `contains_of_mem_drawWindow`: a window with room for its title is drawn inside its bounds.
-/

namespace UhyokOS

variable {font : Font} {pos size p d : Vector2D} {color : PixelColor} {c : UInt8}

/-- The pixels of a cell, from its upper left corner. -/
def cellBox : Rectangle := ⟨⟨0, 0⟩, ⟨8, 16⟩⟩

/-- The pixel is part of the character's glyph. -/
def Font.lit (font : Font) (c : UInt8) (d : Vector2D) : Bool :=
  match font.getFont c with
  | none => false
  | some start => (font.bytes.getD (start + d.y.toNat) 0).toNat <<< d.x.toNat &&& 0x80 != 0

/-- The characters of a string, without its terminator. -/
def cText (s : List UInt8) : List UInt8 := s.takeWhile (· != 0)

/-- The two nested loops over a size pass every point of the rectangle at the origin. With a
negative size they pass none. -/
theorem mem_offsets : d ∈ offsets size ↔ (⟨⟨0, 0⟩, size⟩ : Rectangle).Contains d := by
  unfold offsets Rectangle.Contains
  simp only [List.mem_flatMap, List.mem_map, List.mem_range]
  constructor
  · rintro ⟨dy, hy, dx, hx, rfl⟩
    simp only
    omega
  · rintro ⟨hx₀, hx₁, hy₀, hy₁⟩
    exact ⟨d.y.toNat, by omega, d.x.toNat, by omega,
      Vector2D.ext (Int.toNat_of_nonneg hx₀) (Int.toNat_of_nonneg hy₀)⟩

/-- The pixels that are written at some offsets. -/
theorem mem_map_offset {l : List Vector2D} :
    p ∈ (l.map fun d => (pos + d, color)).map Prod.fst ↔ p - pos ∈ l := by
  rw [List.map_map, List.mem_map]
  constructor
  · rintro ⟨d, hd, rfl⟩
    simpa only [Function.comp, Vector2D.add_sub_cancel_left] using hd
  · intro hd
    exact ⟨p - pos, hd, Vector2D.add_sub_cancel pos p⟩

/-- The pixels of a rectangle. -/
theorem mem_fillRectangle : p ∈ (fillRectangle pos size color).map Prod.fst ↔
    (⟨pos, size⟩ : Rectangle).Contains p := by
  rw [fillRectangle, mem_map_offset, mem_offsets, Rectangle.contains_sub]

/-- The pixels of a character. -/
theorem mem_writeAscii : p ∈ (writeAscii font pos c color).map Prod.fst ↔
    cellBox.Contains (p - pos) ∧ font.lit c (p - pos) = true := by
  unfold writeAscii Font.lit cellBox
  cases font.getFont c with
  | none => simp
  | some start =>
      simp only
      rw [mem_map_offset, List.mem_filter, mem_offsets]

/-- The pixels of a string. -/
theorem mem_writeString {s : List UInt8} : p ∈ (writeString font pos s color).map Prod.fst ↔
    ∃ (i : Nat) (c : UInt8), (cText s)[i]? = some c ∧
      cellBox.Contains (p - (pos + ⟨8 * i, 0⟩)) ∧ font.lit c (p - (pos + ⟨8 * i, 0⟩)) = true := by
  unfold writeString cText
  simp only [List.map_flatMap, List.mem_flatMap, Prod.exists, List.mk_mem_zipIdx_iff_getElem?,
    mem_writeAscii]
  constructor
  · rintro ⟨c, i, hchar, hpixel⟩
    exact ⟨i, c, hchar, hpixel⟩
  · rintro ⟨i, c, hchar, hpixel⟩
    exact ⟨c, i, hchar, hpixel⟩

/-- A rectangle is filled with one colour. -/
theorem color_fillRectangle : ∀ call ∈ fillRectangle pos size color, call.2 = color := by
  unfold fillRectangle
  intro call hmem
  obtain ⟨d, -, rfl⟩ := List.mem_map.mp hmem
  rfl

/-- A character is drawn in one colour, and what the font does not light is left. -/
theorem color_writeAscii : ∀ call ∈ writeAscii font pos c color, call.2 = color := by
  unfold writeAscii
  intro call hmem
  split at hmem
  · exact absurd hmem List.not_mem_nil
  · obtain ⟨d, -, rfl⟩ := List.mem_map.mp hmem
    rfl

/-- A string is drawn in one colour. -/
theorem color_writeString {s : List UInt8} :
    ∀ call ∈ writeString font pos s color, call.2 = color := by
  unfold writeString
  intro call hmem
  obtain ⟨ci, -, hcall⟩ := List.mem_flatMap.mp hmem
  exact color_writeAscii call hcall

/-! ## Windows with a title -/

/-- A rectangle with round corners is a part of the rectangle. -/
theorem contains_of_mem_fillRectangleRound {round : Int} {call : Vector2D × PixelColor}
    (h : call ∈ fillRectangleRound pos size color round) :
    (⟨pos, size⟩ : Rectangle).Contains call.1 := by
  obtain ⟨d, hd, rfl⟩ := List.mem_map.mp h
  rw [← Rectangle.contains_sub, Vector2D.add_sub_cancel_left]
  exact mem_offsets.mp (List.mem_filter.mp hd).1

/-- A rectangle with round upper corners is a part of the rectangle. -/
theorem contains_of_mem_fillRectangleRoundUpper {round : Int} {call : Vector2D × PixelColor}
    (h : call ∈ fillRectangleRoundUpper pos size color round) :
    (⟨pos, size⟩ : Rectangle).Contains call.1 := by
  obtain ⟨d, hd, rfl⟩ := List.mem_map.mp h
  rw [← Rectangle.contains_sub, Vector2D.add_sub_cancel_left]
  exact mem_offsets.mp (List.mem_filter.mp hd).1

/-- A string is drawn in a row of cells. -/
theorem contains_of_mem_writeString {s : List UInt8}
    (h : p ∈ (writeString font pos s color).map Prod.fst) :
    (⟨pos, ⟨8 * s.length, 16⟩⟩ : Rectangle).Contains p := by
  obtain ⟨i, c, hchar, hcell, -⟩ := mem_writeString.mp h
  have hlt : i < (cText s).length := (List.getElem?_eq_some_iff.mp hchar).1
  have hle : (cText s).length ≤ s.length := (List.takeWhile_sublist _).length_le
  unfold Rectangle.Contains cellBox at *
  simp only [Vector2D.sub_x, Vector2D.sub_y, Vector2D.add_x, Vector2D.add_y] at *
  omega

/-- The close button has fourteen rows of sixteen characters. -/
theorem closeButton_size : closeButton.length = 14 ∧ ∀ row ∈ closeButton, row.toList.length = 16 := by
  decide

/-- The close button is drawn in a box of sixteen by fourteen pixels, five below the upper edge of
its window. -/
theorem contains_of_mem_drawCloseButton {winW : Int} {call : Vector2D × PixelColor}
    (h : call ∈ drawCloseButton winW) :
    (⟨⟨winW - 21, 5⟩, ⟨16, 14⟩⟩ : Rectangle).Contains call.1 := by
  unfold drawCloseButton at h
  obtain ⟨⟨row, y⟩, hrow, hcall⟩ := List.mem_flatMap.mp h
  obtain ⟨⟨c, x⟩, hchar, rfl⟩ := List.mem_map.mp hcall
  obtain ⟨hheight, hwidth⟩ := closeButton_size
  have hy := List.snd_lt_of_mem_zipIdx hrow
  have hx := List.snd_lt_of_mem_zipIdx hchar
  rw [hwidth row (List.fst_mem_of_mem_zipIdx hrow)] at hx
  rw [hheight] at hy
  unfold Rectangle.Contains
  simp only [kCloseButtonWidth] at hx hy ⊢
  omega

/-- **A window that has room for its title is drawn inside its bounds.** -/
theorem contains_of_mem_drawWindow {winW winH : Int} {title : List UInt8}
    (htitle : 24 + 8 * title.length ≤ winW) (hheight : 20 ≤ winH) :
    ∀ call ∈ drawWindow font winW winH title,
      (⟨⟨0, 0⟩, ⟨winW, winH⟩⟩ : Rectangle).Contains call.1 := by
  unfold drawWindow drawWindowTitle
  intro call hmem
  have hbar : (⟨⟨0, 0⟩, ⟨winW, 20⟩⟩ : Rectangle).Within ⟨⟨0, 0⟩, ⟨winW, winH⟩⟩ :=
    ⟨Int.le_refl 0, Int.le_refl _, Int.le_refl 0, by simpa using hheight⟩
  simp only [List.mem_append] at hmem
  rcases hmem with ((hfill | hround) | hupper) | (hbg | htext) | hbutton
  · exact mem_fillRectangle.mp (List.mem_map_of_mem hfill)
  · exact contains_of_mem_fillRectangleRound hround
  · exact hbar.contains (contains_of_mem_fillRectangleRoundUpper hupper)
  · exact hbar.contains (contains_of_mem_fillRectangleRoundUpper hbg)
  · have hin := contains_of_mem_writeString (List.mem_map_of_mem htext)
    apply hbar.contains
    unfold Rectangle.Contains at hin ⊢
    simp only at hin ⊢
    omega
  · have hin := contains_of_mem_drawCloseButton hbutton
    apply hbar.contains
    unfold Rectangle.Contains at hin ⊢
    simp only at hin ⊢
    omega

end UhyokOS
