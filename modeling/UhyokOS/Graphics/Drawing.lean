import UhyokOS.Graphics.Geometry
import Mathlib.Algebra.Group.Int.Defs

/-!
# Drawing

The drawing functions of `kernel/graphics.cpp`, `kernel/font.cpp` and `kernel/window.cpp`. Such a
function only calls `Write` on the writer it is given, so it is modelled as the list of these calls
in order; what a writer does with them is up to the writer. The font is generated at build time and
is a parameter.

* `drawWindowTitle_positions`: an active and an inactive title are drawn at the same pixels.
-/

namespace UhyokOS

/-- The calls of `PixelWriter::Write`, oldest first. -/
abbrev Writes := List (Vector2D × PixelColor)

/-! ## Rectangles -/

/-- The offsets of the pixels of a rectangle of this size, row by row. -/
def offsets (size : Vector2D) : List Vector2D :=
  (List.range size.y.toNat).flatMap fun dy => (List.range size.x.toNat).map fun dx =>
    ⟨(dx : Nat), (dy : Nat)⟩

/-- Source: `kernel/graphics.cpp`, `FillRectangle` -/
def fillRectangle (pos size : Vector2D) (c : PixelColor) : Writes :=
  (offsets size).map fun d => (pos + d, c)

/-- Source: `kernel/graphics.cpp`, `isRectangleRound` -/
def isRectangleRound (x y maxX maxY r : Int) : Bool :=
  !(r ≥ x + y) && !(y ≤ -maxX + x + r) && !(maxX + maxY - r ≤ x + y) && !(maxY - r + x ≤ y)

/-- Source: `kernel/graphics.cpp`, `FillRectangleRound` -/
def fillRectangleRound (pos size : Vector2D) (c : PixelColor) (round : Int) : Writes :=
  ((offsets size).filter fun d => isRectangleRound d.x d.y size.x size.y round).map fun d =>
    (pos + d, c)

/-- Source: `kernel/graphics.cpp`, `isRectangleRoundUpper` -/
def isRectangleRoundUpper (x y maxX _maxY r : Int) : Bool :=
  !(r ≥ x + y) && !(y ≤ -maxX + x + r)

/-- Source: `kernel/graphics.cpp`, `FillRectangleRoundUpper` -/
def fillRectangleRoundUpper (pos size : Vector2D) (c : PixelColor) (round : Int) : Writes :=
  ((offsets size).filter fun d => isRectangleRoundUpper d.x d.y size.x size.y round).map fun d =>
    (pos + d, c)

/-! ## Text -/

/-- The bytes between `_binary_hankaku_bin_start` and its end: sixteen rows for each character. -/
structure Font where
  bytes : List UInt8
  rows : 16 ∣ bytes.length

/-- The index of the first row of a character, `none` for a character that has no glyph. A `char`
is signed, the index an `unsigned int`.
Source: `kernel/font.cpp`, `GetFont` -/
def Font.getFont (font : Font) (c : UInt8) : Option Nat :=
  let signed : Int := if c < 0x80 then c.toNat else c.toNat - 256
  let index := (16 * signed % 2 ^ 32).toNat
  if index ≥ font.bytes.length then none else some index

/-- Source: `kernel/font.cpp`, `WriteAscii` -/
def writeAscii (font : Font) (pos : Vector2D) (c : UInt8) (color : PixelColor) : Writes :=
  match font.getFont c with
  | none => []
  | some start =>
      ((offsets ⟨8, 16⟩).filter fun d =>
        (font.bytes.getD (start + d.y.toNat) 0).toNat <<< d.x.toNat &&& 0x80 != 0).map fun d =>
          (pos + d, color)

/-- Source: `kernel/font.cpp`, `WriteString` -/
def writeString (font : Font) (pos : Vector2D) (s : List UInt8) (color : PixelColor) : Writes :=
  (s.takeWhile (· != 0)).zipIdx.flatMap fun (c, i) =>
    writeAscii font (pos + ⟨8 * (i : Int), 0⟩) c color

/-! ## Windows with a title -/

/-- Source: `kernel/window.cpp`, `close_button` -/
def closeButton : List String :=
  ["...............@",
   ".:::::::::::::$@",
   ".:::::::::::::$@",
   ".:::@@::::@@::$@",
   ".::::@@::@@:::$@",
   ".:::::@@@@::::$@",
   ".::::::@@:::::$@",
   ".:::::@@@@::::$@",
   ".::::@@::@@:::$@",
   ".:::@@::::@@::$@",
   ".:::::::::::::$@",
   ".:::::::::::::$@",
   ".$$$$$$$$$$$$$$@",
   "@@@@@@@@@@@@@@@@"]

/-- Source: `kernel/window.cpp`, `kCloseButtonWidth` -/
abbrev kCloseButtonWidth : Int := 16

/-- The colour of a character of `close_button`.
Source: `kernel/window.cpp`, `DrawWindowTitle` -/
def closeButtonColor (c : Char) : PixelColor :=
  if c = '@' then toColor 0xAD8B73
  else if c = '$' then toColor 0x848484
  else if c = ':' then toColor 0xFFFBE9
  else toColor 0xffffff

/-- The loop of `DrawWindowTitle` over the close button.
Source: `kernel/window.cpp`, `DrawWindowTitle` -/
def drawCloseButton (winW : Int) : Writes :=
  closeButton.zipIdx.flatMap fun (row, y) =>
    row.toList.zipIdx.map fun (c, x) =>
      (⟨winW - 5 - kCloseButtonWidth + x, 5 + y⟩, closeButtonColor c)

/-- Source: `kernel/window.cpp`, `DrawWindowTitle` -/
def drawWindowTitle (font : Font) (winW : Int) (title : List UInt8) (active : Bool) : Writes :=
  let bgcolor : UInt32 := if active then 0xad9787 else 0xc2ad9f
  fillRectangleRoundUpper ⟨0, 0⟩ ⟨winW, 20⟩ (toColor bgcolor) 3 ++
    writeString font ⟨24, 4⟩ title (toColor 0xffffff) ++ drawCloseButton winW

/-- Source: `kernel/window.cpp`, `DrawWindow` -/
def drawWindow (font : Font) (winW winH : Int) (title : List UInt8) : Writes :=
  fillRectangle ⟨0, 0⟩ ⟨winW, winH⟩ (toColor 0xB5EAEA) ++
    fillRectangleRound ⟨0, 0⟩ ⟨winW, winH⟩ (toColor 0xFFFBE9) 3 ++
    fillRectangleRoundUpper ⟨0, 0⟩ ⟨winW, 20⟩ (toColor 0xAD8B73) 3 ++
    drawWindowTitle font winW title false

/-- The pixels a rounded rectangle fills do not depend on its colour. -/
theorem fillRectangleRoundUpper_positions (pos size : Vector2D) (c c' : PixelColor) (round : Int) :
    (fillRectangleRoundUpper pos size c round).map Prod.fst =
      (fillRectangleRoundUpper pos size c' round).map Prod.fst := by
  unfold fillRectangleRoundUpper
  rw [List.map_map, List.map_map]
  rfl

/-- **Activation recolours the title**: it writes the same pixels. -/
theorem drawWindowTitle_positions (font : Font) (winW : Int) (title : List UInt8)
    (active active' : Bool) :
    (drawWindowTitle font winW title active).map Prod.fst =
      (drawWindowTitle font winW title active').map Prod.fst := by
  unfold drawWindowTitle
  simp only [List.map_append]
  congr 2
  apply fillRectangleRoundUpper_positions

end UhyokOS
