import UhyokOS.Graphics.Text
import UhyokOS.Lib.TextLines
import UhyokOS.Lib.BinaryDigits
import Mathlib.Data.List.TakeWhile

/-!
# The font compiler

The model of `compile` in `tools/makefont.py`, which makes the font binary from a text, against
`WriteAscii`, which draws from it. A text has a block for each character: a header, and sixteen
rows of eight characters, of which `.` is a pixel that is left out.

* `compile_eq`: the rows of the binary are those of the blocks. If the text begins with a header
  that is white space and then `.`, `*` or `@`, stripping the text makes a row of it, in front of
  the others.
* `mem_writeAsciiBytes`: what is drawn from a binary.
* `drawsBlock_iff_of_lt` and `drawsBlock_iff_of_ge`: the lower and the upper half of the
  characters. The index of a character from 0x80 on is made from a negative `char`, and lies behind
  every binary.
* `compiled_iff_drawable`: when a character is drawn as its block in the text.
* `exists_font`: without such a header the binary is a `Font`.
-/

namespace UhyokOS

open TextLines BinaryDigits

/-! ## The source -/

/-- The characters of `BITMAP_PATTERN`. -/
def isBitmapChar (c : Char) : Bool := c == '.' || c == '*' || c == '@'

/-- `BITMAP_PATTERN.match(line)`
Source: `tools/makefont.py`, `BITMAP_PATTERN` -/
def matchBitmap (line : List Char) : Option (List Char) :=
  let m := line.takeWhile isBitmapChar
  if m.isEmpty then none else some m

/-- `functools.reduce`, which raises an exception for an empty list. -/
def reduce {α : Type} (f : α → α → α) : List α → Option α
  | [] => none
  | a :: as => some (as.foldl f a)

/-- `int.to_bytes(1, byteorder='little')`, which raises an exception for a larger number. -/
def toBytes (n : Nat) : Option UInt8 := if n < 256 then some (UInt8.ofNat n) else none

/-- The byte of a row, in the body of the loop of `compile`. -/
def compileRow (m : List Char) : Option UInt8 :=
  let bits := m.map fun x => if x = '.' then 0 else 1
  (reduce (fun a b => 2 * a + b) bits).bind toBytes

/-- `none` is an exception.
Source: `tools/makefont.py`, `compile` -/
def compile (src : List Char) : Option (List UInt8) :=
  ((splitLines (lstrip src)).filterMap matchBitmap).mapM compileRow

/-- `GetFont` for a binary that need not have whole glyphs.
Source: `kernel/font.cpp`, `GetFont` -/
def getFontBytes (bytes : List UInt8) (c : UInt8) : Option Nat :=
  let signed : Int := if c < 0x80 then c.toNat else c.toNat - 256
  let index := (16 * signed % 2 ^ 32).toNat
  if index ≥ bytes.length then none else some index

/-- `WriteAscii` for such a binary.
Source: `kernel/font.cpp`, `WriteAscii` -/
def writeAsciiBytes (bytes : List UInt8) (pos : Vector2D) (c : UInt8) (color : PixelColor) : Writes :=
  match getFontBytes bytes c with
  | none => []
  | some start =>
      ((offsets ⟨8, 16⟩).filter fun d =>
        (bytes.getD (start + d.y.toNat) 0).toNat <<< d.x.toNat &&& 0x80 != 0).map fun d =>
          (pos + d, color)

/-- With whole glyphs it is the function that draws text. -/
theorem writeAscii_eq (font : Font) (pos : Vector2D) (c : UInt8) (color : PixelColor) :
    writeAscii font pos c color = writeAsciiBytes font.bytes pos c color := rfl

/-! ## Font texts -/

/-- A block of a font text: a header, and the lines behind it. -/
structure GlyphBlock where
  header : List Char
  body : List (List Char)
  /-- The header does not begin with a character of a row. -/
  header_plain : ∀ c ∈ header.head?, isBitmapChar c = false
  /-- Sixteen of the lines are not blank, -/
  length_rows : (body.filter fun line => !isBlank line).length = 16
  /-- and each of these has eight characters, all of them of a row. -/
  row_ok : ∀ row ∈ body.filter fun line => !isBlank line,
    row.length = 8 ∧ ∀ c ∈ row, isBitmapChar c = true

namespace GlyphBlock

/-- The rows of a block. -/
def rows (b : GlyphBlock) : List (List Char) := b.body.filter fun line => !isBlank line

/-- All lines of a block. -/
def lines (b : GlyphBlock) : List (List Char) := b.header :: b.body

/-- Character `dx` of row `dy` is not `.`. -/
def Lit (b : GlyphBlock) (dx dy : Nat) : Prop :=
  ∃ row c, b.rows[dy]? = some row ∧ row[dx]? = some c ∧ c ≠ '.'

end GlyphBlock

/-- A font text: blank lines, and then blocks. -/
def IsFontText (src : List Char) (blocks : List GlyphBlock) : Prop :=
  ∃ front, (∀ line ∈ front, isBlank line = true) ∧
    splitLines src = front ++ blocks.flatMap GlyphBlock.lines

/-- The pixels of a block are drawn, in one colour, and no others. -/
def DrawsBlock (writes : Writes) (pos : Vector2D) (color : PixelColor) (b : GlyphBlock) : Prop :=
  ∀ call, call ∈ writes ↔ ∃ dx dy : Nat, b.Lit dx dy ∧ call = (pos + ⟨dx, dy⟩, color)

/-- The row that stripping the text makes of a header: the first line that is not blank begins with
white space, and goes on with characters of a row. -/
def strayRow : List (List Char) → Option (List Char)
  | [] => none
  | line :: lines =>
    if isBlank line then strayRow lines
    else if line.head?.any isSpace then matchBitmap (lstrip line)
    else none

/-- The number that a row stands for. -/
def rowValue (row : List Char) : Nat := value (row.map (· != '.'))

/-! ## Compiling -/

variable {src line m row : List Char} {lines rows : List (List Char)} {blocks : List GlyphBlock}
  {b : GlyphBlock} {bytes : List UInt8} {pos : Vector2D} {color : PixelColor} {c : UInt8}

theorem not_isBitmapChar_of_isSpace {x : Char} (h : isSpace x = true) : isBitmapChar x = false := by
  have hne : ∀ y : Char, isSpace y = false → x ≠ y := by
    rintro y hy rfl
    exact Bool.false_ne_true (hy.symm.trans h)
  simp only [isBitmapChar, Bool.or_eq_false_iff, beq_eq_false_iff_ne]
  exact ⟨⟨hne '.' (by decide), hne '*' (by decide)⟩, hne '@' (by decide)⟩

/-- A line that does not begin with a character of a row is skipped. -/
theorem matchBitmap_of_head (h : ∀ x ∈ line.head?, isBitmapChar x = false) :
    matchBitmap line = none := by
  cases line with
  | nil => rfl
  | cons x line =>
      have hx : isBitmapChar x = false := h x rfl
      rw [matchBitmap, List.takeWhile_cons_of_neg (Bool.eq_false_iff.mp hx)]
      rfl

theorem matchBitmap_of_isBlank (h : isBlank line = true) : matchBitmap line = none := by
  apply matchBitmap_of_head
  intro x hx
  exact not_isBitmapChar_of_isSpace (List.all_eq_true.mp h x (List.mem_of_mem_head? hx))

/-- A line of such characters is a row. -/
theorem matchBitmap_of_all (hne : line ≠ []) (h : ∀ x ∈ line, isBitmapChar x = true) :
    matchBitmap line = some line := by
  rw [matchBitmap, List.takeWhile_eq_self_iff.mpr h]
  exact if_neg (by rwa [List.isEmpty_iff])

theorem filterMap_cons_eq : (line :: lines).filterMap matchBitmap =
    (matchBitmap line).toList ++ lines.filterMap matchBitmap := by
  rw [List.filterMap_cons]
  cases matchBitmap line <;> rfl

/-- Stripping a text puts its stray row in front. -/
theorem filterMap_lstripLines (lines : List (List Char)) :
    (lstripLines lines).filterMap matchBitmap =
      (strayRow lines).toList ++ lines.filterMap matchBitmap := by
  induction lines with
  | nil => rfl
  | cons line lines ih =>
      by_cases hblank : isBlank line = true
      · rw [lstripLines, strayRow, if_pos hblank, if_pos hblank, ih, filterMap_cons_eq,
          matchBitmap_of_isBlank hblank]
        rfl
      · rw [lstripLines, strayRow, if_neg hblank, if_neg hblank, filterMap_cons_eq, filterMap_cons_eq]
        cases line with
        | nil => exact absurd rfl hblank
        | cons x line =>
            cases hspace : isSpace x
            · -- nothing is stripped from the line
              rw [lstrip_cons_of_not hspace, if_neg (by simp [hspace])]
              rfl
            · have hskip : matchBitmap (x :: line) = none := matchBitmap_of_head fun y hy => by
                cases hy
                exact not_isBitmapChar_of_isSpace hspace
              rw [if_pos (by simp [hspace]), hskip]
              rfl

/-- The rows of a block are what is matched in it. -/
theorem filterMap_lines (b : GlyphBlock) : b.lines.filterMap matchBitmap = b.rows := by
  have hbody : ∀ body : List (List Char),
      (∀ row ∈ body.filter fun line => !isBlank line,
        row.length = 8 ∧ ∀ c ∈ row, isBitmapChar c = true) →
      body.filterMap matchBitmap = body.filter fun line => !isBlank line := by
    intro body hrows
    induction body with
    | nil => rfl
    | cons line body ih =>
        cases hblank : isBlank line
        · rw [List.filter_cons_of_pos (by rw [hblank]; rfl)] at hrows ⊢
          obtain ⟨⟨hlength, hchars⟩, hrows⟩ := List.forall_mem_cons.mp hrows
          have hne : line ≠ [] := List.ne_nil_of_length_pos (by omega)
          rw [filterMap_cons_eq, matchBitmap_of_all hne hchars, ih hrows]
          rfl
        · rw [List.filter_cons_of_neg (by rw [hblank]; decide)] at hrows ⊢
          rw [filterMap_cons_eq, matchBitmap_of_isBlank hblank, ih hrows]
          rfl
  rw [GlyphBlock.lines, filterMap_cons_eq, matchBitmap_of_head b.header_plain]
  exact hbody b.body b.row_ok

/-- The rows of a font text. -/
theorem filterMap_fontText (h : IsFontText src blocks) :
    (splitLines src).filterMap matchBitmap = blocks.flatMap GlyphBlock.rows := by
  obtain ⟨front, hfront, hlines⟩ := h
  have hskip : front.filterMap matchBitmap = [] :=
    List.filterMap_eq_nil_iff.mpr fun line hline => matchBitmap_of_isBlank (hfront line hline)
  rw [hlines, List.filterMap_append, hskip, List.nil_append, List.filterMap_flatMap]
  simp only [filterMap_lines]

/-- The rows in the binary of a text. -/
def compiledRows (src : List Char) (blocks : List GlyphBlock) : List (List Char) :=
  (strayRow (splitLines src)).toList ++ blocks.flatMap GlyphBlock.rows

/-- The byte of a row that fits into one. -/
def rowByte (row : List Char) : UInt8 := UInt8.ofNat (rowValue row)

/-- The two digits of a pixel. -/
theorem digit_eq (x : Char) : (if x = '.' then 0 else 1) = (x != '.').toNat := by
  by_cases hx : x = '.'
  · rw [if_pos hx, hx]
    rfl
  · rw [if_neg hx, bne_iff_ne.mpr hx]
    rfl

theorem compileRow_eq (h : m ≠ []) :
    compileRow m = if rowValue m < 256 then some (rowByte m) else none := by
  have hbits : reduce (fun a b => 2 * a + b) (m.map fun x => if x = '.' then 0 else 1) =
      some (rowValue m) := by
    obtain ⟨x, m, rfl⟩ := List.exists_cons_of_ne_nil h
    simp only [digit_eq, List.map_cons, reduce, rowValue, value, List.foldl_cons, List.foldl_map,
      Nat.mul_zero, Nat.zero_add]
  rw [compileRow, hbits]
  rfl

/-- All rows are compiled if each fits into a byte, and otherwise none is. -/
theorem mapM_compileRow (h : ∀ row ∈ rows, row ≠ []) : rows.mapM compileRow =
    if ∀ row ∈ rows, rowValue row < 256 then some (rows.map rowByte) else none := by
  induction rows with
  | nil => rfl
  | cons row rows ih =>
      obtain ⟨hrow, hrows⟩ := List.forall_mem_cons.mp h
      rw [List.mapM_cons, compileRow_eq hrow, ih hrows]
      simp only [List.forall_mem_cons]
      by_cases hfits : rowValue row < 256
      · by_cases hall : ∀ row ∈ rows, rowValue row < 256
        · rw [if_pos hfits, if_pos hall, if_pos ⟨hfits, hall⟩]
          rfl
        · rw [if_pos hfits, if_neg hall]
          exact (if_neg fun h => hall h.2).symm
      · rw [if_neg hfits]
        exact (if_neg fun h => hfits h.1).symm

theorem row_of_mem (h : row ∈ blocks.flatMap GlyphBlock.rows) :
    row.length = 8 ∧ ∀ c ∈ row, isBitmapChar c = true := by
  obtain ⟨b, -, hrow⟩ := List.mem_flatMap.mp h
  exact b.row_ok row hrow

theorem rowValue_lt (h : row.length = 8) : rowValue row < 2 ^ 8 := by
  have hlt : value (row.map (· != '.')) < 2 ^ (row.map (· != '.')).length := value_lt
  rwa [List.length_map, h] at hlt

/-- The rows of the blocks fit into a byte. -/
theorem rowValue_lt_of_mem (h : row ∈ blocks.flatMap GlyphBlock.rows) : rowValue row < 256 :=
  rowValue_lt (row_of_mem h).1

theorem strayRow_ne_nil (h : strayRow lines = some m) : m ≠ [] := by
  induction lines with
  | nil => cases h
  | cons line lines ih =>
      rw [strayRow] at h
      split at h
      · exact ih h
      · split at h
        · rw [matchBitmap] at h
          split at h
          · cases h
          · next hne =>
              cases h
              rwa [List.isEmpty_iff] at hne
        · cases h

/-- All rows fit into a byte iff the stray row does. -/
theorem compiledRows_fit_iff : (∀ row ∈ compiledRows src blocks, rowValue row < 256) ↔
    ∀ m ∈ strayRow (splitLines src), rowValue m < 256 := by
  rw [compiledRows, List.forall_mem_append]
  simp only [Option.mem_toList]
  exact and_iff_left fun row hrow => rowValue_lt_of_mem hrow

/-- **The binary of a font text** has the rows of its blocks, behind the stray row if there is one.
There is no binary if the stray row does not fit into a byte. -/
theorem compile_eq (h : IsFontText src blocks) :
    compile src = if ∀ m ∈ strayRow (splitLines src), rowValue m < 256 then
      some ((compiledRows src blocks).map rowByte) else none := by
  have hne : ∀ row ∈ compiledRows src blocks, row ≠ [] := by
    intro row hrow
    rcases List.mem_append.mp hrow with hstray | hblock
    · exact strayRow_ne_nil (Option.mem_toList.mp hstray)
    · exact List.ne_nil_of_length_pos (by rw [(row_of_mem hblock).1]; decide)
  rw [compile, splitLines_lstrip, filterMap_lstripLines, filterMap_fontText h]
  show (compiledRows src blocks).mapM compileRow = _
  rw [mapM_compileRow hne]
  simp only [compiledRows_fit_iff]

/-! ## Drawing -/

variable {dx dy : Nat} {call : Vector2D × PixelColor}

/-- The pixels of a row are the bits of its number. -/
theorem testBit_rowValue (hrow : row.length = 8) (hdx : dx < 8) :
    (rowValue row).testBit (7 - dx) = true ↔ ∃ x, row[dx]? = some x ∧ x ≠ '.' := by
  have hlength : (row.map (· != '.')).length = 8 := (List.length_map _).trans hrow
  have hbit := testBit_value (hdx.trans_eq hlength.symm)
  simp only [List.getElem_map, hlength] at hbit
  rw [rowValue, hbit, List.getElem?_eq_getElem (hdx.trans_eq hrow.symm), bne_iff_ne]
  simp only [Option.some.injEq, exists_eq_left']

/-- What is drawn from a binary. -/
theorem mem_writeAsciiBytes : call ∈ writeAsciiBytes bytes pos c color ↔
    ∃ start, getFontBytes bytes c = some start ∧ ∃ dx dy : Nat, dx < 8 ∧ dy < 16 ∧
      (bytes.getD (start + dy) 0).toNat.testBit (7 - dx) = true ∧
      call = (pos + ⟨dx, dy⟩, color) := by
  unfold writeAsciiBytes
  cases getFontBytes bytes c with
  | none => simp
  | some start =>
      simp only [List.mem_map, List.mem_filter, mem_offsets, Option.some.injEq, exists_eq_left']
      constructor
      · rintro ⟨d, ⟨⟨hx₀, hx₁, hy₀, hy₁⟩, hlit⟩, rfl⟩
        simp only at hx₀ hx₁ hy₀ hy₁
        have hdx : d.x.toNat < 8 := by omega
        have hdy : d.y.toNat < 16 := by omega
        refine ⟨d.x.toNat, d.y.toNat, hdx, hdy, ?_, ?_⟩
        · rwa [← shiftLeft_and_bne_zero (Nat.le_of_lt_succ hdx)]
        · rw [Int.toNat_of_nonneg hx₀, Int.toNat_of_nonneg hy₀]
      · rintro ⟨dx, dy, hdx, hdy, hlit, rfl⟩
        refine ⟨⟨dx, dy⟩, ⟨⟨?_, ?_, ?_, ?_⟩, ?_⟩, rfl⟩
        · exact Int.natCast_nonneg dx
        · simp only
          omega
        · exact Int.natCast_nonneg dy
        · simp only
          omega
        · rw [← shiftLeft_and_bne_zero (Nat.le_of_lt_succ hdx)] at hlit
          exact hlit

/-- The lower half of the characters: a `char` that is not negative. -/
theorem getFontBytes_of_lt (hc : c.toNat < 128) (hlength : 16 * c.toNat < bytes.length) :
    getFontBytes bytes c = some (16 * c.toNat) := by
  have hlt : c < 0x80 := UInt8.lt_iff_toNat_lt.mpr hc
  have hindex : (16 * (c.toNat : Int) % 2 ^ 32).toNat = 16 * c.toNat := by omega
  simp only [getFontBytes, if_pos hlt, hindex]
  exact if_neg (Nat.not_le.mpr hlength)

/-- The upper half: the index wraps. -/
theorem getFontBytes_of_ge (hc : 128 ≤ c.toNat) (hlength : bytes.length ≤ 2 ^ 32 - 2048) :
    getFontBytes bytes c = none := by
  have hge : ¬c < 0x80 := fun hlt => Nat.not_lt.mpr hc (UInt8.lt_iff_toNat_lt.mp hlt)
  have hbyte := c.toNat_lt
  have hindex : (16 * ((c.toNat : Int) - 256) % 2 ^ 32).toNat = 2 ^ 32 - 4096 + 16 * c.toNat := by
    omega
  simp only [getFontBytes, if_neg hge, hindex]
  exact if_pos (by omega)

/-! ### Blocks -/

/-- Row `i` of a block among the rows of all blocks. -/
theorem getElem?_rows {i k : Nat} (hi : i < 16) :
    (blocks.flatMap GlyphBlock.rows)[16 * k + i]? = blocks[k]?.bind fun b => b.rows[i]? := by
  induction blocks generalizing k with
  | nil => rfl
  | cons b blocks ih =>
      have hlength : b.rows.length = 16 := b.length_rows
      rw [List.flatMap_cons]
      cases k with
      | zero =>
          rw [List.getElem?_append_left (by omega), Nat.mul_zero, Nat.zero_add]
          rfl
      | succ k =>
          rw [List.getElem?_append_right (by omega), List.getElem?_cons_succ, ← ih, hlength]
          congr 1
          omega

theorem length_flatMap_rows (blocks : List GlyphBlock) :
    (blocks.flatMap GlyphBlock.rows).length = 16 * blocks.length := by
  induction blocks with
  | nil => rfl
  | cons b blocks ih =>
      have hlength : b.rows.length = 16 := b.length_rows
      rw [List.flatMap_cons, List.length_append, hlength, ih, List.length_cons, Nat.mul_succ,
        Nat.add_comm]

/-- A pixel of a block is a bit of a row. -/
theorem lit_iff {k : Nat} (hk : blocks[k]? = some b) : b.Lit dx dy ↔
    dx < 8 ∧ dy < 16 ∧
      (rowValue ((blocks.flatMap GlyphBlock.rows).getD (16 * k + dy) [])).testBit (7 - dx) = true := by
  have hlength : b.rows.length = 16 := b.length_rows
  have hrow : ∀ row, b.rows[dy]? = some row → dy < 16 ∧ row.length = 8 ∧
      (blocks.flatMap GlyphBlock.rows).getD (16 * k + dy) [] = row := by
    intro row hrow
    have hdy : dy < 16 := (List.getElem?_eq_some_iff.mp hrow).1.trans_eq hlength
    refine ⟨hdy, (b.row_ok row (List.mem_of_getElem? hrow)).1, ?_⟩
    rw [List.getD_eq_getElem?_getD, getElem?_rows hdy, hk]
    exact congrArg (Option.getD · []) hrow
  constructor
  · rintro ⟨row, x, hdy, hx, hne⟩
    obtain ⟨hlt, height, heq⟩ := hrow row hdy
    have hdx : dx < 8 := (List.getElem?_eq_some_iff.mp hx).1.trans_eq height
    rw [heq]
    exact ⟨hdx, hlt, (testBit_rowValue height hdx).mpr ⟨x, hx, hne⟩⟩
  · rintro ⟨hdx, hdy, hbit⟩
    have hsome : b.rows[dy]? = some b.rows[dy] := List.getElem?_eq_getElem (hdy.trans_eq hlength.symm)
    obtain ⟨-, height, heq⟩ := hrow _ hsome
    rw [heq] at hbit
    obtain ⟨x, hx, hne⟩ := (testBit_rowValue height hdx).mp hbit
    exact ⟨_, x, hsome, hx, hne⟩

theorem length_compiledRows (src : List Char) (blocks : List GlyphBlock) :
    16 * blocks.length ≤ (compiledRows src blocks).length ∧
    (compiledRows src blocks).length ≤ 16 * blocks.length + 1 := by
  rw [compiledRows, List.length_append, length_flatMap_rows]
  have hstray : (strayRow (splitLines src)).toList.length ≤ 1 := Option.length_toList_le
  omega

/-- A row that fits into a byte is the byte. -/
theorem toNat_getD_rowByte {k : Nat} (h : ∀ row ∈ rows, rowValue row < 256) (hk : k < rows.length) :
    ((rows.map rowByte).getD k 0).toNat = rowValue (rows.getD k []) := by
  have hfits : rowValue rows[k] < 256 := h _ (List.getElem_mem hk)
  rw [List.getD_eq_getElem?_getD, List.getD_eq_getElem?_getD, List.getElem?_map,
    List.getElem?_eq_getElem hk]
  exact UInt8.toNat_ofNat_of_lt' hfits

/-- The offset of a pixel can be told from its position. -/
theorem exists_pixel_iff {P : Nat → Nat → Prop} :
    (∃ dx' dy' : Nat, P dx' dy' ∧
      ((pos + ⟨dx, dy⟩, color) : Vector2D × PixelColor) = (pos + ⟨dx', dy'⟩, color)) ↔ P dx dy := by
  constructor
  · rintro ⟨dx', dy', hP, heq⟩
    have hoffset : (⟨dx, dy⟩ : Vector2D) = ⟨dx', dy'⟩ := by
      rw [← Vector2D.add_sub_cancel_left pos ⟨dx, dy⟩, ← Vector2D.add_sub_cancel_left pos ⟨dx', dy'⟩]
      exact congrArg (· - pos) (congrArg Prod.fst heq)
    obtain ⟨hx, hy⟩ := Vector2D.mk.inj hoffset
    rwa [Int.ofNat_inj.mp hx, Int.ofNat_inj.mp hy]
  · exact fun hP => ⟨dx, dy, hP, rfl⟩

/-- What is drawn of a character in the lower half. -/
theorem mem_writeAsciiBytes_of_lt (hc : c.toNat < 128)
    (hfits : ∀ row ∈ rows, rowValue row < 256) (hlength : 16 * c.toNat + 16 ≤ rows.length) :
    call ∈ writeAsciiBytes (rows.map rowByte) pos c color ↔
      ∃ dx dy : Nat, (dx < 8 ∧ dy < 16 ∧
        (rowValue (rows.getD (16 * c.toNat + dy) [])).testBit (7 - dx) = true) ∧
        call = (pos + ⟨dx, dy⟩, color) := by
  have hstart : getFontBytes (rows.map rowByte) c = some (16 * c.toNat) :=
    getFontBytes_of_lt hc (by rw [List.length_map]; omega)
  simp only [mem_writeAsciiBytes, hstart, Option.some.injEq, exists_eq_left', and_assoc]
  refine exists_congr fun dx => exists_congr fun dy => and_congr_right fun _ =>
    and_congr_right fun hdy => ?_
  rw [toNat_getD_rowByte hfits (by omega)]

/-- **The lower half**: a character is drawn as its block iff the binary has its rows. -/
theorem drawsBlock_iff_of_lt (hc : c.toNat < 128) (hb : blocks[c.toNat]? = some b)
    (hfits : ∀ row ∈ rows, rowValue row < 256) (hlength : 16 * blocks.length ≤ rows.length) :
    DrawsBlock (writeAsciiBytes (rows.map rowByte) pos c color) pos color b ↔
      ∀ dy < 16, rowValue (rows.getD (16 * c.toNat + dy) []) =
        rowValue ((blocks.flatMap GlyphBlock.rows).getD (16 * c.toNat + dy) []) := by
  have hcount : c.toNat < blocks.length := (List.getElem?_eq_some_iff.mp hb).1
  have hin : 16 * c.toNat + 16 ≤ rows.length := by omega
  have hlt : ∀ {rows : List (List Char)} {k}, (∀ row ∈ rows, rowValue row < 256) → k < rows.length →
      rowValue (rows.getD k []) < 2 ^ 8 := by
    intro rows k hall hk
    rw [List.getD_eq_getElem _ _ hk]
    exact hall _ (List.getElem_mem hk)
  have hblocks : ∀ row ∈ blocks.flatMap GlyphBlock.rows, rowValue row < 256 := fun _ hrow =>
    rowValue_lt_of_mem hrow
  simp only [DrawsBlock, mem_writeAsciiBytes_of_lt hc hfits hin, lit_iff hb]
  constructor
  · intro h dy hdy
    have hblockIn : 16 * c.toNat + dy < (blocks.flatMap GlyphBlock.rows).length := by
      rw [length_flatMap_rows]
      omega
    refine (eq_iff_testBit (hlt hfits (by omega)) (hlt hblocks hblockIn)).mpr fun dx hdx => ?_
    have hpixel := h (pos + ⟨dx, dy⟩, color)
    rw [exists_pixel_iff, exists_pixel_iff] at hpixel
    simp only [hdx, hdy, true_and] at hpixel
    exact Bool.eq_iff_iff.mpr hpixel
  · intro h call
    refine exists_congr fun dx => exists_congr fun dy => and_congr_left fun _ =>
      and_congr_right fun _ => and_congr_right fun hdy => ?_
    rw [h dy hdy]

/-- **The upper half**: nothing is drawn. -/
theorem drawsBlock_iff_of_ge (hc : 128 ≤ c.toNat) (hlength : bytes.length ≤ 2 ^ 32 - 2048) :
    DrawsBlock (writeAsciiBytes bytes pos c color) pos color b ↔ ∀ dx dy, ¬b.Lit dx dy := by
  have hnone : ∀ call, call ∉ writeAsciiBytes bytes pos c color := by
    intro call hcall
    obtain ⟨start, hstart, -⟩ := mem_writeAsciiBytes.mp hcall
    rw [getFontBytes_of_ge hc hlength] at hstart
    cases hstart
  constructor
  · exact fun h dx dy hlit => hnone _ ((h _).mpr ⟨dx, dy, hlit, rfl⟩)
  · intro h call
    refine iff_of_false (hnone call) ?_
    rintro ⟨dx, dy, hlit, -⟩
    exact h dx dy hlit

/-! ## The compiler and the renderer -/

/-- When a character is drawn as its block in the text. -/
structure Drawable (src : List Char) (blocks : List GlyphBlock) (c : UInt8) (b : GlyphBlock) :
    Prop where
  /-- The stray row, if there is one, fits into a byte. -/
  stray_fits : ∀ m ∈ strayRow (splitLines src), rowValue m < 256
  /-- In the lower half it moves all rows by one, so each row of the block must be the same as the row
  before it. -/
  lower : c.toNat < 128 → ∀ m ∈ strayRow (splitLines src), ∀ dy < 16,
    rowValue ((m :: blocks.flatMap GlyphBlock.rows).getD (16 * c.toNat + dy) []) =
      rowValue ((blocks.flatMap GlyphBlock.rows).getD (16 * c.toNat + dy) [])
  /-- In the upper half the block must be blank. -/
  upper : 128 ≤ c.toNat → ∀ dx dy, ¬b.Lit dx dy

/-- The lower half, with the stray row. -/
theorem compiledRows_same_iff {k : Nat} : (∀ dy < 16,
    rowValue ((compiledRows src blocks).getD (k + dy) []) =
      rowValue ((blocks.flatMap GlyphBlock.rows).getD (k + dy) [])) ↔
    ∀ m ∈ strayRow (splitLines src), ∀ dy < 16,
      rowValue ((m :: blocks.flatMap GlyphBlock.rows).getD (k + dy) []) =
        rowValue ((blocks.flatMap GlyphBlock.rows).getD (k + dy) []) := by
  rw [compiledRows]
  cases strayRow (splitLines src) with
  | none => exact iff_of_true (fun _ _ => rfl) fun m hm => nomatch hm
  | some m =>
      refine ⟨fun h m' hm' => ?_, fun h => h m rfl⟩
      cases hm'
      exact h

/-- **The font compiler and the renderer agree** on a character iff it is drawable. -/
theorem compiled_iff_drawable (src : List Char) (blocks : List GlyphBlock)
    (h : IsFontText src blocks) (hcount : blocks.length ≤ 256) (c : UInt8) (b : GlyphBlock)
    (hb : blocks[c.toNat]? = some b) (pos : Vector2D) (color : PixelColor) :
    (∃ bytes, compile src = some bytes ∧
      DrawsBlock (writeAsciiBytes bytes pos c color) pos color b) ↔ Drawable src blocks c b := by
  obtain ⟨hlow, hhigh⟩ := length_compiledRows src blocks
  have hbytes : ((compiledRows src blocks).map rowByte).length ≤ 2 ^ 32 - 2048 := by
    rw [List.length_map]
    omega
  rw [compile_eq h]
  by_cases hstray : ∀ m ∈ strayRow (splitLines src), rowValue m < 256
  · have hfits : ∀ row ∈ compiledRows src blocks, rowValue row < 256 :=
      compiledRows_fit_iff.mpr hstray
    simp only [if_pos hstray, Option.some.injEq, exists_eq_left']
    rcases Nat.lt_or_ge c.toNat 128 with hc | hc
    · rw [drawsBlock_iff_of_lt hc hb hfits hlow, compiledRows_same_iff]
      exact ⟨fun hsame => ⟨hstray, fun _ => hsame, fun hge => absurd hc (Nat.not_lt.mpr hge)⟩,
        fun hdrawable => hdrawable.lower hc⟩
    · rw [drawsBlock_iff_of_ge hc hbytes]
      exact ⟨fun hblank => ⟨hstray, fun hlt => absurd hlt (Nat.not_lt.mpr hc), fun _ => hblank⟩,
        fun hdrawable => hdrawable.upper hc⟩
  · simp only [if_neg hstray]
    refine iff_of_false ?_ fun hdrawable => hstray hdrawable.stray_fits
    rintro ⟨bytes, hnone, -⟩
    cases hnone

/-- Without a stray row the binary has whole glyphs, and the lower half is drawn. -/
theorem exists_font (h : IsFontText src blocks) (hstray : strayRow (splitLines src) = none) :
    ∃ font : Font, compile src = some font.bytes ∧
      ∀ (c : UInt8) (b : GlyphBlock) (pos : Vector2D) (color : PixelColor), c.toNat < 128 →
        blocks[c.toNat]? = some b → DrawsBlock (writeAscii font pos c color) pos color b := by
  have hrows : compiledRows src blocks = blocks.flatMap GlyphBlock.rows := by
    rw [compiledRows, hstray]
    rfl
  have hlength : (blocks.flatMap GlyphBlock.rows).length = 16 * blocks.length :=
    length_flatMap_rows blocks
  refine ⟨⟨(blocks.flatMap GlyphBlock.rows).map rowByte, ?_⟩, ?_, ?_⟩
  · rw [List.length_map, hlength]
    exact Nat.dvd_mul_right 16 blocks.length
  · rw [compile_eq h, hstray, hrows]
    exact if_pos fun m hm => nomatch hm
  · intro c b pos color hc hb
    have hfits : ∀ row ∈ blocks.flatMap GlyphBlock.rows, rowValue row < 256 := fun _ hrow =>
      rowValue_lt_of_mem hrow
    rw [writeAscii_eq]
    exact (drawsBlock_iff_of_lt hc hb hfits hlength.ge).mpr fun _ _ => rfl

/-- The text of blocks without line breaks. -/
theorem splitLines_blocks
    (h : ∀ b ∈ blocks, ∀ line ∈ b.lines, ∀ x ∈ line, isLineBreak x = false) :
    splitLines (unlines (blocks.flatMap GlyphBlock.lines)) = blocks.flatMap GlyphBlock.lines := by
  refine splitLines_unlines fun line hline => ?_
  obtain ⟨b, hb, hline⟩ := List.mem_flatMap.mp hline
  exact h b hb line hline

/-- A block with all pixels. -/
def fullBlock : GlyphBlock where
  header := ['0', 'x']
  body := List.replicate 16 (List.replicate 8 '@')
  header_plain := by
    rintro _ ⟨⟩
    decide
  length_rows := by decide
  row_ok := by
    intro row hrow
    rw [List.eq_of_mem_replicate (List.mem_of_mem_filter hrow)]
    refine ⟨rfl, fun x hx => ?_⟩
    rw [List.eq_of_mem_replicate hx]
    decide

/-- A text of `n` such blocks. -/
def fullText (n : Nat) : List Char := unlines ((List.replicate n fullBlock).flatMap GlyphBlock.lines)

theorem splitLines_fullText (n : Nat) :
    splitLines (fullText n) = (List.replicate n fullBlock).flatMap GlyphBlock.lines := by
  have hplain : (fullBlock.lines.all fun line => line.all fun x => !isLineBreak x) = true := by decide
  apply splitLines_blocks
  intro b hb
  rw [List.eq_of_mem_replicate hb]
  simpa only [List.all_eq_true, Bool.not_eq_true'] using hplain

theorem isFontText_fullText (n : Nat) : IsFontText (fullText n) (List.replicate n fullBlock) :=
  ⟨[], fun _ hline => absurd hline List.not_mem_nil, splitLines_fullText n⟩

theorem strayRow_fullText (n : Nat) : strayRow (splitLines (fullText n)) = none := by
  rw [splitLines_fullText]
  cases n with
  | zero => rfl
  | succ n => rfl

/-- One block, and the character that it is for. -/
theorem compiled_fullText_one : ∃ bytes, compile (fullText 1) = some bytes ∧
    DrawsBlock (writeAsciiBytes bytes ⟨0, 0⟩ 0 ⟨0, 0, 0⟩) ⟨0, 0⟩ ⟨0, 0, 0⟩ fullBlock := by
  apply (compiled_iff_drawable (fullText 1) [fullBlock] (isFontText_fullText 1) (by decide) 0 fullBlock
    rfl ⟨0, 0⟩ ⟨0, 0, 0⟩).mpr
  have hstray : ∀ m, m ∉ strayRow (splitLines (fullText 1)) := by
    rw [strayRow_fullText]
    exact fun m hm => nomatch hm
  exact ⟨fun m hm => absurd hm (hstray m), fun _ m hm => absurd hm (hstray m),
    fun hge => absurd hge (by decide)⟩

/-- A text of 129 blocks: the character of the last one is not drawn. -/
theorem fullText_upper_not_drawn : IsFontText (fullText 129) (List.replicate 129 fullBlock) ∧
    (List.replicate 129 fullBlock)[(0x80 : UInt8).toNat]? = some fullBlock ∧
    ∃ bytes, compile (fullText 129) = some bytes ∧
      ¬DrawsBlock (writeAsciiBytes bytes ⟨0, 0⟩ 0x80 ⟨0, 0, 0⟩) ⟨0, 0⟩ ⟨0, 0, 0⟩ fullBlock := by
  have htext := isFontText_fullText 129
  obtain ⟨-, hhigh⟩ := length_compiledRows (fullText 129) (List.replicate 129 fullBlock)
  have hcompile : compile (fullText 129) =
      some ((compiledRows (fullText 129) (List.replicate 129 fullBlock)).map rowByte) := by
    rw [compile_eq htext, strayRow_fullText]
    exact if_pos fun m hm => nomatch hm
  have hlength : ((compiledRows (fullText 129) (List.replicate 129 fullBlock)).map rowByte).length ≤
      2 ^ 32 - 2048 := by
    rw [List.length_map]
    rw [List.length_replicate] at hhigh
    omega
  refine ⟨htext, rfl, _, hcompile, fun hdraws => ?_⟩
  -- the block is blank if it is drawn
  exact (drawsBlock_iff_of_ge (by decide) hlength).mp hdraws 0 0
    ⟨List.replicate 8 '@', '@', rfl, rfl, by decide⟩

end UhyokOS
