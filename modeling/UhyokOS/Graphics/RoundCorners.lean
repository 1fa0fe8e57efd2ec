import UhyokOS.Graphics.Text

/-!
# Rounded rectangles

The shape that `FillRectangleRound` and `FillRectangleRoundUpper` of `kernel/graphics.cpp` paint.
Each corner is cut along a diagonal, and each function compares with a diagonal of its own in every
corner. With radius `r`, the upper left corner loses the `r + 1` diagonals nearest to it, its two
neighbours lose `r`, and the lower right corner `r - 1`.

* `paints_fillRectangleRound` and `paints_fillRectangleRoundUpper`: the pixels that are painted, as
  a rectangle with cut corners.
* `not_symmetricX_of_lt` and `not_symmetricY_of_lt`: corners that are cut unequally are seen.
* `round_symmetric_iff`: no rounded rectangle of more than one pixel is symmetric.
-/

namespace UhyokOS

/-! ## Rectangles with cut corners -/

/-- How many diagonals are cut from each corner. -/
structure CornerCuts where
  upperLeft : Int
  upperRight : Int
  lowerLeft : Int
  lowerRight : Int

/-- The pixels that are left of a rectangle. -/
structure InCut (size : Vector2D) (cuts : CornerCuts) (d : Vector2D) : Prop where
  contains : (⟨⟨0, 0⟩, size⟩ : Rectangle).Contains d
  upperLeft : cuts.upperLeft ≤ d.x + d.y
  upperRight : cuts.upperRight ≤ (size.x - 1 - d.x) + d.y
  lowerLeft : cuts.lowerLeft ≤ d.x + (size.y - 1 - d.y)
  lowerRight : cuts.lowerRight ≤ (size.x - 1 - d.x) + (size.y - 1 - d.y)

/-- The mirror image `dx -> w - 1 - dx`. -/
def mirrorX (size d : Vector2D) : Vector2D := ⟨size.x - 1 - d.x, d.y⟩

/-- The mirror image `dy -> h - 1 - dy`. -/
def mirrorY (size d : Vector2D) : Vector2D := ⟨d.x, size.y - 1 - d.y⟩

/-- A shape is its own mirror image, left and right. -/
def SymmetricX (size : Vector2D) (shape : Vector2D → Prop) : Prop :=
  ∀ d, shape d ↔ shape (mirrorX size d)

/-- A shape is its own mirror image, top and bottom. -/
def SymmetricY (size : Vector2D) (shape : Vector2D → Prop) : Prop :=
  ∀ d, shape d ↔ shape (mirrorY size d)

variable {pos size d : Vector2D} {cuts : CornerCuts} {c : PixelColor} {r : Int}

/-- A mirror image that moves no pixel of the rectangle. -/
theorem inCut_mirror_iff {mirror : Vector2D → Vector2D}
    (h : ∀ d, (⟨⟨0, 0⟩, size⟩ : Rectangle).Contains d ∨
      (⟨⟨0, 0⟩, size⟩ : Rectangle).Contains (mirror d) → mirror d = d) (d : Vector2D) :
    InCut size cuts d ↔ InCut size cuts (mirror d) := by
  constructor
  · intro hd
    rwa [h d (.inl hd.contains)]
  · intro hd
    rwa [h d (.inr hd.contains)] at hd

/-- In a column of pixels left and right are the same. -/
theorem symmetricX_of_one (h : size.x = 1) : SymmetricX size (InCut size cuts) := by
  refine inCut_mirror_iff fun d hd => Vector2D.ext ?_ rfl
  simp only [Rectangle.Contains, mirrorX] at hd ⊢
  omega

/-- In a row of pixels top and bottom are the same. -/
theorem symmetricY_of_one (h : size.y = 1) : SymmetricY size (InCut size cuts) := by
  refine inCut_mirror_iff fun d hd => Vector2D.ext rfl ?_
  simp only [Rectangle.Contains, mirrorY] at hd ⊢
  omega

/-- **Unequal corners on the left and on the right**: a pixel of the last column is left, and its
mirror image is cut. -/
theorem not_symmetricX_of_lt {y : Int}
    (hin : InCut size cuts ⟨size.x - 1, y⟩) (hcut : y < cuts.upperLeft) :
    ¬SymmetricX size (InCut size cuts) := by
  intro hsymmetric
  have himage := ((hsymmetric _).mp hin).upperLeft
  simp only [mirrorX] at himage
  omega

/-- **Unequal corners at the top and at the bottom**: a pixel of the last row is left, and its
mirror image is cut. -/
theorem not_symmetricY_of_lt {x : Int}
    (hin : InCut size cuts ⟨x, size.y - 1⟩) (hcut : x < cuts.upperLeft) :
    ¬SymmetricY size (InCut size cuts) := by
  intro hsymmetric
  have himage := ((hsymmetric _).mp hin).upperLeft
  simp only [mirrorY] at himage
  omega

/-! ## What is painted -/

/-- The pixel at an offset is painted. -/
def Paints (writes : Writes) (pos d : Vector2D) : Prop := pos + d ∈ writes.map Prod.fst

/-- Painting the pixels of a rectangle that pass a test. -/
theorem paints_filter {test : Vector2D → Bool} :
    Paints (((offsets size).filter test).map fun d => (pos + d, c)) pos d ↔
      (⟨⟨0, 0⟩, size⟩ : Rectangle).Contains d ∧ test d = true := by
  rw [Paints, mem_map_offset, Vector2D.add_sub_cancel_left, List.mem_filter, mem_offsets]

/-- The cuts of `isRectangleRound`. -/
def roundCuts (r : Int) : CornerCuts := ⟨r + 1, r, r, r - 1⟩

/-- The cuts of `isRectangleRoundUpper`. -/
def upperCuts (r : Int) : CornerCuts := ⟨r + 1, r, 0, 0⟩

/-- **The shape of `FillRectangleRound`**. -/
theorem paints_fillRectangleRound :
    Paints (fillRectangleRound pos size c r) pos d ↔ InCut size (roundCuts r) d := by
  rw [fillRectangleRound, paints_filter]
  simp only [isRectangleRound, Bool.and_eq_true, Bool.not_eq_true', decide_eq_false_iff_not]
  constructor
  · rintro ⟨hin, ⟨⟨hul, hur⟩, hlr⟩, hll⟩
    refine ⟨hin, ?_, ?_, ?_, ?_⟩ <;> simp only [roundCuts] <;> omega
  · rintro ⟨hin, hul, hur, hll, hlr⟩
    simp only [roundCuts] at hul hur hll hlr
    refine ⟨hin, ⟨⟨?_, ?_⟩, ?_⟩, ?_⟩ <;> omega

/-- **The shape of `FillRectangleRoundUpper`**. -/
theorem paints_fillRectangleRoundUpper :
    Paints (fillRectangleRoundUpper pos size c r) pos d ↔ InCut size (upperCuts r) d := by
  rw [fillRectangleRoundUpper, paints_filter]
  simp only [isRectangleRoundUpper, Bool.and_eq_true, Bool.not_eq_true', decide_eq_false_iff_not]
  constructor
  · rintro ⟨hin, hul, hur⟩
    -- the lower corners are those of the rectangle
    obtain ⟨hx₀, hx₁, hy₀, hy₁⟩ := id hin
    simp only at hx₀ hx₁ hy₀ hy₁
    refine ⟨hin, ?_, ?_, ?_, ?_⟩ <;> simp only [upperCuts] <;> omega
  · rintro ⟨hin, hul, hur, -, -⟩
    simp only [upperCuts] at hul hur
    refine ⟨hin, ?_, ?_⟩ <;> omega

/-! ## Symmetry -/

section Radius

variable (hr : 0 ≤ r) (hround : 2 * r < min size.x size.y) (hul : cuts.upperLeft = r + 1)
  (hur : cuts.upperRight ≤ r) (hll : cuts.lowerLeft ≤ r) (hlr : cuts.lowerRight ≤ r)
include hr hround hul hur hll hlr

/-- The upper left corner loses a diagonal more than the upper right one. -/
theorem symmetricX_iff_of_cuts : SymmetricX size (InCut size cuts) ↔ size.x = 1 := by
  refine ⟨fun h => ?_, symmetricX_of_one⟩
  by_contra hne
  have hleft : InCut size cuts ⟨size.x - 1, r⟩ := by
    refine ⟨?_, ?_, ?_, ?_, ?_⟩ <;> simp only [Rectangle.Contains] <;> omega
  exact not_symmetricX_of_lt hleft (hul ▸ Int.lt_succ r) h

/-- And one more than the lower left one. -/
theorem symmetricY_iff_of_cuts : SymmetricY size (InCut size cuts) ↔ size.y = 1 := by
  refine ⟨fun h => ?_, symmetricY_of_one⟩
  by_contra hne
  have hleft : InCut size cuts ⟨r, size.y - 1⟩ := by
    refine ⟨?_, ?_, ?_, ?_, ?_⟩ <;> simp only [Rectangle.Contains] <;> omega
  exact not_symmetricY_of_lt hleft (hul ▸ Int.lt_succ r) h

end Radius

section Shapes

variable (hr : 0 ≤ r) (hround : 2 * r < min size.x size.y)
include hr hround

theorem round_symmetricX_iff : SymmetricX size (InCut size (roundCuts r)) ↔ size.x = 1 :=
  symmetricX_iff_of_cuts hr hround rfl (Int.le_refl r) (Int.le_refl r) (Int.sub_le_self r (by decide))

theorem round_symmetricY_iff : SymmetricY size (InCut size (roundCuts r)) ↔ size.y = 1 :=
  symmetricY_iff_of_cuts hr hround rfl (Int.le_refl r) (Int.le_refl r) (Int.sub_le_self r (by decide))

theorem upper_symmetricX_iff : SymmetricX size (InCut size (upperCuts r)) ↔ size.x = 1 :=
  symmetricX_iff_of_cuts hr hround rfl (Int.le_refl r) hr hr

end Shapes

/-- **Rounded rectangles are symmetric** iff they have one pixel. -/
theorem round_symmetric_iff (pos size : Vector2D) (c : PixelColor) (r : Int) (hr : 0 ≤ r)
    (hround : 2 * r < min size.x size.y) :
    (SymmetricX size (Paints (fillRectangleRound pos size c r) pos) ∧
      SymmetricY size (Paints (fillRectangleRound pos size c r) pos) ∧
      SymmetricX size (Paints (fillRectangleRoundUpper pos size c r) pos)) ↔
      size.x = 1 ∧ size.y = 1 := by
  have hround' : Paints (fillRectangleRound pos size c r) pos = InCut size (roundCuts r) :=
    funext fun d => propext paints_fillRectangleRound
  have hupper : Paints (fillRectangleRoundUpper pos size c r) pos = InCut size (upperCuts r) :=
    funext fun d => propext paints_fillRectangleRoundUpper
  rw [hround', hupper, round_symmetricX_iff hr hround, round_symmetricY_iff hr hround,
    upper_symmetricX_iff hr hround]
  exact ⟨fun h => ⟨h.1, h.2.1⟩, fun h => ⟨h.1, h.2, h.1⟩⟩

theorem round_symmetric_onePixel :
    SymmetricX ⟨1, 1⟩ (Paints (fillRectangleRound ⟨5, 5⟩ ⟨1, 1⟩ ⟨0, 0, 0⟩ 0) ⟨5, 5⟩) :=
  ((round_symmetric_iff ⟨5, 5⟩ ⟨1, 1⟩ ⟨0, 0, 0⟩ 0 (by decide) (by decide)).mpr ⟨rfl, rfl⟩).1

/-- A rectangle of 10 × 10 pixels with radius 3: offset (9, 3) is painted, and its mirror image
(0, 3) is not. -/
theorem roundTen_not_symmetric :
    Paints (fillRectangleRound ⟨0, 0⟩ ⟨10, 10⟩ ⟨0, 0, 0⟩ 3) ⟨0, 0⟩ ⟨9, 3⟩ ∧
    ¬Paints (fillRectangleRound ⟨0, 0⟩ ⟨10, 10⟩ ⟨0, 0, 0⟩ 3) ⟨0, 0⟩ (mirrorX ⟨10, 10⟩ ⟨9, 3⟩) ∧
    ¬SymmetricX ⟨10, 10⟩ (Paints (fillRectangleRound ⟨0, 0⟩ ⟨10, 10⟩ ⟨0, 0, 0⟩ 3) ⟨0, 0⟩) := by
  have hpainted : Paints (fillRectangleRound ⟨0, 0⟩ ⟨10, 10⟩ ⟨0, 0, 0⟩ 3) ⟨0, 0⟩ ⟨9, 3⟩ :=
    paints_fillRectangleRound.mpr
      ⟨⟨by decide, by decide, by decide, by decide⟩, by decide, by decide, by decide, by decide⟩
  have hcut : ¬Paints (fillRectangleRound ⟨0, 0⟩ ⟨10, 10⟩ ⟨0, 0, 0⟩ 3) ⟨0, 0⟩
      (mirrorX ⟨10, 10⟩ ⟨9, 3⟩) := fun h =>
    absurd (paints_fillRectangleRound.mp h).upperLeft (by decide)
  exact ⟨hpainted, hcut, fun h => hcut ((h _).mp hpainted)⟩

end UhyokOS
