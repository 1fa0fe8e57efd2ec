import Mathlib.Tactic.Common

/-!
# Colours, positions and rectangles

The small data types of `kernel/graphics.hpp`. `int` is `Int`: the coordinates of a screen and of
the windows near it do not overflow.

* `contains_inter`: for rectangles of non-negative size, `operator&` is intersection.
-/

namespace UhyokOS

/-- Source: `kernel/graphics.hpp`, `PixelColor` -/
structure PixelColor where
  r : UInt8
  g : UInt8
  b : UInt8
  deriving DecidableEq

/-- Source: `kernel/graphics.hpp`, `ToColor` -/
def toColor (c : UInt32) : PixelColor where
  r := ((c >>> 16) &&& 0xff).toUInt8
  g := ((c >>> 8) &&& 0xff).toUInt8
  b := (c &&& 0xff).toUInt8

/-- Source: `kernel/graphics.hpp`, `Vector2D` -/
@[ext]
structure Vector2D where
  x : Int
  y : Int
  deriving DecidableEq

namespace Vector2D

/-- Source: `kernel/graphics.hpp`, `Vector2D::operator +` -/
instance instAdd : Add Vector2D := ⟨fun lhs rhs => ⟨lhs.x + rhs.x, lhs.y + rhs.y⟩⟩

/-- Source: `kernel/graphics.hpp`, `Vector2D::operator -` -/
instance instSub : Sub Vector2D := ⟨fun lhs rhs => ⟨lhs.x - rhs.x, lhs.y - rhs.y⟩⟩

variable (p q : Vector2D)

/-- The horizontal part of a sum. -/
@[simp] theorem add_x : (p + q).x = p.x + q.x := rfl

/-- The vertical part of a sum. -/
@[simp] theorem add_y : (p + q).y = p.y + q.y := rfl

/-- The horizontal part of a difference. -/
@[simp] theorem sub_x : (p - q).x = p.x - q.x := rfl

/-- The vertical part of a difference. -/
@[simp] theorem sub_y : (p - q).y = p.y - q.y := rfl

/-- Taking the start off what was added to it leaves the offset. -/
theorem add_sub_cancel_left : p + q - p = q := by
  apply Vector2D.ext
  · simp only [add_x, sub_x]
    omega
  · simp only [add_y, sub_y]
    omega

/-- Going from `p` to `q` ends at `q`. -/
theorem add_sub_cancel : p + (q - p) = q := by
  apply Vector2D.ext
  · simp only [add_x, sub_x]
    omega
  · simp only [add_y, sub_y]
    omega

/-- Two offsets, one after the other. -/
theorem sub_add_sub_cancel (r : Vector2D) : p - q + (r - p) = r - q := by
  apply Vector2D.ext
  · simp only [add_x, sub_x]
    omega
  · simp only [add_y, sub_y]
    omega

/-- A point that is moved by the offset from `r` to `q` is seen from `q` as it was from `r`. -/
theorem add_sub_sub_cancel (r : Vector2D) : p + (q - r) - q = p - r := by
  apply Vector2D.ext
  · simp only [add_x, sub_x]
    omega
  · simp only [add_y, sub_y]
    omega

/-- Moving both corners of a copy by the same offset moves no pixel. -/
theorem add_add_sub_add (e r : Vector2D) : p + e + (r - (q + e)) = p + (r - q) := by
  apply Vector2D.ext
  · simp only [add_x, sub_x]
    omega
  · simp only [add_y, sub_y]
    omega

/-- The point that is moved drops out, and the offset from `e` to `r` is left. -/
theorem sub_sub_add_sub (r e : Vector2D) : p - (e - q) + (r - p) = q + (r - e) := by
  apply Vector2D.ext
  · simp only [add_x, sub_x]
    omega
  · simp only [add_y, sub_y]
    omega

/-- Source: `kernel/graphics.hpp`, `ElementMax` -/
def elementMax (lhs rhs : Vector2D) : Vector2D := ⟨max lhs.x rhs.x, max lhs.y rhs.y⟩

/-- Source: `kernel/graphics.hpp`, `ElementMin` -/
def elementMin (lhs rhs : Vector2D) : Vector2D := ⟨min lhs.x rhs.x, min lhs.y rhs.y⟩

/-- The larger of the horizontal parts. -/
@[simp] theorem elementMax_x : (elementMax p q).x = max p.x q.x := rfl

/-- The larger of the vertical parts. -/
@[simp] theorem elementMax_y : (elementMax p q).y = max p.y q.y := rfl

/-- The smaller of the horizontal parts. -/
@[simp] theorem elementMin_x : (elementMin p q).x = min p.x q.x := rfl

/-- The smaller of the vertical parts. -/
@[simp] theorem elementMin_y : (elementMin p q).y = min p.y q.y := rfl

end Vector2D

/-- Source: `kernel/graphics.hpp`, `Rectangle` -/
@[ext]
structure Rectangle where
  pos : Vector2D
  size : Vector2D
  deriving DecidableEq

namespace Rectangle

/-- Source: `kernel/graphics.hpp`, `operator&` -/
def inter (lhs rhs : Rectangle) : Rectangle :=
  let lhsEnd := lhs.pos + lhs.size
  let rhsEnd := rhs.pos + rhs.size
  if lhsEnd.x < rhs.pos.x ∨ lhsEnd.y < rhs.pos.y ∨ rhsEnd.x < lhs.pos.x ∨ rhsEnd.y < lhs.pos.y then
    ⟨⟨0, 0⟩, ⟨0, 0⟩⟩
  else
    let newPos := Vector2D.elementMax lhs.pos rhs.pos
    ⟨newPos, Vector2D.elementMin lhsEnd rhsEnd - newPos⟩

/-- The pixel lies in the rectangle. -/
def Contains (r : Rectangle) (p : Vector2D) : Prop :=
  r.pos.x ≤ p.x ∧ p.x < r.pos.x + r.size.x ∧ r.pos.y ≤ p.y ∧ p.y < r.pos.y + r.size.y

/-- Whether a pixel lies in a rectangle is four comparisons. -/
instance decidableContains (r : Rectangle) (p : Vector2D) : Decidable (r.Contains p) := by
  unfold Contains
  infer_instance

/-- The size is not negative in either direction. -/
structure Proper (r : Rectangle) : Prop where
  width : 0 ≤ r.size.x
  height : 0 ≤ r.size.y

/-- Whether a size is negative is two comparisons. -/
instance decidableProper (r : Rectangle) : Decidable r.Proper :=
  decidable_of_iff (0 ≤ r.size.x ∧ 0 ≤ r.size.y)
    ⟨fun h => ⟨h.1, h.2⟩, fun h => ⟨h.width, h.height⟩⟩

variable {r s : Rectangle} {p : Vector2D}

/-- A rectangle is the rectangle of its size at the origin, moved. -/
theorem contains_sub {size : Vector2D} {q : Vector2D} :
    (⟨⟨0, 0⟩, size⟩ : Rectangle).Contains (p - q) ↔ (⟨q, size⟩ : Rectangle).Contains p := by
  unfold Contains
  simp only [Vector2D.sub_x, Vector2D.sub_y]
  omega

/-- An intersection is a rectangle again. -/
theorem proper_inter (hr : r.Proper) (hs : s.Proper) : (inter r s).Proper := by
  obtain ⟨hrx, hry⟩ := hr
  obtain ⟨hsx, hsy⟩ := hs
  unfold inter
  simp only
  split_ifs with h
  · exact ⟨Int.le_refl 0, Int.le_refl 0⟩
  · simp only [Vector2D.add_x, Vector2D.add_y] at h
    constructor
    · simp only [Vector2D.sub_x, Vector2D.elementMin_x, Vector2D.elementMax_x, Vector2D.add_x]
      omega
    · simp only [Vector2D.sub_y, Vector2D.elementMin_y, Vector2D.elementMax_y, Vector2D.add_y]
      omega

/-- The first rectangle does not stick out of the second. -/
structure Within (r s : Rectangle) : Prop where
  left : s.pos.x ≤ r.pos.x
  right : r.pos.x + r.size.x ≤ s.pos.x + s.size.x
  top : s.pos.y ≤ r.pos.y
  bottom : r.pos.y + r.size.y ≤ s.pos.y + s.size.y

/-- Whether a rectangle sticks out of another one is four comparisons. -/
instance decidableWithin (r s : Rectangle) : Decidable (r.Within s) :=
  decidable_of_iff (s.pos.x ≤ r.pos.x ∧ r.pos.x + r.size.x ≤ s.pos.x + s.size.x ∧
      s.pos.y ≤ r.pos.y ∧ r.pos.y + r.size.y ≤ s.pos.y + s.size.y)
    ⟨fun ⟨hl, hr, ht, hb⟩ => ⟨hl, hr, ht, hb⟩, fun ⟨hl, hr, ht, hb⟩ => ⟨hl, hr, ht, hb⟩⟩

/-- A rectangle that does not stick out has its pixels in the other one. -/
theorem Within.contains (h : r.Within s) (hp : r.Contains p) : s.Contains p := by
  obtain ⟨hl, hr, ht, hb⟩ := h
  obtain ⟨hx₀, hx₁, hy₀, hy₁⟩ := hp
  exact ⟨by omega, by omega, by omega, by omega⟩

/-- Of three rectangles, each within the next, the first is within the last. -/
theorem Within.trans {t : Rectangle} (hrs : r.Within s) (hst : s.Within t) : r.Within t := by
  obtain ⟨hl, hr, ht, hb⟩ := hrs
  obtain ⟨hl', hr', ht', hb'⟩ := hst
  constructor <;> omega

/-- An intersection that has rows is within both operands; the special value for disjoint
rectangles has none. -/
theorem within_inter (h : 0 < (inter r s).size.y) :
    (inter r s).Within r ∧ (inter r s).Within s := by
  unfold inter at h ⊢
  simp only at h ⊢
  split_ifs at h ⊢ with hdisjoint
  · exact absurd h (Int.lt_irrefl 0)
  · constructor <;> constructor <;>
      simp only [Vector2D.sub_x, Vector2D.sub_y, Vector2D.elementMin_x, Vector2D.elementMin_y,
        Vector2D.elementMax_x, Vector2D.elementMax_y, Vector2D.add_x, Vector2D.add_y] <;>
      omega

/-- **`operator&` is intersection.** -/
theorem contains_inter (hr : r.Proper) (hs : s.Proper) :
    (inter r s).Contains p ↔ r.Contains p ∧ s.Contains p := by
  obtain ⟨hrx, hry⟩ := hr
  obtain ⟨hsx, hsy⟩ := hs
  unfold inter Contains
  simp only
  split_ifs with h
  · simp only [Vector2D.add_x, Vector2D.add_y] at h
    simp only
    omega
  · simp only [Vector2D.sub_x, Vector2D.sub_y, Vector2D.elementMin_x, Vector2D.elementMin_y,
      Vector2D.elementMax_x, Vector2D.elementMax_y, Vector2D.add_x, Vector2D.add_y]
    omega

end Rectangle

end UhyokOS
