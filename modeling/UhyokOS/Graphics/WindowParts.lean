import UhyokOS.Graphics.Window

/-!
# Drawing a part of a window

`DrawTo` is asked for the part of a window that lies in an area of the destination. It has two paths: an
opaque window is copied from its shadow buffer, clipped to the area; the pixels of a window with a
transparent colour are written one by one from `data_`, and the area is not looked at.

* `DrawsPart` is what a caller asks for, in terms of `At` alone.
* `drawsPart_iff`: `DrawTo` does that exactly where `PartFits` holds.
* `pathsAgree_iff`: the two paths agree on a window exactly where it holds with and without the
  transparent colour.
-/

namespace UhyokOS

open FrameBufferConfig

variable {config : FrameBufferConfig}

namespace Window

variable {w : Window} {dst : FrameBuffer config} {pos : Vector2D} {area : Rectangle} {tc : PixelColor}

/-- The pixel is to be drawn: it lies in the area and in the window, and the window is not transparent
there. -/
def Requested (w : Window) (pos : Vector2D) (area : Rectangle) (p : Vector2D) : Prop :=
  area.Contains p ∧ w.bounds.Contains (p - pos) ∧
    w.transparentColor ≠ some (w.atPos (p - pos))

/-- The requested part of the window is drawn on the destination, and nothing else. -/
def DrawsPart (w : Window) (dst : FrameBuffer config) (pos : Vector2D) (area : Rectangle) : Prop :=
  ∃ dst', w.drawTo dst pos area = some dst' ∧ ∀ p, config.outline.Contains p →
    (w.Requested pos area p → dst'.pixel p = w.atPos (p - pos)) ∧
      (¬w.Requested pos area p → dst'.pixel p = dst.pixel p)

/-- A pixel of the window where drawing is right. If the window is opaque and the pixel lies in the area,
the two stores hold the same colour; if it has a transparent colour, other than the pixel's, and the pixel
lies outside the area, the destination has the pixel's colour already. -/
def PixelFits (w : Window) (dst : FrameBuffer config) (pos : Vector2D) (area : Rectangle)
    (p : Vector2D) : Prop :=
  match w.transparentColor with
  | none => area.Contains p → w.shadowBuffer.pixel (p - pos) = w.atPos (p - pos)
  | some tc => ¬area.Contains p → w.atPos (p - pos) ≠ tc → dst.pixel p = w.atPos (p - pos)

/-- Every pixel of the window that is on the destination is one where drawing is right. -/
def PartFits (w : Window) (dst : FrameBuffer config) (pos : Vector2D) (area : Rectangle) : Prop :=
  ∀ p, config.outline.Contains p → w.bounds.Contains (p - pos) → w.PixelFits dst pos area p

/-- `DrawTo` with and without the transparent colour leaves the same picture. -/
def PathsAgree (w : Window) (tc : PixelColor) (dst : FrameBuffer config) (pos : Vector2D)
    (area : Rectangle) : Prop :=
  ∃ copied written, (w.setTransparentColor none).drawTo dst pos area = some copied ∧
    (w.setTransparentColor (some tc)).drawTo dst pos area = some written ∧
    ∀ p, config.outline.Contains p → copied.pixel p = written.pixel p

/-- The window does not contain the colour. -/
def Lacks (w : Window) (tc : PixelColor) : Prop := ∀ d, w.bounds.Contains d → w.atPos d ≠ tc

theorem requested_solid (hsolid : w.transparentColor = none) {p : Vector2D} :
    w.Requested pos area p ↔ area.Contains p ∧ w.bounds.Contains (p - pos) := by
  unfold Requested
  rw [hsolid]
  simp only [ne_eq, reduceCtorEq, not_false_eq_true, and_true]

theorem requested_transparent (htc : w.transparentColor = some tc) {p : Vector2D} :
    w.Requested pos area p ↔
      area.Contains p ∧ w.bounds.Contains (p - pos) ∧ w.atPos (p - pos) ≠ tc := by
  unfold Requested
  rw [htc, ne_eq, Option.some_inj, ne_comm]

/-- One pixel of the destination: what `DrawTo` leaves there is what is asked for iff the pixel is not
one of the window or drawing is right there. -/
theorem drawn_getD_iff (w : Window) (dst : FrameBuffer config) (pos : Vector2D) (area : Rectangle)
    (p : Vector2D) :
    ((w.Requested pos area p → (w.drawn pos area p).getD (dst.pixel p) = w.atPos (p - pos)) ∧
        (¬w.Requested pos area p → (w.drawn pos area p).getD (dst.pixel p) = dst.pixel p)) ↔
      (w.bounds.Contains (p - pos) → w.PixelFits dst pos area p) := by
  unfold PixelFits
  cases htc : w.transparentColor with
  | none =>
      rw [requested_solid htc, drawn_opaque htc]
      by_cases hin : area.Contains p ∧ w.bounds.Contains (p - pos)
      · simp only [hin, and_self, if_true, Option.getD_some, true_implies, not_true_eq_false,
          false_implies, and_true]
      · rw [if_neg hin]
        simp only [hin, false_implies, not_false_eq_true, true_implies, true_and, Option.getD_none,
          true_iff]
        exact fun hbounds harea => absurd ⟨harea, hbounds⟩ hin
  | some tc =>
      rw [requested_transparent htc, drawn_transparent htc]
      by_cases hin : w.bounds.Contains (p - pos) ∧ w.atPos (p - pos) ≠ tc
      · rw [if_pos hin, Option.getD_some]
        by_cases harea : area.Contains p
        · simp [harea, hin]
        · simp only [harea, false_and, false_implies, not_false_eq_true, true_implies, true_and]
          constructor
          · exact fun hsame _ _ => hsame.symm
          · exact fun hfits => (hfits hin.1 hin.2).symm
      · rw [if_neg hin, Option.getD_none]
        constructor
        · exact fun _ hbounds _ hne => absurd ⟨hbounds, hne⟩ hin
        · exact fun _ => ⟨fun hrequested => absurd hrequested.2 hin, fun _ => rfl⟩

/-- **When the requested part is drawn.** -/
theorem drawsPart_iff (w : Window) (dst : FrameBuffer config) (pos : Vector2D) {area : Rectangle}
    (hformat : config.pixelFormat = w.shadowFormat) (harea : area.Proper) :
    w.DrawsPart dst pos area ↔ w.PartFits dst pos area := by
  obtain ⟨dst', hdraw, hpixel⟩ := w.drawTo_spec dst pos hformat harea
  constructor
  · rintro ⟨dst₁, hdraw₁, hpart⟩ p hp
    rw [hdraw] at hdraw₁
    cases hdraw₁
    apply (w.drawn_getD_iff dst pos area p).mp
    rw [← hpixel p hp]
    exact hpart p hp
  · intro hfits
    refine ⟨dst', hdraw, fun p hp => ?_⟩
    rw [hpixel p hp]
    exact (w.drawn_getD_iff dst pos area p).mpr (hfits p hp)

/-- One pixel of the two pictures, of a window that does not contain the colour. -/
theorem drawn_getD_eq_iff (hlacks : w.Lacks tc) (dst : FrameBuffer config) (pos : Vector2D)
    (area : Rectangle) (p : Vector2D) :
    ((w.setTransparentColor none).drawn pos area p).getD (dst.pixel p) =
        ((w.setTransparentColor (some tc)).drawn pos area p).getD (dst.pixel p) ↔
      (w.bounds.Contains (p - pos) → (w.setTransparentColor none).PixelFits dst pos area p ∧
        (w.setTransparentColor (some tc)).PixelFits dst pos area p) := by
  have hwritten := drawn_transparent (w := w.setTransparentColor (some tc)) rfl pos area p
  rw [hwritten, drawn_opaque rfl]
  show (if area.Contains p ∧ w.bounds.Contains (p - pos) then
        some (w.shadowBuffer.pixel (p - pos)) else none).getD (dst.pixel p) =
      (if w.bounds.Contains (p - pos) ∧ w.atPos (p - pos) ≠ tc then
        some (w.atPos (p - pos)) else none).getD (dst.pixel p) ↔
    (w.bounds.Contains (p - pos) →
      (area.Contains p → w.shadowBuffer.pixel (p - pos) = w.atPos (p - pos)) ∧
        (¬area.Contains p → w.atPos (p - pos) ≠ tc → dst.pixel p = w.atPos (p - pos)))
  by_cases hbounds : w.bounds.Contains (p - pos)
  · have hwritten : w.bounds.Contains (p - pos) ∧ w.atPos (p - pos) ≠ tc := ⟨hbounds, hlacks _ hbounds⟩
    by_cases harea : area.Contains p
    · rw [if_pos ⟨harea, hbounds⟩, if_pos hwritten, Option.getD_some, Option.getD_some]
      exact ⟨fun hsame _ => ⟨fun _ => hsame, fun hout => absurd harea hout⟩,
        fun hfits => (hfits hbounds).1 harea⟩
    · rw [if_neg fun h => harea h.1, if_pos hwritten, Option.getD_none, Option.getD_some]
      exact ⟨fun hsame _ => ⟨fun hin => absurd hin harea, fun _ _ => hsame⟩,
        fun hfits => (hfits hbounds).2 harea hwritten.2⟩
  · rw [if_neg fun h => hbounds h.2, if_neg fun h => hbounds h.1]
    simp only [hbounds, false_implies]

/-- **When the two paths agree.** -/
theorem pathsAgree_iff (w : Window) (dst : FrameBuffer config) (pos : Vector2D) {area : Rectangle}
    (hformat : config.pixelFormat = w.shadowFormat) (harea : area.Proper) (hlacks : w.Lacks tc) :
    w.PathsAgree tc dst pos area ↔ (w.setTransparentColor none).PartFits dst pos area ∧
      (w.setTransparentColor (some tc)).PartFits dst pos area := by
  obtain ⟨copied, hcopy, hcopied⟩ :=
    (w.setTransparentColor none).drawTo_spec dst pos hformat harea
  obtain ⟨written, hwrite, hwritten⟩ :=
    (w.setTransparentColor (some tc)).drawTo_spec dst pos hformat harea
  have hpixel : ∀ p, config.outline.Contains p → (copied.pixel p = written.pixel p ↔
      (w.bounds.Contains (p - pos) → (w.setTransparentColor none).PixelFits dst pos area p ∧
        (w.setTransparentColor (some tc)).PixelFits dst pos area p)) := by
    intro p hp
    rw [hcopied p hp, hwritten p hp]
    exact drawn_getD_eq_iff hlacks dst pos area p
  constructor
  · rintro ⟨copied₁, written₁, hcopy₁, hwrite₁, hagree⟩
    rw [hcopy] at hcopy₁
    rw [hwrite] at hwrite₁
    cases hcopy₁
    cases hwrite₁
    have hfits := fun p hp => (hpixel p hp).mp (hagree p hp)
    exact ⟨fun p hp hbounds => (hfits p hp hbounds).1, fun p hp hbounds => (hfits p hp hbounds).2⟩
  · rintro ⟨hsolid, htransparent⟩
    refine ⟨copied, written, hcopy, hwrite, fun p hp => (hpixel p hp).mpr fun hbounds => ?_⟩
    exact ⟨hsolid p hp hbounds, htransparent p hp hbounds⟩

/-- **`DrawTo` and the part it is asked for.** For every window, place, destination of its format and
area: the requested part is drawn, and nothing else, iff drawing is right at every pixel of the window
that is on the destination; and with a colour that the window does not contain, the two paths leave the
same picture iff that is so for both of them. -/
theorem draws_part_iff (w : Window) (dst : FrameBuffer config) (pos : Vector2D) {area : Rectangle}
    (hformat : config.pixelFormat = w.shadowFormat) (harea : area.Proper) :
    (w.DrawsPart dst pos area ↔ w.PartFits dst pos area) ∧
      ∀ tc, w.Lacks tc → (w.PathsAgree tc dst pos area ↔
        (w.setTransparentColor none).PartFits dst pos area ∧
          (w.setTransparentColor (some tc)).PartFits dst pos area) :=
  ⟨w.drawsPart_iff dst pos hformat harea, fun _ hlacks => w.pathsAgree_iff dst pos hformat harea hlacks⟩

/-- A white pixel in a window whose transparent colour is black. -/
def whitePixel : Window where
  width := 1
  height := 1
  shadowFormat := .kPixelRGBResv8BitPerColor
  data := fun _ => ⟨255, 255, 255⟩
  shadowBuffer := ⟨fun _ => ⟨255, 255, 255⟩⟩
  transparentColor := some ⟨0, 0, 0⟩

/-- A black screen of two pixels. -/
def twoPixelScreen : FrameBuffer (ownMemory 2 1 .kPixelRGBResv8BitPerColor) := .zeros _

/-- The pixel is not drawn right if only the pixel beside it is asked for, and it is if it is asked
for. -/
theorem draws_part_iff_whitePixel :
    ¬whitePixel.DrawsPart twoPixelScreen ⟨0, 0⟩ ⟨⟨1, 0⟩, ⟨1, 1⟩⟩ ∧
      whitePixel.DrawsPart twoPixelScreen ⟨0, 0⟩ ⟨⟨0, 0⟩, ⟨1, 1⟩⟩ := by
  constructor
  · intro hpart
    have hfits := (draws_part_iff whitePixel twoPixelScreen ⟨0, 0⟩ rfl (by decide)).1.mp hpart
    have hpixel := hfits ⟨0, 0⟩ (by decide) (by decide) (by decide) (by decide)
    exact absurd hpixel (by decide)
  · refine (draws_part_iff whitePixel twoPixelScreen ⟨0, 0⟩ rfl (by decide)).1.mpr ?_
    intro p hp hbounds hout _
    refine absurd ?_ hout
    have hbounds : (⟨⟨0, 0⟩, ⟨1, 1⟩⟩ : Rectangle).Contains (p - ⟨0, 0⟩) := hbounds
    exact Rectangle.contains_sub.mp hbounds

/-- **A window with a transparent colour is drawn outside the area.** -/
theorem draws_outside_area : ¬∀ (config : FrameBufferConfig) (w : Window) (dst : FrameBuffer config)
    (pos : Vector2D) (area : Rectangle), config.pixelFormat = w.shadowFormat → area.Proper →
      w.DrawsPart dst pos area := by
  intro hall
  obtain ⟨dst', hdraw, hpixel⟩ := hall _ whitePixel twoPixelScreen ⟨0, 0⟩ ⟨⟨1, 0⟩, ⟨1, 1⟩⟩ rfl
    (by decide)
  have hkept := (hpixel ⟨0, 0⟩ (by decide)).2 fun h => absurd h.1 (by decide)
  have hwhite : ∀ d ∈ whitePixel.drawTo twoPixelScreen ⟨0, 0⟩ ⟨⟨1, 0⟩, ⟨1, 1⟩⟩,
      d.pixel ⟨0, 0⟩ ≠ twoPixelScreen.pixel ⟨0, 0⟩ := by decide
  exact hwhite dst' hdraw hkept

end Window

end UhyokOS
