import UhyokOS.Graphics.Drawing
import UhyokOS.Graphics.FrameBuffer

/-!
# Windows

The model of class `Window` and of its subclass `ToplevelWindow`, which is a window with a title. A
window keeps its pixels twice, in `data_` and in a shadow buffer of the screen's format; a write
goes to both.

* `drawTo_spec`: `DrawTo` paints what the window shows (`ink`) and nothing else, an opaque window
  only inside the given area, a window with a transparent colour everywhere.
* `writeAll_spec`: drawing inside a window is defined and changes only the pixels drawn.
* `Synced.writeAll`: as long as it is only written to, the two copies of the pixels agree.
* `titleFits_toplevelWindow`: the title of a window that was constructed fits into it, so that
  activating the window is defined (`activate_spec`, `deactivate_spec`).
-/

namespace UhyokOS

open FrameBufferConfig

variable {config : FrameBufferConfig}

/-- The calls of a drawing function on the writer of a frame buffer. -/
def FrameBuffer.writeAll (fb : FrameBuffer config) (calls : Writes) : Option (FrameBuffer config) :=
  calls.foldlM (fun fb call => fb.write call.1 call.2) fb

/-- Writes inside the buffer, the colour of which depends on the position only. -/
theorem FrameBuffer.writeAll_spec {f : Vector2D → PixelColor} (calls : Writes)
    (fb : FrameBuffer config) (hin : ∀ call ∈ calls, config.outline.Contains call.1)
    (hcolor : ∀ call ∈ calls, call.2 = f call.1) :
    ∃ fb', fb.writeAll calls = some fb' ∧ ∀ p, config.outline.Contains p →
      fb'.pixel p = if p ∈ calls.map Prod.fst then f p else fb.pixel p := by
  induction calls generalizing fb with
  | nil => exact ⟨fb, rfl, fun p _ => by simp⟩
  | cons call calls ih =>
      obtain ⟨fb₁, hwrite, hpixel₁⟩ := fb.write_spec (hin call List.mem_cons_self) call.2
      obtain ⟨fb', hrest, hpixel⟩ := ih fb₁
        (fun call' hmem => hin call' (List.mem_cons_of_mem _ hmem))
        (fun call' hmem => hcolor call' (List.mem_cons_of_mem _ hmem))
      refine ⟨fb', ?_, fun p hp => ?_⟩
      · unfold FrameBuffer.writeAll at hrest ⊢
        rw [List.foldlM_cons, hwrite]
        exact hrest
      · rw [hpixel p hp, hpixel₁ p hp, List.map_cons]
        by_cases hlater : p ∈ calls.map Prod.fst
        · rw [if_pos hlater, if_pos (List.mem_cons_of_mem _ hlater)]
        · by_cases hnow : p = call.1
          · rw [if_neg hlater, if_pos hnow, if_pos (hnow ▸ List.mem_cons_self), hnow]
            exact hcolor call List.mem_cons_self
          · rw [if_neg hlater, if_neg hnow, if_neg]
            simp only [List.mem_cons, hnow, hlater, or_self, not_false_eq_true]

/-- A window; `title` is `title_` of a `ToplevelWindow` and `none` for a plain window.
Source: `kernel/window.hpp`, `Window`, `ToplevelWindow` -/
structure Window where
  width : Nat
  height : Nat
  /-- The pixel format of the shadow buffer. -/
  shadowFormat : PixelFormat
  /-- `data_`, read at the positions inside the window only. -/
  data : Vector2D → PixelColor
  shadowBuffer : FrameBuffer (ownMemory width height shadowFormat)
  transparentColor : Option PixelColor := none
  title : Option (List UInt8) := none

namespace Window

/-- Source: `kernel/window.cpp`, `Window::Window` -/
def new (width height : Nat) (shadowFormat : PixelFormat) : Window where
  width := width
  height := height
  shadowFormat := shadowFormat
  data := fun _ => ⟨0, 0, 0⟩
  shadowBuffer := .zeros _

/-- Source: `kernel/window.cpp`, `Window::Size` -/
def size (w : Window) : Vector2D := ⟨w.width, w.height⟩

/-- The rectangle of the window's pixels. -/
def bounds (w : Window) : Rectangle := ⟨⟨0, 0⟩, w.size⟩

/-- Source: `kernel/window.cpp`, `Window::At` -/
def atPos (w : Window) (pos : Vector2D) : PixelColor := w.data pos

/-- Source: `kernel/window.cpp`, `Window::Write` -/
def write (w : Window) (pos : Vector2D) (c : PixelColor) : Option Window :=
  if w.bounds.Contains pos then
    (w.shadowBuffer.write pos c).map fun shadow =>
      { w with data := fun p => if p = pos then c else w.data p, shadowBuffer := shadow }
  else none

/-- The calls of a drawing function on the window's writer. -/
def writeAll (w : Window) (calls : Writes) : Option Window :=
  calls.foldlM (fun w call => w.write call.1 call.2) w

/-- Source: `kernel/window.cpp`, `Window::SetTransparentColor` -/
def setTransparentColor (w : Window) (c : Option PixelColor) : Window :=
  { w with transparentColor := c }

/-- The values of a loop variable from `lo` up to `hi`, exclusive. -/
def loopRange (lo hi : Int) : List Int :=
  (List.range (hi - lo).toNat).map fun i => lo + (i : Nat)

/-- The calls of `Write` that `DrawTo` makes for a window with a transparent colour.
Source: `kernel/window.cpp`, `Window::DrawTo` -/
def transparentWrites (w : Window) (config : FrameBufferConfig) (pos : Vector2D) (tc : PixelColor) :
    Writes :=
  let ys := loopRange (max 0 (0 - pos.y)) (min w.height (config.verticalResolution - pos.y))
  let xs := loopRange (max 0 (0 - pos.x)) (min w.width (config.horizontalResolution - pos.x))
  ((ys.flatMap fun y => xs.map fun x => (⟨x, y⟩ : Vector2D)).filter fun d => w.atPos d != tc).map
    fun d => (pos + d, w.atPos d)

/-- Source: `kernel/window.cpp`, `Window::DrawTo` -/
def drawTo (w : Window) (dst : FrameBuffer config) (pos : Vector2D) (area : Rectangle) :
    Option (FrameBuffer config) :=
  match w.transparentColor with
  | none =>
      let windowArea : Rectangle := ⟨pos, w.size⟩
      let intersection := area.inter windowArea
      (dst.copy intersection.pos w.shadowBuffer
        ⟨intersection.pos - pos, intersection.size⟩).map Prod.snd
  | some tc => dst.writeAll (w.transparentWrites config pos tc)

/-- Source: `kernel/window.cpp`, `ToplevelWindow::ToplevelWindow` -/
def toplevelWindow (font : Font) (width height : Nat) (shadowFormat : PixelFormat)
    (title : List UInt8) : Option Window :=
  { new width height shadowFormat with title := some title }.writeAll
    (drawWindow font width height title)

/-- Source: `kernel/window.cpp`, `ToplevelWindow::Activate` -/
def activate (font : Font) (w : Window) : Option Window :=
  match w.title with
  | none => some w
  | some title => w.writeAll (drawWindowTitle font w.width title true)

/-- Source: `kernel/window.cpp`, `ToplevelWindow::Deactivate` -/
def deactivate (font : Font) (w : Window) : Option Window :=
  match w.title with
  | none => some w
  | some title => w.writeAll (drawWindowTitle font w.width title false)

/-! ## What a window shows -/

/-- What the window shows at one of its pixels, `none` where it is transparent: a window without a
transparent colour is drawn from its shadow buffer, one with it from `data_`. -/
def ink (w : Window) (d : Vector2D) : Option PixelColor :=
  if w.bounds.Contains d then
    match w.transparentColor with
    | none => some (w.shadowBuffer.pixel d)
    | some tc => if w.atPos d = tc then none else some (w.atPos d)
  else none

/-- The part of the ink that `DrawTo` paints: a window with a transparent colour ignores the
area. -/
def drawn (w : Window) (pos : Vector2D) (area : Rectangle) (p : Vector2D) : Option PixelColor :=
  if w.transparentColor = none ∧ ¬area.Contains p then none else w.ink (p - pos)

theorem ink_isSome {w : Window} (hsolid : w.transparentColor = none) {d : Vector2D} :
    (w.ink d).isSome = true ↔ w.bounds.Contains d := by
  unfold ink
  rw [hsolid]
  split_ifs with hd <;> simp [hd]

theorem mem_loopRange {lo hi i : Int} : i ∈ loopRange lo hi ↔ lo ≤ i ∧ i < hi := by
  unfold loopRange
  rw [List.mem_map]
  constructor
  · rintro ⟨k, hk, rfl⟩
    have := List.mem_range.mp hk
    omega
  · rintro ⟨hlo, hhi⟩
    exact ⟨(i - lo).toNat, List.mem_range.mpr (by omega), by omega⟩

/-- The loops run over the window's pixels that are on the screen. -/
theorem mem_transparentWrites {w : Window} {pos : Vector2D} {tc : PixelColor}
    {call : Vector2D × PixelColor} :
    call ∈ w.transparentWrites config pos tc ↔ config.outline.Contains call.1 ∧
      w.bounds.Contains (call.1 - pos) ∧ w.atPos (call.1 - pos) ≠ tc ∧
        call.2 = w.atPos (call.1 - pos) := by
  unfold transparentWrites
  simp only [List.mem_map, List.mem_filter, List.mem_flatMap, mem_loopRange, bne_iff_ne]
  constructor
  · rintro ⟨d, ⟨⟨y, hy, x, hx, rfl⟩, htc⟩, rfl⟩
    simp only [Vector2D.add_sub_cancel_left]
    refine ⟨?_, ?_, htc, trivial⟩
    · unfold Rectangle.Contains outline frameBufferSize
      simp only [Vector2D.add_x, Vector2D.add_y]
      omega
    · unfold Rectangle.Contains bounds size
      simp only
      omega
  · rintro ⟨hscreen, hwindow, htc, hcolor⟩
    unfold Rectangle.Contains outline frameBufferSize at hscreen
    unfold Rectangle.Contains bounds size at hwindow
    simp only [Vector2D.sub_x, Vector2D.sub_y] at hscreen hwindow
    refine ⟨call.1 - pos, ⟨⟨(call.1 - pos).y, ?_, (call.1 - pos).x, ?_, rfl⟩, htc⟩, ?_⟩
    · simp only [Vector2D.sub_y]
      omega
    · simp only [Vector2D.sub_x]
      omega
    · rw [Vector2D.add_sub_cancel, ← hcolor]

/-- An opaque window is drawn inside the area. -/
theorem drawn_opaque {w : Window} (hsolid : w.transparentColor = none) (pos : Vector2D)
    (area : Rectangle) (p : Vector2D) :
    w.drawn pos area p = if area.Contains p ∧ w.bounds.Contains (p - pos) then
      some (w.shadowBuffer.pixel (p - pos)) else none := by
  unfold drawn ink
  rw [hsolid]
  by_cases harea : area.Contains p
  · rw [if_neg fun h => h.2 harea]
    simp only [harea, true_and]
  · rw [if_pos ⟨rfl, harea⟩, if_neg fun h => harea h.1]

/-- A window with a transparent colour is drawn wherever it has another colour. -/
theorem drawn_transparent {w : Window} {tc : PixelColor} (htc : w.transparentColor = some tc)
    (pos : Vector2D) (area : Rectangle) (p : Vector2D) :
    w.drawn pos area p = if w.bounds.Contains (p - pos) ∧ w.atPos (p - pos) ≠ tc then
      some (w.atPos (p - pos)) else none := by
  unfold drawn ink
  rw [htc, if_neg fun h => Option.some_ne_none tc h.1]
  by_cases hbounds : w.bounds.Contains (p - pos)
  · simp only [hbounds, if_true, true_and, ne_eq, ite_not]
  · rw [if_neg hbounds, if_neg fun h => hbounds h.1]

/-- The pixels that the loops write. -/
theorem mem_transparentWrites_fst {w : Window} {pos p : Vector2D} {tc : PixelColor}
    (hp : config.outline.Contains p) :
    p ∈ (w.transparentWrites config pos tc).map Prod.fst ↔
      w.bounds.Contains (p - pos) ∧ w.atPos (p - pos) ≠ tc := by
  rw [List.mem_map]
  constructor
  · rintro ⟨call, hmem, rfl⟩
    obtain ⟨-, hbounds, htc, -⟩ := mem_transparentWrites.mp hmem
    exact ⟨hbounds, htc⟩
  · rintro ⟨hbounds, htc⟩
    exact ⟨(p, w.atPos (p - pos)), mem_transparentWrites.mpr ⟨hp, hbounds, htc, rfl⟩, rfl⟩

/-- **`DrawTo` paints the ink.** -/
theorem drawTo_spec (w : Window) (dst : FrameBuffer config) (pos : Vector2D) {area : Rectangle}
    (hformat : config.pixelFormat = w.shadowFormat) (harea : area.Proper) :
    ∃ dst', w.drawTo dst pos area = some dst' ∧ ∀ p, config.outline.Contains p →
      dst'.pixel p = (w.drawn pos area p).getD (dst.pixel p) := by
  unfold drawTo
  cases htc : w.transparentColor with
  | none =>
      have hwindow : (⟨pos, w.size⟩ : Rectangle).Proper :=
        ⟨Int.natCast_nonneg _, Int.natCast_nonneg _⟩
      have hcontains : ∀ p, (area.inter ⟨pos, w.size⟩).Contains p ↔
          area.Contains p ∧ w.bounds.Contains (p - pos) := by
        intro p
        rw [Rectangle.contains_inter harea hwindow]
        exact and_congr_right fun _ => Rectangle.contains_sub.symm
      have hinter := Rectangle.proper_inter harea hwindow
      simp only
      generalize area.inter ⟨pos, w.size⟩ = inter at hcontains hinter
      have hsrcArea : (⟨inter.pos - pos, inter.size⟩ : Rectangle).Proper :=
        ⟨hinter.width, hinter.height⟩
      obtain ⟨dst', hcopy, hpixel⟩ := dst.copy_spec inter.pos w.shadowBuffer hformat hsrcArea
      refine ⟨dst', by rw [hcopy]; rfl, fun p hp => ?_⟩
      rw [hpixel p hp, Vector2D.sub_add_sub_cancel, drawn_opaque htc]
      by_cases hin : area.Contains p ∧ w.bounds.Contains (p - pos)
      · rw [if_pos ⟨(hcontains p).mpr hin, hin.2⟩, if_pos hin]
        rfl
      · rw [if_neg fun h => hin ((hcontains p).mp h.1), if_neg hin]
        rfl
  | some tc =>
      obtain ⟨dst', hwrite, hpixel⟩ := dst.writeAll_spec
        (f := fun p => w.atPos (p - pos)) (w.transparentWrites config pos tc)
        (fun call hmem => (mem_transparentWrites.mp hmem).1)
        (fun call hmem => (mem_transparentWrites.mp hmem).2.2.2)
      refine ⟨dst', hwrite, fun p hp => ?_⟩
      rw [hpixel p hp, drawn_transparent htc]
      simp only [mem_transparentWrites_fst hp]
      split_ifs <;> rfl

/-! ## Drawing in a window -/

/-- Every pixel that has changed is in the rectangle. -/
def ChangedWithin (w w' : Window) (area : Rectangle) : Prop :=
  ∀ p, w'.ink p ≠ w.ink p → area.Contains p

/-- The windows differ in their pixels only. -/
structure SameFrame (w w' : Window) : Prop where
  width : w'.width = w.width
  height : w'.height = w.height
  shadowFormat : w'.shadowFormat = w.shadowFormat
  transparentColor : w'.transparentColor = w.transparentColor
  title : w'.title = w.title

theorem SameFrame.refl (w : Window) : SameFrame w w := ⟨rfl, rfl, rfl, rfl, rfl⟩

theorem SameFrame.trans {w w₁ w₂ : Window} (h : SameFrame w w₁) (h' : SameFrame w₁ w₂) :
    SameFrame w w₂ :=
  ⟨h'.width.trans h.width, h'.height.trans h.height, h'.shadowFormat.trans h.shadowFormat,
    h'.transparentColor.trans h.transparentColor, h'.title.trans h.title⟩

theorem SameFrame.size {w w' : Window} (h : SameFrame w w') : w'.size = w.size := by
  unfold Window.size
  rw [h.width, h.height]

theorem SameFrame.bounds {w w' : Window} (h : SameFrame w w') : w'.bounds = w.bounds := by
  unfold Window.bounds
  rw [h.size]

/-- A write outside the window is undefined. -/
theorem contains_of_write {w w' : Window} {pos : Vector2D} {c : PixelColor}
    (h : w.write pos c = some w') : w.bounds.Contains pos := by
  unfold write at h
  split_ifs at h with hin
  exact hin

theorem write_spec (w : Window) {pos : Vector2D} (hpos : w.bounds.Contains pos) (c : PixelColor) :
    ∃ w', w.write pos c = some w' ∧ SameFrame w w' ∧
      ∀ d, d ≠ pos → w'.ink d = w.ink d := by
  obtain ⟨shadow, hshadow, hpixel⟩ := w.shadowBuffer.write_spec hpos c
  unfold write
  rw [if_pos hpos, hshadow]
  refine ⟨_, rfl, ⟨rfl, rfl, rfl, rfl, rfl⟩, fun d hd => ?_⟩
  unfold ink atPos
  simp only
  by_cases hin : w.bounds.Contains d
  · rw [if_neg hd, hpixel d hin, if_neg hd]
    rfl
  · rw [if_neg hin]
    exact if_neg hin

/-- **Drawing in a window**: it is defined if it stays inside, keeps the window's frame and changes
only the pixels drawn. -/
theorem writeAll_spec (w : Window) (calls : Writes)
    (hin : ∀ call ∈ calls, w.bounds.Contains call.1) :
    ∃ w', w.writeAll calls = some w' ∧ SameFrame w w' ∧
      ∀ d, d ∉ calls.map Prod.fst → w'.ink d = w.ink d := by
  induction calls generalizing w with
  | nil => exact ⟨w, rfl, .refl w, fun _ _ => rfl⟩
  | cons call calls ih =>
      obtain ⟨w₁, hwrite, hframe₁, hink₁⟩ := w.write_spec (hin call List.mem_cons_self) call.2
      obtain ⟨w', hrest, hframe, hink⟩ := ih w₁ fun call' hmem => by
        rw [hframe₁.bounds]
        exact hin call' (List.mem_cons_of_mem _ hmem)
      refine ⟨w', ?_, hframe₁.trans hframe, fun d hd => ?_⟩
      · unfold writeAll at hrest ⊢
        rw [List.foldlM_cons, hwrite]
        exact hrest
      · rw [List.map_cons, List.mem_cons, not_or] at hd
        rw [hink d hd.2, hink₁ d hd.1]

/-- Drawing in one colour, as the shadow buffer shows it. -/
theorem writeAll_color_spec (w : Window) (calls : Writes) {color : PixelColor}
    (hin : ∀ p ∈ calls.map Prod.fst, w.bounds.Contains p) (hcolor : ∀ call ∈ calls, call.2 = color) :
    ∃ w', w.writeAll calls = some w' ∧ SameFrame w w' ∧ ∀ p, w.bounds.Contains p →
      w'.shadowBuffer.pixel p =
        if p ∈ calls.map Prod.fst then color else w.shadowBuffer.pixel p := by
  induction calls generalizing w with
  | nil => exact ⟨w, rfl, .refl w, fun p _ => by simp⟩
  | cons call calls ih =>
      have hpos : w.bounds.Contains call.1 := hin call.1 List.mem_cons_self
      obtain ⟨shadow, hshadow, hpixel₁⟩ := w.shadowBuffer.write_spec hpos call.2
      obtain ⟨w', hrest, hframe, hpixel⟩ := ih
        { w with
          data := fun p => if p = call.1 then call.2 else w.data p, shadowBuffer := shadow }
        (fun p hmem => hin p (List.mem_cons_of_mem _ hmem))
        (fun call' hmem => hcolor call' (List.mem_cons_of_mem _ hmem))
      refine ⟨w', ?_, ⟨hframe.width, hframe.height, hframe.shadowFormat, hframe.transparentColor,
        hframe.title⟩, fun p hp => ?_⟩
      · unfold writeAll at hrest ⊢
        rw [List.foldlM_cons]
        unfold write
        rw [if_pos hpos, hshadow]
        exact hrest
      · rw [hpixel p hp, List.map_cons]
        show (if p ∈ calls.map Prod.fst then color else shadow.pixel p) = _
        rw [hpixel₁ p hp, hcolor call List.mem_cons_self]
        by_cases hlater : p ∈ calls.map Prod.fst
        · rw [if_pos hlater, if_pos (List.mem_cons_of_mem _ hlater)]
        · simp only [hlater, if_false, List.mem_cons, or_false]

/-- Drawing that is defined stayed inside. -/
theorem contains_of_writeAll {w w' : Window} {calls : Writes} (h : w.writeAll calls = some w') :
    ∀ call ∈ calls, w.bounds.Contains call.1 := by
  induction calls generalizing w with
  | nil => exact fun call hmem => absurd hmem List.not_mem_nil
  | cons call calls ih =>
      unfold writeAll at h
      rw [List.foldlM_cons] at h
      obtain ⟨w₁, hwrite, hrest⟩ := Option.bind_eq_some_iff.mp h
      have hpos := contains_of_write hwrite
      obtain ⟨w₁', hwrite', hframe, -⟩ := w.write_spec hpos call.2
      rw [hwrite] at hwrite'
      cases hwrite'
      intro call' hmem
      rcases List.mem_cons.mp hmem with rfl | hmem
      · exact hpos
      · rw [← hframe.bounds]
        exact ih hrest call' hmem

theorem sameFrame_of_writeAll {w w' : Window} {calls : Writes} (h : w.writeAll calls = some w') :
    SameFrame w w' := by
  obtain ⟨w₁, hw₁, hframe, -⟩ := w.writeAll_spec calls (contains_of_writeAll h)
  rw [h] at hw₁
  cases hw₁
  exact hframe

/-! ## The two copies of the pixels -/

/-- The shadow buffer holds the pixels of `data_`. -/
def Synced (w : Window) : Prop :=
  ∀ d, w.bounds.Contains d → w.shadowBuffer.pixel d = w.atPos d

theorem synced_new (width height : Nat) (format : PixelFormat) :
    (new width height format).Synced := fun _ _ => rfl

/-- **Drawing keeps the two copies equal.** -/
theorem Synced.writeAll {w w' : Window} {calls : Writes} (hsynced : w.Synced)
    (h : w.writeAll calls = some w') : w'.Synced := by
  induction calls generalizing w with
  | nil =>
      cases h
      exact hsynced
  | cons call calls ih =>
      unfold Window.writeAll at h
      rw [List.foldlM_cons] at h
      obtain ⟨w₁, hwrite, hrest⟩ := Option.bind_eq_some_iff.mp h
      refine ih ?_ hrest
      have hpos := contains_of_write hwrite
      obtain ⟨shadow, hshadow, hpixel⟩ := w.shadowBuffer.write_spec hpos call.2
      unfold write at hwrite
      rw [if_pos hpos, hshadow] at hwrite
      cases hwrite
      intro d hd
      show shadow.pixel d = if d = call.1 then call.2 else w.data d
      rw [hpixel d hd, hsynced d hd]
      rfl

/-! ## Titles -/

/-- The title is drawn inside the window. -/
def TitleFits (w : Window) (font : Font) : Prop :=
  ∀ title, w.title = some title → ∀ call ∈ drawWindowTitle font w.width title false,
    w.bounds.Contains call.1

instance decidableTitleFits (font : Font) (w : Window) : Decidable (w.TitleFits font) := by
  unfold TitleFits
  cases w.title with
  | none => exact isTrue fun title htitle => by cases htitle
  | some title =>
      exact decidable_of_iff
        (∀ call ∈ drawWindowTitle font w.width title false, w.bounds.Contains call.1)
        ⟨fun h title' htitle => by cases htitle; exact h, fun h => h title rfl⟩

/-- The constructor draws the title, so it fits. -/
theorem titleFits_toplevelWindow {font : Font} {width height : Nat} {format : PixelFormat}
    {title : List UInt8} {w : Window}
    (h : toplevelWindow font width height format title = some w) : w.TitleFits font := by
  unfold toplevelWindow at h
  have hin := contains_of_writeAll h
  have hframe := sameFrame_of_writeAll h
  intro title' htitle call hmem
  have hsame : title' = title := by
    rw [hframe.title] at htitle
    exact (Option.some.inj htitle).symm
  rw [hframe.width, hsame] at hmem
  rw [hframe.bounds]
  apply hin
  unfold drawWindow
  exact List.mem_append_right _ hmem

theorem SameFrame.titleFits {font : Font} {w w' : Window} (h : SameFrame w w')
    (hfits : w.TitleFits font) : w'.TitleFits font := by
  unfold TitleFits
  rw [h.title, h.width, h.bounds]
  exact hfits

/-- Both states of the title are drawn inside the window. -/
theorem TitleFits.contains {font : Font} {w : Window} (h : w.TitleFits font) {title : List UInt8}
    (htitle : w.title = some title) (active : Bool) :
    ∀ call ∈ drawWindowTitle font w.width title active, w.bounds.Contains call.1 := by
  intro call hmem
  have hpos : call.1 ∈ (drawWindowTitle font w.width title false).map Prod.fst := by
    rw [drawWindowTitle_positions font w.width title false active]
    exact List.mem_map_of_mem hmem
  obtain ⟨call', hmem', heq⟩ := List.mem_map.mp hpos
  rw [← heq]
  exact h title htitle call' hmem'

/-- `Activate` and `Deactivate` draw the title, if the window has one. -/
def drawTitle (font : Font) (active : Bool) (w : Window) : Option Window :=
  match w.title with
  | none => some w
  | some title => w.writeAll (drawWindowTitle font w.width title active)

theorem drawTitle_spec {font : Font} {w : Window} (h : w.TitleFits font) (active : Bool) :
    ∃ w', w.drawTitle font active = some w' ∧ SameFrame w w' := by
  unfold drawTitle
  cases htitle : w.title with
  | none => exact ⟨w, rfl, .refl w⟩
  | some title =>
      obtain ⟨w', hdraw, hframe, -⟩ := w.writeAll_spec _ (h.contains htitle active)
      exact ⟨w', hdraw, hframe⟩

theorem sameFrame_of_drawTitle {font : Font} {active : Bool} {w w' : Window}
    (h : w.drawTitle font active = some w') : SameFrame w w' := by
  unfold drawTitle at h
  cases htitle : w.title with
  | none =>
      simp only [htitle] at h
      cases h
      exact .refl w
  | some title =>
      simp only [htitle] at h
      exact sameFrame_of_writeAll h

theorem activate_spec {font : Font} {w : Window} (h : w.TitleFits font) :
    ∃ w', w.activate font = some w' ∧ SameFrame w w' := drawTitle_spec h true

theorem deactivate_spec {font : Font} {w : Window} (h : w.TitleFits font) :
    ∃ w', w.deactivate font = some w' ∧ SameFrame w w' := drawTitle_spec h false

theorem sameFrame_of_activate {font : Font} {w w' : Window} (h : w.activate font = some w') :
    SameFrame w w' := by
  have hdraw : w.drawTitle font true = some w' := h
  exact sameFrame_of_drawTitle hdraw

theorem sameFrame_of_deactivate {font : Font} {w w' : Window} (h : w.deactivate font = some w') :
    SameFrame w w' := by
  have hdraw : w.drawTitle font false = some w' := h
  exact sameFrame_of_drawTitle hdraw

end Window

end UhyokOS
