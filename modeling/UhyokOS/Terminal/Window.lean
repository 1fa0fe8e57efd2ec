import UhyokOS.Graphics.Moving
import UhyokOS.Graphics.Text
import UhyokOS.Terminal.Prompt

/-!
# The terminal's window

What the calls of the terminal do to the pixels of its window. The window has room for everything
the terminal draws, so every call is defined, and it changes pixels of its own area only.

* `perform_spec`, `performAll_spec`: the frame of one call and of a list of them.
* `newWindow?_spec`: the constructor's window.
-/

namespace UhyokOS

open FrameBufferConfig

/-- Source: `kernel/window.hpp`, `ToplevelWindow::InnerAreaWriter::Write` -/
def innerWrites (calls : Writes) : Writes := calls.map fun call => (call.1 + kTopLeftMargin, call.2)

namespace DrawCall

/-- The calls of `Write` that a call makes; `Move` makes none. -/
def writes (font : Font) : DrawCall → Writes
  | .fillRectangle inner pos size c =>
      if inner then innerWrites (UhyokOS.fillRectangle pos size c)
      else UhyokOS.fillRectangle pos size c
  | .writeAscii pos c color => UhyokOS.writeAscii font pos c color
  | .writeString pos s color => UhyokOS.writeString font pos s color
  | .move _ _ => []

/-- Make a call on a window. -/
def perform (font : Font) (w : Window) : DrawCall → Option Window
  | .move dstPos src => w.move dstPos src
  | call => w.writeAll (call.writes font)

/-- Make some calls, the first one first. -/
def performAll (font : Font) (w : Window) (calls : List DrawCall) : Option Window :=
  calls.foldlM (perform font) w

/-- The call stays in a rectangle; a move is from there, to other rows. -/
structure Fits (bounds : Rectangle) (call : DrawCall) : Prop where
  area : call.area.Within bounds
  move : ∀ dstPos src, call = .move dstPos src →
    src.Proper ∧ src.Within bounds ∧ dstPos.y ≠ src.pos.y

variable {font : Font} {w w' : Window} {call : DrawCall} {p : Vector2D}

/-- A call writes in its area. -/
theorem contains_of_mem_writes (h : p ∈ (call.writes font).map Prod.fst) :
    call.area.Contains p := by
  cases call with
  | fillRectangle inner pos size c =>
      unfold writes at h
      cases inner with
      | false => exact mem_fillRectangle.mp h
      | true =>
          simp only [if_true, innerWrites, List.map_map] at h
          obtain ⟨write, hwrite, rfl⟩ := List.mem_map.mp h
          have hin := mem_fillRectangle.mp (List.mem_map_of_mem hwrite)
          unfold Rectangle.Contains area at *
          simp only [if_true, Function.comp, Vector2D.add_x, Vector2D.add_y] at *
          omega
  | writeAscii pos c color =>
      have hin := (mem_writeAscii.mp h).1
      unfold Rectangle.Contains cellBox area at *
      simp only [Vector2D.sub_x, Vector2D.sub_y] at *
      omega
  | writeString pos s color => exact contains_of_mem_writeString h
  | move dstPos src => exact absurd h List.not_mem_nil

/-- **The frame of a call.** -/
theorem perform_spec (font : Font) (h : call.Fits w.bounds) :
    ∃ w', perform font w call = some w' ∧ w.SameFrame w' ∧
      ∀ p, ¬call.area.Contains p → w'.ink p = w.ink p := by
  have hwrites : ∃ w', w.writeAll (call.writes font) = some w' ∧ w.SameFrame w' ∧
      ∀ p, ¬call.area.Contains p → w'.ink p = w.ink p := by
    obtain ⟨w', hwrite, hframe, hink⟩ := w.writeAll_spec (call.writes font) fun write hmem =>
      h.area.contains (contains_of_mem_writes (List.mem_map_of_mem hmem))
    exact ⟨w', hwrite, hframe, fun p hp => hink p fun hmem => hp (contains_of_mem_writes hmem)⟩
  cases call with
  | move dstPos src =>
      obtain ⟨hproper, hsource, hrows⟩ := h.move dstPos src rfl
      have hin : w.MoveInBounds dstPos src := ⟨hproper, hsource, h.area⟩
      obtain ⟨w', hmove, hframe, hdata, hpixel⟩ :=
        Window.move_spec hin fun _ _ heq => absurd heq hrows
      refine ⟨w', hmove, hframe, fun p hp => ?_⟩
      unfold Window.ink Window.atPos
      rw [hframe.bounds, hframe.transparentColor, hdata]
      by_cases hbounds : w.bounds.Contains p
      · have hout : ¬(⟨dstPos, src.size⟩ : Rectangle).Contains p := hp
        rw [hpixel p hbounds, if_neg hout]
      · rw [if_neg hbounds, if_neg hbounds]
  | fillRectangle inner pos size c => exact hwrites
  | writeAscii pos c color => exact hwrites
  | writeString pos s color => exact hwrites

/-- The frame of some calls, by induction on them. -/
theorem performAll_spec (font : Font) {calls : List DrawCall} (h : ∀ call ∈ calls, call.Fits w.bounds) :
    ∃ w', performAll font w calls = some w' ∧ w.SameFrame w' ∧
      ∀ p, (∀ call ∈ calls, ¬call.area.Contains p) → w'.ink p = w.ink p := by
  induction calls generalizing w with
  | nil => exact ⟨w, rfl, .refl w, fun p _ => rfl⟩
  | cons call calls ih =>
      obtain ⟨w₁, hfirst, hframe₁, hink₁⟩ := perform_spec font (h call List.mem_cons_self)
      obtain ⟨w', hrest, hframe, hink⟩ := ih (w := w₁) fun call' hmem => by
        rw [hframe₁.bounds]
        exact h call' (List.mem_cons_of_mem _ hmem)
      refine ⟨w', ?_, hframe₁.trans hframe, fun p hp => ?_⟩
      · unfold performAll at hrest ⊢
        rw [List.foldlM_cons, hfirst]
        exact hrest
      · rw [hink p fun call' hmem => hp call' (List.mem_cons_of_mem _ hmem),
          hink₁ p (hp call List.mem_cons_self)]

theorem performAll_cons (call : DrawCall) (calls : List DrawCall) :
    performAll font w (call :: calls) =
      (perform font w call).bind fun w => performAll font w calls := by
  unfold performAll
  rw [List.foldlM_cons]
  rfl

theorem performAll_append (calls calls' : List DrawCall) :
    performAll font w (calls ++ calls') =
      (performAll font w calls).bind fun w => performAll font w calls' := by
  unfold performAll
  rw [List.foldlM_append]
  rfl

/-- A filled rectangle has its colour. -/
theorem fill_spec (font : Font) {pos size : Vector2D} (c : PixelColor)
    (hsolid : w.transparentColor = none)
    (h : (⟨pos, size⟩ : Rectangle).Within w.bounds) :
    ∃ w', perform font w (.fillRectangle false pos size c) = some w' ∧ w.SameFrame w' ∧
      ∀ p, w'.ink p = if (⟨pos, size⟩ : Rectangle).Contains p then some c else w.ink p := by
  obtain ⟨w', hwrite, hframe, hpixel⟩ := w.writeAll_color_spec (UhyokOS.fillRectangle pos size c)
    (fun p hp => h.contains (mem_fillRectangle.mp hp)) color_fillRectangle
  refine ⟨w', hwrite, hframe, fun p => ?_⟩
  unfold Window.ink
  rw [hframe.bounds, hframe.transparentColor, hsolid]
  by_cases hbounds : w.bounds.Contains p
  · rw [if_pos hbounds, if_pos hbounds]
    simp only
    rw [hpixel p hbounds]
    simp only [mem_fillRectangle]
    split_ifs <;> rfl
  · rw [if_neg hbounds, if_neg hbounds, if_neg fun hp => hbounds (h.contains hp)]

end DrawCall

/-! ## The constructor -/

/-- The size of the terminal's window. -/
def terminalSize : Vector2D := ⟨kColumns * 8 + 8 + 8, kRows * 16 + 8 + 28⟩

/-- The pixels of the terminal's window. -/
def terminalBounds : Rectangle := ⟨⟨0, 0⟩, terminalSize⟩

/-- Where the terminal draws text. -/
def innerArea : Rectangle := ⟨kTopLeftMargin, innerSize⟩

/-- A window that has room for its title is constructed. -/
theorem Window.toplevelWindow_spec (font : Font) {width height : Nat} (format : PixelFormat)
    {title : List UInt8} (htitle : 24 + 8 * title.length ≤ width) (hheight : 20 ≤ height) :
    ∃ w, toplevelWindow font width height format title = some w ∧ w.size = ⟨width, height⟩ ∧
      w.transparentColor = none := by
  obtain ⟨w, hdraw, hframe, -⟩ := Window.writeAll_spec
    { new width height format with title := some title } (drawWindow font width height title)
    (contains_of_mem_drawWindow (by omega) (by omega))
  exact ⟨w, hdraw, hframe.size, hframe.transparentColor⟩

namespace Terminal

variable {font : Font} {format : PixelFormat}

/-- The window that the constructor makes.
Source: `kernel/terminal.cpp`, `Terminal::Terminal` -/
def newWindow? (font : Font) (format : PixelFormat) : Option Window :=
  Window.toplevelWindow font terminalSize.x.toNat terminalSize.y.toNat format (text "Terminal")

/-- `*window_`, after all calls that were made on it. -/
def window? (font : Font) (format : PixelFormat) (t : Terminal) : Option Window :=
  (newWindow? font format).bind fun w => DrawCall.performAll font w t.drawn

/-- The window is one of a terminal. -/
structure IsTerminalWindow (w : Window) : Prop where
  bounds : w.bounds = terminalBounds
  solid : w.transparentColor = none

theorem IsTerminalWindow.of_sameFrame {w w' : Window} (h : IsTerminalWindow w)
    (hframe : w.SameFrame w') : IsTerminalWindow w' :=
  ⟨hframe.bounds.trans h.bounds, hframe.transparentColor.trans h.solid⟩

theorem newWindow?_spec (font : Font) (format : PixelFormat) :
    ∃ w, newWindow? font format = some w ∧ IsTerminalWindow w := by
  have htitle : 24 + 8 * (text "Terminal").length ≤ terminalSize.x.toNat := by decide
  obtain ⟨w, hnew, hsize, hsolid⟩ := Window.toplevelWindow_spec font format htitle
    (show 20 ≤ terminalSize.y.toNat by decide)
  refine ⟨w, hnew, ?_, hsolid⟩
  unfold Window.bounds terminalBounds
  rw [hsize]
  rfl

end Terminal

end UhyokOS
