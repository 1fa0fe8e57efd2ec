import UhyokOS.Layer.Copies

/-!
# Redrawing a hidden layer

`Draw` of a layer that is not on the stack finds nothing to draw, and then copies to the screen all the
same. The rectangle it copies is a variable that only the loop assigns.

* `drawLayerArea_of_hidden`: what is left of the call.
* `keepsScreen_iff`: which values of the variable leave the screen alone.
* `draw_hidden_iff`: no matter what the variable holds, nothing changes only on a screen without pixels.
-/

namespace UhyokOS

open LayerManager FrameBufferConfig

variable {config : FrameBufferConfig} {font : Font}

namespace LayerManager

variable {lm lm' : LayerManager config} {id : Nat} {area junk : Rectangle}

/-- The call is defined and leaves every pixel of the screen unchanged, `junk` being in the variable. -/
def KeepsScreen (lm : LayerManager config) (id : Nat) (area junk : Rectangle) : Prop :=
  ∃ lm', lm.drawLayerArea id area junk = some lm' ∧
    ∀ p, config.outline.Contains p → lm'.screen.pixel p = lm.screen.pixel p

/-- The call leaves every pixel of the screen unchanged, and the result is the same whatever is in the
variable. -/
def DrawsNothing (lm : LayerManager config) (id : Nat) (area : Rectangle) : Prop :=
  ∃ lm', ∀ junk, lm.drawLayerArea id area junk = some lm' ∧
    ∀ p, config.outline.Contains p → lm'.screen.pixel p = lm.screen.pixel p

/-- The part of the rectangle that is on the screen has no negative width, and the back buffer shows
there what the screen shows. -/
structure QuietArea (lm : LayerManager config) (junk : Rectangle) : Prop where
  width : ¬(config.outline.inter junk).Reversed
  same : ∀ p, (config.outline.inter junk).Contains p → lm.backBuffer.pixel p = lm.screen.pixel p

/-- A hidden layer is not met on the stack. -/
theorem StackInv.id_ne_of_hidden (h : StackInv font lm) (hhidden : ¬lm.Displayed id) {ptr : LayerPtr}
    (hmem : ptr ∈ lm.layerStack) : ∃ layer, lm.deref ptr = some layer ∧ layer.id ≠ id := by
  obtain ⟨layer, hderef, -, hfind, -⟩ := h.deref hmem
  refine ⟨layer, hderef, fun hid => hhidden ?_⟩
  unfold Displayed
  rw [← hid, ← hfind]
  exact hmem

/-- The loop draws nothing and assigns nothing. -/
theorem drawFrom_of_hidden {stack : List LayerPtr} {back : FrameBuffer (backConfig config)}
    (hstack : ∀ q ∈ stack, ∃ layer, lm.deref q = some layer ∧ layer.id ≠ id) :
    lm.drawFrom id stack area junk false back = some (junk, back) := by
  induction stack with
  | nil => rfl
  | cons q stack ih =>
      obtain ⟨layer, hderef, hne⟩ := hstack q List.mem_cons_self
      rw [drawFrom, hderef, Option.bind_some, if_neg hne, if_neg Bool.false_ne_true]
      exact ih fun q' hq' => hstack q' (List.mem_cons_of_mem _ hq')

/-- **What is left of the call.** -/
theorem drawLayerArea_of_hidden (h : StackInv font lm) (hhidden : ¬lm.Displayed id)
    (area junk : Rectangle) :
    lm.drawLayerArea id area junk = lm.copyToScreen lm.backBuffer junk := by
  unfold drawLayerArea
  rw [drawFrom_of_hidden fun q hq => h.id_ne_of_hidden hhidden hq]
  rfl

/-- The copy to the screen, of a rectangle about which nothing is known. -/
theorem copyToScreen_keeps_iff (lm : LayerManager config) (junk : Rectangle) :
    (∃ lm', lm.copyToScreen lm.backBuffer junk = some lm' ∧
      ∀ p, config.outline.Contains p → lm'.screen.pixel p = lm.screen.pixel p) ↔
      lm.QuietArea junk := by
  have hspec : ¬(config.outline.inter junk).Reversed → ∃ screen,
      lm.screen.copy junk.pos lm.backBuffer junk = some (.kSuccess, screen) ∧
        ∀ p, config.outline.Contains p → screen.pixel p =
          if (config.outline.inter junk).Contains p then lm.backBuffer.pixel p
          else lm.screen.pixel p := by
    intro hnot
    rw [← copyArea_screen] at hnot
    obtain ⟨screen, hcopy, hpixel⟩ := lm.screen.copy_area_spec junk.pos lm.backBuffer rfl
      fun hrows => not_lt.mp fun hwidth => hnot ⟨hwidth, hrows⟩
    refine ⟨screen, hcopy, fun p hp => ?_⟩
    rw [hpixel p hp, copyArea_screen, Vector2D.add_sub_cancel]
  constructor
  · rintro ⟨lm', hcopy, hkept⟩
    obtain ⟨⟨error, screen⟩, hscreen, rfl⟩ := Option.map_eq_some_iff.mp hcopy
    have hwidth : ¬(config.outline.inter junk).Reversed := by
      rw [← copyArea_screen]
      have hformat : config.pixelFormat = (backConfig config).pixelFormat := rfl
      apply FrameBuffer.not_reversed_of_copyMemcpys hformat
      intro m hm
      have hdefined : (lm.screen.copy junk.pos lm.backBuffer junk).isSome := by
        rw [hscreen]
        rfl
      exact ((lm.screen.copy_isSome_iff junk.pos lm.backBuffer junk).mp hdefined m hm).1
    refine ⟨hwidth, fun p hp => ?_⟩
    obtain ⟨screen', hscreen', hpixel⟩ := hspec hwidth
    cases hscreen.symm.trans hscreen'
    have hrows : 0 < (config.outline.inter junk).size.y := by
      obtain ⟨-, -, htop, hbottom⟩ := hp
      omega
    have hin : config.outline.Contains p := (Rectangle.within_inter hrows).1.contains hp
    have hsame : screen.pixel p = lm.screen.pixel p := hkept p hin
    rw [hpixel p hin, if_pos hp] at hsame
    exact hsame
  · rintro ⟨hwidth, hsame⟩
    obtain ⟨screen, hscreen, hpixel⟩ := hspec hwidth
    refine ⟨{ lm with backBuffer := lm.backBuffer, screen := screen }, ?_, fun p hp => ?_⟩
    · unfold copyToScreen
      rw [hscreen]
      rfl
    · show screen.pixel p = lm.screen.pixel p
      rw [hpixel p hp]
      split_ifs with hin
      · exact hsame p hin
      · rfl

/-- **Which values of the variable leave the screen alone.** -/
theorem keepsScreen_iff (h : StackInv font lm) (hhidden : ¬lm.Displayed id) (area junk : Rectangle) :
    lm.KeepsScreen id area junk ↔ lm.QuietArea junk := by
  unfold KeepsScreen
  rw [drawLayerArea_of_hidden h hhidden]
  exact lm.copyToScreen_keeps_iff junk

/-- Beside any pixel of the screen begins a rectangle of negative width. -/
theorem not_quietArea (lm : LayerManager config) {p : Vector2D} (hp : config.outline.Contains p) :
    ¬lm.QuietArea ⟨⟨p.x + 1, p.y⟩, ⟨-1, 1⟩⟩ := by
  intro hquiet
  apply hquiet.width
  rw [Rectangle.reversed_inter config.proper_outline]
  obtain ⟨hx, hw, hy, hh⟩ := hp
  simp only [outline] at hx hw hy hh ⊢
  omega

/-- On a screen without pixels the copied area has no pixels, and no negative width either. -/
theorem inter_of_empty (hempty : ¬∃ p, config.outline.Contains p) (junk : Rectangle)
    (hrows : 0 < (config.outline.inter junk).size.y) : (config.outline.inter junk).size.x = 0 := by
  obtain ⟨hleft, hright, htop, hbottom⟩ := (Rectangle.within_inter hrows).1
  have hx : config.outline.pos.x = 0 := rfl
  have hy : config.outline.pos.y = 0 := rfl
  have hnarrow : config.outline.size.x ≤ 0 := by
    by_contra hwide
    exact hempty ⟨⟨0, 0⟩, hx.le, by simp only; omega, hy.le, by simp only; omega⟩
  have hnot : ¬(config.outline.inter junk).Reversed := by
    rw [Rectangle.reversed_inter config.proper_outline]
    omega
  have hpos : ¬(config.outline.inter junk).size.x < 0 := fun hneg => hnot ⟨hneg, hrows⟩
  omega

/-- On a screen without pixels nothing is copied. -/
theorem copyToScreen_of_empty (hempty : ¬∃ p, config.outline.Contains p) (lm : LayerManager config)
    (junk : Rectangle) : lm.copyToScreen lm.backBuffer junk = some lm := by
  have hquiet : lm.QuietArea junk := by
    refine ⟨fun hreversed => ?_, fun p hp => ?_⟩
    · have hzero := inter_of_empty hempty junk hreversed.rows
      have hneg := hreversed.width
      omega
    · obtain ⟨hleft, hright, htop, hbottom⟩ := hp
      have hzero := inter_of_empty hempty junk (by omega)
      omega
  obtain ⟨lm', hcopy, -⟩ := (lm.copyToScreen_keeps_iff junk).mpr hquiet
  obtain ⟨⟨error, screen⟩, hscreen, rfl⟩ := Option.map_eq_some_iff.mp hcopy
  have hsame : screen.buffer = lm.screen.buffer := by
    funext i
    refine FrameBuffer.copy_untouched hscreen fun k hk hin => ?_
    rw [copyArea_screen] at hk hin
    have hzero := inter_of_empty hempty junk (by omega)
    omega
  rw [hcopy]
  cases screen
  cases hsame
  rfl

/-- **What `Draw` of a hidden layer does, exactly.** -/
theorem drawsNothing_iff (h : StackInv font lm) (hhidden : ¬lm.Displayed id) (area : Rectangle) :
    lm.DrawsNothing id area ↔ ¬∃ p, config.outline.Contains p := by
  constructor
  · rintro ⟨lm', hall⟩ ⟨p, hp⟩
    have hkeeps : lm.KeepsScreen id area ⟨⟨p.x + 1, p.y⟩, ⟨-1, 1⟩⟩ := ⟨lm', hall _⟩
    exact lm.not_quietArea hp ((keepsScreen_iff h hhidden area _).mp hkeeps)
  · intro hempty
    refine ⟨lm, fun junk => ⟨?_, fun _ _ => rfl⟩⟩
    rw [drawLayerArea_of_hidden h hhidden]
    exact copyToScreen_of_empty hempty lm junk

end LayerManager

namespace LayerSystem

variable {s : LayerSystem config} {id : Nat}

/-- **`Draw` of a hidden layer.** In every reachable state, for every layer that is not on the stack and
every area: nothing changes and the result does not depend on the unassigned rectangle only on a screen
without pixels; and for a given value of the rectangle the screen stays as it is iff, in the part of the
rectangle that is on the screen, the back buffer shows the same. -/
theorem draw_hidden_iff {screen : FrameBuffer config} (hr : s.Reachable font screen)
    (hhidden : ¬s.manager.Displayed id) (area : Rectangle) :
    (s.manager.DrawsNothing id area ↔ ¬∃ p, config.outline.Contains p) ∧
      ∀ junk, s.manager.KeepsScreen id area junk ↔ s.manager.QuietArea junk := by
  have h : StackInv font s.manager := Reachable.inOrder hr
  exact ⟨drawsNothing_iff h hhidden area, keepsScreen_iff h hhidden area⟩

/-- The layer of the terminal, which is moved before it is first shown. -/
theorem draw_hidden_iff_desktop : ¬desktop.manager.DrawsNothing 4 ⟨⟨0, 0⟩, ⟨-1, -1⟩⟩ := by
  intro hnothing
  have hexact := (draw_hidden_iff desktop_reachable (show ¬desktop.manager.Displayed 4 by decide)
    ⟨⟨0, 0⟩, ⟨-1, -1⟩⟩).1
  exact hexact.mp hnothing ⟨⟨0, 0⟩, by decide⟩

/-- A white screen, before any layer is made. -/
def whiteScreen : LayerSystem tinyConfig := { manager := { screen := ⟨fun _ => ⟨255, 255, 255⟩⟩ } }

/-- **The console's first `Draw` may paint the screen black.** -/
theorem draw_hidden_changes_screen :
    ¬∀ (config : FrameBufferConfig) (font : Font) (screen : FrameBuffer config)
      (s : LayerSystem config) (id : Nat) (area : Rectangle), s.Reachable font screen →
        ¬s.manager.Displayed id → s.manager.DrawsNothing id area := by
  intro hall
  obtain ⟨lm', hdraw⟩ := hall tinyConfig noFont ⟨fun _ => ⟨255, 255, 255⟩⟩ whiteScreen 0
    ⟨⟨0, 0⟩, ⟨-1, -1⟩⟩ .init (by decide)
  have hblack : ∀ lm ∈ whiteScreen.manager.drawLayerArea 0 ⟨⟨0, 0⟩, ⟨-1, -1⟩⟩ tinyConfig.outline,
      lm.screen.pixel ⟨0, 0⟩ ≠ whiteScreen.manager.screen.pixel ⟨0, 0⟩ := by decide
  obtain ⟨hdraw, hsame⟩ := hdraw tinyConfig.outline
  exact hblack lm' hdraw (hsame ⟨0, 0⟩ (by decide))

end LayerSystem

end UhyokOS
