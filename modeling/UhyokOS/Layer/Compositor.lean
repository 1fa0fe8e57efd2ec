import UhyokOS.Layer.Active
import UhyokOS.Lib.Painter

/-!
# The compositor

What the screen shows. `visible` is the picture that the displayed windows make, painted over each
other; the layer manager redraws parts of it into a back buffer and copies them to the screen.

* `draw_spec`, `drawLayerArea_spec`: which pixels a redraw brings up to date.
-/

namespace UhyokOS

open Painter LayerManager FrameBufferConfig

variable {config : FrameBufferConfig} {font : Font}

/-- What a layer shows at a position of the screen, `none` where its window has no pixel or a
transparent one. -/
def Layer.ink (layer : Layer) (p : Vector2D) : Option PixelColor :=
  layer.window.bind fun window => window.ink (p - layer.pos)

/-- The layer's window has no transparent colour. -/
def Layer.Solid (layer : Layer) : Prop :=
  ∀ window, layer.window = some window → window.transparentColor = none

/-- The pixel of the topmost displayed layer whose window has one there that is not of the
transparent colour. -/
def LayerManager.visible (lm : LayerManager config) (p : Vector2D) : Option PixelColor :=
  lm.layerStack.reverse.findSome? fun ptr => (lm.deref ptr).bind fun layer => layer.ink p

/-! ## Layers as sheets -/

/-- A layer as a painter sees it. -/
def Layer.sheet (layer : Layer) : Sheet Vector2D PixelColor := ⟨layer.ink, layer.Solid⟩

/-- The sheet a pointer points to. -/
def LayerManager.sheet (lm : LayerManager config) (ptr : LayerPtr) :
    Sheet Vector2D PixelColor :=
  match lm.deref ptr with
  | some layer => layer.sheet
  | none => ⟨fun _ => none, True⟩

theorem LayerManager.sheet_of_deref {lm : LayerManager config} {ptr : LayerPtr} {layer : Layer}
    (h : lm.deref ptr = some layer) : lm.sheet ptr = layer.sheet := by
  unfold LayerManager.sheet
  rw [h]

/-- `visible` is what a painter sees. -/
theorem LayerManager.visible_eq_topmost (lm : LayerManager config) (p : Vector2D) :
    lm.visible p = topmost p (lm.layerStack.map lm.sheet) := by
  have hink : ∀ ptr, ((lm.deref ptr).bind fun layer => layer.ink p) = (lm.sheet ptr).ink p := by
    intro ptr
    unfold LayerManager.sheet
    cases lm.deref ptr <;> rfl
  unfold LayerManager.visible
  simp only [hink]
  induction lm.layerStack with
  | nil => rfl
  | cons ptr stack ih =>
      rw [List.reverse_cons, List.findSome?_append, ih, List.map_cons, topmost]
      congr 1
      cases h : (lm.sheet ptr).ink p <;> simp [List.findSome?, h]

/-- `Layer::DrawTo` paints the sheet. -/
theorem Layer.drawTo_spec (layer : Layer) (dst : FrameBuffer config) {area : Rectangle}
    (hformat : ∀ window, layer.window = some window → config.pixelFormat = window.shadowFormat)
    (harea : area.Proper) :
    ∃ dst', layer.drawTo dst area = some dst' ∧ ∀ p, config.outline.Contains p →
      dst'.pixel p = (layer.sheet.painted area.Contains p).getD (dst.pixel p) := by
  unfold Layer.drawTo Sheet.painted Layer.sheet Layer.ink Layer.Solid
  cases hwindow : layer.window with
  | none =>
      refine ⟨dst, rfl, fun p _ => ?_⟩
      simp
  | some window =>
      obtain ⟨dst', hdraw, hpixel⟩ := window.drawTo_spec dst layer.pos
        (hformat window hwindow) harea
      refine ⟨dst', hdraw, fun p hp => ?_⟩
      rw [hpixel p hp]
      unfold Window.drawn
      simp

/-! ## Redrawing -/

namespace LayerManager

variable {lm lm' : LayerManager config} {id : Nat} {ptr : LayerPtr} {layer : Layer}
  {area : Rectangle}

/-- All windows have the screen's pixel format. -/
def SameFormat (lm : LayerManager config) : Prop :=
  ∀ layer ∈ lm.layers, ∀ window, layer.window = some window →
    config.pixelFormat = window.shadowFormat

/-- A stack of layers whose windows have the screen's pixel format. Only these are drawn: `Copy`
refuses the pixels of a window of another format. -/
def SameFormatOn (lm : LayerManager config) (stack : List LayerPtr) : Prop :=
  ∀ ptr ∈ stack, ∀ layer window, lm.deref ptr = some layer → layer.window = some window →
    config.pixelFormat = window.shadowFormat

theorem SameFormat.on (hformat : lm.SameFormat) (stack : List LayerPtr) : lm.SameFormatOn stack :=
  fun _ _ layer window hderef hwindow => hformat layer (mem_of_deref hderef) window hwindow

/-- The loop over some layers of the stack, by induction on them. -/
theorem drawLayers_spec (harea : area.Proper) (stack : List LayerPtr)
    (hformat : lm.SameFormatOn stack) (hstack : ∀ ptr ∈ stack, ∃ layer, lm.deref ptr = some layer)
    (back : FrameBuffer (backConfig config)) :
    ∃ back', lm.drawLayers area stack back = some back' ∧ ∀ p, config.outline.Contains p →
      back'.pixel p = repaint area.Contains p (stack.map lm.sheet) (back.pixel p) := by
  induction stack generalizing back with
  | nil => exact ⟨back, rfl, fun _ _ => rfl⟩
  | cons ptr stack ih =>
      obtain ⟨layer, hderef⟩ := hstack ptr List.mem_cons_self
      obtain ⟨back₁, hdraw, hpixel₁⟩ := layer.drawTo_spec back
        (fun window hwindow => hformat ptr List.mem_cons_self layer window hderef hwindow) harea
      obtain ⟨back', hrest, hpixel⟩ := ih
        (fun ptr' hmem => hformat ptr' (List.mem_cons_of_mem _ hmem))
        (fun ptr' hmem => hstack ptr' (List.mem_cons_of_mem _ hmem)) back₁
      refine ⟨back', ?_, fun p hp => ?_⟩
      · unfold drawLayers at hrest ⊢
        rw [List.foldlM_cons, hderef, Option.bind_some, hdraw]
        exact hrest
      · rw [hpixel p hp, hpixel₁ p hp, List.map_cons, sheet_of_deref hderef]
        rfl

/-- The copy to the screen. -/
theorem copyToScreen_spec (lm : LayerManager config) (back : FrameBuffer (backConfig config))
    (harea : area.Proper) :
    ∃ lm', lm.copyToScreen back area = some lm' ∧ lm'.backBuffer = back ∧
      ∀ p, config.outline.Contains p →
        lm'.screen.pixel p = if area.Contains p then back.pixel p else lm.screen.pixel p := by
  obtain ⟨screen, hcopy, hpixel⟩ := lm.screen.copy_spec area.pos back rfl harea
  refine ⟨_, by unfold copyToScreen; rw [hcopy]; rfl, rfl, fun p hp => ?_⟩
  show screen.pixel p = _
  rw [hpixel p hp, Vector2D.add_sub_cancel]
  by_cases hin : area.Contains p
  · rw [if_pos hin]
    exact if_pos ⟨hin, hp⟩
  · rw [if_neg hin]
    exact if_neg fun h => hin h.1

/-- The part of the screen that a redraw of a layer is about.
Source: `kernel/layer.cpp`, `LayerManager::Draw(unsigned int, Rectangle<int>)` -/
def redrawnArea (layer : Layer) (window : Window) (area : Rectangle) : Rectangle :=
  if area.size.x ≥ 0 ∨ area.size.y ≥ 0 then
    (⟨layer.pos, window.size⟩ : Rectangle).inter ⟨area.pos + layer.pos, area.size⟩
  else ⟨layer.pos, window.size⟩

variable {layer : Layer} {window : Window}

theorem redrawnArea_of_sized (h : area.size.x ≥ 0 ∨ area.size.y ≥ 0) :
    redrawnArea layer window area =
      (⟨layer.pos, window.size⟩ : Rectangle).inter ⟨area.pos + layer.pos, area.size⟩ := if_pos h

theorem redrawnArea_of_not_sized (h : ¬(area.size.x ≥ 0 ∨ area.size.y ≥ 0)) :
    redrawnArea layer window area = ⟨layer.pos, window.size⟩ := if_neg h

/-- Below the layer the loop draws nothing. -/
private theorem drawFrom_below {below rest : List LayerPtr} {windowArea : Rectangle}
    {back : FrameBuffer (backConfig config)}
    (hbelow : ∀ q ∈ below, ∃ layer, lm.deref q = some layer ∧ layer.id ≠ id) :
    lm.drawFrom id (below ++ rest) area windowArea false back =
      lm.drawFrom id rest area windowArea false back := by
  induction below with
  | nil => rfl
  | cons q below ih =>
      obtain ⟨layer, hderef, hne⟩ := hbelow q List.mem_cons_self
      rw [List.cons_append, drawFrom, hderef, Option.bind_some, if_neg hne, if_neg (by decide)]
      exact ih fun q' hmem => hbelow q' (List.mem_cons_of_mem _ hmem)

/-- Above the layer it draws every layer. -/
private theorem drawFrom_above {above : List LayerPtr} {windowArea : Rectangle}
    {back : FrameBuffer (backConfig config)}
    (habove : ∀ q ∈ above, ∃ layer, lm.deref q = some layer ∧ layer.id ≠ id) :
    lm.drawFrom id above area windowArea true back =
      (lm.drawLayers windowArea above back).map fun back' => (windowArea, back') := by
  induction above generalizing back with
  | nil => rfl
  | cons q above ih =>
      obtain ⟨layer, hderef, hne⟩ := habove q List.mem_cons_self
      rw [drawFrom, hderef, Option.bind_some, if_neg hne, if_pos rfl]
      unfold drawLayers
      rw [List.foldlM_cons, hderef, Option.bind_some]
      cases layer.drawTo back windowArea with
      | none => rfl
      | some back₁ => exact ih fun q' hmem => habove q' (List.mem_cons_of_mem _ hmem)

/-- The loop of `Draw` over a whole stack. -/
private theorem drawFrom_eq {below above : List LayerPtr} {window : Window} {junk : Rectangle}
    {back : FrameBuffer (backConfig config)}
    (hbelow : ∀ q ∈ below, ∃ layer, lm.deref q = some layer ∧ layer.id ≠ id)
    (habove : ∀ q ∈ above, ∃ layer, lm.deref q = some layer ∧ layer.id ≠ id)
    (hderef : lm.deref ptr = some layer) (hid : layer.id = id)
    (hwindow : layer.window = some window) :
    lm.drawFrom id (below ++ ptr :: above) area junk false back =
      (lm.drawLayers (redrawnArea layer window area) (ptr :: above) back).map fun back' =>
        (redrawnArea layer window area, back') := by
  rw [drawFrom_below hbelow, drawFrom, hderef, Option.bind_some, if_pos hid, hwindow,
    Option.bind_some]
  have hdraw : ∀ area', (layer.drawTo back (redrawnArea layer window area)).bind
      (lm.drawFrom id above area' (redrawnArea layer window area) true) =
        (lm.drawLayers (redrawnArea layer window area) (ptr :: above) back).map fun back' =>
          (redrawnArea layer window area, back') := by
    intro area'
    unfold drawLayers
    rw [List.foldlM_cons, hderef, Option.bind_some]
    cases layer.drawTo back (redrawnArea layer window area) with
    | none => rfl
    | some back₁ => exact drawFrom_above habove
  by_cases hsized : area.size.x ≥ 0 ∨ area.size.y ≥ 0
  · simp only
    rw [if_pos hsized, ← redrawnArea_of_sized hsized]
    exact hdraw _
  · simp only
    rw [if_neg hsized, ← redrawnArea_of_not_sized hsized]
    exact hdraw _

/-! ## Staleness -/

/-- Except for the stale pixels, the back buffer and the screen show what is visible. -/
def UpToDate (lm : LayerManager config) (stale : Vector2D → Prop) : Prop :=
  ∀ p, config.outline.Contains p → ¬stale p →
    lm.visible p = some (lm.backBuffer.pixel p) ∧ lm.visible p = some (lm.screen.pixel p)

theorem UpToDate.mono {stale stale' : Vector2D → Prop} (h : lm.UpToDate stale)
    (hsub : ∀ p, config.outline.Contains p → stale p → stale' p) : lm.UpToDate stale' := by
  intro p hp hfresh
  exact h p hp fun hstale => hfresh (hsub p hp hstale)

/-- Everything but the topmost layer is opaque, and the lowest layer covers the screen. -/
structure Composed (lm : LayerManager config) : Prop where
  format : lm.SameFormat
  solid : ∀ ptr ∈ lm.layerStack.dropLast, ∀ layer, lm.deref ptr = some layer → layer.Solid
  bottom : ∃ ptr layer window, lm.layerStack.head? = some ptr ∧ lm.deref ptr = some layer ∧
    layer.window = some window ∧ layer.pos = ⟨0, 0⟩ ∧ window.size = config.frameBufferSize ∧
      window.transparentColor = none

theorem SameLayers.visible (h : SameLayers lm lm') (p : Vector2D) :
    lm'.visible p = lm.visible p := by
  unfold LayerManager.visible deref
  rw [h.layers, h.layerStack]

/-- An opaque layer shows something exactly in its window. -/
theorem ink_isSome {window : Window} (hwindow : layer.window = some window)
    (hsolid : window.transparentColor = none) {p : Vector2D} :
    (layer.ink p).isSome = true ↔ (⟨layer.pos, window.size⟩ : Rectangle).Contains p := by
  unfold Layer.ink
  rw [hwindow, Option.bind_some, Window.ink_isSome hsolid]
  exact Rectangle.contains_sub

/-- **A redraw of a layer and those above it.** -/
private theorem upToDate_of_repaint {stale : Vector2D → Prop} (hc : lm.Composed)
    {below above : List LayerPtr} (hstack : lm.layerStack = below ++ ptr :: above)
    (h : lm.UpToDate stale) (hsame : SameLayers lm lm')
    (hback : ∀ p, config.outline.Contains p → lm'.backBuffer.pixel p =
      repaint area.Contains p ((ptr :: above).map lm.sheet) (lm.backBuffer.pixel p))
    (hscreen : ∀ p, config.outline.Contains p → lm'.screen.pixel p =
      if area.Contains p then lm'.backBuffer.pixel p else lm.screen.pixel p) :
    lm'.UpToDate fun p => stale p ∧ ¬(area.Contains p ∧ ((lm.sheet ptr).ink p).isSome) := by
  intro p hp hfresh
  have hclips : ∀ t ∈ (lm.sheet ptr :: above.map lm.sheet).dropLast, t.clips := by
    intro t ht
    rw [← List.map_cons, ← List.map_dropLast] at ht
    obtain ⟨q, hq, rfl⟩ := List.mem_map.mp ht
    have hmem : q ∈ lm.layerStack.dropLast := by
      rw [hstack, List.dropLast_append_cons]
      exact List.mem_append_right _ hq
    unfold LayerManager.sheet
    cases hderef : lm.deref q with
    | none => trivial
    | some layer => exact hc.solid q hmem layer hderef
  have hvisible : lm.visible p =
      topmost p (below.map lm.sheet ++ lm.sheet ptr :: above.map lm.sheet) := by
    rw [lm.visible_eq_topmost, hstack, List.map_append, List.map_cons]
  have hback' : lm'.visible p = some (lm'.backBuffer.pixel p) := by
    rw [hsame.visible, hvisible, hback p hp]
    apply topmost_repaint hclips
    by_cases hstale : stale p
    · exact Or.inr (not_not.mp fun hnot => hfresh ⟨hstale, hnot⟩)
    · rw [← hvisible]
      exact Or.inl (h p hp hstale).1
  refine ⟨hback', ?_⟩
  rw [hscreen p hp]
  by_cases hin : area.Contains p
  · rw [if_pos hin]
    exact hback'
  · rw [if_neg hin, hsame.visible]
    exact (h p hp fun hstale => hfresh ⟨hstale, fun h => hin h.1⟩).2

/-- **`Draw` of an area** brings the area up to date. -/
theorem draw_spec {stale : Vector2D → Prop} (hin : StackInv font lm) (hc : lm.Composed)
    (harea : area.Proper) (h : lm.UpToDate stale) :
    ∃ lm', lm.draw area = some lm' ∧ SameLayers lm lm' ∧
      lm'.UpToDate fun p => stale p ∧ ¬area.Contains p := by
  obtain ⟨ptr, layer, window, hhead, hderef, hwindow, hpos, hsize, hsolid⟩ := hc.bottom
  obtain ⟨above, hstack⟩ : ∃ above, lm.layerStack = ptr :: above :=
    List.head?_eq_some_iff.mp hhead
  obtain ⟨back, hdraw, hpixel⟩ := drawLayers_spec harea lm.layerStack (hc.format.on _)
    (fun ptr hmem => (hin.deref hmem).imp fun layer h => h.1) lm.backBuffer
  obtain ⟨lm', hcopy, hbackBuffer, hscreen⟩ := lm.copyToScreen_spec back harea
  have hsame := sameLayers_of_copyToScreen hcopy
  refine ⟨lm', by unfold draw; rw [hdraw]; exact hcopy, hsame, ?_⟩
  have hsplit : lm.layerStack = [] ++ ptr :: above := hstack
  have hfresh := upToDate_of_repaint hc hsplit h hsame
    (by rw [hbackBuffer, ← hstack]; exact hpixel) (by rw [hbackBuffer]; exact hscreen)
  refine hfresh.mono fun p hp hstale => ⟨hstale.1, fun harea => hstale.2 ⟨harea, ?_⟩⟩
  -- the lowest layer covers the screen
  rw [sheet_of_deref hderef]
  apply (ink_isSome hwindow hsolid).mpr
  rw [hpos, hsize]
  exact hp

/-- A displayed layer is on the stack once. -/
theorem StackInv.split_of_displayed (hin : StackInv font lm) (hdisplayed : lm.Displayed id) :
    ∃ below above, lm.layerStack = below ++ lm.findLayer id :: above ∧
      (∀ q ∈ below, ∃ layer, lm.deref q = some layer ∧ layer.id ≠ id) ∧
      ∀ q ∈ above, ∃ layer, lm.deref q = some layer ∧ layer.id ≠ id := by
  obtain ⟨below, above, hstack⟩ := List.append_of_mem hdisplayed
  refine ⟨below, above, hstack, List.forall_mem_append.mp fun q hq => ?_⟩
  have hnotMem : lm.findLayer id ∉ below ++ above := by
    have hnodup := hin.nodup
    rw [hstack, List.nodup_middle] at hnodup
    exact (List.nodup_cons.mp hnodup).1
  have hmem : q ∈ lm.layerStack := by
    rw [hstack, List.mem_append, List.mem_cons]
    exact (List.mem_append.mp hq).imp_right Or.inr
  obtain ⟨layer', hderef', -, hfind, -⟩ := hin.deref hmem
  refine ⟨layer', hderef', fun heq => hnotMem ?_⟩
  rw [← heq, ← hfind]
  exact hq

/-- **`Draw` of a layer** brings the pixels of the area up to date in which the layer shows
something. -/
theorem drawLayerArea_spec {stale : Vector2D → Prop} {window : Window} {junk : Rectangle}
    (hin : StackInv font lm) (hc : lm.Composed) (hdisplayed : lm.Displayed id)
    (hderef : lm.deref (lm.findLayer id) = some layer) (hwindow : layer.window = some window)
    (harea : (redrawnArea layer window area).Proper) (h : lm.UpToDate stale) :
    ∃ lm', lm.drawLayerArea id area junk = some lm' ∧ SameLayers lm lm' ∧
      lm'.UpToDate fun p =>
        stale p ∧ ¬((redrawnArea layer window area).Contains p ∧ (layer.ink p).isSome) := by
  obtain ⟨below, above, hstack, hbelow, habove⟩ := hin.split_of_displayed hdisplayed
  have hlayerId : layer.id = id := hin.id_of_deref hderef
  obtain ⟨back, hdraw, hpixel⟩ := drawLayers_spec harea (lm.findLayer id :: above)
    (hc.format.on _)
    (fun q hq => (hin.deref (hstack ▸ List.mem_append_right _ hq)).imp fun layer h => h.1)
    lm.backBuffer
  obtain ⟨lm', hcopy, hbackBuffer, hscreen⟩ := lm.copyToScreen_spec back harea
  have hsame := sameLayers_of_copyToScreen hcopy
  refine ⟨lm', ?_, hsame, ?_⟩
  · unfold drawLayerArea
    rw [hstack, drawFrom_eq hbelow habove hderef hlayerId hwindow, hdraw]
    exact hcopy
  · have hfresh := upToDate_of_repaint hc hstack h hsame (by rw [hbackBuffer]; exact hpixel)
      (by rw [hbackBuffer]; exact hscreen)
    rw [sheet_of_deref hderef] at hfresh
    exact hfresh

end LayerManager

end UhyokOS
