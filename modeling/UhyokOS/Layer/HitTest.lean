import UhyokOS.Layer.Incremental

/-!
# Hit testing

The model of `FindLayerByPosition`, which searches the stack from the top for a layer whose window
covers a position. It is used to find the layer under the mouse, so the layer of the mouse is left out.

* `findFrom_eq_some_iff`, `findFrom_eq_none_iff`: what the search finds.
* `LastWriter`: the layer that decides about a pixel when the whole screen is drawn.
* `hit_test_agrees`: without the mouse layer, the layer that is found is the one that `Draw` leaves at
  the position.
* `hit_test_disagrees`: not so for a window whose pixel format is not the screen's.
-/

namespace UhyokOS

open Painter LayerManager FrameBufferConfig

variable {config : FrameBufferConfig} {font : Font}

/-- The predicate of the search.
Source: `kernel/layer.cpp`, `LayerManager::FindLayerByPosition` -/
def Layer.hit (pos : Vector2D) (excludeId : Nat) (layer : Layer) : Bool :=
  if layer.id = excludeId then false
  else
    match layer.window with
    | none => false
    | some win =>
        let winPos := layer.pos
        let winEndPos := winPos + win.size
        winPos.x ≤ pos.x && pos.x < winEndPos.x && winPos.y ≤ pos.y && pos.y < winEndPos.y

/-- Drawing the layer puts the colour at the pixel, whatever was there. -/
def Layer.Overwrites (layer : Layer) (config : FrameBufferConfig) (area : Rectangle) (p : Vector2D)
    (c : PixelColor) : Prop :=
  ∀ back : FrameBuffer (backConfig config), ∃ back', layer.drawTo back area = some back' ∧
    back'.pixel p = c

/-- Drawing the layer leaves the pixel as it was. -/
def Layer.Spares (layer : Layer) (config : FrameBufferConfig) (area : Rectangle) (p : Vector2D) :
    Prop :=
  ∀ back : FrameBuffer (backConfig config), ∃ back', layer.drawTo back area = some back' ∧
    back'.pixel p = back.pixel p

namespace LayerManager

/-- The layer decides about a pixel when the area is drawn: it puts its window's pixel there, and the
layers that are drawn after it leave the pixel as it is. -/
def LastWriter (lm : LayerManager config) (area : Rectangle) (p : Vector2D) (ptr : LayerPtr)
    (c : PixelColor) : Prop :=
  ∃ below above layer, lm.layerStack = below ++ ptr :: above ∧ lm.deref ptr = some layer ∧
    layer.ink p = some c ∧ layer.Overwrites config area p c ∧
    ∀ q ∈ above, ∃ layer', lm.deref q = some layer' ∧ layer'.Spares config area p

/-- `std::find_if` over some layers of the stack.
Source: `kernel/layer.cpp`, `LayerManager::FindLayerByPosition` -/
def findFrom (lm : LayerManager config) (pred : Layer → Bool) : List LayerPtr → Option LayerPtr
  | [] => some none
  | p :: stack =>
      (lm.deref p).bind fun layer => if pred layer then some p else lm.findFrom pred stack

/-- Source: `kernel/layer.cpp`, `LayerManager::FindLayerByPosition` -/
def findLayerByPosition (lm : LayerManager config) (pos : Vector2D) (excludeId : Nat) :
    Option LayerPtr :=
  lm.findFrom (Layer.hit pos excludeId) lm.layerStack.reverse

variable {lm : LayerManager config} {pred : Layer → Bool} {stack : List LayerPtr} {ptr q : LayerPtr}
  {layer : Layer} {window : Window} {mouse i : Nat} {p : Vector2D}

/-! ## The search -/

/-- The layer is there, and the predicate does not hold of it. -/
def Misses (lm : LayerManager config) (pred : Layer → Bool) (ptr : LayerPtr) : Prop :=
  ∃ layer, lm.deref ptr = some layer ∧ pred layer = false

/-- The layer is there, and the predicate holds of it. -/
def Hits (lm : LayerManager config) (pred : Layer → Bool) (ptr : LayerPtr) : Prop :=
  ∃ layer, lm.deref ptr = some layer ∧ pred layer = true

theorem findFrom_of_misses (h : lm.Misses pred ptr) (stack : List LayerPtr) :
    lm.findFrom pred (ptr :: stack) = lm.findFrom pred stack := by
  obtain ⟨layer, hderef, hpred⟩ := h
  rw [findFrom, hderef, Option.bind_some, hpred, if_neg Bool.false_ne_true]

theorem findFrom_of_hits (h : lm.Hits pred ptr) (stack : List LayerPtr) :
    lm.findFrom pred (ptr :: stack) = some ptr := by
  obtain ⟨layer, hderef, hpred⟩ := h
  rw [findFrom, hderef, Option.bind_some, hpred, if_pos rfl]

/-- What is found is hit. -/
theorem hits_of_findFrom (h : lm.findFrom pred stack = some (some i)) :
    lm.Hits pred (some i) := by
  induction stack with
  | nil => cases h
  | cons ptr stack ih =>
      obtain ⟨layer, hderef, hrest⟩ := Option.bind_eq_some_iff.mp h
      split_ifs at hrest with hpred
      · cases hrest
        exact ⟨layer, hderef, hpred⟩
      · exact ih hrest

theorem not_hits_of_misses (h : lm.Misses pred ptr) : ¬lm.Hits pred ptr := by
  rintro ⟨layer, hderef, hpred⟩
  obtain ⟨layer', hderef', hpred'⟩ := h
  cases hderef.symm.trans hderef'
  exact Bool.false_ne_true (hpred'.symm.trans hpred)

theorem hits_or_misses (h : ∃ layer, lm.deref ptr = some layer) (pred : Layer → Bool) :
    lm.Hits pred ptr ∨ lm.Misses pred ptr := by
  obtain ⟨layer, hderef⟩ := h
  cases hpred : pred layer with
  | true => exact Or.inl ⟨layer, hderef, hpred⟩
  | false => exact Or.inr ⟨layer, hderef, hpred⟩

/-- **What the search finds**: the first layer of which the predicate holds. -/
theorem findFrom_eq_some_iff (hstack : ∀ q ∈ stack, ∃ layer, lm.deref q = some layer) :
    lm.findFrom pred stack = some (some i) ↔ ∃ pre post, stack = pre ++ some i :: post ∧
      lm.Hits pred (some i) ∧ ∀ q ∈ pre, lm.Misses pred q := by
  induction stack with
  | nil =>
      constructor
      · intro h
        cases h
      · rintro ⟨pre, post, hsplit, -⟩
        exact absurd hsplit (List.append_ne_nil_of_right_ne_nil _ (List.cons_ne_nil _ _)).symm
  | cons ptr stack ih =>
      have ih := ih fun q hq => hstack q (List.mem_cons_of_mem _ hq)
      rcases hits_or_misses (hstack ptr List.mem_cons_self) pred with hhit | hmiss
      · rw [findFrom_of_hits hhit, Option.some_inj]
        constructor
        · rintro rfl
          exact ⟨[], stack, rfl, hhit, fun q hq => absurd hq List.not_mem_nil⟩
        · rintro ⟨pre, post, hsplit, -, hpre⟩
          cases pre with
          | nil => exact (List.cons.inj hsplit).1
          | cons q pre =>
              obtain ⟨rfl, -⟩ := List.cons.inj hsplit
              exact absurd hhit (not_hits_of_misses (hpre ptr List.mem_cons_self))
      · rw [findFrom_of_misses hmiss, ih]
        constructor
        · rintro ⟨pre, post, rfl, hhit, hpre⟩
          exact ⟨ptr :: pre, post, rfl, hhit, List.forall_mem_cons.mpr ⟨hmiss, hpre⟩⟩
        · rintro ⟨pre, post, hsplit, hhit, hpre⟩
          cases pre with
          | nil =>
              obtain ⟨rfl, -⟩ := List.cons.inj hsplit
              exact absurd hhit (not_hits_of_misses hmiss)
          | cons q pre =>
              obtain ⟨-, hrest⟩ := List.cons.inj hsplit
              exact ⟨pre, post, hrest, hhit, (List.forall_mem_cons.mp hpre).2⟩

/-- It finds nothing iff the predicate holds of no layer. -/
theorem findFrom_eq_none_iff (hstack : ∀ q ∈ stack, ∃ layer, lm.deref q = some layer) :
    lm.findFrom pred stack = some none ↔ ∀ q ∈ stack, lm.Misses pred q := by
  induction stack with
  | nil => exact iff_of_true rfl fun q hq => absurd hq List.not_mem_nil
  | cons ptr stack ih =>
      have ih := ih fun q hq => hstack q (List.mem_cons_of_mem _ hq)
      rw [List.forall_mem_cons]
      rcases hits_or_misses (hstack ptr List.mem_cons_self) pred with hhit | hmiss
      · rw [findFrom_of_hits hhit]
        refine iff_of_false ?_ fun h => not_hits_of_misses h.1 hhit
        intro hnone
        obtain ⟨layer, hderef, -⟩ := hhit
        rw [Option.some_inj.mp hnone] at hderef
        cases hderef
      · rw [findFrom_of_misses hmiss, ih]
        exact (and_iff_right hmiss).symm

/-- The search ends if there is no null pointer among the layers. -/
theorem findFrom_isSome (hstack : ∀ q ∈ stack, ∃ layer, lm.deref q = some layer)
    (pred : Layer → Bool) : ∃ found, lm.findFrom pred stack = some found := by
  induction stack with
  | nil => exact ⟨none, rfl⟩
  | cons ptr stack ih =>
      rcases hits_or_misses (hstack ptr List.mem_cons_self) pred with hhit | hmiss
      · exact ⟨ptr, findFrom_of_hits hhit stack⟩
      · rw [findFrom_of_misses hmiss]
        exact ih fun q hq => hstack q (List.mem_cons_of_mem _ hq)

/-- Layers of which the predicate does not hold may be left out. -/
theorem findFrom_filter {keep : LayerPtr → Bool}
    (hdrop : ∀ q ∈ stack, keep q = false → lm.Misses pred q) :
    lm.findFrom pred (stack.filter keep) = lm.findFrom pred stack := by
  induction stack with
  | nil => rfl
  | cons ptr stack ih =>
      have ih := ih fun q hq => hdrop q (List.mem_cons_of_mem _ hq)
      cases hkeep : keep ptr with
      | true =>
          rw [List.filter_cons_of_pos hkeep, findFrom, findFrom, ih]
      | false =>
          rw [List.filter_cons_of_neg (by rw [hkeep]; exact Bool.false_ne_true), ih,
            findFrom_of_misses (hdrop ptr List.mem_cons_self hkeep)]

/-! ## The layer of the mouse -/

/-- `Hide` leaves the layers alone. -/
theorem findFrom_hide (lm : LayerManager config) (mouse : Nat) (stack : List LayerPtr) :
    (lm.hide mouse).findFrom pred stack = lm.findFrom pred stack := by
  induction stack with
  | nil => rfl
  | cons ptr stack ih =>
      rw [findFrom, findFrom, ih]
      rfl

/-- The mouse layer is never found. -/
theorem findLayerByPosition_hide (h : StackInv font lm) (p : Vector2D) (mouse : Nat) :
    lm.findLayerByPosition p mouse =
      (lm.hide mouse).findFrom (Layer.hit p mouse) (lm.hide mouse).layerStack.reverse := by
  rw [findFrom_hide]
  have hstack : (lm.hide mouse).layerStack =
      lm.layerStack.filter fun q => q != lm.findLayer mouse := h.nodup.erase_eq_filter _
  rw [hstack, ← List.filter_reverse]
  refine (findFrom_filter fun q hq hkeep => ?_).symm
  obtain ⟨layer, hderef, -, -, -⟩ := h.deref (List.mem_reverse.mp hq)
  have hq : q = lm.findLayer mouse := by simpa using hkeep
  rw [hq] at hderef ⊢
  exact ⟨layer, hderef, if_pos (h.id_of_deref hderef)⟩

/-- A layer that is left on the stack is not the mouse's. -/
theorem StackInv.ne_of_mem_hide (h : StackInv font lm) (hmem : ptr ∈ (lm.hide mouse).layerStack)
    (hderef : lm.deref ptr = some layer) : layer.id ≠ mouse := by
  obtain ⟨hne, hmem⟩ := (h.nodup.mem_erase_iff).mp hmem
  obtain ⟨layer', hderef', -, hfind, -⟩ := h.deref hmem
  cases hderef.symm.trans hderef'
  intro heq
  rw [heq] at hfind
  exact hne hfind

/-- The comparisons of the predicate are those of a rectangle. -/
theorem hit_iff (hid : layer.id ≠ mouse) (hwindow : layer.window = some window) :
    layer.hit p mouse = true ↔ (⟨layer.pos, window.size⟩ : Rectangle).Contains p := by
  unfold Layer.hit Rectangle.Contains
  rw [if_neg hid, hwindow]
  simp only [Bool.and_eq_true, decide_eq_true_eq, Vector2D.add_x, Vector2D.add_y, and_assoc]

/-- An opaque layer is hit where it shows something. -/
theorem hit_iff_ink (hid : layer.id ≠ mouse) (hsolid : layer.Solid) :
    layer.hit p mouse = true ↔ (layer.ink p).isSome = true := by
  cases hwindow : layer.window with
  | none =>
      unfold Layer.hit Layer.ink
      rw [if_neg hid, hwindow]
      simp
  | some window => rw [hit_iff hid hwindow, ink_isSome hwindow (hsolid window hwindow)]

/-- Every layer on the stack is there, is opaque, has the screen's pixel format and is not the mouse's. -/
def Plain (lm : LayerManager config) (mouse : Nat) : Prop :=
  ∀ ptr ∈ lm.layerStack, ∃ layer, lm.deref ptr = some layer ∧ layer.Solid ∧ layer.id ≠ mouse ∧
    ∀ window, layer.window = some window → config.pixelFormat = window.shadowFormat

end LayerManager

/-! ## Drawing -/

/-- There are two colours. -/
theorem PixelColor.exists_ne (c : PixelColor) : ∃ c' : PixelColor, c' ≠ c := by
  by_cases h : c = ⟨0, 0, 0⟩
  · exact ⟨⟨1, 0, 0⟩, by rw [h]; decide⟩
  · exact ⟨⟨0, 0, 0⟩, Ne.symm h⟩

section draw

variable {layer : Layer} {p : Vector2D}

/-- What drawing a layer leaves at a pixel of the screen. -/
theorem Layer.drawTo_outline (layer : Layer)
    (hformat : ∀ window, layer.window = some window → config.pixelFormat = window.shadowFormat)
    (hp : config.outline.Contains p) (back : FrameBuffer (backConfig config)) :
    ∃ back', layer.drawTo back config.outline = some back' ∧
      back'.pixel p = (layer.ink p).getD (back.pixel p) := by
  obtain ⟨back', hdraw, hpixel⟩ := layer.drawTo_spec back hformat config.proper_outline
  have hpainted : layer.sheet.painted config.outline.Contains p = layer.ink p :=
    if_neg fun h => h.2 hp
  exact ⟨back', hdraw, hpainted ▸ hpixel p hp⟩

theorem Layer.overwrites_of_ink {c : PixelColor}
    (hformat : ∀ window, layer.window = some window → config.pixelFormat = window.shadowFormat)
    (hp : config.outline.Contains p) (hink : layer.ink p = some c) :
    layer.Overwrites config config.outline p c := by
  intro back
  obtain ⟨back', hdraw, hpixel⟩ := layer.drawTo_outline hformat hp back
  rw [hink] at hpixel
  exact ⟨back', hdraw, hpixel⟩

theorem Layer.spares_iff
    (hformat : ∀ window, layer.window = some window → config.pixelFormat = window.shadowFormat)
    (hp : config.outline.Contains p) :
    layer.Spares config config.outline p ↔ layer.ink p = none := by
  constructor
  · intro hspares
    by_contra hink
    obtain ⟨c, hc⟩ := Option.ne_none_iff_exists'.mp hink
    obtain ⟨c', hne⟩ := c.exists_ne
    obtain ⟨back', hdraw, hpixel⟩ := hspares ⟨fun _ => c'⟩
    obtain ⟨back₁, hdraw₁, hpixel₁⟩ := Layer.overwrites_of_ink hformat hp hc ⟨fun _ => c'⟩
    rw [hdraw] at hdraw₁
    cases hdraw₁
    exact hne (hpixel.symm.trans hpixel₁)
  · intro hink back
    obtain ⟨back', hdraw, hpixel⟩ := layer.drawTo_outline hformat hp back
    rw [hink] at hpixel
    exact ⟨back', hdraw, hpixel⟩

end draw
namespace LayerManager

variable {lm lm' : LayerManager config} {ptr : LayerPtr} {mouse i : Nat} {p : Vector2D} {c : PixelColor}

theorem Plain.hits_iff (h : lm.Plain mouse) (hmem : ptr ∈ lm.layerStack) :
    lm.Hits (Layer.hit p mouse) ptr ↔ ∃ layer c, lm.deref ptr = some layer ∧ layer.ink p = some c := by
  obtain ⟨layer, hderef, hsolid, hid, -⟩ := h ptr hmem
  constructor
  · rintro ⟨layer', hderef', hhit⟩
    cases hderef.symm.trans hderef'
    obtain ⟨c, hc⟩ := Option.isSome_iff_exists.mp ((hit_iff_ink hid hsolid).mp hhit)
    exact ⟨layer, c, hderef, hc⟩
  · rintro ⟨layer', c, hderef', hc⟩
    cases hderef.symm.trans hderef'
    exact ⟨layer, hderef, (hit_iff_ink hid hsolid).mpr (hc ▸ rfl)⟩

/-- A layer that is not hit is one that drawing spares. -/
theorem Plain.misses_iff (h : lm.Plain mouse) (hp : config.outline.Contains p)
    (hmem : ptr ∈ lm.layerStack) :
    lm.Misses (Layer.hit p mouse) ptr ↔
      ∃ layer, lm.deref ptr = some layer ∧ layer.Spares config config.outline p := by
  obtain ⟨layer, hderef, hsolid, hid, hformat⟩ := h ptr hmem
  have hspares : layer.Spares config config.outline p ↔ layer.hit p mouse = false := by
    rw [Layer.spares_iff hformat hp, ← Option.not_isSome_iff_eq_none, ← hit_iff_ink hid hsolid,
      Bool.not_eq_true]
  constructor
  · rintro ⟨layer', hderef', hmiss⟩
    cases hderef.symm.trans hderef'
    exact ⟨layer, hderef, hspares.mpr hmiss⟩
  · rintro ⟨layer', hderef', hspared⟩
    cases hderef.symm.trans hderef'
    exact ⟨layer, hderef, hspares.mp hspared⟩

theorem Plain.sameFormatOn (h : lm.Plain mouse) : lm.SameFormatOn lm.layerStack := by
  intro ptr hmem layer window hderef hwindow
  obtain ⟨layer', hderef', -, -, hformat⟩ := h ptr hmem
  cases hderef.symm.trans hderef'
  exact hformat window hwindow

/-- **The search finds the last writer.** -/
theorem Plain.lastWriter_iff (h : lm.Plain mouse) (hp : config.outline.Contains p) :
    (∃ c, lm.LastWriter config.outline p (some i) c) ↔
      lm.findFrom (Layer.hit p mouse) lm.layerStack.reverse = some (some i) := by
  have hderef : ∀ q ∈ lm.layerStack.reverse, ∃ layer, lm.deref q = some layer := fun q hq =>
    (h q (List.mem_reverse.mp hq)).imp fun _ h => h.1
  rw [findFrom_eq_some_iff hderef]
  constructor
  · rintro ⟨c, below, above, layer, hstack, hlayer, hink, -, hspared⟩
    refine ⟨above.reverse, below.reverse, by simp [hstack], ?_, fun q hq => ?_⟩
    · have hmem : some i ∈ lm.layerStack := hstack ▸ List.mem_append_right _ List.mem_cons_self
      exact (h.hits_iff hmem).mpr ⟨layer, c, hlayer, hink⟩
    · have hq : q ∈ above := List.mem_reverse.mp hq
      have hmem : q ∈ lm.layerStack :=
        hstack ▸ List.mem_append_right _ (List.mem_cons_of_mem _ hq)
      exact (h.misses_iff hp hmem).mpr (hspared q hq)
  · rintro ⟨pre, post, hsplit, hhit, hmiss⟩
    have hstack : lm.layerStack = post.reverse ++ some i :: pre.reverse := by
      rw [← List.reverse_reverse lm.layerStack, hsplit]
      simp
    have hmem : some i ∈ lm.layerStack := hstack ▸ List.mem_append_right _ List.mem_cons_self
    obtain ⟨layer, c, hlayer, hink⟩ := (h.hits_iff hmem).mp hhit
    obtain ⟨layer', hlayer', -, -, hformat⟩ := h _ hmem
    cases hlayer.symm.trans hlayer'
    refine ⟨c, post.reverse, pre.reverse, layer, hstack, hlayer, hink,
      Layer.overwrites_of_ink hformat hp hink, fun q hq => ?_⟩
    have hmem : q ∈ lm.layerStack := hstack ▸ List.mem_append_right _ (List.mem_cons_of_mem _ hq)
    exact (h.misses_iff hp hmem).mp (hmiss q (List.mem_reverse.mp hq))

/-- **The last writer's pixel is what `Draw` leaves.** -/
theorem Plain.screen_of_lastWriter (h : lm.Plain mouse) (hp : config.outline.Contains p)
    (hlast : lm.LastWriter config.outline p ptr c) (hdraw : lm.draw config.outline = some lm') :
    lm'.screen.pixel p = c := by
  obtain ⟨below, above, layer, hstack, hlayer, hink, -, hspared⟩ := hlast
  obtain ⟨back, hlayers, hpixel⟩ := drawLayers_spec config.proper_outline lm.layerStack h.sameFormatOn
    (fun q hq => (h q hq).imp fun _ h => h.1) lm.backBuffer
  obtain ⟨lm₁, hcopy, -, hscreen⟩ := lm.copyToScreen_spec back config.proper_outline
  have hsame : lm' = lm₁ := by
    unfold draw at hdraw
    rw [hlayers, Option.bind_some, hcopy] at hdraw
    exact (Option.some.inj hdraw).symm
  have habove : ∀ t ∈ above.map lm.sheet, t.ink p = none := by
    intro t ht
    obtain ⟨q, hq, rfl⟩ := List.mem_map.mp ht
    obtain ⟨layer', hlayer', hspares⟩ := hspared q hq
    have hmem : q ∈ lm.layerStack := hstack ▸ List.mem_append_right _ (List.mem_cons_of_mem _ hq)
    obtain ⟨layer₁, hlayer₁, -, -, hformat'⟩ := h q hmem
    cases hlayer'.symm.trans hlayer₁
    rw [sheet_of_deref hlayer']
    exact (Layer.spares_iff hformat' hp).mp hspares
  have hsheet : (lm.sheet ptr).ink p = some c := by
    rw [sheet_of_deref hlayer]
    exact hink
  rw [hsame, hscreen p hp, if_pos hp, hpixel p hp, repaint_of_mem hp, hstack, List.map_append,
    List.map_cons, topmost_append_cons hsheet habove]
  rfl

end LayerManager

/-! ## Agreement -/

namespace LayerSystem

variable {s : LayerSystem config}

/-- A stack of opaque windows without the mouse. -/
theorem plain_hide (h : StackInv font s.manager) {mouse : Nat}
    (hformat : s.manager.SameFormatOn (s.manager.hide mouse).layerStack)
    (hsolid : ∀ ptr ∈ (s.manager.hide mouse).layerStack, ∀ layer,
      s.manager.deref ptr = some layer → layer.Solid) : (s.manager.hide mouse).Plain mouse := by
  intro ptr hmem
  obtain ⟨layer, hderef, -, -, -⟩ := h.deref (List.mem_of_mem_erase hmem)
  exact ⟨layer, hderef, hsolid ptr hmem layer hderef, h.ne_of_mem_hide hmem hderef,
    fun window => hformat ptr hmem layer window hderef⟩

/-- **Hit testing agrees with drawing.** In every reachable state whose displayed windows, the mouse's
excepted, are opaque and have the screen's pixel format, and at every position of the screen: the layer
that is found is the one that decides about the pixel when the whole screen is drawn without the mouse
layer, and that drawing leaves the layer's pixel there; no layer is found iff no displayed window but
the mouse's covers the position. -/
theorem hit_test_agrees {screen : FrameBuffer config} (hr : s.Reachable font screen)
    {mouse : Nat} (hformat : s.manager.SameFormatOn (s.manager.hide mouse).layerStack)
    (hsolid : ∀ ptr ∈ (s.manager.hide mouse).layerStack, ∀ layer,
      s.manager.deref ptr = some layer → layer.Solid) {p : Vector2D}
    (hp : config.outline.Contains p) :
    ∃ found lm', s.manager.findLayerByPosition p mouse = some found ∧
      (s.manager.hide mouse).draw config.outline = some lm' ∧
      (∀ i, found = some i ↔
        (s.manager.hide mouse).LastWriter config.outline p (some i) (lm'.screen.pixel p)) ∧
      (found = none ↔ ∀ ptr ∈ (s.manager.hide mouse).layerStack, ∀ layer window,
        s.manager.deref ptr = some layer → layer.window = some window →
          ¬(⟨layer.pos, window.size⟩ : Rectangle).Contains p) := by
  have h : StackInv font s.manager := Reachable.inOrder hr
  have hplain := plain_hide h hformat hsolid
  have hderef : ∀ q ∈ (s.manager.hide mouse).layerStack.reverse, ∃ layer,
      (s.manager.hide mouse).deref q = some layer := fun q hq =>
    (hplain q (List.mem_reverse.mp hq)).imp fun _ h => h.1
  rw [findLayerByPosition_hide h]
  obtain ⟨found, hfound⟩ := findFrom_isSome hderef (Layer.hit p mouse)
  obtain ⟨back, hlayers, -⟩ := drawLayers_spec config.proper_outline
    (s.manager.hide mouse).layerStack hplain.sameFormatOn (fun q hq => (hplain q hq).imp fun _ h => h.1)
    s.manager.backBuffer
  obtain ⟨lm', hcopy, -⟩ := (s.manager.hide mouse).copyToScreen_spec back config.proper_outline
  have hdraw : (s.manager.hide mouse).draw config.outline = some lm' :=
    Option.bind_eq_some_iff.mpr ⟨back, hlayers, hcopy⟩
  refine ⟨found, lm', hfound, hdraw, fun i => ?_, ?_⟩
  · have hlast := hplain.lastWriter_iff (i := i) hp
    constructor
    · rintro rfl
      obtain ⟨c, hc⟩ := hlast.mpr hfound
      rw [hplain.screen_of_lastWriter hp hc hdraw]
      exact hc
    · intro hc
      exact Option.some_inj.mp (hfound.symm.trans (hlast.mp ⟨_, hc⟩))
  · have hnone : found = none ↔ ∀ q ∈ (s.manager.hide mouse).layerStack.reverse,
        s.manager.Misses (Layer.hit p mouse) q := by
      rw [← Option.some_inj, ← hfound]
      exact findFrom_eq_none_iff hderef
    rw [hnone]
    constructor
    · intro hmiss ptr hmem layer window hlayer hwindow hcovers
      obtain ⟨layer', hlayer', hpred⟩ := hmiss ptr (List.mem_reverse.mpr hmem)
      cases hlayer.symm.trans hlayer'
      rw [(hit_iff (h.ne_of_mem_hide hmem hlayer) hwindow).mpr hcovers] at hpred
      cases hpred
    · intro hall q hq
      have hmem := List.mem_reverse.mp hq
      obtain ⟨layer, hlayer, hsolid', hid, -⟩ := hplain q hmem
      refine ⟨layer, hlayer, Bool.eq_false_iff.mpr fun hhit => ?_⟩
      cases hwindow : layer.window with
      | none =>
          unfold Layer.hit at hhit
          rw [if_neg hid, hwindow] at hhit
          cases hhit
      | some window => exact hall q hmem layer window hlayer hwindow ((hit_iff hid hwindow).mp hhit)

/-- On the desktop the window is found at the left, and the background beside it. -/
theorem hit_test_agrees_desktop :
    ∃ lm', (desktop.manager.hide 3).draw tinyConfig.outline = some lm' ∧
      (desktop.manager.hide 3).LastWriter tinyConfig.outline ⟨0, 0⟩ (some 1)
        (lm'.screen.pixel ⟨0, 0⟩) ∧
      (desktop.manager.hide 3).LastWriter tinyConfig.outline ⟨1, 0⟩ (some 0)
        (lm'.screen.pixel ⟨1, 0⟩) := by
  have hsolid : ∀ ptr ∈ (desktop.manager.hide 3).layerStack, ∀ layer,
      desktop.manager.deref ptr = some layer → layer.Solid := by
    have hall : ∀ ptr ∈ (desktop.manager.hide 3).layerStack, ∀ layer ∈ desktop.manager.deref ptr,
        ∀ window ∈ layer.window, window.transparentColor = none := by decide
    exact fun ptr hmem layer hlayer window hwindow => hall ptr hmem layer hlayer window hwindow
  have hleft : desktop.manager.findLayerByPosition ⟨0, 0⟩ 3 = some (some 1) := by decide
  have hright : desktop.manager.findLayerByPosition ⟨1, 0⟩ 3 = some (some 0) := by decide
  obtain ⟨found, lm', hfound, hdraw, hlast, -⟩ := hit_test_agrees desktop_reachable
    (desktop_desktop.composed.format.on _) hsolid (p := ⟨0, 0⟩) (by decide)
  obtain ⟨found', lm'', hfound', hdraw', hlast', -⟩ := hit_test_agrees desktop_reachable
    (desktop_desktop.composed.format.on _) hsolid (p := ⟨1, 0⟩) (by decide)
  cases hdraw.symm.trans hdraw'
  cases hleft.symm.trans hfound
  cases hright.symm.trans hfound'
  exact ⟨lm', hdraw, (hlast 1).mp rfl, (hlast' 0).mp rfl⟩

/-! ### A window of another format -/

/-- Drawing an opaque window of another pixel format does nothing: `Copy` returns
`kUnknownPixelFormat`, and `DrawTo` drops the error. So the window decides about no pixel. -/
theorem not_overwrites_of_format {layer : Layer} {window : Window} {area : Rectangle} {p : Vector2D}
    {c : PixelColor} (hwindow : layer.window = some window) (hsolid : window.transparentColor = none)
    (hformat : config.pixelFormat ≠ window.shadowFormat) :
    ¬layer.Overwrites config area p c := by
  intro hover
  obtain ⟨c', hne⟩ := c.exists_ne
  obtain ⟨back', hdraw, hpixel⟩ := hover ⟨fun _ => c'⟩
  have hcopy : layer.drawTo (⟨fun _ => c'⟩ : FrameBuffer (backConfig config)) area =
      some ⟨fun _ => c'⟩ := by
    have hother : (backConfig config).pixelFormat ≠
        (ownMemory window.width window.height window.shadowFormat).pixelFormat := hformat
    unfold Layer.drawTo Window.drawTo FrameBuffer.copy
    simp only [hwindow, hsolid]
    rw [if_pos hother]
    rfl
  rw [hcopy] at hdraw
  cases hdraw
  exact hne hpixel

/-- A background, above it a white window of the other pixel format, and the mouse. -/
def openOtherFormat : List LayerOp :=
  [.newLayer, .setWindow 1 (.new 2 1 .kPixelRGBResv8BitPerColor), .upDown 1 0,
    .newLayer, .setWindow 2 (.new 1 1 .kPixelBGRResv8BitPerColor),
    .write 2 [(⟨0, 0⟩, ⟨255, 255, 255⟩)], .upDown 2 1,
    .newLayer, .setWindow 3 ((Window.new 1 1 .kPixelRGBResv8BitPerColor).setTransparentColor
      (some ⟨0, 0, 1⟩)), .upDown 3 0x7fffffff, .setMouseLayer 3]

/-- The screen with these windows. -/
def otherFormat? : Option (LayerSystem tinyConfig) :=
  Transition.runPermitted (LayerSystem.step noFont) (fun s op => op.Permitted noFont s)
    { manager := { screen := .zeros _ } } openOtherFormat

theorem otherFormat?_isSome : otherFormat?.isSome = true := by decide

/-- The screen with these windows. -/
def otherFormat : LayerSystem tinyConfig := otherFormat?.get otherFormat?_isSome

theorem otherFormat_reachable : otherFormat.Reachable noFont (.zeros _) :=
  Transition.Reachable.of_runPermitted .init (Option.some_get otherFormat?_isSome).symm

/-- **A window that is found but not drawn**: the white window of the other format is found at the left
pixel, and drawing the screen leaves the background there. -/
theorem hit_test_disagrees :
    ¬∀ (config : FrameBufferConfig) (font : Font) (screen : FrameBuffer config)
      (s : LayerSystem config) (mouse : Nat) (p : Vector2D), s.Reachable font screen →
        (∀ ptr ∈ (s.manager.hide mouse).layerStack, ∀ layer,
          s.manager.deref ptr = some layer → layer.Solid) → config.outline.Contains p →
        ∃ found lm', s.manager.findLayerByPosition p mouse = some found ∧
          (s.manager.hide mouse).draw config.outline = some lm' ∧
          (∀ i, found = some i ↔
            (s.manager.hide mouse).LastWriter config.outline p (some i) (lm'.screen.pixel p)) ∧
          (found = none ↔ ∀ ptr ∈ (s.manager.hide mouse).layerStack, ∀ layer window,
            s.manager.deref ptr = some layer → layer.window = some window →
              ¬(⟨layer.pos, window.size⟩ : Rectangle).Contains p) := by
  intro hall
  have hopaque : ∀ ptr ∈ (otherFormat.manager.hide 3).layerStack,
      ∀ layer ∈ otherFormat.manager.deref ptr, ∀ window ∈ layer.window,
        window.transparentColor = none := by decide
  have hformat : ∀ layer ∈ otherFormat.manager.deref (some 1), ∀ window ∈ layer.window,
      tinyConfig.pixelFormat ≠ window.shadowFormat := by decide
  have hopaque₁ : ∀ layer ∈ otherFormat.manager.deref (some 1), ∀ window ∈ layer.window,
      window.transparentColor = none := by decide
  have hink : ∀ layer ∈ otherFormat.manager.deref (some 1), layer.window ≠ none := by decide
  obtain ⟨found, lm', hfound, -, hlast, -⟩ := hall tinyConfig noFont (.zeros _) otherFormat 3 ⟨0, 0⟩
    otherFormat_reachable (fun ptr hmem layer hlayer window hwindow =>
      hopaque ptr hmem layer hlayer window hwindow) (by decide)
  have hleft : otherFormat.manager.findLayerByPosition ⟨0, 0⟩ 3 = some (some 1) := by decide
  obtain rfl := Option.some_inj.mp (hfound.symm.trans hleft)
  obtain ⟨-, -, layer, -, hderef, -, hover, -⟩ := (hlast 1).mp rfl
  obtain ⟨window, hwindow⟩ := Option.ne_none_iff_exists'.mp (hink layer hderef)
  exact not_overwrites_of_format hwindow (hopaque₁ layer hderef window hwindow)
    (hformat layer hderef window hwindow) hover

end LayerSystem

end UhyokOS
