import UhyokOS.Layer.Compositor

/-!
# Incremental redrawing

The operations by which windows are moved, activated and written to redraw a part of the screen
only. `Ready` says which pixels of the screen and the back buffer may be stale.

* `Ready.assign`, `Ready.raise`: what a change of a layer, or of the stack, makes stale.
* `Ready.draw`, `Ready.drawLayerArea`: what a redraw brings up to date.
* `Ready.moveWith`, `Ready.redrawWindow`, `Ready.redrawArea`: a change and its redraw leave nothing
  stale.
-/

namespace UhyokOS

open Painter LayerManager Transition Restack FrameBufferConfig

variable {config : FrameBufferConfig} {font : Font}

namespace LayerManager

variable {lm lm' lm₁ lm₂ : LayerManager config} {id : Nat} {ptr q : LayerPtr}
  {layer layer' : Layer} {window window' : Window} {stale : Vector2D → Prop} {area junk : Rectangle}

/-- A layer with a window. -/
def HasWindow (lm : LayerManager config) (id : Nat) : Prop :=
  ∃ layer window, lm.deref (lm.findLayer id) = some layer ∧ layer.window = some window

/-- A manager that can redraw, with some pixels stale. -/
structure Ready (font : Font) (lm : LayerManager config) (stale : Vector2D → Prop) : Prop where
  stackInv : StackInv font lm
  composed : lm.Composed
  upToDate : lm.UpToDate stale

/-- The same stack, and no layer has lost its window. -/
structure Kept (lm lm' : LayerManager config) : Prop extends SameStack lm lm' where
  windows : ∀ id, lm.HasWindow id → lm'.HasWindow id

/-- Two changes of which neither touches the stack nor takes a window away. -/
theorem Kept.trans (h : Kept lm lm₁) (h' : Kept lm₁ lm₂) : Kept lm lm₂ :=
  ⟨h.toSameStack.trans h'.toSameStack, fun id hid => h'.windows id (h.windows id hid)⟩

/-- A redraw changes no layer, so every pointer leads to the layer it led to. -/
theorem SameLayers.deref (h : SameLayers lm lm') (ptr : LayerPtr) :
    lm'.deref ptr = lm.deref ptr := by
  unfold LayerManager.deref
  rw [h.layers]

/-- A redraw keeps the stack and the windows. -/
theorem SameLayers.kept (h : SameLayers lm lm') : Kept lm lm' where
  toSameStack := h.sameStack
  windows := by
    rintro id ⟨layer, window, hderef, hwindow⟩
    refine ⟨layer, window, ?_, hwindow⟩
    rw [h.deref, h.sameStack.findLayer]
    exact hderef

/-- More pixels may be called stale than are. Only those on the screen count. -/
theorem Ready.mono {stale' : Vector2D → Prop} (h : Ready font lm stale)
    (hsub : ∀ p, config.outline.Contains p → stale p → stale' p) : Ready font lm stale' :=
  ⟨h.stackInv, h.composed, h.upToDate.mono hsub⟩

/-- The same layers on another stack, with the same layer at the bottom. -/
theorem Composed.of_layers (hc : lm.Composed) (hlayers : lm'.layers = lm.layers)
    (hhead : lm'.layerStack.head? = lm.layerStack.head?)
    (hsub : ∀ q ∈ lm'.layerStack.dropLast, q ∈ lm.layerStack.dropLast) : lm'.Composed := by
  have hderef : ∀ q, lm'.deref q = lm.deref q := by
    intro q
    unfold LayerManager.deref
    rw [hlayers]
  refine ⟨?_, fun q hq layer hlayer => ?_, ?_⟩
  · unfold SameFormat
    rw [hlayers]
    exact hc.format
  · exact hc.solid q (hsub q hq) layer (by rw [← hderef]; exact hlayer)
  · rw [hhead]
    simp only [hderef]
    exact hc.bottom

/-- A redraw changes nothing of what it is composed from. -/
theorem Composed.of_sameLayers (hc : lm.Composed) (h : SameLayers lm lm') : lm'.Composed :=
  hc.of_layers h.layers (by rw [h.layerStack]) fun _ hq => by rwa [h.layerStack] at hq

/-! ## Draws -/

/-- A redraw of an area brings the pixels of the area up to date, and leaves the others as stale as
they were. -/
theorem Ready.draw (h : Ready font lm stale) (harea : area.Proper) :
    ∃ lm', lm.draw area = some lm' ∧ SameLayers lm lm' ∧
      Ready font lm' fun p => stale p ∧ ¬area.Contains p := by
  obtain ⟨lm', hdraw, hsame, hfresh⟩ := draw_spec h.stackInv h.composed harea h.upToDate
  exact ⟨lm', hdraw, hsame, h.stackInv.of_sameLayers hsame, h.composed.of_sameLayers hsame, hfresh⟩

/-- A redraw of a part of a layer brings up to date the pixels of the part that the layer shows.
Where it is transparent, the pixel keeps what was there, which is what lies behind. -/
theorem Ready.drawLayerArea (h : Ready font lm stale) (hdisplayed : lm.Displayed id)
    (hderef : lm.deref (lm.findLayer id) = some layer) (hwindow : layer.window = some window)
    (harea : (redrawnArea layer window area).Proper) (junk : Rectangle) :
    ∃ lm', lm.drawLayerArea id area junk = some lm' ∧ SameLayers lm lm' ∧ Ready font lm' fun p =>
      stale p ∧ ¬((redrawnArea layer window area).Contains p ∧ (layer.ink p).isSome) := by
  obtain ⟨lm', hdraw, hsame, hfresh⟩ := drawLayerArea_spec h.stackInv h.composed hdisplayed
    hderef hwindow harea h.upToDate
  exact ⟨lm', hdraw, hsame, h.stackInv.of_sameLayers hsame, h.composed.of_sameLayers hsame, hfresh⟩

/-- A layer shows something only in its window. -/
theorem contains_of_ink (hwindow : layer.window = some window) {p : Vector2D}
    (h : (layer.ink p).isSome = true) : (⟨layer.pos, window.size⟩ : Rectangle).Contains p := by
  unfold Layer.ink Window.ink at h
  rw [hwindow, Option.bind_some] at h
  split_ifs at h with hin
  · exact Rectangle.contains_sub.mp hin
  · cases h

/-- A redraw of a whole layer. -/
theorem Ready.drawLayer (h : Ready font lm stale) (hdisplayed : lm.Displayed id)
    (hderef : lm.deref (lm.findLayer id) = some layer) (hwindow : layer.window = some window)
    (junk : Rectangle) :
    ∃ lm', lm.drawLayer id junk = some lm' ∧ SameLayers lm lm' ∧
      Ready font lm' fun p => stale p ∧ ¬(layer.ink p).isSome := by
  have harea : redrawnArea layer window ⟨⟨0, 0⟩, ⟨-1, -1⟩⟩ = ⟨layer.pos, window.size⟩ :=
    if_neg (by decide)
  have hproper : (redrawnArea layer window ⟨⟨0, 0⟩, ⟨-1, -1⟩⟩).Proper := by
    rw [harea]
    exact ⟨Int.natCast_nonneg _, Int.natCast_nonneg _⟩
  obtain ⟨lm', hdraw, hsame, hready⟩ := h.drawLayerArea hdisplayed hderef hwindow hproper junk
  rw [harea] at hready
  refine ⟨lm', hdraw, hsame, hready.mono fun p _ hstale => ⟨hstale.1, fun hink => ?_⟩⟩
  exact hstale.2 ⟨contains_of_ink hwindow hink, hink⟩

/-! ## Changes of a layer -/

/-- A change of one layer is seen through its own pointer only: no two pointers lead to the same
layer. -/
theorem deref_assign (hderef : lm.deref ptr = some layer) (layer' : Layer) (q : LayerPtr) :
    (lm.assign ptr layer').deref q = if q = ptr then some layer' else lm.deref q := by
  obtain ⟨i, rfl, hget⟩ := Option.bind_eq_some_iff.mp hderef
  have hlt : i < lm.layers.length := (List.getElem?_eq_some_iff.mp hget).1
  cases q with
  | none => rfl
  | some j =>
      show (lm.layers.set i layer')[j]? = _
      rw [List.getElem?_set]
      by_cases hij : i = j
      · rw [if_pos hij, if_pos hlt, if_pos (congrArg some hij.symm)]
      · rw [if_neg hij, if_neg fun heq => hij (Option.some.inj heq).symm]
        rfl

/-- The changed layer is found where it was. -/
theorem deref_assign_self (hderef : lm.deref ptr = some layer) (layer' : Layer) :
    (lm.assign ptr layer').deref ptr = some layer' := by
  rw [deref_assign hderef, if_pos rfl]

/-- A change of a layer is none of the stack. -/
theorem assign_layerStack (lm : LayerManager config) (ptr : LayerPtr) (layer' : Layer) :
    (lm.assign ptr layer').layerStack = lm.layerStack := by
  cases ptr <;> rfl

/-- A change of a layer does not draw. -/
theorem assign_backBuffer (lm : LayerManager config) (ptr : LayerPtr) (layer' : Layer) :
    (lm.assign ptr layer').backBuffer = lm.backBuffer := by
  cases ptr <;> rfl

/-- A change of a layer does not draw on the screen either. -/
theorem assign_screen (lm : LayerManager config) (ptr : LayerPtr) (layer' : Layer) :
    (lm.assign ptr layer').screen = lm.screen := by
  cases ptr <;> rfl

/-- Where the layer shows the same, everything does. -/
theorem visible_assign (hderef : lm.deref ptr = some layer) {p : Vector2D}
    (hink : layer'.ink p = layer.ink p) : (lm.assign ptr layer').visible p = lm.visible p := by
  unfold LayerManager.visible
  rw [assign_layerStack]
  congr 1
  funext q
  rw [deref_assign hderef]
  by_cases hq : q = ptr
  · rw [if_pos hq, hq, hderef]
    exact hink
  · rw [if_neg hq]

/-- A layer other than the lowest may move, any window may be drawn in. -/
theorem Composed.assign (hc : lm.Composed) (hderef : lm.deref ptr = some layer)
    (hwindow : layer.window = some window) (hwindow' : layer'.window = some window')
    (hframe : window.SameFrame window')
    (hpos : layer'.pos = layer.pos ∨ lm.layerStack.head? ≠ some ptr) :
    (lm.assign ptr layer').Composed := by
  refine ⟨?_, ?_, ?_⟩
  · have hformat : ∀ w, layer'.window = some w → config.pixelFormat = w.shadowFormat := by
      intro w hw
      cases hwindow'.symm.trans hw
      rw [hframe.shadowFormat]
      exact hc.format layer (mem_of_deref hderef) window hwindow
    obtain ⟨i, rfl, -⟩ := Option.bind_eq_some_iff.mp hderef
    intro layer₁ hmem
    rcases List.mem_or_eq_of_mem_set hmem with hmem | rfl
    · exact hc.format layer₁ hmem
    · exact hformat
  · rw [assign_layerStack]
    intro q hq layer₁ hderef₁
    rw [deref_assign hderef] at hderef₁
    split_ifs at hderef₁ with hptr
    · cases hderef₁
      intro w hw
      cases hwindow'.symm.trans hw
      rw [hframe.transparentColor]
      exact hc.solid q hq layer (hptr ▸ hderef) window hwindow
    · exact hc.solid q hq layer₁ hderef₁
  · obtain ⟨bottom, layer₀, window₀, hhead, hderef₀, hwindow₀, hpos₀, hsize₀, hsolid₀⟩ := hc.bottom
    rw [assign_layerStack]
    by_cases hptr : bottom = ptr
    · subst hptr
      cases hderef.symm.trans hderef₀
      cases hwindow.symm.trans hwindow₀
      refine ⟨bottom, layer', window', hhead, deref_assign_self hderef layer', hwindow', ?_, ?_, ?_⟩
      · rw [hpos.resolve_right (not_not.mpr hhead), hpos₀]
      · rw [hframe.size, hsize₀]
      · rw [hframe.transparentColor, hsolid₀]
    · refine ⟨bottom, layer₀, window₀, hhead, ?_, hwindow₀, hpos₀, hsize₀, hsolid₀⟩
      rw [deref_assign hderef, if_neg hptr]
      exact hderef₀

/-- **A change of a layer** makes the pixels stale where the layer now shows something else. -/
theorem Ready.assign (h : Ready font lm stale) (hderef : lm.deref ptr = some layer)
    (hwindow : layer.window = some window) (hid : layer'.id = layer.id)
    (hwindow' : layer'.window = some window') (hframe : window.SameFrame window')
    (hpos : layer'.pos = layer.pos ∨ lm.layerStack.head? ≠ some ptr) :
    Kept lm (lm.assign ptr layer') ∧
      Ready font (lm.assign ptr layer') fun p => stale p ∨ layer'.ink p ≠ layer.ink p := by
  have hsame : SameStack lm (lm.assign ptr layer') := sameStack_assign hderef hid
  have htitled : (lm.assign ptr layer').Titled font := by
    refine titled_assign h.stackInv.titled fun w hw => ?_
    cases hwindow'.symm.trans hw
    exact hframe.titleFits (h.stackInv.titled layer (mem_of_deref hderef) window hwindow)
  refine ⟨⟨hsame, ?_⟩, h.stackInv.of_sameStack hsame htitled,
    h.composed.assign hderef hwindow hwindow' hframe hpos, ?_⟩
  · rintro id ⟨layer₁, window₁, hderef₁, hwindow₁⟩
    unfold HasWindow
    rw [hsame.findLayer, deref_assign hderef]
    split_ifs
    · exact ⟨layer', window', rfl, hwindow'⟩
    · exact ⟨layer₁, window₁, hderef₁, hwindow₁⟩
  · intro p hp hfresh
    rw [not_or, not_not] at hfresh
    rw [visible_assign hderef hfresh.2, assign_backBuffer, assign_screen]
    exact h.upToDate p hp hfresh.1

/-! ## Changes of the stack -/

/-- Where a layer shows nothing, it might as well not be on the stack. -/
theorem visible_eq_erase {p : Vector2D} (hink : (lm.sheet ptr).ink p = none) :
    lm.visible p = topmost p ((lm.layerStack.erase ptr).map lm.sheet) := by
  rw [lm.visible_eq_topmost]
  by_cases hmem : ptr ∈ lm.layerStack
  · obtain ⟨below, above, -, hstack, herase⟩ := List.exists_erase_eq hmem
    rw [hstack, ← hstack, herase, hstack, List.map_append, List.map_cons, List.map_append]
    exact topmost_append_cons_of_ink_eq_none hink
  · rw [List.erase_of_not_mem hmem]

/-- **`UpDown` of a displayed layer to directly under the top** makes the pixels stale where the
layer shows something. -/
theorem Ready.raise (h : Ready font lm stale) {init : List LayerPtr} {top : LayerPtr}
    (hid : lm.Exists id) (hstack : lm.layerStack = init ++ [top]) (hmem : lm.findLayer id ∈ init)
    (hbottom : lm.layerStack.head? ≠ some (lm.findLayer id))
    (hderef : lm.deref (lm.findLayer id) = some layer) :
    (lm.upDown id (init.length - 1)).layerStack =
        init.erase (lm.findLayer id) ++ [lm.findLayer id, top] ∧
      Ready font (lm.upDown id (init.length - 1)) fun p => stale p ∨ (layer.ink p).isSome := by
  have hpos := List.length_pos_of_mem hmem
  have hrestack : (lm.upDown id (init.length - 1)).layerStack =
      restack lm.layerStack (init.length - 1) (lm.findLayer id) := by
    rw [upDown_layerStack, if_neg (by omega)]
    congr 1
    omega
  have hstack' : (lm.upDown id (init.length - 1)).layerStack =
      init.erase (lm.findLayer id) ++ [lm.findLayer id, top] := by
    rw [hrestack, hstack, restack_under_top_of_mem hmem]
  have hbuffers : (lm.upDown id (init.length - 1)).backBuffer = lm.backBuffer ∧
      (lm.upDown id (init.length - 1)).screen = lm.screen := by
    unfold upDown hide
    simp only
    split_ifs <;> exact ⟨rfl, rfl⟩
  have hsheet : (lm.upDown id (init.length - 1)).sheet = lm.sheet := by
    funext q
    unfold LayerManager.sheet
    rw [upDown_deref]
  have hlayers := (upDown_layers lm id (init.length - 1)).1
  refine ⟨hstack', h.stackInv.upDown hid _, h.composed.of_layers hlayers ?_ ?_, ?_⟩
  · rw [hstack']
    rw [hstack] at hbottom ⊢
    cases init with
    | nil => exact absurd hmem List.not_mem_nil
    | cons bottom init =>
        have hne : bottom ≠ lm.findLayer id := fun heq => hbottom (congrArg some heq)
        rw [List.erase_cons_tail (by simpa using hne)]
        rfl
  · intro q hq
    rw [hstack', List.dropLast_append_cons] at hq
    rw [hstack, List.dropLast_concat]
    rcases List.mem_append.mp hq with hq | hq
    · exact List.mem_of_mem_erase hq
    · rw [List.mem_singleton.mp hq]
      exact hmem
  · intro p hp hfresh
    rw [not_or] at hfresh
    have hink : (lm.sheet (lm.findLayer id)).ink p = none := by
      rw [sheet_of_deref hderef]
      exact Option.not_isSome_iff_eq_none.mp hfresh.2
    have hvisible : (lm.upDown id (init.length - 1)).visible p = lm.visible p := by
      rw [visible_eq_erase hink, visible_eq_erase (by rw [hsheet]; exact hink), hsheet, hrestack,
        erase_restack h.stackInv.nodup]
    rw [hvisible, hbuffers.1, hbuffers.2]
    exact h.upToDate p hp hfresh.1

/-! ## The operations -/

/-- **`Move` and `MoveRelative`** of a displayed layer above the lowest. -/
theorem Ready.moveWith (h : Ready font lm fun _ => False) (hdisplayed : lm.Displayed id)
    (hbottom : lm.layerStack.head? ≠ some (lm.findLayer id)) (hwindow : lm.HasWindow id)
    (newPos : Vector2D → Vector2D) (junk : Rectangle) :
    ∃ lm', lm.moveWith id newPos junk = some lm' ∧ Kept lm lm' ∧
      Ready font lm' fun _ => False := by
  obtain ⟨layer, window, hderef, hlayer⟩ := hwindow
  obtain ⟨hkept, hready⟩ : Kept lm (lm.assign _ { layer with pos := newPos layer.pos }) ∧ _ :=
    h.assign hderef hlayer rfl hlayer (.refl window) (Or.inr hbottom)
  have hold : (⟨layer.pos, window.size⟩ : Rectangle).Proper :=
    ⟨Int.natCast_nonneg _, Int.natCast_nonneg _⟩
  obtain ⟨lm₁, hdraw, hsame₁, hready₁⟩ := hready.draw hold
  have hkept₁ := hkept.trans hsame₁.kept
  have hderef₁ : lm₁.deref (lm₁.findLayer id) =
      some { layer with pos := newPos layer.pos } := by
    rw [hkept₁.toSameStack.findLayer, hsame₁.deref, deref_assign_self hderef]
  have hdisplayed₁ : lm₁.Displayed id := by
    unfold Displayed
    rw [hkept₁.toSameStack.findLayer, hkept₁.layerStack]
    exact hdisplayed
  obtain ⟨lm₂, hdraw₂, hsame₂, hready₂⟩ := hready₁.drawLayer hdisplayed₁ hderef₁ hlayer junk
  refine ⟨lm₂, ?_, hkept₁.trans hsame₂.kept, hready₂.mono ?_⟩
  · apply Option.bind_eq_some_iff.mpr
    refine ⟨layer, hderef, Option.bind_eq_some_iff.mpr ⟨window, hlayer, ?_⟩⟩
    exact Option.bind_eq_some_iff.mpr ⟨lm₁, hdraw, hdraw₂⟩
  · -- a stale pixel is one the layer showed before, in its old window, or shows now
    rintro p - ⟨⟨hchanged | hchanged, hnotOld⟩, hnotNew⟩
    · exact hchanged
    · have hnew : Layer.ink { layer with pos := newPos layer.pos } p = none :=
        Option.not_isSome_iff_eq_none.mp hnotNew
      have hnone : layer.ink p = none := by
        apply Option.not_isSome_iff_eq_none.mp
        exact fun hink => hnotOld (contains_of_ink hlayer hink)
      exact hchanged (hnew.trans hnone.symm)

/-- Drawing in the window of a layer. -/
theorem Ready.updateWindow (h : Ready font lm stale) (hdisplayed : lm.Displayed id)
    (hderef : lm.deref (lm.findLayer id) = some layer) (hwindow : layer.window = some window)
    {f : Window → Option Window} (hf : f window = some window')
    (hframe : window.SameFrame window') :
    ∃ lm', lm.updateWindow id f = some lm' ∧ Kept lm lm' ∧ lm'.Displayed id ∧
      lm'.deref (lm'.findLayer id) = some { layer with window := some window' } ∧
        Ready font lm' fun p =>
          stale p ∨ Layer.ink { layer with window := some window' } p ≠ layer.ink p := by
  obtain ⟨hkept, hready⟩ : Kept lm (lm.assign _ { layer with window := some window' }) ∧ _ :=
    h.assign hderef hwindow rfl rfl hframe (Or.inl rfl)
  refine ⟨_, ?_, hkept, ?_, ?_, hready⟩
  · apply Option.bind_eq_some_iff.mpr
    refine ⟨layer, hderef, Option.bind_eq_some_iff.mpr ⟨window, hwindow, ?_⟩⟩
    rw [hf]
    rfl
  · unfold Displayed
    rw [hkept.toSameStack.findLayer, hkept.layerStack]
    exact hdisplayed
  · rw [hkept.toSameStack.findLayer, deref_assign_self hderef]

/-- An opaque layer shows nothing new outside of its window. -/
theorem ink_eq_of_sameFrame (hwindow : layer.window = some window)
    (hsolid : window.transparentColor = none) (hframe : window.SameFrame window') {p : Vector2D}
    (hink : ¬(Layer.ink { layer with window := some window' } p).isSome) :
    Layer.ink { layer with window := some window' } p = layer.ink p := by
  have hnone : layer.ink p = none := by
    apply Option.not_isSome_iff_eq_none.mp
    intro hsome
    have hin := (ink_isSome hwindow hsolid).mp hsome
    apply hink
    have hsolid' : window'.transparentColor = none := by rw [hframe.transparentColor, hsolid]
    have hwindow' : ({ layer with window := some window' } : Layer).window = some window' := rfl
    apply (ink_isSome hwindow' hsolid').mpr
    rw [hframe.size]
    exact hin
  rw [hnone]
  exact Option.not_isSome_iff_eq_none.mp hink

/-- Drawing in the window of an opaque layer and redrawing the layer. -/
theorem Ready.redrawWindow (h : Ready font lm fun _ => False) (hdisplayed : lm.Displayed id)
    (hderef : lm.deref (lm.findLayer id) = some layer) (hwindow : layer.window = some window)
    (hsolid : window.transparentColor = none) {f : Window → Option Window}
    (hf : f window = some window') (hframe : window.SameFrame window') (junk : Rectangle) :
    ∃ lm', ((lm.updateWindow id f).bind fun lm => lm.drawLayer id junk) = some lm' ∧ Kept lm lm' ∧
      Ready font lm' fun _ => False := by
  obtain ⟨lm₁, hu, hkept, hdisplayed₁, hderef₁, hready₁⟩ :=
    h.updateWindow hdisplayed hderef hwindow hf hframe
  obtain ⟨lm₂, hdraw, hsame, hready₂⟩ := hready₁.drawLayer hdisplayed₁ hderef₁ rfl junk
  refine ⟨lm₂, Option.bind_eq_some_iff.mpr ⟨lm₁, hu, hdraw⟩, hkept.trans hsame.kept,
    hready₂.mono ?_⟩
  rintro p - ⟨hchanged | hchanged, hink⟩
  · exact hchanged
  · exact hchanged (ink_eq_of_sameFrame hwindow hsolid hframe hink)

/-- **A change of an opaque window**, followed by a redraw of an area that covers it. -/
theorem Ready.redrawArea (h : Ready font lm fun _ => False) (hdisplayed : lm.Displayed id)
    (hderef : lm.deref (lm.findLayer id) = some layer) (hwindow : layer.window = some window)
    (hsolid : window.transparentColor = none) {f : Window → Option Window}
    (hf : f window = some window') (hframe : window.SameFrame window') (harea : area.Proper)
    (hcovers : window.ChangedWithin window' area) (junk : Rectangle) :
    ∃ lm', ((lm.updateWindow id f).bind fun lm => lm.drawLayerArea id area junk) = some lm' ∧
      Kept lm lm' ∧ Ready font lm' fun _ => False := by
  obtain ⟨lm₁, hu, hkept, hdisplayed₁, hderef₁, hready₁⟩ :=
    h.updateWindow hdisplayed hderef hwindow hf hframe
  have hproper : (⟨layer.pos, window'.size⟩ : Rectangle).Proper :=
    ⟨Int.natCast_nonneg _, Int.natCast_nonneg _⟩
  have hproper' : (⟨area.pos + layer.pos, area.size⟩ : Rectangle).Proper :=
    ⟨harea.width, harea.height⟩
  have hredrawn : redrawnArea { layer with window := some window' } window' area =
      (⟨layer.pos, window'.size⟩ : Rectangle).inter ⟨area.pos + layer.pos, area.size⟩ :=
    if_pos (Or.inl harea.width)
  obtain ⟨lm₂, hdraw, hsame, hready₂⟩ := hready₁.drawLayerArea hdisplayed₁ hderef₁ rfl
    (by rw [hredrawn]; exact Rectangle.proper_inter hproper hproper') junk
  refine ⟨lm₂, Option.bind_eq_some_iff.mpr ⟨lm₁, hu, hdraw⟩, hkept.trans hsame.kept,
    hready₂.mono ?_⟩
  rintro p - ⟨hchanged | hchanged, hnotDrawn⟩
  · exact hchanged
  · -- a pixel that changed is in the window and in the area
    have hink : (Layer.ink { layer with window := some window' } p).isSome := by
      by_contra hnone
      exact hchanged (ink_eq_of_sameFrame hwindow hsolid hframe hnone)
    have hsolid' : window'.transparentColor = none := by rw [hframe.transparentColor, hsolid]
    have hwindow' : ({ layer with window := some window' } : Layer).window = some window' := rfl
    have hwindowArea := (ink_isSome hwindow' hsolid').mp hink
    have hcovered : area.Contains (p - layer.pos) := by
      apply hcovers
      intro hsame
      apply hchanged
      unfold Layer.ink
      rw [hwindow]
      exact hsame
    apply hnotDrawn
    rw [hredrawn]
    refine ⟨(Rectangle.contains_inter hproper hproper').mpr ⟨hwindowArea, ?_⟩, hink⟩
    unfold Rectangle.Contains at hcovered ⊢
    simp only [Vector2D.sub_x, Vector2D.sub_y, Vector2D.add_x, Vector2D.add_y] at hcovered ⊢
    omega

/-- **Writes into an opaque window**, followed by a redraw of an area that covers them. -/
theorem Ready.write (h : Ready font lm fun _ => False) (hdisplayed : lm.Displayed id)
    (hderef : lm.deref (lm.findLayer id) = some layer) (hwindow : layer.window = some window)
    (hsolid : window.transparentColor = none) {calls : Writes}
    (hin : ∀ call ∈ calls, window.bounds.Contains call.1) (harea : area.Proper)
    (hcovers : ∀ call ∈ calls, area.Contains call.1) (junk : Rectangle) :
    ∃ lm', ((lm.updateWindow id fun window => window.writeAll calls).bind fun lm =>
      lm.drawLayerArea id area junk) = some lm' ∧ Kept lm lm' ∧ Ready font lm' fun _ => False := by
  obtain ⟨window', hwrite, hframe, hink⟩ := window.writeAll_spec calls hin
  refine h.redrawArea hdisplayed hderef hwindow hsolid hwrite hframe harea ?_ junk
  intro p hchanged
  have hwritten : p ∈ calls.map Prod.fst := by
    by_contra hnot
    exact hchanged (hink p hnot)
  obtain ⟨call, hmem, rfl⟩ := List.mem_map.mp hwritten
  exact hcovers call hmem

end LayerManager

end UhyokOS
