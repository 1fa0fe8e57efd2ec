import UhyokOS.Layer.Incremental

/-!
# Deferred redrawing

A task writes to its window at once and asks the main task to redraw the layer; the main task gets
to it later and moves, activates and redraws layers in between. `Pending` are the pixels that the
requests are about, where the layers are now: only these may be stale.

* `Refreshed.ready`: an operation that redraws a whole layer leaves the other pixels stale at most.
* `Deferred.redraw`: so does every operation that redraws what it has changed.
* `Deferred.request`: a request accounts for what has been written.
* `Deferred.carryOut`: carrying it out brings these pixels up to date.
-/

namespace UhyokOS

open LayerManager Transition Restack FrameBufferConfig

variable {config : FrameBufferConfig} {font : Font}

/-- A request to redraw an area of a layer. -/
structure RedrawRequest where
  id : Nat
  area : Rectangle

namespace LayerManager

variable {lm lm' : LayerManager config} {id : Nat} {ptr : LayerPtr} {layer layer' : Layer}
  {window window' : Window} {stale : Vector2D → Prop} {area : Rectangle} {p : Vector2D}
  {r : RedrawRequest} {rs : List RedrawRequest}

/-- The request is about the pixel, where its layer is now. -/
def Awaits (lm : LayerManager config) (r : RedrawRequest) (p : Vector2D) : Prop :=
  ∃ layer window, lm.deref (lm.findLayer r.id) = some layer ∧ layer.window = some window ∧
    (redrawnArea layer window r.area).Contains p

/-- A request is about the pixel. -/
def Pending (lm : LayerManager config) (rs : List RedrawRequest) (p : Vector2D) : Prop :=
  ∃ r ∈ rs, lm.Awaits r p

/-- A redraw stays in the window. -/
theorem contains_of_redrawnArea (harea : area.Proper)
    (hp : (redrawnArea layer window area).Contains p) :
    (⟨layer.pos, window.size⟩ : Rectangle).Contains p := by
  have hproper : (⟨layer.pos, window.size⟩ : Rectangle).Proper :=
    ⟨Int.natCast_nonneg _, Int.natCast_nonneg _⟩
  have hproper' : (⟨area.pos + layer.pos, area.size⟩ : Rectangle).Proper :=
    ⟨harea.width, harea.height⟩
  rw [redrawnArea_of_sized (Or.inl harea.width)] at hp
  exact ((Rectangle.contains_inter hproper hproper').mp hp).1

theorem redrawnArea_proper (harea : area.Proper) : (redrawnArea layer window area).Proper := by
  rw [redrawnArea_of_sized (Or.inl harea.width)]
  exact Rectangle.proper_inter ⟨Int.natCast_nonneg _, Int.natCast_nonneg _⟩
    ⟨harea.width, harea.height⟩

/-- Requests are about the same pixels as long as the layer does not move. -/
theorem Awaits.of_frames (h : lm.Awaits r p)
    (hfind : lm'.findLayer r.id = lm.findLayer r.id)
    (hframes : ∀ layer window, lm.deref (lm.findLayer r.id) = some layer →
      layer.window = some window → ∃ layer' window', lm'.deref (lm.findLayer r.id) = some layer' ∧
        layer'.window = some window' ∧ layer'.pos = layer.pos ∧ window'.size = window.size) :
    lm'.Awaits r p := by
  obtain ⟨layer, window, hderef, hwindow, hp⟩ := h
  obtain ⟨layer', window', hderef', hwindow', hpos, hsize⟩ := hframes layer window hderef hwindow
  refine ⟨layer', window', by rw [hfind, hderef'], hwindow', ?_⟩
  unfold redrawnArea at hp ⊢
  rwa [hpos, hsize]

theorem SameLayers.awaits (h : SameLayers lm lm') (hp : lm.Awaits r p) : lm'.Awaits r p := by
  refine hp.of_frames (h.sameStack.findLayer r.id) fun layer window hderef hwindow => ?_
  exact ⟨layer, window, by rw [h.deref, hderef], hwindow, rfl, rfl⟩

/-! ## Frames -/

/-- The layers are still there, still displayed if they were, the same ones on top and lowest, with
windows of the same size. -/
structure Framed (lm lm' : LayerManager config) : Prop where
  findLayer : ∀ id, lm'.findLayer id = lm.findLayer id
  latestId : lm'.latestId = lm.latestId
  top : lm'.layerStack.getLast? = lm.layerStack.getLast?
  lowest : lm'.layerStack.head? = lm.layerStack.head?
  displayed : ∀ q, q ∈ lm.layerStack → q ∈ lm'.layerStack
  windows : ∀ q layer window, lm.deref q = some layer → layer.window = some window →
    ∃ layer' window', lm'.deref q = some layer' ∧ layer'.window = some window' ∧
      window'.size = window.size

theorem Framed.trans {lm₁ lm₂ : LayerManager config} (h : Framed lm lm₁) (h' : Framed lm₁ lm₂) :
    Framed lm lm₂ where
  findLayer id := (h'.findLayer id).trans (h.findLayer id)
  latestId := h'.latestId.trans h.latestId
  top := h'.top.trans h.top
  lowest := h'.lowest.trans h.lowest
  displayed q hq := h'.displayed q (h.displayed q hq)
  windows q layer window hderef hwindow := by
    obtain ⟨layer₁, window₁, hderef₁, hwindow₁, hsize₁⟩ := h.windows q layer window hderef hwindow
    obtain ⟨layer₂, window₂, hderef₂, hwindow₂, hsize₂⟩ :=
      h'.windows q layer₁ window₁ hderef₁ hwindow₁
    exact ⟨layer₂, window₂, hderef₂, hwindow₂, hsize₂.trans hsize₁⟩

theorem SameLayers.framed (h : SameLayers lm lm') : Framed lm lm' where
  findLayer := h.sameStack.findLayer
  latestId := h.latestId
  top := by rw [h.layerStack]
  lowest := by rw [h.layerStack]
  displayed q hq := by
    rw [h.layerStack]
    exact hq
  windows q layer window hderef hwindow :=
    ⟨layer, window, by rw [h.deref, hderef], hwindow, rfl⟩

/-- One layer is changed. -/
theorem framed_assign (hderef : lm.deref ptr = some layer) (hwindow : layer.window = some window)
    (hid : layer'.id = layer.id) (hwindow' : layer'.window = some window')
    (hsize : window'.size = window.size) : Framed lm (lm.assign ptr layer') where
  findLayer := (sameStack_assign hderef hid).findLayer
  latestId := (sameStack_assign hderef hid).latestId
  top := by rw [assign_layerStack]
  lowest := by rw [assign_layerStack]
  displayed q hq := by
    rw [assign_layerStack]
    exact hq
  windows q layer₁ window₁ hderef₁ hwindow₁ := by
    rw [deref_assign hderef]
    split_ifs with hptr
    · rw [hptr] at hderef₁
      cases hderef.symm.trans hderef₁
      cases hwindow.symm.trans hwindow₁
      exact ⟨layer', window', rfl, hwindow', hsize⟩
    · exact ⟨layer₁, window₁, hderef₁, hwindow₁, rfl⟩

theorem Framed.displayed_id (h : Framed lm lm') (hid : lm.Displayed id) : lm'.Displayed id := by
  unfold Displayed
  rw [h.findLayer]
  exact h.displayed _ hid

theorem Framed.hasWindow (h : Framed lm lm') (hid : lm.HasWindow id) : lm'.HasWindow id := by
  obtain ⟨layer, window, hderef, hwindow⟩ := hid
  obtain ⟨layer', window', hderef', hwindow', -⟩ := h.windows _ layer window hderef hwindow
  exact ⟨layer', window', by rw [h.findLayer, hderef'], hwindow'⟩

/-! ## Operations that redraw a whole layer -/

/-- The layer behind `ptr` has been changed and redrawn as a whole. -/
structure Refreshed (font : Font) (ptr : LayerPtr) (stale : Vector2D → Prop)
    (lm lm' : LayerManager config) : Prop extends Framed lm lm' where
  others : ∀ q, q ≠ ptr → lm'.deref q = lm.deref q
  ready : Ready font lm' fun p => stale p ∧ ¬((lm.sheet ptr).ink p).isSome

/-- **Requests about other layers stay as they are, those about the layer have been dealt with.** -/
theorem Refreshed.pending (h : Refreshed font ptr (lm.Pending rs) lm lm')
    (hproper : ∀ r ∈ rs, r.area.Proper)
    (hsolid : ∀ r ∈ rs, ∀ layer window, lm.deref (lm.findLayer r.id) = some layer →
      layer.window = some window → window.transparentColor = none) :
    Ready font lm' (lm'.Pending rs) := by
  refine h.ready.mono fun p _ hstale => ?_
  obtain ⟨⟨r, hr, hawaits⟩, hnotInk⟩ := hstale
  refine ⟨r, hr, hawaits.of_frames (h.findLayer r.id) fun layer window hderef hwindow => ?_⟩
  by_cases hptr : lm.findLayer r.id = ptr
  · -- all of the layer has been redrawn
    obtain ⟨layer₁, window₁, hderef₁, hwindow₁, hp⟩ := hawaits
    cases hderef.symm.trans hderef₁
    cases hwindow.symm.trans hwindow₁
    have hin := contains_of_redrawnArea (hproper r hr) hp
    have hink := (ink_isSome hwindow (hsolid r hr layer window hderef hwindow)).mpr hin
    rw [hptr] at hderef
    rw [sheet_of_deref hderef] at hnotInk
    exact absurd hink hnotInk
  · exact ⟨layer, window, by rw [h.others _ hptr, hderef], hwindow, rfl, rfl⟩

/-- Drawing in a window is an assignment. -/
theorem updateWindow_eq (hderef : lm.deref (lm.findLayer id) = some layer)
    (hwindow : layer.window = some window) {f : Window → Option Window}
    (hf : f window = some window') :
    lm.updateWindow id f =
      some (lm.assign (lm.findLayer id) { layer with window := some window' }) := by
  unfold LayerManager.updateWindow
  rw [hderef, Option.bind_some, hwindow, Option.bind_some, hf]
  rfl

/-- What `Move` does with stale pixels about. -/
theorem Ready.move_refreshed (h : Ready font lm stale) (hdisplayed : lm.Displayed id)
    (hbottom : lm.layerStack.head? ≠ some (lm.findLayer id)) (hwindow : lm.HasWindow id)
    (newPos : Vector2D → Vector2D) (junk : Rectangle) :
    ∃ lm', lm.moveWith id newPos junk = some lm' ∧
      Refreshed font (lm.findLayer id) stale lm lm' := by
  obtain ⟨layer, window, hderef, hlayer⟩ := hwindow
  obtain ⟨-, hready⟩ : Kept lm (lm.assign _ { layer with pos := newPos layer.pos }) ∧ _ :=
    h.assign hderef hlayer rfl hlayer (.refl window) (Or.inr hbottom)
  have hframed : Framed lm (lm.assign _ { layer with pos := newPos layer.pos }) :=
    framed_assign hderef hlayer rfl hlayer rfl
  have hold : (⟨layer.pos, window.size⟩ : Rectangle).Proper :=
    ⟨Int.natCast_nonneg _, Int.natCast_nonneg _⟩
  obtain ⟨lm₁, hdraw₁, hsame₁, hready₁⟩ := hready.draw hold
  have hframed₁ := hframed.trans hsame₁.framed
  have hderef₁ : lm₁.deref (lm₁.findLayer id) = some { layer with pos := newPos layer.pos } := by
    rw [hframed₁.findLayer, hsame₁.deref, deref_assign_self hderef]
  obtain ⟨lm₂, hdraw₂, hsame₂, hready₂⟩ :=
    hready₁.drawLayer (hframed₁.displayed_id hdisplayed) hderef₁ hlayer junk
  refine ⟨lm₂, ?_, ⟨hframed₁.trans hsame₂.framed, fun q hq => ?_,
    hready₂.mono fun p _ hstale => ?_⟩⟩
  · apply Option.bind_eq_some_iff.mpr
    refine ⟨layer, hderef, Option.bind_eq_some_iff.mpr ⟨window, hlayer, ?_⟩⟩
    exact Option.bind_eq_some_iff.mpr ⟨lm₁, hdraw₁, hdraw₂⟩
  · rw [hsame₂.deref, hsame₁.deref, deref_assign hderef, if_neg hq]
  · -- what the layer showed before is in its old window, which has been drawn
    obtain ⟨⟨hchanged, hnotOld⟩, hnotNew⟩ := hstale
    have hnone : ¬(layer.ink p).isSome := fun hink => hnotOld (contains_of_ink hlayer hink)
    rw [sheet_of_deref hderef]
    refine ⟨hchanged.resolve_right fun hne => hne ?_, hnone⟩
    exact (Option.not_isSome_iff_eq_none.mp hnotNew).trans
      (Option.not_isSome_iff_eq_none.mp hnone).symm

/-- An opaque layer shows something where it did before its window was drawn in. -/
theorem ink_isSome_of_sameFrame (hwindow : layer.window = some window)
    (hsolid : window.transparentColor = none) (hframe : window.SameFrame window')
    (hink : (layer.ink p).isSome) :
    (Layer.ink { layer with window := some window' } p).isSome := by
  have hsolid' : window'.transparentColor = none := by rw [hframe.transparentColor, hsolid]
  have hwindow' : ({ layer with window := some window' } : Layer).window = some window' := rfl
  apply (ink_isSome hwindow' hsolid').mpr
  rw [hframe.size]
  exact (ink_isSome hwindow hsolid).mp hink

/-- What drawing in a window and redrawing all of it does with stale pixels about. -/
theorem Ready.window_refreshed (h : Ready font lm stale) (hdisplayed : lm.Displayed id)
    (hderef : lm.deref (lm.findLayer id) = some layer) (hwindow : layer.window = some window)
    (hsolid : window.transparentColor = none) {f : Window → Option Window}
    (hf : f window = some window') (hframe : window.SameFrame window') (junk : Rectangle) :
    ∃ lm₁ lm', lm.updateWindow id f = some lm₁ ∧ lm₁.drawLayer id junk = some lm' ∧
      Refreshed font (lm.findLayer id) stale lm lm' := by
  obtain ⟨lm₁, hu, -, hdisplayed₁, hderef₁, hready₁⟩ :=
    h.updateWindow hdisplayed hderef hwindow hf hframe
  obtain ⟨lm₂, hdraw, hsame, hready₂⟩ := hready₁.drawLayer hdisplayed₁ hderef₁ rfl junk
  refine ⟨lm₁, lm₂, hu, hdraw, ?_⟩
  cases (updateWindow_eq hderef hwindow hf).symm.trans hu
  have hframed : Framed lm (lm.assign _ { layer with window := some window' }) :=
    framed_assign hderef hwindow rfl rfl hframe.size
  refine ⟨hframed.trans hsame.framed, fun q hq => ?_, hready₂.mono fun p _ hstale => ?_⟩
  · rw [hsame.deref, deref_assign hderef, if_neg hq]
  · obtain ⟨hchanged, hnotInk⟩ := hstale
    rw [sheet_of_deref hderef]
    refine ⟨hchanged.resolve_right fun hne => hne ?_, fun hink => hnotInk ?_⟩
    · exact ink_eq_of_sameFrame hwindow hsolid hframe hnotInk
    · exact ink_isSome_of_sameFrame hwindow hsolid hframe hink

/-- A displayed layer is put directly under the top. -/
theorem framed_upDown {init : List LayerPtr} {top : LayerPtr} {newHeight : Int}
    (hstack : lm.layerStack = init ++ [top]) (hmem : lm.findLayer id ∈ init)
    (hlowest : ¬lm.Lowest id)
    (hstack' : (lm.upDown id newHeight).layerStack =
      init.erase (lm.findLayer id) ++ [lm.findLayer id, top]) :
    Framed lm (lm.upDown id newHeight) where
  findLayer := upDown_findLayer lm id newHeight
  latestId := (upDown_layers lm id newHeight).2
  top := by
    rw [hstack', hstack, List.getLast?_concat, List.getLast?_append]
    rfl
  lowest := by
    unfold Lowest at hlowest
    rw [hstack] at hlowest
    rw [hstack', hstack]
    cases init with
    | nil => exact absurd hmem List.not_mem_nil
    | cons bottom init =>
        have hne : bottom ≠ lm.findLayer id := fun heq => hlowest (congrArg some heq)
        rw [List.erase_cons_tail (by simpa using hne)]
        rfl
  displayed q hq := by
    rw [hstack] at hq
    rw [hstack']
    by_cases hptr : q = lm.findLayer id
    · rw [hptr]
      exact List.mem_append_right _ List.mem_cons_self
    · rcases List.mem_append.mp hq with hq | hq
      · exact List.mem_append_left _ ((List.mem_erase_of_ne hptr).mpr hq)
      · exact List.mem_append_right _ (List.mem_cons_of_mem _ hq)
  windows q layer window hderef hwindow :=
    ⟨layer, window, by rw [upDown_deref, hderef], hwindow, rfl⟩

/-- What raising a layer to directly under the mouse does with stale pixels about. -/
theorem Ready.raise_refreshed {mouse : Nat} (h : Ready font lm stale) (hmouse : lm.Exists mouse)
    (htop : lm.layerStack.getLast? = some (lm.findLayer mouse)) (hdisplayed : lm.Displayed id)
    (hlowest : ¬lm.Lowest id) (hne : id ≠ mouse) (hwindow : lm.HasWindow id) (junk : Rectangle) :
    ∃ lm', LayerSystem.raise font mouse lm id junk = some lm' ∧
      Refreshed font (lm.findLayer id) stale lm lm' := by
  obtain ⟨layer, window, hderef, hlayer⟩ := hwindow
  have hid := h.stackInv.exists_of_deref hderef
  have hsolid := LayerSystem.solid_of_displayed h.stackInv h.composed hmouse htop hdisplayed hne
    hderef hlayer
  obtain ⟨window', hactivate, hframe⟩ :=
    Window.activate_spec (h.stackInv.titled layer (mem_of_deref hderef) window hlayer)
  obtain ⟨lm₁, hu, hkept, -, hderef₁, hready₁⟩ :=
    h.updateWindow hdisplayed hderef hlayer hactivate hframe
  have hframed₁ : Framed lm lm₁ := by
    cases (updateWindow_eq hderef hlayer hactivate).symm.trans hu
    exact framed_assign hderef hlayer rfl rfl hframe.size
  have hfind₁ := hframed₁.findLayer
  obtain ⟨init, hstack⟩ := List.getLast?_eq_some_iff.mp htop
  have hstack₁ : lm₁.layerStack = init ++ [lm₁.findLayer mouse] := by
    rw [hkept.layerStack, hstack, hfind₁]
  have hheight := getHeight_top hready₁.stackInv (hkept.toSameStack.exists_iff.mpr hmouse) hstack₁
  have hmem : lm₁.findLayer id ∈ init := by
    rw [hfind₁]
    exact mem_of_displayed_of_ne h.stackInv hid hmouse hne hstack hdisplayed
  have hlowest₁ : lm₁.layerStack.head? ≠ some (lm₁.findLayer id) := by
    rw [hkept.layerStack, hfind₁]
    exact hlowest
  obtain ⟨hstack₂, hready₂⟩ := hready₁.raise (hkept.toSameStack.exists_iff.mpr hid) hstack₁ hmem
    hlowest₁ hderef₁
  have hframed₂ := hframed₁.trans (framed_upDown hstack₁ hmem hlowest₁ hstack₂)
  have hderef₂ : (lm₁.upDown id (init.length - 1)).deref
      ((lm₁.upDown id (init.length - 1)).findLayer id) =
        some { layer with window := some window' } := by
    rw [upDown_deref, upDown_findLayer, hderef₁]
  obtain ⟨lm₃, hdraw, hsame, hready₃⟩ :=
    hready₂.drawLayer (hframed₂.displayed_id hdisplayed) hderef₂ rfl junk
  refine ⟨lm₃, ?_, ⟨hframed₂.trans hsame.framed, fun q hq => ?_,
    hready₃.mono fun p _ hstale => ?_⟩⟩
  · have hpos : id > 0 := hid.1
    unfold LayerSystem.raise
    rw [if_pos hpos]
    apply Option.bind_eq_some_iff.mpr
    exact ⟨lm₁, hu, Option.bind_eq_some_iff.mpr ⟨init.length, hheight, hdraw⟩⟩
  · cases (updateWindow_eq hderef hlayer hactivate).symm.trans hu
    rw [hsame.deref, upDown_deref, deref_assign hderef, if_neg hq]
  · obtain ⟨(hchanged | hink), hnotDrawn⟩ := hstale
    · rw [sheet_of_deref hderef]
      refine ⟨hchanged.resolve_right fun hne => hne ?_, fun hink => hnotDrawn ?_⟩
      · exact ink_eq_of_sameFrame hlayer hsolid hframe hnotDrawn
      · exact ink_isSome_of_sameFrame hlayer hsolid hframe hink
    · exact absurd hink hnotDrawn

/-! ## Drawing in a part of a window -/

/-- What has been drawn in an opaque window is in the area. -/
theorem contains_of_changed (hwindow : layer.window = some window)
    (hsolid : window.transparentColor = none) (hframe : window.SameFrame window')
    (harea : area.Proper) (hcovers : window.ChangedWithin window' area)
    (hchanged : Layer.ink { layer with window := some window' } p ≠ layer.ink p) :
    (redrawnArea { layer with window := some window' } window' area).Contains p ∧
      (Layer.ink { layer with window := some window' } p).isSome := by
  have hink : (Layer.ink { layer with window := some window' } p).isSome := by
    by_contra hnone
    exact hchanged (ink_eq_of_sameFrame hwindow hsolid hframe hnone)
  have hsolid' : window'.transparentColor = none := by rw [hframe.transparentColor, hsolid]
  have hwindow' : ({ layer with window := some window' } : Layer).window = some window' := rfl
  have hin := (ink_isSome hwindow' hsolid').mp hink
  have hcovered : area.Contains (p - layer.pos) := by
    apply hcovers
    intro hsame
    apply hchanged
    unfold Layer.ink
    rw [hwindow]
    exact hsame
  refine ⟨?_, hink⟩
  have hproper : (⟨layer.pos, window'.size⟩ : Rectangle).Proper :=
    ⟨Int.natCast_nonneg _, Int.natCast_nonneg _⟩
  have hproper' : (⟨area.pos + layer.pos, area.size⟩ : Rectangle).Proper :=
    ⟨harea.width, harea.height⟩
  rw [redrawnArea_of_sized (Or.inl harea.width)]
  refine (Rectangle.contains_inter hproper hproper').mpr ⟨hin, ?_⟩
  unfold Rectangle.Contains at hcovered ⊢
  simp only [Vector2D.sub_x, Vector2D.sub_y, Vector2D.add_x, Vector2D.add_y] at hcovered ⊢
  omega

/-- What drawing in a window does to the requests, before anything is redrawn. -/
theorem Ready.window_pending (h : Ready font lm (lm.Pending rs)) (hdisplayed : lm.Displayed id)
    (hderef : lm.deref (lm.findLayer id) = some layer) (hwindow : layer.window = some window)
    {f : Window → Option Window} (hf : f window = some window')
    (hframe : window.SameFrame window') :
    ∃ lm', lm.updateWindow id f = some lm' ∧ Framed lm lm' ∧
      lm'.deref (lm'.findLayer id) = some { layer with window := some window' } ∧
        Ready font lm' fun p => lm'.Pending rs p ∨
          Layer.ink { layer with window := some window' } p ≠ layer.ink p := by
  obtain ⟨lm₁, hu, hkept, -, hderef₁, hready₁⟩ :=
    h.updateWindow hdisplayed hderef hwindow hf hframe
  cases (updateWindow_eq hderef hwindow hf).symm.trans hu
  refine ⟨_, hu, framed_assign hderef hwindow rfl rfl hframe.size, hderef₁,
    hready₁.mono fun p _ hstale => ?_⟩
  refine hstale.imp_left fun ⟨r, hr, hawaits⟩ => ⟨r, hr, ?_⟩
  refine hawaits.of_frames (hkept.toSameStack.findLayer r.id) ?_
  intro layer₁ window₁ hderef₁ hwindow₁
  rw [deref_assign hderef]
  split_ifs with hptr
  · rw [hptr] at hderef₁
    cases hderef.symm.trans hderef₁
    cases hwindow.symm.trans hwindow₁
    exact ⟨_, window', rfl, rfl, rfl, hframe.size⟩
  · exact ⟨layer₁, window₁, hderef₁, hwindow₁, rfl, rfl⟩

end LayerManager

/-! ## Requests on a desktop -/

namespace LayerSystem

/-- A task draws in this layer: it is displayed, it is not the mouse, and this is the size of its
window. -/
structure Client (s : LayerSystem config) (id : Nat) (size : Vector2D) : Prop where
  displayed : s.manager.Displayed id
  notMouse : id ≠ s.mouseLayer
  window : ∃ layer window, s.manager.deref (s.manager.findLayer id) = some layer ∧
    layer.window = some window ∧ window.size = size

/-- A desktop in order, with nothing stale on the screen but what the requests are about. -/
structure Deferred (font : Font) (rs : List RedrawRequest) (s : LayerSystem config) : Prop where
  desktop : s.Desktop
  clients : ∀ r ∈ rs, r.area.Proper ∧ ∃ size, s.Client r.id size
  ready : Ready font s.manager (s.manager.Pending rs)

variable {s s' : LayerSystem config} {lm : LayerManager config} {id : Nat} {r : RedrawRequest}
  {rs : List RedrawRequest} {layer : Layer} {window window' : Window} {area : Rectangle}
  {size : Vector2D}

/-- Without requests, nothing is stale. -/
theorem deferred_nil : Deferred font [] s ↔ Shown font s := by
  constructor
  · intro h
    exact ⟨h.desktop, h.ready.mono fun p _ ⟨r, hr, _⟩ => absurd hr List.not_mem_nil⟩
  · intro h
    exact ⟨h.desktop, fun r hr => absurd hr List.not_mem_nil, h.ready.mono fun p _ => False.elim⟩

theorem Client.framed (h : s.Client id size) (hframed : Framed s.manager s'.manager)
    (hmouse : s'.mouseLayer = s.mouseLayer) : s'.Client id size := by
  obtain ⟨layer, window, hderef, hwindow, hsize⟩ := h.window
  obtain ⟨layer', window', hderef', hwindow', hsize'⟩ :=
    hframed.windows _ layer window hderef hwindow
  refine ⟨hframed.displayed_id h.displayed, hmouse ▸ h.notMouse, layer', window', ?_, hwindow',
    hsize'.trans hsize⟩
  rw [hframed.findLayer, hderef']

theorem Desktop.framed (h : s.Desktop) (hframed : Framed s.manager lm) (hc : lm.Composed) :
    Desktop { s with manager := lm } := by
  refine ⟨hc, ⟨?_, ?_⟩, ?_⟩
  · exact ⟨h.mouseOnTop.created.1, hframed.latestId ▸ h.mouseOnTop.created.2⟩
  · show lm.layerStack.getLast? = some (lm.findLayer s.mouseLayer)
    rw [hframed.findLayer, hframed.top]
    exact h.mouseOnTop.top
  · refine h.active.imp_right fun ⟨hdisplayed, hne, hwindow⟩ => ?_
    exact ⟨hframed.displayed_id hdisplayed, hne, hframed.hasWindow hwindow⟩

theorem Deferred.framed (h : Deferred font rs s) (hframed : Framed s.manager lm)
    (hready : Ready font lm (lm.Pending rs)) : Deferred font rs { s with manager := lm } := by
  refine ⟨h.desktop.framed hframed hready.composed, fun r hr => ?_, hready⟩
  obtain ⟨hproper, size, hclient⟩ := h.clients r hr
  exact ⟨hproper, size, hclient.framed hframed rfl⟩

/-- A `Draw` of the whole screen brings it up to date. -/
theorem deferred_of_draw (hin : StackInv font s.manager) (hd : s.Desktop) :
    ∃ lm, s.manager.draw config.outline = some lm ∧ Framed s.manager lm ∧
      Deferred font [] { s with manager := lm } := by
  have hready : Ready font s.manager fun _ => True :=
    ⟨hin, hd.composed, fun p _ hfresh => absurd trivial hfresh⟩
  obtain ⟨lm, hdraw, hsame, hready'⟩ := hready.draw config.proper_outline
  refine ⟨lm, hdraw, hsame.framed, hd.framed hsame.framed hready'.composed,
    fun r hr => absurd hr List.not_mem_nil, hready'.mono fun p hp hstale => ?_⟩
  exact absurd hp hstale.2

/-- The window of a displayed layer other than the mouse is opaque. -/
theorem Deferred.solid (h : Deferred font rs s) (hdisplayed : s.manager.Displayed id)
    (hne : id ≠ s.mouseLayer) (hderef : s.manager.deref (s.manager.findLayer id) = some layer)
    (hwindow : layer.window = some window) : window.transparentColor = none :=
  solid_of_displayed h.ready.stackInv h.ready.composed h.desktop.mouseOnTop.created
    h.desktop.mouseOnTop.top hdisplayed hne hderef hwindow

/-- A whole layer has been redrawn. -/
theorem Deferred.refreshed (h : Deferred font rs s) {ptr : LayerPtr}
    (hrefreshed : Refreshed font ptr (s.manager.Pending rs) s.manager lm) :
    Deferred font rs { s with manager := lm } := by
  refine h.framed hrefreshed.toFramed (hrefreshed.pending (fun r hr => (h.clients r hr).1) ?_)
  intro r hr layer window hderef hwindow
  obtain ⟨-, size, hclient⟩ := h.clients r hr
  exact h.solid hclient.displayed hclient.notMouse hderef hwindow

/-- The layer that was active is redrawn as inactive. -/
theorem Deferred.deactivateActive (h : Deferred font rs s) (junk : Rectangle) :
    ∃ lm, s.deactivateActive font junk = some lm ∧ Framed s.manager lm ∧
      Deferred font rs { s with manager := lm } := by
  unfold LayerSystem.deactivateActive
  rcases h.desktop.active with hnone | ⟨hdisplayed, hne, layer, window, hderef, hlayer⟩
  · rw [if_neg (by omega)]
    exact ⟨s.manager, rfl, SameLayers.framed ⟨rfl, rfl, rfl⟩, h⟩
  · have hin := h.ready.stackInv
    have hpos : s.activeLayer > 0 := (hin.exists_of_deref hderef).1
    obtain ⟨window', hdeactivate, hframe⟩ :=
      Window.deactivate_spec (hin.titled layer (mem_of_deref hderef) window hlayer)
    obtain ⟨lm₁, lm, hu, hdraw, hrefreshed⟩ := h.ready.window_refreshed hdisplayed hderef hlayer
      (h.solid hdisplayed hne hderef hlayer) hdeactivate hframe junk
    rw [if_pos hpos, hu, Option.bind_some]
    exact ⟨lm, hdraw, hrefreshed.toFramed, h.refreshed hrefreshed⟩

/-- `Activate` while requests are under way. -/
theorem Deferred.activate (h : Deferred font rs s) (hdisplayed : s.manager.Displayed id)
    (hlowest : ¬s.manager.Lowest id) (hne : id ≠ s.mouseLayer) (hwindow : s.manager.HasWindow id)
    (junk junk' : Rectangle) :
    ∃ s', s.activate font id junk junk' = some s' ∧ Framed s.manager s'.manager ∧
      s'.mouseLayer = s.mouseLayer ∧ Deferred font rs s' := by
  unfold LayerSystem.activate
  by_cases hactive : s.activeLayer = id
  · rw [if_pos hactive]
    exact ⟨s, rfl, SameLayers.framed ⟨rfl, rfl, rfl⟩, rfl, h⟩
  rw [if_neg hactive]
  obtain ⟨lm, hdeactivate, hframed, h'⟩ := h.deactivateActive junk
  have hlowest' : ¬lm.Lowest id := by
    unfold Lowest
    rw [hframed.lowest, hframed.findLayer]
    exact hlowest
  obtain ⟨lm', hraise, hrefreshed⟩ := h'.ready.raise_refreshed h'.desktop.mouseOnTop.created
    h'.desktop.mouseOnTop.top (hframed.displayed_id hdisplayed) hlowest' hne
      (hframed.hasWindow hwindow) junk'
  have hframed' := hframed.trans hrefreshed.toFramed
  obtain ⟨hdesktop, hclients, hready⟩ := h'.refreshed hrefreshed
  refine ⟨{ s with manager := lm', activeLayer := id }, ?_, hframed', rfl,
    ⟨⟨hdesktop.composed, ⟨hdesktop.mouseOnTop.1, hdesktop.mouseOnTop.2⟩, Or.inr ?_⟩,
      fun r hr => ?_, hready⟩⟩
  · rw [hdeactivate, Option.bind_some, hraise]
    rfl
  · exact ⟨hframed'.displayed_id hdisplayed, hne, hframed'.hasWindow hwindow⟩
  · obtain ⟨hproper, size, hclient⟩ := hclients r hr
    exact ⟨hproper, size, hclient.displayed, hclient.notMouse, hclient.window⟩

/-- A change of an opaque window and a redraw of an area that covers it. -/
theorem Deferred.redrawArea (h : Deferred font rs s) (hdisplayed : s.manager.Displayed id)
    (hderef : s.manager.deref (s.manager.findLayer id) = some layer)
    (hwindow : layer.window = some window) (hsolid : window.transparentColor = none)
    {f : Window → Option Window} (hf : f window = some window') (hframe : window.SameFrame window')
    (harea : area.Proper) (hcovers : window.ChangedWithin window' area) (junk : Rectangle) :
    ∃ lm₁ lm, s.manager.updateWindow id f = some lm₁ ∧ lm₁.drawLayerArea id area junk = some lm ∧
      Framed s.manager lm ∧ Deferred font rs { s with manager := lm } := by
  obtain ⟨lm₁, hu, hframed₁, hderef₁, hready₁⟩ :=
    h.ready.window_pending hdisplayed hderef hwindow hf hframe
  obtain ⟨lm, hdraw, hsame, hready⟩ := hready₁.drawLayerArea (hframed₁.displayed_id hdisplayed)
    hderef₁ rfl (redrawnArea_proper harea) junk
  have hframed := hframed₁.trans hsame.framed
  refine ⟨lm₁, lm, hu, hdraw, hframed, h.framed hframed (hready.mono fun p _ hstale => ?_)⟩
  obtain ⟨⟨r, hr, hawaits⟩ | hchanged, hnotDrawn⟩ := hstale
  · exact ⟨r, hr, hsame.awaits hawaits⟩
  · exact absurd (contains_of_changed hwindow hsolid hframe harea hcovers hchanged) hnotDrawn

/-- **A request accounts for what has been drawn.** -/
theorem Deferred.request (h : Deferred font rs s) (hclient : s.Client id size)
    (hderef : s.manager.deref (s.manager.findLayer id) = some layer)
    (hwindow : layer.window = some window) {f : Window → Option Window}
    (hf : f window = some window') (hframe : window.SameFrame window') (harea : area.Proper)
    (hcovers : window.ChangedWithin window' area) :
    ∃ lm, s.manager.updateWindow id f = some lm ∧ Framed s.manager lm ∧
      Deferred font (rs ++ [⟨id, area⟩]) { s with manager := lm } := by
  obtain ⟨lm, hu, hframed, hderef', hready⟩ :=
    h.ready.window_pending hclient.displayed hderef hwindow hf hframe
  refine ⟨lm, hu, hframed, h.desktop.framed hframed hready.composed, fun r hr => ?_,
    hready.mono fun p _ hstale => ?_⟩
  · rcases List.mem_append.mp hr with hr | hr
    · obtain ⟨hproper, size, hclient⟩ := h.clients r hr
      exact ⟨hproper, size, hclient.framed hframed rfl⟩
    · rw [List.mem_singleton.mp hr]
      exact ⟨harea, size, hclient.framed hframed rfl⟩
  · obtain ⟨r, hr, hawaits⟩ | hchanged := hstale
    · exact ⟨r, List.mem_append_left _ hr, hawaits⟩
    · have hsolid := h.solid hclient.displayed hclient.notMouse hderef hwindow
      obtain ⟨hp, -⟩ := contains_of_changed hwindow hsolid hframe harea hcovers hchanged
      exact ⟨⟨id, area⟩, List.mem_append_right _ (List.mem_singleton_self _), _, window', hderef',
        rfl, hp⟩

/-- **Carrying out a request** brings the pixels it is about up to date, wherever the layer is
now. -/
theorem Deferred.carryOut (h : Deferred font (r :: rs) s) (junk : Rectangle) :
    ∃ lm, s.manager.drawLayerArea r.id r.area junk = some lm ∧ Framed s.manager lm ∧
      Deferred font rs { s with manager := lm } := by
  obtain ⟨hproper, size, hclient⟩ := h.clients r List.mem_cons_self
  obtain ⟨layer, window, hderef, hwindow, -⟩ := hclient.window
  obtain ⟨lm, hdraw, hsame, hready⟩ := h.ready.drawLayerArea hclient.displayed hderef hwindow
    (redrawnArea_proper hproper) junk
  refine ⟨lm, hdraw, hsame.framed, h.desktop.framed hsame.framed hready.composed, fun r' hr' => ?_,
    hready.mono fun p _ hstale => ?_⟩
  · obtain ⟨hproper', size', hclient'⟩ := h.clients r' (List.mem_cons_of_mem _ hr')
    exact ⟨hproper', size', hclient'.framed hsame.framed rfl⟩
  obtain ⟨⟨r', hr', hawaits⟩, hnotDrawn⟩ := hstale
  rcases List.mem_cons.mp hr' with rfl | hr'
  · obtain ⟨layer₁, window₁, hderef₁, hwindow₁, hp⟩ := hawaits
    cases hderef.symm.trans hderef₁
    cases hwindow.symm.trans hwindow₁
    have hsolid := h.solid hclient.displayed hclient.notMouse hderef hwindow
    have hink := (ink_isSome hwindow hsolid).mpr (contains_of_redrawnArea hproper hp)
    exact absurd ⟨hp, hink⟩ hnotDrawn
  · exact ⟨r', hr', hsame.awaits hawaits⟩

/-- **An operation that redraws what it has changed** leaves the requests as they are. -/
theorem Deferred.redraw (h : Deferred font rs s) {op : RedrawOp} (hok : op.Permitted s) :
    ∃ s', op.step font s = some s' ∧ (∀ id size, s.Client id size → s'.Client id size) ∧
      Deferred font rs s' := by
  have hmove : ∀ {id : Nat} (newPos : Vector2D → Vector2D) (junk : Rectangle),
      s.manager.Displayed id ∧ ¬s.manager.Lowest id ∧ s.manager.HasWindow id →
        ∃ lm, s.manager.moveWith id newPos junk = some lm ∧ Framed s.manager lm ∧
          Deferred font rs { s with manager := lm } := by
    rintro id newPos junk ⟨hdisplayed, hlowest, hwindow⟩
    obtain ⟨lm, hstep, hrefreshed⟩ :=
      h.ready.move_refreshed hdisplayed hlowest hwindow newPos junk
    exact ⟨lm, hstep, hrefreshed.toFramed, h.refreshed hrefreshed⟩
  cases op with
  | move id newPos junk =>
      obtain ⟨lm, hstep, hframed, h'⟩ := hmove (fun _ => newPos) junk hok
      refine ⟨{ s with manager := lm }, ?_, fun _ _ hclient => hclient.framed hframed rfl, h'⟩
      show (s.withManager (s.manager.moveWith id _ junk)).bind _ = _
      rw [hstep]
      rfl
  | moveRelative id posDiff junk =>
      obtain ⟨lm, hstep, hframed, h'⟩ := hmove (fun oldPos => oldPos + posDiff) junk hok
      refine ⟨{ s with manager := lm }, ?_, fun _ _ hclient => hclient.framed hframed rfl, h'⟩
      show (s.withManager (s.manager.moveWith id _ junk)).bind _ = _
      rw [hstep]
      rfl
  | activate id junk junk' =>
      obtain ⟨hdisplayed, hlowest, hne, hwindow⟩ := hok
      obtain ⟨s', hactivate, hframed, hmouse, h'⟩ :=
        h.activate hdisplayed hlowest hne hwindow junk junk'
      refine ⟨s', ?_, fun _ _ hclient => hclient.framed hframed hmouse, h'⟩
      show (s.activate font id junk junk').bind _ = _
      rw [hactivate]
      rfl
  | write id calls area junk =>
      obtain ⟨hdisplayed, ⟨layer, window, hderef, hlayer⟩, hwindow, hcovers⟩ := hok
      obtain ⟨hsolid, hin⟩ := hwindow layer hderef window hlayer
      obtain ⟨window', hwrite, hframe, hink⟩ := window.writeAll_spec calls hin
      cases area with
      | none =>
          obtain ⟨lm₁, lm, hu, hdraw, hrefreshed⟩ := h.ready.window_refreshed hdisplayed hderef
            hlayer hsolid (f := fun window => window.writeAll calls) hwrite hframe junk
          refine ⟨{ s with manager := lm }, ?_,
            fun _ _ hclient => hclient.framed hrefreshed.toFramed rfl, h.refreshed hrefreshed⟩
          show (s.withManager (s.manager.updateWindow id _)).bind _ = _
          rw [hu]
          show (withManager _ (lm₁.drawLayer id junk)).bind _ = _
          rw [hdraw]
          rfl
      | some area =>
          obtain ⟨harea, hcovers⟩ := hcovers area rfl
          have hchanged : window.ChangedWithin window' area := by
            intro p hchanged
            have hwritten : p ∈ calls.map Prod.fst := by
              by_contra hnot
              exact hchanged (hink p hnot)
            obtain ⟨call, hmem, rfl⟩ := List.mem_map.mp hwritten
            exact hcovers call hmem
          obtain ⟨lm₁, lm, hu, hdraw, hframed, h'⟩ := h.redrawArea hdisplayed hderef hlayer hsolid
            (f := fun window => window.writeAll calls) hwrite hframe harea hchanged junk
          refine ⟨{ s with manager := lm }, ?_, fun _ _ hclient => hclient.framed hframed rfl, h'⟩
          show (s.withManager (s.manager.updateWindow id _)).bind _ = _
          rw [hu]
          show (withManager _ (lm₁.drawLayerArea id area junk)).bind _ = _
          rw [hdraw]
          rfl

end LayerSystem

end UhyokOS
