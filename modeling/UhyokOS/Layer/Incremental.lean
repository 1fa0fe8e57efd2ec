import UhyokOS.Layer.Redraw

/-!
# Incremental redrawing equals full compositing

Runs of the operations by which windows are moved, activated and written to, each of which redraws
a part of the screen only.

* `shown_preserved`: from a desktop that is up to date, every permitted operation is defined and
  leaves nothing stale.
* `incremental_redraw`: after a full `Draw` and any sequence of such operations, every pixel of the
  screen is the visible one.
-/

namespace UhyokOS

open LayerManager Transition FrameBufferConfig

variable {config : FrameBufferConfig} {font : Font}

/-! ## Operations -/

/-- An operation and its redraw. -/
inductive RedrawOp
  | move (id : Nat) (newPos : Vector2D) (junk : Rectangle)
  | moveRelative (id : Nat) (posDiff : Vector2D) (junk : Rectangle)
  | activate (id : Nat) (junk junk' : Rectangle)
  /-- Writes into a window, then `Draw` of the layer or of an area of it. -/
  | write (id : Nat) (calls : Writes) (area : Option Rectangle) (junk : Rectangle)

/-- The calls an operation makes. -/
def RedrawOp.calls : RedrawOp → List LayerOp
  | .move id newPos junk => [.move id newPos junk]
  | .moveRelative id posDiff junk => [.moveRelative id posDiff junk]
  | .activate id junk junk' => [.activate id junk junk']
  | .write id calls none junk => [.write id calls, .drawLayer id junk]
  | .write id calls (some area) junk => [.write id calls, .drawLayerArea id area junk]

/-- One operation. -/
def RedrawOp.step (font : Font) (s : LayerSystem config) (op : RedrawOp) :
    Option (LayerSystem config) :=
  run (LayerSystem.step font) s op.calls

/-- The layer is the lowest on the stack. -/
def LayerManager.Lowest (lm : LayerManager config) (id : Nat) : Prop :=
  lm.layerStack.head? = some (lm.findLayer id)

/-- Which operations are permitted: layers that are displayed are moved, except for the lowest, and
activated, except for the lowest and the mouse; writes stay inside an opaque displayed window and
inside the area that is redrawn. -/
def RedrawOp.Permitted (s : LayerSystem config) : RedrawOp → Prop
  | .move id _ _ => s.manager.Displayed id ∧ ¬s.manager.Lowest id ∧ s.manager.HasWindow id
  | .moveRelative id _ _ => s.manager.Displayed id ∧ ¬s.manager.Lowest id ∧ s.manager.HasWindow id
  | .activate id _ _ => s.manager.Displayed id ∧ ¬s.manager.Lowest id ∧ id ≠ s.mouseLayer ∧
      s.manager.HasWindow id
  | .write id calls area _ => s.manager.Displayed id ∧ s.manager.HasWindow id ∧
      (∀ layer ∈ s.manager.deref (s.manager.findLayer id), ∀ window ∈ layer.window,
        window.transparentColor = none ∧ ∀ call ∈ calls, window.bounds.Contains call.1) ∧
      ∀ a ∈ area, a.Proper ∧ ∀ call ∈ calls, a.Contains call.1

instance LayerManager.decidableHasWindow (lm : LayerManager config) (id : Nat) :
    Decidable (lm.HasWindow id) :=
  decidable_of_iff (((lm.deref (lm.findLayer id)).bind Layer.window).isSome = true) (by
    unfold LayerManager.HasWindow
    simp only [Option.isSome_iff_exists, Option.bind_eq_some_iff]
    constructor
    · rintro ⟨window, layer, hderef, hwindow⟩
      exact ⟨layer, window, hderef, hwindow⟩
    · rintro ⟨layer, window, hderef, hwindow⟩
      exact ⟨window, layer, hderef, hwindow⟩)

instance RedrawOp.decidablePermitted (s : LayerSystem config) (op : RedrawOp) :
    Decidable (op.Permitted s) := by
  cases op <;> unfold RedrawOp.Permitted LayerManager.Lowest <;> infer_instance

namespace LayerSystem

/-- The assumptions on the desktop: the windows have the screen's format, the lowest is opaque and
covers the screen, only the mouse on top may be transparent, and the active layer, if there is one,
is displayed and not the mouse. -/
structure Desktop (s : LayerSystem config) : Prop where
  composed : s.manager.Composed
  mouseOnTop : s.MouseOnTop
  active : s.activeLayer = 0 ∨ (s.manager.Displayed s.activeLayer ∧
    s.activeLayer ≠ s.mouseLayer ∧ s.manager.HasWindow s.activeLayer)

/-- A desktop in order, with nothing stale on the screen. -/
structure Shown (font : Font) (s : LayerSystem config) : Prop where
  desktop : s.Desktop
  ready : Ready font s.manager fun _ => False

variable {s : LayerSystem config} {lm : LayerManager config} {id : Nat}

/-- An operation that keeps the stack. -/
theorem Shown.of_kept (h : s.Desktop) (hkept : Kept s.manager lm)
    (hready : Ready font lm fun _ => False) : Shown font { s with manager := lm } := by
  have hfind := hkept.toSameStack.findLayer
  refine ⟨⟨hready.composed, ⟨?_, ?_⟩, ?_⟩, hready⟩
  · exact hkept.toSameStack.exists_iff.mpr h.mouseOnTop.created
  · show lm.layerStack.getLast? = some (lm.findLayer s.mouseLayer)
    rw [hfind, hkept.layerStack]
    exact h.mouseOnTop.top
  · refine h.active.imp id fun ⟨hdisplayed, hne, hwindow⟩ => ⟨?_, hne, hkept.windows _ hwindow⟩
    show lm.findLayer s.activeLayer ∈ lm.layerStack
    rw [hfind, hkept.layerStack]
    exact hdisplayed

/-- What is displayed under the mouse is opaque. -/
theorem solid_of_displayed (hin : StackInv font lm) (hc : lm.Composed) {mouse : Nat}
    (hmouse : lm.Exists mouse) (htop : lm.layerStack.getLast? = some (lm.findLayer mouse))
    (hdisplayed : lm.Displayed id) (hne : id ≠ mouse) {layer : Layer} {window : Window}
    (hderef : lm.deref (lm.findLayer id) = some layer) (hwindow : layer.window = some window) :
    window.transparentColor = none := by
  obtain ⟨init, hstack⟩ := List.getLast?_eq_some_iff.mp htop
  have hmem : lm.findLayer id ∈ lm.layerStack.dropLast := by
    have hbelow := mem_of_displayed_of_ne hin (hin.exists_of_deref hderef) hmouse hne hstack
      hdisplayed
    rwa [hstack, List.dropLast_concat]
  exact hc.solid _ hmem layer hderef window hwindow

/-- The layer that was active is redrawn as inactive. -/
theorem Shown.deactivateActive (h : Shown font s) (junk : Rectangle) :
    ∃ lm, s.deactivateActive font junk = some lm ∧ Kept s.manager lm ∧
      Ready font lm fun _ => False := by
  unfold LayerSystem.deactivateActive
  rcases h.desktop.active with hnone | ⟨hdisplayed, hne, hwindow⟩
  · rw [if_neg (by omega)]
    exact ⟨s.manager, rfl, ⟨⟨rfl, rfl, rfl⟩, fun _ hid => hid⟩, h.ready⟩
  · obtain ⟨layer, window, hderef, hlayer⟩ := hwindow
    have hin := h.ready.stackInv
    have hpos : s.activeLayer > 0 := (hin.exists_of_deref hderef).1
    have hsolid := solid_of_displayed hin h.ready.composed h.desktop.mouseOnTop.created
      h.desktop.mouseOnTop.top hdisplayed hne hderef hlayer
    have hfits := hin.titled layer (mem_of_deref hderef) window hlayer
    obtain ⟨window', hdeactivate, hframe⟩ := Window.deactivate_spec hfits
    rw [if_pos hpos]
    exact h.ready.redrawWindow hdisplayed hderef hlayer hsolid hdeactivate hframe junk

/-- A displayed layer is raised to directly under the mouse and drawn as active. -/
theorem raise_spec {mouse : Nat} (h : Ready font lm fun _ => False) (hmouse : lm.Exists mouse)
    (htop : lm.layerStack.getLast? = some (lm.findLayer mouse)) (hdisplayed : lm.Displayed id)
    (hlowest : ¬lm.Lowest id) (hne : id ≠ mouse) (hwindow : lm.HasWindow id) (junk : Rectangle) :
    ∃ lm', raise font mouse lm id junk = some lm' ∧
      (∀ id', lm'.findLayer id' = lm.findLayer id') ∧ lm'.latestId = lm.latestId ∧
        lm'.layerStack.getLast? = some (lm.findLayer mouse) ∧ lm'.Displayed id ∧
          lm'.HasWindow id ∧ Ready font lm' fun _ => False := by
  obtain ⟨layer, window, hderef, hlayer⟩ := hwindow
  have hid := h.stackInv.exists_of_deref hderef
  have hsolid := solid_of_displayed h.stackInv h.composed hmouse htop hdisplayed hne hderef hlayer
  have hfits := h.stackInv.titled layer (mem_of_deref hderef) window hlayer
  obtain ⟨window', hactivate, hframe⟩ := Window.activate_spec hfits
  obtain ⟨lm₁, hu, hkept, hdisplayed₁, hderef₁, hready₁⟩ :=
    h.updateWindow hdisplayed hderef hlayer hactivate hframe
  have hfind₁ := hkept.toSameStack.findLayer
  obtain ⟨init, hstack⟩ := List.getLast?_eq_some_iff.mp htop
  have hstack₁ : lm₁.layerStack = init ++ [lm₁.findLayer mouse] := by
    rw [hkept.layerStack, hstack, hfind₁]
  have hheight := getHeight_top hready₁.stackInv (hkept.toSameStack.exists_iff.mpr hmouse) hstack₁
  have hmem : lm₁.findLayer id ∈ init := by
    rw [hfind₁]
    exact mem_of_displayed_of_ne h.stackInv hid hmouse hne hstack hdisplayed
  have hlowest₁ : lm₁.layerStack.head? ≠ some (lm₁.findLayer id) := by
    rw [hkept.layerStack, hfind₁]
    exact hlowest
  obtain ⟨hstack₂, hready₂⟩ := hready₁.raise (hkept.toSameStack.exists_iff.mpr hid) hstack₁ hmem
    hlowest₁ hderef₁
  have hfind₂ : ∀ id', (lm₁.upDown id (init.length - 1)).findLayer id' = lm.findLayer id' :=
    fun id' => (upDown_findLayer lm₁ id _ id').trans (hfind₁ id')
  have hderef₂ : (lm₁.upDown id (init.length - 1)).deref
      ((lm₁.upDown id (init.length - 1)).findLayer id) =
        some { layer with window := some window' } := by
    rw [upDown_deref, upDown_findLayer, hderef₁]
  have hdisplayed₂ : (lm₁.upDown id (init.length - 1)).Displayed id := by
    unfold Displayed
    rw [hstack₂, hfind₂, hfind₁]
    exact List.mem_append_right _ List.mem_cons_self
  obtain ⟨lm₃, hdraw, hsame, hready₃⟩ := hready₂.drawLayer hdisplayed₂ hderef₂ rfl junk
  have hfind₃ : ∀ id', lm₃.findLayer id' = lm.findLayer id' := fun id' =>
    (hsame.sameStack.findLayer id').trans (hfind₂ id')
  refine ⟨lm₃, ?_, hfind₃, ?_, ?_, ?_, ?_, hready₃.mono ?_⟩
  · have hpos : id > 0 := hid.1
    unfold LayerSystem.raise
    rw [if_pos hpos]
    apply Option.bind_eq_some_iff.mpr
    exact ⟨lm₁, hu, Option.bind_eq_some_iff.mpr ⟨init.length, hheight, hdraw⟩⟩
  · rw [hsame.latestId, (upDown_layers lm₁ id _).2, hkept.latestId]
  · rw [hsame.layerStack, hstack₂, hfind₁, hfind₁, List.getLast?_append]
    rfl
  · unfold Displayed
    rw [hfind₃, ← hfind₂, hsame.layerStack]
    exact hdisplayed₂
  · exact ⟨_, window', by rw [hsame.deref, hfind₃, ← hfind₂, hderef₂], rfl⟩
  · rintro p - ⟨(hchanged | hchanged) | hink, hnotDrawn⟩
    · exact hchanged
    · exact hchanged (ink_eq_of_sameFrame hlayer hsolid hframe hnotDrawn)
    · exact hnotDrawn hink

/-- **`Activate`** of a displayed layer between the lowest and the mouse. -/
theorem Shown.activate (h : Shown font s) (hdisplayed : s.manager.Displayed id)
    (hlowest : ¬s.manager.Lowest id) (hne : id ≠ s.mouseLayer) (hwindow : s.manager.HasWindow id)
    (junk junk' : Rectangle) :
    ∃ s', s.activate font id junk junk' = some s' ∧ Shown font s' := by
  unfold LayerSystem.activate
  by_cases hactive : s.activeLayer = id
  · rw [if_pos hactive]
    exact ⟨s, rfl, h⟩
  · rw [if_neg hactive]
    obtain ⟨lm, hdeactivate, hkept, hready⟩ := h.deactivateActive junk
    have hfind := hkept.toSameStack.findLayer
    have hmouse := hkept.toSameStack.exists_iff.mpr h.desktop.mouseOnTop.created
    have htop : lm.layerStack.getLast? = some (lm.findLayer s.mouseLayer) := by
      rw [hkept.layerStack, hfind]
      exact h.desktop.mouseOnTop.top
    have hdisplayed' : lm.Displayed id := by
      unfold Displayed
      rw [hkept.layerStack, hfind]
      exact hdisplayed
    have hlowest' : ¬lm.Lowest id := by
      unfold Lowest
      rw [hkept.layerStack, hfind]
      exact hlowest
    obtain ⟨lm', hraise, hfind', hlatest, htop', hdisplayed'', hwindow', hready'⟩ :=
      raise_spec hready hmouse htop hdisplayed' hlowest' hne (hkept.windows id hwindow) junk'
    refine ⟨{ s with manager := lm', activeLayer := id }, ?_, ⟨⟨hready'.composed, ⟨?_, ?_⟩, ?_⟩,
      hready'⟩⟩
    · rw [hdeactivate, Option.bind_some, hraise]
      rfl
    · exact ⟨hmouse.1, hlatest ▸ hmouse.2⟩
    · rw [htop', hfind']
    · exact Or.inr ⟨hdisplayed'', hne, hwindow'⟩

/-! ## Runs -/

/-- A call on the manager that is the whole operation. -/
private theorem shown_of_manager {op : LayerOp} {result : Option (LayerManager config)}
    (h : Shown font s) (hop : s.step font op = s.withManager result)
    (hresult : ∃ lm, result = some lm ∧ Kept s.manager lm ∧ Ready font lm fun _ => False) :
    ∃ s', run (LayerSystem.step font) s [op] = some s' ∧ Shown font s' := by
  obtain ⟨lm, rfl, hkept, hready⟩ := hresult
  refine ⟨{ s with manager := lm }, ?_, .of_kept h.desktop hkept hready⟩
  rw [run_cons, hop]
  rfl

/-- A call that draws in a window, and the redraw after it. -/
private theorem shown_of_write {calls : Writes} {op : LayerOp}
    {draw : LayerManager config → Option (LayerManager config)} (h : Shown font s)
    (hop : ∀ s : LayerSystem config, s.step font op = s.withManager (draw s.manager))
    (hresult : ∃ lm, ((s.manager.updateWindow id fun window => window.writeAll calls).bind draw) =
      some lm ∧ Kept s.manager lm ∧ Ready font lm fun _ => False) :
    ∃ s', run (LayerSystem.step font) s [.write id calls, op] = some s' ∧ Shown font s' := by
  obtain ⟨lm, hdraw, hkept, hready⟩ := hresult
  obtain ⟨lm₁, hu, hdraw⟩ := Option.bind_eq_some_iff.mp hdraw
  refine ⟨{ s with manager := lm }, ?_, .of_kept h.desktop hkept hready⟩
  have hwrite : s.step font (.write id calls) = some { s with manager := lm₁ } := by
    show s.withManager _ = _
    rw [hu]
    rfl
  rw [run_cons, hwrite, Option.bind_some, run_cons, hop, hdraw]
  rfl

/-- **The step lemma**: a permitted operation is defined and leaves nothing stale. -/
theorem shown_preserved (font : Font) :
    Preserves (RedrawOp.step font) (fun (s : LayerSystem config) op => op.Permitted s)
      (Shown font) := by
  intro s op h hok
  cases op with
  | move id newPos junk =>
      obtain ⟨hdisplayed, hlowest, hwindow⟩ := hok
      exact shown_of_manager h rfl (h.ready.moveWith hdisplayed hlowest hwindow _ junk)
  | moveRelative id posDiff junk =>
      obtain ⟨hdisplayed, hlowest, hwindow⟩ := hok
      exact shown_of_manager h rfl (h.ready.moveWith hdisplayed hlowest hwindow _ junk)
  | activate id junk junk' =>
      obtain ⟨hdisplayed, hlowest, hne, hwindow⟩ := hok
      obtain ⟨s', hactivate, hshown⟩ := h.activate hdisplayed hlowest hne hwindow junk junk'
      refine ⟨s', ?_, hshown⟩
      show (s.activate font id junk junk').bind _ = _
      rw [hactivate]
      rfl
  | write id calls area junk =>
      obtain ⟨hdisplayed, ⟨layer, window, hderef, hlayer⟩, hwindow, hcovers⟩ := hok
      obtain ⟨hsolid, hin⟩ := hwindow layer hderef window hlayer
      cases area with
      | none =>
          obtain ⟨window', hwrite, hframe, -⟩ := window.writeAll_spec calls hin
          exact shown_of_write h (fun _ => rfl)
            (h.ready.redrawWindow hdisplayed hderef hlayer hsolid hwrite hframe junk)
      | some area =>
          obtain ⟨harea, hcovers⟩ := hcovers area rfl
          exact shown_of_write h (fun _ => rfl)
            (h.ready.write hdisplayed hderef hlayer hsolid hin harea hcovers junk)

/-- The first `Draw` brings the whole screen up to date. -/
theorem shown_of_draw (hin : StackInv font s.manager) (hd : s.Desktop) :
    ∃ s', s.step font (.draw config.outline) = some s' ∧ Shown font s' := by
  have hready : Ready font s.manager fun _ => True :=
    ⟨hin, hd.composed, fun p _ hfresh => absurd trivial hfresh⟩
  obtain ⟨lm, hdraw, hsame, hready'⟩ := hready.draw config.proper_outline
  refine ⟨{ s with manager := lm }, ?_, .of_kept hd hsame.kept ?_⟩
  · show s.withManager _ = _
    rw [hdraw]
    rfl
  · exact hready'.mono fun p hp hstale => hstale.2 hp

/-- **Incremental redraw equals full compositing.** Start from any reachable desktop and draw the
whole screen. Then after each operation of any sequence of moves, activations and writes with their
redraws, every pixel of the screen is the visible one. -/
theorem incremental_redraw {screen : FrameBuffer config} (hr : s.Reachable font screen)
    (hd : s.Desktop) :
    ∃ s₀, s.step font (.draw config.outline) = some s₀ ∧
      ∀ ops, Admits (RedrawOp.step font) (fun s op => op.Permitted s) s₀ ops → ∀ pre, pre <+: ops →
        ∃ s', run (RedrawOp.step font) s₀ pre = some s' ∧ ∀ p, config.outline.Contains p →
          s'.manager.visible p = some (s'.manager.screen.pixel p) := by
  obtain ⟨s₀, hdraw, hshown⟩ := shown_of_draw (Reachable.inOrder hr) hd
  refine ⟨s₀, hdraw, fun ops hadm pre hpre => ?_⟩
  obtain ⟨s', hrun, hshown'⟩ := run_of_preserves (shown_preserved font) hshown
    (hadm.of_prefix hpre)
  exact ⟨s', hrun, fun p hp => (hshown'.ready.upToDate p hp not_false).2⟩

/-- The desktop on which a terminal is opened satisfies the assumptions. -/
theorem desktop_desktop : desktop.Desktop := by
  have hformat : ∀ layer ∈ desktop.manager.layers, ∀ window ∈ layer.window,
      tinyConfig.pixelFormat = window.shadowFormat := by decide
  have hsolid : ∀ ptr ∈ desktop.manager.layerStack.dropLast,
      ∀ layer ∈ desktop.manager.deref ptr, ∀ window ∈ layer.window,
        window.transparentColor = none := by decide
  have hbottom : ∃ layer, desktop.manager.deref (some 0) = some layer :=
    Option.isSome_iff_exists.mp (by decide)
  have hfirst : ∀ layer ∈ desktop.manager.deref (some 0), layer.pos = ⟨0, 0⟩ ∧
      layer.window.isSome = true ∧ ∀ window ∈ layer.window,
        window.size = tinyConfig.frameBufferSize ∧ window.transparentColor = none := by decide
  refine ⟨⟨hformat, hsolid, ?_⟩, desktop_mouseOnTop, Or.inl (by decide)⟩
  obtain ⟨layer, hlayer⟩ := hbottom
  obtain ⟨hpos, hsome, hwindow⟩ := hfirst layer hlayer
  obtain ⟨window, heq⟩ := Option.isSome_iff_exists.mp hsome
  obtain ⟨hsize, hopen⟩ := hwindow window heq
  exact ⟨some 0, layer, window, by decide, hlayer, heq, hpos, hsize, hopen⟩

/-- The window is moved, written to and activated, the mouse is moved over it. -/
def redrawOps : List RedrawOp :=
  [.move 2 ⟨1, 0⟩ noArea,
    .write 2 [(⟨0, 0⟩, ⟨255, 0, 0⟩)] (some ⟨⟨0, 0⟩, ⟨1, 1⟩⟩) noArea,
    .activate 2 noArea noArea,
    .moveRelative 3 ⟨1, 0⟩ noArea,
    .write 1 [(⟨1, 0⟩, ⟨0, 255, 0⟩)] none noArea]

theorem desktop_draw_isSome :
    (desktop.step noFont (.draw tinyConfig.outline)).isSome = true := by decide

theorem incremental_redraw_desktop :
    ∃ s₀ s', desktop.step noFont (.draw tinyConfig.outline) = some s₀ ∧
      run (RedrawOp.step noFont) s₀ redrawOps = some s' ∧
        ∀ p, tinyConfig.outline.Contains p →
          s'.manager.visible p = some (s'.manager.screen.pixel p) := by
  obtain ⟨s₀, hdraw, hall⟩ := incremental_redraw desktop_reachable desktop_desktop
  have hadm : Admits (RedrawOp.step noFont) (fun s op => op.Permitted s)
      ((desktop.step noFont (.draw tinyConfig.outline)).get desktop_draw_isSome) redrawOps := by
    decide
  have heq : (desktop.step noFont (.draw tinyConfig.outline)).get desktop_draw_isSome = s₀ :=
    Option.get_of_eq_some _ hdraw
  rw [heq] at hadm
  obtain ⟨s', hrun, hshown⟩ := hall redrawOps hadm redrawOps (List.prefix_refl _)
  exact ⟨s₀, s', hdraw, hrun, hshown⟩

end LayerSystem

end UhyokOS
