import UhyokOS.Layer.Stack

/-!
# Activating a layer

`Activate` is meant to bring a layer directly under the mouse. It asks for the height just below
the one the mouse has, which is right for a displayed layer: it leaves the stack before it is put
back. A hidden layer is inserted at that height and moves the mouse up, together with the layer
that was under the mouse.

* `activate_under_mouse_iff`: exactly when `Activate` does what it is meant to do.
* `activate_not_under_mouse`: the window of a terminal, activated before it is first shown, comes
  up under another window.
-/

namespace UhyokOS

open Restack LayerManager

variable {config : FrameBufferConfig}

namespace LayerSystem

/-- The mouse layer is displayed on top. -/
structure MouseOnTop (s : LayerSystem config) : Prop where
  created : s.manager.Exists s.mouseLayer
  top : s.manager.layerStack.getLast? = some (s.manager.findLayer s.mouseLayer)

/-- What `Activate` is meant to do to the stack: the layer is directly under the mouse, the mouse
is on top, and the other layers keep their order. -/
structure RaisedUnderMouse (s s' : LayerSystem config) (id : Nat) : Prop where
  underMouse : ∃ height, s'.manager.getHeight s'.mouseLayer = some height ∧
    s'.manager.getHeight id = some (height - 1)
  mouseOnTop : s'.MouseOnTop
  others : s'.manager.layerStack.erase (s'.manager.findLayer id) =
    s.manager.layerStack.erase (s.manager.findLayer id)

end LayerSystem

/-- The height of the layer on top. -/
theorem LayerManager.getHeight_top {font : Font} {lm : LayerManager config} {id : Nat}
    (h : StackInv font lm) (hid : lm.Exists id) {below : List LayerPtr}
    (hstack : lm.layerStack = below ++ [lm.findLayer id]) :
    lm.getHeight id = some (below.length : Int) := by
  have hnotMem : lm.findLayer id ∉ below := by
    have hnodup := h.nodup
    rw [hstack] at hnodup
    intro hmem
    exact (List.nodup_append.mp hnodup).2.2 _ hmem _ List.mem_cons_self rfl
  rw [getHeight_eq h hid, hstack, if_pos (List.mem_append_right _ List.mem_cons_self),
    List.idxOf_append_of_notMem hnotMem, List.idxOf_cons_self, Nat.add_zero]

namespace LayerSystem

variable {font : Font} {s s' : LayerSystem config} {id : Nat} {junk junk' : Rectangle}

/-- `Activate`, given the stack below the mouse. -/
theorem layerStack_of_activate (h : StackInv font s.manager) (hmouse : s.MouseOnTop)
    (hid : s.manager.Exists id) (hactive : id ≠ s.activeLayer)
    (ha : s.activate font id junk junk' = some s') {init : List LayerPtr}
    (hstack : s.manager.layerStack = init ++ [s.manager.findLayer s.mouseLayer]) :
    s'.manager.layerStack = if init = [] then s.manager.layerStack.erase (s.manager.findLayer id)
      else restack s.manager.layerStack (init.length - 1) (s.manager.findLayer id) := by
  obtain ⟨lm, height, hsame, hinv, -, hheight, hdraw, -⟩ :=
    upDown_of_activate h hid.1 hactive ha
  have hmouseHeight : height = init.length := by
    have htop : lm.layerStack = init ++ [lm.findLayer s.mouseLayer] := by
      rw [hsame.layerStack, hstack, hsame.findLayer]
    rw [getHeight_top hinv (hsame.exists_iff.mpr hmouse.created) htop] at hheight
    exact (Option.some.inj hheight).symm
  rw [hdraw.layerStack, upDown_layerStack, hsame.layerStack, hsame.findLayer, hmouseHeight]
  by_cases hinit : init = []
  · rw [if_pos hinit, hinit]
    rfl
  · have hpos := List.length_pos_iff.mpr hinit
    rw [if_neg hinit, if_neg (by omega)]
    congr 1
    omega

/-- `Activate` creates no layer, and the mouse layer is still the same. -/
theorem findLayer_of_activate (h : StackInv font s.manager) (hid : s.manager.Exists id)
    (hactive : id ≠ s.activeLayer) (ha : s.activate font id junk junk' = some s') :
    (∀ id', s'.manager.findLayer id' = s.manager.findLayer id') ∧
      (∀ id', s'.manager.Exists id' ↔ s.manager.Exists id') ∧ s'.mouseLayer = s.mouseLayer := by
  obtain ⟨lm, height, hsame, -, -, -, hdraw, hmouseLayer⟩ := upDown_of_activate h hid.1 hactive ha
  refine ⟨fun id' => ?_, fun id' => ?_, hmouseLayer⟩
  · rw [hdraw.sameStack.findLayer, upDown_findLayer, hsame.findLayer]
  · rw [hdraw.sameStack.exists_iff, upDown_exists_iff, hsame.exists_iff]

/-- The heights of two layers, the second of them on top of the stack. -/
private theorem underMouse_iff {lm : LayerManager config} {mouse : Nat} (h : StackInv font lm)
    (hid : lm.Exists id) (hmouse : lm.Exists mouse) {below : List LayerPtr}
    (hstack : lm.layerStack = below ++ [lm.findLayer mouse]) (hne : id ≠ mouse) :
    (∃ height, lm.getHeight mouse = some height ∧ lm.getHeight id = some (height - 1)) ↔
      (if lm.findLayer id ∈ below then (below.idxOf (lm.findLayer id) : Int) else -1) =
        below.length - 1 := by
  have hptr : lm.findLayer id ≠ lm.findLayer mouse := fun heq =>
    hne (findLayer_inj h hid hmouse heq)
  have hmouseHeight : lm.getHeight mouse = some (below.length : Int) :=
    getHeight_top h hmouse hstack
  have hheight : lm.getHeight id = some
      (if lm.findLayer id ∈ below then (below.idxOf (lm.findLayer id) : Int) else -1) := by
    rw [getHeight_eq h hid, hstack]
    by_cases hmem : lm.findLayer id ∈ below
    · rw [if_pos (List.mem_append_left _ hmem), if_pos hmem, List.idxOf_append_of_mem hmem]
    · rw [if_neg hmem, if_neg]
      rw [List.mem_append, List.mem_singleton]
      exact fun hor => hor.elim hmem hptr
  rw [hmouseHeight, hheight]
  constructor
  · rintro ⟨height, hmouse', hid'⟩
    cases hmouse'
    exact Option.some.inj hid'
  · intro heq
    exact ⟨below.length, rfl, congrArg some heq⟩

/-- With the stack that is left below the mouse, `RaisedUnderMouse` is a fact about one index. -/
private theorem raisedUnderMouse_iff (h : StackInv font s.manager) (hmouse : s.MouseOnTop)
    (hid : s.manager.Exists id) (hne : id ≠ s.mouseLayer) (hactive : id ≠ s.activeLayer)
    (ha : s.activate font id junk junk' = some s') {below : List LayerPtr}
    (hstack : s'.manager.layerStack = below ++ [s.manager.findLayer s.mouseLayer])
    (hothers : s'.manager.layerStack.erase (s.manager.findLayer id) =
      s.manager.layerStack.erase (s.manager.findLayer id)) :
    s.RaisedUnderMouse s' id ↔
      (if s.manager.findLayer id ∈ below then (below.idxOf (s.manager.findLayer id) : Int)
        else -1) = below.length - 1 := by
  obtain ⟨hfind, hexists, hmouseLayer⟩ := findLayer_of_activate h hid hactive ha
  have hmouse' : s'.manager.Exists s'.mouseLayer := by
    rw [hmouseLayer, hexists]
    exact hmouse.created
  have hstack' : s'.manager.layerStack = below ++ [s'.manager.findLayer s'.mouseLayer] := by
    rw [hstack, hmouseLayer, hfind]
  rw [← hfind id, ← underMouse_iff (stackInv_of_activate h ha) ((hexists id).mpr hid) hmouse'
    hstack' (by rw [hmouseLayer]; exact hne)]
  constructor
  · intro hraised
    exact hraised.underMouse
  · intro hunder
    refine ⟨hunder, ⟨hmouse', ?_⟩, ?_⟩
    · rw [hstack', List.getLast?_concat]
    · rw [hfind]
      exact hothers

/-- Only the mouse is displayed: the layer stays hidden, at height `-1`. -/
private theorem raised_of_alone (h : StackInv font s.manager) (hmouse : s.MouseOnTop)
    (hid : s.manager.Exists id) (hne : id ≠ s.mouseLayer) (hactive : id ≠ s.activeLayer)
    (ha : s.activate font id junk junk' = some s')
    (hstack : s.manager.layerStack = [s.manager.findLayer s.mouseLayer]) :
    s.RaisedUnderMouse s' id := by
  have hptr : s.manager.findLayer id ≠ s.manager.findLayer s.mouseLayer := fun heq =>
    hne (findLayer_inj h hid hmouse.created heq)
  have hinit : s.manager.layerStack = [] ++ [s.manager.findLayer s.mouseLayer] := hstack
  have hstack' := layerStack_of_activate h hmouse hid hactive ha hinit
  have herase : s.manager.layerStack.erase (s.manager.findLayer id) = s.manager.layerStack := by
    apply List.erase_of_not_mem
    rw [hstack, List.mem_singleton]
    exact hptr
  rw [if_pos rfl, herase] at hstack'
  rw [raisedUnderMouse_iff h hmouse hid hne hactive ha (hstack'.trans hinit) (by rw [hstack'])]
  rfl

/-- **`Activate` and the mouse.** The layer comes directly under the mouse, the others staying as
they were, if and only if it is displayed already or the mouse is the only layer displayed. -/
theorem activate_under_mouse_iff {screen : FrameBuffer config} (hr : s.Reachable font screen)
    (hmouse : s.MouseOnTop) (hid : s.manager.Exists id) (hne : id ≠ s.mouseLayer)
    (hactive : id ≠ s.activeLayer) (ha : s.activate font id junk junk' = some s') :
    s.RaisedUnderMouse s' id ↔
      s.manager.Displayed id ∨
        s.manager.layerStack = [s.manager.findLayer s.mouseLayer] := by
  have h : StackInv font s.manager := Reachable.inOrder hr
  obtain ⟨init, hstack⟩ := List.getLast?_eq_some_iff.mp hmouse.top
  have hstack' := layerStack_of_activate h hmouse hid hactive ha hstack
  rcases List.eq_nil_or_concat init with rfl | ⟨init, x, rfl⟩
  · exact iff_of_true (raised_of_alone h hmouse hid hne hactive ha hstack) (Or.inr hstack)
  · rw [List.concat_eq_append] at hstack hstack'
    rw [if_neg (List.append_ne_nil_of_right_ne_nil _ (List.cons_ne_nil _ _))] at hstack'
    have hothers : s'.manager.layerStack.erase (s.manager.findLayer id) =
        s.manager.layerStack.erase (s.manager.findLayer id) := by
      rw [hstack', erase_restack h.nodup]
    by_cases hdisplayed : s.manager.Displayed id
    · refine iff_of_true ?_ (Or.inl hdisplayed)
      have hmem : s.manager.findLayer id ∈ init ++ [x] :=
        mem_of_displayed_of_ne h hid hmouse.created hne hstack hdisplayed
      have hnotMem : s.manager.findLayer id ∉ (init ++ [x]).erase (s.manager.findLayer id) := by
        have hnodup := h.nodup
        rw [hstack] at hnodup
        exact (List.nodup_append.mp hnodup).1.not_mem_erase
      have hbelow : s'.manager.layerStack =
          ((init ++ [x]).erase (s.manager.findLayer id) ++ [s.manager.findLayer id]) ++
            [s.manager.findLayer s.mouseLayer] := by
        rw [hstack', hstack, restack_under_top_of_mem hmem, List.append_assoc]
        rfl
      rw [raisedUnderMouse_iff h hmouse hid hne hactive ha hbelow hothers,
        if_pos (List.mem_append_right _ List.mem_cons_self),
        List.idxOf_append_of_notMem hnotMem, List.idxOf_cons_self, List.length_append,
        List.length_singleton]
      omega
    · -- the layer that was under the mouse stays between them
      have hnotMem : s.manager.findLayer id ∉
          init ++ [x, s.manager.findLayer s.mouseLayer] := by
        unfold Displayed at hdisplayed
        rwa [hstack, List.append_assoc] at hdisplayed
      have hbelow : s'.manager.layerStack =
          (init ++ [s.manager.findLayer id, x]) ++ [s.manager.findLayer s.mouseLayer] := by
        rw [hstack', hstack, List.append_assoc, List.length_append, List.length_singleton,
          Nat.add_sub_cancel]
        show restack (init ++ [x, s.manager.findLayer s.mouseLayer]) _ _ = _
        rw [restack_under_top_of_notMem hnotMem, List.append_assoc]
        rfl
      refine iff_of_false ?_ ?_
      · rw [raisedUnderMouse_iff h hmouse hid hne hactive ha hbelow hothers,
          if_pos (List.mem_append_right _ List.mem_cons_self),
          List.idxOf_append_of_notMem fun hmem => hnotMem (List.mem_append_left _ hmem),
          List.idxOf_cons_self, List.length_append]
        simp only [List.length_cons, List.length_nil]
        omega
      · rintro (hd | halone)
        · exact hdisplayed hd
        · have hlen := congrArg List.length (hstack.symm.trans halone)
          simp at hlen

/-! ## A terminal that is opened -/

/-- A screen of two pixels. -/
def tinyConfig : FrameBufferConfig := .ownMemory 2 1 .kPixelRGBResv8BitPerColor

/-- A font without glyphs. -/
def noFont : Font := ⟨[], Nat.dvd_zero 16⟩

/-- The background, a window and the mouse are displayed; the layer of a terminal is new. -/
def openTerminal : List LayerOp :=
  [.newLayer, .setWindow 1 (.new 2 1 .kPixelRGBResv8BitPerColor), .upDown 1 0,
    .newLayer, .setWindow 2 (.new 1 1 .kPixelRGBResv8BitPerColor), .upDown 2 1,
    .newLayer, .setWindow 3 ((Window.new 1 1 .kPixelRGBResv8BitPerColor).setTransparentColor
      (some ⟨0, 0, 1⟩)), .upDown 3 0x7fffffff, .setMouseLayer 3,
    .newLayer, .setWindow 4 (.new 1 1 .kPixelRGBResv8BitPerColor)]

/-- The desktop at that moment. -/
def desktop? : Option (LayerSystem tinyConfig) :=
  Transition.runPermitted (LayerSystem.step noFont) (fun s op => op.Permitted noFont s)
    { manager := { screen := .zeros _ } } openTerminal

theorem desktop?_isSome : desktop?.isSome = true := by decide

/-- The desktop at that moment. -/
def desktop : LayerSystem tinyConfig := desktop?.get desktop?_isSome

theorem desktop_reachable : desktop.Reachable noFont (.zeros _) :=
  Transition.Reachable.of_runPermitted .init (Option.some_get desktop?_isSome).symm

theorem desktop_mouseOnTop : desktop.MouseOnTop := ⟨by decide, by decide⟩

/-- The unassigned rectangle is not used here. -/
def noArea : Rectangle := ⟨⟨0, 0⟩, ⟨0, 0⟩⟩

/-- The window that is displayed comes up under the mouse, the terminal does not. -/
theorem activate_under_mouse_iff_desktop :
    (∃ s', desktop.activate noFont 2 noArea noArea = some s' ∧ desktop.RaisedUnderMouse s' 2) ∧
      ∃ s', desktop.activate noFont 4 noArea noArea = some s' ∧
        ¬desktop.RaisedUnderMouse s' 4 := by
  have h₂ : (desktop.activate noFont 2 noArea noArea).isSome = true := by decide
  have h₄ : (desktop.activate noFont 4 noArea noArea).isSome = true := by decide
  obtain ⟨s₂, heq₂⟩ := Option.isSome_iff_exists.mp h₂
  obtain ⟨s₄, heq₄⟩ := Option.isSome_iff_exists.mp h₄
  refine ⟨⟨s₂, heq₂, ?_⟩, s₄, heq₄, ?_⟩
  · apply (activate_under_mouse_iff desktop_reachable desktop_mouseOnTop (by decide) (by decide)
      (by decide) heq₂).mpr
    decide
  · intro hraised
    have hcases := (activate_under_mouse_iff desktop_reachable desktop_mouseOnTop (by decide)
      (by decide) (by decide) heq₄).mp hraised
    revert hcases
    decide

/-- **A new layer does not come up under the mouse.** -/
theorem activate_not_under_mouse :
    ¬∀ (config : FrameBufferConfig) (font : Font) (screen : FrameBuffer config)
      (s s' : LayerSystem config) (id : Nat) (junk junk' : Rectangle),
      s.Reachable font screen → s.MouseOnTop → s.manager.Exists id → id ≠ s.mouseLayer →
        id ≠ s.activeLayer → s.activate font id junk junk' = some s' →
        s.RaisedUnderMouse s' id := by
  intro hall
  have hdefined : (desktop.activate noFont 4 noArea noArea).isSome = true := by decide
  have hheights : (desktop.activate noFont 4 noArea noArea).map (fun s' =>
      (s'.manager.getHeight s'.mouseLayer, s'.manager.getHeight 4)) = some (some 3, some 1) := by
    decide
  obtain ⟨s', heq⟩ := Option.isSome_iff_exists.mp hdefined
  obtain ⟨⟨height, hmouse, hlayer⟩, -, -⟩ := hall tinyConfig noFont (.zeros _) desktop s' 4 noArea
    noArea desktop_reachable desktop_mouseOnTop (by decide) (by decide) (by decide) heq
  rw [heq, Option.map_some, hmouse, hlayer] at hheights
  cases hheights

end LayerSystem

end UhyokOS
