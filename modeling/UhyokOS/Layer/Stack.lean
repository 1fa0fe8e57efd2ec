import UhyokOS.Layer.Manager
import UhyokOS.Lib.Restack

/-!
# The layer stack

Runs of the layer manager and what they do to the stack.

* `inOrder_keeps`: in every reachable state the ids are `1, 2, …` in the order of creation, the
  stack holds no null pointer and no layer twice, and every title fits into its window.
* `upDown_layerStack`, `getHeight_eq`: `UpDown` restacks the layer, `GetHeight` is its index.
* `upDown_of_activate`: what a call of `Activate` that returns has done to the stack.
-/

namespace UhyokOS

open Transition Restack

variable {config : FrameBufferConfig}

/-! ## Runs -/

/-- The calls that are made on the layer manager and the active layer. -/
inductive LayerOp
  | newLayer
  | setWindow (id : Nat) (window : Window)
  /-- `Layer::Move`, which does not redraw -/
  | place (id : Nat) (pos : Vector2D)
  | setDraggable (id : Nat) (draggable : Bool)
  | upDown (id : Nat) (newHeight : Int)
  | hide (id : Nat)
  | setMouseLayer (id : Nat)
  /-- Writes into the window of the layer. -/
  | write (id : Nat) (calls : Writes)
  | draw (area : Rectangle)
  | drawLayer (id : Nat) (junk : Rectangle)
  | drawLayerArea (id : Nat) (area junk : Rectangle)
  | move (id : Nat) (newPos : Vector2D) (junk : Rectangle)
  | moveRelative (id : Nat) (posDiff : Vector2D) (junk : Rectangle)
  | activate (id : Nat) (junk junk' : Rectangle)

/-- A call of a member function of the layer manager. -/
def LayerSystem.withManager (s : LayerSystem config)
    (lm : Option (LayerManager config)) : Option (LayerSystem config) :=
  lm.map fun lm => { s with manager := lm }

/-- Change the layer that an id names, undefined if there is none. -/
def LayerManager.updateLayer (lm : LayerManager config) (id : Nat) (f : Layer → Layer) :
    Option (LayerManager config) :=
  (lm.deref (lm.findLayer id)).map fun layer => lm.assign (lm.findLayer id) (f layer)

/-- One call. -/
def LayerSystem.step (font : Font) (s : LayerSystem config) : LayerOp → Option (LayerSystem config)
  | .newLayer => s.withManager (some s.manager.newLayer)
  | .setWindow id window =>
      s.withManager (s.manager.updateLayer id fun layer => { layer with window := some window })
  | .place id pos => s.withManager (s.manager.updateLayer id fun layer => { layer with pos := pos })
  | .setDraggable id draggable =>
      s.withManager (s.manager.updateLayer id fun layer => { layer with draggable := draggable })
  | .upDown id newHeight => s.withManager (some (s.manager.upDown id newHeight))
  | .hide id => s.withManager (some (s.manager.hide id))
  | .setMouseLayer id => some { s with mouseLayer := id }
  | .write id calls =>
      s.withManager (s.manager.updateWindow id fun window => window.writeAll calls)
  | .draw area => s.withManager (s.manager.draw area)
  | .drawLayer id junk => s.withManager (s.manager.drawLayer id junk)
  | .drawLayerArea id area junk => s.withManager (s.manager.drawLayerArea id area junk)
  | .move id newPos junk => s.withManager (s.manager.move id newPos junk)
  | .moveRelative id posDiff junk => s.withManager (s.manager.moveRelative id posDiff junk)
  | .activate id junk junk' => s.activate font id junk junk'

/-- The id was returned by `NewLayer`. -/
def LayerManager.Exists (lm : LayerManager config) (id : Nat) : Prop :=
  1 ≤ id ∧ id ≤ lm.latestId

/-- The ids in use are the numbers from 1 to `latest_id_`, so that this is a comparison. -/
instance LayerManager.decidableExists (lm : LayerManager config) (id : Nat) :
    Decidable (lm.Exists id) := by
  unfold LayerManager.Exists
  infer_instance

/-- What a caller guarantees: a layer that is put on the stack exists, and a window with a title
was constructed. -/
def LayerOp.Permitted (font : Font) (s : LayerSystem config) : LayerOp → Prop
  | .setWindow _ window => window.TitleFits font
  | .upDown id _ => s.manager.Exists id
  | _ => True

/-- Whether a call is permitted is a question about ids and titles, which a test can answer. -/
instance LayerOp.decidablePermitted (font : Font) (s : LayerSystem config) (op : LayerOp) :
    Decidable (op.Permitted font s) := by
  unfold LayerOp.Permitted
  split <;> infer_instance

/-- The states of a layer manager that was made for a screen. -/
abbrev LayerSystem.Reachable (font : Font) (screen : FrameBuffer config)
    (s : LayerSystem config) : Prop :=
  Transition.Reachable (LayerSystem.step font) (fun s op => op.Permitted font s)
    { manager := { screen := screen } } s

/-! ## The invariant -/

namespace LayerManager

variable {font : Font} {lm lm' lm₁ lm₂ : LayerManager config} {id : Nat} {p : LayerPtr}
  {layer : Layer}

/-- Every title fits into its window. -/
def Titled (font : Font) (lm : LayerManager config) : Prop :=
  ∀ layer ∈ lm.layers, ∀ window, layer.window = some window → window.TitleFits font

/-- The ids, the stack and the windows are in order. -/
structure StackInv (font : Font) (lm : LayerManager config) : Prop where
  ids : lm.layers.map (·.id) = List.range' 1 lm.latestId
  displayed : ∀ p ∈ lm.layerStack, ∃ id, lm.Exists id ∧ p = lm.findLayer id
  nodup : lm.layerStack.Nodup
  titled : lm.Titled font

/-- The position of the layer with an id, `0` being no id. -/
theorem findLayer_of_ids (hids : lm.layers.map (·.id) = List.range' 1 lm.latestId)
    (hid : lm.Exists id) : lm.findLayer id = some (id - 1) := by
  have hmap : lm.findLayer id = (lm.layers.map (·.id)).findIdx? (· == id) := by
    rw [List.findIdx?_map]
    rfl
  obtain ⟨hpos, hle⟩ := hid
  rw [hmap, hids, List.findIdx?_eq_some_iff_getElem]
  refine ⟨by rw [List.length_range']; omega, ?_, fun j hj => ?_⟩
  · rw [List.getElem_range']
    simp only [beq_iff_eq]
    omega
  · rw [List.getElem_range']
    simp only [beq_iff_eq]
    omega

/-- The layer with an id. -/
theorem deref_findLayer (h : StackInv font lm) (hid : lm.Exists id) :
    ∃ layer, lm.deref (lm.findLayer id) = some layer ∧ layer.id = id ∧ layer ∈ lm.layers := by
  have hlen : lm.layers.length = lm.latestId := by
    have := congrArg List.length h.ids
    rwa [List.length_map, List.length_range'] at this
  have hlt : id - 1 < lm.layers.length := by
    obtain ⟨hpos, hle⟩ := hid
    omega
  refine ⟨lm.layers[id - 1], ?_, ?_, List.getElem_mem hlt⟩
  · rw [findLayer_of_ids h.ids hid]
    exact List.getElem?_eq_getElem hlt
  · have hget : (lm.layers.map (·.id))[id - 1]? = (List.range' 1 lm.latestId)[id - 1]? := by
      rw [h.ids]
    rw [List.getElem?_map, List.getElem?_eq_getElem hlt, List.getElem?_range' (by omega)] at hget
    have hid' : lm.layers[id - 1].id = 1 + 1 * (id - 1) := Option.some.inj hget
    obtain ⟨hpos, -⟩ := hid
    omega

/-- A layer of the stack, and its id. -/
theorem StackInv.deref (h : StackInv font lm) (hp : p ∈ lm.layerStack) :
    ∃ layer, lm.deref p = some layer ∧ lm.Exists layer.id ∧ p = lm.findLayer layer.id ∧
      layer ∈ lm.layers := by
  obtain ⟨id, hid, rfl⟩ := h.displayed p hp
  obtain ⟨layer, hlayer, hlayerId, hmem⟩ := deref_findLayer h hid
  exact ⟨layer, hlayer, hlayerId ▸ hid, by rw [hlayerId], hmem⟩

/-- Two ids of the same pointer are equal, since the ids are the places in `layers_` counted from
1. -/
theorem findLayer_inj (h : StackInv font lm) {id' : Nat} (hid : lm.Exists id)
    (hid' : lm.Exists id') (heq : lm.findLayer id = lm.findLayer id') : id = id' := by
  obtain ⟨layer, hlayer, rfl, -⟩ := deref_findLayer h hid
  obtain ⟨layer', hlayer', rfl, -⟩ := deref_findLayer h hid'
  rw [heq, hlayer'] at hlayer
  cases hlayer
  rfl

/-- What is displayed under the top layer. -/
theorem mem_of_displayed_of_ne (h : StackInv font lm) {top : Nat} (hid : lm.Exists id)
    (htop : lm.Exists top) (hne : id ≠ top) {init : List LayerPtr}
    (hstack : lm.layerStack = init ++ [lm.findLayer top]) (hdisplayed : lm.Displayed id) :
    lm.findLayer id ∈ init := by
  have hptr : lm.findLayer id ≠ lm.findLayer top := fun heq => hne (findLayer_inj h hid htop heq)
  unfold Displayed at hdisplayed
  rw [hstack, List.mem_append, List.mem_singleton] at hdisplayed
  exact hdisplayed.resolve_right hptr

/-! ## `UpDown` and `GetHeight` -/

/-- **`UpDown` restacks the layer**, and takes it off the stack for a negative height. -/
theorem upDown_layerStack (lm : LayerManager config) (id : Nat) (newHeight : Int) :
    (lm.upDown id newHeight).layerStack =
      if newHeight < 0 then lm.layerStack.erase (lm.findLayer id)
      else restack lm.layerStack newHeight.toNat (lm.findLayer id) := by
  unfold upDown
  split_ifs with hneg
  · rfl
  · simp only
    unfold restack
    by_cases hmem : lm.findLayer id ∈ lm.layerStack
    · have hlen := List.length_erase_of_mem hmem
      have hpos := List.length_pos_of_mem hmem
      rw [if_neg (not_not.mpr hmem)]
      show (lm.layerStack.erase (lm.findLayer id)).insertIdx _ _ = _
      congr 1
      rw [hlen]
      split_ifs <;> omega
    · rw [if_pos hmem]
      show lm.layerStack.insertIdx _ _ = _
      rw [List.erase_of_not_mem hmem]
      congr 1
      split_ifs <;> omega

/-- `UpDown` works on the stack alone. -/
theorem upDown_layers (lm : LayerManager config) (id : Nat) (newHeight : Int) :
    (lm.upDown id newHeight).layers = lm.layers ∧
      (lm.upDown id newHeight).latestId = lm.latestId := by
  unfold upDown hide
  simp only
  split_ifs <;> exact ⟨rfl, rfl⟩

/-- `UpDown` makes no ids and takes none away. -/
theorem upDown_exists_iff (lm : LayerManager config) (id : Nat) (newHeight : Int) {id' : Nat} :
    (lm.upDown id newHeight).Exists id' ↔ lm.Exists id' := by
  unfold Exists
  rw [(upDown_layers lm id newHeight).2]

/-- The pointer of an id is the same behind `UpDown`. -/
theorem upDown_findLayer (lm : LayerManager config) (id : Nat) (newHeight : Int) (id' : Nat) :
    (lm.upDown id newHeight).findLayer id' = lm.findLayer id' := by
  unfold findLayer
  rw [(upDown_layers lm id newHeight).1]

/-- A pointer leads to the same layer behind `UpDown`. -/
theorem upDown_deref (lm : LayerManager config) (id : Nat) (newHeight : Int) (p : LayerPtr) :
    (lm.upDown id newHeight).deref p = lm.deref p := by
  unfold deref
  rw [(upDown_layers lm id newHeight).1]

/-- The loop of `GetHeight`, by induction on the stack that is left. -/
theorem heightFrom_eq (h : StackInv font lm) (hid : lm.Exists id) (stack : List LayerPtr)
    (hstack : ∀ p ∈ stack, p ∈ lm.layerStack) (n : Nat) :
    lm.heightFrom id n stack = some (if lm.findLayer id ∈ stack then
      (n : Int) + stack.idxOf (lm.findLayer id) else -1 : Int) := by
  induction stack generalizing n with
  | nil => rfl
  | cons p stack ih =>
      obtain ⟨layer, hderef, hlayer, hp, -⟩ := h.deref (hstack p List.mem_cons_self)
      rw [heightFrom, hderef, Option.bind_some]
      by_cases heq : layer.id = id
      · have hfind : lm.findLayer id = p := by rw [← heq, ← hp]
        rw [if_pos heq, hfind, if_pos List.mem_cons_self, List.idxOf_cons_self,
          Int.natCast_zero, Int.add_zero]
      · have hne : p ≠ lm.findLayer id := by
          intro hfind
          exact heq (findLayer_inj h hlayer hid (hp.symm.trans hfind))
        rw [if_neg heq, ih (fun q hq => hstack q (List.mem_cons_of_mem _ hq)),
          List.idxOf_cons_ne _ hne]
        simp only [List.mem_cons, hne.symm, false_or]
        congr 2
        push_cast
        omega

/-- **`GetHeight` is the index in the stack.** -/
theorem getHeight_eq (h : StackInv font lm) (hid : lm.Exists id) :
    lm.getHeight id = some (if lm.findLayer id ∈ lm.layerStack then
      (lm.layerStack.idxOf (lm.findLayer id) : Int) else -1 : Int) := by
  unfold getHeight
  rw [heightFrom_eq h hid _ (fun _ hp => hp), Int.natCast_zero, Int.zero_add]

/-! ## What leaves the stack alone -/

/-- The same layers on the same stack; positions and windows may differ. -/
structure SameStack (lm lm' : LayerManager config) : Prop where
  ids : lm'.layers.map (·.id) = lm.layers.map (·.id)
  layerStack : lm'.layerStack = lm.layerStack
  latestId : lm'.latestId = lm.latestId

/-- Only the pixels of the two buffers differ. -/
structure SameLayers (lm lm' : LayerManager config) : Prop where
  layers : lm'.layers = lm.layers
  layerStack : lm'.layerStack = lm.layerStack
  latestId : lm'.latestId = lm.latestId

/-- Two calls in a row that leave the stack alone leave it alone together. -/
theorem SameStack.trans (h : SameStack lm lm₁) (h' : SameStack lm₁ lm₂) : SameStack lm lm₂ :=
  ⟨h'.ids.trans h.ids, h'.layerStack.trans h.layerStack, h'.latestId.trans h.latestId⟩

/-- If only pixels differ, the stack is the same. -/
theorem SameLayers.sameStack (h : SameLayers lm lm') : SameStack lm lm' :=
  ⟨by rw [h.layers], h.layerStack, h.latestId⟩

/-- The same ids are in use, since `latest_id_` is the same. -/
theorem SameStack.exists_iff (h : SameStack lm lm') : lm'.Exists id ↔ lm.Exists id := by
  unfold Exists
  rw [h.latestId]

/-- Every id has the same pointer: the search sees only the ids of the layers, and these are the
same. -/
theorem SameStack.findLayer (h : SameStack lm lm') (id : Nat) :
    lm'.findLayer id = lm.findLayer id := by
  have hmap : ∀ lm : LayerManager config,
      lm.findLayer id = (lm.layers.map (·.id)).findIdx? (· == id) := by
    intro lm
    rw [List.findIdx?_map]
    rfl
  rw [hmap, hmap, h.ids]

/-- **The invariant is kept by what leaves the stack alone**, if the titles still fit. The clause
about titles is the only one that looks into the windows. -/
theorem StackInv.of_sameStack (h : StackInv font lm) (hsame : SameStack lm lm')
    (htitled : lm'.Titled font) : StackInv font lm' where
  ids := by rw [hsame.ids, hsame.latestId, h.ids]
  displayed := by
    intro p hp
    rw [hsame.layerStack] at hp
    obtain ⟨id, hid, rfl⟩ := h.displayed p hp
    exact ⟨id, hsame.exists_iff.mpr hid, (hsame.findLayer id).symm⟩
  nodup := by
    rw [hsame.layerStack]
    exact h.nodup
  titled := htitled

/-- What writes pixels only keeps the invariant. -/
theorem StackInv.of_sameLayers (h : StackInv font lm) (hsame : SameLayers lm lm') :
    StackInv font lm' := by
  refine h.of_sameStack hsame.sameStack ?_
  unfold Titled
  rw [hsame.layers]
  exact h.titled

/-! ### Drawing -/

/-- The last step of every drawing, the copy of the back buffer to the screen. -/
theorem sameLayers_of_copyToScreen {back : FrameBuffer (backConfig config)} {area : Rectangle}
    (h : lm.copyToScreen back area = some lm') : SameLayers lm lm' := by
  obtain ⟨copied, -, rfl⟩ := Option.map_eq_some_iff.mp h
  exact ⟨rfl, rfl, rfl⟩

/-- `Draw` of an area writes pixels only. -/
theorem sameLayers_of_draw {area : Rectangle} (h : lm.draw area = some lm') :
    SameLayers lm lm' := by
  obtain ⟨back, -, hcopy⟩ := Option.bind_eq_some_iff.mp h
  exact sameLayers_of_copyToScreen hcopy

/-- `Draw` of a layer and `DrawArea` write pixels only, also if the rectangle is left unassigned
because the layer is not displayed. -/
theorem sameLayers_of_drawLayerArea {area junk : Rectangle}
    (h : lm.drawLayerArea id area junk = some lm') : SameLayers lm lm' := by
  obtain ⟨drawn, -, hcopy⟩ := Option.bind_eq_some_iff.mp h
  exact sameLayers_of_copyToScreen hcopy

/-! ### Writing to a layer -/

/-- A layer may be replaced by one with the same id: the stack holds pointers, not layers. -/
theorem sameStack_assign {layer' : Layer} (hderef : lm.deref p = some layer)
    (hid : layer'.id = layer.id) : SameStack lm (lm.assign p layer') := by
  cases p with
  | none => cases hderef
  | some i =>
      refine ⟨?_, rfl, rfl⟩
      have hget : lm.layers[i]? = some layer := hderef
      obtain ⟨hlt, rfl⟩ := List.getElem?_eq_some_iff.mp hget
      show (lm.layers.set i layer').map (·.id) = lm.layers.map (·.id)
      rw [List.map_set, hid, ← List.getElem_map (fun layer : Layer => layer.id)]
      · exact List.set_getElem_self _
      · rwa [List.length_map]

/-- The titles fit behind an assignment if the title of the new layer does. -/
theorem titled_assign {layer' : Layer} (h : lm.Titled font)
    (hfits : ∀ window, layer'.window = some window → window.TitleFits font) :
    (lm.assign p layer').Titled font := by
  cases p with
  | none => exact h
  | some i =>
      intro layer hmem
      rcases List.mem_or_eq_of_mem_set hmem with hmem | rfl
      · exact h layer hmem
      · exact hfits

/-- A pointer that leads to a layer leads to one of `layers_`. -/
theorem mem_of_deref (h : lm.deref p = some layer) : layer ∈ lm.layers := by
  obtain ⟨i, -, hget⟩ := Option.bind_eq_some_iff.mp h
  exact List.mem_of_getElem? hget

/-- A layer is changed that keeps its id and its window. -/
theorem StackInv.assign_sameWindow (h : StackInv font lm) (hderef : lm.deref p = some layer)
    {layer' : Layer} (hid : layer'.id = layer.id) (hwindow : layer'.window = layer.window) :
    SameStack lm (lm.assign p layer') ∧ StackInv font (lm.assign p layer') := by
  have hsame : SameStack lm (lm.assign p layer') := sameStack_assign hderef hid
  refine ⟨hsame, h.of_sameStack hsame (titled_assign h.titled ?_)⟩
  rw [hwindow]
  exact h.titled layer (mem_of_deref hderef)

/-- A layer is given a new position. -/
theorem StackInv.assign_pos (h : StackInv font lm) (hderef : lm.deref p = some layer)
    (pos : Vector2D) : SameStack lm (lm.assign p { layer with pos := pos }) ∧
      StackInv font (lm.assign p { layer with pos := pos }) :=
  h.assign_sameWindow hderef rfl rfl

/-- A layer is given a window whose title fits. -/
theorem StackInv.assign_window (h : StackInv font lm) (hderef : lm.deref p = some layer)
    {window : Window} (hfits : window.TitleFits font) :
    SameStack lm (lm.assign p { layer with window := some window }) ∧
      StackInv font (lm.assign p { layer with window := some window }) := by
  have hsame : SameStack lm (lm.assign p { layer with window := some window }) :=
    sameStack_assign hderef rfl
  refine ⟨hsame, h.of_sameStack hsame (titled_assign h.titled fun window' heq => ?_)⟩
  cases heq
  exact hfits

/-- What `updateWindow` does. -/
theorem exists_of_updateWindow {f : Window → Option Window}
    (h : lm.updateWindow id f = some lm') :
    ∃ layer window window', lm.deref (lm.findLayer id) = some layer ∧
      layer.window = some window ∧ f window = some window' ∧
      lm' = lm.assign (lm.findLayer id) { layer with window := some window' } := by
  obtain ⟨layer, hderef, hrest⟩ := Option.bind_eq_some_iff.mp h
  obtain ⟨window, hwindow, hrest⟩ := Option.bind_eq_some_iff.mp hrest
  obtain ⟨window', hf, rfl⟩ := Option.map_eq_some_iff.mp hrest
  exact ⟨layer, window, window', hderef, hwindow, hf, rfl⟩

/-- Drawing in a window. -/
theorem StackInv.updateWindow (h : StackInv font lm) {f : Window → Option Window}
    (hf : ∀ w w', f w = some w' → Window.SameFrame w w')
    (hu : lm.updateWindow id f = some lm') : SameStack lm lm' ∧ StackInv font lm' := by
  obtain ⟨layer, window, window', hderef, hwindow, hfw, rfl⟩ := exists_of_updateWindow hu
  have hfits := h.titled layer (mem_of_deref hderef) window hwindow
  exact h.assign_window hderef ((hf window window' hfw).titleFits hfits)

/-- **`Move` and `MoveRelative`** assign a position and draw twice, and leave the stack as it is. -/
theorem StackInv.moveWith (h : StackInv font lm) {newPos : Vector2D → Vector2D}
    {junk : Rectangle} (hm : lm.moveWith id newPos junk = some lm') :
    SameStack lm lm' ∧ StackInv font lm' := by
  obtain ⟨layer, hderef, hrest⟩ := Option.bind_eq_some_iff.mp hm
  obtain ⟨window, -, hrest⟩ := Option.bind_eq_some_iff.mp hrest
  obtain ⟨lm₁, hdraw, hlast⟩ := Option.bind_eq_some_iff.mp hrest
  obtain ⟨hsame, hinv⟩ := h.assign_pos hderef (newPos layer.pos)
  have hdraw' := sameLayers_of_draw hdraw
  have hlast' := sameLayers_of_drawLayerArea hlast
  exact ⟨hsame.trans (hdraw'.sameStack.trans hlast'.sameStack),
    (hinv.of_sameLayers hdraw').of_sameLayers hlast'⟩

/-! ## What changes the stack -/

/-- **`NewLayer`** takes the next id and leaves the stack as it is; the new layer is not displayed
and has no window. -/
theorem StackInv.newLayer (h : StackInv font lm) : StackInv font lm.newLayer := by
  have hids : lm.newLayer.layers.map (·.id) = List.range' 1 lm.newLayer.latestId := by
    unfold LayerManager.newLayer
    rw [List.map_append, h.ids, List.range'_concat]
    simp [Nat.add_comm]
  refine ⟨hids, fun p hp => ?_, h.nodup, fun layer hmem => ?_⟩
  · obtain ⟨id, hid, rfl⟩ := h.displayed p hp
    have hid' : lm.newLayer.Exists id := ⟨hid.1, Nat.le_succ_of_le hid.2⟩
    exact ⟨id, hid', by rw [findLayer_of_ids h.ids hid, findLayer_of_ids hids hid']⟩
  · rcases List.mem_append.mp hmem with hmem | hmem
    · exact h.titled layer hmem
    · intro window hwindow
      rw [List.mem_singleton.mp hmem] at hwindow
      cases hwindow

/-- The invariant with another stack. -/
theorem StackInv.of_layerStack (h : StackInv font lm) (hlayers : lm'.layers = lm.layers)
    (hlatest : lm'.latestId = lm.latestId) (hnodup : lm'.layerStack.Nodup)
    (hdisplayed : ∀ p ∈ lm'.layerStack, p ∈ lm.layerStack ∨
      ∃ id, lm.Exists id ∧ p = lm.findLayer id) : StackInv font lm' where
  ids := by rw [hlayers, hlatest, h.ids]
  displayed := by
    intro p hp
    have hp' : ∃ id, lm.Exists id ∧ p = lm.findLayer id :=
      (hdisplayed p hp).elim (h.displayed p) id
    unfold Exists findLayer at hp' ⊢
    rw [hlayers, hlatest]
    exact hp'
  nodup := hnodup
  titled := by
    unfold Titled
    rw [hlayers]
    exact h.titled

/-- **`Hide`** takes a layer out of the stack if it is there, and the others are displayed as before. -/
theorem StackInv.hide (h : StackInv font lm) (id : Nat) : StackInv font (lm.hide id) :=
  h.of_layerStack rfl rfl (h.nodup.erase _) fun _ hp => Or.inl (List.mem_of_mem_erase hp)

/-- **`UpDown`** takes a layer out of the stack or puts it in once, so that no layer is displayed
twice. -/
theorem StackInv.upDown (h : StackInv font lm) (hid : lm.Exists id) (newHeight : Int) :
    StackInv font (lm.upDown id newHeight) := by
  obtain ⟨hlayers, hlatest⟩ := upDown_layers lm id newHeight
  have hstack := upDown_layerStack lm id newHeight
  split_ifs at hstack with hneg
  · refine h.of_layerStack hlayers hlatest ?_ fun p hp => ?_
    · rw [hstack]
      exact h.nodup.erase _
    · rw [hstack] at hp
      exact Or.inl (List.mem_of_mem_erase hp)
  · refine h.of_layerStack hlayers hlatest ?_ fun p hp => ?_
    · rw [hstack]
      exact nodup_restack h.nodup
    · rw [hstack] at hp
      rcases mem_restack.mp hp with rfl | hp
      · exact Or.inr ⟨id, hid, rfl⟩
      · exact Or.inl hp

/-- A layer that `FindLayer` finds was created. -/
theorem StackInv.exists_of_deref (h : StackInv font lm)
    (hderef : lm.deref (lm.findLayer id) = some layer) : lm.Exists id := by
  obtain ⟨i, hfind, -⟩ := Option.bind_eq_some_iff.mp hderef
  obtain ⟨hlt, hid, -⟩ := List.findIdx?_eq_some_iff_getElem.mp hfind
  have hmem : id ∈ lm.layers.map (·.id) :=
    List.mem_map.mpr ⟨lm.layers[i], List.getElem_mem hlt, beq_iff_eq.mp hid⟩
  rw [h.ids, List.mem_range'_1] at hmem
  exact ⟨hmem.1, by omega⟩

/-- `FindLayer` finds the layer with the id. -/
theorem StackInv.id_of_deref (h : StackInv font lm)
    (hderef : lm.deref (lm.findLayer id) = some layer) : layer.id = id := by
  obtain ⟨layer', hderef', hid, -⟩ := deref_findLayer h (h.exists_of_deref hderef)
  rw [hderef] at hderef'
  cases hderef'
  exact hid

end LayerManager

/-! ## `Activate` -/

namespace LayerSystem

open LayerManager

variable {font : Font} {s s' : LayerSystem config} {id : Nat} {junk junk' : Rectangle}

/-- The first half of `Activate` leaves the stack alone. -/
theorem sameStack_of_deactivateActive (h : StackInv font s.manager) {lm : LayerManager config}
    (hd : s.deactivateActive font junk = some lm) :
    SameStack s.manager lm ∧ StackInv font lm := by
  unfold deactivateActive at hd
  split_ifs at hd
  · obtain ⟨lm₁, hu, hdraw⟩ := Option.bind_eq_some_iff.mp hd
    obtain ⟨hsame, hinv⟩ := h.updateWindow (fun _ _ => Window.sameFrame_of_deactivate) hu
    have hdraw' := sameLayers_of_drawLayerArea hdraw
    exact ⟨hsame.trans hdraw'.sameStack, hinv.of_sameLayers hdraw'⟩
  · cases hd
    exact ⟨⟨rfl, rfl, rfl⟩, h⟩

/-- The second half raises the layer to just below the height that the mouse had before. -/
theorem upDown_of_raise {lm lm' : LayerManager config} {mouseLayer : Nat} (h : StackInv font lm)
    (hpos : 0 < id) (hr : raise font mouseLayer lm id junk = some lm') :
    ∃ (lm₁ : LayerManager config) (height : Int), SameStack lm lm₁ ∧ StackInv font lm₁ ∧
      lm₁.Exists id ∧ lm₁.getHeight mouseLayer = some height ∧
        SameLayers (lm₁.upDown id (height - 1)) lm' := by
  unfold raise at hr
  rw [if_pos hpos] at hr
  obtain ⟨lm₁, hu, hrest⟩ := Option.bind_eq_some_iff.mp hr
  obtain ⟨height, hheight, hdraw⟩ := Option.bind_eq_some_iff.mp hrest
  obtain ⟨hsame, hinv⟩ := h.updateWindow (fun _ _ => Window.sameFrame_of_activate) hu
  obtain ⟨layer, -, -, hderef, -⟩ := exists_of_updateWindow hu
  exact ⟨lm₁, height, hsame, hinv, hsame.exists_iff.mpr (h.exists_of_deref hderef), hheight,
    sameLayers_of_drawLayerArea hdraw⟩

/-- **What `Activate` does to the stack.** -/
theorem upDown_of_activate (h : StackInv font s.manager) (hpos : 0 < id)
    (hactive : id ≠ s.activeLayer) (ha : s.activate font id junk junk' = some s') :
    ∃ (lm : LayerManager config) (height : Int), SameStack s.manager lm ∧ StackInv font lm ∧
      lm.Exists id ∧ lm.getHeight s.mouseLayer = some height ∧
        SameLayers (lm.upDown id (height - 1)) s'.manager ∧ s'.mouseLayer = s.mouseLayer := by
  unfold activate at ha
  rw [if_neg hactive.symm] at ha
  obtain ⟨lm, hd, hrest⟩ := Option.bind_eq_some_iff.mp ha
  obtain ⟨lm', hr, rfl⟩ := Option.map_eq_some_iff.mp hrest
  obtain ⟨hsame, hinv⟩ := sameStack_of_deactivateActive h hd
  obtain ⟨lm₁, height, hsame₁, hinv₁, hid, hheight, hdraw⟩ := upDown_of_raise hinv hpos hr
  exact ⟨lm₁, height, hsame.trans hsame₁, hinv₁, hid, hheight, hdraw, rfl⟩

/-- **`Activate`** repaints title bars, which leaves the stack alone, and raises a layer by
`UpDown`. -/
theorem stackInv_of_activate (h : StackInv font s.manager)
    (ha : s.activate font id junk junk' = some s') : StackInv font s'.manager := by
  by_cases hactive : id = s.activeLayer
  · unfold activate at ha
    rw [if_pos hactive.symm] at ha
    cases ha
    exact h
  · rcases Nat.eq_zero_or_pos id with rfl | hpos
    · unfold activate at ha
      rw [if_neg fun heq => hactive heq.symm] at ha
      obtain ⟨lm, hd, hrest⟩ := Option.bind_eq_some_iff.mp ha
      cases hrest
      exact (sameStack_of_deactivateActive h hd).2
    · obtain ⟨lm, height, -, hinv, hid, -, hdraw, -⟩ := upDown_of_activate h hpos hactive ha
      exact (hinv.upDown hid _).of_sameLayers hdraw

/-! ## The step lemma -/

/-- The invariant of a run. -/
def InOrder (font : Font) (s : LayerSystem config) : Prop := StackInv font s.manager

/-- A manager without layers is in order: there are no ids, no titles, and an empty stack. -/
theorem inOrder_init (font : Font) (screen : FrameBuffer config) :
    InOrder font ({ manager := { screen := screen } } : LayerSystem config) :=
  ⟨rfl, fun _ hp => absurd hp List.not_mem_nil, List.nodup_nil,
    fun _ hmem => absurd hmem List.not_mem_nil⟩

/-- **The step lemma.** -/
theorem inOrder_keeps (font : Font) :
    Keeps (LayerSystem.step font) (fun (s : LayerSystem config) op => op.Permitted font s)
      (InOrder font) := by
  intro s op s' h hok hs
  cases op with
  | setMouseLayer id =>
      cases hs
      exact h
  | activate id junk junk' => exact stackInv_of_activate h hs
  | newLayer =>
      cases hs
      exact h.newLayer
  | upDown id newHeight =>
      cases hs
      exact h.upDown hok newHeight
  | hide id =>
      cases hs
      exact h.hide id
  | setWindow id window =>
      obtain ⟨lm, hlm, rfl⟩ := Option.map_eq_some_iff.mp hs
      obtain ⟨layer, hderef, rfl⟩ := Option.map_eq_some_iff.mp hlm
      exact (h.assign_window hderef hok).2
  | place id pos =>
      obtain ⟨lm, hlm, rfl⟩ := Option.map_eq_some_iff.mp hs
      obtain ⟨layer, hderef, rfl⟩ := Option.map_eq_some_iff.mp hlm
      exact (h.assign_pos hderef pos).2
  | setDraggable id draggable =>
      obtain ⟨lm, hlm, rfl⟩ := Option.map_eq_some_iff.mp hs
      obtain ⟨layer, hderef, rfl⟩ := Option.map_eq_some_iff.mp hlm
      refine (h.assign_sameWindow hderef ?_ ?_).2
      · rfl
      · rfl
  | write id calls =>
      obtain ⟨lm, hlm, rfl⟩ := Option.map_eq_some_iff.mp hs
      exact (h.updateWindow (fun _ _ => Window.sameFrame_of_writeAll) hlm).2
  | draw area =>
      obtain ⟨lm, hlm, rfl⟩ := Option.map_eq_some_iff.mp hs
      exact h.of_sameLayers (sameLayers_of_draw hlm)
  | drawLayer id junk =>
      obtain ⟨lm, hlm, rfl⟩ := Option.map_eq_some_iff.mp hs
      exact h.of_sameLayers (sameLayers_of_drawLayerArea hlm)
  | drawLayerArea id area junk =>
      obtain ⟨lm, hlm, rfl⟩ := Option.map_eq_some_iff.mp hs
      exact h.of_sameLayers (sameLayers_of_drawLayerArea hlm)
  | move id newPos junk =>
      obtain ⟨lm, hlm, rfl⟩ := Option.map_eq_some_iff.mp hs
      exact (h.moveWith hlm).2
  | moveRelative id posDiff junk =>
      obtain ⟨lm, hlm, rfl⟩ := Option.map_eq_some_iff.mp hs
      exact (h.moveWith hlm).2

/-- **The stack of every reachable state is in order.** -/
theorem Reachable.inOrder {screen : FrameBuffer config} (h : s.Reachable font screen) :
    InOrder font s :=
  Transition.Reachable.invariant_of_keeps (inOrder_init font screen) (inOrder_keeps font) h

end LayerSystem

end UhyokOS
