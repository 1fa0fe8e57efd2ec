import UhyokOS.Layer.Incremental

/-!
# Positions of layers

Where a layer is, and which calls move it. Only `Layer::Move`, `LayerManager::Move` and `MoveRelative`
change a position, each the one of the layer that it is called for.

* `position_moveWith`: what `Move` and `MoveRelative` do to the positions.
* `keepsPositions_of_step`: every other call leaves all of them alone.
-/

namespace UhyokOS

open LayerManager

variable {config : FrameBufferConfig} {font : Font}

namespace LayerManager

variable {lm lm' lm₁ lm₂ : LayerManager config} {id : Nat} {ptr : LayerPtr} {layer layer' : Layer}

/-- The position of the layer with an id. -/
def position (lm : LayerManager config) (id : Nat) : Option Vector2D :=
  (lm.deref (lm.findLayer id)).map (·.pos)

/-- The ids and positions of the layers, in the order of creation. -/
def placings (lm : LayerManager config) : List (Nat × Vector2D) :=
  lm.layers.map fun layer => (layer.id, layer.pos)

/-- No layer has moved; new ones may have been created. -/
def KeepsPositions (lm lm' : LayerManager config) : Prop := lm.placings <+: lm'.placings

/-- What two calls in a row leave alone, they leave alone together: the list of placings only
grows. -/
theorem KeepsPositions.trans (h : KeepsPositions lm lm₁) (h' : KeepsPositions lm₁ lm₂) :
    KeepsPositions lm lm₂ := List.IsPrefix.trans h h'

/-- `FindLayer` and the pointer that it returns are the search for the id in the list of layers,
which is in the order of creation. -/
theorem deref_findLayer_eq (lm : LayerManager config) (id : Nat) :
    lm.deref (lm.findLayer id) = lm.layers.find? fun layer => layer.id == id :=
  List.find?_eq_bind_findIdx?_getElem?.symm

/-- A position is looked up in the list of all. -/
theorem position_eq (lm : LayerManager config) (id : Nat) :
    lm.position id = (lm.placings.find? fun placing => placing.1 == id).map Prod.snd := by
  unfold position placings
  rw [deref_findLayer_eq, List.find?_map, Option.map_map]
  rfl

/-- A layer that had a position still has it; an id that was not in use may have become the id of a
new layer. -/
theorem KeepsPositions.position (h : KeepsPositions lm lm') {q : Vector2D}
    (hq : lm.position id = some q) : lm'.position id = some q := by
  rw [position_eq] at hq ⊢
  obtain ⟨placing, hfind, rfl⟩ := Option.map_eq_some_iff.mp hq
  rw [List.IsPrefix.find?_eq_some h hfind]
  rfl

/-! ## Calls that move nothing -/

/-- A call that does not touch `layers_` moves nothing, whatever it does to the stack and to the
screen. -/
theorem keepsPositions_of_layers (h : lm'.layers = lm.layers) : KeepsPositions lm lm' := by
  unfold KeepsPositions placings
  rw [h]

/-- Drawing moves nothing: it writes pixels only. -/
theorem SameLayers.keepsPositions (h : SameLayers lm lm') : KeepsPositions lm lm' :=
  keepsPositions_of_layers h.layers

/-- A layer is changed that keeps its id and its position. -/
theorem keepsPositions_assign (hderef : lm.deref ptr = some layer) (hid : layer'.id = layer.id)
    (hpos : layer'.pos = layer.pos) : KeepsPositions lm (lm.assign ptr layer') := by
  cases ptr with
  | none => cases hderef
  | some i =>
      have hget : lm.layers[i]? = some layer := hderef
      obtain ⟨hlt, rfl⟩ := List.getElem?_eq_some_iff.mp hget
      have hsame : (lm.layers.set i layer').map (fun layer => (layer.id, layer.pos)) =
          lm.layers.map fun layer => (layer.id, layer.pos) := by
        rw [List.map_set, hid, hpos]
        rw [← List.getElem_map (fun layer : Layer => (layer.id, layer.pos))]
        · exact List.set_getElem_self _
        · rwa [List.length_map]
      show lm.placings <+: (lm.layers.set i layer').map fun layer => (layer.id, layer.pos)
      rw [hsame]
      exact List.prefix_rfl

/-- `NewLayer` appends a layer, and the placings of the older ones stay as they are. -/
theorem keepsPositions_newLayer (lm : LayerManager config) : KeepsPositions lm lm.newLayer := by
  unfold KeepsPositions placings newLayer
  rw [List.map_append]
  exact List.prefix_append _ _

/-- What is drawn in the window of a layer does not move the layer. -/
theorem keepsPositions_of_updateWindow {f : Window → Option Window}
    (h : lm.updateWindow id f = some lm') : KeepsPositions lm lm' := by
  obtain ⟨layer, window, window', hderef, -, -, rfl⟩ := exists_of_updateWindow h
  exact keepsPositions_assign hderef rfl rfl

/-- A change of a layer that keeps its id and its position keeps all placings, since the layer stays
at its place in the list. -/
theorem keepsPositions_of_updateLayer {f : Layer → Layer} (hid : ∀ layer, (f layer).id = layer.id)
    (hpos : ∀ layer, (f layer).pos = layer.pos) (h : lm.updateLayer id f = some lm') :
    KeepsPositions lm lm' := by
  obtain ⟨layer, hderef, rfl⟩ := Option.map_eq_some_iff.mp h
  exact keepsPositions_assign hderef (hid layer) (hpos layer)

/-! ## Calls that move one layer -/

/-- The layer that an id names is given a new position. -/
theorem position_assign (h : StackInv font lm) (hderef : lm.deref (lm.findLayer id) = some layer)
    (pos : Vector2D) (id' : Nat) :
    (lm.assign (lm.findLayer id) { layer with pos := pos }).position id' =
      if id' = id then some pos else lm.position id' := by
  have hsame := (h.assign_pos hderef pos).1
  unfold position
  rw [hsame.findLayer, deref_assign hderef]
  by_cases heq : id' = id
  · rw [heq, if_pos rfl, if_pos rfl]
    rfl
  · rw [if_neg heq]
    by_cases hfind : lm.findLayer id' = lm.findLayer id
    · -- the same pointer, so the layer there has both ids
      rw [← hfind] at hderef
      have hid' : layer.id = id' := h.id_of_deref hderef
      rw [hfind] at hderef
      exact absurd (hid'.symm.trans (h.id_of_deref hderef)) heq
    · rw [if_neg hfind]

/-- With the same layers every id has the same position, also an id that is not in use and has
none. -/
theorem SameLayers.position (h : SameLayers lm lm') (id : Nat) :
    lm'.position id = lm.position id := by
  rw [position_eq, position_eq]
  unfold placings
  rw [h.layers]

/-- **`Move` and `MoveRelative`**: one layer gets its new position. -/
theorem position_moveWith (h : StackInv font lm) {newPos : Vector2D → Vector2D} {junk : Rectangle}
    (hm : lm.moveWith id newPos junk = some lm') :
    ∃ pos, lm.position id = some pos ∧
      ∀ id', lm'.position id' = if id' = id then some (newPos pos) else lm.position id' := by
  obtain ⟨layer, hderef, hrest⟩ := Option.bind_eq_some_iff.mp hm
  obtain ⟨window, -, hrest⟩ := Option.bind_eq_some_iff.mp hrest
  obtain ⟨lm₁, hdraw, hlast⟩ := Option.bind_eq_some_iff.mp hrest
  refine ⟨layer.pos, ?_, fun id' => ?_⟩
  · unfold position
    rw [hderef]
    rfl
  · rw [(sameLayers_of_drawLayerArea hlast).position, (sameLayers_of_draw hdraw).position]
    exact position_assign h hderef (newPos layer.pos) id'

end LayerManager

/-! ## Calls of the layer system -/

/-- The call moves a layer. -/
def LayerOp.Moves : LayerOp → Prop
  | .place _ _ | .move _ _ _ | .moveRelative _ _ _ => True
  | _ => False

/-- Whether a call moves a layer can be read off its name. -/
instance LayerOp.decidableMoves (op : LayerOp) : Decidable op.Moves := by
  unfold LayerOp.Moves
  split <;> infer_instance

namespace LayerSystem

variable {s s' : LayerSystem config} {id : Nat} {junk junk' : Rectangle}

/-- The title bar of the window that was active is repainted; its layer stays where it is. -/
theorem keepsPositions_of_deactivateActive {lm : LayerManager config}
    (h : s.deactivateActive font junk = some lm) : KeepsPositions s.manager lm := by
  unfold deactivateActive at h
  split_ifs at h
  · obtain ⟨lm₁, hu, hdraw⟩ := Option.bind_eq_some_iff.mp h
    exact (keepsPositions_of_updateWindow hu).trans
      (sameLayers_of_drawLayerArea hdraw).keepsPositions
  · cases h
    exact keepsPositions_of_layers rfl

/-- A layer that is raised changes its place in the stack and its title bar, not its position. -/
theorem keepsPositions_of_raise {lm lm' : LayerManager config} {mouseLayer : Nat}
    (h : raise font mouseLayer lm id junk = some lm') : KeepsPositions lm lm' := by
  unfold raise at h
  split_ifs at h
  · obtain ⟨lm₁, hu, hrest⟩ := Option.bind_eq_some_iff.mp h
    obtain ⟨height, -, hdraw⟩ := Option.bind_eq_some_iff.mp hrest
    have hupDown : KeepsPositions lm₁ (lm₁.upDown id (height - 1)) :=
      keepsPositions_of_layers (upDown_layers lm₁ id (height - 1)).1
    exact (keepsPositions_of_updateWindow hu).trans
      (hupDown.trans (sameLayers_of_drawLayerArea hdraw).keepsPositions)
  · cases h
    exact keepsPositions_of_layers rfl

/-- **`Activate`** moves no layer: both of its parts, the deactivation and the raising, keep the
placings. -/
theorem keepsPositions_of_activate (h : s.activate font id junk junk' = some s') :
    KeepsPositions s.manager s'.manager := by
  unfold activate at h
  split_ifs at h
  · cases h
    exact keepsPositions_of_layers rfl
  · obtain ⟨lm, hd, hrest⟩ := Option.bind_eq_some_iff.mp h
    obtain ⟨lm', hr, rfl⟩ := Option.map_eq_some_iff.mp hrest
    exact (keepsPositions_of_deactivateActive hd).trans (keepsPositions_of_raise hr)

/-- **The other calls leave every layer where it is.** -/
theorem keepsPositions_of_step {op : LayerOp} (hop : ¬op.Moves) (h : s.step font op = some s') :
    KeepsPositions s.manager s'.manager := by
  cases op with
  | place id pos => exact absurd trivial hop
  | move id newPos junk => exact absurd trivial hop
  | moveRelative id posDiff junk => exact absurd trivial hop
  | activate id junk junk' => exact keepsPositions_of_activate h
  | setMouseLayer id =>
      cases h
      exact keepsPositions_of_layers rfl
  | newLayer =>
      cases h
      exact keepsPositions_newLayer s.manager
  | upDown id newHeight =>
      cases h
      exact keepsPositions_of_layers (upDown_layers s.manager id newHeight).1
  | hide id =>
      cases h
      exact keepsPositions_of_layers rfl
  | setWindow id window =>
      obtain ⟨lm, hlm, rfl⟩ := Option.map_eq_some_iff.mp h
      refine keepsPositions_of_updateLayer ?_ ?_ hlm
      · exact fun _ => rfl
      · exact fun _ => rfl
  | setDraggable id draggable =>
      obtain ⟨lm, hlm, rfl⟩ := Option.map_eq_some_iff.mp h
      refine keepsPositions_of_updateLayer ?_ ?_ hlm
      · exact fun _ => rfl
      · exact fun _ => rfl
  | write id calls =>
      obtain ⟨lm, hlm, rfl⟩ := Option.map_eq_some_iff.mp h
      exact keepsPositions_of_updateWindow hlm
  | draw area =>
      obtain ⟨lm, hlm, rfl⟩ := Option.map_eq_some_iff.mp h
      exact (sameLayers_of_draw hlm).keepsPositions
  | drawLayer id junk =>
      obtain ⟨lm, hlm, rfl⟩ := Option.map_eq_some_iff.mp h
      exact (sameLayers_of_drawLayerArea hlm).keepsPositions
  | drawLayerArea id area junk =>
      obtain ⟨lm, hlm, rfl⟩ := Option.map_eq_some_iff.mp h
      exact (sameLayers_of_drawLayerArea hlm).keepsPositions

end LayerSystem

end UhyokOS
