import UhyokOS.Layer.Active

/-!
# Heights of layers

What the users of `UpDown` and `Hide` rely on: the height they ask for is the height that
`GetHeight` reports, a layer that is taken off the stack has height `-1`, and the other layers keep
their order.

* `getHeight_upDown`, `getHeight_hide`: the height afterwards.
* `layer_stack_heights`: these facts in every reachable state, with the shape of the stack.
-/

namespace UhyokOS

open Restack

variable {config : FrameBufferConfig}

namespace LayerManager

variable {font : Font} {lm lm' : LayerManager config} {id : Nat}

/-- A layer that is not on the stack has no height. -/
theorem getHeight_of_notMem (h : StackInv font lm) (hid : lm.Exists id)
    (hmem : lm.findLayer id ∉ lm.layerStack) : lm.getHeight id = some (-1) := by
  rw [getHeight_eq h hid, if_neg hmem]

/-- **The height after `UpDown`** is the one asked for, or the top. -/
theorem getHeight_upDown (h : StackInv font lm) (hid : lm.Exists id) {newHeight : Int}
    (hpos : 0 ≤ newHeight) : (lm.upDown id newHeight).getHeight id =
      some (min newHeight ((lm.upDown id newHeight).layerStack.length - 1)) := by
  have hstack : (lm.upDown id newHeight).layerStack =
      restack lm.layerStack newHeight.toNat (lm.findLayer id) := by
    rw [upDown_layerStack, if_neg (not_lt.mpr hpos)]
  have hid' : (lm.upDown id newHeight).Exists id := (upDown_exists_iff lm id newHeight).mpr hid
  have hlen : 0 < (restack lm.layerStack newHeight.toNat (lm.findLayer id)).length :=
    length_restack_pos
  rw [getHeight_eq (h.upDown hid newHeight) hid', upDown_findLayer, hstack,
    if_pos (mem_restack.mpr (Or.inl rfl)), idxOf_restack h.nodup]
  congr 1
  omega

/-- **The height after `Hide`.** -/
theorem getHeight_hide (h : StackInv font lm) (hid : lm.Exists id) :
    (lm.hide id).getHeight id = some (-1) :=
  getHeight_of_notMem (h.hide id) hid h.nodup.not_mem_erase

/-- A negative height hides the layer. -/
theorem upDown_of_neg (lm : LayerManager config) (id : Nat) {newHeight : Int}
    (hneg : newHeight < 0) : lm.upDown id newHeight = lm.hide id := by
  unfold upDown
  rw [if_pos hneg]

/-- **The other layers keep their order.** -/
theorem upDown_erase (h : StackInv font lm) (id : Nat) (newHeight : Int) :
    (lm.upDown id newHeight).layerStack.erase (lm.findLayer id) =
      lm.layerStack.erase (lm.findLayer id) := by
  rw [upDown_layerStack]
  split_ifs
  · exact List.erase_of_not_mem h.nodup.not_mem_erase
  · exact erase_restack h.nodup

end LayerManager

namespace LayerSystem

open LayerManager

/-- What a caller may rely on when it shows, moves or hides the layer with an id. -/
structure ExactHeights (lm : LayerManager config) (id : Nat) : Prop where
  shown : ∀ newHeight : Int, 0 ≤ newHeight → (lm.upDown id newHeight).getHeight id =
    some (min newHeight ((lm.upDown id newHeight).layerStack.length - 1))
  negative : ∀ newHeight : Int, newHeight < 0 → (lm.upDown id newHeight).getHeight id = some (-1)
  hidden : (lm.hide id).getHeight id = some (-1)
  /-- The stack without the layer is the one before without the layer. -/
  others_upDown : ∀ newHeight : Int,
    (lm.upDown id newHeight).layerStack.erase (lm.findLayer id) =
      lm.layerStack.erase (lm.findLayer id)
  others_hide : (lm.hide id).layerStack = lm.layerStack.erase (lm.findLayer id)

/-- **The layer stack is a duplicate-free stack with exact heights.** In every state reached by
calls of `NewLayer`, `UpDown`, `Hide` and the other functions: no pointer on the stack is null or
foreign and none is there twice; `UpDown` and `Hide` of an existing layer lead to the height asked
for and keep the order of the others; and `NewLayer` leaves the stack as it is. -/
theorem layer_stack_heights {font : Font} {screen : FrameBuffer config} {s : LayerSystem config}
    (h : s.Reachable font screen) :
    (∀ p ∈ s.manager.layerStack, ∃ i, p = some i ∧ i < s.manager.layers.length) ∧
      s.manager.layerStack.Nodup ∧
      (∀ id, s.manager.Exists id → ExactHeights s.manager id) ∧
      s.manager.newLayer.layerStack = s.manager.layerStack := by
  have hinv : StackInv font s.manager := h.inOrder
  refine ⟨fun p hp => ?_, hinv.nodup, fun id hid => ?_, rfl⟩
  · obtain ⟨layer, hderef, -⟩ := hinv.deref hp
    obtain ⟨i, rfl, hget⟩ := Option.bind_eq_some_iff.mp hderef
    exact ⟨i, rfl, (List.getElem?_eq_some_iff.mp hget).1⟩
  · refine ⟨fun newHeight hpos => getHeight_upDown hinv hid hpos, fun newHeight hneg => ?_,
      getHeight_hide hinv hid, upDown_erase hinv id, rfl⟩
    rw [upDown_of_neg s.manager id hneg]
    exact getHeight_hide hinv hid

/-- The new terminal on the desktop, shown under two other layers and hidden again. -/
theorem layer_stack_heights_desktop :
    (desktop.manager.upDown 4 1).getHeight 4 = some 1 ∧
      (desktop.manager.upDown 4 9).getHeight 4 = some 3 ∧
      (desktop.manager.upDown 3 (-1)).getHeight 3 = some (-1) := by
  obtain ⟨-, -, hexact, -⟩ := layer_stack_heights desktop_reachable
  refine ⟨?_, ?_, (hexact 3 (by decide)).negative (-1) (by decide)⟩
  · rw [(hexact 4 (by decide)).shown 1 (by decide)]
    decide
  · rw [(hexact 4 (by decide)).shown 9 (by decide)]
    decide

end LayerSystem

end UhyokOS
