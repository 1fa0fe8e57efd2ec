import UhyokOS.Graphics.Window
import UhyokOS.Lib.Transition
import Mathlib.Data.List.Basic

/-!
# The layer manager

The model of `kernel/layer.cpp`: `Layer`, `LayerManager` after `SetWriter`, and `ActiveLayer`. A
`Layer*` is the position of its `unique_ptr` in `layers_`, or `none` for the null pointer; a
`vector` iterator is an index. Each layer owns its window: every caller of `SetWindow` hands over a
window that it has just made. `latest_id_` does not overflow. A function is undefined (`none`) where
the source follows a null pointer or accesses memory out of bounds.

`Draw` of one layer copies from a rectangle that is only assigned when the layer is displayed; the
value of the unassigned variable is an argument here (`junk`), about which nothing is known.
-/

namespace UhyokOS

open FrameBufferConfig

/-- Source: `kernel/layer.hpp`, `Layer` -/
structure Layer where
  id : Nat
  pos : Vector2D := ⟨0, 0⟩
  window : Option Window := none
  draggable : Bool := false

/-- A `Layer*`; `none` is the null pointer. -/
abbrev LayerPtr := Option Nat

/-- The configuration that `SetWriter` gives the back buffer.
Source: `kernel/layer.cpp`, `LayerManager::SetWriter` -/
abbrev backConfig (config : FrameBufferConfig) : FrameBufferConfig :=
  ownMemory config.horizontalResolution config.verticalResolution config.pixelFormat

/-- Source: `kernel/layer.hpp`, `LayerManager` -/
structure LayerManager (config : FrameBufferConfig) where
  /-- `*screen_` -/
  screen : FrameBuffer config
  /-- `back_buffer_` -/
  backBuffer : FrameBuffer (backConfig config) := .zeros _
  /-- `layers_` -/
  layers : List Layer := []
  /-- `layer_stack_`, bottom first -/
  layerStack : List LayerPtr := []
  /-- `latest_id_` -/
  latestId : Nat := 0

/-- Source: `kernel/layer.cpp`, `Layer::DrawTo` -/
def Layer.drawTo {config : FrameBufferConfig} (layer : Layer) (screen : FrameBuffer config)
    (area : Rectangle) : Option (FrameBuffer config) :=
  match layer.window with
  | some window => window.drawTo screen layer.pos area
  | none => some screen

namespace LayerManager

variable {config : FrameBufferConfig}

/-- The layer a pointer points to, undefined for the null pointer. -/
def deref (lm : LayerManager config) (p : LayerPtr) : Option Layer := p.bind fun i => lm.layers[i]?

/-- Write through a pointer. -/
def assign (lm : LayerManager config) (p : LayerPtr) (layer : Layer) : LayerManager config :=
  match p with
  | some i => { lm with layers := lm.layers.set i layer }
  | none => lm

/-- Source: `kernel/layer.cpp`, `LayerManager::NewLayer` -/
def newLayer (lm : LayerManager config) : LayerManager config :=
  { lm with
    latestId := lm.latestId + 1
    layers := lm.layers ++ [{ id := lm.latestId + 1 }] }

/-- Source: `kernel/layer.cpp`, `LayerManager::FindLayer` -/
def findLayer (lm : LayerManager config) (id : Nat) : LayerPtr :=
  lm.layers.findIdx? fun layer => layer.id == id

/-- The loop of `GetHeight` from height `h` on.
Source: `kernel/layer.cpp`, `LayerManager::GetHeight` -/
def heightFrom (lm : LayerManager config) (id : Nat) : Nat → List LayerPtr → Option Int
  | _, [] => some (-1)
  | h, p :: stack =>
      (lm.deref p).bind fun layer =>
        if layer.id = id then some h else lm.heightFrom id (h + 1) stack

/-- Source: `kernel/layer.cpp`, `LayerManager::GetHeight` -/
def getHeight (lm : LayerManager config) (id : Nat) : Option Int :=
  lm.heightFrom id 0 lm.layerStack

/-- Source: `kernel/layer.cpp`, `LayerManager::Hide` -/
def hide (lm : LayerManager config) (id : Nat) : LayerManager config :=
  { lm with layerStack := lm.layerStack.erase (lm.findLayer id) }

/-- Source: `kernel/layer.cpp`, `LayerManager::UpDown` -/
def upDown (lm : LayerManager config) (id : Nat) (newHeight : Int) : LayerManager config :=
  if newHeight < 0 then lm.hide id
  else
    let size := lm.layerStack.length
    let newPos := if newHeight > size then size else newHeight.toNat
    let layer := lm.findLayer id
    if layer ∉ lm.layerStack then
      { lm with layerStack := lm.layerStack.insertIdx newPos layer }
    else
      let newPos := if newPos = size then newPos - 1 else newPos
      { lm with layerStack := (lm.layerStack.erase layer).insertIdx newPos layer }

/-- The layer is on the stack. -/
def Displayed (lm : LayerManager config) (id : Nat) : Prop := lm.findLayer id ∈ lm.layerStack

instance decidableDisplayed (lm : LayerManager config) (id : Nat) : Decidable (lm.Displayed id) :=
  inferInstanceAs (Decidable (lm.findLayer id ∈ lm.layerStack))

/-! ## Drawing -/

/-- Draw some layers of the stack, the first at the bottom. -/
def drawLayers (lm : LayerManager config) (area : Rectangle) (stack : List LayerPtr)
    (back : FrameBuffer (backConfig config)) : Option (FrameBuffer (backConfig config)) :=
  stack.foldlM (fun back p => (lm.deref p).bind fun layer => layer.drawTo back area) back

/-- Copy a part of the back buffer to the screen. -/
def copyToScreen (lm : LayerManager config) (back : FrameBuffer (backConfig config))
    (area : Rectangle) : Option (LayerManager config) :=
  (lm.screen.copy area.pos back area).map fun (_, screen) =>
    { lm with backBuffer := back, screen := screen }

/-- Source: `kernel/layer.cpp`, `LayerManager::Draw(const Rectangle<int>&)` -/
def draw (lm : LayerManager config) (area : Rectangle) : Option (LayerManager config) :=
  (lm.drawLayers area lm.layerStack lm.backBuffer).bind fun back => lm.copyToScreen back area

/-- The loop of `Draw` over the layers that are left, with its variables `area`, `window_area` and
`draw`.
Source: `kernel/layer.cpp`, `LayerManager::Draw(unsigned int, Rectangle<int>)` -/
def drawFrom (lm : LayerManager config) (id : Nat) :
    List LayerPtr → Rectangle → Rectangle → Bool → FrameBuffer (backConfig config) →
      Option (Rectangle × FrameBuffer (backConfig config))
  | [], _, windowArea, _, back => some (windowArea, back)
  | p :: stack, area, windowArea, draw, back =>
      (lm.deref p).bind fun layer =>
        if layer.id = id then
          layer.window.bind fun window =>
            let windowArea : Rectangle := ⟨layer.pos, window.size⟩
            if area.size.x ≥ 0 ∨ area.size.y ≥ 0 then
              let area : Rectangle := ⟨area.pos + windowArea.pos, area.size⟩
              let windowArea := windowArea.inter area
              (layer.drawTo back windowArea).bind (lm.drawFrom id stack area windowArea true)
            else (layer.drawTo back windowArea).bind (lm.drawFrom id stack area windowArea true)
        else if draw then
          (layer.drawTo back windowArea).bind (lm.drawFrom id stack area windowArea true)
        else lm.drawFrom id stack area windowArea false back

/-- Source: `kernel/layer.cpp`, `LayerManager::Draw(unsigned int, Rectangle<int>)` -/
def drawLayerArea (lm : LayerManager config) (id : Nat) (area junk : Rectangle) :
    Option (LayerManager config) :=
  (lm.drawFrom id lm.layerStack area junk false lm.backBuffer).bind fun (windowArea, back) =>
    lm.copyToScreen back windowArea

/-- Source: `kernel/layer.cpp`, `LayerManager::Draw(unsigned int)` -/
def drawLayer (lm : LayerManager config) (id : Nat) (junk : Rectangle) :
    Option (LayerManager config) :=
  lm.drawLayerArea id ⟨⟨0, 0⟩, ⟨-1, -1⟩⟩ junk

/-- The body of `Move` and `MoveRelative`, which differ in the new position only. -/
def moveWith (lm : LayerManager config) (id : Nat) (newPos : Vector2D → Vector2D)
    (junk : Rectangle) : Option (LayerManager config) :=
  (lm.deref (lm.findLayer id)).bind fun layer =>
    layer.window.bind fun window =>
      let lm := lm.assign (lm.findLayer id) { layer with pos := newPos layer.pos }
      (lm.draw ⟨layer.pos, window.size⟩).bind fun lm => lm.drawLayer id junk

/-- Source: `kernel/layer.cpp`, `LayerManager::Move` -/
def move (lm : LayerManager config) (id : Nat) (newPos : Vector2D) (junk : Rectangle) :
    Option (LayerManager config) :=
  lm.moveWith id (fun _ => newPos) junk

/-- Source: `kernel/layer.cpp`, `LayerManager::MoveRelative` -/
def moveRelative (lm : LayerManager config) (id : Nat) (posDiff : Vector2D) (junk : Rectangle) :
    Option (LayerManager config) :=
  lm.moveWith id (fun oldPos => oldPos + posDiff) junk

/-- `FindLayer(id)->GetWindow()->f()` for a function that draws in the window. -/
def updateWindow (lm : LayerManager config) (id : Nat) (f : Window → Option Window) :
    Option (LayerManager config) :=
  (lm.deref (lm.findLayer id)).bind fun layer =>
    layer.window.bind fun window =>
      (f window).map fun window' =>
        lm.assign (lm.findLayer id) { layer with window := some window' }

end LayerManager

/-! ## The active layer -/

/-- The layer manager with the `ActiveLayer` that refers to it.
Source: `kernel/layer.hpp`, `ActiveLayer` -/
structure LayerSystem (config : FrameBufferConfig) where
  /-- `manager_` -/
  manager : LayerManager config
  /-- `active_layer_` -/
  activeLayer : Nat := 0
  /-- `mouse_layer_` -/
  mouseLayer : Nat := 0

namespace LayerSystem

variable {config : FrameBufferConfig}

/-- The first half of `Activate`: the active layer is drawn as inactive.
Source: `kernel/layer.cpp`, `ActiveLayer::Activate` -/
def deactivateActive (font : Font) (s : LayerSystem config) (junk : Rectangle) :
    Option (LayerManager config) :=
  if s.activeLayer > 0 then
    (s.manager.updateWindow s.activeLayer (Window.deactivate font)).bind fun lm =>
      lm.drawLayer s.activeLayer junk
  else some s.manager

/-- The second half of `Activate`, where the active layer is already the new one.
Source: `kernel/layer.cpp`, `ActiveLayer::Activate` -/
def raise (font : Font) (mouseLayer : Nat) (lm : LayerManager config) (layerId : Nat)
    (junk : Rectangle) : Option (LayerManager config) :=
  if layerId > 0 then
    (lm.updateWindow layerId (Window.activate font)).bind fun lm =>
      (lm.getHeight mouseLayer).bind fun height =>
        (lm.upDown layerId (height - 1)).drawLayer layerId junk
  else some lm

/-- The two draws are given their own unassigned rectangles.
Source: `kernel/layer.cpp`, `ActiveLayer::Activate` -/
def activate (font : Font) (s : LayerSystem config) (layerId : Nat) (junk junk' : Rectangle) :
    Option (LayerSystem config) :=
  if s.activeLayer = layerId then some s
  else
    (s.deactivateActive font junk).bind fun lm =>
      (raise font s.mouseLayer lm layerId junk').map fun lm =>
        { s with manager := lm, activeLayer := layerId }

end LayerSystem

end UhyokOS
