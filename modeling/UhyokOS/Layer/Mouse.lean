import UhyokOS.Layer.HitTest
import UhyokOS.Layer.Positions

/-!
# The mouse

The model of `kernel/mouse.cpp`. A report moves the cursor, within the screen, and the layer of the
mouse with it. When the left button goes down on a draggable layer, that layer is grabbed; while it
stays down, the layer is moved by as much as the cursor, which may be less than the mouse.

* `handled_of_onButtons`: what the buttons of a report do.
* `carried_keeps`: one step with the button down keeps the grabbed layer in its place under the cursor.
* `drag_with_cursor`: which layers move in a run of reports, and how.
-/

namespace UhyokOS

open Transition LayerManager LayerSystem

variable {config : FrameBufferConfig} {font : Font}

/-- The left button is down.
Source: `kernel/mouse.cpp`, `Mouse::OnInterrupt` -/
def leftPressed (buttons : UInt8) : Bool := buttons &&& 0x01 != 0

/-- Source: `kernel/mouse.hpp`, `Mouse` -/
structure Mouse where
  layerId : Nat
  position : Vector2D := ⟨0, 0⟩
  dragLayerId : Nat := 0
  previousButtons : UInt8 := 0

/-- The mouse, the layers and the active layer. -/
structure MouseSystem (config : FrameBufferConfig) where
  layers : LayerSystem config
  mouse : Mouse

namespace MouseSystem

/-- Put the cursor and the layer of the mouse at a position.
Source: `kernel/mouse.cpp`, `Mouse::SetPosition` -/
def setPosition (s : MouseSystem config) (position : Vector2D) (junk : Rectangle) :
    Option (MouseSystem config) :=
  (s.layers.withManager (s.layers.manager.move s.mouse.layerId position junk)).map fun layers =>
    { layers := layers, mouse := { s.mouse with position := position } }

/-- The position of the cursor after a report.
Source: `kernel/mouse.cpp`, `Mouse::OnInterrupt` -/
def cursorAfter (s : MouseSystem config) (displacementX displacementY : Int8) : Vector2D :=
  let newpos := s.mouse.position + ⟨displacementX.toInt, displacementY.toInt⟩
  let newpos := Vector2D.elementMin newpos (config.frameBufferSize + ⟨-1, -1⟩)
  Vector2D.elementMax newpos ⟨0, 0⟩

/-- The draggable layer under the cursor, if there is one.
Source: `kernel/mouse.cpp`, `Mouse::OnInterrupt` -/
def draggableUnder (s : MouseSystem config) : Option (Option Layer) :=
  (s.layers.manager.findLayerByPosition s.mouse.position s.mouse.layerId).bind fun ptr =>
    match ptr with
    | none => some none
    | some i =>
        (s.layers.manager.deref (some i)).map fun layer =>
          if layer.draggable then some layer else none

/-- What the buttons of a report do, once the cursor has moved by `posDiff`.
Source: `kernel/mouse.cpp`, `Mouse::OnInterrupt` -/
def onButtons (font : Font) (s : MouseSystem config) (buttons : UInt8) (posDiff : Vector2D)
    (junk junk' : Rectangle) : Option (MouseSystem config) :=
  let previousLeftPressed := leftPressed s.mouse.previousButtons
  let leftPressed := leftPressed buttons
  if !previousLeftPressed && leftPressed then
    s.draggableUnder.bind fun layer =>
      match layer with
      | some layer =>
          (s.layers.activate font layer.id junk junk').map fun layers =>
            { layers := layers, mouse := { s.mouse with dragLayerId := layer.id } }
      | none => (s.layers.activate font 0 junk junk').map fun layers => { s with layers := layers }
  else if previousLeftPressed && leftPressed then
    if s.mouse.dragLayerId > 0 then
      (s.layers.withManager
        (s.layers.manager.moveRelative s.mouse.dragLayerId posDiff junk)).map fun layers =>
          { s with layers := layers }
    else some s
  else if previousLeftPressed && !leftPressed then
    some { s with mouse := { s.mouse with dragLayerId := 0 } }
  else some s

/-- A report of the mouse. The draws are given their own unassigned rectangles.
Source: `kernel/mouse.cpp`, `Mouse::OnInterrupt` -/
def onInterrupt (font : Font) (s : MouseSystem config) (buttons : UInt8)
    (displacementX displacementY : Int8) (junk junk₁ junk₂ : Rectangle) :
    Option (MouseSystem config) :=
  let oldpos := s.mouse.position
  let position := s.cursorAfter displacementX displacementY
  let posDiff := position - oldpos
  (s.setPosition position junk).bind fun s =>
    (s.onButtons font buttons posDiff junk₁ junk₂).map fun s =>
      { s with mouse := { s.mouse with previousButtons := buttons } }

end MouseSystem

/-! ## Runs -/

/-- Reports of the mouse, and calls of the other tasks in between. -/
inductive MouseOp
  | report (buttons : UInt8) (displacementX displacementY : Int8) (junk junk₁ junk₂ : Rectangle)
  | call (op : LayerOp)

namespace MouseSystem

/-- One report or call. -/
def step (font : Font) (s : MouseSystem config) : MouseOp → Option (MouseSystem config)
  | .report buttons displacementX displacementY junk junk₁ junk₂ =>
      s.onInterrupt font buttons displacementX displacementY junk junk₁ junk₂
  | .call op => (s.layers.step font op).map fun layers => { s with layers := layers }

end MouseSystem

/-- Any report may come. The calls in between do not move layers. -/
def MouseOp.Permitted (font : Font) (s : MouseSystem config) : MouseOp → Prop
  | .report _ _ _ _ _ _ => True
  | .call op => op.Permitted font s.layers ∧ ¬op.Moves

instance MouseOp.decidablePermitted (font : Font) (s : MouseSystem config) (op : MouseOp) :
    Decidable (op.Permitted font s) := by
  unfold MouseOp.Permitted
  split <;> infer_instance

/-- The left button is not reported as released. -/
def MouseOp.Holds : MouseOp → Prop
  | .report buttons _ _ _ _ _ => leftPressed buttons = true
  | .call _ => True

instance MouseOp.decidableHolds (op : MouseOp) : Decidable op.Holds := by
  unfold MouseOp.Holds
  split <;> infer_instance

namespace MouseSystem

/-- The mouse has just been created on a screen with layers. -/
structure Fresh (font : Font) (screen : FrameBuffer config) (s : MouseSystem config) : Prop where
  layers : s.layers.Reachable font screen
  noDrag : s.mouse.dragLayerId = 0
  noButtons : s.mouse.previousButtons = 0

/-- The step is a report by which the left button goes down, with a draggable layer under the cursor,
which is remembered. -/
def Grabs (s : MouseSystem config) (op : MouseOp) (s' : MouseSystem config) : Prop :=
  ∃ buttons displacementX displacementY junk junk₁ junk₂ moved layer,
    op = .report buttons displacementX displacementY junk junk₁ junk₂ ∧
    leftPressed s.mouse.previousButtons = false ∧ leftPressed buttons = true ∧
    s.setPosition (s.cursorAfter displacementX displacementY) junk = some moved ∧
    moved.draggableUnder = some (some layer) ∧ s'.mouse.dragLayerId = layer.id

/-- Where a layer is, seen from the cursor. -/
def offset (s : MouseSystem config) (id : Nat) : Option Vector2D :=
  (s.layers.manager.position id).map (· - s.mouse.position)

variable {screen : FrameBuffer config} {s s' moved : MouseSystem config} {op : MouseOp} {id : Nat}
  {buttons : UInt8} {displacementX displacementY : Int8} {posDiff position : Vector2D}
  {junk junk' junk₁ junk₂ : Rectangle}

/-! ## What a report does -/

/-- The cursor stays on the screen. -/
theorem contains_cursorAfter (hscreen : ∃ p, config.outline.Contains p) (s : MouseSystem config)
    (displacementX displacementY : Int8) :
    config.outline.Contains (s.cursorAfter displacementX displacementY) := by
  obtain ⟨p, hx, hw, hy, hh⟩ := hscreen
  unfold FrameBufferConfig.outline Rectangle.Contains at *
  simp only [Int.zero_add] at *
  unfold cursorAfter
  simp only [Vector2D.elementMax_x, Vector2D.elementMax_y, Vector2D.elementMin_x,
    Vector2D.elementMin_y, Vector2D.add_x, Vector2D.add_y]
  omega

/-- What `SetPosition` does. -/
theorem exists_of_setPosition (h : s.setPosition position junk = some s') :
    ∃ lm, s.layers.manager.move s.mouse.layerId position junk = some lm ∧
      s' = { layers := { s.layers with manager := lm }
             mouse := { s.mouse with position := position } } := by
  obtain ⟨layers, hlayers, rfl⟩ := Option.map_eq_some_iff.mp h
  obtain ⟨lm, hlm, rfl⟩ := Option.map_eq_some_iff.mp hlayers
  exact ⟨lm, hlm, rfl⟩

/-- The five things that the buttons of a report can mean. -/
inductive Handled (font : Font) (s : MouseSystem config) (buttons : UInt8) (posDiff : Vector2D)
    (junk junk' : Rectangle) : MouseSystem config → Prop
  /-- The button goes down on a draggable layer. -/
  | grab {layer : Layer} {layers : LayerSystem config}
      (before : leftPressed s.mouse.previousButtons = false) (now : leftPressed buttons = true)
      (under : s.draggableUnder = some (some layer))
      (activated : s.layers.activate font layer.id junk junk' = some layers) :
      Handled font s buttons posDiff junk junk'
        { layers := layers, mouse := { s.mouse with dragLayerId := layer.id } }
  /-- The button goes down elsewhere. -/
  | miss {layers : LayerSystem config} (before : leftPressed s.mouse.previousButtons = false)
      (activated : s.layers.activate font 0 junk junk' = some layers) :
      Handled font s buttons posDiff junk junk' { s with layers := layers }
  /-- The button stays down, and a layer is grabbed. -/
  | drag {lm : LayerManager config} (before : leftPressed s.mouse.previousButtons = true)
      (now : leftPressed buttons = true) (grabbed : s.mouse.dragLayerId ≠ 0)
      (dragged : s.layers.manager.moveRelative s.mouse.dragLayerId posDiff junk = some lm) :
      Handled font s buttons posDiff junk junk' { s with layers := { s.layers with manager := lm } }
  /-- The button goes up. -/
  | release (now : leftPressed buttons = false) : Handled font s buttons posDiff junk junk'
        { s with mouse := { s.mouse with dragLayerId := 0 } }
  /-- The button stays up, or it stays down and no layer is grabbed. -/
  | idle (free : leftPressed s.mouse.previousButtons = true → s.mouse.dragLayerId = 0) :
      Handled font s buttons posDiff junk junk' s

theorem handled_of_onButtons (h : s.onButtons font buttons posDiff junk junk' = some s') :
    Handled font s buttons posDiff junk junk' s' := by
  unfold onButtons at h
  simp only at h
  cases hbefore : leftPressed s.mouse.previousButtons with
  | false =>
      cases hnow : leftPressed buttons with
      | false =>
          rw [hbefore, hnow] at h
          cases h
          exact .idle fun htrue => absurd (hbefore.symm.trans htrue) Bool.false_ne_true
      | true =>
          rw [hbefore, hnow] at h
          obtain ⟨layer?, hunder, hrest⟩ := Option.bind_eq_some_iff.mp h
          cases layer? with
          | none =>
              obtain ⟨layers, hlayers, rfl⟩ := Option.map_eq_some_iff.mp hrest
              exact .miss hbefore hlayers
          | some layer =>
              obtain ⟨layers, hlayers, rfl⟩ := Option.map_eq_some_iff.mp hrest
              exact .grab hbefore hnow hunder hlayers
  | true =>
      cases hnow : leftPressed buttons with
      | false =>
          rw [hbefore, hnow] at h
          cases h
          exact .release hnow
      | true =>
          rw [hbefore, hnow] at h
          simp only [Bool.not_true, Bool.and_true, Bool.false_eq_true, if_false, if_true] at h
          split_ifs at h with hgrabbed
          · obtain ⟨layers, hlayers, rfl⟩ := Option.map_eq_some_iff.mp h
            obtain ⟨lm, hlm, rfl⟩ := Option.map_eq_some_iff.mp hlayers
            exact .drag hbefore hnow (Nat.ne_of_gt hgrabbed) hlm
          · cases h
            exact .idle fun _ => Nat.eq_zero_of_not_pos hgrabbed

/-- What a report does. -/
theorem exists_of_onInterrupt
    (h : s.onInterrupt font buttons displacementX displacementY junk junk₁ junk₂ = some s') :
    ∃ moved handled, s.setPosition (s.cursorAfter displacementX displacementY) junk = some moved ∧
      Handled font moved buttons (s.cursorAfter displacementX displacementY - s.mouse.position)
        junk₁ junk₂ handled ∧
      s' = { handled with mouse := { handled.mouse with previousButtons := buttons } } := by
  obtain ⟨moved, hmoved, hrest⟩ := Option.bind_eq_some_iff.mp h
  obtain ⟨handled, hhandled, rfl⟩ := Option.map_eq_some_iff.mp hrest
  exact ⟨moved, handled, hmoved, handled_of_onButtons hhandled, rfl⟩

/-- The buttons leave the cursor and the id of the mouse layer alone. -/
theorem Handled.sameMouse (h : Handled font s buttons posDiff junk junk' s') :
    s'.mouse.position = s.mouse.position ∧ s'.mouse.layerId = s.mouse.layerId := by
  cases h <;> exact ⟨rfl, rfl⟩

/-! ## The layers stay in order -/

theorem stackInv_of_setPosition (h : StackInv font s.layers.manager)
    (hs : s.setPosition position junk = some s') : StackInv font s'.layers.manager := by
  obtain ⟨lm, hlm, rfl⟩ := exists_of_setPosition hs
  exact (h.moveWith hlm).2

theorem Handled.stackInv (h : StackInv font s.layers.manager)
    (hs : Handled font s buttons posDiff junk junk' s') : StackInv font s'.layers.manager := by
  cases hs with
  | grab before now under activated => exact stackInv_of_activate h activated
  | miss before activated => exact stackInv_of_activate h activated
  | drag before now grabbed dragged => exact (h.moveWith dragged).2
  | release now => exact h
  | idle free => exact h

theorem stackInv_keeps (font : Font) :
    Keeps (step font : MouseSystem config → MouseOp → Option (MouseSystem config))
      (fun s op => op.Permitted font s) fun s =>
      StackInv font s.layers.manager := by
  intro s op s' h hok hs
  cases op with
  | report buttons displacementX displacementY junk junk₁ junk₂ =>
      obtain ⟨moved, handled, hmoved, hhandled, rfl⟩ := exists_of_onInterrupt hs
      have hinv : StackInv font handled.layers.manager :=
        hhandled.stackInv (stackInv_of_setPosition h hmoved)
      exact hinv
  | call op =>
      obtain ⟨layers, hlayers, rfl⟩ := Option.map_eq_some_iff.mp hs
      exact inOrder_keeps font s.layers op layers h hok.1 hlayers

/-! ## What stays where it is -/

theorem position_of_setPosition (h : StackInv font s.layers.manager)
    (hs : s.setPosition position junk = some s') (hne : id ≠ s.mouse.layerId) :
    s'.layers.manager.position id = s.layers.manager.position id := by
  obtain ⟨lm, hlm, rfl⟩ := exists_of_setPosition hs
  obtain ⟨pos, -, hpos⟩ := position_moveWith h hlm
  exact (hpos id).trans (if_neg hne)

/-- The buttons move no other layer than the one that is grabbed. -/
theorem Handled.keeps_position (h : StackInv font s.layers.manager)
    (hs : Handled font s buttons posDiff junk junk' s') (hne : id ≠ s.mouse.dragLayerId)
    {q : Vector2D} (hq : s.layers.manager.position id = some q) :
    s'.layers.manager.position id = some q := by
  cases hs with
  | grab before now under activated => exact (keepsPositions_of_activate activated).position hq
  | miss before activated => exact (keepsPositions_of_activate activated).position hq
  | drag before now grabbed dragged =>
      obtain ⟨pos, -, hpos⟩ := position_moveWith h dragged
      exact ((hpos id).trans (if_neg hne)).trans hq
  | release now => exact hq
  | idle free => exact hq

/-- **No other layer moves**: the step lemma. -/
theorem step_keeps_position (h : StackInv font s.layers.manager) (hok : op.Permitted font s)
    (hs : s.step font op = some s') (hmouse : id ≠ s.mouse.layerId)
    (hdrag : id ≠ s.mouse.dragLayerId) {q : Vector2D}
    (hq : s.layers.manager.position id = some q) : s'.layers.manager.position id = some q := by
  cases op with
  | report buttons displacementX displacementY junk junk₁ junk₂ =>
      obtain ⟨moved, handled, hmoved, hhandled, rfl⟩ := exists_of_onInterrupt hs
      have hdrag' : id ≠ moved.mouse.dragLayerId := by
        obtain ⟨lm, -, rfl⟩ := exists_of_setPosition hmoved
        exact hdrag
      have hkept : handled.layers.manager.position id = some q :=
        hhandled.keeps_position (stackInv_of_setPosition h hmoved) hdrag'
          ((position_of_setPosition h hmoved hmouse).trans hq)
      exact hkept
  | call op =>
      obtain ⟨layers, hlayers, rfl⟩ := Option.map_eq_some_iff.mp hs
      exact (keepsPositions_of_step hok.2 hlayers).position hq

/-! ## The grabbed layer -/

/-- The draggable layer under the cursor exists and is not that of the mouse. -/
theorem exists_of_draggableUnder (h : StackInv font s.layers.manager) {layer : Layer}
    (hunder : s.draggableUnder = some (some layer)) :
    layer.id ≠ 0 ∧ layer.id ≠ s.mouse.layerId ∧
      ∃ q, s.layers.manager.position layer.id = some q := by
  obtain ⟨ptr, hfind, hrest⟩ := Option.bind_eq_some_iff.mp hunder
  cases ptr with
  | none => cases hrest
  | some i =>
      obtain ⟨layer', hderef, hdraggable⟩ := Option.map_eq_some_iff.mp hrest
      split_ifs at hdraggable
      cases hdraggable
      obtain ⟨layer', hderef', hhit⟩ := hits_of_findFrom hfind
      cases hderef.symm.trans hderef'
      have hmem : layer.id ∈ s.layers.manager.layers.map (·.id) :=
        List.mem_map.mpr ⟨layer, mem_of_deref hderef, rfl⟩
      rw [h.ids, List.mem_range'_1] at hmem
      have hexists : s.layers.manager.Exists layer.id := ⟨hmem.1, by omega⟩
      obtain ⟨layer', hlayer', -, -⟩ := deref_findLayer h hexists
      refine ⟨Nat.ne_of_gt hmem.1, fun heq => ?_, layer'.pos, ?_⟩
      · unfold Layer.hit at hhit
        rw [if_pos heq] at hhit
        cases hhit
      · unfold LayerManager.position
        rw [hlayer']
        rfl

/-- A layer is carried along: it is grabbed, the button is down, and it has a place under the
cursor. -/
structure Carried (font : Font) (id : Nat) (place : Vector2D) (s : MouseSystem config) : Prop where
  inOrder : StackInv font s.layers.manager
  pressed : leftPressed s.mouse.previousButtons = true
  grabbed : s.mouse.dragLayerId = id
  ne_zero : id ≠ 0
  ne_mouse : id ≠ s.mouse.layerId
  place : s.offset id = some place

/-- A layer that is grabbed is carried along from then on. -/
theorem carried_of_grabs (h : StackInv font s.layers.manager) (hgrabs : s.Grabs op s')
    (hs : s.step font op = some s') : ∃ place, Carried font s'.mouse.dragLayerId place s' := by
  obtain ⟨buttons, displacementX, displacementY, junk, junk₁, junk₂, moved, layer, rfl, hbefore, hnow,
    hmoved, hunder, hdrag⟩ := hgrabs
  obtain ⟨moved', handled, hmoved', hhandled, rfl⟩ := exists_of_onInterrupt hs
  cases hmoved.symm.trans hmoved'
  have hinv := stackInv_of_setPosition h hmoved
  obtain ⟨hzero, hmouse, q, hq⟩ := exists_of_draggableUnder hinv hunder
  have hkept : handled.layers.manager.position layer.id = some q := by
    have hbefore' : leftPressed moved.mouse.previousButtons = false := by
      obtain ⟨lm, -, rfl⟩ := exists_of_setPosition hmoved
      exact hbefore
    cases hhandled with
    | grab before now under activated => exact (keepsPositions_of_activate activated).position hq
    | miss before activated => exact (keepsPositions_of_activate activated).position hq
    | drag before now grabbed dragged =>
        exact absurd (hbefore'.symm.trans before) Bool.false_ne_true
    | release now => exact absurd (now.symm.trans hnow) Bool.false_ne_true
    | idle free => exact hq
  have hinv' : StackInv font handled.layers.manager := hhandled.stackInv hinv
  have hmouse' : layer.id ≠ handled.mouse.layerId := by
    rw [hhandled.sameMouse.2]
    exact hmouse
  rw [hdrag]
  refine ⟨q - handled.mouse.position, hinv', hnow, hdrag, hzero, hmouse', ?_⟩
  show (handled.layers.manager.position layer.id).map _ = _
  rw [hkept]
  rfl

/-- **A carried layer keeps its place under the cursor**: the step lemma. -/
theorem carried_keeps (font : Font) (id : Nat) (place : Vector2D) :
    Keeps (step font : MouseSystem config → MouseOp → Option (MouseSystem config))
      (fun s op => op.Permitted font s ∧ op.Holds)
      (Carried font id place) := by
  intro s op s' h hok hs
  obtain ⟨hok, hholds⟩ := hok
  cases op with
  | report buttons displacementX displacementY junk junk₁ junk₂ =>
      obtain ⟨moved, handled, hmoved, hhandled, rfl⟩ := exists_of_onInterrupt hs
      have hinv := stackInv_of_setPosition h.inOrder hmoved
      have hposition := position_of_setPosition h.inOrder hmoved h.ne_mouse
      have hmouse : moved.mouse =
          { s.mouse with position := s.cursorAfter displacementX displacementY } := by
        obtain ⟨lm, -, rfl⟩ := exists_of_setPosition hmoved
        rfl
      have hpressed : leftPressed moved.mouse.previousButtons = true := by
        rw [hmouse]
        exact h.pressed
      have hgrabbed : moved.mouse.dragLayerId = id := by
        rw [hmouse]
        exact h.grabbed
      cases hhandled with
      | grab before now under activated =>
          exact absurd (before.symm.trans hpressed) Bool.false_ne_true
      | miss before activated => exact absurd (before.symm.trans hpressed) Bool.false_ne_true
      | release now => exact absurd (now.symm.trans hholds) Bool.false_ne_true
      | idle free => exact absurd (hgrabbed.symm.trans (free hpressed)) h.ne_zero
      | drag before now grabbed dragged =>
          rw [hgrabbed] at dragged
          obtain ⟨pos, hpos, hpos'⟩ := position_moveWith hinv dragged
          refine ⟨(hinv.moveWith dragged).2, hholds, hgrabbed, h.ne_zero, ?_, ?_⟩
          · show id ≠ moved.mouse.layerId
            rw [hmouse]
            exact h.ne_mouse
          · -- the layer moves by as much as the cursor has moved
            have hplace := h.place
            unfold offset at hplace ⊢
            rw [← hposition, hpos] at hplace
            show Option.map (· - moved.mouse.position) _ = _
            rw [hpos', if_pos rfl, hmouse, ← hplace, Option.map_some, Option.map_some]
            exact congrArg some (Vector2D.add_sub_sub_cancel _ _ _)
  | call op =>
      obtain ⟨layers, hlayers, rfl⟩ := Option.map_eq_some_iff.mp hs
      have hinv' := inOrder_keeps font s.layers op layers h.inOrder hok.1 hlayers
      refine ⟨hinv', h.pressed, h.grabbed, h.ne_zero, h.ne_mouse, ?_⟩
      obtain ⟨q, hq, hplace⟩ := Option.map_eq_some_iff.mp h.place
      have hq' : layers.manager.position id = some q :=
        (keepsPositions_of_step hok.2 hlayers).position hq
      show (layers.manager.position id).map _ = _
      rw [hq', ← hplace]
      rfl

/-! ## Runs with the mouse -/

/-- `InitializeMouse` puts the new mouse at a position. -/
theorem Fresh.setPosition (h : s.Fresh font screen) (hs : s.setPosition position junk = some s') :
    s'.Fresh font screen := by
  obtain ⟨layers, hlayers, rfl⟩ := Option.map_eq_some_iff.mp hs
  have hmove : s.layers.step font (.move s.mouse.layerId position junk) = some layers := hlayers
  have hok : LayerOp.Permitted font s.layers (.move s.mouse.layerId position junk) := trivial
  exact ⟨h.layers.step hok hmove, h.noDrag, h.noButtons⟩

/-- What is known after a run: a layer that is remembered was grabbed, and the button is down since. -/
structure Remembered (font : Font) (s₀ : MouseSystem config) (ops : List MouseOp)
    (s : MouseSystem config) : Prop where
  inOrder : StackInv font s.layers.manager
  pressed : s.mouse.dragLayerId ≠ 0 → leftPressed s.mouse.previousButtons = true
  since : s.mouse.dragLayerId ≠ 0 → Since (step font) s₀ Grabs MouseOp.Holds ops
    fun s₁ => s₁.mouse.dragLayerId = s.mouse.dragLayerId

theorem remembered_concat {s₀ : MouseSystem config} {ops : List MouseOp}
    (hrun : run (step font) s₀ ops = some s) (h : Remembered font s₀ ops s)
    (hok : op.Permitted font s) (hs : s.step font op = some s') :
    Remembered font s₀ (ops ++ [op]) s' := by
  have hinv := stackInv_keeps font s op s' h.inOrder hok hs
  cases op with
  | report buttons displacementX displacementY junk junk₁ junk₂ =>
      obtain ⟨moved, handled, hmoved, hhandled, rfl⟩ := exists_of_onInterrupt hs
      have hmouse : moved.mouse =
          { s.mouse with position := s.cursorAfter displacementX displacementY } := by
        obtain ⟨lm, -, rfl⟩ := exists_of_setPosition hmoved
        rfl
      have hpressed : moved.mouse.dragLayerId ≠ 0 →
          leftPressed moved.mouse.previousButtons = true := by
        rw [hmouse]
        exact h.pressed
      cases hhandled with
      | grab before now under activated =>
          rw [hmouse] at before
          exact ⟨hinv, fun _ => now, fun _ => Since.now hrun hs
            ⟨_, _, _, _, _, _, moved, _, rfl, before, now, hmoved, under, rfl⟩ rfl⟩
      | miss before activated =>
          have hfree : ∀ hne : moved.mouse.dragLayerId ≠ 0, False := fun hne =>
            Bool.false_ne_true (before.symm.trans (hpressed hne))
          exact ⟨hinv, fun hne => absurd hne hfree, fun hne => absurd hne hfree⟩
      | drag before now grabbed dragged =>
          have hsince := h.since (by rw [hmouse] at grabbed; exact grabbed)
          refine ⟨hinv, fun _ => now, fun _ => hsince.snoc now fun s₁ hs₁ => hs₁.trans ?_⟩
          rw [hmouse]
      | release now => exact ⟨hinv, fun hne => absurd rfl hne, fun hne => absurd rfl hne⟩
      | idle free =>
          have hfree : ∀ hne : moved.mouse.dragLayerId ≠ 0, False := fun hne =>
            hne (free (hpressed hne))
          exact ⟨hinv, fun hne => absurd hne hfree, fun hne => absurd hne hfree⟩
  | call op =>
      obtain ⟨layers, hlayers, rfl⟩ := Option.map_eq_some_iff.mp hs
      exact ⟨hinv, h.pressed, fun hne => (h.since hne).snoc trivial fun _ hs₁ => hs₁⟩

/-- **The last run rule**: what is known after any run from a fresh mouse. -/
theorem remembered_of_run {s₀ : MouseSystem config} (h : s₀.Fresh font screen) {ops : List MouseOp}
    (hadm : Admits (step font) (fun s op => op.Permitted font s) s₀ ops)
    (hrun : run (step font) s₀ ops = some s) : Remembered font s₀ ops s := by
  have h₀ : Remembered font s₀ [] s₀ :=
    ⟨Reachable.inOrder h.layers, fun hne => absurd h.noDrag hne, fun hne => absurd h.noDrag hne⟩
  exact run_history_of_admits h₀ (fun _ _ _ _ hrun h hok hs => remembered_concat hrun h hok hs)
    hadm hrun

/-- **Dragging moves the grabbed layer with the cursor.** After any run of reports, and of calls in
between that move no layer:

* a report leaves the cursor on the screen;
* a layer is remembered only if it was grabbed and the button has been down since;
* a layer that is grabbed now keeps its place under the cursor as long as the button is down;
* the next step moves no layer but that of the mouse and the remembered one. -/
theorem drag_with_cursor {s₀ : MouseSystem config} (h : s₀.Fresh font screen)
    (hscreen : ∃ p, config.outline.Contains p) {ops : List MouseOp}
    (hadm : Admits (step font) (fun s op => op.Permitted font s) s₀ ops)
    (hrun : run (step font) s₀ ops = some s) :
    (∀ buttons displacementX displacementY junk junk₁ junk₂ s',
      s.onInterrupt font buttons displacementX displacementY junk junk₁ junk₂ = some s' →
        config.outline.Contains s'.mouse.position) ∧
    (s.mouse.dragLayerId ≠ 0 → Since (step font) s₀ Grabs MouseOp.Holds ops
      fun s₁ => s₁.mouse.dragLayerId = s.mouse.dragLayerId) ∧
    (∀ op s₁, s.Grabs op s₁ → s.step font op = some s₁ → ∃ place, ∀ post s₂,
      Admits (step font) (fun s op => op.Permitted font s ∧ op.Holds) s₁ post →
        run (step font) s₁ post = some s₂ → s₂.mouse.dragLayerId = s₁.mouse.dragLayerId ∧
          s₂.offset s₁.mouse.dragLayerId = some place) ∧
    (∀ op s', op.Permitted font s → s.step font op = some s' → ∀ id, id ≠ s.mouse.layerId →
      id ≠ s.mouse.dragLayerId → ∀ q, s.layers.manager.position id = some q →
        s'.layers.manager.position id = some q) := by
  have hknown := remembered_of_run h hadm hrun
  refine ⟨?_, hknown.since, ?_, ?_⟩
  · intro buttons displacementX displacementY junk junk₁ junk₂ s' hs
    obtain ⟨moved, handled, hmoved, hhandled, rfl⟩ := exists_of_onInterrupt hs
    obtain ⟨lm, -, rfl⟩ := exists_of_setPosition hmoved
    show config.outline.Contains handled.mouse.position
    rw [hhandled.sameMouse.1]
    exact contains_cursorAfter hscreen s displacementX displacementY
  · intro op s₁ hgrabs hs
    obtain ⟨place, hcarried⟩ := carried_of_grabs hknown.inOrder hgrabs hs
    refine ⟨place, fun post s₂ hpost hrun₂ => ?_⟩
    have hcarried₂ := run_of_keeps (carried_keeps font _ place) hcarried hpost hrun₂
    exact ⟨hcarried₂.grabbed, hcarried₂.place⟩
  · intro op s' hok hs id hmouse hdrag q hq
    exact step_keeps_position hknown.inOrder hok hs hmouse hdrag hq

/-- The mouse of the desktop, before it is put anywhere. -/
def cursorless : MouseSystem tinyConfig := { layers := desktop, mouse := { layerId := 3 } }

theorem cursorless_fresh : cursorless.Fresh noFont (.zeros _) := ⟨desktop_reachable, rfl, rfl⟩

/-- The window is made draggable and grabbed; then the mouse moves further than the screen is wide. -/
def dragOps : List MouseOp :=
  [.call (.setDraggable 2 true), .report 1 0 0 noArea noArea noArea,
    .report 1 100 0 noArea noArea noArea]

theorem drag_with_cursor_desktop :
    ∃ s₀ s, cursorless.setPosition ⟨0, 0⟩ noArea = some s₀ ∧
      run (step noFont) s₀ dragOps = some s ∧ s.mouse.dragLayerId = 2 ∧
      Since (step noFont) s₀ Grabs MouseOp.Holds dragOps (fun s₁ => s₁.mouse.dragLayerId = 2) ∧
      ∀ q, s.layers.manager.position 1 = some q → ∀ s',
        s.step noFont (.report 1 0 0 noArea noArea noArea) = some s' →
          s'.layers.manager.position 1 = some q := by
  have hplaced : (cursorless.setPosition ⟨0, 0⟩ noArea).isSome = true := by decide
  obtain ⟨s₀, hs₀⟩ := Option.isSome_iff_exists.mp hplaced
  have hrun : ((cursorless.setPosition ⟨0, 0⟩ noArea).bind fun s₀ =>
      (run (step noFont) s₀ dragOps).map fun s => (s.mouse.dragLayerId, s.mouse.layerId)) =
        some (2, 3) := by decide
  have hadm : ∀ s₀ ∈ cursorless.setPosition ⟨0, 0⟩ noArea,
      Admits (step noFont) (fun s op => op.Permitted noFont s) s₀ dragOps := by decide
  rw [hs₀, Option.bind_some] at hrun
  obtain ⟨s, hs, hids⟩ := Option.map_eq_some_iff.mp hrun
  obtain ⟨hdrag, hlayer⟩ := Prod.mk.inj hids
  obtain ⟨-, hsince, -, hstill⟩ := drag_with_cursor (cursorless_fresh.setPosition hs₀)
    ⟨⟨0, 0⟩, by decide⟩ (hadm s₀ hs₀) hs
  rw [hdrag] at hsince hstill
  rw [hlayer] at hstill
  have hok : MouseOp.Permitted noFont s (.report 1 0 0 noArea noArea noArea) := trivial
  exact ⟨s₀, s, hs₀, hs, hdrag, hsince (by decide), fun q hq s' hs' =>
    hstill _ s' hok hs' 1 (by decide) (by decide) q hq⟩

end MouseSystem

end UhyokOS
