import UhyokOS.Task.Mailbox
import UhyokOS.Timer.Tick
import UhyokOS.Usb.Keyboard
import UhyokOS.Terminal.Terminal

/-!
# The running kernel

The whole of the running kernel as one transition system: the main task from the start of
multitasking on (`KernelMainNewStack`), the task of the terminal (`TaskTerminal`), the two interrupt
handlers, and the keyboards and the controller behind the event ring.

The two tasks are programs. `MainStage` is the point the main task has reached; one step of a task
is the code up to a point at which interrupts are enabled, and between the steps interrupts and
preemptions come in any order.

A step need not end at the first such point. The main task calls the task manager with interrupts
enabled in three places: `NewTask` and `Wakeup` for the terminal (`.newTask`, `.wakeTask`), and
`SendMessage` in the observer of the keyboards (`.notify`). Each of these calls is one step here, so
the model assumes that no interrupt is taken inside it. The source does not prevent one, and its
handler may send a message to the same task while `push_back` is under way.

`TaskTerminal` enables interrupts only after it has dealt with a message; a message that it ignores is
no exception here, which only allows more orders.

Drawing is left out: a request to redraw is recorded (`layerCalls`), and so is what the main task does
with a key (`routed`). Layers are known by their ids.
-/

namespace UhyokOS

/-! ## Key messages -/

/-- The entries up to the last one that is not 0.
Source: `kernel/keyboard.cpp`, `keycode_map` -/
def keycodeMap : List UInt8 :=
  List.replicate 4 0 ++ text "abcdefghijklmnopqrstuvwxyz1234567890\n\x08\x08\t -=[]\\#;'`,./" ++
    List.replicate 27 0 ++ text "/*-+\n1234567890.\\" ++ [0, 0] ++ text "="

/-- Source: `kernel/keyboard.cpp`, `keycode_map_shifted` -/
def keycodeMapShifted : List UInt8 :=
  List.replicate 4 0 ++
    text "ABCDEFGHIJKLMNOPQRSTUVWXYZ!@#$%^&*()\n\x08\x08\t _+\x7b\x7d|~:\"~<>?" ++
    List.replicate 27 0 ++ text "/*-+\n1234567890.\\" ++ [0, 0] ++ text "="

example : (keycodeMap.length, keycodeMapShifted.length) = (104, 104) := by decide

/-- Source: `kernel/keyboard.cpp`, `kLShiftBitMask` -/
abbrev kLShiftBitMask : UInt8 := 0b00000010

/-- Source: `kernel/keyboard.cpp`, `kRShiftBitMask` -/
abbrev kRShiftBitMask : UInt8 := 0b00100000

/-- The key that the default observer reports.
Source: `kernel/keyboard.cpp`, `InitializeKeyboard` -/
def observedKey (push : KeyPush Unit) : Key :=
  let shift := push.modifier &&& (kLShiftBitMask ||| kRShiftBitMask) ≠ 0
  let map := if shift then keycodeMapShifted else keycodeMap
  { modifier := push.modifier, keycode := push.keycode, ascii := map.getD push.keycode.toNat 0 }

/-- The message about a key. -/
def Key.message (key : Key) : Message :=
  { type := .kKeyPush, arg := .keyboard key.modifier key.keycode key.ascii }

/-! ## The controller -/

/-- An event on the ring, as far as its handling matters here. -/
inductive UsbEvent
  /-- A keyboard has accepted its protocol: its driver is ready for the first report. -/
  | configured (keyboard epNum : Nat)
  /-- A keyboard has sent a report of `len` bytes. -/
  | transfer (keyboard len : Nat)
  /-- A keyboard's transfer has failed. -/
  | failed (keyboard : Nat)
  /-- A report of a mouse, with the layer that it activates, if any; 0 is no layer. -/
  | mouse (activate : Option Nat)
  /-- Any other event. -/
  | other
deriving DecidableEq

/-- The keyboard that an event is about. -/
def UsbEvent.keyboard? : UsbEvent → Option Nat
  | .configured i _ => some i
  | .transfer i _ => some i
  | .failed i => some i
  | .mouse _ => none
  | .other => none

/-- A keyboard with its driver. -/
structure Keyboard where
  /-- Its number and its endpoint, as in `configured`. -/
  epNum : Nat
  driver : HIDKeyboardDriver Unit
  /-- There is a Normal TRB for the next report on the transfer ring. -/
  requested : Bool := true
  /-- The reports that it has sent, oldest first. -/
  reports : List (List UInt8) := []

namespace HIDKeyboardDriver

variable {Observer : Type}

/-- The controller has written a report to `buf_`. -/
def dma (d : HIDKeyboardDriver Observer) (bytes : List UInt8) : HIDKeyboardDriver Observer :=
  { d with buf := fun j => bytes.getD j (d.buf j) }

end HIDKeyboardDriver

/-! ## The kernel -/

/-- Source: `kernel/main.cpp`, `kTextboxCursorTimer` -/
abbrev kTextboxCursorTimer : Int := 1

/-- Source: `kernel/main.cpp`, `kTimer05Sec` -/
abbrev kTimer05Sec : Nat := 50

example : kTimer05Sec * 2 = kTimerFreq := rfl

/-- The point that the main task has reached.
Source: `kernel/main.cpp`, `KernelMainNewStack` -/
inductive MainStage
  /-- in `InitializeTask`, with the task manager made -/
  | addTaskTimer
  | newTask
  | wakeTask (task : TaskPtr)
  /-- `usb::xhci::Initialize` and `InitializeKeyboard` -/
  | initializeKeyboard
  | initializeMouse
  /-- the head of the loop -/
  | loop
  | receive
  /-- at the `switch` -/
  | handle (msg : Message)
  /-- at the head of the loop of `ProcessEvents` -/
  | events
  /-- in `OnDataReceived`, with the observer still to be called for some keys, each call being one
  step; behind it the driver is the last argument -/
  | notify (keyboard : Nat) (pushes : List (KeyPush Unit)) (driver : HIDKeyboardDriver Unit)
  /-- before `Pop` in `ProcessEvent` -/
  | pop
  /-- the timer has been added again -/
  | blink (msg : Message)
  /-- before the look-up in `layer_task_map` -/
  | findTask (act : Nat) (key : Key)
  /-- before the last `SendMessage` of a branch -/
  | send (id : UInt64) (msg : Message)

/-- What the main task does with a key. -/
inductive Route
  | textWindow
  | task (id : UInt64)
  /-- `key push not handled` -/
  | nobody
deriving DecidableEq

/-- A call of the layer manager. -/
inductive LayerCall
  | move (id : Nat) (pos : Vector2D)
  | moveRelative (id : Nat) (pos : Vector2D)
  | draw (id : Nat)
  | drawArea (id : Nat) (area : Rectangle)
deriving DecidableEq

/-- The terminal with its `layer_id_`. -/
structure OpenTerminal where
  terminal : Terminal
  layerId : Nat

/-- The state of the kernel and of the hardware it talks to. -/
structure Kernel (Q : Type) where
  mail : Mail := {}
  /-- `*timer_manager` -/
  timers : TimerManager Q
  /-- The events between the dequeue pointer and the enqueue pointer of the event ring. -/
  ring : List UsbEvent := []
  /-- An interrupt of the controller has not been taken yet. -/
  irq : Bool := false
  keyboards : Nat → Option Keyboard := fun _ => none
  /-- `HIDKeyboardDriver::default_observer` -/
  defaultObserver : Option Unit := none
  main : MainStage := .addTaskTimer
  /-- `task_terminal_id` -/
  taskTerminalId : UInt64 := 0
  /-- The tick that the main window shows. -/
  counter : Nat := 0
  /-- `textbox_cursor_visible` -/
  textboxCursorVisible : Bool := false
  /-- `latest_id_` of the layer manager -/
  latestLayerId : Nat := 4
  /-- `text_window_layer_id` -/
  textWindowLayerId : Nat := 4
  /-- `mouse_layer_` of the active layer -/
  mouseLayer : Nat := 0
  /-- `active_layer_` -/
  activeLayer : Nat := 0
  /-- `*layer_task_map` -/
  layerTaskMap : List (Nat × UInt64) := []
  /-- The terminal, once its task has made it. -/
  terminal : Option OpenTerminal := none
  /-- The keys that the default observer has been called for or is about to, each with its keyboard,
  oldest first. -/
  pressed : List (Nat × Key) := []
  /-- What the main task has done with the keys it has received, oldest first. -/
  routed : List (Key × Route) := []
  /-- The calls that `ProcessLayerMessage` has made, oldest first. -/
  layerCalls : List LayerCall := []

/-- Source: `kernel/layer.cpp`, `ProcessLayerMessage` -/
def processLayerMessage (op : LayerOperation) (layerId : Nat) (x y w h : Int) : LayerCall :=
  match op with
  | .move => .move layerId ⟨x, y⟩
  | .moveRelative => .moveRelative layerId ⟨x, y⟩
  | .draw => .draw layerId
  | .drawArea => .drawArea layerId ⟨⟨x, y⟩, ⟨w, h⟩⟩

/-- Source: `kernel/layer.hpp`, `MakeLayerMessage` -/
def makeLayerMessage (taskId : UInt64) (layerId : Nat) (op : LayerOperation) (area : Rectangle) :
    Message :=
  { type := .kLayer, srcTask := taskId,
    arg := .layer op layerId area.pos.x area.pos.y area.size.x area.size.y }

/-- The front of `msgs_` of the task that executes. -/
def Mail.next? (mail : Mail) : Option Message :=
  (mail.sys.manager.pending mail.sys.cpu.executing).head?

namespace Kernel

variable {Q : Type} [PriorityQueue Q Timer]

/-- The state in `InitializeTask`, some ticks after the start of the LAPIC timer. -/
def init (tick : Nat) : Kernel Q where
  timers := { (TimerManager.init : TimerManager Q).addTimer
    { timeout := kTimer05Sec, value := kTextboxCursorTimer } with tick := tick }

/-- An atomic section of the task manager. -/
def mailOp (k : Kernel Q) (op : MailOp) : Option (Kernel Q) :=
  (k.mail.step op).map fun mail => { k with mail := mail }

/-- `task_manager->SendMessage(id, msg)` -/
def sendMessage (k : Kernel Q) (id : UInt64) (msg : Message) : Option (Kernel Q) :=
  k.mailOp (.call (.sendMessage id msg))

/-- Continue at another point. -/
def goto (k : Kernel Q) (stage : MainStage) : Kernel Q := { k with main := stage }

/-! ### The main task -/

/-- The body of the loop of `ProcessEvents` up to `Pop`.
Source: `kernel/usb/xhci/xhci.cpp`, `ProcessEvent` -/
def processEvent (k : Kernel Q) : UsbEvent → Option (Kernel Q)
  | .configured i epNum =>
      (HIDKeyboardDriver.newKeyboardDriver (.new epNum true) k.defaultObserver).map fun driver =>
        { k with
          keyboards := Function.update k.keyboards i (some { epNum, driver })
          main := .pop }
  | .transfer i len =>
      (k.keyboards i).bind fun keyboard =>
        (keyboard.driver.onInterruptCompleted (.new keyboard.epNum true) len).map
          fun (pushes, _, driver) =>
            { k with
              pressed := k.pressed ++ pushes.map fun push => (i, observedKey push)
              main := .notify i pushes driver }
  | .failed _ => some (k.goto .pop)
  | .mouse activate => some { k with activeLayer := activate.getD k.activeLayer, main := .pop }
  | .other => some (k.goto .pop)

/-- `OnDataReceived` has returned: the report is kept and the next one is asked for.
Source: `kernel/usb/classdriver/hid.cpp`, `HIDBaseDriver::OnInterruptCompleted` -/
def nextReport (k : Kernel Q) (i : Nat) (driver : HIDKeyboardDriver Unit) : Option (Kernel Q) :=
  (k.keyboards i).map fun keyboard =>
    { k with
      keyboards := Function.update k.keyboards i
        (some { keyboard with driver := driver, requested := true })
      main := .pop }

/-- The `switch` of the loop; undefined for a message with the argument of another type.
Source: `kernel/main.cpp`, `KernelMainNewStack` -/
def handle (k : Kernel Q) (msg : Message) : Option (Kernel Q) :=
  match msg.type, msg.arg with
  | .kInterruptXHCI, _ => some (k.goto .events)
  | .kTimerTimeout, .timer timeout value =>
      if value = kTextboxCursorTimer then
        let timer : Timer :=
          { timeout := (timeout + kTimer05Sec) % 2 ^ 64, value := kTextboxCursorTimer }
        some { k with timers := k.timers.addTimer timer, main := .blink msg }
      else some (k.goto .loop)
  | .kKeyPush, .keyboard modifier keycode ascii =>
      let key : Key := { modifier, keycode, ascii }
      if k.activeLayer = k.textWindowLayerId then
        some { k with routed := k.routed ++ [(key, .textWindow)], main := .loop }
      else some (k.goto (.findTask k.activeLayer key))
  | .kLayer, .layer op layerId x y w h =>
      some { k with
        layerCalls := k.layerCalls ++ [processLayerMessage op layerId x y w h]
        main := .send msg.srcTask { type := .kLayerFinish } }
  | .kLayerFinish, _ => some (k.goto .loop)
  | _, _ => none

/-- One section of the main task. A call of the task manager is one section also where the source
makes it with interrupts enabled (`newTask`, `wakeTask` and `notify`).
Source: `kernel/main.cpp`, `KernelMainNewStack` -/
def mainSection (k : Kernel Q) : Option (Kernel Q) :=
  match k.main with
  | .addTaskTimer =>
      let timer : Timer :=
        { timeout := (k.timers.tick + kTaskTimerPeriod) % 2 ^ 64, value := kTaskTimerValue }
      some { k with timers := k.timers.addTimer timer, main := .newTask }
  | .newTask =>
      let (tm, task) := k.mail.sys.manager.newTask
      let k := { k with taskTerminalId := tm.latestId, main := .wakeTask task }
      k.mailOp (.call .newTask)
  | .wakeTask task => (k.goto .initializeKeyboard).mailOp (.call (.wakeup task (-1)))
  | .initializeKeyboard => some { k with defaultObserver := some (), main := .initializeMouse }
  | .initializeMouse =>
      let layerId := k.latestLayerId + 1
      some { k with latestLayerId := layerId, mouseLayer := layerId, main := .loop }
  | .loop => some { k with counter := k.timers.tick, main := .receive }
  | .receive =>
      match k.mail.next? with
      | some msg => (k.goto (.handle msg)).mailOp .receive
      | none => (k.goto .loop).mailOp .receive
  | .handle msg => k.handle msg
  | .events =>
      match k.ring with
      | [] => some (k.goto .loop)
      | event :: _ => k.processEvent event
  | .notify i (push :: pushes) driver =>
      (k.goto (.notify i pushes driver)).sendMessage 1 (observedKey push).message
  | .notify i [] driver => k.nextReport i driver
  | .pop => some { k with ring := k.ring.tail, main := .events }
  | .blink msg =>
      some { k with
        textboxCursorVisible := !k.textboxCursorVisible
        main := .send k.taskTerminalId msg }
  | .findTask act key =>
      match k.layerTaskMap.lookup act with
      | some id => some { k with
          routed := k.routed ++ [(key, .task id)]
          main := .send id key.message }
      | none => some { k with routed := k.routed ++ [(key, .nobody)], main := .loop }
  | .send id msg => (k.goto .loop).sendMessage id msg

/-! ### The terminal's task -/

/-- A message for the terminal: the terminal behind it, and what has to be redrawn.
Source: `kernel/terminal.cpp`, `TaskTerminal` -/
def terminalHandle (m : Machine) (t : Terminal) (msg : Message) :
    Option (Terminal × Option Rectangle) :=
  match msg.type, msg.arg with
  | .kTimerTimeout, _ => some (t.blinkCursor.1, some t.blinkCursor.2)
  | .kKeyPush, .keyboard modifier keycode ascii =>
      (t.inputKey m { modifier, keycode, ascii }).map fun (t, area) => (t, some area)
  | .kKeyPush, _ => none
  | _, _ => some (t, none)

/-- One section of the task of the terminal, whose id is `taskId`.
Source: `kernel/terminal.cpp`, `TaskTerminal` -/
def terminalSection (m : Machine) (taskId : UInt64) (k : Kernel Q) : Option (Kernel Q) :=
  match k.terminal with
  | none =>
      let layerId := k.latestLayerId + 1
      let map := if (k.layerTaskMap.lookup layerId).isSome then k.layerTaskMap
        else k.layerTaskMap ++ [(layerId, taskId)]
      some { k with
        latestLayerId := layerId
        activeLayer := layerId
        layerTaskMap := map
        terminal := some { terminal := .init, layerId := layerId } }
  | some t =>
      match k.mail.next? with
      | none => k.mailOp .receive
      | some msg =>
          (terminalHandle m t.terminal msg).bind fun (t', area) =>
            ({ k with terminal := some { t with terminal := t' } }.mailOp .receive).bind fun k =>
              match area with
              | none => some k
              | some area => k.sendMessage 1 (makeLayerMessage taskId t.layerId .drawArea area)

/-! ### Interrupts -/

/-- Source: `kernel/interrupt.cpp`, `IntHandlerXHCI` -/
def intHandlerXHCI (k : Kernel Q) : Option (Kernel Q) :=
  { k with irq := false }.sendMessage 1 { type := .kInterruptXHCI }

/-- Several calls of `SendMessage`. -/
def sendAll (k : Kernel Q) : List (UInt64 × Message) → Option (Kernel Q)
  | [] => some k
  | (id, msg) :: rest => (k.sendMessage id msg).bind fun k => k.sendAll rest

/-- `SwitchTask` is the last thing the handler does.
Source: `kernel/timer.cpp`, `LAPICTimerOnInterrupt` -/
def lapicTimerOnInterrupt (k : Kernel Q) : Option (Kernel Q) :=
  k.timers.tickOnce.bind fun (timers, result) =>
    (sendAll { k with timers := timers } result.sent).bind fun k =>
      if result.taskTimerTimeout then k.mailOp (.call .switchTask) else some k

/-! ### The transition system -/

/-- The id of the task that executes, if it is one that runs `TaskTerminal`. -/
def terminalTask? (k : Kernel Q) : Option UInt64 :=
  if k.mail.sys.cpu.executing ≤ 1 then none
  else (k.mail.sys.manager.tasks[k.mail.sys.cpu.executing]?).map Task.id

/-- The controller puts an event on the ring and requests an interrupt. -/
def addEvent (k : Kernel Q) (event : UsbEvent) : Kernel Q :=
  { k with ring := k.ring ++ [event], irq := true }

/-- The transfer that a keyboard's driver has asked for has been carried out. -/
def complete (k : Kernel Q) (i : Nat) (keyboard : Keyboard) (event : UsbEvent) : Kernel Q :=
  addEvent { k with
    keyboards := Function.update k.keyboards i (some { keyboard with requested := false }) } event

end Kernel

/-- What may happen next. -/
inductive KernelOp
  /-- The controller writes a report to the buffer of a keyboard's driver, and an event. -/
  | report (keyboard : Nat) (bytes : List UInt8)
  /-- It writes another event. -/
  | event (event : UsbEvent)
  | interruptXHCI
  | interruptTimer
  /-- The next section of the main task. -/
  | main
  /-- The next section of the task of the terminal. -/
  | terminal

namespace Kernel

variable {Q : Type} [PriorityQueue Q Timer]

/-- One step. -/
def step (m : Machine) (k : Kernel Q) : KernelOp → Option (Kernel Q)
  | .report i bytes => (k.keyboards i).map fun keyboard =>
      k.complete i { keyboard with
        driver := keyboard.driver.dma bytes
        reports := keyboard.reports ++ [bytes] } (.transfer i bytes.length)
  | .event (.failed i) => (k.keyboards i).map fun keyboard => k.complete i keyboard (.failed i)
  | .event event => some (k.addEvent event)
  | .interruptXHCI => k.intHandlerXHCI
  | .interruptTimer => k.lapicTimerOnInterrupt
  | .main => k.mainSection
  | .terminal => k.terminalTask?.bind fun taskId => k.terminalSection m taskId

/-- The driver of a keyboard has asked for a report. -/
def requested (k : Kernel Q) (i : Nat) : Bool := (k.keyboards i).any Keyboard.requested

end Kernel

/-- What the hardware and the scheduler guarantee: a report is not longer than the transfer that was
asked for, a keyboard is configured once, an interrupt is taken when it has been requested, `tick_`
stays half a second below the largest `unsigned long`, and a task does something while it executes. -/
def KernelOp.Permitted {Q : Type} (k : Kernel Q) : KernelOp → Prop
  | .report i bytes => k.requested i = true ∧
      (k.keyboards i).all (fun keyboard => bytes.length ≤ keyboard.driver.inPacketSize) = true
  | .event (.configured i _) => (k.keyboards i).isNone = true ∧
      ∀ event ∈ k.ring, event.keyboard? ≠ some i
  | .event (.transfer _ _) => False
  | .event (.failed i) => k.requested i = true
  | .event _ => True
  | .interruptXHCI => k.irq = true
  | .interruptTimer => k.timers.tick + kTimer05Sec + 1 < kUnsignedLongMax
  | .main => k.mail.sys.cpu.executing = 0
  | .terminal => k.mail.sys.cpu.executing ≠ 0 ∧ k.mail.sys.cpu.executing ≠ 1

instance KernelOp.decidablePermitted {Q : Type} (k : Kernel Q) (op : KernelOp) :
    Decidable (op.Permitted k) := by
  unfold KernelOp.Permitted
  split <;> infer_instance

/-- The states of the running kernel. -/
abbrev Kernel.Reachable {Q : Type} [PriorityQueue Q Timer] (m : Machine) (tick : Nat)
    (k : Kernel Q) : Prop :=
  Transition.Reachable (Kernel.step m) (fun k op => op.Permitted k) (Kernel.init tick) k

end UhyokOS
