import UhyokOS.Main.Kernel
import UhyokOS.Task.Profile
import UhyokOS.Timer.Runs

/-!
# The steps of the kernel

What each step does, with the operations of the task manager described by what they do to the
mailboxes. `Roles` is what the steps rely on: which task is which, and that messages have the
arguments that their receivers read.

* `mainStep_of`, `terminalStep_of`, `timerStep_of`, `intHandlerXHCI_spec`: the inversion lemmas.
* `Roles.step`: every step keeps `Roles`.
-/

set_option linter.unusedSectionVars false

namespace UhyokOS

open PriorityQueue Transition

/-! ## Roles -/

/-- The task of the terminal has not been made. -/
def MainStage.early : MainStage → Bool
  | .addTaskTimer => true
  | .newTask => true
  | _ => false

/-- The main task has the highest level, the idle task the lowest. -/
def roster (early : Bool) : List (UInt64 × Level) :=
  [(1, Fin.last kMaxLevel), (2, ⟨0, Nat.succ_pos kMaxLevel⟩)] ++
    if early then [] else [(3, kDefaultLevel)]

/-- The message has the argument that belongs to its type; a request to redraw comes from the task of
the terminal. -/
def Message.Fits (msg : Message) : Prop :=
  match msg.type, msg.arg with
  | .kInterruptXHCI, _ => True
  | .kTimerTimeout, .timer _ _ => True
  | .kKeyPush, .keyboard _ _ _ => True
  | .kLayer, .layer _ _ _ _ _ _ => msg.srcTask = 3
  | .kLayerFinish, _ => True
  | _, _ => False

/-- The task that is woken is the terminal's, messages are sent to that task, and a message that has
been received fits. -/
def MainStage.Sound : MainStage → Prop
  | .wakeTask task => task = 2
  | .handle msg => msg.Fits
  | .blink msg => msg.type = .kTimerTimeout ∧ msg.Fits
  | .send id msg => id = 3 ∧ msg.Fits
  | _ => True

/-- Messages for one task. -/
def handTo (task : TaskPtr) (msgs : List Message) : TaskPtr → List Message :=
  fun p => if p = task then msgs else []

/-- One message for one task. -/
theorem handTo_eq (task : TaskPtr) (msg : Message) :
    (fun p => if some task = some p then [msg] else []) = handTo task [msg] := by
  funext p
  by_cases hp : p = task
  · simp [handTo, hp]
  · simp [handTo, hp, Ne.symm hp]

/-- What is handed to a task goes to its mailbox. -/
@[simp] theorem handTo_self (task : TaskPtr) (msgs : List Message) :
    handTo task msgs task = msgs := if_pos rfl

/-- What is handed to a task goes to no other mailbox. -/
theorem handTo_ne {task p : TaskPtr} (h : p ≠ task) (msgs : List Message) :
    handTo task msgs p = [] := if_neg h

variable {Q : Type}

/-- One task is awake now, and the others are as before. -/
structure Wakes (s : Mail) (task : TaskPtr) (s' : Mail) : Prop where
  self : s'.sys.manager.isRunning task = true
  others : ∀ p, p ≠ task → s'.sys.manager.isRunning p = s.sys.manager.isRunning p

/-- Who is who, and that messages fit. -/
structure Roles (k : Kernel Q) : Prop where
  mail : MailInv k.mail
  profile : k.mail.sys.manager.profile = roster k.main.early
  latestId : k.main.early = true → k.mail.sys.manager.latestId = 2
  terminalId : k.main.early = false → k.taskTerminalId = 3
  sound : k.main.Sound
  messages : ∀ p, ∀ msg ∈ k.mail.sent p, msg.Fits
  tasks : k.layerTaskMap = k.terminal.toList.map fun t => (t.layerId, 3)

namespace Roles

variable {k : Kernel Q}

/-- Messages with id `1` are for the main task. -/
theorem find?_main (h : Roles k) : k.mail.sys.manager.find? 1 = some 0 := by
  rw [TaskManager.find?_eq, h.profile]
  cases k.main.early <;> rfl

/-- Once the terminal's task has been created, messages with id `3` are for it. -/
theorem find?_terminal (h : Roles k) (hlate : k.main.early = false) :
    k.mail.sys.manager.find? 3 = some 2 := by
  rw [TaskManager.find?_eq, h.profile, hlate]
  rfl

/-- The tasks are those of the roster, and no others. -/
theorem length (h : Roles k) :
    k.mail.sys.manager.tasks.length = (roster k.main.early).length := by
  rw [← h.profile]
  exact (List.length_map _).symm

/-- Neither the main task nor the idle task executes: it is the terminal's. -/
theorem terminal (h : Roles k) (hmain : k.mail.sys.cpu.executing ≠ 0)
    (hidle : k.mail.sys.cpu.executing ≠ 1) :
    k.mail.sys.cpu.executing = 2 ∧ k.main.early = false ∧ k.terminalTask? = some 3 := by
  obtain ⟨t, ht, -⟩ := Mail.exists_executing h.mail
  have hprofile : (roster k.main.early)[k.mail.sys.cpu.executing]? = some (t.id, t.level) := by
    rw [← h.profile, TaskManager.getElem?_profile, ht]
    rfl
  unfold Kernel.terminalTask?
  rw [ht]
  generalize k.mail.sys.cpu.executing = p at hmain hidle hprofile
  match p, hmain, hidle, hprofile with
  | 2, _, _, hprofile =>
      cases hearly : k.main.early with
      | true =>
          rw [hearly] at hprofile
          cases hprofile
      | false =>
          rw [hearly] at hprofile
          exact ⟨rfl, rfl, congrArg some (congrArg Prod.fst (Option.some.inj hprofile)).symm⟩
  | p + 3, _, _, hprofile => cases hearly : k.main.early <;> rw [hearly] at hprofile <;> cases hprofile

/-- A message to the main task. -/
theorem send_main (h : Roles k) (msg : Message) :
    ∃ mail, k.mail.step (.call (.sendMessage 1 msg)) = some mail ∧
      mail.sys.cpu = k.mail.sys.cpu ∧ Hands k.mail (handTo 0 [msg]) mail ∧ Wakes k.mail 0 mail := by
  obtain ⟨mail, hstep, hcpu, hhands, hawake⟩ := Mail.sendMessage_spec h.mail 1 msg
  rw [h.find?_main] at hhands hawake
  rw [handTo_eq] at hhands
  refine ⟨mail, hstep, hcpu, hhands, hawake 0 rfl, fun p hp => ?_⟩
  refine Mail.sendMessage_others h.mail hstep fun heq => hp ?_
  exact (Option.some.inj (h.find?_main.symm.trans heq)).symm

/-- A message to the task of the terminal. -/
theorem send_terminal (h : Roles k) (hlate : k.main.early = false) (msg : Message) :
    ∃ mail, k.mail.step (.call (.sendMessage 3 msg)) = some mail ∧
      mail.sys.cpu = k.mail.sys.cpu ∧ Hands k.mail (handTo 2 [msg]) mail ∧ Wakes k.mail 2 mail := by
  obtain ⟨mail, hstep, hcpu, hhands, hawake⟩ := Mail.sendMessage_spec h.mail 3 msg
  rw [h.find?_terminal hlate] at hhands hawake
  rw [handTo_eq] at hhands
  refine ⟨mail, hstep, hcpu, hhands, hawake 2 rfl, fun p hp => ?_⟩
  refine Mail.sendMessage_others h.mail hstep fun heq => hp ?_
  exact (Option.some.inj ((h.find?_terminal hlate).symm.trans heq)).symm

end Roles

/-! ## The steps of the main task -/

variable [PriorityQueue Q Timer]

/-- What a section of the main task does, by the point it starts from. -/
inductive MainStep (k : Kernel Q) : Kernel Q → Prop
  | addTaskTimer (hmain : k.main = .addTaskTimer) :
      MainStep k { k with
        timers := k.timers.addTimer
          { timeout := (k.timers.tick + kTaskTimerPeriod) % 2 ^ 64, value := kTaskTimerValue }
        main := .newTask }
  | newTask (hmain : k.main = .newTask) (mail : Mail) (hinv : MailInv mail)
      (hmanager : mail.sys.manager = k.mail.sys.manager.newTask.1)
      (hcpu : mail.sys.cpu = k.mail.sys.cpu) (hsent : mail.sent = k.mail.sent)
      (hreceived : mail.received = k.mail.received) :
      MainStep k { k with mail := mail, taskTerminalId := 3, main := .wakeTask 2 }
  | wakeTask (hmain : k.main = .wakeTask 2) (mail : Mail) (hcpu : mail.sys.cpu = k.mail.sys.cpu)
      (hhands : Hands k.mail (fun _ => []) mail) (hwakes : Wakes k.mail 2 mail) :
      MainStep k { k with mail := mail, main := .initializeKeyboard }
  | initializeKeyboard (hmain : k.main = .initializeKeyboard) :
      MainStep k { k with defaultObserver := some (), main := .initializeMouse }
  | initializeMouse (hmain : k.main = .initializeMouse) :
      MainStep k { k with
        latestLayerId := k.latestLayerId + 1
        mouseLayer := k.latestLayerId + 1
        main := .loop }
  | loop (hmain : k.main = .loop) :
      MainStep k { k with counter := k.timers.tick, main := .receive }
  | take (hmain : k.main = .receive) (msg : Message) (msgs : List Message) (mail : Mail)
      (hpending : k.mail.sys.manager.pending 0 = msg :: msgs) (htakes : Takes k.mail msg mail) :
      MainStep k { k with mail := mail, main := .handle msg }
  | rest (hmain : k.main = .receive) (mail : Mail)
      (hpending : k.mail.sys.manager.pending 0 = []) (hrests : Rests k.mail mail) :
      MainStep k { k with mail := mail, main := .loop }
  | interrupt (srcTask : UInt64) (arg : MessageArg)
      (hmain : k.main = .handle { type := .kInterruptXHCI, srcTask, arg }) :
      MainStep k { k with main := .events }
  | cursorTimer (srcTask : UInt64) (timeout : Nat)
      (hmain : k.main = .handle
        { type := .kTimerTimeout, srcTask, arg := .timer timeout kTextboxCursorTimer }) :
      MainStep k { k with
        timers := k.timers.addTimer
          { timeout := (timeout + kTimer05Sec) % 2 ^ 64, value := kTextboxCursorTimer }
        main := .blink
          { type := .kTimerTimeout, srcTask, arg := .timer timeout kTextboxCursorTimer } }
  | otherTimer (srcTask : UInt64) (timeout : Nat) (value : Int)
      (hvalue : value ≠ kTextboxCursorTimer)
      (hmain : k.main = .handle { type := .kTimerTimeout, srcTask, arg := .timer timeout value }) :
      MainStep k { k with main := .loop }
  | textKey (srcTask : UInt64) (key : Key)
      (hmain : k.main = .handle { key.message with srcTask := srcTask })
      (hactive : k.activeLayer = k.textWindowLayerId) :
      MainStep k { k with routed := k.routed ++ [(key, .textWindow)], main := .loop }
  | otherKey (srcTask : UInt64) (key : Key)
      (hmain : k.main = .handle { key.message with srcTask := srcTask })
      (hactive : k.activeLayer ≠ k.textWindowLayerId) :
      MainStep k { k with main := .findTask k.activeLayer key }
  | layer (op : LayerOperation) (layerId : Nat) (x y w h : Int)
      (hmain : k.main = .handle
        { type := .kLayer, srcTask := 3, arg := .layer op layerId x y w h }) :
      MainStep k { k with
        layerCalls := k.layerCalls ++ [processLayerMessage op layerId x y w h]
        main := .send 3 { type := .kLayerFinish } }
  | layerFinish (srcTask : UInt64) (arg : MessageArg)
      (hmain : k.main = .handle { type := .kLayerFinish, srcTask, arg }) :
      MainStep k { k with main := .loop }
  | noEvent (hmain : k.main = .events) (hring : k.ring = []) :
      MainStep k { k with main := .loop }
  | configured (hmain : k.main = .events) (i epNum : Nat) (ring : List UsbEvent)
      (hring : k.ring = .configured i epNum :: ring) (driver : HIDKeyboardDriver Unit)
      (hdriver : HIDKeyboardDriver.newKeyboardDriver (.new epNum true) k.defaultObserver =
        some driver) :
      MainStep k { k with
        keyboards := Function.update k.keyboards i (some { epNum, driver })
        main := .pop }
  | transfer (hmain : k.main = .events) (i len : Nat) (ring : List UsbEvent)
      (hring : k.ring = .transfer i len :: ring) (keyboard : Keyboard)
      (hkeyboard : k.keyboards i = some keyboard) (pushes : List (KeyPush Unit)) (ret : HIDReturn)
      (driver : HIDKeyboardDriver Unit)
      (hdriver : keyboard.driver.onInterruptCompleted (.new keyboard.epNum true) len =
        some (pushes, ret, driver)) :
      MainStep k { k with
        pressed := k.pressed ++ pushes.map fun push => (i, observedKey push)
        main := .notify i pushes driver }
  | mouse (hmain : k.main = .events) (activate : Option Nat) (ring : List UsbEvent)
      (hring : k.ring = .mouse activate :: ring) :
      MainStep k { k with activeLayer := activate.getD k.activeLayer, main := .pop }
  | skip (hmain : k.main = .events) (event : UsbEvent) (ring : List UsbEvent)
      (hring : k.ring = event :: ring) (hevent : event = .other ∨ ∃ i, event = .failed i) :
      MainStep k { k with main := .pop }
  | notify (i : Nat) (push : KeyPush Unit) (pushes : List (KeyPush Unit))
      (driver : HIDKeyboardDriver Unit) (hmain : k.main = .notify i (push :: pushes) driver)
      (mail : Mail) (hcpu : mail.sys.cpu = k.mail.sys.cpu)
      (hhands : Hands k.mail (handTo 0 [(observedKey push).message]) mail)
      (hwakes : Wakes k.mail 0 mail) :
      MainStep k { k with mail := mail, main := .notify i pushes driver }
  | nextReport (i : Nat) (driver : HIDKeyboardDriver Unit) (hmain : k.main = .notify i [] driver)
      (keyboard : Keyboard) (hkeyboard : k.keyboards i = some keyboard) :
      MainStep k { k with
        keyboards := Function.update k.keyboards i
          (some { keyboard with driver := driver, requested := true })
        main := .pop }
  | pop (hmain : k.main = .pop) : MainStep k { k with ring := k.ring.tail, main := .events }
  | blink (msg : Message) (hmain : k.main = .blink msg) :
      MainStep k { k with
        textboxCursorVisible := !k.textboxCursorVisible
        main := .send 3 msg }
  | found (act : Nat) (key : Key) (hmain : k.main = .findTask act key)
      (hfound : k.layerTaskMap.lookup act = some 3) :
      MainStep k { k with routed := k.routed ++ [(key, .task 3)], main := .send 3 key.message }
  | notFound (act : Nat) (key : Key) (hmain : k.main = .findTask act key)
      (hnotFound : k.layerTaskMap.lookup act = none) :
      MainStep k { k with routed := k.routed ++ [(key, .nobody)], main := .loop }
  | send (msg : Message) (hmain : k.main = .send 3 msg) (mail : Mail)
      (hcpu : mail.sys.cpu = k.mail.sys.cpu) (hhands : Hands k.mail (handTo 2 [msg]) mail)
      (hwakes : Wakes k.mail 2 mail) :
      MainStep k { k with mail := mail, main := .loop }

namespace MainStep

variable {k k' : Kernel Q}

/-- The `switch`. -/
private theorem of_handle (h : Roles k) {msg : Message} (hmain : k.main = .handle msg)
    (hstep : k.handle msg = some k') : MainStep k k' := by
  have hfits : msg.Fits := by
    have hsound := h.sound
    rwa [hmain] at hsound
  obtain ⟨type, srcTask, arg⟩ := msg
  cases type with
  | kInterruptXHCI =>
      cases hstep
      exact .interrupt srcTask arg hmain
  | kTimerTimeout =>
      cases arg with
      | timer timeout value =>
          simp only [Kernel.handle] at hstep
          split_ifs at hstep with hvalue
          · subst hvalue
            cases hstep
            exact .cursorTimer srcTask timeout hmain
          · cases hstep
            exact .otherTimer srcTask timeout value hvalue hmain
      | _ => exact hfits.elim
  | kKeyPush =>
      cases arg with
      | keyboard modifier keycode ascii =>
          simp only [Kernel.handle] at hstep
          split_ifs at hstep with hactive
          · cases hstep
            exact .textKey srcTask ⟨modifier, keycode, ascii⟩ hmain hactive
          · cases hstep
            exact .otherKey srcTask ⟨modifier, keycode, ascii⟩ hmain hactive
      | _ => exact hfits.elim
  | kLayer =>
      cases arg with
      | layer op layerId x y w height =>
          obtain rfl : srcTask = 3 := hfits
          cases hstep
          exact .layer op layerId x y w height hmain
      | _ => exact hfits.elim
  | kLayerFinish =>
      cases hstep
      exact .layerFinish srcTask arg hmain

/-- The loop of `ProcessEvents`. -/
private theorem of_events (hmain : k.main = .events) {event : UsbEvent} {ring : List UsbEvent}
    (hring : k.ring = event :: ring) (hstep : k.processEvent event = some k') : MainStep k k' := by
  cases event with
  | configured i epNum =>
      obtain ⟨driver, hdriver, rfl⟩ := Option.map_eq_some_iff.mp hstep
      exact .configured hmain i epNum ring hring driver hdriver
  | transfer i len =>
      obtain ⟨keyboard, hkeyboard, hstep⟩ := Option.bind_eq_some_iff.mp hstep
      obtain ⟨⟨pushes, ret, driver⟩, hdriver, rfl⟩ := Option.map_eq_some_iff.mp hstep
      exact .transfer hmain i len ring hring keyboard hkeyboard pushes ret driver hdriver
  | failed i =>
      cases hstep
      exact .skip hmain _ ring hring (Or.inr ⟨i, rfl⟩)
  | mouse activate =>
      cases hstep
      exact .mouse hmain activate ring hring
  | other =>
      cases hstep
      exact .skip hmain _ ring hring (Or.inl rfl)

end MainStep

/-- A section of the main task is one of the steps. -/
theorem mainStep_of {k k' : Kernel Q} (h : Roles k) (hexec : k.mail.sys.cpu.executing = 0)
    (hstep : k.mainSection = some k') : MainStep k k' := by
  have hidle : k.mail.sys.cpu.executing ≠ 1 := by
    rw [hexec]
    decide
  unfold Kernel.mainSection at hstep
  cases hmain : k.main with
  | addTaskTimer =>
      simp only [hmain] at hstep
      cases hstep
      exact .addTaskTimer hmain
  | newTask =>
      simp only [hmain] at hstep
      obtain ⟨mail, hmail, rfl⟩ := Option.map_eq_some_iff.mp hstep
      obtain ⟨mail', hmail', hinv, hmanager, hcpu, hsent, hreceived⟩ := Mail.newTask_spec h.mail
      cases hmail.symm.trans hmail'
      have hlatest : k.mail.sys.manager.newTask.1.latestId = 3 := by
        show k.mail.sys.manager.latestId + 1 = 3
        rw [h.latestId (by rw [hmain]; rfl)]
        rfl
      have hlength : k.mail.sys.manager.newTask.2 = 2 := by
        show k.mail.sys.manager.tasks.length = 2
        rw [h.length, hmain]
        rfl
      rw [hlatest, hlength]
      exact .newTask hmain mail hinv hmanager hcpu hsent hreceived
  | wakeTask task =>
      simp only [hmain] at hstep
      obtain rfl : task = 2 := by
        have hsound := h.sound
        rwa [hmain] at hsound
      obtain ⟨mail, hmail, rfl⟩ := Option.map_eq_some_iff.mp hstep
      have hlt : 2 < k.mail.sys.manager.tasks.length := by
        rw [h.length, hmain]
        decide
      obtain ⟨mail', hmail', hcpu, hhands, hawake⟩ := Mail.wakeup_spec h.mail hlt
      cases hmail.symm.trans hmail'
      exact .wakeTask hmain mail hcpu hhands
        ⟨hawake, fun p hp => Mail.wakeup_others h.mail hlt hmail hp⟩
  | initializeKeyboard =>
      simp only [hmain] at hstep
      cases hstep
      exact .initializeKeyboard hmain
  | initializeMouse =>
      simp only [hmain] at hstep
      cases hstep
      exact .initializeMouse hmain
  | loop =>
      simp only [hmain] at hstep
      cases hstep
      exact .loop hmain
  | receive =>
      simp only [hmain, Mail.next?, hexec] at hstep
      cases hpending : k.mail.sys.manager.pending 0 with
      | nil =>
          rw [hpending] at hstep
          obtain ⟨mail, hmail, rfl⟩ := Option.map_eq_some_iff.mp hstep
          obtain ⟨mail', hmail', hrests⟩ := Mail.sleep_spec h.mail hidle (hexec ▸ hpending)
          cases hmail.symm.trans hmail'
          exact .rest hmain mail hpending hrests
      | cons msg msgs =>
          rw [hpending] at hstep
          obtain ⟨mail, hmail, rfl⟩ := Option.map_eq_some_iff.mp hstep
          obtain ⟨mail', hmail', htakes⟩ := Mail.take_spec h.mail hidle (hexec ▸ hpending)
          cases hmail.symm.trans hmail'
          exact .take hmain msg msgs mail hpending htakes
  | handle msg =>
      simp only [hmain] at hstep
      exact .of_handle h hmain hstep
  | events =>
      simp only [hmain] at hstep
      cases hring : k.ring with
      | nil =>
          rw [hring] at hstep
          cases hstep
          exact .noEvent hmain hring
      | cons event ring =>
          rw [hring] at hstep
          exact .of_events hmain hring hstep
  | notify i pushes driver =>
      cases pushes with
      | nil =>
          simp only [hmain] at hstep
          obtain ⟨keyboard, hkeyboard, rfl⟩ := Option.map_eq_some_iff.mp hstep
          exact .nextReport i driver hmain keyboard hkeyboard
      | cons push pushes =>
          simp only [hmain] at hstep
          obtain ⟨mail, hmail, rfl⟩ := Option.map_eq_some_iff.mp hstep
          obtain ⟨mail', hmail', hcpu, hhands, hwakes⟩ := h.send_main (observedKey push).message
          cases hmail.symm.trans hmail'
          exact .notify i push pushes driver hmain mail hcpu hhands hwakes
  | pop =>
      simp only [hmain] at hstep
      cases hstep
      exact .pop hmain
  | blink msg =>
      simp only [hmain] at hstep
      cases hstep
      have hid : k.taskTerminalId = 3 := h.terminalId (by rw [hmain]; rfl)
      have hblink := MainStep.blink msg hmain
      rwa [← hid] at hblink
  | findTask act key =>
      simp only [hmain] at hstep
      cases hfound : k.layerTaskMap.lookup act with
      | none =>
          rw [hfound] at hstep
          cases hstep
          exact .notFound act key hmain hfound
      | some id =>
          rw [hfound] at hstep
          cases hstep
          -- the only task in the map is the terminal's
          obtain rfl : id = 3 := by
            rw [h.tasks] at hfound
            cases hterminal : k.terminal with
            | none =>
                rw [hterminal] at hfound
                cases hfound
            | some t =>
                rw [hterminal, Option.toList_some, List.map_singleton, List.lookup_cons] at hfound
                split at hfound
                · exact (Option.some.inj hfound).symm
                · cases hfound
          exact .found act key hmain hfound
  | send id msg =>
      simp only [hmain] at hstep
      obtain rfl : id = 3 := by
        have hsound := h.sound
        rw [hmain] at hsound
        exact hsound.1
      obtain ⟨mail, hmail, rfl⟩ := Option.map_eq_some_iff.mp hstep
      obtain ⟨mail', hmail', hcpu, hhands, hwakes⟩ :=
        h.send_terminal (by rw [hmain]; rfl) msg
      cases hmail.symm.trans hmail'
      exact .send msg hmain mail hcpu hhands hwakes

/-! ## The steps of the terminal's task -/

/-- What a section of the task of the terminal does. -/
inductive TerminalStep (m : Machine) (k : Kernel Q) : Kernel Q → Prop
  | start (hterminal : k.terminal = none) :
      TerminalStep m k { k with
        latestLayerId := k.latestLayerId + 1
        activeLayer := k.latestLayerId + 1
        layerTaskMap := [(k.latestLayerId + 1, 3)]
        terminal := some { terminal := .init, layerId := k.latestLayerId + 1 } }
  | rest (t : OpenTerminal) (hterminal : k.terminal = some t) (mail : Mail)
      (hpending : k.mail.sys.manager.pending 2 = []) (hrests : Rests k.mail mail) :
      TerminalStep m k { k with mail := mail }
  | ignore (t : OpenTerminal) (hterminal : k.terminal = some t) (msg : Message)
      (msgs : List Message) (hpending : k.mail.sys.manager.pending 2 = msg :: msgs)
      (t' : Terminal) (hhandle : Kernel.terminalHandle m t.terminal msg = some (t', none))
      (mail : Mail) (htakes : Takes k.mail msg mail) :
      TerminalStep m k { k with mail := mail, terminal := some { t with terminal := t' } }
  | answer (t : OpenTerminal) (hterminal : k.terminal = some t) (msg : Message)
      (msgs : List Message) (hpending : k.mail.sys.manager.pending 2 = msg :: msgs)
      (t' : Terminal) (area : Rectangle)
      (hhandle : Kernel.terminalHandle m t.terminal msg = some (t', some area))
      (taken mail : Mail) (htakes : Takes k.mail msg taken) (hcpu : mail.sys.cpu = k.mail.sys.cpu)
      (hhands : Hands taken (handTo 0 [makeLayerMessage 3 t.layerId .drawArea area]) mail)
      (hwakes : Wakes k.mail 0 mail) :
      TerminalStep m k { k with mail := mail, terminal := some { t with terminal := t' } }

/-- Taking a message changes no role. -/
theorem Roles.find?_main_of_takes {k : Kernel Q} (h : Roles k) {msg : Message} {mail : Mail}
    (htakes : Takes k.mail msg mail) : mail.sys.manager.find? 1 = some 0 := by
  rw [TaskManager.find?_eq, htakes.profile, ← TaskManager.find?_eq]
  exact h.find?_main

/-- A section of the terminal's task is one of the steps. -/
theorem terminalStep_of {m : Machine} {k k' : Kernel Q} (h : Roles k)
    (hexec : k.mail.sys.cpu.executing = 2) (hstep : k.terminalSection m 3 = some k') :
    TerminalStep m k k' := by
  have hidle : k.mail.sys.cpu.executing ≠ 1 := by
    rw [hexec]
    decide
  unfold Kernel.terminalSection at hstep
  cases hterminal : k.terminal with
  | none =>
      have hmap : k.layerTaskMap = [] := by
        rw [h.tasks, hterminal]
        rfl
      simp only [hterminal] at hstep
      cases hstep
      have hstart := TerminalStep.start (m := m) hterminal
      simpa only [hmap, List.lookup_nil, Option.isSome_none, Bool.false_eq_true, if_false,
        List.nil_append] using hstart
  | some t =>
      simp only [hterminal, Mail.next?, hexec] at hstep
      cases hpending : k.mail.sys.manager.pending 2 with
      | nil =>
          rw [hpending] at hstep
          obtain ⟨mail, hmail, rfl⟩ := Option.map_eq_some_iff.mp hstep
          obtain ⟨mail', hmail', hrests⟩ := Mail.sleep_spec h.mail hidle (hexec ▸ hpending)
          cases hmail.symm.trans hmail'
          exact .rest t hterminal mail hpending hrests
      | cons msg msgs =>
          rw [hpending] at hstep
          obtain ⟨⟨t', area?⟩, hhandle, hstep⟩ := Option.bind_eq_some_iff.mp hstep
          obtain ⟨k₁, hk₁, hstep⟩ := Option.bind_eq_some_iff.mp hstep
          obtain ⟨taken, htaken, rfl⟩ := Option.map_eq_some_iff.mp hk₁
          obtain ⟨taken', htaken', htakes⟩ := Mail.take_spec h.mail hidle (hexec ▸ hpending)
          cases htaken.symm.trans htaken'
          cases area? with
          | none =>
              cases hstep
              exact .ignore t hterminal msg msgs hpending t' hhandle taken htakes
          | some area =>
              obtain ⟨mail, hmail, rfl⟩ := Option.map_eq_some_iff.mp hstep
              obtain ⟨mail', hmail', hcpu, hhands, hawake⟩ := Mail.sendMessage_spec htakes.inv 1
                (makeLayerMessage 3 t.layerId .drawArea area)
              cases hmail.symm.trans hmail'
              have hfind := h.find?_main_of_takes htakes
              rw [hfind] at hhands hawake
              rw [handTo_eq] at hhands
              refine .answer t hterminal msg msgs hpending t' area hhandle taken mail htakes
                (hcpu.trans htakes.cpu) hhands ⟨hawake 0 rfl, fun p hp => ?_⟩
              refine (Mail.sendMessage_others htakes.inv hmail fun heq => hp ?_).trans
                (htakes.running p)
              exact (Option.some.inj (hfind.symm.trans heq)).symm

/-! ## The interrupt handlers -/

/-- The timers of the running kernel: `tick_` is in range, and the timer that the constructor pushed
is still queued. -/
structure Kernel.Ticking (k : Kernel Q) : Prop where
  inRange : k.timers.tick + kTimer05Sec < kUnsignedLongMax
  sentinel : UhyokOS.sentinel ∈ content k.timers.timers

/-- What the handler of the timer does, `reported` being the timers that it reports. -/
structure TimerStep (k k' : Kernel Q) (reported : List Timer) (result : TickResult) : Prop where
  kernel : k' = { k with mail := k'.mail, timers := k'.timers }
  tick : k'.timers.tick = k.timers.tick + 1
  ticked : TimerManager.Ticked (k.timers.tick + 1) (content k.timers.timers) result
    (content k'.timers.timers) reported
  task : result.taskTimerTimeout = true ↔ ∃ t ∈ content k.timers.timers,
    TimerManager.Due (k.timers.tick + 1) t ∧ TimerManager.IsTask t
  hands : Hands k.mail (handTo 0 (reported.map Timer.message)) k'.mail
  /-- Nobody but the main task is woken, and that only by a report. -/
  others : ∀ p, p ≠ 0 ∨ reported = [] →
    k'.mail.sys.manager.isRunning p = k.mail.sys.manager.isRunning p
  /-- Without a due task timer the same task goes on, -/
  same : result.taskTimerTimeout = false → k'.mail.sys.cpu = k.mail.sys.cpu
  /-- with one the task that continues has no running task above it. -/
  highest : result.taskTimerTimeout = true →
    ∀ lv, k'.mail.sys.manager.currentLevel < lv → k'.mail.sys.manager.running lv = []

/-- Messages that are all for the main task. -/
theorem Kernel.sendAll_spec (k : Kernel Q) (timers : TimerManager Q) {mail : Mail}
    (hinv : MailInv mail) (hfind : mail.sys.manager.find? 1 = some 0) (msgs : List Message) :
    ∃ mail', ({ k with mail := mail, timers := timers } : Kernel Q).sendAll
        (msgs.map fun msg => (1, msg)) = some { k with mail := mail', timers := timers } ∧
      mail'.sys.cpu = mail.sys.cpu ∧ Hands mail (handTo 0 msgs) mail' ∧
      ∀ p, p ≠ 0 ∨ msgs = [] → mail'.sys.manager.isRunning p = mail.sys.manager.isRunning p := by
  induction msgs generalizing mail with
  | nil =>
      refine ⟨mail, rfl, rfl, ?_, fun _ _ => rfl⟩
      convert Hands.refl hinv using 1
      funext p
      exact ite_self []
  | cons msg msgs ih =>
      obtain ⟨mail₁, hstep, hcpu, hhands, -⟩ := Mail.sendMessage_spec hinv 1 msg
      rw [hfind, handTo_eq] at hhands
      have hfind₁ : mail₁.sys.manager.find? 1 = some 0 := by
        rw [TaskManager.find?_eq, hhands.profile, ← TaskManager.find?_eq]
        exact hfind
      obtain ⟨mail', hrest, hcpu', hhands', hothers'⟩ := ih hhands.inv hfind₁
      refine ⟨mail', ?_, hcpu'.trans hcpu, ?_, fun p hp => ?_⟩
      · have hsend : ({ k with mail := mail, timers := timers } : Kernel Q).sendMessage 1 msg =
            some { k with mail := mail₁, timers := timers } := by
          unfold Kernel.sendMessage Kernel.mailOp
          simp only [hstep, Option.map_some]
        rw [List.map_cons, Kernel.sendAll, hsend]
        exact hrest
      · convert hhands.trans hhands' using 1
        funext p
        by_cases hp : p = 0
        · simp [handTo, hp]
        · simp [handTo, hp]
      · have hne : p ≠ 0 := hp.resolve_right (List.cons_ne_nil _ _)
        refine (hothers' p (Or.inl hne)).trans (Mail.sendMessage_others hinv hstep fun heq => hne ?_)
        exact (Option.some.inj (hfind.symm.trans heq)).symm

/-- **The interrupt of the timer.** -/
theorem timerStep_spec {k : Kernel Q} (h : Roles k) (htimers : k.Ticking)
    (hrange : k.timers.tick + kTimer05Sec + 1 < kUnsignedLongMax) :
    ∃ k' reported result, k.lapicTimerOnInterrupt = some k' ∧
      TimerStep k k' reported result := by
  have hlate : ¬TimerManager.Due (k.timers.tick + 1) sentinel := by
    apply not_le.mpr
    show k.timers.tick + 1 < kUnsignedLongMax
    omega
  have hwrap : k.timers.tick + 1 + kTaskTimerPeriod < 2 ^ 64 := by
    simp only [kTimer05Sec, kUnsignedLongMax, kTaskTimerPeriod] at hrange ⊢
    omega
  obtain ⟨timers, result, reported, htick, hnext, hticked, htask⟩ :=
    TimerManager.tickOnce_spec hwrap ⟨sentinel, htimers.sentinel, hlate⟩
  obtain ⟨mail, hsend, hcpu, hhands, hothers⟩ :=
    k.sendAll_spec timers h.mail h.find?_main (reported.map Timer.message)
  have hsent : result.sent = (reported.map Timer.message).map fun msg => (1, msg) := by
    rw [hticked.sent, List.map_map]
    rfl
  have hall : ({ k with timers := timers } : Kernel Q).sendAll result.sent =
      some { k with mail := mail, timers := timers } := by
    rw [hsent]
    exact hsend
  unfold Kernel.lapicTimerOnInterrupt
  rw [htick, Option.bind_some]
  simp only [hall, Option.bind_some]
  have hothers' : ∀ p, p ≠ 0 ∨ reported = [] →
      mail.sys.manager.isRunning p = k.mail.sys.manager.isRunning p := fun p hp =>
    hothers p (hp.imp_right fun hnone => by rw [hnone]; rfl)
  cases hflag : result.taskTimerTimeout with
  | false =>
      refine ⟨{ k with mail := mail, timers := timers }, reported, result, rfl, rfl, hnext, hticked,
        htask, hhands, hothers', fun _ => hcpu, fun hswitch => ?_⟩
      rw [hflag] at hswitch
      cases hswitch
  | true =>
      obtain ⟨mail', hswitch, hhands', hhighest⟩ := Mail.switchTask_spec hhands.inv
      refine ⟨{ k with mail := mail', timers := timers }, reported, result, ?_, rfl, hnext, hticked,
        htask, ?_, fun p hp => ?_, fun hsame => ?_, fun _ => hhighest⟩
      · unfold Kernel.mailOp
        simp only [if_true, hswitch, Option.map_some]
      · convert hhands.trans hhands' using 1
        funext p
        exact (List.append_nil _).symm
      · exact (Mail.switchTask_others hhands.inv hswitch p).trans (hothers' p hp)
      · rw [hflag] at hsame
        cases hsame

/-- **The interrupt of the controller.** -/
theorem Roles.intHandlerXHCI {k : Kernel Q} (h : Roles k) :
    ∃ mail, k.intHandlerXHCI = some { k with irq := false, mail := mail } ∧
      mail.sys.cpu = k.mail.sys.cpu ∧ Hands k.mail (handTo 0 [{ type := .kInterruptXHCI }]) mail ∧
      Wakes k.mail 0 mail := by
  obtain ⟨mail, hstep, hcpu, hhands, hwakes⟩ := h.send_main { type := .kInterruptXHCI }
  refine ⟨mail, ?_, hcpu, hhands, hwakes⟩
  unfold Kernel.intHandlerXHCI Kernel.sendMessage Kernel.mailOp
  simp only [hstep, Option.map_some]

/-! ## All steps -/

/-- What a step does. -/
inductive KernelStep (m : Machine) (k : Kernel Q) : KernelOp → Kernel Q → Prop
  | report (i : Nat) (bytes : List UInt8) (keyboard : Keyboard)
      (hkeyboard : k.keyboards i = some keyboard) (hrequested : keyboard.requested = true)
      (hlength : bytes.length ≤ keyboard.driver.inPacketSize) :
      KernelStep m k (.report i bytes) (k.complete i { keyboard with
        driver := keyboard.driver.dma bytes
        reports := keyboard.reports ++ [bytes] } (.transfer i bytes.length))
  | failed (i : Nat) (keyboard : Keyboard) (hkeyboard : k.keyboards i = some keyboard)
      (hrequested : keyboard.requested = true) :
      KernelStep m k (.event (.failed i)) (k.complete i keyboard (.failed i))
  | configured (i epNum : Nat) (hnew : k.keyboards i = none)
      (hring : ∀ event ∈ k.ring, event.keyboard? ≠ some i) :
      KernelStep m k (.event (.configured i epNum)) (k.addEvent (.configured i epNum))
  | event (event : UsbEvent) (hevent : event.keyboard? = none) :
      KernelStep m k (.event event) (k.addEvent event)
  | interruptXHCI (hirq : k.irq = true) (mail : Mail) (hcpu : mail.sys.cpu = k.mail.sys.cpu)
      (hhands : Hands k.mail (handTo 0 [{ type := .kInterruptXHCI }]) mail)
      (hwakes : Wakes k.mail 0 mail) :
      KernelStep m k .interruptXHCI { k with irq := false, mail := mail }
  | interruptTimer (hrange : k.timers.tick + kTimer05Sec + 1 < kUnsignedLongMax)
      (k' : Kernel Q) (reported : List Timer) (result : TickResult)
      (htimer : TimerStep k k' reported result) : KernelStep m k .interruptTimer k'
  | main (hexec : k.mail.sys.cpu.executing = 0) (k' : Kernel Q) (hmain : MainStep k k') :
      KernelStep m k .main k'
  | terminal (hexec : k.mail.sys.cpu.executing = 2) (hlate : k.main.early = false)
      (k' : Kernel Q) (hterminal : TerminalStep m k k') : KernelStep m k .terminal k'

/-- A keyboard whose driver has asked for a report. -/
theorem Kernel.requested_eq_true {k : Kernel Q} {i : Nat} :
    k.requested i = true ↔
      ∃ keyboard, k.keyboards i = some keyboard ∧ keyboard.requested = true := by
  unfold Kernel.requested
  rw [Option.any_eq_true]

variable {m : Machine} {k k' : Kernel Q} {op : KernelOp}

/-- An operation of the kernel is one of the steps. -/
theorem kernelStep_of (h : Roles k) (htimers : k.Ticking) (hok : op.Permitted k)
    (hstep : k.step m op = some k') : KernelStep m k op k' := by
  cases op with
  | report i bytes =>
      obtain ⟨hrequested, hlength⟩ := hok
      obtain ⟨keyboard, hkeyboard, hrequested⟩ := Kernel.requested_eq_true.mp hrequested
      obtain ⟨keyboard', hkeyboard', rfl⟩ := Option.map_eq_some_iff.mp hstep
      cases hkeyboard.symm.trans hkeyboard'
      rw [hkeyboard] at hlength
      exact .report i bytes keyboard hkeyboard hrequested (of_decide_eq_true hlength)
  | event event =>
      cases event with
      | configured i epNum =>
          cases hstep
          exact .configured i epNum (Option.isNone_iff_eq_none.mp hok.1) hok.2
      | transfer i len => exact hok.elim
      | failed i =>
          obtain ⟨keyboard, hkeyboard, hrequested⟩ := Kernel.requested_eq_true.mp hok
          obtain ⟨keyboard', hkeyboard', rfl⟩ := Option.map_eq_some_iff.mp hstep
          cases hkeyboard.symm.trans hkeyboard'
          exact .failed i keyboard hkeyboard hrequested
      | mouse activate =>
          cases hstep
          exact .event _ rfl
      | other =>
          cases hstep
          exact .event _ rfl
  | interruptXHCI =>
      obtain ⟨mail, hmail, hcpu, hhands, hwakes⟩ := h.intHandlerXHCI
      cases hmail.symm.trans hstep
      exact .interruptXHCI hok mail hcpu hhands hwakes
  | interruptTimer =>
      obtain ⟨k₁, reported, result, hk₁, htimer⟩ := timerStep_spec h htimers hok
      cases hk₁.symm.trans hstep
      exact .interruptTimer hok _ reported result htimer
  | main => exact .main hok _ (mainStep_of h hok hstep)
  | terminal =>
      obtain ⟨hexec, hlate, hid⟩ := h.terminal hok.1 hok.2
      have hsection : k.terminalSection m 3 = some k' := by
        simpa only [Kernel.step, hid, Option.bind_some] using hstep
      exact .terminal hexec hlate _ (terminalStep_of h hexec hsection)

/-! ## What every step keeps -/

namespace Roles

/-- A step that keeps the profile and hands out messages that fit. -/
theorem next (h : Roles k) (hinv : MailInv k'.mail)
    (hprofile : k'.mail.sys.manager.profile = k.mail.sys.manager.profile)
    (hmessages : ∀ p, ∀ msg ∈ k'.mail.sent p, msg.Fits)
    (hearly : k'.main.early = k.main.early)
    (hlatest : k.main.early = true →
      k'.mail.sys.manager.latestId = k.mail.sys.manager.latestId)
    (hid : k.main.early = false → k'.taskTerminalId = k.taskTerminalId)
    (htasks : k'.layerTaskMap = k'.terminal.toList.map fun t => (t.layerId, 3))
    (hsound : k'.main.Sound) : Roles k' where
  mail := hinv
  profile := by rw [hprofile, h.profile, hearly]
  latestId hk' := by
    rw [hearly] at hk'
    exact (hlatest hk').trans (h.latestId hk')
  terminalId hk' := by
    rw [hearly] at hk'
    exact (hid hk').trans (h.terminalId hk')
  sound := hsound
  messages := hmessages
  tasks := htasks

/-- The mailboxes are left alone. -/
theorem stay (h : Roles k) (hmail : k'.mail = k.mail) (hid : k'.taskTerminalId = k.taskTerminalId)
    (htasks : k'.layerTaskMap = k'.terminal.toList.map fun t => (t.layerId, 3))
    (hearly : k'.main.early = k.main.early) (hsound : k'.main.Sound) : Roles k' := by
  refine h.next ?_ ?_ ?_ hearly (fun _ => ?_) (fun _ => hid) htasks hsound
  · rw [hmail]
    exact h.mail
  · rw [hmail]
  · rw [hmail]
    exact h.messages
  · rw [hmail]

/-- Messages are handed out. -/
theorem hand (h : Roles k) {msgs : TaskPtr → List Message}
    (hhands : Hands k.mail msgs k'.mail) (hfits : ∀ p, ∀ msg ∈ msgs p, msg.Fits)
    (hid : k'.taskTerminalId = k.taskTerminalId)
    (htasks : k'.layerTaskMap = k'.terminal.toList.map fun t => (t.layerId, 3))
    (hearly : k'.main.early = k.main.early) (hsound : k'.main.Sound) : Roles k' := by
  refine h.next hhands.inv hhands.profile (fun p msg hmsg => ?_) hearly (fun _ => hhands.latestId)
    (fun _ => hid) htasks hsound
  rw [hhands.sent] at hmsg
  rcases List.mem_append.mp hmsg with hmsg | hmsg
  · exact h.messages p msg hmsg
  · exact hfits p msg hmsg

/-- A message that is pending fits. -/
theorem fits_of_pending (h : Roles k) {p : TaskPtr} {msg : Message}
    (hmsg : msg ∈ k.mail.sys.manager.pending p) : msg.Fits := by
  apply h.messages p
  rw [h.mail.fifo]
  exact List.mem_append_right _ hmsg

/-- Messages that fit, for one task. -/
theorem fits_handTo {task : TaskPtr} {msgs : List Message} (h : ∀ msg ∈ msgs, msg.Fits) :
    ∀ p, ∀ msg ∈ handTo task msgs p, msg.Fits := by
  intro p msg hmsg
  unfold handTo at hmsg
  split_ifs at hmsg
  · exact h msg hmsg
  · cases hmsg

/-- One message that fits. -/
theorem fits_singleton {task : TaskPtr} {msg : Message} (h : msg.Fits) :
    ∀ p, ∀ msg' ∈ handTo task [msg] p, msg'.Fits :=
  fits_handTo fun msg' hmsg' => by
    rw [List.mem_singleton.mp hmsg']
    exact h

/-- A section of the main task keeps the roles. -/
theorem mainStep (h : Roles k) (hstep : MainStep k k') : Roles k' := by
  have hsound := h.sound
  cases hstep with
  | addTaskTimer hmain => exact h.stay rfl rfl h.tasks (by rw [hmain]; rfl) trivial
  | newTask hmain mail hinv hmanager hcpu hsent hreceived =>
      refine ⟨hinv, ?_, nofun, fun _ => rfl, rfl, ?_, h.tasks⟩
      · have hprofile := h.profile
        rw [hmain] at hprofile
        show mail.sys.manager.profile = _
        rw [hmanager]
        show List.map _ (k.mail.sys.manager.tasks ++ [_]) = _
        rw [List.map_append]
        show k.mail.sys.manager.profile ++ [(k.mail.sys.manager.latestId + 1, kDefaultLevel)] = _
        rw [hprofile, h.latestId (by rw [hmain]; rfl)]
        rfl
      · show ∀ p, ∀ msg ∈ mail.sent p, msg.Fits
        rw [hsent]
        exact h.messages
  | wakeTask hmain mail hcpu hhands hwakes =>
      exact h.hand hhands (fun _ _ hmsg => absurd hmsg List.not_mem_nil) rfl h.tasks
        (by rw [hmain]; rfl) trivial
  | take hmain msg msgs mail hpending htakes =>
      refine h.next htakes.inv htakes.profile ?_ (by rw [hmain]; rfl) (fun hearly => ?_)
        (fun _ => rfl) h.tasks ?_
      · show ∀ p, ∀ msg ∈ mail.sent p, msg.Fits
        rw [htakes.sent]
        exact h.messages
      · rw [hmain] at hearly
        cases hearly
      · exact h.fits_of_pending (p := 0) (by rw [hpending]; exact List.mem_cons_self)
  | rest hmain mail hpending hrests =>
      refine h.next hrests.inv hrests.profile ?_ (by rw [hmain]; rfl) (fun hearly => ?_)
        (fun _ => rfl) h.tasks trivial
      · show ∀ p, ∀ msg ∈ mail.sent p, msg.Fits
        rw [hrests.sent]
        exact h.messages
      · rw [hmain] at hearly
        cases hearly
  | notify i push pushes driver hmain mail hcpu hhands =>
      exact h.hand hhands (fits_singleton trivial) rfl h.tasks (by rw [hmain]; rfl) trivial
  | send msg hmain mail hcpu hhands hwakes =>
      rw [hmain] at hsound
      exact h.hand hhands (fits_singleton hsound.2) rfl h.tasks (by rw [hmain]; rfl) trivial
  | blink msg hmain =>
      rw [hmain] at hsound
      exact h.stay rfl rfl h.tasks (by rw [hmain]; rfl) ⟨rfl, hsound.2⟩
  | cursorTimer srcTask timeout hmain =>
      exact h.stay rfl rfl h.tasks (by rw [hmain]; rfl) ⟨rfl, trivial⟩
  | layer op layerId x y w height hmain =>
      exact h.stay rfl rfl h.tasks (by rw [hmain]; rfl) ⟨rfl, trivial⟩
  | found act key hmain hfound =>
      exact h.stay rfl rfl h.tasks (by rw [hmain]; rfl) ⟨rfl, trivial⟩
  | _ => exact h.stay rfl rfl h.tasks (by rw [‹k.main = _›]; rfl) trivial

/-- A section of the terminal's task keeps the roles. -/
theorem terminalStep (h : Roles k) (hlate : k.main.early = false) (hstep : TerminalStep m k k') :
    Roles k' := by
  cases hstep with
  | start hterminal => exact h.stay rfl rfl rfl rfl h.sound
  | rest t hterminal mail hpending hrests =>
      refine h.next hrests.inv hrests.profile ?_ rfl (fun hearly => ?_) (fun _ => rfl) h.tasks h.sound
      · show ∀ p, ∀ msg ∈ mail.sent p, msg.Fits
        rw [hrests.sent]
        exact h.messages
      · rw [hlate] at hearly
        cases hearly
  | ignore t hterminal msg msgs hpending t' hhandle mail htakes =>
      refine h.next htakes.inv htakes.profile ?_ rfl (fun hearly => ?_) (fun _ => rfl) ?_ h.sound
      · show ∀ p, ∀ msg ∈ mail.sent p, msg.Fits
        rw [htakes.sent]
        exact h.messages
      · rw [hlate] at hearly
        cases hearly
      · rw [h.tasks, hterminal]
        rfl
  | answer t hterminal msg msgs hpending t' area hhandle taken mail htakes hcpu hhands hwakes =>
      refine h.next hhands.inv (hhands.profile.trans htakes.profile) (fun p msg' hmsg' => ?_) rfl
        (fun hearly => ?_) (fun _ => rfl) ?_ h.sound
      · rw [hhands.sent, htakes.sent] at hmsg'
        rcases List.mem_append.mp hmsg' with hmsg' | hmsg'
        · exact h.messages p msg' hmsg'
        · have hfits : (makeLayerMessage 3 t.layerId .drawArea area).Fits := rfl
          exact fits_singleton hfits p msg' hmsg'
      · rw [hlate] at hearly
        cases hearly
      · rw [h.tasks, hterminal]
        rfl

/-- **Every step keeps the roles.** -/
theorem step (h : Roles k) (hstep : KernelStep m k op k') : Roles k' := by
  cases hstep with
  | interruptXHCI hirq mail hcpu hhands hwakes =>
      exact h.hand hhands (fits_singleton trivial) rfl h.tasks rfl h.sound
  | interruptTimer hrange k' reported result htimer =>
      have hk' := htimer.kernel
      rw [hk']
      refine h.hand htimer.hands (fits_handTo fun msg hmsg => ?_) rfl h.tasks rfl h.sound
      obtain ⟨t, -, rfl⟩ := List.mem_map.mp hmsg
      trivial
  | main hexec k' hmain => exact h.mainStep hmain
  | terminal hexec hlate k' hterminal => exact h.terminalStep hlate hterminal
  | _ => exact h.stay rfl rfl h.tasks rfl h.sound

end Roles

/-- An added timer leaves the others queued. -/
theorem Kernel.Ticking.addTimer {t : Timer} (h : k.Ticking)
    (htimers : k'.timers = k.timers.addTimer t) : k'.Ticking := by
  have hcontent : content (k.timers.addTimer t).timers = t ::ₘ content k.timers.timers :=
    content_push _ _
  constructor
  · rw [htimers]
    exact h.inRange
  · rw [htimers, hcontent]
    exact Multiset.mem_cons_of_mem h.sentinel

/-- What a tick relies on depends on the timers only. -/
theorem Kernel.Ticking.of_eq (h : k.Ticking) (htimers : k'.timers = k.timers) : k'.Ticking := by
  constructor
  · rw [htimers]
    exact h.inRange
  · rw [htimers]
    exact h.sentinel

/-- **Every step keeps the timers in range.** -/
theorem Kernel.Ticking.step (h : k.Ticking) (hstep : KernelStep m k op k') : k'.Ticking := by
  cases hstep with
  | interruptTimer hrange k' reported result htimer =>
      refine ⟨?_, ?_⟩
      · rw [htimer.tick]
        omega
      · rw [htimer.ticked.after_eq]
        apply Multiset.mem_add.mpr
        refine Or.inl (Multiset.mem_filter.mpr ⟨h.sentinel, not_le.mpr ?_⟩)
        show k.timers.tick + 1 < kUnsignedLongMax
        omega
  | main hexec k' hmain =>
      cases hmain with
      | addTaskTimer hmain => exact h.addTimer rfl
      | cursorTimer srcTask timeout hmain => exact h.addTimer rfl
      | _ => exact h.of_eq rfl
  | terminal hexec hlate k' hterminal => cases hterminal <;> exact h.of_eq rfl
  | _ => exact h.of_eq rfl

/-- At the start the main task and the idle task have their roles. -/
theorem roles_init (tick : Nat) : Roles (Kernel.init tick : Kernel Q) :=
  ⟨mailInv_init, rfl, fun _ => rfl, nofun, trivial, fun _ _ hmsg => absurd hmsg List.not_mem_nil,
    rfl⟩

/-- At the start the clock is in range, and the sentinel is queued. -/
theorem ticking_init {tick : Nat} (htick : tick < kTimer05Sec) :
    (Kernel.init tick : Kernel Q).Ticking := by
  have hcontent : content (Kernel.init tick : Kernel Q).timers.timers =
      { timeout := kTimer05Sec, value := kTextboxCursorTimer } ::ₘ {sentinel} := by
    show content (push (push empty sentinel) _) = _
    rw [content_push, content_push, content_empty]
    rfl
  constructor
  · show tick + kTimer05Sec < kUnsignedLongMax
    simp only [kTimer05Sec, kUnsignedLongMax] at htick ⊢
    omega
  · rw [hcontent]
    exact Multiset.mem_cons_of_mem (Multiset.mem_singleton_self _)

namespace Kernel.Reachable

variable {tick : Nat}

/-- **The roles hold in every state of the running kernel.** -/
theorem roles (htick : tick < kTimer05Sec) (hr : k.Reachable m tick) : Roles k ∧ k.Ticking := by
  have hkeeps : Keeps (Kernel.step m) (fun k op => op.Permitted k)
      fun k : Kernel Q => Roles k ∧ k.Ticking := by
    rintro k op k' ⟨h, htimers⟩ hok hstep
    have hk' := kernelStep_of h htimers hok hstep
    exact ⟨h.step hk', htimers.step hk'⟩
  have h₀ : Roles (.init tick : Kernel Q) ∧ (.init tick : Kernel Q).Ticking :=
    ⟨roles_init tick, ticking_init htick⟩
  have hall := Transition.Reachable.invariant_of_keeps (by exact h₀) hkeeps hr
  exact hall

/-- **The invariant rule of the kernel**: an invariant is kept if every step from a state in which
the roles are as they should be keeps it. -/
theorem invariant (Inv : Kernel Q → Prop) (htick : tick < kTimer05Sec) (h₀ : Inv (.init tick))
    (hkeep : ∀ k op k', Roles k → k.Ticking → Inv k → KernelStep m k op k' → Inv k')
    (hr : k.Reachable m tick) : Inv k := by
  have hkeeps : Keeps (Kernel.step m) (fun k op => op.Permitted k)
      fun k : Kernel Q => (Roles k ∧ k.Ticking) ∧ Inv k := by
    rintro k op k' ⟨⟨h, htimers⟩, hinv⟩ hok hstep
    have hk' := kernelStep_of h htimers hok hstep
    exact ⟨⟨h.step hk', htimers.step hk'⟩, hkeep k op k' h htimers hinv hk'⟩
  have hbase : Roles (.init tick : Kernel Q) ∧ (.init tick : Kernel Q).Ticking :=
    ⟨roles_init tick, ticking_init htick⟩
  have hall := Transition.Reachable.invariant_of_keeps (by exact ⟨hbase, h₀⟩) hkeeps hr
  exact hall.2

end Kernel.Reachable

end UhyokOS
