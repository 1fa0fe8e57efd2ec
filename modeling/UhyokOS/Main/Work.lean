import UhyokOS.Main.Clock
import UhyokOS.Main.Rest

/-!
# No storm of messages

The tasks send each other messages: a key goes to the terminal, which asks for a redraw, which is
reported finished. `Kernel.work` bounds how often the two tasks will still go on because of what is
in the mailboxes and on the ring. A section of a task lowers it, and an interrupt or an event raises
it by a constant, so that the tasks come to rest between interrupts.

* `Kernel.Reachable.work_step`: what one step does to `Kernel.work`.
* `Kernel.Reachable.sections_bounded`: the number of sections in a run.
-/

set_option linter.unusedSectionVars false

namespace UhyokOS

open Transition HIDKeyboardDriver

/-! ## The bound -/

/-- What a message for the main task costs from the moment that it has been received. -/
def Message.mainWork (msg : Message) : Nat :=
  match msg.type with
  | .kInterruptXHCI => 4
  | .kTimerTimeout => 17
  | .kKeyPush => 17
  | .kLayer => 7
  | .kLayerFinish => 3

/-- What a message for the terminal costs: a timeout and a key are answered by a request to redraw. -/
def Message.terminalWork (msg : Message) : Nat :=
  match msg.type with
  | .kTimerTimeout => 10
  | .kKeyPush => 10
  | _ => 1

/-- A report has at most six new keys. -/
def UsbEvent.work : UsbEvent → Nat
  | .transfer _ _ => 111
  | _ => 2

/-- What a point of the main task costs, up to the moment that it sleeps if no message comes. -/
def MainStage.work : MainStage → Nat
  | .addTaskTimer => 11
  | .newTask => 10
  | .wakeTask _ => 7
  | .initializeKeyboard => 4
  | .initializeMouse => 3
  | .loop => 2
  | .receive => 1
  | .handle msg => msg.mainWork
  | .events => 3
  | .notify _ pushes _ => pushes.length * 18 + 5
  | .pop => 4
  | .blink msg => msg.terminalWork + 6
  | .findTask _ _ => 16
  | .send _ msg => msg.terminalWork + 5

namespace Kernel

variable {Q : Type}

/-- The main task. -/
def mainWork (k : Kernel Q) : Nat :=
  if k.mail.sys.manager.isRunning 0 then k.main.work else 0

/-- The task of the terminal, apart from its messages. -/
def terminalWork (k : Kernel Q) : Nat :=
  if k.mail.sys.manager.isRunning 2 then if k.terminal.isSome then 1 else 2 else 0

/-- The mailbox of the main task. -/
def mainLoad (k : Kernel Q) : Nat :=
  ((k.mail.sys.manager.pending 0).map Message.mainWork).sum

/-- The mailbox of the task of the terminal. -/
def terminalLoad (k : Kernel Q) : Nat :=
  ((k.mail.sys.manager.pending 2).map Message.terminalWork).sum

/-- The events that the main task has not come to. -/
def ringLoad (k : Kernel Q) : Nat := (k.unhandled.map UsbEvent.work).sum

/-- How often the two tasks can go on before they sleep. -/
def work (k : Kernel Q) : Nat :=
  k.mainWork + k.mainLoad + (k.terminalWork + k.terminalLoad) + k.ringLoad

end Kernel

namespace KernelOp

/-- The sections of tasks. -/
def sections : KernelOp → Nat
  | .main => 1
  | .terminal => 1
  | _ => 0

/-- What comes from outside, by the work that it makes. -/
def work : KernelOp → Nat
  | .report _ _ => 111
  | .event _ => 2
  | .interruptXHCI => 6
  | .interruptTimer => 19
  | .main => 0
  | .terminal => 0

end KernelOp

/-! ## The parts in a step -/

variable {Q : Type} {k k' : Kernel Q}

namespace Kernel

/-- A main task that sleeps has no more work than its stage says. -/
theorem mainWork_le (k : Kernel Q) : k.mainWork ≤ k.main.work := by
  unfold mainWork
  split
  · exact Nat.le_refl _
  · exact Nat.zero_le _

/-- A main task that runs has the work of its stage. -/
theorem mainWork_of_running (h : k.mail.sys.manager.isRunning 0 = true) :
    k.mainWork = k.main.work := if_pos h

/-- The terminal's task goes to sleep after at most two sections. -/
theorem terminalWork_le (k : Kernel Q) : k.terminalWork ≤ 2 := by
  unfold terminalWork
  split_ifs <;> decide

/-- The work of the terminal's task is read from its flag and from whether it has started. -/
theorem terminalWork_congr
    (h : k'.mail.sys.manager.isRunning 2 = k.mail.sys.manager.isRunning 2)
    (hterminal : k'.terminal.isSome = k.terminal.isSome) : k'.terminalWork = k.terminalWork := by
  unfold terminalWork
  rw [h, hterminal]

/-- A main task that is woken is at the head of its loop. -/
theorem mainWork_woken (h : Attention k) (hmain : k'.main = k.main) :
    k'.mainWork ≤ k.mainWork + 2 := by
  have hle := k'.mainWork_le
  cases hrun : k.mail.sys.manager.isRunning 0 with
  | true =>
      rw [mainWork_of_running hrun, ← hmain]
      exact hle.trans (Nat.le_add_right _ _)
  | false =>
      rw [hmain, h.main hrun] at hle
      exact hle.trans (Nat.le_add_left 2 _)

/-- Messages for the main task add their work. -/
theorem mainLoad_hand (h : MailInv k.mail) {msgs : TaskPtr → List Message}
    (hhands : Hands k.mail msgs k'.mail) :
    k'.mainLoad = k.mainLoad + ((msgs 0).map Message.mainWork).sum := by
  unfold mainLoad
  rw [hhands.pending h, List.map_append, List.sum_append]

/-- Messages for the terminal add their work. -/
theorem terminalLoad_hand (h : MailInv k.mail) {msgs : TaskPtr → List Message}
    (hhands : Hands k.mail msgs k'.mail) :
    k'.terminalLoad = k.terminalLoad + ((msgs 2).map Message.terminalWork).sum := by
  unfold terminalLoad
  rw [hhands.pending h, List.map_append, List.sum_append]

/-- The work on the ring stays where the ring and the event in hand do. -/
theorem ringLoad_congr (hring : k'.ring = k.ring) (hhandling : k'.main.handling = k.main.handling) :
    k'.ringLoad = k.ringLoad := by
  unfold ringLoad unhandled
  rw [hring, hhandling]

/-- The main task takes up the front event. -/
theorem ringLoad_front {event : UsbEvent} {ring : List UsbEvent} (hmain : k.main = .events)
    (hring : k.ring = event :: ring) (hring' : k'.ring = k.ring)
    (hmain' : k'.main.handling = true) : k.ringLoad = event.work + k'.ringLoad := by
  unfold ringLoad unhandled
  rw [hmain', hring', hmain, hring]
  rfl

/-- An event on the ring adds its work. -/
theorem ringLoad_addEvent (h : Keyboards k) (event : UsbEvent) :
    (k.addEvent event).ringLoad = k.ringLoad + event.work := by
  unfold ringLoad
  rw [h.unhandled_addEvent, List.map_append, List.sum_append]
  rfl

/-- The main task goes on without touching the mailboxes. -/
theorem work_goOn (hrun : k.mail.sys.manager.isRunning 0 = true) (hmail : k'.mail = k.mail)
    (hterminal : k'.terminal = k.terminal) :
    k'.work + (k.main.work + k.ringLoad) = k.work + (k'.main.work + k'.ringLoad) := by
  have hrun' : k'.mail.sys.manager.isRunning 0 = true := by
    rw [hmail]
    exact hrun
  have hwork : k'.terminalWork = k.terminalWork :=
    terminalWork_congr (by rw [hmail]) (by rw [hterminal])
  unfold work mainLoad terminalLoad
  rw [mainWork_of_running hrun, mainWork_of_running hrun', hwork, hmail]
  omega

/-- It goes on to a point that costs less. -/
theorem work_goOn_lt (hrun : k.mail.sys.manager.isRunning 0 = true) (hmail : k'.mail = k.mail)
    (hterminal : k'.terminal = k.terminal) (hload : k'.ringLoad = k.ringLoad)
    (hwork : k'.main.work + 1 ≤ k.main.work) : k'.work + 1 ≤ k.work := by
  have hgo := work_goOn hrun hmail hterminal
  omega

/-- It takes up an event. -/
theorem work_front_lt (hrun : k.mail.sys.manager.isRunning 0 = true) (hmain : k.main = .events)
    {event : UsbEvent} {ring : List UsbEvent} (hring : k.ring = event :: ring)
    (hmail : k'.mail = k.mail) (hterminal : k'.terminal = k.terminal) (hring' : k'.ring = k.ring)
    (hhandling : k'.main.handling = true) (hwork : k'.main.work ≤ event.work + 2) :
    k'.work + 1 ≤ k.work := by
  have hgo := work_goOn hrun hmail hterminal
  have hload := ringLoad_front hmain hring hring' hhandling
  have hevents : k.main.work = 3 := by
    rw [hmain]
    rfl
  omega

end Kernel

/-- Only timeouts and keys are answered. -/
theorem terminalWork_of_area {m : Machine} {t t' : Terminal} {msg : Message} {area : Rectangle}
    (h : Kernel.terminalHandle m t msg = some (t', some area)) : msg.terminalWork = 10 := by
  obtain ⟨type, srcTask, arg⟩ := msg
  cases type with
  | kTimerTimeout => rfl
  | kKeyPush => rfl
  | _ => cases h

/-- Every message for the terminal is some work. -/
theorem Message.terminalWork_pos (msg : Message) : 1 ≤ msg.terminalWork := by
  unfold Message.terminalWork
  split <;> decide

/-! ## Steps -/

variable [PriorityQueue Q Timer] {m : Machine} {op : KernelOp}

open Kernel in
/-- A section of the main task. -/
theorem MainStep.work_lt (hstep : MainStep k k') (hroles : Roles k) (hkeyboards : Keyboards k)
    (hexec : k.mail.sys.cpu.executing = 0) : k'.work + 1 ≤ k.work := by
  have hmailInv := hroles.mail
  have hrun : k.mail.sys.manager.isRunning 0 = true := by
    rw [← hexec]
    exact Mail.isRunning_executing hmailInv
  have hother : (2 : TaskPtr) ≠ k.mail.sys.cpu.executing := by
    rw [hexec]
    exact Nat.succ_ne_zero 1
  have hbefore : k.work = k.main.work + k.mainLoad + (k.terminalWork + k.terminalLoad) +
      k.ringLoad := by
    unfold Kernel.work
    rw [mainWork_of_running hrun]
  cases hstep with
  | newTask hmain mail hinv hmanager hcpu hsent hreceived =>
      have hpending : ∀ p, mail.sys.manager.pending p = k.mail.sys.manager.pending p := fun p => by
        have hfifo := congrFun hsent p
        rw [hinv.fifo, hmailInv.fifo, hreceived] at hfifo
        exact List.append_cancel_left hfifo
      generalize hk' : ({ k with mail := mail, taskTerminalId := 3, main := .wakeTask 2 } :
        Kernel Q) = k'
      have hmain' : k'.mainWork ≤ 7 := by
        rw [← hk']
        exact mainWork_le _
      have hload : k'.mainLoad = k.mainLoad ∧ k'.terminalLoad = k.terminalLoad := by
        rw [← hk']
        unfold mainLoad terminalLoad
        simp only [hpending, and_self]
      have hring : k'.ringLoad = k.ringLoad := by
        rw [← hk']
        exact ringLoad_congr rfl (by rw [hmain]; rfl)
      have hterminal := k'.terminalWork_le
      rw [hbefore, hmain]
      unfold Kernel.work
      simp only [MainStage.work]
      omega
  | wakeTask hmain mail hcpu hhands hwakes =>
      generalize hk' : ({ k with mail := mail, main := .initializeKeyboard } : Kernel Q) = k'
      have hmain' : k'.mainWork ≤ 4 := by
        rw [← hk']
        exact mainWork_le _
      have hhands' : Hands k.mail (fun _ => []) k'.mail := by
        rw [← hk']
        exact hhands
      have hload := mainLoad_hand hmailInv hhands'
      have hload' := terminalLoad_hand hmailInv hhands'
      have hring : k'.ringLoad = k.ringLoad := by
        rw [← hk']
        exact ringLoad_congr rfl (by rw [hmain]; rfl)
      have hterminal := k'.terminalWork_le
      rw [List.map_nil, List.sum_nil] at hload hload'
      rw [hbefore, hmain]
      unfold Kernel.work
      simp only [MainStage.work]
      omega
  | take hmain msg msgs mail hpending htakes =>
      generalize hk' : ({ k with mail := mail, main := .handle msg } : Kernel Q) = k'
      have hself := htakes.pending_self hmailInv
      rw [hexec] at hself
      have hmain' : k'.mainWork ≤ msg.mainWork := by
        rw [← hk']
        exact mainWork_le _
      have hload : k.mainLoad = msg.mainWork + k'.mainLoad := by
        rw [← hk']
        unfold mainLoad
        rw [hself]
        rfl
      have hload' : k'.terminalLoad = k.terminalLoad := by
        rw [← hk']
        unfold terminalLoad
        rw [htakes.pending_of_ne hmailInv hother]
      have hring : k'.ringLoad = k.ringLoad := by
        rw [← hk']
        exact ringLoad_congr rfl (by rw [hmain]; rfl)
      have hterminal : k'.terminalWork = k.terminalWork := by
        rw [← hk']
        exact terminalWork_congr (htakes.running 2) rfl
      rw [hbefore, hmain]
      unfold Kernel.work
      simp only [MainStage.work]
      omega
  | rest hmain mail hpending hrests =>
      generalize hk' : ({ k with mail := mail, main := .loop } : Kernel Q) = k'
      have hmain' : k'.mainWork = 0 := by
        have hasleep := hrests.asleep
        rw [hexec] at hasleep
        rw [← hk']
        unfold mainWork
        rw [hasleep]
        rfl
      have hload : k'.mainLoad = k.mainLoad ∧ k'.terminalLoad = k.terminalLoad := by
        rw [← hk']
        unfold mainLoad terminalLoad
        simp only [hrests.pending hmailInv, and_self]
      have hring : k'.ringLoad = k.ringLoad := by
        rw [← hk']
        exact ringLoad_congr rfl (by rw [hmain]; rfl)
      have hterminal : k'.terminalWork = k.terminalWork := by
        rw [← hk']
        exact terminalWork_congr (hrests.running 2 hother) rfl
      rw [hbefore, hmain]
      unfold Kernel.work
      simp only [MainStage.work]
      omega
  | notify i push pushes driver hmain mail hcpu hhands hwakes =>
      generalize hk' : ({ k with mail := mail, main := .notify i pushes driver } : Kernel Q) = k'
      have hmain' : k'.mainWork ≤ pushes.length * 18 + 5 := by
        rw [← hk']
        exact mainWork_le _
      have hhands' : Hands k.mail (handTo 0 [(observedKey push).message]) k'.mail := by
        rw [← hk']
        exact hhands
      have hload : k'.mainLoad = k.mainLoad + 17 := mainLoad_hand hmailInv hhands'
      have hload' : k'.terminalLoad = k.terminalLoad + 0 := terminalLoad_hand hmailInv hhands'
      have hring : k'.ringLoad = k.ringLoad := by
        rw [← hk']
        exact ringLoad_congr rfl (by rw [hmain]; rfl)
      have hterminal : k'.terminalWork = k.terminalWork := by
        rw [← hk']
        exact terminalWork_congr (hwakes.others 2 (Nat.succ_ne_zero 1)) rfl
      rw [hbefore, hmain]
      unfold Kernel.work
      simp only [MainStage.work, List.length_cons]
      omega
  | send msg hmain mail hcpu hhands hwakes =>
      generalize hk' : ({ k with mail := mail, main := .loop } : Kernel Q) = k'
      have hmain' : k'.mainWork ≤ 2 := by
        rw [← hk']
        exact mainWork_le _
      have hhands' : Hands k.mail (handTo 2 [msg]) k'.mail := by
        rw [← hk']
        exact hhands
      have hload : k'.mainLoad = k.mainLoad + 0 := mainLoad_hand hmailInv hhands'
      have hload' : k'.terminalLoad = k.terminalLoad + (msg.terminalWork + 0) :=
        terminalLoad_hand hmailInv hhands'
      have hring : k'.ringLoad = k.ringLoad := by
        rw [← hk']
        exact ringLoad_congr rfl (by rw [hmain]; rfl)
      have hterminal := k'.terminalWork_le
      rw [hbefore, hmain]
      unfold Kernel.work
      simp only [MainStage.work]
      omega
  | configured hmain i epNum ring hring driver hdriver =>
      exact work_front_lt hrun hmain hring rfl rfl rfl rfl (Nat.le_refl 4)
  | transfer hmain i len ring hring keyboard hkeyboard pushes ret driver hdriver =>
      have hpushes := hkeyboards.length_pushes_le hmain hring hkeyboard hdriver
      refine work_front_lt hrun hmain hring rfl rfl rfl rfl ?_
      show pushes.length * 18 + 5 ≤ 113
      omega
  | mouse hmain activate ring hring =>
      exact work_front_lt hrun hmain hring rfl rfl rfl rfl (Nat.le_refl 4)
  | skip hmain event ring hring hevent =>
      refine work_front_lt hrun hmain hring rfl rfl rfl rfl ?_
      rcases hevent with rfl | ⟨i, rfl⟩ <;> exact Nat.le_refl 4
  | noEvent hmain hring =>
      refine work_goOn_lt hrun rfl rfl ?_ ?_
      · unfold ringLoad unhandled
        rw [hmain]
        rfl
      · rw [hmain]
        exact Nat.le_refl 3
  | pop hmain =>
      refine work_goOn_lt hrun rfl rfl ?_ ?_
      · unfold ringLoad unhandled
        rw [hmain]
        rfl
      · rw [hmain]
        exact Nat.le_refl 4
  | blink msg hmain =>
      refine work_goOn_lt hrun rfl rfl (ringLoad_congr rfl (by rw [hmain]; rfl)) ?_
      rw [hmain]
      exact Nat.le_refl (msg.terminalWork + 6)
  | nextReport i driver hmain keyboard hkeyboard =>
      refine work_goOn_lt hrun rfl rfl (ringLoad_congr rfl (by rw [hmain]; rfl)) ?_
      rw [hmain]
      exact Nat.le_refl 5
  | _ =>
      refine work_goOn_lt hrun rfl rfl (ringLoad_congr rfl (by rw [‹k.main = _›]; rfl)) ?_
      rw [‹k.main = _›]
      exact Nat.le_of_ble_eq_true rfl

open Kernel in
/-- A section of the task of the terminal. -/
theorem TerminalStep.work_lt (hstep : TerminalStep m k k') (hroles : Roles k)
    (hattention : Attention k) (hexec : k.mail.sys.cpu.executing = 2) :
    k'.work + 1 ≤ k.work := by
  have hmailInv := hroles.mail
  have hrun : k.mail.sys.manager.isRunning 2 = true := by
    rw [← hexec]
    exact Mail.isRunning_executing hmailInv
  have hother : (0 : TaskPtr) ≠ k.mail.sys.cpu.executing := by
    rw [hexec]
    exact (Nat.succ_ne_zero 1).symm
  have hopen : ∀ t, k.terminal = some t → k.terminalWork = 1 := fun t ht => by
    unfold terminalWork
    rw [hrun, ht]
    rfl
  cases hstep with
  | start hterminal =>
      have hwork : k.terminalWork = 2 := by
        unfold terminalWork
        rw [hrun, hterminal]
        rfl
      generalize hk' : ({ k with
        latestLayerId := k.latestLayerId + 1
        activeLayer := k.latestLayerId + 1
        layerTaskMap := [(k.latestLayerId + 1, 3)]
        terminal := some { terminal := .init, layerId := k.latestLayerId + 1 } } : Kernel Q) = k'
      have hwork' : k'.terminalWork = 1 := by
        rw [← hk']
        unfold terminalWork
        rw [hrun]
        rfl
      have hrest : k'.mainWork = k.mainWork ∧ k'.mainLoad = k.mainLoad ∧
          k'.terminalLoad = k.terminalLoad ∧ k'.ringLoad = k.ringLoad := by
        rw [← hk']
        exact ⟨rfl, rfl, rfl, rfl⟩
      unfold Kernel.work
      omega
  | rest t hterminal mail hpending hrests =>
      generalize hk' : ({ k with mail := mail } : Kernel Q) = k'
      have hwork := hopen t hterminal
      have hwork' : k'.terminalWork = 0 := by
        have hasleep := hrests.asleep
        rw [hexec] at hasleep
        rw [← hk']
        unfold terminalWork
        rw [hasleep]
        rfl
      have hload : k'.mainLoad = k.mainLoad ∧ k'.terminalLoad = k.terminalLoad := by
        rw [← hk']
        unfold mainLoad terminalLoad
        simp only [hrests.pending hmailInv, and_self]
      have hmain : k'.mainWork = k.mainWork ∧ k'.ringLoad = k.ringLoad := by
        rw [← hk']
        unfold mainWork
        rw [hrests.running 0 hother]
        exact ⟨rfl, rfl⟩
      unfold Kernel.work
      omega
  | ignore t hterminal msg msgs hpending t' hhandle mail htakes =>
      generalize hk' : ({ k with
        mail := mail, terminal := some { t with terminal := t' } } : Kernel Q) = k'
      have hself := htakes.pending_self hmailInv
      rw [hexec] at hself
      have hload : k.terminalLoad = msg.terminalWork + k'.terminalLoad := by
        rw [← hk']
        unfold terminalLoad
        rw [hself]
        rfl
      have hload' : k'.mainLoad = k.mainLoad := by
        rw [← hk']
        unfold mainLoad
        rw [htakes.pending_of_ne hmailInv hother]
      have hmain : k'.mainWork = k.mainWork ∧ k'.ringLoad = k.ringLoad := by
        rw [← hk']
        unfold mainWork
        rw [htakes.running 0]
        exact ⟨rfl, rfl⟩
      have hwork : k'.terminalWork = k.terminalWork := by
        rw [← hk']
        exact terminalWork_congr (htakes.running 2) (by rw [hterminal]; rfl)
      have hpos := msg.terminalWork_pos
      unfold Kernel.work
      omega
  | answer t hterminal msg msgs hpending t' area hhandle taken mail htakes hcpu hhands hwakes =>
      generalize hk' : ({ k with
        mail := mail, terminal := some { t with terminal := t' } } : Kernel Q) = k'
      have hself := htakes.pending_self hmailInv
      rw [hexec] at hself
      have hload : k.terminalLoad = 10 + k'.terminalLoad := by
        have hsame : mail.sys.manager.pending 2 = taken.sys.manager.pending 2 := by
          rw [hhands.pending htakes.inv]
          exact List.append_nil _
        rw [← hk']
        unfold terminalLoad
        rw [hself, List.map_cons, List.sum_cons, terminalWork_of_area hhandle]
        show _ = _ + ((mail.sys.manager.pending 2).map _).sum
        rw [hsame]
      have hload' : k'.mainLoad = k.mainLoad + 7 := by
        rw [← hk']
        unfold mainLoad
        show ((mail.sys.manager.pending 0).map _).sum = _
        rw [hhands.pending htakes.inv, htakes.pending_of_ne hmailInv hother, List.map_append,
          List.sum_append]
        rfl
      have hmain : k'.mainWork ≤ k.mainWork + 2 := by
        rw [← hk']
        exact mainWork_woken hattention rfl
      have hring : k'.ringLoad = k.ringLoad := by
        rw [← hk']
        rfl
      have hwork : k'.terminalWork = k.terminalWork := by
        rw [← hk']
        exact terminalWork_congr (hwakes.others 2 (Nat.succ_ne_zero 1)) (by rw [hterminal]; rfl)
      unfold Kernel.work
      omega

open Kernel in
/-- A tick. -/
theorem TimerStep.work_le {n : Nat} {reported : List Timer} {result : TickResult}
    (htimer : TimerStep k k' reported result) (hroles : Roles k) (htimers : k.Ticking)
    (hattention : Attention k) (hblinking : Blinking k n) : k'.work ≤ k.work + 19 := by
  have hlength := hblinking.length_reported_le htimers htimer
  have hkernel := htimer.kernel
  have hload := mainLoad_hand hroles.mail htimer.hands
  have hload' : k'.terminalLoad = k.terminalLoad + 0 := terminalLoad_hand hroles.mail htimer.hands
  have hring : k'.ringLoad = k.ringLoad := by
    rw [hkernel]
    rfl
  have hterminal : k'.terminalWork = k.terminalWork :=
    terminalWork_congr (htimer.others 2 (Or.inl (Nat.succ_ne_zero 1))) (by rw [hkernel])
  have hmain : k'.mainWork ≤ k.mainWork + 2 := mainWork_woken hattention (by rw [hkernel])
  have hsum : ((handTo 0 (reported.map Timer.message) 0).map Message.mainWork).sum ≤ 17 := by
    rw [handTo_self]
    match reported, hlength with
    | [], _ => exact Nat.zero_le _
    | [t], _ => exact Nat.le_refl 17
  unfold Kernel.work
  omega

open Kernel in
/-- **What one step does to the work.** -/
theorem KernelStep.work_le {n : Nat} (hstep : KernelStep m k op k') (hroles : Roles k)
    (htimers : k.Ticking) (hattention : Attention k) (hkeyboards : Keyboards k)
    (hblinking : Blinking k n) : k'.work + op.sections ≤ k.work + op.work := by
  cases hstep with
  | report i bytes keyboard hkeyboard hrequested hlength =>
      have hload := ringLoad_addEvent hkeyboards (.transfer i bytes.length)
      show k.mainWork + k.mainLoad + (k.terminalWork + k.terminalLoad) +
        (k.addEvent (.transfer i bytes.length)).ringLoad + 0 ≤ k.work + 111
      rw [hload]
      exact Nat.le_refl _
  | failed i keyboard hkeyboard hrequested =>
      have hload := ringLoad_addEvent hkeyboards (.failed i)
      show k.mainWork + k.mainLoad + (k.terminalWork + k.terminalLoad) +
        (k.addEvent (.failed i)).ringLoad + 0 ≤ k.work + 2
      rw [hload]
      exact Nat.le_refl _
  | configured i epNum hnew hring =>
      have hload := ringLoad_addEvent hkeyboards (.configured i epNum)
      show k.mainWork + k.mainLoad + (k.terminalWork + k.terminalLoad) +
        (k.addEvent (.configured i epNum)).ringLoad + 0 ≤ k.work + 2
      rw [hload]
      exact Nat.le_refl _
  | event event hevent =>
      have hload := ringLoad_addEvent hkeyboards event
      have hwork : event.work = 2 := by
        cases event with
        | transfer i len => cases hevent
        | _ => rfl
      show k.mainWork + k.mainLoad + (k.terminalWork + k.terminalLoad) +
        (k.addEvent event).ringLoad + 0 ≤ k.work + 2
      rw [hload, hwork]
      exact Nat.le_refl _
  | interruptXHCI hirq mail hcpu hhands hwakes =>
      generalize hk' : ({ k with irq := false, mail := mail } : Kernel Q) = k'
      have hhands' : Hands k.mail (handTo 0 [{ type := .kInterruptXHCI }]) k'.mail := by
        rw [← hk']
        exact hhands
      have hload : k'.mainLoad = k.mainLoad + 4 := mainLoad_hand hroles.mail hhands'
      have hload' : k'.terminalLoad = k.terminalLoad + 0 := terminalLoad_hand hroles.mail hhands'
      have hring : k'.ringLoad = k.ringLoad := by
        rw [← hk']
        rfl
      have hterminal : k'.terminalWork = k.terminalWork := by
        rw [← hk']
        exact terminalWork_congr (hwakes.others 2 (Nat.succ_ne_zero 1)) rfl
      have hmain : k'.mainWork ≤ k.mainWork + 2 := by
        rw [← hk']
        exact mainWork_woken hattention rfl
      unfold Kernel.work
      show _ ≤ _ + 6
      simp only [KernelOp.sections]
      omega
  | interruptTimer hrange k' reported result htimer =>
      exact htimer.work_le hroles htimers hattention hblinking
  | main hexec k' hmain => exact hmain.work_lt hroles hkeyboards hexec
  | terminal hexec hlate k' hterminal => exact hterminal.work_lt hroles hattention hexec

/-- A step of a run pays for its section with the work that it does, and an input brings its own. -/
theorem Kernel.Reachable.work_step {tick : Nat} (htick : tick < kTimer05Sec)
    (hr : k.Reachable m tick) (hok : op.Permitted k) (hstep : k.step m op = some k') :
    k'.work + op.sections ≤ k.work + op.work := by
  obtain ⟨hroles, htimers⟩ := hr.roles htick
  obtain ⟨n, hblinking⟩ := hr.exists_blinking htick
  exact (kernelStep_of hroles htimers hok hstep).work_le hroles htimers (hr.attention htick)
    (hr.keyboards htick) hblinking

/-! ## Runs -/

/-- **No storm of messages**: the number of sections in a run is bounded by what was to be done at its
start and what has come from outside. -/
theorem Kernel.Reachable.sections_bounded {tick : Nat} (htick : tick < kTimer05Sec)
    (hr : k.Reachable m tick) {ops : List KernelOp}
    (hops : runPermitted (Kernel.step m) (fun k op => op.Permitted k) k ops = some k') :
    k'.work + (ops.map KernelOp.sections).sum ≤ k.work + (ops.map KernelOp.work).sum := by
  induction ops generalizing k with
  | nil =>
      cases hops
      exact Nat.le_refl _
  | cons op ops ih =>
      rw [runPermitted] at hops
      split_ifs at hops with hok
      obtain ⟨k₁, hk₁, hrest⟩ := Option.bind_eq_some_iff.mp hops
      have hr₁ : k₁.Reachable m tick := Transition.Reachable.step hr hok hk₁
      have hfirst := hr.work_step htick hok hk₁
      have hall := ih hr₁ hrest
      rw [List.map_cons, List.sum_cons, List.map_cons, List.sum_cons]
      omega

/-- In the example the sections of the whole run are paid for by its inputs. -/
theorem sections_bounded_typing :
    typed.work + (typing.map KernelOp.sections).sum ≤
      (Kernel.init 0 : Kernel (List Timer)).work + (typing.map KernelOp.work).sum := by
  have hinit : (Kernel.init 0 : Kernel (List Timer)).Reachable emptyMachine 0 := .init
  exact hinit.sections_bounded (by decide) (Option.some_get typed?_isSome).symm

end UhyokOS
