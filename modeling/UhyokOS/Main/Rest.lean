import UhyokOS.Main.Delivery

/-!
# Nothing is left behind

When the kernel is at rest, everything has been dealt with, and until then no task gets stuck.

* `Attention`: an event on the ring is always announced, by an interrupt, by a message or because the
  main task is on its way to it; and a task sleeps only at the head of its loop.
* `Kernel.Reachable.at_rest`: both tasks asleep and no interrupt requested means that all reports have
  become keys, all keys have been received, and all redraws have been carried out and reported.
* `Kernel.Reachable.step_isSome`: no step of a run is undefined, but for a key that the terminal cannot
  handle.
-/

set_option linter.unusedSectionVars false

namespace UhyokOS

open Transition HIDKeyboardDriver

/-! ## Events are announced -/

namespace MainStage

/-- The main task will come to the head of the loop of `ProcessEvents`. -/
def attending : MainStage → Bool
  | .handle msg => msg.type = .kInterruptXHCI
  | .events => true
  | .notify _ _ _ => true
  | .pop => true
  | _ => false

/-- The task of the terminal has been woken for the first time. -/
def started : MainStage → Bool
  | .addTaskTimer => false
  | .newTask => false
  | .wakeTask _ => false
  | _ => true

end MainStage

variable {Q : Type}

/-- Events are announced, and tasks sleep only at the heads of their loops. -/
structure Attention (k : Kernel Q) : Prop where
  announced : k.ring ≠ [] → k.irq = true ∨
    (∃ msg ∈ k.mail.sys.manager.pending 0, msg.type = .kInterruptXHCI) ∨ k.main.attending = true
  main : k.mail.sys.manager.isRunning 0 = false → k.main = .loop
  terminal : k.mail.sys.manager.isRunning 2 = false → k.main.started = true →
    k.terminal.isSome = true

namespace Attention

variable {k k' : Kernel Q}

/-- Nobody goes to sleep, and no message is taken. -/
theorem hand (h : Attention k) (hroles : Roles k) {msgs : TaskPtr → List Message}
    (hhands : Hands k.mail msgs k'.mail) (hring : k'.ring = k.ring) (hirq : k'.irq = k.irq)
    (hattending : k.main.attending = true → k'.main.attending = true)
    (hmain : k.mail.sys.manager.isRunning 0 = true ∨ k'.main = k.main)
    (hstarted : k.mail.sys.manager.isRunning 2 = false → k'.mail.sys.manager.isRunning 2 = false →
      k'.main.started = true → k.main.started = true)
    (hterminal : k.terminal.isSome = true → k'.terminal.isSome = true) : Attention k' where
  announced hne := by
    rw [hring] at hne
    rw [hirq]
    rcases h.announced hne with hirq | ⟨msg, hmsg, htype⟩ | hattend
    · exact Or.inl hirq
    · refine Or.inr (Or.inl ⟨msg, ?_, htype⟩)
      rw [hhands.pending hroles.mail]
      exact List.mem_append_left _ hmsg
    · exact Or.inr (Or.inr (hattending hattend))
  main hasleep := by
    have hbefore : k.mail.sys.manager.isRunning 0 = false := by
      by_contra hrun
      rw [hhands.running 0 (Bool.not_eq_false _ ▸ hrun)] at hasleep
      cases hasleep
    rcases hmain with hmain | hmain
    · exact absurd (hmain.symm.trans hbefore) nofun
    · rw [hmain]
      exact h.main hbefore
  terminal hasleep hafter := by
    have hbefore : k.mail.sys.manager.isRunning 2 = false := by
      by_contra hrun
      rw [hhands.running 2 (Bool.not_eq_false _ ▸ hrun)] at hasleep
      cases hasleep
    exact hterminal (h.terminal hbefore (hstarted hbefore hasleep hafter))

/-- The main task goes on, with the mailboxes as they are. -/
theorem goOn (h : Attention k) (hroles : Roles k) (hmail : k'.mail = k.mail)
    (hring : k'.ring = k.ring) (hirq : k'.irq = k.irq)
    (hattending : k.main.attending = false ∨ k'.main.attending = true)
    (hmain : k.mail.sys.manager.isRunning 0 = true) (hstarted : k'.main.started = k.main.started)
    (hterminal : k'.terminal = k.terminal) : Attention k' := by
  have hhands : Hands k.mail (fun _ => []) k'.mail := by
    rw [hmail]
    exact Hands.refl hroles.mail
  refine h.hand hroles hhands hring hirq (fun hattend => ?_) (Or.inl hmain)
    (fun _ _ hafter => hstarted ▸ hafter) (fun hsome => hterminal ▸ hsome)
  exact hattending.resolve_left fun hnot => absurd (hnot.symm.trans hattend) nofun

variable [PriorityQueue Q Timer]

/-- A section of the main task. It takes an event off the ring only where it is attending, and goes
to sleep only if its mailbox is empty; then no message announces an event, and an interrupt must
still be requested. -/
theorem mainStep (h : Attention k) (hroles : Roles k) (hexec : k.mail.sys.cpu.executing = 0)
    (hstep : MainStep k k') : Attention k' := by
  have hrun : k.mail.sys.manager.isRunning 0 = true := by
    rw [← hexec]
    exact Mail.isRunning_executing hroles.mail
  cases hstep with
  | newTask hmain mail hinv hmanager hcpu hsent hreceived =>
      have hpending : mail.sys.manager.pending 0 = k.mail.sys.manager.pending 0 := by
        have hfifo := congrFun hsent 0
        rw [hinv.fifo, hroles.mail.fifo, hreceived] at hfifo
        exact List.append_cancel_left hfifo
      have hrun' : mail.sys.manager.isRunning 0 = true := by
        rw [← hexec, ← hcpu]
        exact Mail.isRunning_executing hinv
      refine ⟨fun hne => ?_, fun hasleep => absurd (hrun'.symm.trans hasleep) nofun, nofun⟩
      rcases h.announced hne with hirq | hmsg | hattend
      · exact Or.inl hirq
      · exact Or.inr (Or.inl (hpending ▸ hmsg))
      · rw [hmain] at hattend
        cases hattend
  | wakeTask hmain mail hcpu hhands hwakes =>
      refine h.hand hroles hhands rfl rfl (by rw [hmain]; exact nofun) (Or.inl hrun)
        (fun _ hasleep => absurd (hwakes.self.symm.trans hasleep) nofun) id
  | take hmain msg msgs mail hpending htakes =>
      have hself := htakes.pending_self hroles.mail
      rw [hexec] at hself
      refine ⟨fun hne => ?_, fun hasleep => ?_, fun hasleep _ => ?_⟩
      · rcases h.announced hne with hirq | ⟨msg', hmsg', htype⟩ | hattend
        · exact Or.inl hirq
        · rw [hself] at hmsg'
          rcases List.mem_cons.mp hmsg' with rfl | hmsg'
          · exact Or.inr (Or.inr (decide_eq_true htype))
          · exact Or.inr (Or.inl ⟨msg', hmsg', htype⟩)
        · rw [hmain] at hattend
          cases hattend
      · exact absurd ((htakes.running 0).trans hrun ▸ hasleep) nofun
      · exact h.terminal ((htakes.running 2).symm.trans hasleep) (by rw [hmain]; rfl)
  | rest hmain mail hpending hrests =>
      refine ⟨fun hne => ?_, fun _ => rfl, fun hasleep _ => ?_⟩
      · rcases h.announced hne with hirq | ⟨msg', hmsg', htype⟩ | hattend
        · exact Or.inl hirq
        · rw [hpending] at hmsg'
          cases hmsg'
        · rw [hmain] at hattend
          cases hattend
      · have hsame := hrests.running 2 (by rw [hexec]; exact nofun)
        exact h.terminal (hsame.symm.trans hasleep) (by rw [hmain]; rfl)
  | noEvent hmain hring =>
      exact ⟨fun hne => absurd hring hne, fun hasleep => absurd (hrun.symm.trans hasleep) nofun,
        fun hasleep _ => h.terminal hasleep (by rw [hmain]; rfl)⟩
  | pop hmain =>
      exact ⟨fun _ => Or.inr (Or.inr rfl), fun hasleep => absurd (hrun.symm.trans hasleep) nofun,
        fun hasleep _ => h.terminal hasleep (by rw [hmain]; rfl)⟩
  | notify i push pushes driver hmain mail hcpu hhands =>
      exact h.hand hroles hhands rfl rfl (fun _ => rfl) (Or.inl hrun)
        (fun _ _ _ => by rw [hmain]; rfl) id
  | send msg hmain mail hcpu hhands hwakes =>
      exact h.hand hroles hhands rfl rfl (by rw [hmain]; exact nofun) (Or.inl hrun)
        (fun _ _ _ => by rw [hmain]; rfl) id
  | _ =>
      refine h.goOn hroles rfl rfl rfl ?_ hrun (by rw [‹k.main = _›]; rfl) rfl
      first
        | exact Or.inr rfl
        | exact Or.inl (by rw [‹k.main = _›]; rfl)

/-- A section of the terminal's task. It leaves the ring and the mailbox of the main task's messages
as they are, but for a message it may add, and it can go to sleep only after the terminal was
made. -/
theorem terminalStep {m : Machine} (h : Attention k) (hroles : Roles k)
    (hexec : k.mail.sys.cpu.executing = 2) (hstep : TerminalStep m k k') : Attention k' := by
  have hmain : (0 : TaskPtr) ≠ k.mail.sys.cpu.executing := by
    rw [hexec]
    exact nofun
  cases hstep with
  | start hterminal => exact ⟨h.announced, h.main, fun _ _ => rfl⟩
  | rest t hterminal mail hpending hrests =>
      refine ⟨fun hne => ?_, fun hasleep => ?_, fun _ _ => ?_⟩
      · have hmsgs := hrests.pending hroles.mail 0
        rcases h.announced hne with hirq | hmsg | hattend
        · exact Or.inl hirq
        · exact Or.inr (Or.inl (hmsgs ▸ hmsg))
        · exact Or.inr (Or.inr hattend)
      · exact h.main ((hrests.running 0 hmain).symm.trans hasleep)
      · exact Option.isSome_of_mem hterminal
  | ignore t hterminal msg msgs hpending t' hhandle mail htakes =>
      refine ⟨fun hne => ?_, fun hasleep => ?_, fun _ _ => rfl⟩
      · have hmsgs := htakes.pending_of_ne hroles.mail hmain
        rcases h.announced hne with hirq | hmsg | hattend
        · exact Or.inl hirq
        · exact Or.inr (Or.inl (hmsgs ▸ hmsg))
        · exact Or.inr (Or.inr hattend)
      · exact h.main ((htakes.running 0).symm.trans hasleep)
  | answer t hterminal msg msgs hpending t' area hhandle taken mail htakes hcpu hhands hwakes =>
      refine ⟨fun hne => ?_, fun hasleep => absurd (hwakes.self.symm.trans hasleep) nofun,
        fun _ _ => rfl⟩
      have hmsgs := htakes.pending_of_ne hroles.mail hmain
      rcases h.announced hne with hirq | ⟨msg', hmsg', htype⟩ | hattend
      · exact Or.inl hirq
      · refine Or.inr (Or.inl ⟨msg', ?_, htype⟩)
        show msg' ∈ mail.sys.manager.pending 0
        rw [hhands.pending htakes.inv, hmsgs]
        exact List.mem_append_left _ hmsg'
      · exact Or.inr (Or.inr hattend)

/-- **One step** keeps events announced. A new event requests an interrupt, the handler of the
interrupt sends a message, and the main task takes the message on its way to the ring. -/
theorem step {m : Machine} {op : KernelOp} (h : Attention k) (hroles : Roles k)
    (hstep : KernelStep m k op k') : Attention k' := by
  cases hstep with
  | interruptXHCI hirq mail hcpu hhands hwakes =>
      refine ⟨fun _ => Or.inr (Or.inl ⟨{ type := .kInterruptXHCI }, ?_, rfl⟩),
        fun hasleep => absurd (hwakes.self.symm.trans hasleep) nofun, fun hasleep hstarted => ?_⟩
      · show _ ∈ mail.sys.manager.pending 0
        rw [hhands.pending hroles.mail, handTo_self]
        exact List.mem_append_right _ List.mem_cons_self
      · refine h.terminal ?_ hstarted
        by_contra hrun
        exact absurd ((hhands.running 2 (Bool.not_eq_false _ ▸ hrun)).symm.trans hasleep) nofun
  | interruptTimer hrange k' reported result htimer =>
      rw [htimer.kernel]
      exact h.hand hroles htimer.hands rfl rfl id (Or.inr rfl) (fun _ _ => id) id
  | main hexec k' hmain => exact h.mainStep hroles hexec hmain
  | terminal hexec hlate k' hterminal => exact h.terminalStep hroles hexec hterminal
  | _ => exact ⟨fun _ => Or.inl rfl, h.main, h.terminal⟩

/-- At the start the ring is empty and both tasks are running, so that there is nothing to
announce. -/
theorem init (tick : Nat) : Attention (.init tick : Kernel Q) :=
  ⟨fun hne => absurd rfl hne, nofun, nofun⟩

end Attention

/-! ## Everything has been dealt with -/

/-- Both tasks sleep, and the controller has requested no interrupt. -/
structure Kernel.AtRest (k : Kernel Q) : Prop where
  main : k.mail.sys.manager.isRunning 0 = false
  terminal : k.mail.sys.manager.isRunning 2 = false
  irq : k.irq = false

/-- A task that sleeps has no messages. -/
theorem MailInv.pending_eq_nil {s : Mail} (h : MailInv s) {p : TaskPtr}
    (hasleep : s.sys.manager.isRunning p = false) : s.sys.manager.pending p = [] := by
  by_contra hne
  exact absurd ((h.awake p hne).symm.trans hasleep) nofun

namespace Kernel.Reachable

variable [PriorityQueue Q Timer] {k : Kernel Q} {m : Machine} {tick : Nat}

/-- In every reachable state events are announced, by induction on the run. -/
theorem attention (htick : tick < kTimer05Sec) (hr : k.Reachable m tick) : Attention k :=
  hr.invariant _ htick (.init tick) fun _ _ _ hroles _ h hstep => h.step hroles hstep

/-- **At rest nothing is left behind.** No event is on the ring and no message in a mailbox; the
observer has been called for the new keys of all reports, and all these have been dealt with in their
order; the terminal is what the messages for it have made of it, the ones with its keys among them,
and all its redraws have been carried out and reported finished. -/
theorem at_rest (htick : tick < kTimer05Sec) (hr : k.Reachable m tick) (hrest : k.AtRest) :
    k.ring = [] ∧ k.mail.sys.manager.pending 0 = [] ∧ k.mail.sys.manager.pending 2 = [] ∧
    (∀ i keyboard, k.keyboards i = some keyboard →
      k.keysOf i = newKeys noReport keyboard.reports) ∧
    k.pressed.map Prod.snd = k.routed.map Prod.fst ∧
    k.forTerminal = (k.mail.received 2).filterMap Message.key? ∧
    ∃ t areas, k.terminal = some t ∧
      Terminal.init.run m (k.mail.received 2) = some (t.terminal, areas) ∧
      k.layerCalls = areas.map (LayerCall.drawArea t.layerId) ∧
      ((k.mail.received 2).filterMap Message.finish?).length = areas.length := by
  have hmail := (hr.roles htick).1.mail
  have hattention := hr.attention htick
  have hkeyboards := hr.keyboards htick
  have hmain := hattention.main hrest.main
  have hpending₀ := hmail.pending_eq_nil hrest.main
  have hpending₂ := hmail.pending_eq_nil hrest.terminal
  have hring : k.ring = [] := by
    by_contra hne
    rcases hattention.announced hne with hirq | ⟨msg, hmsg, -⟩ | hattend
    · exact absurd (hirq.symm.trans hrest.irq) nofun
    · rw [hpending₀] at hmsg
      cases hmsg
    · rw [hmain] at hattend
      cases hattend
  have hwaiting : ∀ i, k.waiting i = [] := fun i => by
    unfold Kernel.waiting Kernel.unhandled
    rw [hring]
    exact congrArg _ (ite_self _)
  have hsome := hattention.terminal hrest.terminal (by rw [hmain]; rfl)
  obtain ⟨t, ht⟩ := Option.isSome_iff_exists.mp hsome
  obtain ⟨areas, hrun, hareas⟩ := (hr.output htick).opened t ht
  have hkeys := hr.pressed_eq htick
  have hforTerminal := hr.forTerminal_eq htick
  have hrequests := hareas.symm.trans (hr.requests_eq htick)
  have hfinished := hr.length_layerCalls htick
  simp only [hmain, hpending₀, hpending₂, MainStage.keyInHand, MainStage.toNotify,
    MainStage.keyToSend, MainStage.callInHand, MainStage.finishToSend, List.filterMap_nil,
    List.append_nil, List.length_nil, Nat.add_zero] at hkeys hforTerminal hrequests hfinished
  refine ⟨hring, hpending₀, hpending₂, fun i keyboard hkeyboard => ?_, hkeys, hforTerminal,
    t, areas, ht, hrun, hrequests.symm, ?_⟩
  · obtain ⟨handled, waiting, hreports, hlength, heq⟩ := hkeyboards.keysOf_eq hkeyboard
    rw [hwaiting, List.length_nil, Nat.le_zero, List.length_eq_zero_iff] at hlength
    rw [heq, hreports, hlength, List.append_nil]
  · rw [← hfinished, ← hrequests, List.length_map]

/-- The kernel after a key was typed and dealt with: the terminal is what its messages made of it,
and all redraws have been carried out and reported. -/
theorem at_rest_typed : ∃ t areas, typed.terminal = some t ∧
    Terminal.init.run emptyMachine (typed.mail.received 2) = some (t.terminal, areas) ∧
    typed.layerCalls = areas.map (LayerCall.drawArea t.layerId) ∧
    ((typed.mail.received 2).filterMap Message.finish?).length = areas.length :=
  (typed_reachable.at_rest (by decide)
    ⟨by decide +kernel, by decide +kernel, by decide +kernel⟩).2.2.2.2.2.2

end Kernel.Reachable

/-! ## No step is undefined -/

variable [PriorityQueue Q Timer] {k : Kernel Q}

/-- The loop of `ProcessEvents`: a keyboard with a report is known, and its driver can deal with it. -/
theorem processEvent_isSome (h : Keyboards k) (hmain : k.main = .events) {event : UsbEvent}
    {ring : List UsbEvent} (hring : k.ring = event :: ring) :
    (k.processEvent event).isSome = true := by
  cases event with
  | configured i epNum =>
      have hobserver := h.observer (by rw [hmain]; rfl)
      obtain ⟨driver, hdriver, -⟩ := exists_newKeyboardDriver (.new epNum true)
      simp only [Kernel.processEvent, hobserver, hdriver, Option.map_some, Option.isSome_some]
  | transfer i len =>
      obtain ⟨keyboard, d, bytes, prev, hkeyboard, hdriver, rfl, hlength, hshows⟩ :=
        h.exists_arrived hmain hring
      obtain ⟨pushes, ret, d', heq, -, -⟩ := onInterruptCompleted_dma hshows hlength keyboard.epNum
      simp only [Kernel.processEvent, hkeyboard, hdriver, Option.bind_some, heq, Option.map_some,
        Option.isSome_some]
  | _ => rfl

/-- **A section of the main task is defined**, by cases on the point that it has reached: the id of
a message's receiver is that of a task, the keyboard of a report is known, and every message has the
argument that is read. -/
theorem mainSection_isSome (hroles : Roles k) (h : Keyboards k)
    (hexec : k.mail.sys.cpu.executing = 0) : k.mainSection.isSome = true := by
  have hidle : k.mail.sys.cpu.executing ≠ 1 := by
    rw [hexec]
    exact nofun
  have hsound := hroles.sound
  unfold Kernel.mainSection
  cases hmain : k.main with
  | newTask =>
      obtain ⟨mail, hmail, -⟩ := Mail.newTask_spec hroles.mail
      simp only [Kernel.mailOp, hmail, Option.map_some, Option.isSome_some]
  | wakeTask task =>
      obtain rfl : task = 2 := by rwa [hmain] at hsound
      have hlt : 2 < k.mail.sys.manager.tasks.length := by
        rw [hroles.length, hmain]
        decide
      obtain ⟨mail, hmail, -⟩ := Mail.wakeup_spec hroles.mail hlt
      simp only [Kernel.mailOp, Kernel.goto, hmail, Option.map_some, Option.isSome_some]
  | receive =>
      simp only [Mail.next?, hexec]
      cases hpending : k.mail.sys.manager.pending 0 with
      | nil =>
          obtain ⟨mail, hmail, -⟩ := Mail.sleep_spec hroles.mail hidle (hexec ▸ hpending)
          simp only [List.head?_nil, Kernel.mailOp, Kernel.goto, hmail, Option.map_some,
            Option.isSome_some]
      | cons msg msgs =>
          obtain ⟨mail, hmail, -⟩ := Mail.take_spec hroles.mail hidle (hexec ▸ hpending)
          simp only [List.head?_cons, Kernel.mailOp, Kernel.goto, hmail, Option.map_some,
            Option.isSome_some]
  | handle msg =>
      rw [hmain] at hsound
      obtain ⟨type, srcTask, arg⟩ := msg
      cases type with
      | kTimerTimeout =>
          cases arg with
          | timer timeout value =>
              show (ite _ _ _ : Option (Kernel Q)).isSome = true
              split_ifs <;> rfl
          | _ => exact hsound.elim
      | kKeyPush =>
          cases arg with
          | keyboard modifier keycode ascii =>
              show (ite _ _ _ : Option (Kernel Q)).isSome = true
              split_ifs <;> rfl
          | _ => exact hsound.elim
      | kLayer =>
          cases arg with
          | layer op layerId x y w height => rfl
          | _ => exact hsound.elim
      | _ => rfl
  | events =>
      cases hring : k.ring with
      | nil => rfl
      | cons event ring => exact processEvent_isSome h hmain hring
  | notify i pushes driver =>
      cases pushes with
      | nil =>
          cases hkeyboard : k.keyboards i with
          | none =>
              have hdriver := (h.unknown i hkeyboard).2.1
              rw [hmain] at hdriver
              exact absurd ((if_pos rfl).symm.trans hdriver) (Option.some_ne_none _)
          | some keyboard =>
              simp only [Kernel.nextReport, hkeyboard, Option.map_some, Option.isSome_some]
      | cons push pushes =>
          obtain ⟨mail, hmail, -⟩ := hroles.send_main (observedKey push).message
          simp only [Kernel.sendMessage, Kernel.mailOp, Kernel.goto, hmail, Option.map_some,
            Option.isSome_some]
  | findTask act key =>
      cases hfound : k.layerTaskMap.lookup act <;> simp only [hfound, Option.isSome_some]
  | send id msg =>
      rw [hmain] at hsound
      obtain ⟨rfl, -⟩ := hsound
      obtain ⟨mail, hmail, -⟩ := hroles.send_terminal (by rw [hmain]; rfl) msg
      simp only [Kernel.sendMessage, Kernel.mailOp, Kernel.goto, hmail, Option.map_some,
        Option.isSome_some]
  | _ => rfl

/-- A section of the terminal's task is defined if it can handle the message at the front of its
mailbox; its redraw goes to the main task, which exists. -/
theorem terminalSection_isSome {m : Machine} (hroles : Roles k)
    (hexec : k.mail.sys.cpu.executing = 2)
    (hhandle : ∀ t msg, k.terminal = some t → (k.mail.sys.manager.pending 2).head? = some msg →
      Kernel.terminalHandle m t.terminal msg ≠ none) :
    (k.terminalSection m 3).isSome = true := by
  have hidle : k.mail.sys.cpu.executing ≠ 1 := by
    rw [hexec]
    exact nofun
  unfold Kernel.terminalSection
  cases hterminal : k.terminal with
  | none => rfl
  | some t =>
      simp only [Mail.next?, hexec]
      cases hpending : k.mail.sys.manager.pending 2 with
      | nil =>
          obtain ⟨mail, hmail, -⟩ := Mail.sleep_spec hroles.mail hidle (hexec ▸ hpending)
          simp only [List.head?_nil, Kernel.mailOp, hmail, Option.map_some, Option.isSome_some]
      | cons msg msgs =>
          have hdefined := hhandle t msg hterminal (by rw [hpending]; rfl)
          obtain ⟨⟨t', area⟩, hsome⟩ := Option.ne_none_iff_exists'.mp hdefined
          obtain ⟨taken, htaken, htakes⟩ := Mail.take_spec hroles.mail hidle (hexec ▸ hpending)
          cases area with
          | none =>
              simp only [List.head?_cons, hsome, Option.bind_some, Kernel.mailOp, htaken,
                Option.map_some, Option.isSome_some]
          | some area =>
              obtain ⟨mail, hmail, -⟩ := Mail.sendMessage_spec htakes.inv 1
                (makeLayerMessage 3 t.layerId .drawArea area)
              simp only [List.head?_cons, hsome, Option.bind_some, Kernel.mailOp,
                Kernel.sendMessage, htaken, hmail, Option.map_some, Option.isSome_some]

/-- **No step of a run is undefined**: not the look-up of a keyboard or its driver, not the default
observer, not the argument of a message; only `InputKey` can be. -/
theorem Kernel.Reachable.step_isSome {m : Machine} {tick : Nat} {op : KernelOp}
    (htick : tick < kTimer05Sec) (hr : k.Reachable m tick) (hok : op.Permitted k)
    (hhandle : ∀ t msg, k.terminal = some t → (k.mail.sys.manager.pending 2).head? = some msg →
      Kernel.terminalHandle m t.terminal msg ≠ none) : (k.step m op).isSome = true := by
  obtain ⟨hroles, htimers⟩ := hr.roles htick
  cases op with
  | report i bytes =>
      obtain ⟨keyboard, hkeyboard, -⟩ := Kernel.requested_eq_true.mp hok.1
      simp only [Kernel.step, hkeyboard, Option.map_some, Option.isSome_some]
  | event event =>
      cases event with
      | transfer i len => exact hok.elim
      | failed i =>
          obtain ⟨keyboard, hkeyboard, -⟩ := Kernel.requested_eq_true.mp hok
          simp only [Kernel.step, hkeyboard, Option.map_some, Option.isSome_some]
      | _ => rfl
  | interruptXHCI =>
      obtain ⟨mail, hmail, -⟩ := hroles.intHandlerXHCI
      exact Option.isSome_of_eq_some hmail
  | interruptTimer =>
      obtain ⟨k', reported, result, hk', -⟩ := timerStep_spec hroles htimers hok
      exact Option.isSome_of_eq_some hk'
  | main => exact mainSection_isSome hroles (hr.keyboards htick) hok
  | terminal =>
      obtain ⟨hexec, -, hid⟩ := hroles.terminal hok.1 hok.2
      simp only [Kernel.step, hid, Option.bind_some]
      exact terminalSection_isSome hroles hexec hhandle

/-- The kernel after a key was typed takes an interrupt of the timer. -/
theorem step_isSome_typed : (typed.step emptyMachine .interruptTimer).isSome = true := by
  refine typed_reachable.step_isSome (by decide) (by decide +kernel) fun t msg _ hmsg => ?_
  have hempty : (typed.mail.sys.manager.pending 2).head? = none := by decide +kernel
  exact absurd (hempty.symm.trans hmsg) (Option.some_ne_none msg).symm

end UhyokOS
