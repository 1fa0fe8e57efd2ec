import UhyokOS.Task.Runs

/-!
# Message delivery

The task manager under load: every task but the idle one runs the loop of `KernelMainNewStack` and
`TaskTerminal`, which with interrupts disabled calls `ReceiveMessage` and sleeps if that yields
nothing. Senders, interrupt handlers, preemptions and wake-ups come in between in any order.

`Mail` is the running system with two ghost records, the messages sent to each task and the
messages each task has received.

* `mailInv_preserved`: what was sent to a task is what it has received followed by what is pending
  in its `msgs_`, and a task with pending messages is running.
* `delivered_in_order`: delivery is first in first out, and no task sleeps on a pending message.
-/

namespace UhyokOS

open Transition

/-! ## What one operation does to the mailboxes -/

namespace TaskManager

/-- `msgs_` of the task behind a pointer. -/
def pending (tm : TaskManager) (p : TaskPtr) : List Message := (tm.tasks[p]?).elim [] Task.msgs

/-- `running_` of the task behind a pointer. -/
def isRunning (tm : TaskManager) (p : TaskPtr) : Bool := (tm.tasks[p]?).elim false Task.running

variable {tm tm' : TaskManager} {task p : TaskPtr} {t : Task}

/-- The mailbox of a task of the manager. -/
theorem pending_eq (ht : tm.tasks[p]? = some t) : tm.pending p = t.msgs := by
  simp [pending, ht]

/-- The `running` flag of a task of the manager. -/
theorem isRunning_eq (ht : tm.tasks[p]? = some t) : tm.isRunning p = t.running := by
  simp [isRunning, ht]

/-- The mailbox depends on the task only. -/
theorem pending_congr (h : tm'.tasks[p]? = tm.tasks[p]?) : tm'.pending p = tm.pending p := by
  simp [pending, h]

/-- The flag depends on the task only. -/
theorem isRunning_congr (h : tm'.tasks[p]? = tm.tasks[p]?) : tm'.isRunning p = tm.isRunning p := by
  simp [isRunning, h]

/-- A new task has no messages. -/
theorem pending_newTask (p : TaskPtr) : tm.newTask.1.pending p = tm.pending p := by
  by_cases hp : p < tm.tasks.length
  · exact pending_congr (List.getElem?_append_left hp)
  · have hnone : tm.tasks[p]? = none := List.getElem?_eq_none (not_lt.mp hp)
    simp only [pending, newTask, List.getElem?_append_right (not_lt.mp hp), hnone]
    cases p - tm.tasks.length <;> rfl

/-- A new task does not put another one to sleep. -/
theorem isRunning_newTask (h : tm.isRunning p = true) : tm.newTask.1.isRunning p = true := by
  by_cases hp : p < tm.tasks.length
  · exact (isRunning_congr (List.getElem?_append_left hp)).trans h
  · simp [isRunning, List.getElem?_eq_none (not_lt.mp hp)] at h

/-- A wake-up keeps every mailbox and stops nobody. -/
theorem Woken.mailboxes (h : Woken tm task t tm') (hrun : tm.isRunning p = true) :
    tm'.isRunning p = true := by
  by_cases hp : p = task
  · subst hp
    obtain ⟨lv, hself⟩ := h.self
    rw [isRunning_eq hself]
  · rw [isRunning_congr (h.others p hp)]
    exact hrun

/-- Waking a task up touches no other mailbox. -/
theorem Woken.pending (h : Woken tm task t tm') (p : TaskPtr) :
    tm'.pending p = if p = task then t.msgs else tm.pending p := by
  split_ifs with hp
  · subst hp
    obtain ⟨lv, hself⟩ := h.self
    rw [pending_eq hself]
  · exact pending_congr (h.others p hp)

/-- Waking a task up delivers nothing and loses nothing. -/
theorem Woken.pending_eq_self (h : Woken tm task t tm') (ht : tm.tasks[task]? = some t)
    (p : TaskPtr) : tm'.pending p = tm.pending p := by
  rw [h.pending]
  split_ifs with hp
  · rw [hp, pending_eq ht]
  · rfl

end TaskManager

/-- The messages an operation delivers to a task. -/
def TaskOp.messagesTo (s : System) (p : TaskPtr) : TaskOp → List Message
  | .sendMessage id msg => if s.manager.find? id = some p then [msg] else []
  | _ => []

/-- The operations that put a task to sleep. -/
def TaskOp.isSleep : TaskOp → Bool
  | .sleep _ => true
  | .sleepId _ => true
  | _ => false

/-- What an operation that puts nobody to sleep does to the mailboxes: it appends its messages and
leaves their receivers running. -/
structure Mails (s : System) (op : TaskOp) (s' : System) : Prop where
  pending : ∀ p, s'.manager.pending p = s.manager.pending p ++ op.messagesTo s p
  running : ∀ p, s.manager.isRunning p = true → s'.manager.isRunning p = true
  woken : ∀ p, op.messagesTo s p ≠ [] → s'.manager.isRunning p = true

/-- An operation other than `SendMessage` that leaves the mailboxes alone. -/
private theorem Mails.of_silent {s s' : System} {op : TaskOp} (hop : ∀ p, op.messagesTo s p = [])
    (hpending : ∀ p, s'.manager.pending p = s.manager.pending p)
    (hrunning : ∀ p, s.manager.isRunning p = true → s'.manager.isRunning p = true) :
    Mails s op s' :=
  ⟨fun p => by rw [hpending, hop, List.append_nil], hrunning, fun p hne => absurd (hop p) hne⟩

/-- An unknown id changes no mailbox. -/
private theorem Mails.unchanged {s : System} {op : TaskOp} (hop : ∀ p, op.messagesTo s p = []) :
    Mails s op (s.after s.manager none) := .of_silent hop (fun _ => rfl) fun _ h => h

/-- An operation that puts no task to sleep: each mailbox gets the messages that are sent to its
task, at its end, and no task that runs stops running. -/
theorem mails_of_permitted {s s' : System} (h : SysInv s) {op : TaskOp} (hop : op.Permitted s)
    (hawake : op.isSleep = false) (hs : s.step op = some s') : Mails s op s' := by
  cases op with
  | newTask =>
      cases hs
      exact .of_silent (fun _ => rfl) TaskManager.pending_newTask
        fun _ => TaskManager.isRunning_newTask
  | switchTask =>
      obtain ⟨tm', call, heq, -, htasks, -⟩ := TaskManager.switchTask_false_spec h.sched
      simp only [System.step, heq, Option.map_some] at hs
      cases hs
      have hsame : ∀ p : TaskPtr, tm'.tasks[p]? = s.manager.tasks[p]? := fun p => by rw [htasks]
      exact .of_silent (fun _ => rfl) (fun p => TaskManager.pending_congr (hsame p))
        fun p hrun => (TaskManager.isRunning_congr (hsame p)).trans hrun
  | sleep task => cases hawake
  | sleepId id => cases hawake
  | wakeup task level =>
      have ht := List.getElem?_eq_getElem hop.1
      obtain ⟨tm', heq, hwoken⟩ := TaskManager.wakeup_spec h.sched ht hop.2
      simp only [System.step, heq, Option.map_some] at hs
      cases hs
      exact .of_silent (fun _ => rfl) (hwoken.pending_eq_self ht) fun _ => hwoken.mailboxes
  | wakeupId id level =>
      cases hf : s.manager.find? id with
      | none =>
          simp only [System.step, TaskManager.wakeupId, hf, Option.map_some] at hs
          cases hs
          exact .unchanged fun _ => rfl
      | some task =>
          obtain ⟨t, ht, -⟩ := TaskManager.find?_eq_some hf
          obtain ⟨tm', heq, hwoken⟩ := TaskManager.wakeup_spec h.sched ht hop
          simp only [System.step, TaskManager.wakeupId, hf, heq, Option.map_some] at hs
          cases hs
          exact .of_silent (fun _ => rfl) (hwoken.pending_eq_self ht) fun _ => hwoken.mailboxes
  | sendMessage id msg =>
      cases hf : s.manager.find? id with
      | none =>
          simp only [System.step, TaskManager.sendMessage, hf, Option.map_some] at hs
          cases hs
          exact .unchanged fun _ => by simp [TaskOp.messagesTo, hf]
      | some task =>
          obtain ⟨t, ht, -⟩ := TaskManager.find?_eq_some hf
          obtain ⟨tm', heq, hwoken⟩ := TaskManager.taskSendMessage_spec h.sched ht msg
          simp only [System.step, TaskManager.sendMessage, hf, heq, Option.map_some] at hs
          cases hs
          refine ⟨fun p => ?_, fun _ => hwoken.mailboxes, fun p hne => ?_⟩
          · refine (hwoken.pending p).trans ?_
            by_cases hp : p = task
            · subst hp
              simp [TaskOp.messagesTo, hf, TaskManager.pending_eq ht]
            · simp [TaskOp.messagesTo, hf, hp, Ne.symm hp]
          · have hp : task = p := by simpa [TaskOp.messagesTo, hf] using hne
            subst hp
            obtain ⟨lv, hself⟩ := hwoken.self
            exact TaskManager.isRunning_eq hself

/-! ## The running system -/

/-- The system with a record of all traffic. -/
structure Mail where
  /-- the task manager and the processor -/
  sys : System := {}
  /-- The messages sent to each task, oldest first. -/
  sent : TaskPtr → List Message := fun _ => []
  /-- The messages each task has taken out of its queue, oldest first. -/
  received : TaskPtr → List Message := fun _ => []

/-- The atomic sections of the kernel's tasks and interrupt handlers. -/
inductive MailOp
  /-- The head of the loop of the task that executes: `ReceiveMessage`, and `Sleep` without one. -/
  | receive
  /-- A call of another member function. -/
  | call (op : TaskOp)

/-- `cli; msg = task.ReceiveMessage(); if (!msg) task.Sleep();` on the executing task.
Source: `kernel/main.cpp`, `KernelMainNewStack`; `kernel/terminal.cpp`, `TaskTerminal` -/
def Mail.receiveOrSleep (s : Mail) : Option Mail := do
  let task := s.sys.cpu.executing
  let (tm, msg) ← s.sys.manager.receiveMessage task
  match msg with
  | some m =>
      return { s with
        sys := s.sys.after tm none
        received := Function.update s.received task (s.received task ++ [m]) }
  | none =>
      let (tm, switch) ← tm.sleep task
      return { s with sys := s.sys.after tm switch }

/-- One atomic section. -/
def Mail.step (s : Mail) : MailOp → Option Mail
  | .receive => s.receiveOrSleep
  | .call op => (s.sys.step op).map fun sys =>
      { s with sys := sys, sent := fun p => s.sent p ++ op.messagesTo s.sys p }

/-- The idle task does not receive, and tasks sleep at the head of their loop only. -/
def MailOp.Permitted (s : Mail) : MailOp → Prop
  | .receive => s.sys.cpu.executing ≠ 1
  | .call op => op.Permitted s.sys ∧ op.isSleep = false

/-- Whether an operation is permitted is read from the manager. -/
instance MailOp.decidablePermitted (s : Mail) (op : MailOp) : Decidable (op.Permitted s) := by
  unfold MailOp.Permitted
  split <;> infer_instance

/-- The states of the running kernel with its traffic. -/
abbrev Mail.Reachable (s : Mail) : Prop :=
  Transition.Reachable Mail.step (fun s op => op.Permitted s) {} s

/-- The delivery invariant. -/
structure MailInv (s : Mail) : Prop where
  sys : SysInv s.sys
  /-- Nothing is lost, duplicated or overtaken. -/
  fifo : ∀ p, s.sent p = s.received p ++ s.sys.manager.pending p
  /-- Nobody sleeps on a message. -/
  awake : ∀ p, s.sys.manager.pending p ≠ [] → s.sys.manager.isRunning p = true

/-- At the start no message has been sent. -/
theorem mailInv_init : MailInv {} := by
  have hempty : ∀ p, TaskManager.init.pending p = [] := by
    intro p
    match p with
    | 0 => rfl
    | 1 => rfl
    | n + 2 => rfl
  exact ⟨sysInv_init, fun p => (hempty p).symm, fun p hne => absurd (hempty p) hne⟩

namespace MailInv

variable {s : Mail}

/-- The executing task has a message: it takes the front one. -/
private theorem receive (h : MailInv s) {t : Task} {m : Message} {msgs : List Message}
    (ht : s.sys.manager.tasks[s.sys.cpu.executing]? = some t) (hmsgs : t.msgs = m :: msgs) :
    ∃ s', s.receiveOrSleep = some s' ∧ MailInv s' := by
  set task := s.sys.cpu.executing with htask
  set tm' := s.sys.manager.modifyTask task fun t => { t with msgs := msgs } with htm'
  have hself : tm'.tasks[task]? = some { t with msgs := msgs } :=
    TaskManager.getElem?_modifyTask_self ht _
  have hother : ∀ p : TaskPtr, p ≠ task → tm'.tasks[p]? = s.sys.manager.tasks[p]? := fun p hp =>
    TaskManager.getElem?_modifyTask_ne hp _
  have hsteps : Steps s.sys (s.sys.after tm' none) :=
    h.sys.after (h.sys.sched.modifyMsgs task fun _ => msgs) rfl
  refine ⟨{ s with
    sys := s.sys.after tm' none
    received := Function.update s.received task (s.received task ++ [m]) },
    ?_, hsteps.inv, fun p => ?_, fun p hne => ?_⟩
  · unfold Mail.receiveOrSleep
    simp only [← htask, TaskManager.receiveMessage_eq ht, hmsgs, ← htm', Option.bind_eq_bind,
      Option.bind_some]
    rfl
  · show s.sent p = Function.update s.received task (s.received task ++ [m]) p ++ tm'.pending p
    rw [h.fifo p]
    by_cases hp : p = task
    · subst hp
      simp [TaskManager.pending_eq ht, TaskManager.pending_eq hself, hmsgs]
    · rw [Function.update_of_ne hp, TaskManager.pending_congr (hother p hp)]
  · by_cases hp : p = task
    · subst hp
      have hrun := h.awake task (by rw [TaskManager.pending_eq ht, hmsgs]; simp)
      rw [TaskManager.isRunning_eq ht] at hrun
      exact (TaskManager.isRunning_eq hself).trans hrun
    · refine (TaskManager.isRunning_congr (hother p hp)).trans (h.awake p ?_)
      rw [← TaskManager.pending_congr (hother p hp)]
      exact hne

/-- The executing task has no message: it goes to sleep, with an empty queue. -/
private theorem sleep (h : MailInv s) {t : Task}
    (ht : s.sys.manager.tasks[s.sys.cpu.executing]? = some t) (hmsgs : t.msgs = [])
    (hidle : s.sys.cpu.executing ≠ 1) : ∃ s', s.receiveOrSleep = some s' ∧ MailInv s' := by
  set task := s.sys.cpu.executing with htask
  obtain ⟨tm', switch, heq, hinv, htasks, hfol⟩ := TaskManager.sleep_spec h.sys.sched ht hidle
  have hself : tm'.tasks[task]? = some { t with running := false } := by
    rw [htasks, TaskManager.getElem?_modifyTask_self ht]
  have hother : ∀ p : TaskPtr, p ≠ task → tm'.tasks[p]? = s.sys.manager.tasks[p]? := fun p hp => by
    rw [htasks, TaskManager.getElem?_modifyTask_ne hp]
  have hpending : ∀ p, tm'.pending p = s.sys.manager.pending p := by
    intro p
    by_cases hp : p = task
    · rw [hp, TaskManager.pending_eq hself, TaskManager.pending_eq ht]
    · exact TaskManager.pending_congr (hother p hp)
  refine ⟨{ s with sys := s.sys.after tm' switch }, ?_, (h.sys.after hinv hfol).inv, fun p => ?_,
    fun p hne => ?_⟩
  · unfold Mail.receiveOrSleep
    simp only [← htask, TaskManager.receiveMessage_eq ht, hmsgs, heq, Option.bind_eq_bind,
      Option.bind_some]
    rfl
  · exact (h.fifo p).trans (congrArg _ (hpending p).symm)
  · have hne' : s.sys.manager.pending p ≠ [] := hpending p ▸ hne
    have hp : p ≠ task := by
      rintro rfl
      exact hne' (by rw [TaskManager.pending_eq ht, hmsgs])
    exact (TaskManager.isRunning_congr (hother p hp)).trans (h.awake p hne')

/-- A call appends its messages to the queues of running tasks. -/
private theorem call (h : MailInv s) {op : TaskOp} (hop : op.Permitted s.sys)
    (hawake : op.isSleep = false) : ∃ s', s.step (.call op) = some s' ∧ MailInv s' := by
  obtain ⟨sys, heq, hsteps⟩ := steps_of_permitted h.sys hop
  have hmails := mails_of_permitted h.sys hop hawake heq
  refine ⟨{ s with sys := sys, sent := fun p => s.sent p ++ op.messagesTo s.sys p },
    by simp [Mail.step, heq], hsteps.inv, fun p => ?_, fun p hne => ?_⟩
  · show s.sent p ++ op.messagesTo s.sys p = s.received p ++ sys.manager.pending p
    rw [h.fifo p, hmails.pending p, List.append_assoc]
  · by_cases hmsg : op.messagesTo s.sys p = []
    · apply hmails.running p
      apply h.awake p
      have heqp := hmails.pending p
      rw [hmsg, List.append_nil] at heqp
      exact heqp ▸ hne
    · exact hmails.woken p hmsg

end MailInv

/-- **The step lemma.** -/
theorem mailInv_preserved : Preserves Mail.step (fun s op => op.Permitted s) MailInv := by
  intro s op h hop
  cases op with
  | receive =>
      obtain ⟨rest, hq⟩ := TaskManager.currentFront?_eq_some.mp h.sys.front
      obtain ⟨t, ht, -⟩ := h.sys.sched.of_mem (hq ▸ List.mem_cons_self)
      cases hmsgs : t.msgs with
      | nil => exact h.sleep ht hmsgs hop
      | cons m msgs => exact h.receive ht hmsgs
  | call op => exact h.call hop.1 hop.2

/-- **No lost wake-up and FIFO delivery.** In every interleaving, the messages a task has received
are a prefix of the messages sent to it, the rest being exactly what is pending in its queue; a
task with pending messages is running and sits in the run queue of its level; and no atomic
section is undefined. -/
theorem delivered_in_order {s : Mail} (hr : s.Reachable) :
    (∀ p, s.received p <+: s.sent p) ∧
      (∀ p, s.sent p = s.received p ++ s.sys.manager.pending p) ∧
      (∀ (p : TaskPtr) (t : Task), s.sys.manager.tasks[p]? = some t → t.msgs ≠ [] →
        t.running = true ∧ p ∈ s.sys.manager.running t.level) ∧
      ∀ op : MailOp, op.Permitted s → ∃ s', s.step op = some s' := by
  have h := hr.invariant mailInv_init mailInv_preserved
  refine ⟨fun p => ?_, h.fifo, fun p t ht hne => ?_, fun op hop => ?_⟩
  · rw [h.fifo p]
    exact List.prefix_append _ _
  · have hrun := h.awake p (by rwa [TaskManager.pending_eq ht])
    rw [TaskManager.isRunning_eq ht] at hrun
    exact ⟨hrun, h.sys.sched.mem ht hrun⟩
  · obtain ⟨s', heq, -⟩ := hr.defined mailInv_init mailInv_preserved hop
    exact ⟨s', heq⟩

/-- The main task finds no message and sleeps, a handler sends two, the main task takes one. -/
def mailRun : List MailOp :=
  [.receive, .call (.sendMessage 1 { type := .kInterruptXHCI }),
    .call (.sendMessage 1 { type := .kKeyPush }), .call .switchTask, .receive]

/-- The state after `mailRun`. -/
def mailState : Mail :=
  (runPermitted Mail.step (fun s op => op.Permitted s) {} mailRun).get (by decide)

/-- The state of the example is reached by permitted operations. -/
theorem mailState_reachable : mailState.Reachable :=
  Reachable.of_runPermitted .init (Option.some_get _).symm

/-- After `mailRun` the main task has the first message and still runs for the second. -/
theorem delivered_in_order_mailState :
    mailState.received 0 = [{ type := .kInterruptXHCI }] ∧
      mailState.received 0 <+: mailState.sent 0 ∧
      mailState.sent 0 = mailState.received 0 ++ mailState.sys.manager.pending 0 :=
  ⟨by decide, (delivered_in_order mailState_reachable).1 0,
    (delivered_in_order mailState_reachable).2.1 0⟩

end UhyokOS
