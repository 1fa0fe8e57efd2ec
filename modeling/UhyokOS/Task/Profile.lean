import UhyokOS.Task.Mailbox

/-!
# Ids and levels

What the operations of a running system do beside moving messages. Ids never change, and levels only
by a `Wakeup` that names one, so that who is who is settled when the tasks are made.

* `Hands s msgs s'`: no task is made, nothing is received, and `msgs` is handed out. That is what
  `SendMessage`, `SwitchTask` and `Wakeup` do (`Mail.sendMessage_spec`, `Mail.switchTask_spec`,
  `Mail.wakeup_spec`).
* `Takes s msg s'` and `Rests s s'`: the two outcomes at the head of a task's loop (`Mail.take_spec`,
  `Mail.sleep_spec`).
-/

namespace UhyokOS

open Transition

namespace TaskManager

/-- The ids and levels of the tasks. -/
def profile (tm : TaskManager) : List (UInt64 × Level) := tm.tasks.map fun t => (t.id, t.level)

variable {tm tm' : TaskManager} {task : TaskPtr} {t : Task} {f : Task → Task}

/-- The profile has the id and the level of each task, in the order of the tasks. -/
theorem getElem?_profile (p : TaskPtr) :
    tm.profile[p]? = (tm.tasks[p]?).map fun t => (t.id, t.level) := List.getElem?_map

/-- A task that runs is one of the manager. -/
theorem exists_of_isRunning (h : tm.isRunning task = true) :
    ∃ t, tm.tasks[task]? = some t ∧ t.running = true := by
  unfold isRunning at h
  cases ht : tm.tasks[task]? with
  | none =>
      rw [ht] at h
      cases h
  | some t =>
      rw [ht] at h
      exact ⟨t, rfl, h⟩

/-- A change of a task that keeps its id and level keeps the profile. -/
theorem profile_modifyTask
    (h : ∀ t, tm.tasks[task]? = some t → (f t).id = t.id ∧ (f t).level = t.level) :
    (tm.modifyTask task f).profile = tm.profile := by
  apply List.ext_getElem?
  intro p
  rw [getElem?_profile, getElem?_profile]
  by_cases hp : p = task
  · subst hp
    rw [getElem?_modifyTask, if_pos rfl]
    cases ht : tm.tasks[p]? with
    | none => rfl
    | some t =>
        obtain ⟨hid, hlevel⟩ := h t ht
        simp [hid, hlevel]
  · rw [getElem?_modifyTask_ne hp]

/-- The profile depends on the tasks only, not on the queues. -/
theorem profile_of_tasks (h : ∀ p : TaskPtr, tm'.tasks[p]? = tm.tasks[p]?) :
    tm'.profile = tm.profile := by
  apply List.ext_getElem?
  intro p
  rw [getElem?_profile, getElem?_profile, h]

/-- The look-up by id is a look-up in the profile. -/
theorem find?_eq (tm : TaskManager) (id : UInt64) :
    tm.find? id = tm.profile.findIdx? fun x => x.1 == id := by
  unfold find? profile
  rw [List.findIdx?_map]
  rfl

/-- A `Wakeup` without a level. -/
theorem profile_wakeup {level : Int} (hlevel : level < 0) (h : tm.wakeup task level = some tm') :
    tm'.profile = tm.profile ∧ tm'.latestId = tm.latestId := by
  obtain ⟨t, ht, h⟩ := Option.bind_eq_some_iff.mp h
  by_cases hrun : t.running = true
  · rw [if_pos hrun] at h
    obtain ⟨t', -, h⟩ := Option.bind_eq_some_iff.mp h
    rw [if_pos (Or.inl hlevel)] at h
    cases h
    exact ⟨rfl, rfl⟩
  · rw [if_neg hrun] at h
    simp only [if_pos hlevel, Option.bind_eq_bind, Option.bind_some] at h
    have hprofile : (tm.modifyTask task fun t' =>
        { t' with level := t.level, running := true }).profile = tm.profile := by
      apply profile_modifyTask
      intro t' ht'
      rw [ht] at ht'
      cases ht'
      exact ⟨rfl, rfl⟩
    split_ifs at h <;>
    · cases h
      exact ⟨hprofile, rfl⟩

/-- Sending a message keeps the profile: it wakes the task up on the level that it has. -/
theorem profile_taskSendMessage {msg : Message} (h : tm.taskSendMessage task msg = some tm') :
    tm'.profile = tm.profile ∧ tm'.latestId = tm.latestId := by
  obtain ⟨hprofile, hlatest⟩ := profile_wakeup (by decide) h
  exact ⟨hprofile.trans (profile_modifyTask fun _ _ => ⟨rfl, rfl⟩), hlatest⟩

end TaskManager

/-! ## Operations of a running system -/

/-- No task is made, nothing is received, nobody is put to sleep, and messages are handed out. -/
structure Hands (s : Mail) (msgs : TaskPtr → List Message) (s' : Mail) : Prop where
  inv : MailInv s'
  profile : s'.sys.manager.profile = s.sys.manager.profile
  latestId : s'.sys.manager.latestId = s.sys.manager.latestId
  sent : ∀ p, s'.sent p = s.sent p ++ msgs p
  received : s'.received = s.received
  running : ∀ p, s.sys.manager.isRunning p = true → s'.sys.manager.isRunning p = true

/-- The task that executes has taken its first message. -/
structure Takes (s : Mail) (msg : Message) (s' : Mail) : Prop where
  inv : MailInv s'
  cpu : s'.sys.cpu = s.sys.cpu
  profile : s'.sys.manager.profile = s.sys.manager.profile
  sent : s'.sent = s.sent
  received : s'.received = Function.update s.received s.sys.cpu.executing
    (s.received s.sys.cpu.executing ++ [msg])
  running : ∀ p, s'.sys.manager.isRunning p = s.sys.manager.isRunning p

/-- The task that executed has gone to sleep. The task that continues has no running task above
it. -/
structure Rests (s s' : Mail) : Prop where
  inv : MailInv s'
  profile : s'.sys.manager.profile = s.sys.manager.profile
  sent : s'.sent = s.sent
  received : s'.received = s.received
  asleep : s'.sys.manager.isRunning s.sys.cpu.executing = false
  running : ∀ p, p ≠ s.sys.cpu.executing →
    s'.sys.manager.isRunning p = s.sys.manager.isRunning p
  highest : ∀ lv, s'.sys.manager.currentLevel < lv → s'.sys.manager.running lv = []

variable {s s' s₁ : Mail} {msgs msgs' : TaskPtr → List Message}

namespace Hands

/-- Handing over nothing. -/
theorem refl (h : MailInv s) : Hands s (fun _ => []) s :=
  ⟨h, rfl, rfl, fun _ => (List.append_nil _).symm, rfl, fun _ hrun => hrun⟩

/-- Messages that are handed over in two sections. -/
theorem trans (h : Hands s msgs s₁) (h' : Hands s₁ msgs' s') :
    Hands s (fun p => msgs p ++ msgs' p) s' where
  inv := h'.inv
  profile := h'.profile.trans h.profile
  latestId := h'.latestId.trans h.latestId
  sent p := by rw [h'.sent, h.sent, List.append_assoc]
  received := h'.received.trans h.received
  running p hrun := h'.running p (h.running p hrun)

/-- What is handed out is pending. -/
theorem pending (h : Hands s msgs s') (hinv : MailInv s) (p : TaskPtr) :
    s'.sys.manager.pending p = s.sys.manager.pending p ++ msgs p := by
  have hsent := h.sent p
  rw [h.inv.fifo, hinv.fifo, h.received, List.append_assoc] at hsent
  exact List.append_cancel_left hsent

end Hands

namespace Takes

variable {msg : Message}

/-- The message that is taken is the next one of those received by the task. -/
theorem received_self (h : Takes s msg s') : s'.received s.sys.cpu.executing =
    s.received s.sys.cpu.executing ++ [msg] := by
  rw [h.received, Function.update_self]

/-- Nobody else receives a message when one is taken. -/
theorem received_of_ne (h : Takes s msg s') {p : TaskPtr} (hp : p ≠ s.sys.cpu.executing) :
    s'.received p = s.received p := by
  rw [h.received, Function.update_of_ne hp]

/-- The message was the first one. -/
theorem pending_self (h : Takes s msg s') (hinv : MailInv s) :
    s.sys.manager.pending s.sys.cpu.executing =
      msg :: s'.sys.manager.pending s.sys.cpu.executing := by
  have hsent := congrFun h.sent s.sys.cpu.executing
  rw [h.inv.fifo, hinv.fifo, h.received_self, List.append_assoc] at hsent
  exact (List.append_cancel_left hsent).symm

/-- The other mailboxes are left alone. -/
theorem pending_of_ne (h : Takes s msg s') (hinv : MailInv s) {p : TaskPtr}
    (hp : p ≠ s.sys.cpu.executing) : s'.sys.manager.pending p = s.sys.manager.pending p := by
  have hsent := congrFun h.sent p
  rw [h.inv.fifo, hinv.fifo, h.received_of_ne hp] at hsent
  exact List.append_cancel_left hsent

end Takes

/-- The mailboxes are as before when a task has gone to sleep. -/
theorem Rests.pending (h : Rests s s') (hinv : MailInv s) (p : TaskPtr) :
    s'.sys.manager.pending p = s.sys.manager.pending p := by
  have hsent := congrFun h.sent p
  rw [h.inv.fifo, hinv.fifo, h.received] at hsent
  exact List.append_cancel_left hsent

namespace Mail

/-- A call of a member function, apart from its effect on the system. -/
theorem step_call {op : TaskOp} (h : s.step (.call op) = some s') :
    ∃ sys, s.sys.step op = some sys ∧
      s' = { s with sys := sys, sent := fun p => s.sent p ++ op.messagesTo s.sys p } := by
  obtain ⟨sys, hsys, rfl⟩ := Option.map_eq_some_iff.mp h
  exact ⟨sys, hsys, rfl⟩

/-- A call that makes no task. -/
private theorem hands_of_call (op : TaskOp) (h : MailInv s) (hop : op.Permitted s.sys)
    (hawake : op.isSleep = false)
    (hprofile : ∀ sys, s.sys.step op = some sys →
      sys.manager.profile = s.sys.manager.profile ∧ sys.manager.latestId = s.sys.manager.latestId) :
    ∃ s', s.step (.call op) = some s' ∧ Hands s (op.messagesTo s.sys) s' ∧
      s.sys.step op = some s'.sys := by
  obtain ⟨s', hstep, hinv⟩ := mailInv_preserved s (.call op) h ⟨hop, hawake⟩
  obtain ⟨sys, hsys, rfl⟩ := step_call hstep
  obtain ⟨hprofile, hlatest⟩ := hprofile sys hsys
  have hmails := mails_of_permitted h.sys hop hawake hsys
  exact ⟨_, hstep, ⟨hinv, hprofile, hlatest, fun _ => rfl, rfl, hmails.running⟩, hsys⟩

/-- **`SendMessage`.** -/
theorem sendMessage_spec (h : MailInv s) (id : UInt64) (msg : Message) :
    ∃ s', s.step (.call (.sendMessage id msg)) = some s' ∧ s'.sys.cpu = s.sys.cpu ∧
      Hands s (fun p => if s.sys.manager.find? id = some p then [msg] else []) s' ∧
      ∀ p, s.sys.manager.find? id = some p → s'.sys.manager.isRunning p = true := by
  have hcases : ∀ sys, s.sys.step (.sendMessage id msg) = some sys → sys.cpu = s.sys.cpu ∧
      sys.manager.profile = s.sys.manager.profile ∧
        sys.manager.latestId = s.sys.manager.latestId := by
    intro sys hsys
    obtain ⟨⟨tm', err⟩, hsend, rfl⟩ := Option.map_eq_some_iff.mp hsys
    refine ⟨rfl, ?_⟩
    unfold TaskManager.sendMessage at hsend
    cases hf : s.sys.manager.find? id with
    | none =>
        rw [hf] at hsend
        cases hsend
        exact ⟨rfl, rfl⟩
    | some task =>
        rw [hf] at hsend
        obtain ⟨tm₁, htask, heq⟩ := Option.map_eq_some_iff.mp hsend
        cases heq
        exact TaskManager.profile_taskSendMessage htask
  obtain ⟨s', hstep, hhands, hsys⟩ :=
    hands_of_call (.sendMessage id msg) h trivial rfl fun sys hsys => (hcases sys hsys).2
  refine ⟨s', hstep, (hcases _ hsys).1, hhands, fun p hp => ?_⟩
  have hmails := @mails_of_permitted _ _ h.sys (.sendMessage id msg) trivial rfl hsys
  apply hmails.woken p
  simp [TaskOp.messagesTo, hp]

/-- **`SwitchTask`.** The task that continues has no running task above it. -/
theorem switchTask_spec (h : MailInv s) :
    ∃ s', s.step (.call .switchTask) = some s' ∧ Hands s (fun _ => []) s' ∧
      ∀ lv, s'.sys.manager.currentLevel < lv → s'.sys.manager.running lv = [] := by
  have hcases : ∀ sys, s.sys.step .switchTask = some sys →
      (sys.manager.profile = s.sys.manager.profile ∧
        sys.manager.latestId = s.sys.manager.latestId) ∧
      ∀ lv, sys.manager.currentLevel < lv → sys.manager.running lv = [] := by
    intro sys hsys
    obtain ⟨cur, rest, hq⟩ := h.sys.sched.front
    obtain ⟨tm', next, heq, hsw⟩ := @TaskManager.switchTask_spec _ cur rest false hq
      ⟨s.sys.manager.currentLevel, by simp⟩
    simp only [System.step, heq, Option.map_some, Option.some.injEq] at hsys
    subst hsys
    have htasks : ∀ p : TaskPtr, tm'.tasks[p]? = s.sys.manager.tasks[p]? := fun p => by
      rw [hsw.tasks]
    exact ⟨⟨TaskManager.profile_of_tasks htasks, hsw.latestId⟩,
      hsw.nothing_above h.sys.sched.announced⟩
  obtain ⟨s', hstep, hhands, hsys⟩ :=
    hands_of_call .switchTask h trivial rfl fun sys hsys => (hcases sys hsys).1
  exact ⟨s', hstep, hhands, (hcases _ hsys).2⟩

/-- **`Wakeup`** without a level. -/
theorem wakeup_spec (h : MailInv s) {task : TaskPtr} (htask : task < s.sys.manager.tasks.length) :
    ∃ s', s.step (.call (.wakeup task (-1))) = some s' ∧ s'.sys.cpu = s.sys.cpu ∧
      Hands s (fun _ => []) s' ∧ s'.sys.manager.isRunning task = true := by
  have hlevel : (-1 : Int) ≤ kMaxLevel := by decide
  obtain ⟨s', hstep, hhands, hsys⟩ := hands_of_call (.wakeup task (-1)) h ⟨htask, hlevel⟩ rfl
    (by
      intro sys hsys
      obtain ⟨tm', hwake, rfl⟩ := Option.map_eq_some_iff.mp hsys
      exact TaskManager.profile_wakeup (by decide) hwake)
  obtain ⟨tm', hwake, hafter⟩ := Option.map_eq_some_iff.mp hsys
  have ht := List.getElem?_eq_getElem htask
  obtain ⟨tm₁, hwake₁, hwoken⟩ := TaskManager.wakeup_spec h.sys.sched ht hlevel
  rw [hwake₁] at hwake
  cases hwake
  obtain ⟨lv, hself⟩ := hwoken.self
  refine ⟨s', hstep, by rw [← hafter]; rfl, hhands, ?_⟩
  rw [← hafter]
  exact TaskManager.isRunning_eq hself

/-- `SendMessage` wakes its receiver only. -/
theorem sendMessage_others (h : MailInv s) {id : UInt64} {msg : Message} {p : TaskPtr}
    (hstep : s.step (.call (.sendMessage id msg)) = some s')
    (hp : s.sys.manager.find? id ≠ some p) :
    s'.sys.manager.isRunning p = s.sys.manager.isRunning p := by
  obtain ⟨sys, hsys, rfl⟩ := step_call hstep
  cases hf : s.sys.manager.find? id with
  | none =>
      simp only [System.step, TaskManager.sendMessage, hf, Option.map_some] at hsys
      cases hsys
      rfl
  | some task =>
      obtain ⟨t, ht, -⟩ := TaskManager.find?_eq_some hf
      obtain ⟨tm', heq, hwoken⟩ := TaskManager.taskSendMessage_spec h.sys.sched ht msg
      simp only [System.step, TaskManager.sendMessage, hf, heq, Option.map_some] at hsys
      cases hsys
      refine TaskManager.isRunning_congr (hwoken.others p ?_)
      rintro rfl
      exact hp hf

/-- `SwitchTask` wakes nobody. -/
theorem switchTask_others (h : MailInv s) (hstep : s.step (.call .switchTask) = some s')
    (p : TaskPtr) : s'.sys.manager.isRunning p = s.sys.manager.isRunning p := by
  obtain ⟨sys, hsys, rfl⟩ := step_call hstep
  obtain ⟨tm', call, heq, -, htasks, -⟩ := TaskManager.switchTask_false_spec h.sys.sched
  simp only [System.step, heq, Option.map_some] at hsys
  cases hsys
  have hsame : tm'.tasks[p]? = s.sys.manager.tasks[p]? := by rw [htasks]
  exact TaskManager.isRunning_congr hsame

/-- `Wakeup` wakes one task. -/
theorem wakeup_others (h : MailInv s) {task p : TaskPtr}
    (htask : task < s.sys.manager.tasks.length)
    (hstep : s.step (.call (.wakeup task (-1))) = some s') (hp : p ≠ task) :
    s'.sys.manager.isRunning p = s.sys.manager.isRunning p := by
  obtain ⟨sys, hsys, rfl⟩ := step_call hstep
  obtain ⟨tm', heq, hwoken⟩ := TaskManager.wakeup_spec h.sys.sched
    (List.getElem?_eq_getElem htask) (show (-1 : Int) ≤ kMaxLevel by decide)
  simp only [System.step, heq, Option.map_some] at hsys
  cases hsys
  exact TaskManager.isRunning_congr (hwoken.others p hp)

/-- **`NewTask`.** -/
theorem newTask_spec (h : MailInv s) :
    ∃ s', s.step (.call .newTask) = some s' ∧ MailInv s' ∧
      s'.sys.manager = s.sys.manager.newTask.1 ∧ s'.sys.cpu = s.sys.cpu ∧
      s'.sent = s.sent ∧ s'.received = s.received := by
  obtain ⟨s', hstep, hinv⟩ := mailInv_preserved s (.call .newTask) h ⟨trivial, rfl⟩
  obtain ⟨sys, hsys, rfl⟩ := step_call hstep
  cases hsys
  refine ⟨_, hstep, hinv, rfl, rfl, ?_, rfl⟩
  funext p
  exact List.append_nil _

/-- The task that executes. -/
theorem exists_executing (h : MailInv s) :
    ∃ t, s.sys.manager.tasks[s.sys.cpu.executing]? = some t ∧ t.running = true := by
  obtain ⟨rest, hq⟩ := TaskManager.currentFront?_eq_some.mp h.sys.front
  obtain ⟨t, ht, hrun, -⟩ := h.sys.sched.of_mem (hq ▸ List.mem_cons_self)
  exact ⟨t, ht, hrun⟩

/-- The task that executes runs: a task that goes to sleep is switched away from. -/
theorem isRunning_executing (h : MailInv s) :
    s.sys.manager.isRunning s.sys.cpu.executing = true := by
  obtain ⟨t, ht, hrun⟩ := exists_executing h
  rw [TaskManager.isRunning_eq ht, hrun]

/-- **`ReceiveMessage`** takes the first message. -/
theorem take_spec (h : MailInv s) (hidle : s.sys.cpu.executing ≠ 1) {msg : Message}
    {msgs : List Message} (hmsgs : s.sys.manager.pending s.sys.cpu.executing = msg :: msgs) :
    ∃ s', s.step .receive = some s' ∧ Takes s msg s' := by
  obtain ⟨t, ht, -⟩ := exists_executing h
  obtain ⟨s', hstep, hinv⟩ := mailInv_preserved s .receive h hidle
  rw [TaskManager.pending_eq ht] at hmsgs
  have hstep' := hstep
  change s.receiveOrSleep = some s' at hstep
  unfold Mail.receiveOrSleep at hstep
  simp only [TaskManager.receiveMessage_eq ht, hmsgs, Option.bind_eq_bind, Option.bind_some]
    at hstep
  cases hstep
  refine ⟨_, hstep', hinv, rfl, TaskManager.profile_modifyTask fun _ _ => ⟨rfl, rfl⟩, rfl, rfl,
    fun p => ?_⟩
  by_cases hp : p = s.sys.cpu.executing
  · subst hp
    have hself := TaskManager.getElem?_modifyTask_self ht fun t => { t with msgs := msgs }
    rw [TaskManager.isRunning_eq ht]
    exact (TaskManager.isRunning_eq hself).trans rfl
  · exact TaskManager.isRunning_congr (TaskManager.getElem?_modifyTask_ne hp _)

/-- **`Sleep`**, when there is no message. -/
theorem sleep_spec (h : MailInv s) (hidle : s.sys.cpu.executing ≠ 1)
    (hmsgs : s.sys.manager.pending s.sys.cpu.executing = []) :
    ∃ s', s.step .receive = some s' ∧ Rests s s' := by
  obtain ⟨t, ht, hrun⟩ := exists_executing h
  obtain ⟨s', hstep, hinv⟩ := mailInv_preserved s .receive h hidle
  rw [TaskManager.pending_eq ht] at hmsgs
  obtain ⟨tm', switch, heq, -, htasks, hfol⟩ := TaskManager.sleep_spec h.sys.sched ht hidle
  have hstep' := hstep
  change s.receiveOrSleep = some s' at hstep
  unfold Mail.receiveOrSleep at hstep
  simp only [TaskManager.receiveMessage_eq ht, hmsgs, heq, Option.bind_eq_bind, Option.bind_some]
    at hstep
  cases hstep
  have hself : tm'.tasks[s.sys.cpu.executing]? = some { t with running := false } := by
    rw [htasks, TaskManager.getElem?_modifyTask_self ht]
  refine ⟨_, hstep', hinv, ?_, rfl, rfl, TaskManager.isRunning_eq hself, fun p hp => ?_, ?_⟩
  · exact (TaskManager.profile_of_tasks htasks).trans
      (TaskManager.profile_modifyTask fun _ _ => ⟨rfl, rfl⟩)
  · exact TaskManager.isRunning_congr
      ((htasks p).trans (TaskManager.getElem?_modifyTask_ne hp _))
  · -- a task that goes to sleep while it executes switches
    cases switch with
    | none =>
        exfalso
        have hfront : tm'.currentFront? = s.sys.manager.currentFront? := hfol
        have hexec := hinv.sys.front
        obtain ⟨rest, hq⟩ := TaskManager.currentFront?_eq_some.mp hexec
        obtain ⟨t', ht', hrun', -⟩ := hinv.sys.sched.of_mem (hq ▸ List.mem_cons_self)
        have heq' : (s.sys.after tm' none).manager.tasks[s.sys.cpu.executing]? = some t' := ht'
        rw [show (s.sys.after tm' none).manager = tm' from rfl, hself] at heq'
        cases heq'
        cases hrun'
    | some call => exact hfol.2.2

end Mail

end UhyokOS
