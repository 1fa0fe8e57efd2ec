import UhyokOS.Task.Queues

/-!
# Runs of the task manager

The task manager as a transition system on `System`: the states reachable from the constructor by
the public operations, with levels in range and the idle task never put to sleep.

* `sysInv_preserved`: every permitted operation is defined and keeps `SysInv`, the scheduler's
  invariant together with agreement between queues and processor.
* `run_queues_consistent`: in every reachable state the queues hold each running task once, in the
  queue of its level, and nothing else; no operation takes the front of an empty queue.
* `executing_has_priority`: the task that executes is always the front of the current queue, and
  right after a context switch it is one of the highest level.
-/

namespace UhyokOS

open Transition

/-- What a caller guarantees: a pointer names a task, a level is negative or at most `kMaxLevel`,
and the idle task is never put to sleep. -/
def TaskOp.Permitted (s : System) : TaskOp → Prop
  | .newTask => True
  | .switchTask => True
  | .sleep task => task < s.manager.tasks.length ∧ task ≠ 1
  | .sleepId id => id ≠ 2
  | .wakeup task level => task < s.manager.tasks.length ∧ level ≤ kMaxLevel
  | .wakeupId _ level => level ≤ kMaxLevel
  | .sendMessage _ _ => True

/-- Whether an operation is permitted is read from the manager. -/
instance TaskOp.decidablePermitted (s : System) (op : TaskOp) : Decidable (op.Permitted s) := by
  unfold TaskOp.Permitted
  split <;> infer_instance

/-- The states of the running kernel. -/
abbrev System.Reachable (s : System) : Prop :=
  Transition.Reachable System.step (fun s op => op.Permitted s) {} s

/-- The scheduler's invariant, and the processor's part in it: the front of the current queue
executes, and every context block holds the registers of its own task. -/
structure SysInv (s : System) : Prop where
  sched : s.manager.SchedInv
  front : s.manager.currentFront? = some s.cpu.executing
  owner : ∀ p, s.cpu.contextOwner p = p

/-- One operation: the invariant is kept, and if it switched contexts, nothing runnable is above
the level of the task that now executes. -/
structure Steps (s s' : System) : Prop where
  inv : SysInv s'
  switched : s'.cpu.switches ≠ s.cpu.switches →
    ∀ lv, s'.manager.currentLevel < lv → s'.manager.running lv = []

/-- At the start the task that called the constructor executes. -/
theorem sysInv_init : SysInv {} := ⟨TaskManager.schedInv_init, rfl, fun _ => rfl⟩

/-- The processor follows the queues. -/
theorem SysInv.after {s : System} {tm' : TaskManager} {switch : Option ContextSwitch}
    (h : SysInv s) (hinv : tm'.SchedInv) (hfol : TaskManager.Follows s.manager switch tm') :
    Steps s (s.after tm' switch) := by
  cases switch with
  | none =>
      have hfront : tm'.currentFront? = s.manager.currentFront? := hfol
      exact ⟨⟨hinv, hfront.trans h.front, h.owner⟩, fun hne => absurd rfl hne⟩
  | some call =>
      obtain ⟨hcur, hnext, habove⟩ := hfol
      -- the context that is saved belongs to the task that executes
      have hself : call.current = s.cpu.executing := Option.some.inj (hcur.symm.trans h.front)
      refine ⟨⟨hinv, hnext, fun p => ?_⟩, fun _ => habove⟩
      show Function.update s.cpu.contextOwner call.current s.cpu.executing p = p
      by_cases hp : p = call.current
      · subst hp
        rw [Function.update_self, hself]
      · rw [Function.update_of_ne hp, h.owner]

namespace SysInv

variable {s : System} {task : TaskPtr}

/-- Any task but the idle one may be put to sleep, by itself or by another one. -/
theorem sleep (h : SysInv s) (hlt : task < s.manager.tasks.length) (hidle : task ≠ 1) :
    ∃ tm' switch, s.manager.sleep task = some (tm', switch) ∧ Steps s (s.after tm' switch) := by
  obtain ⟨tm', switch, heq, hinv, -, hfol⟩ :=
    TaskManager.sleep_spec h.sched (List.getElem?_eq_getElem hlt) hidle
  exact ⟨tm', switch, heq, h.after hinv hfol⟩

/-- Any task may be woken up, on a level that there is. -/
theorem wakeup (h : SysInv s) (hlt : task < s.manager.tasks.length) {level : Int}
    (hlevel : level ≤ kMaxLevel) :
    ∃ tm', s.manager.wakeup task level = some tm' ∧ Steps s (s.after tm' none) := by
  obtain ⟨tm', heq, hwoken⟩ :=
    TaskManager.wakeup_spec h.sched (List.getElem?_eq_getElem hlt) hlevel
  exact ⟨tm', heq, h.after hwoken.inv hwoken.front⟩

/-- An unknown id changes nothing. -/
theorem unchanged (h : SysInv s) : Steps s (s.after s.manager none) := h.after h.sched rfl

end SysInv

/-- A task found by an id other than 2 is not the idle task. -/
private theorem find?_ne_idle {tm : TaskManager} {id : UInt64} {task : TaskPtr}
    (h : tm.SchedInv) (hid : id ≠ 2) (hf : tm.find? id = some task) :
    task < tm.tasks.length ∧ task ≠ 1 := by
  obtain ⟨t, ht, htid⟩ := TaskManager.find?_eq_some hf
  refine ⟨(List.getElem?_eq_some_iff.mp ht).1, fun htask => ?_⟩
  obtain ⟨i, hi, hi2, -⟩ := h.idle
  rw [htask, hi] at ht
  cases ht
  exact hid (htid.symm.trans hi2)

/-- **The step lemma.** -/
theorem steps_of_permitted {s : System} (h : SysInv s) {op : TaskOp} (hop : op.Permitted s) :
    ∃ s', s.step op = some s' ∧ Steps s s' := by
  cases op with
  | newTask =>
      exact ⟨_, rfl, h.after (TaskManager.newTask_spec h.sched) rfl⟩
  | switchTask =>
      obtain ⟨tm', call, heq, hinv, -, hfol⟩ := TaskManager.switchTask_false_spec h.sched
      exact ⟨_, by simp [System.step, heq], h.after hinv hfol⟩
  | sleep task =>
      obtain ⟨tm', switch, heq, hsteps⟩ := h.sleep hop.1 hop.2
      exact ⟨_, by simp [System.step, heq], hsteps⟩
  | sleepId id =>
      cases hf : s.manager.find? id with
      | none => exact ⟨_, by simp [System.step, TaskManager.sleepId, hf], h.unchanged⟩
      | some task =>
          obtain ⟨hlt, hidle⟩ := find?_ne_idle h.sched hop hf
          obtain ⟨tm', switch, heq, hsteps⟩ := h.sleep hlt hidle
          exact ⟨_, by simp [System.step, TaskManager.sleepId, hf, heq], hsteps⟩
  | wakeup task level =>
      obtain ⟨tm', heq, hsteps⟩ := h.wakeup hop.1 hop.2
      exact ⟨_, by simp [System.step, heq], hsteps⟩
  | wakeupId id level =>
      cases hf : s.manager.find? id with
      | none => exact ⟨_, by simp [System.step, TaskManager.wakeupId, hf], h.unchanged⟩
      | some task =>
          obtain ⟨t, ht, -⟩ := TaskManager.find?_eq_some hf
          obtain ⟨tm', heq, hsteps⟩ := h.wakeup (List.getElem?_eq_some_iff.mp ht).1 hop
          exact ⟨_, by simp [System.step, TaskManager.wakeupId, hf, heq], hsteps⟩
  | sendMessage id msg =>
      cases hf : s.manager.find? id with
      | none => exact ⟨_, by simp [System.step, TaskManager.sendMessage, hf], h.unchanged⟩
      | some task =>
          obtain ⟨t, ht, -⟩ := TaskManager.find?_eq_some hf
          obtain ⟨tm', heq, hwoken⟩ := TaskManager.taskSendMessage_spec h.sched ht msg
          have hsteps : Steps s (s.after tm' none) := h.after hwoken.inv hwoken.front
          exact ⟨_, by simp [System.step, TaskManager.sendMessage, hf, heq], hsteps⟩

/-- The step lemma: a permitted operation is defined and keeps the invariant. -/
theorem sysInv_preserved : Preserves System.step (fun s op => op.Permitted s) SysInv := by
  intro s op h hop
  obtain ⟨s', heq, hsteps⟩ := steps_of_permitted h hop
  exact ⟨s', heq, hsteps.inv⟩

/-- Every state of the running kernel is in the invariant. -/
theorem System.Reachable.sysInv {s : System} (hr : s.Reachable) : SysInv s :=
  hr.invariant sysInv_init sysInv_preserved

/-! ## Queue membership -/

/-- The queues and the fields of the tasks agree. -/
structure QueuesConsistent (tm : TaskManager) : Prop where
  /-- A running task occurs once in the queue of its level and in no other queue, any other task
  in no queue. -/
  count : ∀ p t, tm.tasks[p]? = some t → ∀ lv,
    (tm.running lv).count p = if t.running = true ∧ t.level = lv then 1 else 0
  /-- Nothing but the manager's tasks is queued. -/
  owned : ∀ lv, ∀ p ∈ tm.running lv, p < tm.tasks.length
  /-- The current queue has a front. -/
  current : tm.running tm.currentLevel ≠ []

/-- The invariant says more than that the queues are consistent: the idle task can always run, and a
task above the current level has been announced. -/
theorem TaskManager.SchedInv.queuesConsistent {tm : TaskManager} (h : tm.SchedInv) :
    QueuesConsistent tm := by
  refine ⟨fun p t ht lv => ?_, fun lv p hp => ?_, h.current⟩
  · rw [h.holds.count, TaskManager.placeOf_eq ht]
    unfold Task.place
    by_cases hrun : t.running = true <;> simp [hrun]
  · obtain ⟨t, ht, -⟩ := h.of_mem hp
    exact (List.getElem?_eq_some_iff.mp ht).1

/-- **The run-queue invariant.** In every reachable state the queues are consistent, every
permitted operation is defined (no operation takes the front of an empty queue), and an id that no
task has is answered with `kNoSuchTask` and no change. -/
theorem run_queues_consistent {s : System} (hr : s.Reachable) :
    QueuesConsistent s.manager ∧
      (∀ op : TaskOp, op.Permitted s → ∃ s', s.step op = some s') ∧
      (∃ p, s.manager.currentTask = some p) ∧
      ∀ id, (∀ t ∈ s.manager.tasks, t.id ≠ id) →
        s.manager.sleepId id = some (s.manager, none, .kNoSuchTask) ∧
        (∀ level, s.manager.wakeupId id level = some (s.manager, .kNoSuchTask)) ∧
        ∀ msg, s.manager.sendMessage id msg = some (s.manager, .kNoSuchTask) := by
  have h := hr.sysInv
  refine ⟨h.sched.queuesConsistent, fun op hop => ?_, ⟨_, h.front⟩, fun id hid => ?_⟩
  · obtain ⟨s', heq, -⟩ := hr.defined sysInv_init sysInv_preserved hop
    exact ⟨s', heq⟩
  · have hf := TaskManager.find?_eq_none.mpr hid
    refine ⟨?_, fun level => ?_, fun msg => ?_⟩
    · simp [TaskManager.sleepId, hf]
    · simp [TaskManager.wakeupId, hf]
    · simp [TaskManager.sendMessage, hf]

/-- A third task is created, woken at the highest level, scheduled and sent a message. -/
def bootRun : List TaskOp :=
  [.newTask, .wakeup 2 3, .switchTask, .sendMessage 3 { type := .kKeyPush }]

/-- The state after `bootRun`. -/
def bootState : System :=
  (runPermitted System.step (fun s op => op.Permitted s) {} bootRun).get (by decide)

/-- The state of the example is reached by permitted operations. -/
theorem bootState_reachable : bootState.Reachable :=
  Reachable.of_runPermitted .init (Option.some_get _).symm

/-- After `bootRun` the two tasks of level 3 share its queue, the new one at the front. -/
theorem run_queues_consistent_bootState :
    QueuesConsistent bootState.manager ∧ bootState.manager.running 3 = [2, 0] :=
  ⟨(run_queues_consistent bootState_reachable).1, by decide⟩

/-! ## Priority -/

/-- **Strict priority and agreement about who executes.** In every reachable state the executing
task is the front of the current queue and every context block holds its own task's registers; a
non-empty level above the current one has been announced; and after an operation that switched
contexts no running task has a higher level than the one that executes, so the idle task executes
at level 0 only if nothing above is runnable. -/
theorem executing_has_priority {s : System} (hr : s.Reachable) :
    s.manager.currentTask = some s.cpu.executing ∧
      (∀ p, s.cpu.contextOwner p = p) ∧
      (∀ lv, s.manager.currentLevel < lv → s.manager.running lv ≠ [] →
        s.manager.levelChanged = true) ∧
      ∀ op s', op.Permitted s → s.step op = some s' → s'.cpu.switches ≠ s.cpu.switches →
        ∃ e, s'.manager.tasks[s'.cpu.executing]? = some e ∧ e.running = true ∧
          (∀ (p : TaskPtr) (t : Task), s'.manager.tasks[p]? = some t →
            t.running = true → t.level ≤ e.level) ∧
          (s'.cpu.executing = 1 → e.level = 0 →
            ∀ (p : TaskPtr) (t : Task), s'.manager.tasks[p]? = some t →
            t.running = true → t.level = 0) := by
  have h := hr.sysInv
  refine ⟨h.front, h.owner, h.sched.announced, fun op s' hop hs' hsw => ?_⟩
  obtain ⟨s'', heq, hsteps⟩ := steps_of_permitted h hop
  rw [hs'] at heq
  cases heq
  have habove := hsteps.switched hsw
  have hinv := hsteps.inv.sched
  obtain ⟨rest, hq⟩ := TaskManager.currentFront?_eq_some.mp hsteps.inv.front
  obtain ⟨e, he, herun, helevel⟩ := hinv.of_mem (hq ▸ List.mem_cons_self)
  have hmax : ∀ (p : TaskPtr) (t : Task), s'.manager.tasks[p]? = some t →
            t.running = true → t.level ≤ e.level := by
    intro p t ht hrun
    rw [helevel]
    by_contra hlt
    have hmem := hinv.mem ht hrun
    rw [habove t.level (not_le.mp hlt)] at hmem
    cases hmem
  exact ⟨e, he, herun, hmax, fun _ h0 p t ht hrun =>
    le_antisymm (h0 ▸ hmax p t ht hrun) (Fin.zero_le _)⟩

/-- The state after the new task of `bootRun` has gone to sleep. -/
def bootSleepState : System := (bootState.step (.sleep 2)).get (by decide)

/-- When the new task sleeps, the main task executes again and no running task is above it. -/
theorem executing_has_priority_bootState :
    bootState.manager.currentTask = some 2 ∧ bootSleepState.cpu.executing = 0 ∧
      ∃ e, bootSleepState.manager.tasks[bootSleepState.cpu.executing]? = some e ∧
        ∀ (p : TaskPtr) (t : Task), bootSleepState.manager.tasks[p]? = some t →
          t.running = true → t.level ≤ e.level := by
  obtain ⟨hcurrent, -, -, hswitch⟩ := executing_has_priority bootState_reachable
  have hexec : bootState.cpu.executing = 2 := by decide
  have hstep : bootState.step (.sleep 2) = some bootSleepState := (Option.some_get _).symm
  obtain ⟨e, he, -, hmax, -⟩ := hswitch (.sleep 2) bootSleepState (by decide) hstep (by decide)
  exact ⟨hexec ▸ hcurrent, by decide, e, he, hmax⟩

end UhyokOS
