import UhyokOS.Main.Delivery

/-!
# What the timers make happen

Apart from the timer of the constructor, which is never due, the running kernel has two timers. The
task timer makes the interrupt handler switch tasks; the timer of the cursor is a message to the main
task, which adds the timer again and sends the message on to the terminal.

* `Switching`: there is one task timer, due within `kTaskTimerPeriod`.
* `Kernel.Reachable.main_within_two_ticks`: so the main task waits at most that long when it has been
  woken.
* `Blinking`: the timer of the cursor is in one place at a time, and its timeouts are the multiples of
  half a second however late the main task is.
-/

set_option linter.unusedSectionVars false

namespace UhyokOS

open PriorityQueue TimerManager Transition

variable {Q : Type} [PriorityQueue Q Timer] {k k' : Kernel Q} {m : Machine} {op : KernelOp}

/-! ## Task switches -/

/-- The two timers are told apart by their values. -/
theorem cursorTimer_ne_taskTimer : kTextboxCursorTimer ≠ kTaskTimerValue := by decide

/-- The timer of the cursor is no task timer, whatever its timeout. -/
theorem not_isTask_cursor (timeout : Nat) :
    ¬IsTask { timeout := timeout, value := kTextboxCursorTimer } := cursorTimer_ne_taskTimer

/-- The sentinel of the queue is no task timer. -/
theorem not_isTask_sentinel : ¬IsTask sentinel := by decide

/-- From the moment that `InitializeTask` has added it on, one task timer is queued. -/
structure Switching (k : Kernel Q) : Prop where
  before : k.main = .addTaskTimer →
    (content k.timers.timers).filter IsTask = 0 ∧ k.mail.sys.cpu.executing = 0
  after : k.main ≠ .addTaskTimer → ∃ timeout,
    (content k.timers.timers).filter IsTask = {{ timeout := timeout, value := kTaskTimerValue }} ∧
      k.timers.tick < timeout ∧ timeout ≤ k.timers.tick + kTaskTimerPeriod

namespace Switching

/-- A step that changes no timer keeps the task timer where it is. Before the first one is added,
the step must not switch the task either. -/
theorem of_timers (h : Switching k) (htimers : k'.timers = k.timers)
    (hmain : k'.main = .addTaskTimer ↔ k.main = .addTaskTimer)
    (hcpu : k.main = .addTaskTimer → k'.mail.sys.cpu = k.mail.sys.cpu) : Switching k' where
  before hk' := by
    rw [htimers, hcpu (hmain.mp hk')]
    exact h.before (hmain.mp hk')
  after hk' := by
    rw [htimers]
    exact h.after fun hk => hk' (hmain.mpr hk)

/-- One tick. -/
theorem tick (h : Switching k) {reported : List Timer} {result : TickResult}
    (htimer : TimerStep k k' reported result) : Switching k' := by
  have hmain : k'.main = k.main := by rw [htimer.kernel]
  have hfilter := htimer.ticked.filter_isTask
  refine ⟨fun hk' => ?_, fun hk' => ?_⟩
  · obtain ⟨hnone, hexec⟩ := h.before (hmain ▸ hk')
    refine ⟨?_, ?_⟩
    · rw [hfilter, hnone]
      rfl
    · have hflag : result.taskTimerTimeout = false := by
        rw [← Bool.not_eq_true, htimer.task]
        rintro ⟨t, ht, -, htask⟩
        exact Multiset.notMem_zero t (hnone ▸ Multiset.mem_filter.mpr ⟨ht, htask⟩)
      rw [htimer.same hflag]
      exact hexec
  · obtain ⟨timeout, hqueued, hlater, hsoon⟩ := h.after (hmain ▸ hk')
    rw [hqueued] at hfilter
    by_cases hdue : timeout ≤ k.timers.tick + 1
    · refine ⟨k.timers.tick + 1 + kTaskTimerPeriod, ?_, ?_, ?_⟩
      · rw [hfilter, Multiset.filter_singleton, if_neg (not_not.mpr hdue),
          Multiset.filter_singleton, if_pos hdue]
        rfl
      · rw [htimer.tick]
        exact Nat.lt_add_of_pos_right (by decide)
      · rw [htimer.tick]
    · refine ⟨timeout, ?_, ?_, ?_⟩
      · rw [hfilter, Multiset.filter_singleton, if_pos hdue, Multiset.filter_singleton,
          if_neg hdue]
        rfl
      · rw [htimer.tick]
        exact not_le.mp hdue
      · rw [htimer.tick]
        exact hsoon.trans (Nat.add_le_add_right (Nat.le_succ _) _)

/-- Every step of the kernel keeps the task timer queued: the timer interrupt adds the next one when
it takes the last. -/
theorem step (h : Switching k) (htimers : k.Ticking) (hstep : KernelStep m k op k') :
    Switching k' := by
  cases hstep with
  | interruptTimer hrange k' reported result htimer => exact h.tick htimer
  | main hexec k' hmain =>
      cases hmain with
      | addTaskTimer hmain =>
          refine ⟨nofun, fun _ => ?_⟩
          have hcontent := content_push k.timers.timers
            { timeout := (k.timers.tick + kTaskTimerPeriod) % 2 ^ 64, value := kTaskTimerValue }
          have hmod : (k.timers.tick + kTaskTimerPeriod) % 2 ^ 64 =
              k.timers.tick + kTaskTimerPeriod := by
            have hrange := htimers.inRange
            simp only [kTimer05Sec, kUnsignedLongMax, kTaskTimerPeriod] at hrange ⊢
            omega
          refine ⟨k.timers.tick + kTaskTimerPeriod, ?_, Nat.lt_add_of_pos_right (by decide),
            Nat.le_refl _⟩
          rw [hmod] at hcontent
          have htask : IsTask
              { timeout := k.timers.tick + kTaskTimerPeriod, value := kTaskTimerValue } := rfl
          show (content (push k.timers.timers _)).filter IsTask = _
          rw [hmod, hcontent, Multiset.filter_cons_of_pos _ htask, (h.before hmain).1]
          rfl
      | cursorTimer srcTask timeout hmain =>
          have hcontent := content_push k.timers.timers
            { timeout := (timeout + kTimer05Sec) % 2 ^ 64, value := kTextboxCursorTimer }
          refine ⟨nofun, fun _ => ?_⟩
          obtain ⟨timeout', hqueued, hrest⟩ := h.after (by rw [hmain]; exact nofun)
          refine ⟨timeout', ?_, hrest⟩
          show (content (push k.timers.timers _)).filter IsTask = _
          rw [hcontent, Multiset.filter_cons_of_neg _ (not_isTask_cursor _), hqueued]
      | _ =>
          exact h.of_timers rfl (by rw [‹k.main = _›]; exact ⟨nofun, nofun⟩)
            (by rw [‹k.main = _›]; exact nofun)
  | interruptXHCI hirq mail hcpu hhands hwakes => exact h.of_timers rfl Iff.rfl fun _ => hcpu
  | terminal hexec hlate k' hterminal =>
      have hmain : k.main ≠ .addTaskTimer := fun hmain => by
        rw [hmain] at hlate
        cases hlate
      cases hterminal <;> exact h.of_timers rfl Iff.rfl fun hmain' => absurd hmain' hmain
  | _ => exact h.of_timers rfl Iff.rfl fun _ => rfl

/-- The constructor of the timer manager queues the timer of the cursor and the sentinel, and no
task timer. -/
theorem init {tick : Nat} : Switching (.init tick : Kernel Q) := by
  refine ⟨fun _ => ⟨?_, rfl⟩, fun hne => absurd rfl hne⟩
  show (content (push (push empty sentinel) _)).filter IsTask = 0
  rw [content_push, content_push, content_empty,
    Multiset.filter_cons_of_neg _ (not_isTask_cursor _),
    Multiset.filter_cons_of_neg _ not_isTask_sentinel, Multiset.filter_zero]

end Switching

/-- In every reachable state the next task switch is at most one period away. -/
theorem Kernel.Reachable.switching {tick : Nat} (htick : tick < kTimer05Sec)
    (hr : k.Reachable m tick) : Switching k :=
  hr.invariant _ htick .init fun _ _ _ _ htimers h hstep => h.step htimers hstep

/-! ## How long the main task waits -/

/-- The main task is alone on the highest level. -/
theorem roster_last {early : Bool} {p : Nat} {id : UInt64}
    (h : (roster early)[p]? = some (id, Fin.last kMaxLevel)) : p = 0 := by
  have hlevel : ((roster early)[p]?).map Prod.snd = some (Fin.last kMaxLevel) := by
    rw [h]
    rfl
  clear h
  match p with
  | 0 => rfl
  | 1 => cases early <;> exact absurd hlevel (by decide)
  | 2 => cases early <;> exact absurd hlevel (by decide)
  | p + 3 => cases early <;> cases hlevel

/-- When there is no running task above the one that executes, a running main task executes. -/
theorem Roles.executing_main (h : Roles k) (hrun : k.mail.sys.manager.isRunning 0 = true)
    (hhighest : ∀ lv, k.mail.sys.manager.currentLevel < lv →
      k.mail.sys.manager.running lv = []) : k.mail.sys.cpu.executing = 0 := by
  have hsched := h.mail.sys.sched
  have hlevel : ∀ (p : TaskPtr) (t : Task), k.mail.sys.manager.tasks[p]? = some t →
      (roster k.main.early)[p]? = some (t.id, t.level) := fun p t ht => by
    rw [← h.profile, TaskManager.getElem?_profile, ht]
    rfl
  obtain ⟨t, ht, hrunning⟩ := TaskManager.exists_of_isRunning hrun
  have htop : t.level = Fin.last kMaxLevel :=
    (congrArg Prod.snd (Option.some.inj (hlevel 0 t ht))).symm
  have hmem : (0 : TaskPtr) ∈ k.mail.sys.manager.running (Fin.last kMaxLevel) := by
    rw [hsched.holds.mem_iff]
    unfold TaskManager.placeOf Task.place
    rw [ht, Option.bind_some, if_pos hrunning, htop]
  have hcurrent : k.mail.sys.manager.currentLevel = Fin.last kMaxLevel := by
    by_contra hne
    rw [hhighest _ (Fin.lt_last_iff_ne_last.mpr hne)] at hmem
    cases hmem
  obtain ⟨rest, hq⟩ := TaskManager.currentFront?_eq_some.mp h.mail.sys.front
  obtain ⟨t', ht', -, hlevel'⟩ := hsched.of_mem (hq ▸ List.mem_cons_self)
  have hentry := hlevel _ t' ht'
  rw [hlevel', hcurrent] at hentry
  exact roster_last hentry

/-- A step while the main task is preempted: it stays running, and time goes on only by ticks. -/
theorem KernelStep.preempted (hstep : KernelStep m k op k')
    (hexec : k.mail.sys.cpu.executing ≠ 0) (hrun : k.mail.sys.manager.isRunning 0 = true) :
    k'.mail.sys.manager.isRunning 0 = true ∧ k'.main = k.main ∧
      (op ≠ .interruptTimer → k'.timers = k.timers) := by
  cases hstep with
  | interruptXHCI hirq mail hcpu hhands hwakes => exact ⟨hhands.running 0 hrun, rfl, fun _ => rfl⟩
  | interruptTimer hrange k' reported result htimer =>
      exact ⟨htimer.hands.running 0 hrun, by rw [htimer.kernel], fun hne => absurd rfl hne⟩
  | main hexec' k' hmain => exact absurd hexec' hexec
  | terminal hexec' hlate k' hterminal =>
      cases hterminal with
      | start hterminal => exact ⟨hrun, rfl, fun _ => rfl⟩
      | rest t hterminal mail hpending hrests =>
          exact ⟨(hrests.running 0 hexec.symm).trans hrun, rfl, fun _ => rfl⟩
      | ignore t hterminal msg msgs hpending t' hhandle mail htakes =>
          exact ⟨(htakes.running 0).trans hrun, rfl, fun _ => rfl⟩
      | answer t hterminal msg msgs hpending t' area hhandle taken mail htakes hcpu hhands hwakes =>
          exact ⟨hwakes.self, rfl, fun _ => rfl⟩
  | _ => exact ⟨hrun, rfl, fun _ => rfl⟩

/-- Ticks. -/
def KernelOp.isTick : KernelOp → Bool
  | .interruptTimer => true
  | _ => false

/-- A step that is no tick. -/
theorem KernelOp.ne_interruptTimer (h : op.isTick = false) : op ≠ .interruptTimer := by
  rintro rfl
  cases h

/-- The main task executes as soon as the task timer is due. -/
private theorem main_within {tick n : Nat} (htick : tick < kTimer05Sec) {ops : List KernelOp}
    (hr : k.Reachable m tick) (hrun : k.mail.sys.manager.isRunning 0 = true)
    (hmain : k.main ≠ .addTaskTimer) {timeout : Nat}
    (htask : (content k.timers.timers).filter IsTask =
      {{ timeout := timeout, value := kTaskTimerValue }})
    (hsoon : timeout ≤ k.timers.tick + n)
    (hops : runPermitted (Kernel.step m) (fun k op => op.Permitted k) k ops = some k')
    (hticks : n ≤ (ops.filter KernelOp.isTick).length) :
    ∃ pre k₁, pre <+: ops ∧
      runPermitted (Kernel.step m) (fun k op => op.Permitted k) k pre = some k₁ ∧
        k₁.mail.sys.cpu.executing = 0 := by
  induction ops generalizing k timeout n with
  | nil =>
      -- the timer is later than the tick
      obtain ⟨timeout', hqueued, hlater, -⟩ := (hr.switching htick).after hmain
      cases Multiset.singleton_inj.mp (htask.symm.trans hqueued)
      obtain rfl : n = 0 := Nat.le_zero.mp hticks
      exact absurd hsoon (not_le.mpr hlater)
  | cons op ops ih =>
      by_cases hexec : k.mail.sys.cpu.executing = 0
      · exact ⟨[], k, List.nil_prefix, rfl, hexec⟩
      rw [runPermitted] at hops
      split_ifs at hops with hok
      obtain ⟨k₁, hk₁, hrest⟩ := Option.bind_eq_some_iff.mp hops
      obtain ⟨hroles, htimers⟩ := hr.roles htick
      have hstep := kernelStep_of hroles htimers hok hk₁
      have hr₁ : k₁.Reachable m tick := Transition.Reachable.step hr hok hk₁
      obtain ⟨hrun₁, hmain₁, hsame⟩ := hstep.preempted hexec hrun
      have hcons : ∀ pre k₂, pre <+: ops →
          runPermitted (Kernel.step m) (fun k op => op.Permitted k) k₁ pre = some k₂ →
          (op :: pre) <+: op :: ops ∧
          runPermitted (Kernel.step m) (fun k op => op.Permitted k) k (op :: pre) = some k₂ := by
        intro pre k₂ hpre hk₂
        refine ⟨List.prefix_cons_inj op |>.mpr hpre, ?_⟩
        rw [runPermitted, if_pos hok, hk₁]
        exact hk₂
      have hlater : ∀ {n' timeout' : Nat},
          (content k₁.timers.timers).filter IsTask =
            {{ timeout := timeout', value := kTaskTimerValue }} →
          timeout' ≤ k₁.timers.tick + n' → n' ≤ (ops.filter KernelOp.isTick).length → _ :=
        fun htask' hsoon' hticks' =>
          ih hr₁ hrun₁ (hmain₁ ▸ hmain) htask' hsoon' hrest hticks'
      cases hop : op.isTick with
      | false =>
          have heq := hsame (KernelOp.ne_interruptTimer hop)
          rw [List.filter_cons_of_neg (by rw [hop]; exact Bool.false_ne_true)] at hticks
          obtain ⟨pre, k₂, hpre, hk₂, hexec₂⟩ :=
            hlater (by rw [heq]; exact htask) (by rw [heq]; exact hsoon) hticks
          exact ⟨op :: pre, k₂, (hcons pre k₂ hpre hk₂).1, (hcons pre k₂ hpre hk₂).2, hexec₂⟩
      | true =>
          obtain rfl : op = .interruptTimer := by
            cases op <;> first | rfl | cases hop
          cases hstep with
          | interruptTimer hrange k' reported result htimer =>
              by_cases hdue : timeout ≤ k.timers.tick + 1
              · have hflag : result.taskTimerTimeout = true := by
                  rw [htimer.task]
                  have hmem : { timeout := timeout, value := kTaskTimerValue } ∈
                      (content k.timers.timers).filter IsTask := by
                    rw [htask]
                    exact Multiset.mem_singleton_self _
                  exact ⟨_, Multiset.mem_of_mem_filter hmem, hdue, rfl⟩
                have hroles₁ := (hr₁.roles htick).1
                refine ⟨[.interruptTimer], k₁, ?_, ?_, ?_⟩
                · exact (List.prefix_cons_inj _).mpr List.nil_prefix
                · rw [runPermitted, if_pos hok, hk₁]
                  rfl
                · exact hroles₁.executing_main hrun₁ (htimer.highest hflag)
              · have htask₁ : (content k₁.timers.timers).filter IsTask =
                    {{ timeout := timeout, value := kTaskTimerValue }} := by
                  rw [htimer.ticked.filter_isTask, htask, Multiset.filter_singleton, if_pos hdue,
                    Multiset.filter_singleton, if_neg hdue]
                  rfl
                rw [List.filter_cons_of_pos hop, List.length_cons] at hticks
                have hpos : n ≠ 0 := by
                  rintro rfl
                  exact hdue (hsoon.trans (Nat.le_succ _))
                obtain ⟨n', rfl⟩ := Nat.exists_eq_succ_of_ne_zero hpos
                obtain ⟨pre, k₂, hpre, hk₂, hexec₂⟩ := hlater htask₁
                  (by rw [htimer.tick]; omega) (Nat.le_of_succ_le_succ hticks)
                exact ⟨.interruptTimer :: pre, k₂, (hcons pre k₂ hpre hk₂).1,
                  (hcons pre k₂ hpre hk₂).2, hexec₂⟩

/-- **A main task that has been woken executes within two ticks**, whatever the task of the terminal
does meanwhile. -/
theorem Kernel.Reachable.main_within_two_ticks {tick : Nat} (htick : tick < kTimer05Sec)
    {ops : List KernelOp} (hr : k.Reachable m tick)
    (hrun : k.mail.sys.manager.isRunning 0 = true)
    (hops : runPermitted (Kernel.step m) (fun k op => op.Permitted k) k ops = some k')
    (hticks : 2 ≤ (ops.filter KernelOp.isTick).length) :
    ∃ pre k₁, pre <+: ops ∧
      runPermitted (Kernel.step m) (fun k op => op.Permitted k) k pre = some k₁ ∧
        k₁.mail.sys.cpu.executing = 0 := by
  have hswitching := hr.switching htick
  by_cases hmain : k.main = .addTaskTimer
  · exact ⟨[], k, List.nil_prefix, rfl, (hswitching.before hmain).2⟩
  · obtain ⟨timeout, htask, -, hsoon⟩ := hswitching.after hmain
    exact main_within htick hr hrun hmain htask hsoon hops hticks

/-- The kernel when the keyboard has been configured and the main task has just been woken. -/
def woken? : Option (Kernel (List Timer)) :=
  runPermitted (Kernel.step emptyMachine) (fun k op => op.Permitted k) (Kernel.init 0)
    (typing.take 11)

/-- The first eleven operations of the example are all permitted. -/
theorem woken?_isSome : woken?.isSome = true := by decide +kernel

/-- The kernel at that moment. -/
def woken : Kernel (List Timer) := woken?.get woken?_isSome

/-- That state is one of a run from the start. -/
theorem woken_reachable : woken.Reachable emptyMachine 0 :=
  Transition.Reachable.of_runPermitted .init (Option.some_get woken?_isSome).symm

/-- The next two steps are ticks. -/
def ticked? : Option (Kernel (List Timer)) :=
  runPermitted (Kernel.step emptyMachine) (fun k op => op.Permitted k) woken
    [.interruptTimer, .interruptTimer]

/-- Two ticks may follow. -/
theorem ticked?_isSome : ticked?.isSome = true := by decide +kernel

/-- In the example the main task executes within the two ticks. -/
theorem main_within_two_ticks_woken :
    ∃ pre k₁, pre <+: [KernelOp.interruptTimer, .interruptTimer] ∧
      runPermitted (Kernel.step emptyMachine) (fun k op => op.Permitted k) woken pre = some k₁ ∧
        k₁.mail.sys.cpu.executing = 0 :=
  woken_reachable.main_within_two_ticks (by decide) (by decide +kernel)
    (Option.some_get ticked?_isSome).symm (by decide)

/-! ## The timer of the cursor -/

/-- The timeout that a message about the timer of the cursor reports. -/
def Message.cursor? (msg : Message) : Option Nat :=
  match msg.type, msg.arg with
  | .kTimerTimeout, .timer timeout value =>
      if value = kTextboxCursorTimer then some timeout else none
  | _, _ => none

namespace MainStage

/-- A timeout that has been received and not dealt with yet. -/
def cursorInHand : MainStage → List Nat
  | .handle msg => msg.cursor?.toList
  | _ => []

/-- A timeout that is still to be sent on. -/
def cursorToSend : MainStage → List Nat
  | .blink msg => msg.cursor?.toList
  | .send _ msg => msg.cursor?.toList
  | _ => []

end MainStage

/-- The first multiples of half a second. -/
def halfSeconds (n : Nat) : List Nat := (List.range n).map fun j => kTimer05Sec * (j + 1)

/-- The next multiple of half a second follows the others. -/
theorem halfSeconds_succ (n : Nat) :
    halfSeconds (n + 1) = halfSeconds n ++ [kTimer05Sec * (n + 1)] := by
  unfold halfSeconds
  rw [List.range_succ, List.map_append]
  rfl

/-- The timer of the cursor. -/
abbrev cursorTimer (timeout : Nat) : Timer := { timeout := timeout, value := kTextboxCursorTimer }

namespace Kernel

/-- The timers that are reported by messages. -/
def queued (k : Kernel Q) : Multiset Timer := (content k.timers.timers).filter (¬IsTask ·)

/-- The timeouts that the main task has not dealt with. -/
def outstanding (k : Kernel Q) : List Nat :=
  k.main.cursorInHand ++ (k.mail.sys.manager.pending 0).filterMap Message.cursor?

end Kernel

/-- The timer of the cursor after it has been reported `n` times. -/
structure Blinking (k : Kernel Q) (n : Nat) : Prop where
  sent : (k.mail.sent 0).filterMap Message.cursor? = halfSeconds n
  late : kTimer05Sec * n ≤ k.timers.tick
  place : (k.queued = {sentinel, cursorTimer (kTimer05Sec * (n + 1))} ∧ k.outstanding = []) ∨
    (k.queued = {sentinel} ∧ k.outstanding = [kTimer05Sec * n])
  forwarded : (k.mail.received 0).filterMap Message.cursor? =
    (k.mail.sent 2).filterMap Message.cursor? ++ k.main.cursorToSend ++ k.main.cursorInHand

namespace Blinking

variable {n : Nat}

/-- A step that leaves the timer where it is. -/
theorem stay (h : Blinking k n) (htick : k'.timers.tick = k.timers.tick)
    (hqueued : k'.queued = k.queued)
    (hsent : ∀ p, (k'.mail.sent p).filterMap Message.cursor? =
      (k.mail.sent p).filterMap Message.cursor?)
    (hreceived : (k'.mail.received 0).filterMap Message.cursor? =
      (k.mail.received 0).filterMap Message.cursor?)
    (hpending : (k'.mail.sys.manager.pending 0).filterMap Message.cursor? =
      (k.mail.sys.manager.pending 0).filterMap Message.cursor?)
    (hinHand : k'.main.cursorInHand = k.main.cursorInHand)
    (htoSend : k'.main.cursorToSend = k.main.cursorToSend) : Blinking k' n where
  sent := by rw [hsent, h.sent]
  late := by
    rw [htick]
    exact h.late
  place := by
    unfold Kernel.outstanding
    rw [hqueued, hinHand, hpending]
    exact h.place
  forwarded := by rw [hreceived, hsent, hinHand, htoSend, h.forwarded]

/-- Messages are handed out that are not about the timer. -/
theorem hand (h : Blinking k n) (hroles : Roles k) {msgs : TaskPtr → List Message}
    (hhands : Hands k.mail msgs k'.mail) (hmsgs : ∀ p, (msgs p).filterMap Message.cursor? = [])
    (htimers : k'.timers = k.timers) (hinHand : k'.main.cursorInHand = k.main.cursorInHand)
    (htoSend : k'.main.cursorToSend = k.main.cursorToSend) : Blinking k' n := by
  refine h.stay (by rw [htimers]) ?_ (fun p => ?_) ?_ ?_ hinHand htoSend
  · unfold Kernel.queued
    rw [htimers]
  · rw [hhands.filterMap_sent, hmsgs, List.append_nil]
  · rw [hhands.received]
  · rw [hhands.pending hroles.mail, List.filterMap_append, hmsgs, List.append_nil]

/-- The main task goes on. -/
theorem goOn (h : Blinking k n) (htimers : k'.timers = k.timers) (hmail : k'.mail = k.mail)
    (hinHand : k'.main.cursorInHand = k.main.cursorInHand)
    (htoSend : k'.main.cursorToSend = k.main.cursorToSend) : Blinking k' n := by
  refine h.stay (by rw [htimers]) ?_ (fun p => ?_) ?_ ?_ hinHand htoSend
  · unfold Kernel.queued
    rw [htimers]
  all_goals rw [hmail]

/-- The main task has received a timeout: it adds the timer for the next one. -/
theorem cursorTimer (h : Blinking k n) (htimers : k.Ticking) {srcTask : UInt64} {timeout : Nat}
    (hmain : k.main = .handle
      { type := .kTimerTimeout, srcTask, arg := .timer timeout kTextboxCursorTimer })
    (htimers' : k'.timers = k.timers.addTimer
      { timeout := (timeout + kTimer05Sec) % 2 ^ 64, value := kTextboxCursorTimer })
    (hmail : k'.mail = k.mail)
    (hmain' : k'.main = .blink
      { type := .kTimerTimeout, srcTask, arg := .timer timeout kTextboxCursorTimer }) :
    Blinking k' n := by
  have hinHand : k.main.cursorInHand = [timeout] := by
    rw [hmain]
    rfl
  have hforwarded := h.forwarded
  rw [hinHand] at hforwarded
  rcases h.place with ⟨-, houtstanding⟩ | ⟨hqueued, houtstanding⟩
  · unfold Kernel.outstanding at houtstanding
    rw [hinHand] at houtstanding
    cases houtstanding
  · unfold Kernel.outstanding at houtstanding
    rw [hinHand] at houtstanding
    obtain ⟨rfl, hpending⟩ := List.cons_eq_cons.mp houtstanding
    have hmod : (kTimer05Sec * n + kTimer05Sec) % 2 ^ 64 = kTimer05Sec * (n + 1) := by
      have hlate := h.late
      have hrange := htimers.inRange
      simp only [kTimer05Sec, kUnsignedLongMax] at hlate hrange ⊢
      omega
    refine ⟨by rw [hmail, h.sent], ?_, Or.inl ⟨?_, ?_⟩, ?_⟩
    · rw [htimers']
      exact h.late
    · have hcontent : content k'.timers.timers =
          UhyokOS.cursorTimer (kTimer05Sec * (n + 1)) ::ₘ content k.timers.timers := by
        rw [htimers', hmod]
        exact content_push _ _
      have hbefore : (content k.timers.timers).filter (¬IsTask ·) = {sentinel} := hqueued
      unfold Kernel.queued
      rw [hcontent, Multiset.filter_cons_of_pos (p := fun t => ¬IsTask t) _ (not_isTask_cursor _),
        hbefore]
      exact Multiset.cons_swap _ _ _
    · unfold Kernel.outstanding
      rw [hmain', hmail]
      exact hpending
    · rw [hmail, hforwarded, hmain', hmain]
      simp [MainStage.cursorToSend, MainStage.cursorInHand, Message.cursor?]

/-- The timer of the constructor is never due. -/
theorem not_due_sentinel (htimers : k.Ticking) : ¬Due (k.timers.tick + 1) sentinel := by
  have hrange := htimers.inRange
  refine not_le.mpr ?_
  show k.timers.tick + 1 < kUnsignedLongMax
  simp only [kTimer05Sec] at hrange
  omega

/-- A tick reports at most this timer. -/
theorem length_reported_le (h : Blinking k n) (htimers : k.Ticking) {reported : List Timer}
    {result : TickResult} (htimer : TimerStep k k' reported result) : reported.length ≤ 1 := by
  have hreported : (reported : Multiset Timer) = k.queued.filter (Due (k.timers.tick + 1)) :=
    htimer.ticked.reported_eq_filter
  have hcard : reported.length = Multiset.card (k.queued.filter (Due (k.timers.tick + 1))) := by
    rw [← hreported]
    rfl
  rw [hcard]
  rcases h.place with ⟨hqueued, -⟩ | ⟨hqueued, -⟩
  · rw [hqueued]
    show Multiset.card ((sentinel ::ₘ {_}).filter _) ≤ 1
    rw [Multiset.filter_cons_of_neg _ (not_due_sentinel htimers)]
    exact Multiset.card_le_card (Multiset.filter_le _ _)
  · rw [hqueued]
    exact Multiset.card_le_card (Multiset.filter_le _ _)

/-- One tick. -/
theorem tick (h : Blinking k n) (hroles : Roles k) (htimers : k.Ticking)
    {reported : List Timer} {result : TickResult} (htimer : TimerStep k k' reported result) :
    ∃ n', Blinking k' n' := by
  have hmain : k'.main = k.main := by rw [htimer.kernel]
  have hafter : k'.queued = k.queued.filter (¬Due (k.timers.tick + 1) ·) :=
    htimer.ticked.filter_not_isTask
  have hreported : (reported : Multiset Timer) = k.queued.filter (Due (k.timers.tick + 1)) :=
    htimer.ticked.reported_eq_filter
  have hsentinel := not_due_sentinel htimers
  have hlate := h.late
  have hforwarded : (k'.mail.received 0).filterMap Message.cursor? =
      (k'.mail.sent 2).filterMap Message.cursor? ++ k'.main.cursorToSend ++
        k'.main.cursorInHand := by
    rw [htimer.hands.received, htimer.hands.filterMap_sent_handTo_ne (p := 2) (by decide), hmain,
      h.forwarded]
  -- nothing is reported
  have hnothing : k.queued.filter (Due (k.timers.tick + 1)) = 0 → Blinking k' n := by
    intro hnone
    obtain rfl : reported = [] := by
      rw [hnone] at hreported
      exact Multiset.coe_eq_zero _ |>.mp hreported
    have hsame : k'.queued = k.queued := by
      rw [hafter, Multiset.filter_eq_self]
      intro t ht hdue
      exact Multiset.notMem_zero t (hnone ▸ Multiset.mem_filter.mpr ⟨ht, hdue⟩)
    refine ⟨?_, by rw [htimer.tick]; omega, ?_, hforwarded⟩
    · rw [htimer.hands.filterMap_sent, h.sent, List.map_nil, handTo_self]
      exact List.append_nil _
    · unfold Kernel.outstanding
      rw [hsame, hmain, htimer.hands.pending hroles.mail, List.map_nil, handTo_self,
        List.append_nil]
      exact h.place
  rcases h.place with ⟨hqueued, houtstanding⟩ | ⟨hqueued, houtstanding⟩
  · by_cases hdue : kTimer05Sec * (n + 1) ≤ k.timers.tick + 1
    · have hdue' : Due (k.timers.tick + 1) (UhyokOS.cursorTimer (kTimer05Sec * (n + 1))) := hdue
      have hone : reported = [UhyokOS.cursorTimer (kTimer05Sec * (n + 1))] := by
        apply Multiset.coe_eq_singleton.mp
        rw [hreported, hqueued]
        show (sentinel ::ₘ {_}).filter _ = _
        rw [Multiset.filter_cons_of_neg _ hsentinel, Multiset.filter_singleton, if_pos hdue']
      subst hone
      refine ⟨n + 1, ?_, ?_, Or.inr ⟨?_, ?_⟩, hforwarded⟩
      · rw [htimer.hands.filterMap_sent, h.sent, handTo_self, halfSeconds_succ]
        rfl
      · rw [htimer.tick]
        exact hdue
      · rw [hafter, hqueued]
        show (sentinel ::ₘ {_}).filter _ = _
        rw [Multiset.filter_cons_of_pos (p := fun t => ¬Due (k.timers.tick + 1) t) _ hsentinel,
          Multiset.filter_singleton, if_neg (not_not.mpr hdue')]
        rfl
      · unfold Kernel.outstanding at houtstanding ⊢
        rw [hmain, htimer.hands.pending hroles.mail, handTo_self, List.filterMap_append,
          ← List.append_assoc, houtstanding]
        rfl
    · refine ⟨n, hnothing ?_⟩
      rw [hqueued]
      show (sentinel ::ₘ {_}).filter _ = 0
      rw [Multiset.filter_cons_of_neg _ hsentinel, Multiset.filter_singleton, if_neg hdue]
      rfl
  · refine ⟨n, hnothing ?_⟩
    rw [hqueued, Multiset.filter_singleton, if_neg hsentinel]
    rfl

/-- A section of the main task. The timer is queued again in the section that deals with its
message, and the message is sent on before another one is received. -/
theorem mainStep (h : Blinking k n) (hroles : Roles k) (htimers : k.Ticking)
    (hexec : k.mail.sys.cpu.executing = 0) (hstep : MainStep k k') : Blinking k' n := by
  have hforwarded := h.forwarded
  have hplace := h.place
  unfold Kernel.outstanding at hplace
  cases hstep with
  | addTaskTimer hmain =>
      refine h.stay rfl ?_ (fun _ => rfl) rfl rfl (by rw [hmain]; rfl) (by rw [hmain]; rfl)
      have htask : IsTask ⟨(k.timers.tick + kTaskTimerPeriod) % 2 ^ 64, kTaskTimerValue⟩ := rfl
      show (content (push k.timers.timers _)).filter _ = _
      rw [content_push, Multiset.filter_cons_of_neg (p := fun t => ¬IsTask t) _ (not_not.mpr htask)]
      rfl
  | newTask hmain mail hinv hmanager hcpu hsent hreceived =>
      have hpending : mail.sys.manager.pending 0 = k.mail.sys.manager.pending 0 := by
        have hfifo := congrFun hsent 0
        rw [hinv.fifo, hroles.mail.fifo, hreceived] at hfifo
        exact List.append_cancel_left hfifo
      exact h.stay rfl rfl (fun p => congrArg _ (congrFun hsent p))
        (congrArg _ (congrFun hreceived 0)) (congrArg _ hpending) (by rw [hmain]; rfl)
        (by rw [hmain]; rfl)
  | wakeTask hmain mail hcpu hhands hwakes =>
      exact h.hand hroles hhands (fun _ => rfl) rfl (by rw [hmain]; rfl) (by rw [hmain]; rfl)
  | take hmain msg msgs mail hpending htakes =>
      have hself := htakes.received_self
      have hrest := htakes.pending_self hroles.mail
      rw [hexec] at hself hrest
      rw [hmain] at hforwarded hplace
      refine ⟨?_, h.late, ?_, ?_⟩
      · show (mail.sent 0).filterMap _ = _
        rw [htakes.sent, h.sent]
      · show (k.queued = _ ∧ msg.cursor?.toList ++ (mail.sys.manager.pending 0).filterMap _ = _) ∨
          (k.queued = _ ∧ msg.cursor?.toList ++ (mail.sys.manager.pending 0).filterMap _ = _)
        rw [hrest, List.filterMap_cons] at hplace
        cases hcursor : msg.cursor? <;> simpa [MainStage.cursorInHand, hcursor] using hplace
      · show (mail.received 0).filterMap _ = (mail.sent 2).filterMap _ ++ [] ++ msg.cursor?.toList
        rw [hself, htakes.sent, List.filterMap_append, hforwarded, List.filterMap_cons]
        cases msg.cursor? <;> simp [MainStage.cursorToSend, MainStage.cursorInHand]
  | rest hmain mail hpending hrests =>
      exact h.stay rfl rfl (fun p => congrArg _ (congrFun hrests.sent p))
        (congrArg _ (congrFun hrests.received 0)) (congrArg _ (hrests.pending hroles.mail 0))
        (by rw [hmain]; rfl) (by rw [hmain]; rfl)
  | cursorTimer srcTask timeout hmain => exact h.cursorTimer htimers hmain rfl rfl rfl
  | otherTimer srcTask timeout value hvalue hmain =>
      have hinHand : k.main.cursorInHand = [] := by
        rw [hmain]
        exact congrArg Option.toList (if_neg hvalue)
      exact h.goOn rfl rfl hinHand.symm (by rw [hmain]; rfl)
  | notify i push pushes driver hmain mail hcpu hhands =>
      refine h.hand hroles hhands (fun p => ?_) rfl (by rw [hmain]; rfl) (by rw [hmain]; rfl)
      unfold handTo
      split <;> rfl
  | send msg hmain mail hcpu hhands hwakes =>
      rw [hmain] at hforwarded hplace
      refine ⟨?_, h.late, ?_, ?_⟩
      · show (mail.sent 0).filterMap _ = _
        rw [hhands.filterMap_sent_handTo_ne (p := 0) (by decide), h.sent]
      · have hpending : mail.sys.manager.pending 0 = k.mail.sys.manager.pending 0 := by
          rw [hhands.pending hroles.mail]
          exact List.append_nil _
        show (k.queued = _ ∧ [] ++ (mail.sys.manager.pending 0).filterMap _ = _) ∨
          (k.queued = _ ∧ [] ++ (mail.sys.manager.pending 0).filterMap _ = _)
        rw [hpending]
        exact hplace
      · show (mail.received 0).filterMap _ = (mail.sent 2).filterMap _ ++ [] ++ []
        rw [hhands.received, hhands.filterMap_sent, hforwarded, handTo_self, List.filterMap_cons]
        cases hcursor : msg.cursor? <;>
          simp [MainStage.cursorToSend, MainStage.cursorInHand, hcursor]
  | _ => exact h.goOn rfl rfl (by rw [‹k.main = _›]; rfl) (by rw [‹k.main = _›]; rfl)

/-- A step of the kernel. At most one timeout of the cursor is added, by the tick that reports
it. -/
theorem step (h : Blinking k n) (hroles : Roles k) (htimers : k.Ticking)
    (hstep : KernelStep m k op k') : ∃ n', Blinking k' n' := by
  cases hstep with
  | interruptXHCI hirq mail hcpu hhands hwakes =>
      refine ⟨n, h.hand hroles hhands (fun p => ?_) rfl rfl rfl⟩
      unfold handTo
      split <;> rfl
  | interruptTimer hrange k' reported result htimer => exact h.tick hroles htimers htimer
  | main hexec k' hmain => exact ⟨n, h.mainStep hroles htimers hexec hmain⟩
  | terminal hexec hlate k' hterminal =>
      have hmain : (0 : TaskPtr) ≠ k.mail.sys.cpu.executing := by
        rw [hexec]
        exact nofun
      cases hterminal with
      | start hterminal => exact ⟨n, h.goOn rfl rfl rfl rfl⟩
      | rest t hterminal mail hpending hrests =>
          exact ⟨n, h.stay rfl rfl (fun p => congrArg _ (congrFun hrests.sent p))
            (congrArg _ (congrFun hrests.received 0))
            (congrArg _ (hrests.pending hroles.mail 0)) rfl rfl⟩
      | ignore t hterminal msg msgs hpending t' hhandle mail htakes =>
          exact ⟨n, h.stay rfl rfl (fun p => congrArg _ (congrFun htakes.sent p))
            (congrArg _ (htakes.received_of_ne hmain))
            (congrArg _ (htakes.pending_of_ne hroles.mail hmain)) rfl rfl⟩
      | answer t hterminal msg msgs hpending t' area hhandle taken mail htakes hcpu hhands hwakes =>
          refine ⟨n, h.stay rfl rfl (fun p => ?_) ?_ ?_ rfl rfl⟩
          · show (mail.sent p).filterMap _ = _
            rw [hhands.filterMap_sent, htakes.sent]
            unfold handTo
            split <;> exact List.append_nil _
          · show (mail.received 0).filterMap _ = _
            rw [hhands.received, htakes.received_of_ne hmain]
          · show (mail.sys.manager.pending 0).filterMap _ = _
            rw [hhands.pending htakes.inv, htakes.pending_of_ne hroles.mail hmain,
              List.filterMap_append]
            exact List.append_nil _
  | _ => exact ⟨n, h.goOn rfl rfl rfl rfl⟩

/-- At the start the timer is queued for the first half second, and no message about it has been
sent. -/
theorem init {tick : Nat} : Blinking (.init tick : Kernel Q) 0 := by
  refine ⟨rfl, Nat.zero_le _, Or.inl ⟨?_, rfl⟩, rfl⟩
  show (content (push (push empty sentinel) _)).filter _ = _
  rw [content_push, content_push, content_empty,
    Multiset.filter_cons_of_pos (p := fun t => ¬IsTask t) _ (not_isTask_cursor _),
    Multiset.filter_cons_of_pos (p := fun t => ¬IsTask t) _ not_isTask_sentinel,
    Multiset.filter_zero]
  exact Multiset.cons_swap _ _ _

end Blinking

/-- In every reachable state some number of half seconds has been reported. -/
theorem Kernel.Reachable.exists_blinking {tick : Nat} (htick : tick < kTimer05Sec)
    (hr : k.Reachable m tick) : ∃ n, Blinking k n :=
  hr.invariant (fun k => ∃ n, Blinking k n) htick ⟨0, .init⟩
    fun _ _ _ hroles htimers ⟨_, hn⟩ hstep => hn.step hroles htimers hstep

/-- **The cursor's timer neither drifts nor multiplies.** The timeouts that the main task has been told
of are the first multiples of half a second, none of them early; the timer is either queued for the
next multiple or its last message has not been dealt with; and the terminal is told of the same
timeouts, in order. -/
theorem Kernel.Reachable.cursor_timer_in_step {tick : Nat} (htick : tick < kTimer05Sec)
    (hr : k.Reachable m tick) : ∃ n,
    (k.mail.sent 0).filterMap Message.cursor? = halfSeconds n ∧
    kTimer05Sec * n ≤ k.timers.tick ∧
    ((k.queued = {sentinel, cursorTimer (kTimer05Sec * (n + 1))} ∧ k.outstanding = []) ∨
      (k.queued = {sentinel} ∧ k.outstanding = [kTimer05Sec * n])) ∧
    (k.mail.received 0).filterMap Message.cursor? =
      (k.mail.sent 2).filterMap Message.cursor? ++ k.main.cursorToSend ++ k.main.cursorInHand := by
  obtain ⟨n, h⟩ := hr.exists_blinking htick
  exact ⟨n, h.sent, h.late, h.place, h.forwarded⟩

/-- In the example the timer is in step with the clock after the key has been typed. -/
theorem cursor_timer_in_step_typed : ∃ n,
    (typed.mail.sent 0).filterMap Message.cursor? = halfSeconds n ∧
    kTimer05Sec * n ≤ typed.timers.tick ∧
    ((typed.queued = {sentinel, cursorTimer (kTimer05Sec * (n + 1))} ∧ typed.outstanding = []) ∨
      (typed.queued = {sentinel} ∧ typed.outstanding = [kTimer05Sec * n])) ∧
    (typed.mail.received 0).filterMap Message.cursor? =
      (typed.mail.sent 2).filterMap Message.cursor? ++ typed.main.cursorToSend ++
        typed.main.cursorInHand :=
  typed_reachable.cursor_timer_in_step (by decide)

end UhyokOS
