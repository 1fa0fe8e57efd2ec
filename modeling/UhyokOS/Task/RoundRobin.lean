import UhyokOS.Task.Runs
import UhyokOS.Lib.RoundRobin

/-!
# Round robin within a level

As long as the current level stays the same, its queue is a round robin queue: sleeping and moving
tasks leave it, woken ones go to its back, and a context switch ends the turn of its front.

* `queueChange_of_step`: what an operation does to the current queue.
* `run_of_throughout`: a run of the system is a run of that queue.
* `round_robin`: so a task of the current level waits for at most as many turns as there are tasks
  before it, and the tasks take turns.
-/

namespace UhyokOS

open Transition RoundRobin

namespace TaskManager

variable {tm tm' : TaskManager} {task : TaskPtr} {t : Task} {level : Int} {currentSleep : Bool}
  {call : ContextSwitch} {switch : Option ContextSwitch}

/-- The queue of the current level. -/
abbrev currentQueue (tm : TaskManager) : List TaskPtr := tm.running tm.currentLevel

/-- What `SwitchTask` does to the queues. -/
theorem running_of_switchTask (h : tm.switchTask currentSleep = some (tm', call)) :
    ∃ cur rest, tm.currentQueue = cur :: rest ∧ tm'.running =
      Function.update tm.running tm.currentLevel (if currentSleep then rest else rest ++ [cur]) := by
  obtain ⟨cur, hcur, hrest⟩ := Option.bind_eq_some_iff.mp h
  obtain ⟨rest, hqueue⟩ := currentFront?_eq_some.mp hcur
  obtain ⟨next, -, heq⟩ := Option.bind_eq_some_iff.mp hrest
  refine ⟨cur, rest, hqueue, ?_⟩
  cases heq
  have hleft : (if (!currentSleep) = true then rest ++ [cur] else rest) =
      if currentSleep = true then rest else rest ++ [cur] := by
    cases currentSleep <;> rfl
  rw [hqueue, List.tail_cons, hleft]
  generalize (if currentSleep = true then rest else rest ++ [cur]) = queue
  split_ifs <;> rfl

/-- `SwitchTask` ends the turn of the front. -/
theorem turns_of_switchTask (h : tm.switchTask currentSleep = some (tm', call)) :
    Turns tm.currentQueue (tm'.running tm.currentLevel) := by
  obtain ⟨cur, rest, hqueue, hrunning⟩ := running_of_switchTask h
  rw [hqueue, hrunning, Function.update_self]
  cases currentSleep with
  | false => exact .rotate cur rest
  | true => exact .leave cur rest

/-- How an operation that made the context switch `switch`, if any, left the queue of what was the
current level. -/
def QueueChange (tm : TaskManager) (switch : Option ContextSwitch) (tm' : TaskManager) : Prop :=
  match switch with
  | none => Waits tm.currentQueue (tm'.running tm.currentLevel)
  | some _ => Turns tm.currentQueue (tm'.running tm.currentLevel)

/-- The queue of the current level is not empty, and its first task is the one that executes.
`SwitchTask` reads `front()` without asking. -/
theorem SchedInv.currentQueue_eq (h : SchedInv tm) :
    ∃ front rest, tm.currentQueue = front :: rest ∧ tm.currentFront? = some front := by
  obtain ⟨front, rest, hqueue⟩ := h.front
  exact ⟨front, rest, hqueue, currentFront?_eq_some.mpr ⟨rest, hqueue⟩⟩

/-- The queue of the current level is not touched. -/
theorem waits_of_eq (h : SchedInv tm)
    (heq : tm'.running tm.currentLevel = tm.currentQueue) :
    Waits tm.currentQueue (tm'.running tm.currentLevel) := by
  obtain ⟨front, rest, hqueue, -⟩ := h.currentQueue_eq
  rw [heq, hqueue]
  exact .refl front rest

/-- Another task than the front is erased from its queue. -/
theorem waits_of_filter (h : SchedInv tm) (hfront : tm.currentFront? ≠ some task) :
    Waits tm.currentQueue (tm.currentQueue.filter (· != task)) := by
  obtain ⟨front, rest, hqueue, hfront'⟩ := h.currentQueue_eq
  have hne : front ≠ task := fun heq => hfront (heq ▸ hfront')
  rw [hqueue, List.filter_cons_of_pos (by simpa using hne)]
  exact .leave front List.filter_sublist

/-- A task that is not in it is appended to the queue. -/
theorem waits_of_append (h : SchedInv tm) (hnotMem : task ∉ tm.currentQueue) :
    Waits tm.currentQueue (tm.currentQueue ++ [task]) := by
  obtain ⟨front, rest, hqueue, -⟩ := h.currentQueue_eq
  rw [hqueue] at hnotMem ⊢
  exact .join hnotMem

/-- `Sleep` of the executing task ends its turn. `Sleep` of another one takes a task off that waits,
if it is in this queue at all. -/
theorem queueChange_of_sleep (h : SchedInv tm) (hs : tm.sleep task = some (tm', switch)) :
    QueueChange tm switch tm' := by
  obtain ⟨t, ht, hs⟩ := Option.bind_eq_some_iff.mp hs
  split_ifs at hs with hrun
  · cases hs
    exact waits_of_eq h rfl
  · obtain ⟨front, hfront, hs⟩ := Option.bind_eq_some_iff.mp hs
    have hfront : tm.currentFront? = some front := hfront
    split_ifs at hs with heq
    · obtain ⟨⟨tm'', call⟩, hswitch, hs⟩ := Option.bind_eq_some_iff.mp hs
      cases hs
      have hturns := turns_of_switchTask hswitch
      exact hturns
    · cases hs
      by_cases hlevel : tm.currentLevel = t.level
      · show Waits tm.currentQueue (Function.update tm.running t.level
          ((tm.running t.level).filter (· != task)) tm.currentLevel)
        rw [← hlevel, Function.update_self]
        exact waits_of_filter h fun hf => heq (Option.some.inj (hf.symm.trans hfront))
      · refine waits_of_eq h ?_
        exact Function.update_of_ne hlevel _ _

/-- A running task leaves its queue and goes to the back of that of its new level; if it is the front,
the current level changes. -/
theorem waits_of_changeLevelRunning (h : SchedInv tm) (ht : tm.tasks[task]? = some t)
    (hc : tm.changeLevelRunning task level = some tm')
    (hlevel : tm'.currentLevel = tm.currentLevel) :
    Waits tm.currentQueue (tm'.running tm.currentLevel) := by
  obtain ⟨t', ht', hc⟩ := Option.bind_eq_some_iff.mp hc
  cases ht.symm.trans ht'
  split_ifs at hc with hsame
  · cases hc
    exact waits_of_eq h rfl
  · obtain ⟨front, hfront, hc⟩ := Option.bind_eq_some_iff.mp hc
    obtain ⟨lv, hlv, hc⟩ := Option.bind_eq_some_iff.mp hc
    have hne : lv ≠ t.level := by
      rintro rfl
      refine hsame (Or.inr ?_)
      unfold Level.ofInt? at hlv
      split_ifs at hlv with hrange
      rw [← Option.some.inj hlv]
      exact (Int.toNat_of_nonneg hrange.1).symm
    have hnotMem : task ∉ tm.running lv := by
      intro hmem
      obtain ⟨t', ht', -, hl⟩ := h.of_mem hmem
      cases ht.symm.trans ht'
      exact hne hl.symm
    by_cases heq : task = front
    · -- the front takes the current level along
      rw [if_neg (not_not.mpr heq)] at hc
      have hnew : tm'.currentLevel = lv := by
        cases hc
        split_ifs <;> rfl
      obtain ⟨rest, hqueue⟩ := currentFront?_eq_some.mp hfront
      have hmem : task ∈ tm.running tm.currentLevel := by
        rw [hqueue, heq]
        exact List.mem_cons_self
      rw [← hlevel, hnew] at hmem
      exact absurd hmem hnotMem
    · rw [if_pos heq] at hc
      have hrunning : tm'.running = Function.update
          (Function.update tm.running t.level ((tm.running t.level).filter (· != task))) lv
            (Function.update tm.running t.level ((tm.running t.level).filter (· != task)) lv ++
              [task]) := by
        cases hc
        split_ifs <;> rfl
      rw [hrunning]
      by_cases hcur : tm.currentLevel = lv
      · rw [← hcur] at hne hnotMem ⊢
        rw [Function.update_self, Function.update_of_ne hne]
        exact waits_of_append h hnotMem
      · rw [Function.update_of_ne hcur]
        by_cases hold : tm.currentLevel = t.level
        · rw [← hold, Function.update_self]
          exact waits_of_filter h fun hf => heq (Option.some.inj (hf.symm.trans hfront))
        · rw [Function.update_of_ne hold]
          exact waits_of_eq h rfl

/-- A task that sleeps goes to the back of the queue of its level. -/
theorem waits_of_wakeup (h : SchedInv tm) (hw : tm.wakeup task level = some tm')
    (hlevel : tm'.currentLevel = tm.currentLevel) :
    Waits tm.currentQueue (tm'.running tm.currentLevel) := by
  obtain ⟨t, ht, hw⟩ := Option.bind_eq_some_iff.mp hw
  by_cases hrun : t.running = true
  · rw [if_pos hrun] at hw
    exact waits_of_changeLevelRunning h ht hw hlevel
  · rw [if_neg hrun] at hw
    obtain ⟨lv, hlv, hw⟩ := Option.bind_eq_some_iff.mp hw
    have hrunning : tm'.running = Function.update tm.running lv (tm.running lv ++ [task]) := by
      cases hw
      split_ifs <;> rfl
    rw [hrunning]
    by_cases hcur : tm.currentLevel = lv
    · have hnotMem : task ∉ tm.currentQueue := by
        intro hmem
        obtain ⟨t', ht', hrun', -⟩ := h.of_mem hmem
        cases ht.symm.trans ht'
        exact hrun hrun'
      rw [← hcur, Function.update_self]
      exact waits_of_append h hnotMem
    · rw [Function.update_of_ne hcur]
      exact waits_of_eq h rfl

/-- A function that is given an id does nothing if no task has it; else it does what the one that is
given the task does. -/
theorem found_cases {α β : Type} {found : Option TaskPtr} {notFound r : β}
    {f : TaskPtr → Option α} {g : α → β}
    (h : (match found with
      | none => some notFound
      | some task => (f task).map g) = some r) :
    r = notFound ∨ ∃ task a, f task = some a ∧ g a = r := by
  cases found with
  | none => exact Or.inl (Option.some.inj h).symm
  | some task =>
      obtain ⟨a, hf, heq⟩ := Option.map_eq_some_iff.mp h
      exact Or.inr ⟨task, a, hf, heq⟩

/-- With an id that no task has, `Sleep` changes nothing. Otherwise it is `Sleep` of that task. -/
theorem sleepId_cases {id : UInt64} {err : Error}
    (h : tm.sleepId id = some (tm', switch, err)) :
    (tm' = tm ∧ switch = none) ∨ ∃ task, tm.sleep task = some (tm', switch) := by
  rcases found_cases h with heq | ⟨task, a, hsleep, heq⟩
  · cases heq
    exact Or.inl ⟨rfl, rfl⟩
  · cases heq
    exact Or.inr ⟨task, hsleep⟩

/-- With an id that no task has, `Wakeup` changes nothing. Otherwise it is `Wakeup` of that task. -/
theorem wakeupId_cases {id : UInt64} {err : Error} (h : tm.wakeupId id level = some (tm', err)) :
    tm' = tm ∨ ∃ task, tm.wakeup task level = some tm' := by
  rcases found_cases h with heq | ⟨task, a, hwakeup, heq⟩
  · exact Or.inl (congrArg Prod.fst heq)
  · cases heq
    exact Or.inr ⟨task, hwakeup⟩

/-- With an id that no task has, `SendMessage` changes nothing. Otherwise the message is put into
the mailbox of that task. -/
theorem sendMessage_cases {id : UInt64} {msg : Message} {err : Error}
    (h : tm.sendMessage id msg = some (tm', err)) :
    tm' = tm ∨ ∃ task, tm.taskSendMessage task msg = some tm' := by
  rcases found_cases h with heq | ⟨task, a, hsend, heq⟩
  · exact Or.inl (congrArg Prod.fst heq)
  · cases heq
    exact Or.inr ⟨task, hsend⟩

end TaskManager

/-! ## Runs within a level -/

namespace System

variable {s s' : System} {op : TaskOp} {ops : List TaskOp} {P : System → Prop} {L : Level}
  {task q : TaskPtr}

/-- The tasks that get their turn by the context switches of a run, in order. -/
def turns (s : System) : List TaskOp → List TaskPtr
  | [] => []
  | op :: ops =>
      match s.step op with
      | none => []
      | some s' =>
          if s'.cpu.switches = s.cpu.switches then s'.turns ops
          else s'.cpu.executing :: s'.turns ops

/-- The property holds in every state of a run. -/
def Throughout (s : System) (ops : List TaskOp) (P : System → Prop) : Prop :=
  ∀ pre, pre <+: ops → ∀ s', run System.step s pre = some s' → P s'

/-- The task is not put to sleep, and it is at a level. -/
def RunsAt (L : Level) (task : TaskPtr) (s : System) : Prop :=
  ∃ t, s.manager.tasks[task]? = some t ∧ t.running = true ∧ t.level = L

/-- Whether a task runs on a level is two lookups in the manager. -/
instance decidableRunsAt (L : Level) (task : TaskPtr) (s : System) : Decidable (RunsAt L task s) :=
  decidable_of_iff (∃ t ∈ s.manager.tasks[task]?, t.running = true ∧ t.level = L) Iff.rfl

/-- A condition throughout a run is one on the states after each of its prefixes. -/
theorem throughout_iff : s.Throughout ops P ↔
    ∀ pre ∈ ops.inits, ∀ s' ∈ run System.step s pre, P s' := by
  unfold Throughout
  simp only [List.mem_inits]
  exact Iff.rfl

/-- What holds throughout a run holds at its start. -/
theorem Throughout.start (h : s.Throughout ops P) : P s := h [] List.nil_prefix s rfl

/-- What holds throughout a run holds throughout the rest of it. -/
theorem Throughout.tail (h : s.Throughout (op :: ops) P) (hs : s.step op = some s') :
    s'.Throughout ops P := by
  intro pre hpre s'' hrun
  refine h (op :: pre) (List.cons_prefix_cons.mpr ⟨rfl, hpre⟩) s'' ?_
  rw [run_cons, hs]
  exact hrun

/-- What an operation does to the queue of the current level, if the level stays. -/
theorem queueChange_of_step (h : SysInv s) (hs : s.step op = some s')
    (hlevel : s'.manager.currentLevel = s.manager.currentLevel) :
    ∃ switch, s.manager.QueueChange switch s'.manager ∧ s' = s.after s'.manager switch := by
  cases op with
  | newTask =>
      cases hs
      exact ⟨none, TaskManager.waits_of_eq h.sched rfl, rfl⟩
  | switchTask =>
      obtain ⟨⟨tm', call⟩, hswitch, rfl⟩ := Option.map_eq_some_iff.mp hs
      exact ⟨some call, TaskManager.turns_of_switchTask hswitch, rfl⟩
  | sleep task =>
      obtain ⟨⟨tm', switch⟩, hsleep, rfl⟩ := Option.map_eq_some_iff.mp hs
      exact ⟨switch, TaskManager.queueChange_of_sleep h.sched hsleep, rfl⟩
  | sleepId id =>
      obtain ⟨⟨tm', switch, err⟩, hsleep, rfl⟩ := Option.map_eq_some_iff.mp hs
      refine ⟨switch, ?_, rfl⟩
      rcases TaskManager.sleepId_cases hsleep with ⟨rfl, rfl⟩ | ⟨task, hsleep⟩
      · exact TaskManager.waits_of_eq h.sched rfl
      · exact TaskManager.queueChange_of_sleep h.sched hsleep
  | wakeup task level =>
      obtain ⟨tm', hwakeup, rfl⟩ := Option.map_eq_some_iff.mp hs
      exact ⟨none, TaskManager.waits_of_wakeup h.sched hwakeup hlevel, rfl⟩
  | wakeupId id level =>
      obtain ⟨⟨tm', err⟩, hwakeup, rfl⟩ := Option.map_eq_some_iff.mp hs
      refine ⟨none, ?_, rfl⟩
      rcases TaskManager.wakeupId_cases hwakeup with rfl | ⟨task, hwakeup⟩
      · exact TaskManager.waits_of_eq h.sched rfl
      · exact TaskManager.waits_of_wakeup h.sched hwakeup hlevel
  | sendMessage id msg =>
      obtain ⟨⟨tm', err⟩, hsend, rfl⟩ := Option.map_eq_some_iff.mp hs
      refine ⟨none, ?_, rfl⟩
      rcases TaskManager.sendMessage_cases hsend with rfl | ⟨task, hwakeup⟩
      · exact TaskManager.waits_of_eq h.sched rfl
      · -- the message itself changes no queue
        have hwaits := TaskManager.waits_of_wakeup (h.sched.modifyMsgs task (· ++ [msg])) hwakeup
          hlevel
        exact hwaits

/-- **A run within a level is a run of its queue**: the refinement. -/
theorem run_of_throughout {Q : List TaskPtr → Prop} (h : SysInv s)
    (hadm : Admits System.step (fun s op => op.Permitted s) s ops)
    (hlevel : s.Throughout ops fun s => s.manager.currentLevel = L)
    (hQ : s.Throughout ops fun s => Q (s.manager.running L)) :
    Run Q (s.manager.running L) (s.turns ops) := by
  induction ops generalizing s with
  | nil => exact .nil hQ.start
  | cons op ops ih =>
      obtain ⟨s', hs, hsteps⟩ := steps_of_permitted h hadm.1
      have hrest := ih hsteps.inv (hadm.2 s' hs) (hlevel.tail hs) (hQ.tail hs)
      have hcur : s.manager.currentLevel = L := hlevel.start
      have hcur' : s'.manager.currentLevel = L := (hlevel.tail hs).start
      obtain ⟨switch, hchange, hs'⟩ := queueChange_of_step h hs (hcur'.trans hcur.symm)
      subst hcur
      unfold turns
      rw [hs]
      dsimp only
      cases switch with
      | none =>
          have hcpu : s'.cpu = s.cpu := by
            rw [hs']
            rfl
          rw [hcpu, if_pos rfl]
          exact .wait hQ.start hchange hrest
      | some call =>
          have hcpu : s'.cpu = s.cpu.switchContext call := by
            rw [hs']
            rfl
          have hne : s'.cpu.switches ≠ s.cpu.switches := by
            rw [hcpu]
            exact Nat.succ_ne_self _
          rw [if_neg hne]
          obtain ⟨rest, hfront⟩ := TaskManager.currentFront?_eq_some.mp hsteps.inv.front
          rw [hcur'] at hfront
          rw [hfront] at hrest
          refine .turn hQ.start ?_ hrest
          rw [← hfront]
          exact hchange

/-- **Round robin within a level.** Take any run from a reachable state in which the current level stays
`L`, and a task that is at level `L` and not put to sleep in any state of it.

* If the task is at index `p` of the queue, it executes after at most `p` context switches.
* If it executes now and next at the end of the run, then every other task that stays in the queue has
  had one turn. -/
theorem round_robin (hr : s.Reachable)
    (hadm : Admits System.step (fun s op => op.Permitted s) s ops)
    (hlevel : s.Throughout ops fun s => s.manager.currentLevel = L)
    (hstays : s.Throughout ops (RunsAt L task)) :
    (∀ p, (s.manager.running L)[p]? = some task → p ≤ (s.turns ops).length →
      s.cpu.executing = task ∨ task ∈ (s.turns ops).take p) ∧
    (∀ q, q ≠ task → (s.Throughout ops fun s => q ∈ s.manager.running L) →
      s.cpu.executing = task → ∀ between, s.turns ops = between ++ [task] → task ∉ between →
        between.count q = 1) := by
  have h := hr.sysInv
  have hqueue : s.Throughout ops fun s =>
      (s.manager.running L).Nodup ∧ task ∈ s.manager.running L := by
    intro pre hpre s' hrun
    have h' := run_of_keeps sysInv_preserved.keeps h (hadm.of_prefix hpre) hrun
    obtain ⟨t, ht, hrunning, rfl⟩ := hstays pre hpre s' hrun
    exact ⟨h'.sched.holds.nodup _, h'.sched.mem ht hrunning⟩
  have hfront : (s.manager.running L).head? = some s.cpu.executing := by
    have hcur : s.manager.currentLevel = L := hlevel.start
    rw [← hcur]
    exact h.front
  constructor
  · intro p hp hlen
    have hidx : (s.manager.running L).idxOf task = p := by
      obtain ⟨hlt, heq⟩ := List.getElem?_eq_some_iff.mp hp
      rw [← heq]
      exact (hqueue [] List.nil_prefix s rfl).1.idxOf_getElem p hlt
    have hrun := run_of_throughout (Q := fun l => l.Nodup ∧ task ∈ l) h hadm hlevel hqueue
    rw [← hidx] at hlen ⊢
    rcases exists_turn hrun hlen with hhead | hmem
    · exact Or.inl (Option.some.inj (hfront.symm.trans hhead))
    · exact Or.inr hmem
  · intro q hne hq hexecuting between hturns hbetween
    have hboth : s.Throughout ops fun s => Both task q (s.manager.running L) := by
      intro pre hpre s' hrun
      obtain ⟨hnodup, hmem⟩ := hqueue pre hpre s' hrun
      exact ⟨hnodup, hmem, hq pre hpre s' hrun⟩
    rw [hexecuting] at hfront
    exact count_between_turns (run_of_throughout h hadm hlevel hboth) hne hfront hturns hbetween

/-- The two tasks of the highest level take turns, while a third one is created. -/
def takeTurns : List TaskOp :=
  [.switchTask, .newTask, .sendMessage 3 { type := .kKeyPush }, .switchTask]

/-- In the example the task that waits has the next turn, and has it once before the other one
executes again. -/
theorem round_robin_bootState :
    (bootState.cpu.executing = 0 ∨ 0 ∈ (bootState.turns takeTurns).take 1) ∧
      bootState.turns takeTurns = [0] ++ [2] ∧ [(0 : TaskPtr)].count 0 = 1 := by
  have hadm : Admits System.step (fun s op => op.Permitted s) bootState takeTurns := by decide
  have hlevel : bootState.Throughout takeTurns fun s => s.manager.currentLevel = 3 :=
    throughout_iff.mpr (by decide)
  have hwaiting : bootState.Throughout takeTurns (RunsAt 3 0) := throughout_iff.mpr (by decide)
  have hexecuting : bootState.Throughout takeTurns (RunsAt 3 2) := throughout_iff.mpr (by decide)
  have hqueued : bootState.Throughout takeTurns fun s => 0 ∈ s.manager.running 3 :=
    throughout_iff.mpr (by decide)
  have hturns : bootState.turns takeTurns = [0] ++ [2] := by decide
  obtain ⟨hwait, -⟩ := round_robin bootState_reachable hadm hlevel hwaiting
  obtain ⟨-, hcount⟩ := round_robin bootState_reachable hadm hlevel hexecuting
  exact ⟨hwait 1 (by decide) (by decide), hturns,
    hcount 0 (by decide) hqueued (by decide) [0] hturns (by decide)⟩

end System

end UhyokOS
