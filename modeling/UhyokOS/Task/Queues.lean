import UhyokOS.Task.Manager
import UhyokOS.Lib.PlacedQueues
import UhyokOS.Lib.Transition
import Mathlib.Data.Fintype.Basic
import Mathlib.Tactic.FinCases

/-!
# The run queues of the task manager

What each member function of `TaskManager` does to the queues, and the invariant that follows.

`Task.place` says where a task belongs: a running task in the queue of its level, any other task
nowhere. `SchedInv` is the scheduler's invariant: the queues hold exactly that placement, the queue
of the current level is not empty, the idle task is runnable, and a non-empty queue above the
current level has set `level_changed_`.

* `switchTask_spec` is the one description of `SwitchTask`; everything about a context switch is
  read off `Switched`.
* `wakeup_spec`, `sleep_spec` and `newTask_spec` say that the other functions are defined on a
  state in `SchedInv`, keep it, and leave the front of the current queue where it was
  (`Sleep` of the current task switches instead).
-/

namespace UhyokOS

open PlacedQueues

/-- The queue a task belongs in. -/
def Task.place (t : Task) : Option Level := if t.running then some t.level else none

/-- A running task belongs in the queue of its level. -/
@[simp] theorem Task.place_running {t : Task} (h : t.running = true) : t.place = some t.level := by
  simp [Task.place, h]

/-- A task that sleeps belongs in no queue. -/
@[simp] theorem Task.place_not_running {t : Task} (h : t.running = false) : t.place = none := by
  simp [Task.place, h]

/-- A level the API accepts names a queue. -/
theorem Level.exists_ofInt? {level : Int} (h₀ : 0 ≤ level) (h : level ≤ kMaxLevel) :
    ∃ lv : Level, Level.ofInt? level = some lv ∧ level = (lv : Nat) := by
  refine ⟨⟨level.toNat, by omega⟩, ?_, ?_⟩
  · unfold Level.ofInt?
    rw [dif_pos ⟨h₀, h⟩]
  · simp [h₀]

namespace TaskManager

variable {tm tm' : TaskManager} {task p : TaskPtr} {t : Task} {lv : Level}

/-- The queue the task behind a pointer belongs in. -/
def placeOf (tm : TaskManager) (p : TaskPtr) : Option Level := (tm.tasks[p]?).bind Task.place

/-! ## Small updates -/

section updates

variable (tm : TaskManager) (lv : Level) (queue : List TaskPtr) (task : TaskPtr) (f : Task → Task)

/-- A queue is replaced; the tasks are not touched. -/
@[simp] theorem setQueue_tasks : (tm.setQueue lv queue).tasks = tm.tasks := rfl

/-- The next id does not depend on the queues. -/
@[simp] theorem setQueue_latestId : (tm.setQueue lv queue).latestId = tm.latestId := rfl

/-- The queue of one level is replaced, those of the others stay as they are. -/
@[simp] theorem setQueue_running :
    (tm.setQueue lv queue).running = Function.update tm.running lv queue := rfl

/-- A queue is replaced; the level of the current task is kept in a field of its own. -/
@[simp] theorem setQueue_currentLevel : (tm.setQueue lv queue).currentLevel = tm.currentLevel := rfl

/-- A queue is replaced; the flag is set by the callers, where they set it. -/
@[simp] theorem setQueue_levelChanged : (tm.setQueue lv queue).levelChanged = tm.levelChanged := rfl

/-- A task is changed; the queues hold pointers and stay as they are. -/
@[simp] theorem modifyTask_running : (tm.modifyTask task f).running = tm.running := rfl

/-- A task is changed; its id is not one of the fields that the callers change, and the next id is
another field. -/
@[simp] theorem modifyTask_latestId : (tm.modifyTask task f).latestId = tm.latestId := rfl

/-- A task is changed; the current level is not that of a task but of the manager. -/
@[simp] theorem modifyTask_currentLevel :
    (tm.modifyTask task f).currentLevel = tm.currentLevel := rfl

/-- A task is changed; the callers set the flag, if they do. -/
@[simp] theorem modifyTask_levelChanged :
    (tm.modifyTask task f).levelChanged = tm.levelChanged := rfl

/-- A task is changed in its place: no pointer becomes invalid. -/
@[simp] theorem modifyTask_tasks_length :
    (tm.modifyTask task f).tasks.length = tm.tasks.length := by
  simp [modifyTask]

/-- What is behind a pointer after a task was changed. -/
theorem getElem?_modifyTask (p : TaskPtr) :
    (tm.modifyTask task f).tasks[p]? = if task = p then tm.tasks[p]?.map f else tm.tasks[p]? := by
  simp only [modifyTask, List.getElem?_modify]
  by_cases h : task = p <;> simp [h]

end updates

/-- The task that was changed. -/
theorem getElem?_modifyTask_self (ht : tm.tasks[task]? = some t) (f : Task → Task) :
    (tm.modifyTask task f).tasks[task]? = some (f t) := by
  simp [getElem?_modifyTask, ht]

/-- The other tasks. -/
theorem getElem?_modifyTask_ne (h : p ≠ task) (f : Task → Task) :
    (tm.modifyTask task f).tasks[p]? = tm.tasks[p]? := by
  simp [getElem?_modifyTask, Ne.symm h]

/-- The place of the task behind a valid pointer. -/
theorem placeOf_eq (ht : tm.tasks[p]? = some t) : tm.placeOf p = t.place := by
  simp [placeOf, ht]

/-- A placement depends on the tasks only. -/
theorem placeOf_congr (h : tm'.tasks = tm.tasks) (p : TaskPtr) : tm'.placeOf p = tm.placeOf p := by
  simp [placeOf, h]

/-- Setting fields of one task moves that task only. -/
theorem placeOf_modifyTask (ht : tm.tasks[task]? = some t) (f : Task → Task) (p : TaskPtr) :
    (tm.modifyTask task f).placeOf p = Function.update tm.placeOf task (f t).place p := by
  by_cases h : p = task
  · subst h
    simp [placeOf, getElem?_modifyTask_self ht]
  · simp [placeOf, getElem?_modifyTask_ne h, Function.update_of_ne h]

/-- `CurrentTask` takes the front of the queue of the current level, so there must be one. -/
theorem currentFront?_eq_some :
    tm.currentFront? = some p ↔ ∃ rest, tm.running tm.currentLevel = p :: rest := by
  unfold currentFront?
  cases tm.running tm.currentLevel with
  | nil => simp
  | cons a rest => simp

/-! ## The invariant -/

/-- The scheduler's invariant. -/
structure SchedInv (tm : TaskManager) : Prop where
  /-- Every running task sits once in the queue of its level, and nothing else is queued. -/
  holds : Holds tm.running tm.placeOf
  /-- The queue of the current level is not empty. -/
  current : tm.running tm.currentLevel ≠ []
  /-- The idle task exists under id 2 and is runnable. -/
  idle : ∃ t, tm.tasks[1]? = some t ∧ t.id = 2 ∧ t.running = true
  /-- A runnable task above the current level has been announced. -/
  announced : ∀ lv, tm.currentLevel < lv → tm.running lv ≠ [] → tm.levelChanged = true

/-- **There is always a current task**: the queue of the current level is not empty. -/
theorem SchedInv.front (h : SchedInv tm) : ∃ p rest, tm.running tm.currentLevel = p :: rest :=
  List.exists_cons_of_ne_nil h.current

/-- A queued pointer is the pointer of a running task of that level. -/
theorem SchedInv.of_mem (h : SchedInv tm) (hp : p ∈ tm.running lv) :
    ∃ t, tm.tasks[p]? = some t ∧ t.running = true ∧ t.level = lv := by
  have hplace : tm.placeOf p = some lv := (h.holds.mem_iff p lv).mp hp
  unfold placeOf at hplace
  obtain ⟨t, ht, hpl⟩ := Option.bind_eq_some_iff.mp hplace
  unfold Task.place at hpl
  split_ifs at hpl with hrun
  exact ⟨t, ht, hrun, by simpa using hpl⟩

/-- A running task is in the queue of its level, which is where `Erase` looks for it. -/
theorem SchedInv.mem (h : SchedInv tm) (ht : tm.tasks[p]? = some t) (hrun : t.running = true) :
    p ∈ tm.running t.level :=
  (h.holds.mem_iff p t.level).mpr (by rw [placeOf_eq ht, Task.place_running hrun])

/-- A sleeping task is in no queue, which is why `Wakeup` may append it without a search. -/
theorem SchedInv.place_none (ht : tm.tasks[p]? = some t) (hrun : t.running = false) :
    tm.placeOf p = none := by
  rw [placeOf_eq ht, Task.place_not_running hrun]

/-! ## The constructor and `NewTask` -/

/-- The manager that the constructor leaves: the task that called it is running on the highest
level, and the idle task on level 0. -/
theorem schedInv_init : SchedInv init := by
  constructor
  · constructor
    · intro k
      fin_cases k <;> decide
    · intro a k
      match a with
      | 0 => fin_cases k <;> decide
      | 1 => fin_cases k <;> decide
      | n + 2 =>
          have hp : init.placeOf (n + 2) = none := rfl
          rw [hp]
          simp only [init, newTask, setQueue, modifyTask, Function.update]
          split_ifs <;> simp
  · decide
  · exact ⟨_, rfl, rfl, rfl⟩
  · intro k hk
    fin_cases k <;> revert hk <;> decide

/-- **`NewTask`** appends a task that does not run; no queue changes, and the pointers to the older
tasks stay valid. -/
theorem newTask_spec (h : SchedInv tm) : SchedInv tm.newTask.1 := by
  have hplace : ∀ p, tm.newTask.1.placeOf p = tm.placeOf p := by
    intro p
    simp only [placeOf, newTask, List.getElem?_append]
    split_ifs with hp
    · rfl
    · rw [List.getElem?_eq_none (by omega : tm.tasks.length ≤ p)]
      cases hq : ([{ id := tm.latestId + 1 }] : List Task)[p - tm.tasks.length]? with
      | none => rfl
      | some t =>
          have ht : t = { id := tm.latestId + 1 } := by
            simpa using List.mem_of_getElem? hq
          subst ht
          rfl
  refine ⟨h.holds.congr hplace, h.current, ?_, h.announced⟩
  obtain ⟨t, ht, hid, hrun⟩ := h.idle
  have hlt : 1 < tm.tasks.length := (List.getElem?_eq_some_iff.mp ht).1
  exact ⟨t, by simpa [newTask, List.getElem?_append_left hlt] using ht, hid, hrun⟩

/-! ## `SwitchTask` -/

/-- The scan finds the highest non-empty queue, if there is one. -/
theorem scanLevels_spec {running : Level → List TaskPtr} (current : Level)
    (h : ∃ lv, running lv ≠ []) :
    running (scanLevels running current) ≠ [] ∧
      ∀ lv, scanLevels running current < lv → running lv = [] := by
  have hsorted : (List.finRange (kMaxLevel + 1)).reverse.Pairwise (· > ·) :=
    List.pairwise_reverse.mpr (List.pairwise_lt_finRange _)
  cases hf : (List.finRange (kMaxLevel + 1)).reverse.find? fun lv => !(running lv).isEmpty with
  | none =>
      obtain ⟨lv, hlv⟩ := h
      have := List.find?_eq_none.mp hf lv (by simp)
      simp [hlv] at this
  | some found =>
      have hscan : scanLevels running current = found := by simp [scanLevels, hf]
      rw [hscan]
      obtain ⟨hp, as, bs, hsplit, has⟩ := List.find?_eq_some_iff_append.mp hf
      refine ⟨by simpa using hp, fun lv hlv => ?_⟩
      have hmem : lv ∈ as ++ found :: bs := hsplit ▸ (by simp)
      rw [hsplit, List.pairwise_append, List.pairwise_cons] at hsorted
      rcases List.mem_append.mp hmem with hin | hin
      · simpa using has lv hin
      · rcases List.mem_cons.mp hin with rfl | hin
        · exact absurd hlv (lt_irrefl _)
        · exact absurd (hsorted.2.1.1 lv hin) (not_lt.mpr hlv.le)

/-- What a context switch leaves behind, `queue` being the current queue as the switch leaves it. -/
structure Switched (tm : TaskManager) (queue : List TaskPtr) (tm' : TaskManager) (next : TaskPtr) :
    Prop where
  tasks : tm'.tasks = tm.tasks
  latestId : tm'.latestId = tm.latestId
  running : tm'.running = Function.update tm.running tm.currentLevel queue
  /-- The task that continues is the front of the then current queue. -/
  front : tm'.currentFront? = some next
  settled : tm'.levelChanged = false
  /-- Without an announcement the level stays. -/
  stays : tm.levelChanged = false → queue ≠ [] → tm'.currentLevel = tm.currentLevel
  /-- Otherwise the level becomes the highest runnable one. -/
  highest : tm.levelChanged = true ∨ queue = [] → ∀ lv, tm'.currentLevel < lv → tm'.running lv = []

/-- `SwitchTask` is defined as soon as a task is left to run. -/
theorem switchTask_spec {cur : TaskPtr} {rest : List TaskPtr} {currentSleep : Bool}
    (hq : tm.running tm.currentLevel = cur :: rest)
    (hne : ∃ lv, Function.update tm.running tm.currentLevel
      (if currentSleep then rest else rest ++ [cur]) lv ≠ []) :
    ∃ tm' next, tm.switchTask currentSleep = some (tm', { next := next, current := cur }) ∧
      Switched tm (if currentSleep then rest else rest ++ [cur]) tm' next := by
  have hqueue : (if !currentSleep then rest ++ [cur] else rest) =
      if currentSleep then rest else rest ++ [cur] := by cases currentSleep <;> rfl
  unfold switchTask
  simp only [currentFront?, hq, List.head?_cons, List.tail_cons, Option.bind_eq_bind,
    Option.bind_some, hqueue]
  generalize (if currentSleep then rest else rest ++ [cur]) = queue at hne ⊢
  by_cases hch : tm.levelChanged = true ∨ queue = []
  · -- the level is chosen anew
    have hflag : (if queue.isEmpty = true then { tm.setQueue tm.currentLevel queue with
        levelChanged := true } else tm.setQueue tm.currentLevel queue).levelChanged = true := by
      rcases hch with hch | hch
      · split_ifs <;> simp [hch]
      · simp [hch]
    rw [if_pos hflag]
    obtain ⟨hfront, hhigh⟩ := scanLevels_spec tm.currentLevel hne
    obtain ⟨next, tail, hnext⟩ := List.exists_cons_of_ne_nil hfront
    have hrun : (if queue.isEmpty = true then { tm.setQueue tm.currentLevel queue with
        levelChanged := true } else tm.setQueue tm.currentLevel queue) =
        { tm.setQueue tm.currentLevel queue with
          levelChanged := tm.levelChanged || queue.isEmpty } := by
      cases queue <;> simp [setQueue]
    rw [hrun]
    simp only [setQueue_running, setQueue_currentLevel, hnext, List.head?_cons, Option.bind_some]
    refine ⟨_, next, rfl, ⟨rfl, rfl, rfl, ?_, rfl, ?_, fun _ => hhigh⟩⟩
    · simp [currentFront?, hnext]
    · intro hf hq'
      rcases hch with hch | hch
      · simp [hf] at hch
      · exact absurd hch hq'
  · -- the level stays
    rw [not_or] at hch
    obtain ⟨next, tail, rfl⟩ := List.exists_cons_of_ne_nil hch.2
    have hf : tm.levelChanged = false := by simpa using hch.1
    simp only [List.isEmpty_cons, Bool.false_eq_true, if_false, setQueue_levelChanged, hf,
      setQueue_running, setQueue_currentLevel, Function.update_self, List.head?_cons,
      Option.bind_some]
    refine ⟨_, next, rfl, ⟨rfl, rfl, rfl, ?_, hf, fun _ _ => rfl, ?_⟩⟩
    · simp [currentFront?]
    · rintro (h | h)
      · simp [hf] at h
      · cases h

/-- How an operation that made the context switch `switch`, if any, left the front of the current
queue: a switch starts at the old front, continues at the new one and picks the highest runnable
level. -/
def Follows (tm : TaskManager) (switch : Option ContextSwitch) (tm' : TaskManager) : Prop :=
  match switch with
  | none => tm'.currentFront? = tm.currentFront?
  | some call => tm.currentFront? = some call.current ∧ tm'.currentFront? = some call.next ∧
      ∀ lv, tm'.currentLevel < lv → tm'.running lv = []

/-- After a switch no runnable task is above the current level. -/
theorem Switched.nothing_above {queue : List TaskPtr} {next : TaskPtr}
    (hsw : Switched tm queue tm' next)
    (hann : ∀ lv, tm.currentLevel < lv → tm.running lv ≠ [] → tm.levelChanged = true) :
    ∀ lv, tm'.currentLevel < lv → tm'.running lv = [] := by
  by_cases hch : tm.levelChanged = true ∨ queue = []
  · exact hsw.highest hch
  · rw [not_or] at hch
    have hf : tm.levelChanged = false := by simpa using hch.1
    intro lv hlv
    rw [hsw.stays hf hch.2] at hlv
    rw [hsw.running, Function.update_of_ne hlv.ne']
    by_contra hne
    exact hch.1 (hann lv hlv hne)

/-- A switch keeps the invariant if the queues it leaves realise the placement. -/
theorem Switched.schedInv {queue : List TaskPtr} {next : TaskPtr}
    (hsw : Switched tm queue tm' next)
    (hann : ∀ lv, tm.currentLevel < lv → tm.running lv ≠ [] → tm.levelChanged = true)
    (hholds : Holds (Function.update tm.running tm.currentLevel queue) tm.placeOf)
    (hidle : ∃ t, tm.tasks[1]? = some t ∧ t.id = 2 ∧ t.running = true) : SchedInv tm' := by
  constructor
  · rw [hsw.running]
    exact hholds.congr (placeOf_congr hsw.tasks)
  · obtain ⟨rest, hrest⟩ := currentFront?_eq_some.mp hsw.front
    simp [hrest]
  · rw [hsw.tasks]
    exact hidle
  · intro lv hlv hne
    exact absurd (hsw.nothing_above hann lv hlv) hne

/-- `SwitchTask(false)`: the current queue is rotated and the highest level is chosen. -/
theorem switchTask_false_spec (h : SchedInv tm) :
    ∃ tm' call, tm.switchTask false = some (tm', call) ∧ SchedInv tm' ∧
      tm'.tasks = tm.tasks ∧ Follows tm (some call) tm' := by
  obtain ⟨cur, rest, hq⟩ := h.front
  obtain ⟨tm', next, heq, hsw⟩ := @switchTask_spec tm cur rest false hq
    ⟨tm.currentLevel, by simp⟩
  simp only [Bool.false_eq_true, if_false] at hsw
  have hholds : Holds (Function.update tm.running tm.currentLevel (rest ++ [cur])) tm.placeOf :=
    h.holds.permute (hq ▸ List.perm_append_singleton cur rest)
  exact ⟨tm', _, heq, hsw.schedInv h.announced hholds h.idle, hsw.tasks,
    currentFront?_eq_some.mpr ⟨rest, hq⟩, hsw.front, hsw.nothing_above h.announced⟩

/-! ## `Sleep` -/

/-- Putting the task at the front of the current queue to sleep switches away from it. -/
private theorem sleep_front (h : SchedInv tm) (ht : tm.tasks[task]? = some t) (hidle : task ≠ 1)
    (hrun : t.running = true) (hfront : tm.currentFront? = some task) :
    ∃ tm' call, tm.sleep task = some (tm', some call) ∧ SchedInv tm' ∧
      tm'.tasks = (tm.modifyTask task fun t => { t with running := false }).tasks ∧
      Follows tm (some call) tm' := by
  obtain ⟨rest, hq⟩ := currentFront?_eq_some.mp hfront
  set tm₁ := tm.modifyTask task fun t => { t with running := false } with htm₁
  have hplace : ∀ p, tm₁.placeOf p = Function.update tm.placeOf task none p := fun p => by
    rw [placeOf_modifyTask ht]
    simp
  have hholds : Holds (Function.update tm.running tm.currentLevel rest) tm₁.placeOf :=
    (h.holds.remove (hq ▸ List.Perm.refl _)).congr hplace
  have hidle₁ : ∃ t, tm₁.tasks[1]? = some t ∧ t.id = 2 ∧ t.running = true := by
    rw [getElem?_modifyTask_ne (Ne.symm hidle)]
    exact h.idle
  -- the idle task is still queued, so the scan has something to find
  have hne : ∃ lv, Function.update tm.running tm.currentLevel rest lv ≠ [] := by
    obtain ⟨i, hi, _, hirun⟩ := hidle₁
    refine ⟨i.level, List.ne_nil_of_mem (a := 1) ?_⟩
    rw [hholds.mem_iff, placeOf_eq hi, Task.place_running hirun]
  obtain ⟨tm', next, heq, hsw⟩ := @switchTask_spec tm₁ task rest true hq hne
  simp only [if_true] at hsw
  refine ⟨tm', { next := next, current := task }, ?_, hsw.schedInv h.announced hholds hidle₁,
    hsw.tasks, hfront, hsw.front, hsw.nothing_above h.announced⟩
  unfold sleep
  have hfront₁ : tm₁.currentFront? = some task := hfront
  simp [ht, hrun, ← htm₁, hfront₁, heq]

/-- Any other running task is only erased from its queue. -/
private theorem sleep_other (h : SchedInv tm) (ht : tm.tasks[task]? = some t) (hidle : task ≠ 1)
    (hrun : t.running = true) (hfront : tm.currentFront? ≠ some task) :
    ∃ tm', tm.sleep task = some (tm', none) ∧ SchedInv tm' ∧
      tm'.tasks = (tm.modifyTask task fun t => { t with running := false }).tasks ∧
      Follows tm none tm' := by
  obtain ⟨front, rest, hq⟩ := h.front
  have hf : tm.currentFront? = some front := currentFront?_eq_some.mpr ⟨rest, hq⟩
  have hne : front ≠ task := fun heq => hfront (heq ▸ hf)
  set tm₁ := tm.modifyTask task fun t => { t with running := false } with htm₁
  set tm₂ := tm₁.setQueue t.level ((tm.running t.level).filter (· != task)) with htm₂
  have hplace : ∀ p, tm₂.placeOf p = Function.update tm.placeOf task none p := fun p => by
    rw [htm₂, placeOf_congr (setQueue_tasks _ _ _), placeOf_modifyTask ht]
    simp
  have htask : tm.placeOf task = some t.level := by rw [placeOf_eq ht, Task.place_running hrun]
  have hholds : Holds tm₂.running tm₂.placeOf := (h.holds.erase htask).congr hplace
  -- the front of the current queue stays where it was
  have hcur : ∃ tail, tm₂.running tm.currentLevel = front :: tail := by
    by_cases hlv : tm.currentLevel = t.level
    · refine ⟨rest.filter (· != task), ?_⟩
      simp only [htm₂, setQueue_running, hlv, Function.update_self]
      rw [← hlv, hq, List.filter_cons_of_pos (by simpa using hne)]
    · refine ⟨rest, ?_⟩
      simp only [htm₂, setQueue_running, Function.update_of_ne hlv]
      exact hq
  obtain ⟨tail, htail⟩ := hcur
  refine ⟨tm₂, ?_, ⟨hholds, ?_, ?_, ?_⟩, rfl, ?_⟩
  · unfold sleep
    have hf₁ : tm₁.currentFront? = some front := hf
    simp only [ht, hrun, ← htm₁, hf₁, Ne.symm hne, Option.bind_eq_bind, Option.bind_some,
      Bool.not_true, Bool.false_eq_true, if_false]
    rfl
  · intro hnil
    have : tm₂.running tm.currentLevel = [] := hnil
    simp [htail] at this
  · rw [htm₂, setQueue_tasks, getElem?_modifyTask_ne (Ne.symm hidle)]
    exact h.idle
  · intro lv hlv hne'
    refine h.announced lv hlv fun hnil => hne' ?_
    by_cases hl : lv = t.level
    · subst hl
      simp [htm₂, hnil]
    · rw [htm₂, setQueue_running, Function.update_of_ne hl]
      exact hnil
  · show tm₂.currentFront? = tm.currentFront?
    rw [hf]
    exact currentFront?_eq_some.mpr ⟨tail, htail⟩

/-- `Sleep` is defined for every task but the idle one. -/
theorem sleep_spec (h : SchedInv tm) (ht : tm.tasks[task]? = some t) (hidle : task ≠ 1) :
    ∃ (tm' : TaskManager) (switch : Option ContextSwitch),
      tm.sleep task = some (tm', switch) ∧ SchedInv tm' ∧ (∀ p : TaskPtr, tm'.tasks[p]? =
        (tm.modifyTask task fun t => { t with running := false }).tasks[p]?) ∧
      Follows tm switch tm' := by
  by_cases hrun : t.running = true
  · by_cases hfront : tm.currentFront? = some task
    · obtain ⟨tm', call, heq, hinv, htasks, hfol⟩ := sleep_front h ht hidle hrun hfront
      exact ⟨tm', _, heq, hinv, fun p => by rw [htasks], hfol⟩
    · obtain ⟨tm', heq, hinv, htasks, hfol⟩ := sleep_other h ht hidle hrun hfront
      exact ⟨tm', _, heq, hinv, fun p => by rw [htasks], hfol⟩
  · have hrun' : t.running = false := by simpa using hrun
    refine ⟨tm, none, ?_, h, fun p => ?_, rfl⟩
    · unfold sleep
      simp [ht, hrun']
    · by_cases hp : p = task
      · subst hp
        rw [getElem?_modifyTask_self ht, ht]
        cases t
        simp_all
      · rw [getElem?_modifyTask_ne hp]

/-! ## `Wakeup` and `ChangeLevelRunning` -/

/-- What a wake-up may change: the level and the running flag of one task. The front of the current
queue is not touched. -/
structure Woken (tm : TaskManager) (task : TaskPtr) (t : Task) (tm' : TaskManager) : Prop where
  inv : SchedInv tm'
  others : ∀ p, p ≠ task → tm'.tasks[p]? = tm.tasks[p]?
  self : ∃ lv, tm'.tasks[task]? = some { t with level := lv, running := true }
  length : tm'.tasks.length = tm.tasks.length
  front : tm'.currentFront? = tm.currentFront?

/-- The idle task stays runnable when some task is set running at some level. -/
private theorem idle_of_set (h : SchedInv tm) (ht : tm.tasks[task]? = some t) (lv : Level)
    (hothers : ∀ p, p ≠ task → tm'.tasks[p]? = tm.tasks[p]?)
    (hself : tm'.tasks[task]? = some { t with level := lv, running := true }) :
    ∃ t, tm'.tasks[1]? = some t ∧ t.id = 2 ∧ t.running = true := by
  obtain ⟨i, hi, hid, hrun⟩ := h.idle
  by_cases htask : task = 1
  · subst htask
    rw [ht] at hi
    cases hi
    exact ⟨_, hself, hid, rfl⟩
  · exact ⟨i, by rw [hothers 1 (Ne.symm htask), hi], hid, hrun⟩

/-- Appending to queue `lv`, announcing a level above the current one. -/
private theorem woken_of_append {queue : Level → List TaskPtr} (h : SchedInv tm)
    (ht : tm.tasks[task]? = some t) (lv : Level)
    (hholds : Holds queue (Function.update tm.placeOf task none))
    (hcur : (queue tm.currentLevel).head? = tm.currentFront?)
    (hsub : ∀ k, tm.running k = [] → queue k = []) :
    Woken tm task t
      { tm with
        tasks := tm.tasks.modify task fun t => { t with level := lv, running := true }
        running := Function.update queue lv (queue lv ++ [task])
        levelChanged := tm.levelChanged || decide (lv > tm.currentLevel) } := by
  have hothers : ∀ p, p ≠ task →
      (tm.tasks.modify task fun t => { t with level := lv, running := true })[p]? =
        tm.tasks[p]? := fun p hp => getElem?_modifyTask_ne hp _
  have hself := getElem?_modifyTask_self ht fun t => { t with level := lv, running := true }
  obtain ⟨front, rest, hq⟩ := h.front
  have hf : tm.currentFront? = some front := currentFront?_eq_some.mpr ⟨rest, hq⟩
  rw [hf] at hcur
  have hfront : (Function.update queue lv (queue lv ++ [task]) tm.currentLevel).head? =
      some front := by
    by_cases hl : tm.currentLevel = lv
    · subst hl
      rw [Function.update_self, List.head?_append, hcur]
      rfl
    · rw [Function.update_of_ne hl, hcur]
  refine ⟨⟨?_, ?_, idle_of_set h ht lv hothers hself, ?_⟩, hothers, ⟨lv, hself⟩, by simp, ?_⟩
  · refine (hholds.pushBack (k := lv) (a := task) (by simp)).congr fun p => ?_
    exact (placeOf_modifyTask ht (fun t => { t with level := lv, running := true }) p).trans
      (by simp)
  · intro hnil
    have : Function.update queue lv (queue lv ++ [task]) tm.currentLevel = [] := hnil
    simp [this] at hfront
  · intro k hk hne
    by_cases hkl : k = lv
    · subst hkl
      simpa using Or.inr hk
    · have hne' : queue k ≠ [] := by simpa [Function.update_of_ne hkl] using hne
      simp [h.announced k hk fun hnil => hne' (hsub k hnil)]
  · rw [hf]
    exact hfront

/-- The flag is only ever set: in either branch it is as before or true. -/
private theorem changed_if (b : Bool) (p : Prop) [Decidable p] (tm : TaskManager) :
    (if p then { tm with levelChanged := true } else { tm with levelChanged := b }) =
      { tm with levelChanged := b || decide p } := by
  by_cases hp : p <;> simp [hp]

/-- A sleeping task is appended to the queue of its new level. -/
private theorem wakeup_sleeping (h : SchedInv tm) (ht : tm.tasks[task]? = some t)
    (hrun : t.running = false) {level : Int} (hlevel : level ≤ kMaxLevel) :
    ∃ tm', tm.wakeup task level = some tm' ∧ Woken tm task t tm' := by
  have hlv : ∃ lv, (if level < 0 then some t.level else Level.ofInt? level) = some lv := by
    by_cases hneg : level < 0
    · exact ⟨t.level, if_pos hneg⟩
    · obtain ⟨lv, hof, -⟩ := Level.exists_ofInt? (by omega) hlevel
      exact ⟨lv, by rw [if_neg hneg, hof]⟩
  obtain ⟨lv, hlv⟩ := hlv
  have hnone : tm.placeOf task = none := SchedInv.place_none ht hrun
  have hplace : ∀ p, Function.update tm.placeOf task none p = tm.placeOf p := fun p => by
    rw [← hnone, Function.update_eq_self]
  refine ⟨_, ?_, woken_of_append h ht lv (h.holds.congr hplace) rfl fun _ hk => hk⟩
  unfold wakeup
  simp only [ht, hrun, hlv, Option.bind_eq_bind, Option.bind_some, Bool.false_eq_true, if_false]
  exact congrArg some (changed_if tm.levelChanged (lv > tm.currentLevel) _)

/-- A running task other than the current one is moved to the back of its new queue. -/
private theorem changeLevel_other (h : SchedInv tm) (ht : tm.tasks[task]? = some t)
    (hrun : t.running = true) {level : Int} {lv : Level} (hof : Level.ofInt? level = some lv)
    (hchange : ¬(level < 0 ∨ level = (t.level : Nat))) (hfront : tm.currentFront? ≠ some task) :
    ∃ tm', tm.changeLevelRunning task level = some tm' ∧ Woken tm task t tm' := by
  obtain ⟨front, rest, hq⟩ := h.front
  have hf : tm.currentFront? = some front := currentFront?_eq_some.mpr ⟨rest, hq⟩
  have hne : front ≠ task := fun heq => hfront (heq ▸ hf)
  set queue := Function.update tm.running t.level ((tm.running t.level).filter (· != task))
    with hqueue
  have htask : tm.placeOf task = some t.level := by rw [placeOf_eq ht, Task.place_running hrun]
  have hcur : (queue tm.currentLevel).head? = tm.currentFront? := by
    rw [hf, hqueue]
    by_cases hl : tm.currentLevel = t.level
    · rw [hl, Function.update_self, ← hl, hq, List.filter_cons_of_pos (by simpa using hne)]
      rfl
    · rw [Function.update_of_ne hl, hq]
      rfl
  have hsub : ∀ k, tm.running k = [] → queue k = [] := by
    intro k hk
    by_cases hkl : k = t.level
    · subst hkl
      simp [hqueue, hk]
    · rw [hqueue, Function.update_of_ne hkl, hk]
  refine ⟨_, ?_, woken_of_append h ht lv (h.holds.erase htask) hcur hsub⟩
  unfold changeLevelRunning
  simp only [ht, hf, hof, if_neg hchange, Option.bind_eq_bind, Option.bind_some, ne_eq,
    Ne.symm hne, not_false_eq_true, if_true]
  refine congrArg some ((changed_if _ _ _).trans ?_)
  simp only [setQueue, modifyTask, ← hqueue]
  congr 1
  -- the running flag of the task is set already
  apply List.ext_getElem?
  intro p
  simp only [List.getElem?_modify]
  by_cases hp : task = p
  · subst hp
    simp [ht, hrun]
  · simp [hp]

/-- The current task takes its new level along: it stays at the front of the current queue. -/
private theorem changeLevel_self (h : SchedInv tm) (ht : tm.tasks[task]? = some t)
    (hrun : t.running = true) {level : Int} {lv : Level} (hof : Level.ofInt? level = some lv)
    (hchange : ¬(level < 0 ∨ level = (t.level : Nat))) (hfront : tm.currentFront? = some task) :
    ∃ tm', tm.changeLevelRunning task level = some tm' ∧ Woken tm task t tm' := by
  obtain ⟨rest, hq⟩ := currentFront?_eq_some.mp hfront
  set queue := Function.update tm.running tm.currentLevel rest with hqueue
  set tm' : TaskManager :=
    { tm with
      tasks := tm.tasks.modify task fun t => { t with level := lv }
      running := Function.update queue lv (task :: queue lv)
      currentLevel := lv
      levelChanged := tm.levelChanged || decide (¬lv ≥ tm.currentLevel) } with htm'
  have hothers : ∀ p, p ≠ task → tm'.tasks[p]? = tm.tasks[p]? := fun p hp =>
    getElem?_modifyTask_ne hp _
  have hself : tm'.tasks[task]? = some { t with level := lv, running := true } := by
    rw [← hrun]
    exact getElem?_modifyTask_self ht _
  have hholds : Holds queue (Function.update tm.placeOf task none) :=
    h.holds.remove (hq ▸ List.Perm.refl _)
  refine ⟨tm', ?_, ⟨?_, ?_, idle_of_set h ht lv hothers hself, ?_⟩, hothers, ⟨lv, hself⟩,
    by simp [htm'], ?_⟩
  · unfold changeLevelRunning
    simp only [ht, hfront, hof, if_neg hchange, Option.bind_eq_bind, Option.bind_some, ne_eq,
      not_true_eq_false, if_false, setQueue, modifyTask, hq, List.tail_cons, ← hqueue, htm']
    by_cases hge : lv ≥ tm.currentLevel <;> simp [hge]
  · refine (hholds.pushFront (k := lv) (a := task) (by simp)).congr fun p => ?_
    refine (placeOf_modifyTask ht (fun t => { t with level := lv }) p).trans ?_
    simp [Task.place, hrun]
  · simp [htm']
  · intro k hk hne
    have hkl : k ≠ lv := ne_of_gt hk
    have hne' : queue k ≠ [] := by simpa [htm', Function.update_of_ne hkl] using hne
    by_cases hge : lv ≥ tm.currentLevel
    · have hgt : tm.currentLevel < k := lt_of_le_of_lt hge hk
      rw [hqueue, Function.update_of_ne hgt.ne'] at hne'
      simp [htm', h.announced k hgt hne']
    · simp [htm', hge]
  · rw [hfront]
    simp [currentFront?, htm']

/-- `Wakeup` is defined for every task and every level the API accepts. -/
theorem wakeup_spec (h : SchedInv tm) (ht : tm.tasks[task]? = some t) {level : Int}
    (hlevel : level ≤ kMaxLevel) :
    ∃ tm', tm.wakeup task level = some tm' ∧ Woken tm task t tm' := by
  by_cases hrun : t.running = true
  · have hwake : tm.wakeup task level = tm.changeLevelRunning task level := by
      unfold wakeup
      simp [ht, hrun]
    rw [hwake]
    by_cases hchange : level < 0 ∨ level = (t.level : Nat)
    · refine ⟨tm, ?_, h, fun _ _ => rfl, ⟨t.level, ?_⟩, rfl, rfl⟩
      · unfold changeLevelRunning
        simp [ht, hchange]
      · rw [ht, ← hrun]
    · obtain ⟨lv, hof, -⟩ := Level.exists_ofInt? (by omega) hlevel
      by_cases hfront : tm.currentFront? = some task
      · exact changeLevel_self h ht hrun hof hchange hfront
      · exact changeLevel_other h ht hrun hof hchange hfront
  · exact wakeup_sleeping h ht (by simpa using hrun) hlevel

/-! ## Messages -/

/-- The message queues have no part in the invariant. -/
theorem SchedInv.modifyMsgs (h : SchedInv tm) (task : TaskPtr)
    (f : List Message → List Message) :
    SchedInv (tm.modifyTask task fun t => { t with msgs := f t.msgs }) := by
  have hplace : ∀ p, (tm.modifyTask task fun t => { t with msgs := f t.msgs }).placeOf p =
      tm.placeOf p := by
    intro p
    by_cases hp : p = task
    · subst hp
      simp only [placeOf, getElem?_modifyTask, if_true]
      cases tm.tasks[p]? <;> rfl
    · simp only [placeOf, getElem?_modifyTask_ne hp]
  refine ⟨h.holds.congr hplace, h.current, ?_, h.announced⟩
  obtain ⟨i, hi, hid, hrun⟩ := h.idle
  by_cases htask : task = 1
  · subst htask
    exact ⟨_, getElem?_modifyTask_self hi _, hid, hrun⟩
  · exact ⟨i, by rw [getElem?_modifyTask_ne (Ne.symm htask), hi], hid, hrun⟩

/-- `Task::SendMessage` appends the message and leaves the receiver running. -/
theorem taskSendMessage_spec (h : SchedInv tm) (ht : tm.tasks[task]? = some t) (msg : Message) :
    ∃ tm', tm.taskSendMessage task msg = some tm' ∧
      Woken tm task { t with msgs := t.msgs ++ [msg] } tm' := by
  have ht₁ := getElem?_modifyTask_self ht fun t => { t with msgs := t.msgs ++ [msg] }
  obtain ⟨tm', heq, hwoken⟩ := wakeup_spec (h.modifyMsgs task (· ++ [msg])) ht₁
    (show (-1 : Int) ≤ kMaxLevel by omega)
  refine ⟨tm', heq, hwoken.inv, fun p hp => ?_, hwoken.self, ?_, hwoken.front⟩
  · rw [hwoken.others p hp, getElem?_modifyTask_ne hp]
  · rw [hwoken.length, modifyTask_tasks_length]

/-- `Task::ReceiveMessage` takes the front message of the task, if there is one. -/
theorem receiveMessage_eq (ht : tm.tasks[task]? = some t) :
    tm.receiveMessage task = match t.msgs with
      | [] => some (tm, none)
      | m :: msgs => some (tm.modifyTask task fun t => { t with msgs := msgs }, some m) := by
  unfold receiveMessage
  simp only [ht, Option.bind_eq_bind, Option.bind_some]
  cases t.msgs <;> rfl

/-! ## Lookup by id -/

/-- The search by id finds a task that has this id. -/
theorem find?_eq_some {id : UInt64} (h : tm.find? id = some task) :
    ∃ t, tm.tasks[task]? = some t ∧ t.id = id := by
  obtain ⟨hlt, hid, -⟩ := List.findIdx?_eq_some_iff_getElem.mp h
  exact ⟨tm.tasks[task], List.getElem?_eq_getElem hlt, by simpa using hid⟩

/-- The search by id fails only if no task has it, which is when the callers answer
`kNoSuchTask`. -/
theorem find?_eq_none {id : UInt64} : tm.find? id = none ↔ ∀ t ∈ tm.tasks, t.id ≠ id := by
  simp [find?, List.findIdx?_eq_none_iff]

end TaskManager

end UhyokOS
