import UhyokOS.Error
import Mathlib.Data.List.FinRange
import Mathlib.Logic.Function.Basic

/-!
# The task manager

The model of `kernel/task.cpp`. A `Task*` is the index of its `unique_ptr` in `tasks_`, a deque is
a list with its front first. A function is undefined (`none`) exactly where the source would take
`front()` of an empty deque, index `running_` out of bounds or follow a pointer to no task.

`SwitchContext` is assembler; a function that reaches it returns the call it makes
(`ContextSwitch`) as its last effect, and `Cpu.switchContext` says what the call does to the
processor. Everything a manager function does to its own fields happens before that call, so one
call of a member function is one atomic step of the `System`.
-/

namespace UhyokOS

/-- Highest priority level. Source: `kernel/task.hpp`, `TaskManager::kMaxLevel` -/
abbrev kMaxLevel : Nat := 3

/-- Source: `kernel/task.hpp`, `Task::kDefaultLevel` -/
abbrev kDefaultLevel : Fin (kMaxLevel + 1) := 1

/-- An index of `running_`. -/
abbrev Level := Fin (kMaxLevel + 1)

/-- A `Task*`: the position of the task in `tasks_`. -/
abbrev TaskPtr := Nat

/-- The queue that `running_[level]` names, undefined outside the array. -/
def Level.ofInt? (level : Int) : Option Level :=
  if h : 0 ≤ level ∧ level ≤ kMaxLevel then some ⟨level.toNat, by omega⟩ else none

/-- The fields of a task that scheduling and messaging use (its stack and saved registers are
written by `InitContext` and `SwitchContext` only).
Source: `kernel/task.hpp`, `Task` -/
structure Task where
  /-- `id_` -/
  id : UInt64
  /-- `msgs_`, front first -/
  msgs : List Message := []
  /-- `level_` -/
  level : Level := kDefaultLevel
  /-- `running_` -/
  running : Bool := false

/-- Source: `kernel/task.hpp`, `TaskManager` -/
structure TaskManager where
  /-- `tasks_` -/
  tasks : List Task := []
  /-- `latest_id_` -/
  latestId : UInt64 := 0
  /-- `running_`, one deque per level -/
  running : Level → List TaskPtr := fun _ => []
  /-- `current_level_` -/
  currentLevel : Level := Fin.last kMaxLevel
  /-- `level_changed_` -/
  levelChanged : Bool := false

/-- A call `SwitchContext(&next->Context(), &current->Context())`. -/
structure ContextSwitch where
  /-- The task whose context is restored. -/
  next : TaskPtr
  /-- The task whose context the registers are saved to. -/
  current : TaskPtr
  deriving DecidableEq

namespace TaskManager

/-- Apply a setter to the task behind a pointer. -/
def modifyTask (tm : TaskManager) (task : TaskPtr) (f : Task → Task) : TaskManager :=
  { tm with tasks := tm.tasks.modify task f }

/-- Replace one run queue. -/
def setQueue (tm : TaskManager) (lv : Level) (queue : List TaskPtr) : TaskManager :=
  { tm with running := Function.update tm.running lv queue }

/-- `front()` of the queue of the current level. -/
def currentFront? (tm : TaskManager) : Option TaskPtr := (tm.running tm.currentLevel).head?

/-- Source: `kernel/task.cpp`, `TaskManager::NewTask` -/
def newTask (tm : TaskManager) : TaskManager × TaskPtr :=
  let latestId := tm.latestId + 1
  ({ tm with latestId := latestId, tasks := tm.tasks ++ [{ id := latestId }] }, tm.tasks.length)

/-- The constructor: the initial task at the current level and the idle task at level 0.
Source: `kernel/task.cpp`, `TaskManager::TaskManager` -/
def init : TaskManager :=
  let (tm, task) := ({} : TaskManager).newTask
  let tm := tm.modifyTask task fun t => { t with level := tm.currentLevel, running := true }
  let tm := tm.setQueue tm.currentLevel (tm.running tm.currentLevel ++ [task])
  let (tm, idle) := tm.newTask
  let tm := tm.modifyTask idle fun t => { t with level := 0, running := true }
  tm.setQueue 0 (tm.running 0 ++ [idle])

/-- `std::find_if` over `tasks_` by id. -/
def find? (tm : TaskManager) (id : UInt64) : Option TaskPtr :=
  tm.tasks.findIdx? fun t => t.id == id

/-- The downward scan of `SwitchTask` for a non-empty queue; without one `current_level_` stays. -/
def scanLevels (running : Level → List TaskPtr) (current : Level) : Level :=
  ((List.finRange (kMaxLevel + 1)).reverse.find? fun lv => !(running lv).isEmpty).getD current

/-- Source: `kernel/task.cpp`, `TaskManager::SwitchTask` -/
def switchTask (tm : TaskManager) (currentSleep : Bool) : Option (TaskManager × ContextSwitch) := do
  let currentTask ← tm.currentFront?
  let levelQueue := (tm.running tm.currentLevel).tail
  let levelQueue := if !currentSleep then levelQueue ++ [currentTask] else levelQueue
  let tm := tm.setQueue tm.currentLevel levelQueue
  let tm := if levelQueue.isEmpty then { tm with levelChanged := true } else tm
  let tm :=
    if tm.levelChanged then
      { tm with levelChanged := false, currentLevel := scanLevels tm.running tm.currentLevel }
    else tm
  let nextTask ← tm.currentFront?
  return (tm, { next := nextTask, current := currentTask })

/-- Source: `kernel/task.cpp`, `TaskManager::Sleep(Task*)` -/
def sleep (tm : TaskManager) (task : TaskPtr) : Option (TaskManager × Option ContextSwitch) := do
  let t ← tm.tasks[task]?
  if !t.running then
    return (tm, none)
  let tm := tm.modifyTask task fun t => { t with running := false }
  let front ← tm.currentFront?
  if task = front then
    let (tm, switch) ← tm.switchTask true
    return (tm, some switch)
  return (tm.setQueue t.level ((tm.running t.level).filter (· != task)), none)

/-- Source: `kernel/task.cpp`, `TaskManager::Sleep(uint64_t)` -/
def sleepId (tm : TaskManager) (id : UInt64) :
    Option (TaskManager × Option ContextSwitch × Error) :=
  match tm.find? id with
  | none => some (tm, none, .kNoSuchTask)
  | some task => (tm.sleep task).map fun (tm, switch) => (tm, switch, .kSuccess)

/-- Source: `kernel/task.cpp`, `TaskManager::ChangeLevelRunning` -/
def changeLevelRunning (tm : TaskManager) (task : TaskPtr) (level : Int) : Option TaskManager := do
  let t ← tm.tasks[task]?
  if level < 0 ∨ level = (t.level : Nat) then
    return tm
  let front ← tm.currentFront?
  let lv ← Level.ofInt? level
  if task ≠ front then
    -- change level of other task
    let tm := tm.setQueue t.level ((tm.running t.level).filter (· != task))
    let tm := tm.setQueue lv (tm.running lv ++ [task])
    let tm := tm.modifyTask task fun t => { t with level := lv }
    return if lv > tm.currentLevel then { tm with levelChanged := true } else tm
  -- change level my self
  let tm := tm.setQueue tm.currentLevel (tm.running tm.currentLevel).tail
  let tm := tm.setQueue lv (task :: tm.running lv)
  let tm := tm.modifyTask task fun t => { t with level := lv }
  return if lv ≥ tm.currentLevel then { tm with currentLevel := lv }
    else { tm with currentLevel := lv, levelChanged := true }

/-- Source: `kernel/task.cpp`, `TaskManager::Wakeup(Task*, int)` -/
def wakeup (tm : TaskManager) (task : TaskPtr) (level : Int) : Option TaskManager := do
  let t ← tm.tasks[task]?
  if t.running then
    tm.changeLevelRunning task level
  else
    let queue? := if level < 0 then some t.level else Level.ofInt? level
    let lv ← queue?
    let tm := tm.modifyTask task fun t => { t with level := lv, running := true }
    let tm := tm.setQueue lv (tm.running lv ++ [task])
    return if lv > tm.currentLevel then { tm with levelChanged := true } else tm

/-- Source: `kernel/task.cpp`, `TaskManager::Wakeup(uint64_t, int)` -/
def wakeupId (tm : TaskManager) (id : UInt64) (level : Int) : Option (TaskManager × Error) :=
  match tm.find? id with
  | none => some (tm, .kNoSuchTask)
  | some task => (tm.wakeup task level).map fun tm => (tm, .kSuccess)

/-- Source: `kernel/task.cpp`, `Task::SendMessage` -/
def taskSendMessage (tm : TaskManager) (task : TaskPtr) (msg : Message) : Option TaskManager :=
  (tm.modifyTask task fun t => { t with msgs := t.msgs ++ [msg] }).wakeup task (-1)

/-- Source: `kernel/task.cpp`, `TaskManager::SendMessage` -/
def sendMessage (tm : TaskManager) (id : UInt64) (msg : Message) : Option (TaskManager × Error) :=
  match tm.find? id with
  | none => some (tm, .kNoSuchTask)
  | some task => (tm.taskSendMessage task msg).map fun tm => (tm, .kSuccess)

/-- Source: `kernel/task.cpp`, `Task::ReceiveMessage` -/
def receiveMessage (tm : TaskManager) (task : TaskPtr) : Option (TaskManager × Option Message) := do
  let t ← tm.tasks[task]?
  match t.msgs with
  | [] => return (tm, none)
  | m :: msgs => return (tm.modifyTask task fun t => { t with msgs := msgs }, some m)

/-- Source: `kernel/task.cpp`, `TaskManager::CurrentTask` -/
def currentTask (tm : TaskManager) : Option TaskPtr := tm.currentFront?

end TaskManager

/-- What scheduling can see of the processor: the task whose context was restored last, and for
every context block the task whose execution it holds. The blocks start with their own task. -/
structure Cpu where
  /-- The task whose context `SwitchContext` restored last; the first task starts the kernel. -/
  executing : TaskPtr := 0
  /-- The task whose registers a context block holds. -/
  contextOwner : TaskPtr → TaskPtr := id
  /-- The number of context switches so far. -/
  switches : Nat := 0

/-- `SwitchContext` saves the registers of whoever executes into the context block of `current`
and continues with the context block of `next`.
Source: `kernel/asmfunc.asm`, `SwitchContext` -/
def Cpu.switchContext (cpu : Cpu) (call : ContextSwitch) : Cpu where
  executing := call.next
  contextOwner := Function.update cpu.contextOwner call.current cpu.executing
  switches := cpu.switches + 1

/-- The task manager together with the processor it schedules. -/
structure System where
  /-- `*task_manager` -/
  manager : TaskManager := TaskManager.init
  /-- the processor -/
  cpu : Cpu := {}

/-- The state after a member function returned or switched away. -/
def System.after (s : System) (tm : TaskManager) (switch : Option ContextSwitch) : System where
  manager := tm
  cpu := switch.elim s.cpu s.cpu.switchContext

/-- The public operations of the task manager. -/
inductive TaskOp
  | newTask
  | switchTask
  | sleep (task : TaskPtr)
  | sleepId (id : UInt64)
  | wakeup (task : TaskPtr) (level : Int)
  | wakeupId (id : UInt64) (level : Int)
  | sendMessage (id : UInt64) (msg : Message)

/-- One operation on the running system. -/
def System.step (s : System) : TaskOp → Option System
  | .newTask => some (s.after s.manager.newTask.1 none)
  | .switchTask => (s.manager.switchTask false).map fun (tm, switch) => s.after tm (some switch)
  | .sleep task => (s.manager.sleep task).map fun (tm, switch) => s.after tm switch
  | .sleepId id => (s.manager.sleepId id).map fun (tm, switch, _) => s.after tm switch
  | .wakeup task level => (s.manager.wakeup task level).map fun tm => s.after tm none
  | .wakeupId id level => (s.manager.wakeupId id level).map fun (tm, _) => s.after tm none
  | .sendMessage id msg => (s.manager.sendMessage id msg).map fun (tm, _) => s.after tm none

end UhyokOS
