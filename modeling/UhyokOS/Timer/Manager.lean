import UhyokOS.Error
import UhyokOS.Lib.PriorityQueue
import Mathlib.Algebra.Group.Int.Defs
import Mathlib.Algebra.Group.Nat.Defs

/-!
# The timer manager

The model of class `TimerManager`. `std::priority_queue<Timer>` is any type of queues with the
operations and laws of `PriorityQueue` for the order `operator<`; which of several timers with the
same timeout is on top is left open. `unsigned long` arithmetic wraps explicitly. `Tick` returns
the messages it sends, in order; it is undefined (`none`) where it would look at the top of an
empty queue, and where its loop would not have ended after one round for each timer queued at the
start and one more.
-/

namespace UhyokOS

/-- Source: `kernel/timer.hpp`, `Timer` -/
structure Timer where
  /-- `timeout_`, an `unsigned long` -/
  timeout : Nat
  /-- `value_` -/
  value : Int
  deriving DecidableEq

/-- Source: `kernel/timer.hpp`, `operator<` -/
instance Timer.instLT : LT Timer := ⟨fun lhs rhs => lhs.timeout > rhs.timeout⟩

/-- The largest `unsigned long`. -/
abbrev kUnsignedLongMax : Nat := 2 ^ 64 - 1

/-- Source: `kernel/timer.hpp`, `kTimerFreq` -/
abbrev kTimerFreq : Nat := 100

/-- `kTimerFreq * 0.02`.
Source: `kernel/timer.hpp`, `kTaskTimerPeriod` -/
abbrev kTaskTimerPeriod : Nat := 2

example : kTaskTimerPeriod * 100 = kTimerFreq * 2 := rfl

/-- The smallest `int`.
Source: `kernel/timer.hpp`, `kTaskTimerValue` -/
abbrev kTaskTimerValue : Int := -2 ^ 31

/-- Source: `kernel/timer.hpp`, `TimerManager` -/
structure TimerManager (Q : Type) where
  /-- `tick_` -/
  tick : Nat := 0
  /-- `timers_` -/
  timers : Q

/-- The message that reports a timeout. -/
def Timer.message (t : Timer) : Message :=
  { type := .kTimerTimeout, arg := .timer t.timeout t.value }

/-- What a call of `Tick` did. -/
structure TickResult where
  /-- The calls of `SendMessage`, in order: the receiver's id and the message. -/
  sent : List (UInt64 × Message)
  /-- The returned value. -/
  taskTimerTimeout : Bool
  deriving DecidableEq

namespace TimerManager

variable {Q : Type} [PriorityQueue Q Timer]

open PriorityQueue

/-- Source: `kernel/timer.cpp`, `TimerManager::TimerManager` -/
def init : TimerManager Q where
  timers := push empty { timeout := kUnsignedLongMax, value := -1 }

/-- Source: `kernel/timer.cpp`, `TimerManager::AddTimer` -/
def addTimer (tm : TimerManager Q) (timer : Timer) : TimerManager Q :=
  { tm with timers := push tm.timers timer }

/-- The loop of `Tick`, for a bounded number of rounds. -/
def tickLoop (tick : Nat) : Nat → Q → Bool → Option (Q × TickResult)
  | 0, _, _ => none
  | rounds + 1, timers, taskTimerTimeout => do
      let t ← top? timers
      if t.timeout > tick then
        return (timers, { sent := [], taskTimerTimeout := taskTimerTimeout })
      let popped ← pop? timers
      if t.value = kTaskTimerValue then
        -- Reregister timer
        let timer : Timer :=
          { timeout := (tick + kTaskTimerPeriod) % 2 ^ 64, value := kTaskTimerValue }
        tickLoop tick rounds (push popped timer) true
      else
        let (timers, result) ← tickLoop tick rounds popped taskTimerTimeout
        return (timers, { result with sent := (1, t.message) :: result.sent })

/-- Source: `kernel/timer.cpp`, `TimerManager::Tick` -/
def tickOnce (tm : TimerManager Q) : Option (TimerManager Q × TickResult) := do
  let tick := (tm.tick + 1) % 2 ^ 64
  let (timers, result) ← tickLoop tick (size tm.timers + 1) tm.timers false
  return ({ tick := tick, timers := timers }, result)

end TimerManager

end UhyokOS
