import UhyokOS.Lib.CyclicCounter
import Mathlib.Data.Nat.Bitwise

/-!
# Waiting for the PM timer

The model of `WaitMilliseconds` in `kernel/acpi.cpp`. The timer is a counter of 24 or 32 bits behind
an I/O port, and the function reads the port until enough ticks have gone by. Read `k` of the port
samples the counter after `ticks k` ticks; nothing is said about how far apart two reads are.

* `waitEnd_toNat`: the value that the function waits for.
* `waits`: how long it waits, whatever the samples are.
* `returns_of_slow`: it returns if the timer goes on and no tick is missed.
-/

namespace UhyokOS

open CyclicCounter

/-! ## The source -/

/-- Source: `kernel/acpi.hpp`, `acpi::FADT`, the fields that are read -/
structure FADT where
  pmTmrBlk : UInt32
  flags : UInt32

/-- Source: `kernel/acpi.hpp`, `kPMTimerFreq` -/
def kPMTimerFreq : UInt64 := 3579545

namespace FADT

/-- `pm_timer_32` -/
def pmTimer32 (fadt : FADT) : Bool := fadt.flags >>> 8 &&& 1 != 0

/-- `end`. The sum has 64 bits before it is assigned. -/
def waitEnd (fadt : FADT) (start : UInt32) (msec : UInt64) : UInt32 :=
  let stop := (start.toUInt64 + kPMTimerFreq * msec / 1000).toUInt32
  if fadt.pmTimer32 then stop else stop &&& 0x00ffffff

/-- Source: `kernel/acpi.cpp`, `WaitMilliseconds`. `ioIn32 addr k` is what read `k` of the port
returns, and the result is the number of the last read. -/
def waitMilliseconds (fadt : FADT) (ioIn32 : UInt16 → Nat → UInt32) (msec : UInt64) (fuel : Nat) :
    Option Nat :=
  let read := ioIn32 fadt.pmTmrBlk.toUInt16
  let start := read 0
  let stop := fadt.waitEnd start msec
  if stop < start then -- overflow
    (pollWhile (fun k => read k ≥ start) fuel 1).bind fun k =>
      pollWhile (fun k => read k < stop) fuel (k + 1)
  else pollWhile (fun k => read k < stop) fuel 1

/-! ## The timer -/

/-- The period of the timer. -/
def period (fadt : FADT) : Nat := if fadt.pmTimer32 then 2 ^ 32 else 2 ^ 24

/-- The ticks in `msec` milliseconds. -/
def delay (msec : UInt64) : Nat := kPMTimerFreq.toNat * msec.toNat / 1000

/-- The port gives the timer at non-decreasing times. The upper byte of a timer of 24 bits is 0. -/
structure Samples (fadt : FADT) (ioIn32 : UInt16 → Nat → UInt32) (ticks : Nat → Nat) : Prop where
  monotone : Monotone ticks
  read_eq : ∀ k, (ioIn32 fadt.pmTmrBlk.toUInt16 k).toNat = ticks k % fadt.period

variable {fadt : FADT} {ioIn32 : UInt16 → Nat → UInt32} {ticks : Nat → Nat} {msec : UInt64}
  {start : UInt32} {fuel n : Nat}

theorem period_pos : 0 < fadt.period := by
  unfold period
  split <;> decide

theorem period_le : fadt.period ≤ 2 ^ 32 := by
  unfold period
  split <;> decide

/-- The product does not overflow if the delay is shorter than a period. -/
theorem toNat_delay (h : delay msec < fadt.period) :
    (kPMTimerFreq * msec / 1000).toNat = delay msec := by
  have hmul : kPMTimerFreq.toNat * msec.toNat < 2 ^ 64 := by
    have hlt : kPMTimerFreq.toNat * msec.toNat / 1000 < 2 ^ 32 := h.trans_le period_le
    omega
  rw [UInt64.toNat_div, UInt64.toNat_mul, Nat.mod_eq_of_lt hmul]
  rfl

/-- **What the function waits for**: the first value and the delay, modulo the period. -/
theorem waitEnd_toNat (h : delay msec < fadt.period) :
    (fadt.waitEnd start msec).toNat = (start.toNat + delay msec) % fadt.period := by
  have hstart : start.toNat < 2 ^ 32 := start.toNat_lt
  have hdelay : delay msec < 2 ^ 32 := h.trans_le period_le
  have hsum : (start.toUInt64 + kPMTimerFreq * msec / 1000).toUInt32.toNat =
      (start.toNat + delay msec) % 2 ^ 32 := by
    rw [UInt64.toNat_toUInt32, UInt64.toNat_add, toNat_delay h, UInt32.toNat_toUInt64]
    rw [Nat.mod_eq_of_lt (a := start.toNat + delay msec) (by omega)]
  unfold waitEnd period
  split
  · exact hsum
  · calc
      ((start.toUInt64 + kPMTimerFreq * msec / 1000).toUInt32 &&& 0x00ffffff).toNat
          = (start.toNat + delay msec) % 2 ^ 32 &&& (2 ^ 24 - 1) := by
        rw [UInt32.toNat_and, hsum]
        rfl
      _ = (start.toNat + delay msec) % 2 ^ 24 := by
        rw [Nat.and_two_pow_sub_one_eq_mod]
        exact Nat.mod_mod_of_dvd _ (Nat.pow_dvd_pow 2 (by decide))

/-- The function waits for a value, and no overflow disturbs it. -/
theorem waitMilliseconds_eq (hs : Samples fadt ioIn32 ticks) (h : delay msec < fadt.period) :
    fadt.waitMilliseconds ioIn32 msec fuel = waitUntil (fun k => ticks k % fadt.period)
      ((ticks 0 + delay msec) % fadt.period) fuel := by
  have hstop : (fadt.waitEnd (ioIn32 fadt.pmTmrBlk.toUInt16 0) msec).toNat =
      (ticks 0 + delay msec) % fadt.period := by
    rw [waitEnd_toNat h, hs.read_eq, Nat.mod_add_mod]
  simp only [waitMilliseconds, waitUntil, ge_iff_le, UInt32.lt_iff_toNat_lt,
    UInt32.le_iff_toNat_le, hs.read_eq, hstop]

/-! ## How long it waits -/

/-- The wait returns if the timer goes on and no tick is missed. -/
theorem returns_of_slow (hs : Samples fadt ioIn32 ticks) (h : delay msec < fadt.period)
    (hslow : ∀ k, ticks (k + 1) ≤ ticks k + 1) (hunbounded : ∀ N, ∃ k, N ≤ ticks k) :
    ∃ fuel n, fadt.waitMilliseconds ioIn32 msec fuel = some n := by
  simp only [waitMilliseconds_eq hs h]
  obtain ⟨base, pos, rfl, hmono, h0⟩ := exists_rebase hs.monotone (period_pos : 0 < fadt.period)
  simp only [Nat.mul_add_mod, Nat.add_assoc]
  refine exists_waitUntil_of_slow hmono h0 (fun j => ?_) fun N => ?_
  · exact Nat.le_of_add_le_add_left (hslow j)
  · obtain ⟨k, hk⟩ := hunbounded (fadt.period * base + N)
    exact ⟨k, Nat.le_of_add_le_add_left hk⟩

/-- **The wait is never too short**, whatever the reads are, for every delay shorter than a period.
If no tick is missed, it is too long by one tick at most. -/
theorem waits (fadt : FADT) (ioIn32 : UInt16 → Nat → UInt32) (ticks : Nat → Nat)
    (hs : Samples fadt ioIn32 ticks) (msec : UInt64) (hpos : 0 < delay msec)
    (hlt : delay msec < fadt.period) :
    (∀ fuel n, fadt.waitMilliseconds ioIn32 msec fuel = some n →
      ticks 0 + delay msec ≤ ticks n ∧
        ((∀ k, k < n → ticks (k + 1) ≤ ticks k + 1) → ticks n ≤ ticks 0 + delay msec + 1)) ∧
    ((∀ k, ticks (k + 1) ≤ ticks k + 1) → (∀ N, ∃ k, N ≤ ticks k) →
      ∃ fuel n, fadt.waitMilliseconds ioIn32 msec fuel = some n) := by
  refine ⟨fun fuel n hn => ?_, returns_of_slow hs hlt⟩
  rw [waitMilliseconds_eq hs hlt] at hn
  obtain ⟨base, pos, rfl, hmono, h0⟩ := exists_rebase hs.monotone (period_pos : 0 < fadt.period)
  simp only [Nat.mul_add_mod, Nat.add_assoc] at hn ⊢
  refine ⟨?_, fun hslow => ?_⟩
  · exact Nat.add_le_add_left (add_le_of_waitUntil hmono h0 hlt hn) _
  · have hslow' : ∀ k, k < n → pos (k + 1) ≤ pos k + 1 := fun k hk =>
      Nat.le_of_add_le_add_left (hslow k hk)
    exact Nat.add_le_add_left (le_of_waitUntil h0 hpos hlt hslow' hn) _

/-- The caller's 100 milliseconds on a timer of 24 bits that is read on every tick, 5 ticks before
it wraps. -/
theorem waits_hundred_near_wrap :
    let fadt : FADT := { pmTmrBlk := 0x608, flags := 0 }
    let ioIn32 : UInt16 → Nat → UInt32 := fun _ k => UInt32.ofNat ((k + (2 ^ 24 - 5)) % 2 ^ 24)
    ∀ fuel n, fadt.waitMilliseconds ioIn32 100 fuel = some n → 357954 ≤ n ∧ n ≤ 357955 := by
  intro fadt ioIn32 fuel n hn
  have hs : Samples fadt ioIn32 fun k => k + (2 ^ 24 - 5) := by
    refine ⟨fun i j hij => Nat.add_le_add_right hij _, fun k => ?_⟩
    have hperiod : fadt.period = 2 ^ 24 := if_neg (by decide)
    have hlt : (k + (2 ^ 24 - 5)) % 2 ^ 24 < UInt32.size :=
      (Nat.mod_lt _ (by decide)).trans (by decide)
    rw [hperiod, UInt32.toNat_ofNat_of_lt' hlt]
  obtain ⟨hlow, hhigh⟩ := (waits fadt ioIn32 _ hs 100 (by decide) (by decide)).1 fuel n hn
  have hdelay : delay 100 = 357954 := by decide
  have hle := hhigh fun k _ => by omega
  rw [hdelay] at hlow hle
  omega

end FADT

end UhyokOS
