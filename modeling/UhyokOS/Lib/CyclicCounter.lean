import Mathlib.Order.Monotone.Basic
import Mathlib.Tactic.Common

/-!
# Polling a cyclic counter

A counter of period `P` is read at the times `pos 0 ≤ pos 1 ≤ …`; a read gives the time modulo `P`.
Between two reads any number of ticks may go by.

* `pollWhile`: read on while a condition holds. `pollWhile_spec` says where it stops, and
  `exists_pollWhile` that it stops.
* `wrapped_of_mod_lt`, `add_le_of_le_mod`: what a read says about the time.
* `le_of_slow`, `exists_eq_of_slow`: reads that are at most one tick apart meet every time.
* `waitUntil`: wait for a value, with a loop of its own for the wrap. `add_le_of_waitUntil` and
  `le_of_waitUntil` say how long, and `exists_waitUntil` that it ends.
-/

namespace CyclicCounter

/-! ## The loop -/

/-- Poll from sample `k` on while it is `busy`. The result is the first sample that is not. -/
def pollWhile (busy : Nat → Bool) : Nat → Nat → Option Nat
  | 0, _ => none
  | fuel + 1, k => if busy k then pollWhile busy fuel (k + 1) else some k

variable {busy : Nat → Bool} {fuel k n : Nat}

/-- The loop stops at the first sample that is not busy. -/
theorem pollWhile_spec (h : pollWhile busy fuel k = some n) :
    k ≤ n ∧ busy n = false ∧ ∀ j, k ≤ j → j < n → busy j = true := by
  induction fuel generalizing k with
  | zero => cases h
  | succ fuel ih =>
      rw [pollWhile] at h
      split at h
      · next hk =>
          obtain ⟨hle, hn, hbusy⟩ := ih h
          refine ⟨Nat.le_of_succ_le hle, hn, fun j hkj hjn => ?_⟩
          rcases Nat.eq_or_lt_of_le hkj with rfl | hlt
          · exact hk
          · exact hbusy j hlt hjn
      · next hk =>
          cases h
          exact ⟨le_rfl, Bool.eq_false_iff.mpr hk, fun j hkj hjn => absurd hjn (Nat.not_lt.mpr hkj)⟩

/-- The loop stops if a later sample is not busy. -/
theorem exists_pollWhile (hkn : k ≤ n) (hn : busy n = false) :
    ∃ m fuel, ∀ fuel', fuel ≤ fuel' → pollWhile busy fuel' k = some m := by
  obtain ⟨d, rfl⟩ := Nat.exists_eq_add_of_le hkn
  induction d generalizing k with
  | zero =>
      refine ⟨k, 1, fun fuel' hle => ?_⟩
      obtain ⟨f, rfl⟩ := Nat.exists_eq_add_of_le' hle
      rw [pollWhile, if_neg (by rw [show busy k = false from hn]; exact Bool.false_ne_true)]
  | succ d ih =>
      by_cases hk : busy k = true
      · have hn' : busy (k + 1 + d) = false := by rwa [Nat.add_right_comm, Nat.add_assoc]
        obtain ⟨m, fuel, hm⟩ := ih (Nat.le_add_right _ _) hn'
        refine ⟨m, fuel + 1, fun fuel' hle => ?_⟩
        obtain ⟨f, rfl⟩ := Nat.exists_eq_add_of_le hle
        rw [Nat.add_right_comm, pollWhile, if_pos hk]
        exact hm _ (Nat.le_add_right _ _)
      · refine ⟨k, 1, fun fuel' hle => ?_⟩
        obtain ⟨f, rfl⟩ := Nat.exists_eq_add_of_le' hle
        rw [pollWhile, if_neg hk]

/-! ## What a read says -/

variable {P p s e : Nat}

/-- A read below the first one: the counter has wrapped. -/
theorem wrapped_of_mod_lt (hs : s ≤ p) (h : p % P < s) : P ≤ p := by
  by_contra hlt
  rw [Nat.mod_eq_of_lt (Nat.lt_of_not_le hlt)] at h
  exact absurd h (Nat.not_lt.mpr hs)

/-- A read of at least `e` after the wrap: `e` ticks have gone by since. -/
theorem add_le_of_le_mod (hp : P ≤ p) (h : e ≤ p % P) : P + e ≤ p := by
  rcases Nat.eq_zero_or_pos P with rfl | hP
  · simpa using h
  · calc
      P + e ≤ P * (p / P) + p % P :=
        Nat.add_le_add (Nat.le_mul_of_pos_right P (Nat.div_pos hp hP)) h
      _ = p := Nat.div_add_mod p P

/-! ## Reads at most one tick apart -/

variable {pos : Nat → Nat} {a m : Nat}

/-- Such reads do not jump over a time. -/
theorem le_of_slow (hslow : ∀ j, j < n → pos (j + 1) ≤ pos j + 1) (han : a ≤ n) (ha : pos a ≤ m)
    (hne : ∀ j, a ≤ j → j < n → pos j ≠ m) : pos n ≤ m := by
  induction n, han using Nat.le_induction with
  | base => exact ha
  | succ n han ih =>
      have hn : pos n ≤ m :=
        ih (fun j hj => hslow j (Nat.lt_succ_of_lt hj)) fun j haj hj =>
          hne j haj (Nat.lt_succ_of_lt hj)
      have hlt : pos n < m := Nat.lt_of_le_of_ne hn (hne n han (Nat.lt_succ_self n))
      exact (hslow n (Nat.lt_succ_self n)).trans hlt

/-- If time goes on, they meet every time that is ahead. -/
theorem exists_eq_of_slow (hslow : ∀ j, pos (j + 1) ≤ pos j + 1) (hmono : Monotone pos)
    (hunbounded : ∀ N, ∃ j, N ≤ pos j) (ha : pos a ≤ m) : ∃ j, a ≤ j ∧ pos j = m := by
  by_contra hnone
  have hne : ∀ j, a ≤ j → pos j ≠ m := fun j haj hj => hnone ⟨j, haj, hj⟩
  obtain ⟨j, hj⟩ := hunbounded (m + 1)
  have hle : pos (max a j) ≤ m :=
    le_of_slow (fun i _ => hslow i) (le_max_left a j) ha fun i hi _ => hne i hi
  exact absurd (hj.trans (hmono (le_max_right a j))) (Nat.not_le.mpr (Nat.lt_succ_of_le hle))

/-! ## Waiting -/

/-- Wait for `stop`: if that is behind the first read, wait for the wrap first. -/
def waitUntil (read : Nat → Nat) (stop fuel : Nat) : Option Nat :=
  if stop < read 0 then
    (pollWhile (fun k => read k ≥ read 0) fuel 1).bind fun k =>
      pollWhile (fun k => read k < stop) fuel (k + 1)
  else pollWhile (fun k => read k < stop) fuel 1

section Spec

variable {read : Nat → Nat} {stop : Nat}

/-- The end is not behind the first read: the wait ends at the first read of `stop` or more. -/
theorem waitUntil_ahead (hstop : read 0 ≤ stop) (h : waitUntil read stop fuel = some n) :
    1 ≤ n ∧ stop ≤ read n ∧ ∀ j, 1 ≤ j → j < n → read j < stop := by
  rw [waitUntil, if_neg (Nat.not_lt.mpr hstop)] at h
  obtain ⟨hn, hend, hbusy⟩ := pollWhile_spec h
  exact ⟨hn, Nat.le_of_not_lt (of_decide_eq_false hend), fun j hj hjn =>
    of_decide_eq_true (hbusy j hj hjn)⟩

/-- The end is behind the first read: the wait ends at the first read of `stop` or more that follows
a read below the first one. -/
theorem waitUntil_behind (hstop : stop < read 0) (h : waitUntil read stop fuel = some n) :
    ∃ k, k < n ∧ read k < read 0 ∧ (∀ j, 1 ≤ j → j < k → read 0 ≤ read j) ∧
      stop ≤ read n ∧ ∀ j, k < j → j < n → read j < stop := by
  rw [waitUntil, if_pos hstop, Option.bind_eq_some_iff] at h
  obtain ⟨k, hwrap, h⟩ := h
  obtain ⟨-, hbelow, habove⟩ := pollWhile_spec hwrap
  obtain ⟨hkn, hend, hbusy⟩ := pollWhile_spec h
  exact ⟨k, hkn, Nat.lt_of_not_le (of_decide_eq_false hbelow),
    fun j hj hjk => of_decide_eq_true (habove j hj hjk),
    Nat.le_of_not_lt (of_decide_eq_false hend), fun j hkj hjn => of_decide_eq_true (hbusy j hkj hjn)⟩

/-- The wait ends if the reads fall below the first one and reach `stop` again and again. -/
theorem exists_waitUntil (hwrap : stop < read 0 → ∃ j, 1 ≤ j ∧ read j < read 0)
    (hend : ∀ a, ∃ j, a ≤ j ∧ stop ≤ read j) : ∃ fuel n, waitUntil read stop fuel = some n := by
  have hpoll : ∀ a, ∃ n fuel, ∀ fuel', fuel ≤ fuel' →
      pollWhile (fun k => read k < stop) fuel' a = some n := fun a => by
    obtain ⟨j, haj, hj⟩ := hend a
    exact exists_pollWhile haj (decide_eq_false (Nat.not_lt.mpr hj))
  by_cases hstop : stop < read 0
  · obtain ⟨j, hj, hbelow⟩ := hwrap hstop
    have hpollWrap : ∃ k fuel, ∀ fuel', fuel ≤ fuel' →
        pollWhile (fun k => read k ≥ read 0) fuel' 1 = some k :=
      exists_pollWhile hj (decide_eq_false (Nat.not_le.mpr hbelow))
    obtain ⟨k, fuel₁, hk⟩ := hpollWrap
    obtain ⟨n, fuel₂, hn⟩ := hpoll (k + 1)
    refine ⟨max fuel₁ fuel₂, n, ?_⟩
    rw [waitUntil, if_pos hstop, hk _ (le_max_left _ _)]
    exact hn _ (le_max_right _ _)
  · obtain ⟨n, fuel, hn⟩ := hpoll 1
    refine ⟨fuel, n, ?_⟩
    rw [waitUntil, if_neg hstop]
    exact hn fuel le_rfl

end Spec

/-- The time at the start of the period of the first read can be taken as 0. -/
theorem exists_rebase {ticks : Nat → Nat} (hmono : Monotone ticks) (hP : 0 < P) :
    ∃ base pos, ticks = (fun k => P * base + pos k) ∧ Monotone pos ∧ pos 0 < P := by
  have hbase : ∀ k, P * (ticks 0 / P) ≤ ticks k := fun k =>
    (Nat.mul_div_le (ticks 0) P).trans (hmono (Nat.zero_le k))
  refine ⟨ticks 0 / P, fun k => ticks k - P * (ticks 0 / P), ?_, ?_, ?_⟩
  · exact funext fun k => (Nat.add_sub_of_le (hbase k)).symm
  · exact fun i j hij => Nat.sub_le_sub_right (hmono hij) _
  · show ticks 0 - P * (ticks 0 / P) < P
    rw [← Nat.mod_eq_sub]
    exact Nat.mod_lt _ hP

section Waiting

variable {d : Nat} (hmono : Monotone pos) (h0 : pos 0 < P) (hd : 0 < d) (hdP : d < P)
include h0 hdP

/-- The value to wait for is behind the first read iff the counter wraps on the way. -/
theorem stop_cases : pos 0 % P ≤ (pos 0 + d) % P ∧ (pos 0 + d) % P = pos 0 + d ∧ pos 0 + d < P ∨
    ∃ e, pos 0 + d = P + e ∧ (pos 0 + d) % P = e ∧ e < pos 0 % P := by
  rw [Nat.mod_eq_of_lt h0]
  rcases Nat.lt_or_ge (pos 0 + d) P with hlt | hge
  · rw [Nat.mod_eq_of_lt hlt]
    exact .inl ⟨Nat.le_add_right _ _, rfl, hlt⟩
  · obtain ⟨e, he⟩ := Nat.exists_eq_add_of_le hge
    refine .inr ⟨e, he, ?_, by omega⟩
    rw [he, Nat.add_mod_left, Nat.mod_eq_of_lt (by omega)]

include hmono

/-- The wait is not too short, whatever the reads are. -/
theorem add_le_of_waitUntil (h : waitUntil (fun k => pos k % P) ((pos 0 + d) % P) fuel = some n) :
    pos 0 + d ≤ pos n := by
  rcases stop_cases h0 hdP with ⟨hle, hmod, -⟩ | ⟨e, he, hmod, hlt⟩
  · obtain ⟨-, hend, -⟩ := waitUntil_ahead hle h
    calc
      pos 0 + d = (pos 0 + d) % P := hmod.symm
      _ ≤ pos n % P := hend
      _ ≤ pos n := Nat.mod_le _ _
  · rw [hmod] at h
    obtain ⟨k, hkn, hbelow, -, hend, -⟩ := waitUntil_behind hlt h
    rw [Nat.mod_eq_of_lt h0] at hbelow
    have hk : P ≤ pos k := wrapped_of_mod_lt (hmono (Nat.zero_le k)) hbelow
    rw [he]
    exact add_le_of_le_mod (hk.trans (hmono hkn.le)) hend

omit hmono
include hd

/-- If no tick is missed, it is too long by one tick at most. -/
theorem le_of_waitUntil (hslow : ∀ j, j < n → pos (j + 1) ≤ pos j + 1)
    (h : waitUntil (fun k => pos k % P) ((pos 0 + d) % P) fuel = some n) :
    pos n ≤ pos 0 + d + 1 := by
  rcases stop_cases h0 hdP with ⟨hle, hmod, -⟩ | ⟨e, he, hmod, hlt⟩
  · obtain ⟨-, -, hbusy⟩ := waitUntil_ahead hle h
    -- while the loop runs, the end is ahead
    refine (le_of_slow hslow (Nat.zero_le n) (Nat.le_add_right _ d) fun j _ hjn hj => ?_).trans
      (Nat.le_succ _)
    rcases Nat.eq_zero_or_pos j with rfl | hpos
    · exact absurd hj (Nat.ne_of_lt (Nat.lt_add_of_pos_right hd))
    · exact absurd (hbusy j hpos hjn) (by rw [hj]; exact Nat.lt_irrefl _)
  · rw [hmod] at h
    obtain ⟨k, hkn, -, habove, -, hbusy⟩ := waitUntil_behind hlt h
    rw [Nat.mod_eq_of_lt h0] at hlt
    -- the first loop ends at the wrap at the latest, where the counter reads 0
    have hkP : pos k ≤ P := by
      refine le_of_slow (fun j hj => hslow j (hj.trans hkn)) (Nat.zero_le k) h0.le
        fun j _ hjk hj => ?_
      rcases Nat.eq_zero_or_pos j with rfl | hpos
      · exact absurd hj (Nat.ne_of_lt h0)
      · have hge := habove j hpos hjk
        rw [hj, Nat.mod_self, Nat.mod_eq_of_lt h0] at hge
        exact absurd hlt (Nat.not_lt.mpr (hge.trans (Nat.zero_le e)))
    -- the second loop reads once more before it looks, so it may miss an end at the wrap itself
    have hnext : pos (k + 1) ≤ P + (e + 1) :=
      (hslow k hkn).trans (by omega)
    rw [he]
    refine le_of_slow hslow hkn hnext fun j hkj hjn hj => ?_
    have hlt' := hbusy j hkj hjn
    rw [hj, Nat.add_assoc, Nat.add_mod_left, Nat.mod_eq_of_lt (by omega)] at hlt'
    exact absurd hlt' (Nat.not_lt.mpr (Nat.le_succ e))

omit hd hdP
include hmono

/-- If no tick is missed and time goes on, the wait ends. -/
theorem exists_waitUntil_of_slow (hslow : ∀ j, pos (j + 1) ≤ pos j + 1)
    (hunbounded : ∀ N, ∃ j, N ≤ pos j) :
    ∃ fuel n, waitUntil (fun k => pos k % P) ((pos 0 + d) % P) fuel = some n := by
  have hP : 0 < P := Nat.zero_lt_of_lt h0
  apply exists_waitUntil
  · intro hlt
    obtain ⟨j, -, hj⟩ := exists_eq_of_slow hslow hmono hunbounded h0.le
    have hj0 : j ≠ 0 := fun h => Nat.ne_of_lt h0 (h ▸ hj)
    refine ⟨j, Nat.one_le_iff_ne_zero.mpr hj0, ?_⟩
    rw [hj, Nat.mod_self]
    exact Nat.zero_lt_of_lt hlt
  · intro a
    have ha : pos a ≤ P * pos a + (pos 0 + d) % P :=
      (Nat.le_mul_of_pos_left _ hP).trans (Nat.le_add_right _ _)
    obtain ⟨j, haj, hj⟩ := exists_eq_of_slow hslow hmono hunbounded ha
    refine ⟨j, haj, ?_⟩
    rw [hj, Nat.mul_add_mod, Nat.mod_mod]

end Waiting

end CyclicCounter
