import Mathlib.Algebra.Group.Nat.Even
import Mathlib.Data.List.Basic
import Mathlib.Data.Nat.ModEq
import Mathlib.Tactic.Common

/-!
# Rings with a cycle mark

A producer writes a sequence of entries round and round into `K` slots and gives each entry a mark
that alternates from lap to lap, starting with `true` over slots that carry `false`. Nothing tells
the consumer how far the producer has come: it looks at the mark of the slot that it expects next.

* `turn K k` is the mark of entry `k`; `turn_succ`, `mod_succ` and `div_succ` advance by one.
* `Laps mark K written mem`: the slots of `mem` hold the last `K` entries written.
* `Laps.push`: writing one more entry keeps this.
* `Laps.front`: as long as at most `K` entries are not consumed, the mark of the next slot tells
  whether the next entry is there.
-/

namespace CycleRing

variable {σ : Type*} {mark : σ → Bool} {K : ℕ} {written mem : List σ} {k : ℕ} {x : σ}

/-- The mark of entry `k`. -/
def turn (K k : ℕ) : Bool := k / K % 2 == 0

theorem turn_of_lt (h : k < K) : turn K k = true := by
  unfold turn
  rw [Nat.div_eq_of_lt h]
  rfl

/-- The slot of the next entry. -/
theorem mod_succ (hK : 0 < K) (k : ℕ) : (k + 1) % K = if k % K + 1 = K then 0 else k % K + 1 := by
  have hlt : k % K < K := Nat.mod_lt k hK
  rw [← Nat.mod_add_mod]
  split_ifs with hend
  · rw [hend, Nat.mod_self]
  · exact Nat.mod_eq_of_lt (by omega)

/-- One lap later the mark is the other one. -/
theorem turn_add_lap (hK : 0 < K) (k : ℕ) : turn K (k + K) = !turn K k := by
  unfold turn
  rw [Nat.add_div_right k hK]
  rcases Nat.mod_two_eq_zero_or_one (k / K) with h | h
  · rw [h, Nat.succ_mod_two_eq_one_iff.mpr h]
    rfl
  · rw [h, Nat.succ_mod_two_eq_zero_iff.mpr h]
    rfl

/-- The lap of the next entry. -/
theorem div_succ (hK : 0 < K) (k : ℕ) : (k + 1) / K = if k % K + 1 = K then k / K + 1 else k / K := by
  have hsplit : k + 1 = k % K + 1 + K * (k / K) := by
    have := Nat.mod_add_div k K
    omega
  have hlt : k % K < K := Nat.mod_lt k hK
  rw [hsplit, Nat.add_mul_div_left _ _ hK]
  split_ifs with hend
  · rw [hend, Nat.div_self hK, Nat.add_comm]
  · rw [Nat.div_eq_of_lt (by omega), Nat.zero_add]

/-- The mark of the next entry. -/
theorem turn_succ (hK : 0 < K) (k : ℕ) :
    turn K (k + 1) = if k % K + 1 = K then !turn K k else turn K k := by
  rw [← turn_add_lap hK]
  unfold turn
  rw [div_succ hK, Nat.add_div_right k hK]
  split_ifs <;> rfl

/-- The entries of one lap have the same mark. -/
theorem turn_add {j : ℕ} (hK : 0 < K) (hstart : k % K = 0) (hj : j < K) :
    (k + j) / K = k / K ∧ turn K (k + j) = turn K k := by
  have hdiv : (k + j) / K = k / K := by
    obtain ⟨q, rfl⟩ := Nat.dvd_of_mod_eq_zero hstart
    rw [Nat.add_comm, Nat.add_mul_div_left _ _ hK, Nat.div_eq_of_lt hj, Nat.zero_add,
      Nat.mul_div_cancel_left q hK]
  refine ⟨hdiv, ?_⟩
  unfold turn
  rw [hdiv]

/-- Within one lap the slots are different. -/
theorem mod_ne_mod {j : ℕ} (hjk : j < k) (hlap : k < j + K) : j % K ≠ k % K := by
  intro heq
  have hdvd : K ∣ k - j := (Nat.modEq_iff_dvd' hjk.le).mp heq
  have hle := Nat.le_of_dvd (by omega) hdvd
  omega

/-- A consumer takes the next entry. -/
theorem prefix_concat {l : List σ} (h : l <+: written) (hx : written[l.length]? = some x) :
    l ++ [x] <+: written := by
  have htake : l ++ [x] = written.take (l.length + 1) := by
    rw [List.take_add_one, hx, ← List.prefix_iff_eq_take.mp h]
    rfl
  rw [htake]
  exact List.take_prefix _ _

/-- The slots hold the last `K` entries written, those not written yet carry the mark `false`. -/
structure Laps (mark : σ → Bool) (K : ℕ) (written mem : List σ) : Prop where
  length : K ≤ mem.length
  marks : ∀ k x, written[k]? = some x → mark x = turn K k
  latest : ∀ k x, written[k]? = some x → written.length ≤ k + K → mem[k % K]? = some x
  blank : ∀ i x, i < K → written.length ≤ i → mem[i]? = some x → mark x = false

namespace Laps

/-- Before the first entry. -/
theorem nil (hlen : K ≤ mem.length) (hblank : ∀ x ∈ mem, mark x = false) : Laps mark K [] mem where
  length := hlen
  marks := by
    intro k x h
    cases h
  latest := by
    intro k x h
    cases h
  blank := fun _ x _ _ hx => hblank x (List.mem_of_getElem? hx)

/-- **Writing the next entry.** -/
theorem push (h : Laps mark K written mem) (hK : 0 < K) (hx : mark x = turn K written.length) :
    Laps mark K (written ++ [x]) (mem.set (written.length % K) x) where
  length := by
    rw [List.length_set]
    exact h.length
  marks := by
    intro k y hy
    rw [List.getElem?_append] at hy
    split_ifs at hy with hk
    · exact h.marks k y hy
    · obtain ⟨hk', rfl⟩ := List.getElem?_eq_some_iff.mp hy
      rw [List.length_singleton] at hk'
      have heq : k = written.length := by omega
      rw [List.getElem_singleton, hx, heq]
  latest := by
    intro k y hy hrecent
    rw [List.length_append, List.length_singleton] at hrecent
    rw [List.getElem?_append] at hy
    split_ifs at hy with hk
    · -- an older entry of the last lap is in another slot
      have hne : written.length % K ≠ k % K := (mod_ne_mod hk (by omega)).symm
      rw [List.getElem?_set_ne hne]
      exact h.latest k y hy (by omega)
    · obtain ⟨hk', rfl⟩ := List.getElem?_eq_some_iff.mp hy
      rw [List.length_singleton] at hk'
      have heq : k = written.length := by omega
      rw [List.getElem_singleton, heq, List.getElem?_set_self]
      exact lt_of_lt_of_le (Nat.mod_lt _ hK) h.length
  blank := by
    intro i y hi hlen hy
    rw [List.length_append, List.length_singleton] at hlen
    have hlt : written.length < K := by omega
    rw [List.getElem?_set_ne (by rw [Nat.mod_eq_of_lt hlt]; omega)] at hy
    exact h.blank i y hi (by omega) hy

/-- Slots behind the ring may be used for something else. -/
theorem set_behind (h : Laps mark K written mem) {i : ℕ} (hi : K ≤ i) (hK : 0 < K) (y : σ) :
    Laps mark K written (mem.set i y) where
  length := by
    rw [List.length_set]
    exact h.length
  marks := h.marks
  latest := by
    intro k x hx hrecent
    have hne : i ≠ k % K := by
      have := Nat.mod_lt k hK
      omega
    rw [List.getElem?_set_ne hne]
    exact h.latest k x hx hrecent
  blank := by
    intro j x hj hlen hx
    rw [List.getElem?_set_ne (by omega)] at hx
    exact h.blank j x hj hlen hx

/-- **What the consumer sees.** It has consumed `k` entries and at most `K` are left. -/
theorem front (h : Laps mark K written mem) (hK : 0 < K) (hle : k ≤ written.length)
    (hroom : written.length ≤ k + K) :
    ∃ x, mem[k % K]? = some x ∧ (mark x = turn K k ↔ k < written.length) ∧
      (k < written.length → written[k]? = some x) := by
  rcases Nat.lt_or_eq_of_le hle with hlt | heq
  · obtain ⟨x, hx⟩ : ∃ x, written[k]? = some x := ⟨_, List.getElem?_eq_getElem hlt⟩
    exact ⟨x, h.latest k x hx hroom, iff_of_true (h.marks k x hx) hlt, fun _ => hx⟩
  · have hslot : k % K < mem.length := lt_of_lt_of_le (Nat.mod_lt k hK) h.length
    obtain ⟨x, hx⟩ : ∃ x, mem[k % K]? = some x := ⟨_, List.getElem?_eq_getElem hslot⟩
    refine ⟨x, hx, iff_of_false ?_ (by omega), fun hlt => absurd hlt (by omega)⟩
    rcases Nat.lt_or_ge k K with hfirst | hlap
    · -- the slot was never written
      rw [Nat.mod_eq_of_lt hfirst] at hx
      rw [h.blank k x hfirst heq.ge hx, turn_of_lt hfirst]
      exact Bool.false_ne_true
    · -- the slot still holds the entry of the lap before
      obtain ⟨j, rfl⟩ : ∃ j, k = j + K := ⟨k - K, by omega⟩
      obtain ⟨y, hy⟩ : ∃ y, written[j]? = some y := ⟨_, List.getElem?_eq_getElem (by omega)⟩
      have hold := h.latest j y hy heq.ge
      rw [Nat.add_mod_right, hold] at hx
      cases hx
      rw [h.marks j x hy, turn_add_lap hK]
      exact Bool.self_ne_not _

end Laps

end CycleRing
