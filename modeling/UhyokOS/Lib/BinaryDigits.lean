import Mathlib.Data.List.Induction
import Mathlib.Data.Nat.Bitwise

/-!
# Binary digits

A number from its binary digits, the most significant first.

* `testBit_value`: the bits of the number are the digits.
* `shiftLeft_and_bne_zero`: the usual test of a bit.
* `eq_iff_testBit`: numbers of as many digits are equal iff their bits are.
-/

namespace BinaryDigits

/-- The number with these digits. -/
def value (digits : List Bool) : Nat := digits.foldl (fun a b => 2 * a + b.toNat) 0

variable {digits digits' : List Bool} {b : Bool} {i : Nat}

/-- A digit behind the others doubles their value. -/
theorem value_append_singleton : value (digits ++ [b]) = 2 * value digits + b.toNat := by
  unfold value
  rw [List.foldl_append]
  rfl

/-- A value of some digits is below that power of two. -/
theorem value_lt : value digits < 2 ^ digits.length := by
  induction digits using List.reverseRecOn with
  | nil => exact Nat.one_pos
  | append_singleton digits b ih =>
      have hb : b.toNat < 2 := b.toNat_lt
      rw [value_append_singleton, List.length_append, List.length_singleton, pow_succ]
      omega

/-- **The bits of the number are the digits**, from the other end. -/
theorem testBit_value (h : i < digits.length) :
    (value digits).testBit (digits.length - 1 - i) = digits[i] := by
  induction digits using List.reverseRecOn with
  | nil => exact absurd h (Nat.not_lt_zero i)
  | append_singleton digits b ih =>
      have hb : b.toNat < 2 := b.toNat_lt
      rw [List.length_append, List.length_singleton] at h
      simp only [value_append_singleton, List.length_append, List.length_singleton,
        Nat.add_sub_cancel]
      rcases Nat.lt_or_eq_of_le (Nat.le_of_lt_succ h) with hi | rfl
      · have hhalf : (2 * value digits + b.toNat) / 2 = value digits := by omega
        have hindex : digits.length - i = digits.length - 1 - i + 1 := by omega
        rw [hindex, Nat.testBit_succ, hhalf, ih hi, List.getElem_append_left]
      · rw [Nat.sub_self, Nat.testBit_zero, List.getElem_concat_length rfl]
        cases b <;> simp

/-- The digit is shifted to a place and masked. -/
theorem shiftLeft_and_bne_zero {x k : Nat} (h : i ≤ k) :
    (x <<< i &&& 2 ^ k != 0) = x.testBit (k - i) := by
  rw [Nat.and_two_pow, Nat.testBit_shiftLeft, decide_eq_true h, Bool.true_and]
  cases x.testBit (k - i)
  · simp
  · simp

/-- Numbers below `2 ^ k` are equal iff their first `k` bits are. -/
theorem eq_iff_testBit {x y k : Nat} (hx : x < 2 ^ k) (hy : y < 2 ^ k) :
    x = y ↔ ∀ i < k, x.testBit (k - 1 - i) = y.testBit (k - 1 - i) := by
  refine ⟨fun h i _ => by rw [h], fun h => Nat.eq_of_testBit_eq fun j => ?_⟩
  rcases Nat.lt_or_ge j k with hj | hj
  · have hbit := h (k - 1 - j) (by omega)
    rwa [show k - 1 - (k - 1 - j) = j by omega] at hbit
  · have hpow : 2 ^ k ≤ 2 ^ j := Nat.pow_le_pow_right (by decide) hj
    rw [Nat.testBit_lt_two_pow (hx.trans_le hpow), Nat.testBit_lt_two_pow (hy.trans_le hpow)]

end BinaryDigits
