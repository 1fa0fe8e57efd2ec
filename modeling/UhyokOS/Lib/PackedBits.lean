import Mathlib.Data.Set.Insert
import Mathlib.Logic.Function.Basic
import Mathlib.Tactic.Common

/-!
# Packed bit maps

A set of numbers below `n * w` stored as `n` words of `w` bits, bit `i` being bit `i % w` of word
`i / w`.

* The word lemmas (`getLsbD_or_mask`, `getLsbD_and_not_mask`, `and_mask_bne_zero`) say what the
  usual mask operations do to one bit of a word.
* `bits` is the set a map stores, and `bits_setWord` lifts a change of one bit of one word to it.
-/

namespace PackedBits

/-! ## Words -/

section words

variable {w k j : ℕ} (x : BitVec w)

/-- The mask of one bit has that bit only. -/
theorem getLsbD_mask (hk : k < w) : (1#w <<< k).getLsbD j = decide (j = k) := by
  rw [BitVec.getLsbD_shiftLeft, BitVec.getLsbD_one]
  by_cases hj : j = k
  · simp [hj, hk]
    omega
  · have : ¬(k ≤ j ∧ j - k = 0) := by omega
    simp only [hj, decide_false]
    by_contra h
    simp only [Bool.not_eq_false, Bool.and_eq_true, decide_eq_true_eq, Bool.not_eq_true',
      decide_eq_false_iff_not] at h
    omega

/-- Or-ing the mask in sets the bit. -/
theorem getLsbD_or_mask (hk : k < w) :
    (x ||| 1#w <<< k).getLsbD j = (decide (j = k) || x.getLsbD j) := by
  rw [BitVec.getLsbD_or, getLsbD_mask hk, Bool.or_comm]

/-- And-ing with the inverted mask clears the bit. -/
theorem getLsbD_and_not_mask (hk : k < w) :
    (x &&& ~~~(1#w <<< k)).getLsbD j = (x.getLsbD j && !decide (j = k)) := by
  rw [BitVec.getLsbD_and, BitVec.getLsbD_not, getLsbD_mask hk]
  by_cases hj : j < w
  · simp [hj]
  · simp [hj, BitVec.getLsbD_of_ge x j (by omega)]

/-- And-ing with the mask tests the bit. -/
theorem and_mask_bne_zero (hk : k < w) : (x &&& 1#w <<< k != 0#w) = x.getLsbD k := by
  have hbit : ∀ j, (x &&& 1#w <<< k).getLsbD j = (x.getLsbD j && decide (j = k)) := fun j => by
    rw [BitVec.getLsbD_and, getLsbD_mask hk]
  by_cases hx : x.getLsbD k = true
  · have hne : x &&& 1#w <<< k ≠ 0#w := by
      intro h0
      have := hbit k
      rw [h0] at this
      simp [hx] at this
    simp [hx, hne]
  · have h0 : x &&& 1#w <<< k = 0#w := by
      apply BitVec.eq_of_getLsbD_eq
      intro j _
      rw [hbit]
      by_cases hj : j = k
      · simp [hj, hx]
      · simp [hj]
    simp [hx, h0]

end words

/-! ## Maps -/

variable {n w : ℕ}

/-- The set a map stores. -/
def bits (m : Fin n → BitVec w) : Set ℕ :=
  {i | ∃ h : i / w < n, (m ⟨i / w, h⟩).getLsbD (i % w) = true}

/-- A number is in the set iff the bit at its place in its line is set. -/
theorem mem_bits {m : Fin n → BitVec w} {i : ℕ} (h : i / w < n) :
    i ∈ bits m ↔ (m ⟨i / w, h⟩).getLsbD (i % w) = true :=
  ⟨fun ⟨_, hi⟩ => hi, fun hi => ⟨h, hi⟩⟩

/-- The numbers of the set have a line. -/
theorem lt_of_mem_bits {m : Fin n → BitVec w} {i : ℕ} (h : i ∈ bits m) : i / w < n := h.1

/-- A number is its word index and its bit index. -/
theorem eq_iff_div_mod {i j : ℕ} : i = j ↔ i / w = j / w ∧ i % w = j % w := by
  refine ⟨fun h => h ▸ ⟨rfl, rfl⟩, fun ⟨hdiv, hmod⟩ => ?_⟩
  rw [← Nat.div_add_mod i w, ← Nat.div_add_mod j w, hdiv, hmod]

/-- Replacing the word of `i` by one that differs at most in the bit of `i` changes the membership
of `i` only. -/
theorem mem_bits_setWord {m : Fin n → BitVec w} {i : ℕ} (h : i / w < n) {word : BitVec w}
    (hword : ∀ j, j ≠ i % w → word.getLsbD j = (m ⟨i / w, h⟩).getLsbD j) (j : ℕ) :
    j ∈ bits (Function.update m ⟨i / w, h⟩ word) ↔
      if j = i then word.getLsbD (i % w) = true else j ∈ bits m := by
  by_cases hj : j / w < n
  · rw [mem_bits hj, mem_bits hj]
    by_cases hdiv : j / w = i / w
    · have hfin : (⟨j / w, hj⟩ : Fin n) = ⟨i / w, h⟩ := Fin.ext hdiv
      rw [hfin, Function.update_self]
      split_ifs with hji
      · rw [hji]
      · have hmod : j % w ≠ i % w := fun hmod => hji (eq_iff_div_mod.mpr ⟨hdiv, hmod⟩)
        rw [hword _ hmod]
    · have hfin : (⟨j / w, hj⟩ : Fin n) ≠ ⟨i / w, h⟩ := fun heq => hdiv (Fin.mk.inj heq)
      have hji : j ≠ i := fun heq => hdiv (heq ▸ rfl)
      rw [Function.update_of_ne hfin, if_neg hji]
  · have hji : j ≠ i := fun heq => hj (heq ▸ h)
    rw [if_neg hji]
    exact ⟨fun hin => absurd hin.1 hj, fun hin => absurd hin.1 hj⟩

end PackedBits
