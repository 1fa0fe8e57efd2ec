import Mathlib.Data.BitVec
import Mathlib.Tactic.Common

/-!
# Bit fields

Fields of a machine word, as a compiler lays them out: `field` reads the bits from a position on, and
`setField` replaces them.

* `getLsbD_setField`: one bit of a word after a field has been set.
* `field_setField_self` and `field_setField_of_disjoint`: the field that was set, and any other one.
-/

namespace BitFields

variable {w len len' pos pos' i : Nat}

/-- The bits of a field. -/
def field (x : BitVec w) (pos len : Nat) : BitVec len := x.extractLsb' pos len

/-- The ones of a field. -/
def mask (w pos len : Nat) : BitVec w := (BitVec.allOnes len).setWidth w <<< pos

/-- Replace the bits of a field. -/
def setField (x : BitVec w) (pos : Nat) (v : BitVec len) : BitVec w :=
  x &&& ~~~mask w pos len ||| v.setWidth w <<< pos

theorem getLsbD_mask (hi : i < w) :
    (mask w pos len).getLsbD i = decide (pos ≤ i ∧ i < pos + len) := by
  unfold mask
  rw [BitVec.getLsbD_shiftLeft, BitVec.getLsbD_setWidth, BitVec.getLsbD_allOnes]
  by_cases hpos : pos ≤ i
  · have hsub : i - pos < len ↔ i < pos + len := by omega
    simp only [hi, hpos, not_lt.mpr hpos, hsub, decide_true, decide_false, Bool.not_false,
      Bool.true_and, true_and, lt_of_le_of_lt (Nat.sub_le i pos) hi]
  · simp only [hpos, not_le.mp hpos, decide_true, decide_false, Bool.not_true, Bool.and_false,
      Bool.false_and, false_and]

/-- One bit of a word after a field has been set. -/
theorem getLsbD_setField (x : BitVec w) (v : BitVec len) (hi : i < w) :
    (setField x pos v).getLsbD i =
      if pos ≤ i ∧ i < pos + len then v.getLsbD (i - pos) else x.getLsbD i := by
  unfold setField
  rw [BitVec.getLsbD_or, BitVec.getLsbD_and, BitVec.getLsbD_not, getLsbD_mask hi,
    BitVec.getLsbD_shiftLeft, BitVec.getLsbD_setWidth]
  have hsub : i - pos < w := lt_of_le_of_lt (Nat.sub_le i pos) hi
  split_ifs with hin
  · simp only [hi, hin, hsub, not_lt.mpr hin.1, decide_true, decide_false, Bool.not_true,
      Bool.not_false, Bool.and_false, Bool.false_or, Bool.true_and, and_self]
  · simp only [hi, hin, hsub, decide_true, decide_false, Bool.not_false, Bool.true_and, Bool.and_true]
    by_cases hpos : pos ≤ i
    · have hge : len ≤ i - pos := by omega
      rw [BitVec.getLsbD_of_ge v _ hge, Bool.and_false, Bool.or_false]
    · simp only [not_le.mp hpos, decide_true, Bool.not_true, Bool.false_and, Bool.or_false]

/-- The field that was set. -/
theorem field_setField_self (x : BitVec w) (v : BitVec len) (h : pos + len ≤ w) :
    field (setField x pos v) pos len = v := by
  apply BitVec.eq_of_getLsbD_eq
  intro i hi
  unfold field
  rw [BitVec.getLsbD_extractLsb', getLsbD_setField x v (by omega),
    if_pos ⟨Nat.le_add_right _ _, by omega⟩, Nat.add_sub_cancel_left]
  simp only [hi, decide_true, Bool.true_and]

/-- A field that is not touched. -/
theorem field_setField_of_disjoint (x : BitVec w) (v : BitVec len) (h : pos' + len' ≤ w)
    (hdisj : pos' + len' ≤ pos ∨ pos + len ≤ pos') :
    field (setField x pos v) pos' len' = field x pos' len' := by
  apply BitVec.eq_of_getLsbD_eq
  intro i hi
  unfold field
  rw [BitVec.getLsbD_extractLsb', BitVec.getLsbD_extractLsb', getLsbD_setField x v (by omega),
    if_neg (by omega)]

end BitFields
