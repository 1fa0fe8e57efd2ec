import Mathlib.Data.List.Basic

/-!
# Bounded histories

A history of fixed length `n` holds the `n` most recent entries, newest first, and is filled up
with a default. Recording an entry drops the last element and pushes the new one at the front.

* `cons_dropLast_recent`: recording an entry is that, whatever the history holds.
-/

namespace Recent

variable {α β : Type*} {n : ℕ} {d a : α} {xs : List α}

/-- The `n` most recent of `xs`, newest first, filled up with `d`. -/
def recent (n : ℕ) (d : α) (xs : List α) : List α :=
  xs.take n ++ List.replicate (n - xs.length) d

/-- The history has as many entries as it has room for, whatever has been entered. -/
@[simp] theorem length_recent (n : ℕ) (d : α) (xs : List α) : (recent n d xs).length = n := by
  unfold recent
  rw [List.length_append, List.length_take, List.length_replicate]
  omega

/-- **Recording an entry.** -/
theorem cons_dropLast_recent (n : ℕ) (d a : α) (xs : List α) :
    a :: (recent (n + 1) d xs).dropLast = recent (n + 1) d (a :: xs) := by
  have hdrop : (recent (n + 1) d xs).dropLast = xs.take n ++ List.replicate (n - xs.length) d := by
    rw [List.dropLast_eq_take, length_recent, Nat.add_sub_cancel]
    unfold recent
    rcases Nat.lt_or_ge n xs.length with hlt | hge
    · have h₁ : n + 1 - xs.length = 0 := by omega
      have h₂ : n - xs.length = 0 := by omega
      rw [h₁, h₂, List.replicate_zero, List.append_nil, List.append_nil, List.take_take,
        Nat.min_eq_left (Nat.le_succ n)]
    · have hsub : n + 1 - xs.length = (n - xs.length) + 1 := by omega
      rw [List.take_of_length_le (by omega : xs.length ≤ n + 1), List.take_append,
        List.take_of_length_le hge, List.take_replicate, hsub, Nat.min_eq_left (Nat.le_succ _)]
  rw [hdrop]
  unfold recent
  rw [List.take_succ_cons, List.length_cons, Nat.add_sub_add_right]
  rfl

end Recent
