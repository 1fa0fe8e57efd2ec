import Mathlib.Data.List.Basic
import Mathlib.Data.List.Nodup
import Mathlib.Tactic.Common

/-!
# Restacking

A stack without repetitions is a list with its bottom first. `restack l i a` takes `a` off the
stack, if it is there, and puts it back at height `i`, or on top if the stack is lower than that.

* `restack_eq`: what is below and above `a` afterwards.
* `erase_restack`: the others keep their order.
* `idxOf_restack`: the height of `a` afterwards.
-/

namespace Restack

variable {α : Type*} {l before after : List α} {a b : α} {i : ℕ}

/-- An element that is inserted at the height of a lower part lies on that part. -/
theorem insertIdx_length_append (before after : List α) (a : α) :
    (before ++ after).insertIdx before.length a = before ++ a :: after := by
  induction before with
  | nil => rw [List.length_nil, List.nil_append, List.nil_append, List.insertIdx_zero]
  | cons b before ih =>
      rw [List.length_cons, List.cons_append, List.insertIdx_succ_cons, ih, List.cons_append]

variable [BEq α]

/-- Move or insert `a` at height `i`, at most on top. -/
def restack (l : List α) (i : ℕ) (a : α) : List α :=
  (l.erase a).insertIdx (min i (l.erase a).length) a

/-- **Restacking, given the stack without the element.** -/
theorem restack_eq (h : l.erase a = before ++ after) (hi : min i (before ++ after).length =
    before.length) : restack l i a = before ++ a :: after := by
  unfold restack
  rw [h, hi, insertIdx_length_append]

/-- Every restacked list is of this form. -/
theorem exists_restack_eq (l : List α) (i : ℕ) (a : α) :
    ∃ before after, l.erase a = before ++ after ∧ before.length = min i (l.erase a).length ∧
      restack l i a = before ++ a :: after := by
  have hlen : ((l.erase a).take i).length = min i (l.erase a).length := List.length_take
  have hsplit : l.erase a = (l.erase a).take i ++ (l.erase a).drop i :=
    (List.take_append_drop i _).symm
  refine ⟨(l.erase a).take i, (l.erase a).drop i, hsplit, hlen, restack_eq hsplit ?_⟩
  rw [← hsplit, hlen]

variable [LawfulBEq α]

/-- An element that has been taken off is not among those below the place where it is put back. -/
theorem notMem_before (hl : l.Nodup) (h : l.erase a = before ++ after) : a ∉ before := by
  intro hmem
  have : a ∈ l.erase a := h ▸ List.mem_append_left _ hmem
  exact hl.not_mem_erase this

/-- Restacking adds the element if it was not there, and loses no other. -/
theorem mem_restack : b ∈ restack l i a ↔ b = a ∨ b ∈ l := by
  obtain ⟨before, after, hsplit, -, heq⟩ := exists_restack_eq l i a
  by_cases hba : b = a
  · rw [heq, hba]
    simp
  · have hmem : b ∈ l ↔ b ∈ before ++ after := by
      rw [← hsplit]
      exact (List.mem_erase_of_ne hba).symm
    rw [heq, hmem]
    simp [hba]

/-- Restacking does not repeat an element: it is taken off first. -/
theorem nodup_restack (hl : l.Nodup) : (restack l i a).Nodup := by
  obtain ⟨before, after, hsplit, -, heq⟩ := exists_restack_eq l i a
  rw [heq, List.nodup_middle, List.nodup_cons, ← hsplit]
  exact ⟨hl.not_mem_erase, hl.erase a⟩

/-- **The others keep their order.** -/
theorem erase_restack (hl : l.Nodup) : (restack l i a).erase a = l.erase a := by
  obtain ⟨before, after, hsplit, -, heq⟩ := exists_restack_eq l i a
  rw [heq, List.erase_append_right _ (notMem_before hl hsplit), List.erase_cons_head, hsplit]

/-- A restacked list is not empty. -/
theorem length_restack_pos : 0 < (restack l i a).length := List.length_pos_of_mem
  (mem_restack.mpr (Or.inl rfl))

/-- **The height of the element**, which is on top of the others if these are fewer. -/
theorem idxOf_restack (hl : l.Nodup) :
    (restack l i a).idxOf a = min i ((restack l i a).length - 1) := by
  obtain ⟨before, after, hsplit, hlen, heq⟩ := exists_restack_eq l i a
  have hidx : (restack l i a).idxOf a = before.length := by
    rw [heq, List.idxOf_append_of_notMem (notMem_before hl hsplit), List.idxOf_cons_self,
      Nat.add_zero]
  have hcount : (restack l i a).length - 1 = (l.erase a).length := by
    rw [heq, hsplit, List.length_append, List.length_append, List.length_cons, ← Nat.add_assoc,
      Nat.add_sub_cancel]
  rw [hidx, hcount, hlen]

/-- An element below the top leaves the stack before it is put directly under the top. -/
theorem restack_under_top_of_mem {top : α} (hmem : a ∈ l) :
    restack (l ++ [top]) (l.length - 1) a = l.erase a ++ [a, top] := by
  have hlen := List.length_erase_of_mem hmem
  have hpos := List.length_pos_of_mem hmem
  apply restack_eq
  · exact List.erase_append_left _ hmem
  · rw [List.length_append, List.length_singleton]
    omega

/-- At the same height, an element that is new to the stack comes under the one below the top. -/
theorem restack_under_top_of_notMem {top : α} (hmem : a ∉ l ++ [b, top]) :
    restack (l ++ [b, top]) l.length a = l ++ [a, b, top] := by
  apply restack_eq
  · exact List.erase_of_not_mem hmem
  · rw [List.length_append]
    omega

end Restack
