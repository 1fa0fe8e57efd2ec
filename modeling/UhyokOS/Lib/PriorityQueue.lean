import Mathlib.Data.List.MinMax
import Mathlib.Data.Multiset.AddSub

/-!
# Priority queues

A priority queue is specified by the multiset it holds: `push` adds an element, `top?` shows an
element that no other element comes after in the order, `pop?` removes the element that `top?`
shows. Which of several maximal elements is on top is left open.

* `PriorityQueue Q α` is that specification for a type `Q` of queues.
* `keyedList` is a simple implementation for an order by a key, smallest key on top.
-/

/-- The operations of a priority queue and their laws. -/
class PriorityQueue (Q : Type*) (α : outParam Type*) [LT α] where
  /-- The queue that holds nothing. -/
  empty : Q
  /-- Add an element. -/
  push : Q → α → Q
  /-- Show the element on top. -/
  top? : Q → Option α
  /-- Remove the element on top. -/
  pop? : Q → Option Q
  /-- The number of elements. -/
  size : Q → ℕ
  /-- What the queue holds. -/
  content : Q → Multiset α
  content_empty : content empty = 0
  content_push : ∀ q a, content (push q a) = a ::ₘ content q
  size_eq : ∀ q, size q = Multiset.card (content q)
  exists_top : ∀ q, content q ≠ 0 → ∃ a, top? q = some a
  top_mem : ∀ q a, top? q = some a → a ∈ content q
  top_max : ∀ q a, top? q = some a → ∀ b ∈ content q, ¬a < b
  pop : ∀ q a, top? q = some a → ∃ q', pop? q = some q' ∧ content q = a ::ₘ content q'

namespace PriorityQueue

variable {Q α : Type*} [LT α] [PriorityQueue Q α]

/-- A queue that holds something can be popped. -/
theorem exists_pop {q : Q} {a : α} (h : a ∈ content q) : ∃ t q', top? q = some t ∧
    pop? q = some q' ∧ content q = t ::ₘ content q' ∧ ∀ b ∈ content q, ¬t < b := by
  obtain ⟨t, ht⟩ := exists_top q fun h0 => by simp [h0] at h
  obtain ⟨q', hq', hcontent⟩ := pop q t ht
  exact ⟨t, q', ht, hq', hcontent, top_max q t ht⟩

/-- A list as a priority queue for the order by a key, an element with the smallest key on top. -/
@[reducible] def keyedList {α κ : Type*} [LT α] [DecidableEq α] [LinearOrder κ] (key : α → κ)
    (hkey : ∀ a b : α, a < b ↔ key b < key a) : PriorityQueue (List α) α where
  empty := []
  push := fun q a => a :: q
  top? := fun q => q.argmin key
  pop? := fun q => (q.argmin key).map q.erase
  size := List.length
  content := fun q => q
  content_empty := rfl
  content_push := fun _ _ => rfl
  size_eq := fun _ => rfl
  exists_top := fun q hq => by
    cases h : q.argmin key with
    | none => exact absurd (List.argmin_eq_none.mp h) (by simpa using hq)
    | some a => exact ⟨a, rfl⟩
  top_mem := fun q a h => List.argmin_mem h
  top_max := fun q a h b hb hlt =>
    absurd ((hkey a b).mp hlt) (not_lt.mpr (List.le_of_mem_argmin hb h))
  pop := fun q a h => by
    refine ⟨q.erase a, by simp [h], ?_⟩
    rw [Multiset.cons_coe, Multiset.coe_eq_coe]
    exact List.perm_cons_erase (List.argmin_mem h)

end PriorityQueue
