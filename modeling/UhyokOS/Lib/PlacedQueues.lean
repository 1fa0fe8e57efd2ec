import Mathlib.Data.List.Perm.Basic
import Mathlib.Data.List.Nodup
import Mathlib.Logic.Function.Basic
import Mathlib.Tactic.Common

/-!
# Families of queues that realise a placement

A family of queues `q : κ → List α` *holds* a placement `place : α → Option κ` when every element
sits exactly once in the queue its placement names and nowhere else. This is the bookkeeping of a
multi-level run queue, of a set of buckets, of any collection of lists kept in step with a field
of their elements.

`Holds.replace` is the one update rule: replacing one queue is sound as soon as the new list is
duplicate free and contains exactly what the new placement puts there. The deque operations
(`pushBack`, `pushFront`, `remove`, `permute`) are instances of it.
-/

namespace PlacedQueues

variable {α κ : Type*}

/-- The queues contain exactly the elements placed in them, each once. -/
structure Holds (q : κ → List α) (place : α → Option κ) : Prop where
  /-- No queue holds an element twice. -/
  nodup : ∀ k, (q k).Nodup
  /-- An element is in the queue its placement names and in no other. -/
  mem_iff : ∀ a k, a ∈ q k ↔ place a = some k

variable {q : κ → List α} {place place' : α → Option κ} {a : α} {k k' : κ}

/-- An element is counted once in its own queue and never elsewhere. -/
theorem Holds.count [DecidableEq α] [DecidableEq κ] (h : Holds q place) (a : α) (k : κ) :
    (q k).count a = if place a = some k then 1 else 0 := by
  split_ifs with hp
  · exact List.count_eq_one_of_mem (h.nodup k) ((h.mem_iff a k).mpr hp)
  · exact List.count_eq_zero.mpr fun hm => hp ((h.mem_iff a k).mp hm)

/-- A placement may be replaced by one that agrees with it. -/
theorem Holds.congr (h : Holds q place) (hp : ∀ b, place' b = place b) : Holds q place' :=
  ⟨h.nodup, fun b k => by rw [hp]; exact h.mem_iff b k⟩

theorem Holds.not_mem_of_none (h : Holds q place) (ha : place a = none) (k : κ) : a ∉ q k := by
  intro hm
  rw [h.mem_iff, ha] at hm
  cases hm

variable [DecidableEq κ]

/-- **The update rule**: queue `k` may be replaced by any duplicate-free list of the elements the
new placement puts there, if the new placement changes nothing about the other queues. -/
theorem Holds.replace (h : Holds q place) {l : List α} (hnd : l.Nodup)
    (hmem : ∀ b, b ∈ l ↔ place' b = some k)
    (hother : ∀ b k', k' ≠ k → (place' b = some k' ↔ place b = some k')) :
    Holds (Function.update q k l) place' := by
  constructor
  · intro k'
    by_cases hk : k' = k
    · subst hk; simpa using hnd
    · simpa [Function.update_of_ne hk] using h.nodup k'
  · intro b k'
    by_cases hk : k' = k
    · subst hk; simpa using hmem b
    · rw [Function.update_of_ne hk, h.mem_iff, hother b k' hk]

/-- Reordering one queue keeps the placement. -/
theorem Holds.permute (h : Holds q place) {l : List α} (hl : l.Perm (q k)) :
    Holds (Function.update q k l) place :=
  h.replace (hl.nodup_iff.mpr (h.nodup k)) (fun b => by rw [hl.mem_iff, h.mem_iff])
    fun _ _ _ => Iff.rfl

variable [DecidableEq α]

/-- An element placed nowhere may be added to queue `k`, at any position. -/
theorem Holds.insert (h : Holds q place) (ha : place a = none) {l : List α}
    (hl : l.Perm (a :: q k)) :
    Holds (Function.update q k l) (Function.update place a (some k)) := by
  refine h.replace ?_ ?_ ?_
  · rw [hl.nodup_iff, List.nodup_cons]
    exact ⟨h.not_mem_of_none ha k, h.nodup k⟩
  · intro b
    rw [hl.mem_iff, List.mem_cons, h.mem_iff]
    by_cases hb : b = a
    · simp [hb]
    · simp [hb]
  · intro b k' hk
    by_cases hb : b = a
    · subst hb
      simp [ha, Ne.symm hk]
    · rw [Function.update_of_ne hb]

theorem Holds.pushBack (h : Holds q place) (ha : place a = none) :
    Holds (Function.update q k (q k ++ [a])) (Function.update place a (some k)) :=
  h.insert ha (List.perm_append_singleton a (q k))

theorem Holds.pushFront (h : Holds q place) (ha : place a = none) :
    Holds (Function.update q k (a :: q k)) (Function.update place a (some k)) :=
  h.insert ha (List.Perm.refl _)

/-- Any list that together with `a` makes up queue `k` is that queue without `a`. -/
theorem Holds.remove (h : Holds q place) {l : List α} (hl : (a :: l).Perm (q k)) :
    Holds (Function.update q k l) (Function.update place a none) := by
  have hnd : a ∉ l ∧ l.Nodup := List.nodup_cons.mp (hl.nodup_iff.mpr (h.nodup k))
  have hak : place a = some k := (h.mem_iff a k).mp (hl.mem_iff.mp List.mem_cons_self)
  refine h.replace hnd.2 ?_ ?_
  · intro b
    by_cases hb : b = a
    · subst hb
      simp [hnd.1]
    · rw [Function.update_of_ne hb, ← h.mem_iff, ← hl.mem_iff, List.mem_cons]
      simp [hb]
  · intro b k' hk
    by_cases hb : b = a
    · subst hb
      simp [hak, Ne.symm hk]
    · rw [Function.update_of_ne hb]

/-- Filtering an element out of its own queue removes it. -/
theorem Holds.erase (h : Holds q place) (ha : place a = some k) :
    Holds (Function.update q k ((q k).filter (· != a))) (Function.update place a none) := by
  refine h.remove ?_
  have hm : a ∈ q k := (h.mem_iff a k).mpr ha
  rw [← List.Nodup.erase_eq_filter (h.nodup k) a]
  exact (List.perm_cons_erase hm).symm

end PlacedQueues
