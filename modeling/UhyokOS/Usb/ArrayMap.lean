import Mathlib.Data.List.Basic
import Mathlib.Tactic.Common

/-!
# The fixed-size map

The model of `kernel/usb/arraymap.hpp`, with the table as the list of its slots. Each loop runs over
the slots from the first one on and stops at the first slot it looks for.

* `get_eq_none_iff` and `mem_of_get`: what `Get` finds, in terms of the keys in the table.
* `present_put` and `present_delete`: which keys are in the table after the other operations.
* `mem_put` and `mem_delete`: where the entries come from.
-/

namespace UhyokOS

/-- Source: `kernel/usb/arraymap.hpp`, `ArrayMap` -/
structure ArrayMap (K V : Type) (N : Nat) where
  /-- `table_` -/
  table : List (Option K × V)
  size : table.length = N

namespace ArrayMap

variable {K V : Type} {N : Nat} [DecidableEq K]

/-- The table as it is constructed. -/
def empty (K : Type) {V : Type} (N : Nat) (value : V) : ArrayMap K V N where
  table := List.replicate N (none, value)
  size := List.length_replicate

/-- The loop of `Get` over the slots that are left. -/
def getSlots (key : K) : List (Option K × V) → Option V
  | [] => none
  | (slotKey, value) :: slots => if slotKey = some key then some value else getSlots key slots

/-- The loop of `Put`. -/
def putSlots (key : K) (value : V) : List (Option K × V) → List (Option K × V)
  | [] => []
  | (none, _) :: slots => (some key, value) :: slots
  | (some slotKey, slotValue) :: slots => (some slotKey, slotValue) :: putSlots key value slots

/-- The loop of `Delete`. -/
def deleteSlots (key : K) : List (Option K × V) → List (Option K × V)
  | [] => []
  | (slotKey, value) :: slots =>
      if slotKey = some key then (none, value) :: slots
      else (slotKey, value) :: deleteSlots key slots

omit [DecidableEq K] in
theorem length_putSlots (key : K) (value : V) (slots : List (Option K × V)) :
    (putSlots key value slots).length = slots.length := by
  induction slots with
  | nil => rfl
  | cons slot slots ih =>
      rcases slot with ⟨_ | slotKey, slotValue⟩
      · rfl
      · exact congrArg (· + 1) ih

theorem length_deleteSlots (key : K) (slots : List (Option K × V)) :
    (deleteSlots key slots).length = slots.length := by
  induction slots with
  | nil => rfl
  | cons slot slots ih =>
      unfold deleteSlots
      split_ifs
      · rfl
      · exact congrArg (· + 1) ih

/-- Source: `kernel/usb/arraymap.hpp`, `ArrayMap::Get` -/
def get (m : ArrayMap K V N) (key : K) : Option V := getSlots key m.table

/-- Source: `kernel/usb/arraymap.hpp`, `ArrayMap::Put` -/
def put (m : ArrayMap K V N) (key : K) (value : V) : ArrayMap K V N where
  table := putSlots key value m.table
  size := (length_putSlots key value m.table).trans m.size

/-- Source: `kernel/usb/arraymap.hpp`, `ArrayMap::Delete` -/
def delete (m : ArrayMap K V N) (key : K) : ArrayMap K V N where
  table := deleteSlots key m.table
  size := (length_deleteSlots key m.table).trans m.size

/-! ## The keys in the table -/

/-- Some slot has the key. -/
def Present (m : ArrayMap K V N) (key : K) : Prop := ∃ slot ∈ m.table, slot.1 = some key

/-- Some slot is free. -/
def HasFree (m : ArrayMap K V N) : Prop := ∃ slot ∈ m.table, slot.1 = none

instance (m : ArrayMap K V N) (key : K) : Decidable (m.Present key) :=
  inferInstanceAs (Decidable (∃ slot ∈ m.table, slot.1 = some key))

instance (m : ArrayMap K V N) : Decidable m.HasFree :=
  inferInstanceAs (Decidable (∃ slot ∈ m.table, slot.1 = none))

variable {m : ArrayMap K V N} {key key' : K} {value value' : V}

/-- What `Get` returns stands in a slot with the key. -/
theorem mem_of_get (h : m.get key = some value) : (some key, value) ∈ m.table := by
  have hslots : ∀ slots : List (Option K × V), getSlots key slots = some value →
      (some key, value) ∈ slots := by
    intro slots
    induction slots with
    | nil => exact fun h => nomatch h
    | cons slot slots ih =>
        intro h
        unfold getSlots at h
        split_ifs at h with hkey
        · cases h
          exact hkey ▸ List.mem_cons_self
        · exact List.mem_cons_of_mem _ (ih h)
  exact hslots m.table h

/-- `Get` fails only if no slot has the key. -/
theorem get_eq_none_iff : m.get key = none ↔ ¬m.Present key := by
  have hslots : ∀ slots : List (Option K × V), getSlots key slots = none ↔
      ¬∃ slot ∈ slots, slot.1 = some key := by
    intro slots
    induction slots with
    | nil => exact iff_of_true rfl fun ⟨_, hmem, _⟩ => absurd hmem List.not_mem_nil
    | cons slot slots ih =>
        unfold getSlots
        rw [List.exists_mem_cons_iff]
        split_ifs with hkey
        · exact iff_of_false (fun h => nomatch h) fun h => h (Or.inl hkey)
        · rw [ih, or_iff_right hkey]
  exact hslots m.table

theorem exists_get (h : m.Present key) : ∃ value, m.get key = some value := by
  rw [← Option.ne_none_iff_exists', Ne, get_eq_none_iff]
  exact not_not_intro h

omit [DecidableEq K] in
/-- `Put` writes to the first free slot, if there is one. -/
theorem putSlots_cases (key : K) (value : V) (slots : List (Option K × V)) :
    ((∀ slot ∈ slots, slot.1 ≠ none) ∧ putSlots key value slots = slots) ∨
      ∃ pre old post, slots = pre ++ (none, old) :: post ∧
        putSlots key value slots = pre ++ (some key, value) :: post := by
  induction slots with
  | nil => exact Or.inl ⟨fun _ hmem => absurd hmem List.not_mem_nil, rfl⟩
  | cons slot slots ih =>
      rcases slot with ⟨_ | slotKey, slotValue⟩
      · exact Or.inr ⟨[], slotValue, slots, rfl, rfl⟩
      · rcases ih with ⟨hfull, heq⟩ | ⟨pre, old, post, hsplit, heq⟩
        · refine Or.inl ⟨fun slot hmem => ?_, congrArg _ heq⟩
          rcases List.mem_cons.mp hmem with rfl | hmem
          · exact Option.some_ne_none slotKey
          · exact hfull slot hmem
        · refine Or.inr ⟨(some slotKey, slotValue) :: pre, old, post, ?_, congrArg _ heq⟩
          rw [hsplit]
          rfl

/-- `Delete` frees the first slot with the key, if there is one. -/
theorem deleteSlots_cases (key : K) (slots : List (Option K × V)) :
    ((∀ slot ∈ slots, slot.1 ≠ some key) ∧ deleteSlots key slots = slots) ∨
      ∃ pre value post, slots = pre ++ (some key, value) :: post ∧
        deleteSlots key slots = pre ++ (none, value) :: post := by
  induction slots with
  | nil => exact Or.inl ⟨fun _ hmem => absurd hmem List.not_mem_nil, rfl⟩
  | cons slot slots ih =>
      obtain ⟨slotKey, slotValue⟩ := slot
      unfold deleteSlots
      split_ifs with hkey
      · exact Or.inr ⟨[], slotValue, slots, by rw [hkey]; rfl, rfl⟩
      · rcases ih with ⟨hother, heq⟩ | ⟨pre, value, post, hsplit, heq⟩
        · refine Or.inl ⟨fun slot hmem => ?_, congrArg _ heq⟩
          rcases List.mem_cons.mp hmem with rfl | hmem
          · exact hkey
          · exact hother slot hmem
        · refine Or.inr ⟨(slotKey, slotValue) :: pre, value, post, ?_, congrArg _ heq⟩
          rw [hsplit]
          rfl

omit [DecidableEq K] in
/-- The keys after `Put`. -/
theorem present_put :
    (m.put key value).Present key' ↔ m.Present key' ∨ (m.HasFree ∧ key' = key) := by
  show (∃ slot ∈ putSlots key value m.table, slot.1 = some key') ↔ _
  unfold Present HasFree
  rcases putSlots_cases key value m.table with ⟨hfull, heq⟩ | ⟨pre, old, post, hsplit, heq⟩
  · rw [heq]
    refine ⟨Or.inl, fun h => h.resolve_right ?_⟩
    rintro ⟨⟨slot, hslot, hfree⟩, -⟩
    exact hfull slot hslot hfree
  · rw [heq, hsplit]
    simp only [List.mem_append, List.mem_cons, or_and_right, exists_or, exists_eq_left,
      Option.some.injEq, reduceCtorEq, false_or, true_or, or_true, true_and]
    rw [or_left_comm, or_comm, eq_comm]

/-- The keys after `Delete`, the deleted one apart. -/
theorem present_delete (hne : key' ≠ key) : (m.delete key).Present key' ↔ m.Present key' := by
  show (∃ slot ∈ deleteSlots key m.table, slot.1 = some key') ↔ _
  unfold Present
  rcases deleteSlots_cases key m.table with ⟨-, heq⟩ | ⟨pre, value, post, hsplit, heq⟩
  · rw [heq]
  · rw [heq, hsplit]
    simp only [List.mem_append, List.mem_cons, or_and_right, exists_or, exists_eq_left,
      Option.some.injEq, reduceCtorEq, false_or, hne.symm]

omit [DecidableEq K] in
/-- The entries after `Put`. -/
theorem mem_put (h : (some key', value') ∈ (m.put key value).table) :
    (some key', value') ∈ m.table ∨ (key' = key ∧ value' = value) := by
  have hmem : (some key', value') ∈ putSlots key value m.table := h
  rcases putSlots_cases key value m.table with ⟨-, heq⟩ | ⟨pre, old, post, hsplit, heq⟩
  · exact Or.inl (heq ▸ hmem)
  · simp only [heq, List.mem_append, List.mem_cons, Prod.mk.injEq, Option.some.injEq] at hmem
    rw [hsplit]
    rcases hmem with h | h | h
    · exact Or.inl (List.mem_append_left _ h)
    · exact Or.inr h
    · exact Or.inl (List.mem_append_right _ (List.mem_cons_of_mem _ h))

/-- The entries after `Delete`. -/
theorem mem_delete (h : (some key', value') ∈ (m.delete key).table) :
    (some key', value') ∈ m.table := by
  have hmem : (some key', value') ∈ deleteSlots key m.table := h
  rcases deleteSlots_cases key m.table with ⟨-, heq⟩ | ⟨pre, value, post, hsplit, heq⟩
  · exact heq ▸ hmem
  · simp only [heq, List.mem_append, List.mem_cons, Prod.mk.injEq, reduceCtorEq, false_and,
      false_or] at hmem
    rw [hsplit]
    rcases hmem with h | h
    · exact List.mem_append_left _ h
    · exact List.mem_append_right _ (List.mem_cons_of_mem _ h)

end ArrayMap

end UhyokOS
