import Mathlib.Data.Finset.Card
import Mathlib.Data.List.Nodup
import UhyokOS.Lib.Transition
import UhyokOS.Usb.ArrayMap

/-!
# The laws of a map

`Put` takes the first free slot without looking for the key, and `Delete` frees the first slot with the
key. So a key can stand in two slots, and then the second one is what `Get` finds after `Delete`.

* `MapOp.Lawful`: what a call has to do to what `Get` returns.
* `distinct_kept`: no key stands in two slots as long as no key is put that is there.
* `arrayMap_lawful`: then all calls are lawful, and otherwise one is not.
-/

namespace UhyokOS

open Transition

/-- A call that changes the map. -/
inductive MapOp (K V : Type)
  | put (key : K) (value : V)
  | delete (key : K)

namespace ArrayMap

variable {K V : Type} {N : Nat} [DecidableEq K]

/-- The keys in some slots. -/
def occupied (slots : List (Option K × V)) : List K := slots.filterMap Prod.fst

/-- The keys that are present. -/
def keys (m : ArrayMap K V N) : Finset K := (occupied m.table).toFinset

/-- One call. -/
def step (m : ArrayMap K V N) : MapOp K V → Option (ArrayMap K V N)
  | .put key value => some (m.put key value)
  | .delete key => some (m.delete key)

/-- The call does what it would do to a finite map. -/
def Lawful (m : ArrayMap K V N) : MapOp K V → Prop
  | .put key value =>
      ((m.Present key ∨ m.keys.card < N) → (m.put key value).get key = some value) ∧
        ∀ key', key' ≠ key → (m.put key value).get key' = m.get key'
  | .delete key =>
      (m.delete key).get key = none ∧ ∀ key', key' ≠ key → (m.delete key).get key' = m.get key'

/-- No key is put that is present. -/
def PutsAbsent (m : ArrayMap K V N) : MapOp K V → Prop
  | .put key _ => ¬m.Present key
  | .delete _ => True

/-- No key stands in two slots. -/
def Distinct (m : ArrayMap K V N) : Prop := (occupied m.table).Nodup

variable {m m' : ArrayMap K V N} {key key' : K} {value value' : V} {slots : List (Option K × V)}

/-! ## What `Get` returns -/

omit [DecidableEq K] in
theorem mem_occupied : key ∈ occupied slots ↔ ∃ slot ∈ slots, slot.1 = some key := by
  unfold occupied
  exact List.mem_filterMap

theorem get_put_of_ne (hne : key' ≠ key) : (m.put key value).get key' = m.get key' := by
  have hslots : ∀ slots : List (Option K × V),
      getSlots key' (putSlots key value slots) = getSlots key' slots := by
    intro slots
    induction slots with
    | nil => rfl
    | cons slot slots ih =>
        rcases slot with ⟨_ | slotKey, slotValue⟩
        · simp [putSlots, getSlots, hne.symm]
        · simp [putSlots, getSlots, ih]
  exact hslots m.table

theorem get_delete_of_ne (hne : key' ≠ key) : (m.delete key).get key' = m.get key' := by
  have hslots : ∀ slots : List (Option K × V),
      getSlots key' (deleteSlots key slots) = getSlots key' slots := by
    intro slots
    induction slots with
    | nil => rfl
    | cons slot slots ih =>
        obtain ⟨slotKey, slotValue⟩ := slot
        unfold deleteSlots
        split_ifs with hkey
        · simp [getSlots, hkey, hne.symm]
        · simp [getSlots, ih]
  exact hslots m.table

/-- A key that is not present is put into the first free slot, where `Get` finds it. -/
theorem get_put_self (habsent : ¬m.Present key) (hfree : m.HasFree) :
    (m.put key value).get key = some value := by
  have hslots : ∀ slots : List (Option K × V), (¬∃ slot ∈ slots, slot.1 = some key) →
      (∃ slot ∈ slots, slot.1 = none) → getSlots key (putSlots key value slots) = some value := by
    intro slots habsent hfree
    induction slots with
    | nil =>
        obtain ⟨slot, hmem, -⟩ := hfree
        exact absurd hmem List.not_mem_nil
    | cons slot slots ih =>
        rw [List.exists_mem_cons_iff] at habsent hfree
        obtain ⟨hhead, htail⟩ := not_or.mp habsent
        rcases slot with ⟨_ | slotKey, slotValue⟩
        · simp [putSlots, getSlots]
        · have hrest := ih htail (hfree.resolve_left (Option.some_ne_none slotKey))
          simp [putSlots, getSlots, hrest]
          exact fun heq => absurd (congrArg some heq) hhead
  exact hslots m.table habsent hfree

/-! ## Keys in one slot -/

omit [DecidableEq K] in
theorem present_iff_mem_occupied : m.Present key ↔ key ∈ occupied m.table := mem_occupied.symm

/-- `Delete` removes a key that stands in one slot, and leaves the other keys in one slot. -/
theorem distinct_delete (h : m.Distinct) :
    (m.delete key).Distinct ∧ ¬(m.delete key).Present key := by
  rw [present_iff_mem_occupied]
  unfold Distinct at *
  show (occupied (deleteSlots key m.table)).Nodup ∧ key ∉ occupied (deleteSlots key m.table)
  rcases deleteSlots_cases key m.table with ⟨hother, heq⟩ | ⟨pre, value, post, hsplit, heq⟩
  · rw [heq, mem_occupied]
    refine ⟨h, ?_⟩
    rintro ⟨slot, hmem, hkey⟩
    exact hother slot hmem hkey
  · have hbefore : occupied m.table = occupied pre ++ key :: occupied post := by
      rw [hsplit]
      simp [occupied]
    have hafter : occupied (deleteSlots key m.table) = occupied pre ++ occupied post := by
      rw [heq]
      simp [occupied]
    rw [hbefore, List.nodup_middle, List.nodup_cons] at h
    rw [hafter]
    exact ⟨h.2, h.1⟩

omit [DecidableEq K] in
/-- A key that is not present is put into one slot. -/
theorem distinct_put (h : m.Distinct) (habsent : ¬m.Present key) : (m.put key value).Distinct := by
  rw [present_iff_mem_occupied] at habsent
  unfold Distinct at *
  show (occupied (putSlots key value m.table)).Nodup
  rcases putSlots_cases key value m.table with ⟨-, heq⟩ | ⟨pre, old, post, hsplit, heq⟩
  · rwa [heq]
  · have hbefore : occupied m.table = occupied pre ++ occupied post := by
      rw [hsplit]
      simp [occupied]
    have hafter : occupied (putSlots key value m.table) = occupied pre ++ key :: occupied post := by
      rw [heq]
      simp [occupied]
    rw [hbefore] at h habsent
    rw [hafter, List.nodup_middle, List.nodup_cons]
    exact ⟨habsent, h⟩

/-- Of fewer than `N` keys, each in one slot, some slot is free. -/
theorem hasFree_of_card_lt (h : m.Distinct) (hcard : m.keys.card < N) : m.HasFree := by
  by_contra hfull
  have hall : ∀ slot ∈ m.table, (Prod.fst slot).isSome = true := by
    intro slot hmem
    rw [Option.isSome_iff_ne_none]
    intro hnone
    exact hfull ⟨slot, hmem, hnone⟩
  have hlen : (occupied m.table).length = m.table.length := List.filterMap_length_eq_length.mpr hall
  have hkeys : m.keys.card = (occupied m.table).length := List.toFinset_card_of_nodup h
  rw [hkeys, hlen, m.size] at hcard
  exact lt_irrefl N hcard

omit [DecidableEq K] in
theorem distinct_empty (value : V) : (empty K N value).Distinct := by
  have hnone : occupied (empty K N value).table = [] := by
    unfold occupied empty
    rw [List.filterMap_replicate]
  unfold Distinct
  rw [hnone]
  exact List.nodup_nil

/-- **The step lemma.** -/
theorem distinct_kept : Keeps (step (K := K) (V := V) (N := N)) PutsAbsent Distinct := by
  intro m op m' h hok hstep
  cases op with
  | put key value =>
      cases hstep
      exact distinct_put h hok
  | delete key =>
      cases hstep
      exact (distinct_delete h).1

/-- Where no key stands in two slots, a call that puts no present key is lawful. -/
theorem lawful_of_distinct (h : m.Distinct) {op : MapOp K V} (hok : m.PutsAbsent op) :
    m.Lawful op := by
  cases op with
  | put key value =>
      refine ⟨fun hroom => ?_, fun key' hne => get_put_of_ne hne⟩
      have hcard : m.keys.card < N := hroom.resolve_left hok
      exact get_put_self hok (hasFree_of_card_lt h hcard)
  | delete key =>
      exact ⟨get_eq_none_iff.mpr (distinct_delete h).2, fun key' hne => get_delete_of_ne hne⟩

/-! ## Keys in two slots -/

omit [DecidableEq K] in
theorem occupied_put (hfree : m.HasFree) (key : K) (value : V) : ∃ before behind,
    occupied m.table = before ++ behind ∧
      occupied (m.put key value).table = before ++ key :: behind := by
  rcases putSlots_cases key value m.table with ⟨hfull, -⟩ | ⟨pre, old, post, hsplit, heq⟩
  · obtain ⟨slot, hmem, hnone⟩ := hfree
    exact absurd hnone (hfull slot hmem)
  · refine ⟨occupied pre, occupied post, ?_, ?_⟩
    · rw [hsplit]
      simp [occupied]
    · show occupied (putSlots key value m.table) = _
      rw [heq]
      simp [occupied]

/-- `Delete` removes one of the slots that a key stands in. -/
theorem count_delete (h : m.Present key) :
    (occupied (m.delete key).table).count key + 1 = (occupied m.table).count key := by
  show (occupied (deleteSlots key m.table)).count key + 1 = _
  rcases deleteSlots_cases key m.table with ⟨hother, -⟩ | ⟨pre, value, post, hsplit, heq⟩
  · obtain ⟨slot, hmem, hkey⟩ := h
    exact absurd hkey (hother slot hmem)
  · rw [heq, hsplit]
    simp [occupied, Nat.add_assoc]

/-- A present key that is put a second time is still there after `Delete`. -/
theorem present_delete_put (h : m.Present key) (hfree : m.HasFree) :
    ((m.put key value).delete key).Present key := by
  obtain ⟨before, behind, hbefore, hafter⟩ := occupied_put hfree key value
  have hpresent : (m.put key value).Present key := present_put.mpr (Or.inl h)
  have hone : 0 < (occupied m.table).count key :=
    List.count_pos_iff.mpr (present_iff_mem_occupied.mp h)
  have htwo : (occupied (m.put key value).table).count key = (occupied m.table).count key + 1 := by
    rw [hbefore, hafter]
    simp [Nat.add_assoc]
  have hdelete := count_delete hpresent
  rw [present_iff_mem_occupied, ← List.count_pos_iff]
  omega

/-- Putting a present key with another value breaks a law, at once or when the key is deleted. -/
theorem not_lawful_of_present (h : m.Present key) (hvalue : m.get key ≠ some value) :
    ¬(m.Lawful (.put key value) ∧ (m.put key value).Lawful (.delete key)) := by
  rintro ⟨hput, hdelete⟩
  by_cases hfree : m.HasFree
  · exact get_eq_none_iff.mp hdelete.1 (present_delete_put h hfree)
  · -- nothing has been written
    have hsame : m.put key value = m := by
      have hslots : putSlots key value m.table = m.table := by
        rcases putSlots_cases key value m.table with ⟨-, heq⟩ | ⟨pre, old, post, hsplit, -⟩
        · exact heq
        · exact absurd ⟨(none, old), by rw [hsplit]; simp, rfl⟩ hfree
      cases m
      unfold put
      simp only [hslots]
    have hget := hput.1 (Or.inl h)
    rw [hsame] at hget
    exact hvalue hget

end ArrayMap

/-! ## All runs -/

section runs

variable {K V : Type} {N : Nat} [DecidableEq K]

/-- **`ArrayMap` is a finite map as long as no key is put that is present.** In every state that such
calls lead to from the empty map, each further one does what it would do to a finite map. A call that
puts a present key with another value does not, or the call that deletes the key afterwards does not. -/
theorem arrayMap_lawful (value₀ : V) {m : ArrayMap K V N}
    (hr : Reachable ArrayMap.step ArrayMap.PutsAbsent (.empty K N value₀) m) :
    (∀ op, m.PutsAbsent op → m.Lawful op) ∧
      ∀ key value, m.Present key → m.get key ≠ some value →
        ¬(m.Lawful (.put key value) ∧ (m.put key value).Lawful (.delete key)) := by
  have hdistinct : m.Distinct :=
    hr.invariant_of_keeps (ArrayMap.distinct_empty value₀) ArrayMap.distinct_kept
  exact ⟨fun op hok => ArrayMap.lawful_of_distinct hdistinct hok,
    fun key value => ArrayMap.not_lawful_of_present⟩

end runs

/-- A map with room for one entry: when the first key has been deleted, a second one finds the room. -/
theorem arrayMap_lawful_oneEntry :
    ((ArrayMap.empty ℕ 1 0).put 7 1).Lawful (.delete 7) ∧
      (((ArrayMap.empty ℕ 1 0).put 7 1).delete 7).Lawful (.put 8 2) := by
  have hok₁ : (ArrayMap.empty ℕ 1 0).PutsAbsent (.put 7 1) :=
    (by decide : ¬(ArrayMap.empty ℕ 1 0).Present 7)
  have hok₂ : ((ArrayMap.empty ℕ 1 0).put 7 1).PutsAbsent (.delete 7) := trivial
  have hok₃ : (((ArrayMap.empty ℕ 1 0).put 7 1).delete 7).PutsAbsent (.put 8 2) :=
    (by decide : ¬(((ArrayMap.empty ℕ 1 0).put 7 1).delete 7).Present 8)
  have hr : Reachable ArrayMap.step ArrayMap.PutsAbsent (.empty ℕ 1 0)
      ((ArrayMap.empty ℕ 1 0).put 7 1) := Reachable.init.step hok₁ rfl
  exact ⟨(arrayMap_lawful 0 hr).1 _ hok₂, (arrayMap_lawful 0 (hr.step hok₂ rfl)).1 _ hok₃⟩

/-- A second value for the same key is not seen. -/
theorem arrayMap_not_lawful :
    ¬∀ m, Reachable ArrayMap.step (fun _ _ => True) (ArrayMap.empty ℕ 4 0) m →
      ∀ op, m.Lawful op := by
  intro hall
  have hstep : (ArrayMap.empty ℕ 4 0).step (.put 7 1) = some ((ArrayMap.empty ℕ 4 0).put 7 1) := rfl
  have hget := (hall _ (Reachable.init.step trivial hstep) (.put 7 2)).1 (Or.inl (by decide))
  exact absurd hget (by decide)

end UhyokOS
