import Mathlib.Data.List.Basic
import Mathlib.Data.List.TakeWhile

/-!
# Strings in character arrays

A character array of fixed length holds a string up to its first `0`. A write is undefined outside
the array, reading the string is undefined if no `0` ends it, and copying a string is undefined if
it does not fit with its terminator. Copying a block is undefined if it does not fit.

* `text?_eq_some_iff` characterises the string of an array.
* `text?_write_nul`, `take_write` and `text?_copy` are what a line editor needs: ending the text at
  a position, extending it by a character, replacing it.
-/

/-- An array of `n` characters. -/
structure CharArray (α : Type*) (n : ℕ) where
  /-- The characters. -/
  chars : List α
  /-- There are `n` of them. -/
  length_eq : chars.length = n
  deriving DecidableEq

namespace CharArray

variable {α : Type*} [Zero α] [DecidableEq α] {n i : ℕ} {a b : CharArray α n} {s : List α} {c : α}

/-- The array of zeros. -/
def zeros (n : ℕ) : CharArray α n := ⟨List.replicate n 0, List.length_replicate⟩

/-- `a[i] = c`. -/
def write? (a : CharArray α n) (i : ℕ) (c : α) : Option (CharArray α n) :=
  if i < n then some ⟨a.chars.set i c, by simp [a.length_eq]⟩ else none

/-- The string at the start of the array. -/
def text? (a : CharArray α n) : Option (List α) :=
  if 0 ∈ a.chars then some (a.chars.takeWhile (· ≠ 0)) else none

/-- `strcpy(a, s)`: the string and its terminator are written, the rest of the array stays. -/
def copy? (a : CharArray α n) (s : List α) : Option (CharArray α n) :=
  if h : s.length < n then
    some ⟨s ++ 0 :: a.chars.drop (s.length + 1), by
      rw [List.length_append, List.length_cons, List.length_drop, a.length_eq]
      omega⟩
  else none

/-- `memcpy(a, s, n)` for `n` characters: they are written, the rest of the array stays. -/
def blit? (a : CharArray α n) (s : List α) : Option (CharArray α n) :=
  if h : s.length ≤ n then
    some ⟨s ++ a.chars.drop s.length, by
      rw [List.length_append, List.length_drop, a.length_eq]
      omega⟩
  else none

/-- What precedes the first `0` is the string, if there is no `0` in it. -/
theorem takeWhile_text (hs : 0 ∉ s) (rest : List α) :
    (s ++ 0 :: rest).takeWhile (· ≠ 0) = s := by
  rw [List.takeWhile_append_of_pos fun c hc => by
    simpa using fun h0 : c = 0 => hs (h0 ▸ hc)]
  simp

/-- The string of an array is what precedes the first zero. -/
theorem text?_eq_some_iff : a.text? = some s ↔ 0 ∉ s ∧ ∃ rest, a.chars = s ++ 0 :: rest := by
  unfold text?
  constructor
  · intro h
    split_ifs at h with hmem
    have hs : a.chars.takeWhile (· ≠ 0) = s := Option.some.inj h
    have hnot : 0 ∉ s := fun h0 => by
      rw [← hs] at h0
      simpa using List.mem_takeWhile_imp h0
    refine ⟨hnot, ?_⟩
    have hsplit := List.takeWhile_append_dropWhile (p := fun c : α => decide (c ≠ 0)) (l := a.chars)
    rw [hs] at hsplit
    cases hrest : a.chars.dropWhile (fun c => decide (c ≠ 0)) with
    | nil =>
        rw [hrest, List.append_nil] at hsplit
        exact absurd (hsplit ▸ hmem) hnot
    | cons c rest =>
        have hc : c = 0 := by
          have hne : a.chars.dropWhile (fun c => decide (c ≠ 0)) ≠ [] := by
            rw [hrest]
            exact List.cons_ne_nil _ _
          have hhead := List.head_dropWhile_not (fun c : α => decide (c ≠ 0)) hne
          simp only [hrest, List.head_cons] at hhead
          simpa using hhead
        rw [hrest, hc] at hsplit
        exact ⟨rest, hsplit.symm⟩
  · rintro ⟨hnot, rest, hchars⟩
    rw [hchars, if_pos (by simp), takeWhile_text hnot]

/-- A string leaves room for its terminator. -/
theorem length_lt_of_text? (h : a.text? = some s) : s.length < n := by
  obtain ⟨-, rest, hchars⟩ := text?_eq_some_iff.mp h
  have hlen := a.length_eq
  rw [hchars, List.length_append, List.length_cons] at hlen
  omega

/-- An array with a `0` in it holds a string. -/
theorem text?_eq_some_of_mem (h : 0 ∈ a.chars) :
    a.text? = some (a.chars.takeWhile (· ≠ 0)) := if_pos h

/-- An array that holds a string has a `0` in it. -/
theorem mem_of_text? (h : a.text? = some s) : 0 ∈ a.chars := by
  by_contra hnot
  rw [text?, if_neg hnot] at h
  cases h

/-- The string is the start of the array. -/
theorem take_of_text? (h : a.text? = some s) : a.chars.take s.length = s := by
  obtain ⟨-, rest, hchars⟩ := text?_eq_some_iff.mp h
  rw [hchars, List.take_left]

/-- A string has no `0` in it: the first one ends it. -/
theorem not_mem_of_text? (h : a.text? = some s) : 0 ∉ s := (text?_eq_some_iff.mp h).1

/-- An array of zeros holds the empty string. -/
theorem text?_zeros (hn : 0 < n) : (zeros n : CharArray α n).text? = some [] := by
  refine text?_eq_some_iff.mpr ⟨List.not_mem_nil, List.replicate (n - 1) 0, ?_⟩
  show List.replicate n 0 = [] ++ 0 :: List.replicate (n - 1) 0
  rw [List.nil_append, ← List.replicate_succ, Nat.sub_add_cancel hn]

omit [Zero α] [DecidableEq α] in
/-- A write inside the array is defined, and sets one character. -/
theorem write?_eq (hi : i < n) (c : α) :
    a.write? i c = some ⟨a.chars.set i c, by simp [a.length_eq]⟩ := if_pos hi

/-- Writing the terminator ends the text. -/
theorem text?_write_nul (hi : i < n) (h0 : 0 ∉ a.chars.take i) (hb : a.write? i 0 = some b) :
    b.text? = some (a.chars.take i) := by
  rw [write?_eq hi] at hb
  cases hb
  refine text?_eq_some_iff.mpr ⟨h0, a.chars.drop (i + 1), ?_⟩
  exact List.set_eq_take_append_cons_drop.trans (if_pos (lt_of_lt_of_eq hi a.length_eq.symm))

omit [Zero α] [DecidableEq α] in
/-- Writing a character at the end of the text extends it. -/
theorem take_write (hi : i < n) (hb : a.write? i c = some b) :
    b.chars.take (i + 1) = a.chars.take i ++ [c] := by
  rw [write?_eq hi] at hb
  cases hb
  have hi' : i < a.chars.length := lt_of_lt_of_eq hi a.length_eq.symm
  show (a.chars.set i c).take (i + 1) = a.chars.take i ++ [c]
  rw [List.set_eq_take_append_cons_drop, if_pos hi', List.take_append,
    List.take_of_length_le (by rw [List.length_take]; omega), List.length_take,
    Nat.min_eq_left hi'.le, Nat.add_sub_cancel_left]
  rfl

omit [Zero α] [DecidableEq α] in
/-- A block that fits is written over the start of the array. -/
theorem blit?_eq (hs : s.length ≤ n) : ∃ b, a.blit? s = some b ∧
    b.chars = s ++ a.chars.drop s.length := ⟨_, dif_pos hs, rfl⟩

omit [DecidableEq α] in
/-- A string that fits with its terminator is written over the start of the array. -/
theorem copy?_eq (hs : s.length < n) : ∃ b, a.copy? s = some b ∧
    b.chars = s ++ 0 :: a.chars.drop (s.length + 1) := ⟨_, dif_pos hs, rfl⟩

/-- A copied string is the string of the array. -/
theorem text?_copy (hs : 0 ∉ s) (hb : a.copy? s = some b) :
    b.text? = some s ∧ b.chars.take s.length = s := by
  unfold copy? at hb
  split_ifs at hb with hlen
  cases hb
  exact ⟨text?_eq_some_iff.mpr ⟨hs, _, rfl⟩, by simp⟩

end CharArray
