import Mathlib.Data.UInt
import Mathlib.Tactic.Ring

/-!
# Byte memories

A memory gives a byte to each of the `2 ^ 64` addresses. Addresses are added modulo `2 ^ 64`, so a
span of bytes may go on at address 0.

* `Span.within_iff`: when a span lies within another one, in terms of their offset.
* `copy_at`, `copy_of_not_contains`, `fill_at`, `fill_of_not_contains`: `memmove` and `memset`.
* `loadLE_eq_iff`: two numbers in little-endian order are equal iff their bytes are.
* `ImageAt.loadLE`: a number in a file that has been read to memory is the number in the file.
* `load64_store64`, `load64_storeWords`: 64-bit numbers that are written can be read back, also many of
  them at separate offsets; `separate_packedOffset`: the words of a packed structure are separate.
-/

/-- `len` bytes from `start` on. -/
structure Span where
  /-- The first address. -/
  start : UInt64
  /-- The number of bytes. -/
  len : ℕ

namespace Span

variable {s t : Span} {a : UInt64} {k n : ℕ}

/-- The byte is one of the span. -/
def Contains (s : Span) (a : UInt64) : Prop := (a - s.start).toNat < s.len

/-- Whether a byte is one of a span is one subtraction and one comparison, also where the span
wraps. -/
instance decidableContains (s : Span) (a : UInt64) : Decidable (s.Contains a) := by
  unfold Contains
  infer_instance

/-- Every byte of `s` is one of `t`. -/
def Within (s t : Span) : Prop := ∀ a, s.Contains a → t.Contains a

/-- No byte of `s` is one of `t`. -/
def Apart (s t : Span) : Prop := ∀ a, s.Contains a → ¬t.Contains a

/-- Two spans are apart from each other in either order. -/
theorem Apart.symm (h : s.Apart t) : t.Apart s := fun a ht hs => h a hs ht

/-- What is apart stays apart in any parts. -/
theorem Apart.mono {s' t' : Span} (h : s.Apart t) (hs : s'.Within s) (ht : t'.Within t) :
    s'.Apart t' := fun a hs' ht' => h a (hs a hs') (ht a ht')

/-- A part of a part is a part. -/
theorem Within.trans {u : Span} (hst : s.Within t) (htu : t.Within u) : s.Within u :=
  fun a hs => htu a (hst a hs)

/-- The offset of an address that is reached from `start`. -/
theorem toNat_add_sub (hk : k < 2 ^ 64) : (a + UInt64.ofNat k - a).toNat = k := by
  rw [UInt64.add_comm, UInt64.add_sub_cancel, UInt64.toNat_ofNat', Nat.mod_eq_of_lt hk]

/-- The byte at an offset from the start is one of the span iff the offset is below its length. -/
theorem contains_add (hk : k < 2 ^ 64) : s.Contains (s.start + UInt64.ofNat k) ↔ k < s.len := by
  unfold Contains
  rw [toNat_add_sub hk]

/-- An address is its offset from `start`. -/
theorem start_add_offset (s : Span) (a : UInt64) :
    s.start + UInt64.ofNat (a - s.start).toNat = a := by
  rw [UInt64.ofNat_toNat, UInt64.add_comm, UInt64.sub_add_cancel]

/-- The addresses of a span. -/
theorem contains_iff_exists : s.Contains a ↔
    ∃ k, k < s.len ∧ k < 2 ^ 64 ∧ a = s.start + UInt64.ofNat k := by
  constructor
  · intro h
    exact ⟨(a - s.start).toNat, h, UInt64.toNat_lt _, (s.start_add_offset a).symm⟩
  · rintro ⟨k, hlen, hk, rfl⟩
    exact (contains_add hk).mpr hlen

/-- A span that does not wrap is an interval. -/
theorem contains_iff (h : s.start.toNat + s.len ≤ 2 ^ 64) :
    s.Contains a ↔ s.start.toNat ≤ a.toNat ∧ a.toNat < s.start.toNat + s.len := by
  have ha := UInt64.toNat_lt a
  have hs := UInt64.toNat_lt s.start
  unfold Contains
  rw [UInt64.toNat_sub]
  omega

/-- Two offsets, one after the other, are their sum. -/
theorem add_offset_add (a : UInt64) (k j : ℕ) :
    a + UInt64.ofNat k + UInt64.ofNat j = a + UInt64.ofNat (k + j) := by
  rw [UInt64.ofNat_add, UInt64.add_assoc]

/-- A part of a span. -/
theorem within_of_le (h : k + n ≤ 2 ^ 64) (hlen : k + n ≤ t.len) :
    (⟨t.start + UInt64.ofNat k, n⟩ : Span).Within t := by
  intro a ha
  obtain ⟨j, hj, -, rfl⟩ := contains_iff_exists.mp ha
  simp only at hj
  rw [add_offset_add]
  exact (contains_add (by omega)).mpr (by omega)

/-- **When a span at an offset is a part of another one.** -/
theorem within_iff (h : k + n ≤ 2 ^ 64) (hn : 0 < n) :
    (⟨t.start + UInt64.ofNat k, n⟩ : Span).Within t ↔ k + n ≤ t.len := by
  refine ⟨fun hwithin => ?_, within_of_le h⟩
  have hlast : (⟨t.start + UInt64.ofNat k, n⟩ : Span).Contains
      (t.start + UInt64.ofNat k + UInt64.ofNat (n - 1)) :=
    (contains_add (by omega)).mpr (Nat.sub_lt hn Nat.one_pos)
  have hin := hwithin _ hlast
  rw [add_offset_add, contains_add (by omega)] at hin
  omega

/-- Two parts of a span that follow each other. -/
theorem apart_of_le {start : UInt64} {k' n' : ℕ} (h : k + n ≤ k') (h' : k' + n' ≤ 2 ^ 64) :
    (⟨start + UInt64.ofNat k, n⟩ : Span).Apart ⟨start + UInt64.ofNat k', n'⟩ := by
  intro a ha ha'
  obtain ⟨j, hj, -, rfl⟩ := contains_iff_exists.mp ha
  obtain ⟨j', hj', -, heq⟩ := contains_iff_exists.mp ha'
  simp only at hj hj' heq
  rw [add_offset_add, add_offset_add] at heq
  have hoffset : (start + UInt64.ofNat (k + j) - start).toNat =
      (start + UInt64.ofNat (k' + j') - start).toNat := by rw [heq]
  rw [toNat_add_sub (by omega), toNat_add_sub (by omega)] at hoffset
  omega

/-- Two spans that do not wrap and follow each other. -/
theorem apart_of_toNat_le (hs : s.start.toNat + s.len ≤ t.start.toNat)
    (ht : t.start.toNat + t.len ≤ 2 ^ 64) : s.Apart t := by
  have hlt := UInt64.toNat_lt t.start
  intro a has hat
  rw [contains_iff (by omega)] at has hat
  omega

end Span

/-- The contents of a memory. -/
abbrev ByteMemory := UInt64 → UInt8

namespace ByteMemory

variable {m m' : ByteMemory} {a a' dst src : UInt64} {k n : ℕ} {v : UInt8}

/-- A memory with these bytes at these addresses and `0` everywhere else. -/
def sparse (bytes : List (UInt64 × UInt8)) : ByteMemory := fun a => (bytes.lookup a).getD 0

/-- Copy `n` bytes; the two spans may overlap. -/
def copy (m : ByteMemory) (dst src : UInt64) (n : ℕ) : ByteMemory :=
  fun a => if (⟨dst, n⟩ : Span).Contains a then m (src + (a - dst)) else m a

/-- Fill `n` bytes with a value. -/
def fill (m : ByteMemory) (dst : UInt64) (n : ℕ) (v : UInt8) : ByteMemory :=
  fun a => if (⟨dst, n⟩ : Span).Contains a then v else m a

/-- A copied byte is the one at the same offset of the source, as it was before. -/
theorem copy_at (hk : k < n) (hn : n ≤ 2 ^ 64) :
    m.copy dst src n (dst + UInt64.ofNat k) = m (src + UInt64.ofNat k) := by
  unfold copy
  rw [if_pos ((Span.contains_add (by omega)).mpr hk), UInt64.add_comm dst, UInt64.add_sub_cancel]

/-- Next to the destination a copy changes nothing. -/
theorem copy_of_not_contains (h : ¬(⟨dst, n⟩ : Span).Contains a) : m.copy dst src n a = m a :=
  if_neg h

/-- Every byte of a filled span is the value. -/
theorem fill_of_contains (h : (⟨dst, n⟩ : Span).Contains a) : m.fill dst n v a = v := if_pos h

/-- Next to the span that is filled nothing changes. -/
theorem fill_of_not_contains (h : ¬(⟨dst, n⟩ : Span).Contains a) : m.fill dst n v a = m a :=
  if_neg h

/-- The number in `n` bytes, the least significant first. -/
def loadLE (m : ByteMemory) (a : UInt64) : ℕ → ℕ
  | 0 => 0
  | n + 1 => (m a).toNat + 256 * loadLE m (a + 1) n

/-- The first byte is the least significant one, and the others count 256 times as much. -/
theorem loadLE_succ : m.loadLE a (n + 1) = (m a).toNat + 256 * m.loadLE (a + 1) n := rfl

/-- A number is equal to another one iff its bytes are. -/
theorem loadLE_eq_iff : m.loadLE a n = m'.loadLE a' n ↔
    ∀ j < n, m (a + UInt64.ofNat j) = m' (a' + UInt64.ofNat j) := by
  induction n generalizing a a' with
  | zero => exact iff_of_true rfl fun j hj => absurd hj (Nat.not_lt_zero j)
  | succ n ih =>
      have hm := UInt8.toNat_lt (m a)
      have hm' := UInt8.toNat_lt (m' a')
      have hdigits : m.loadLE a (n + 1) = m'.loadLE a' (n + 1) ↔
          (m a).toNat = (m' a').toNat ∧ m.loadLE (a + 1) n = m'.loadLE (a' + 1) n := by
        rw [loadLE_succ, loadLE_succ]
        omega
      have hnext : ∀ (b : UInt64) (j : ℕ),
          b + 1 + UInt64.ofNat j = b + UInt64.ofNat (j + 1) := by
        intro b j
        rw [UInt64.ofNat_add, UInt64.add_assoc, UInt64.add_comm (UInt64.ofNat j)]
        rfl
      rw [hdigits, ih]
      constructor
      · rintro ⟨hfirst, hrest⟩ j hj
        cases j with
        | zero =>
            show m (a + 0) = m' (a' + 0)
            rw [UInt64.add_zero, UInt64.add_zero]
            exact UInt8.toNat_inj.mp hfirst
        | succ j =>
            rw [← hnext, ← hnext]
            exact hrest j (Nat.lt_of_succ_lt_succ hj)
      · intro hall
        refine ⟨?_, fun j hj => ?_⟩
        · have hfirst : m (a + 0) = m' (a' + 0) := hall 0 (Nat.succ_pos n)
          rw [UInt64.add_zero, UInt64.add_zero] at hfirst
          rw [hfirst]
        · rw [hnext, hnext]
          exact hall (j + 1) (Nat.succ_lt_succ hj)

/-- The first `size` bytes of `contents` are in the memory, from `base` on. -/
def ImageAt (m : ByteMemory) (base : UInt64) (contents : ByteMemory) (size : ℕ) : Prop :=
  ∀ k < size, m (base + UInt64.ofNat k) = contents (UInt64.ofNat k)

/-- A number in an image. -/
theorem ImageAt.loadLE {base : UInt64} {contents : ByteMemory} {size : ℕ}
    (h : m.ImageAt base contents size) (hk : k + n ≤ size) :
    m.loadLE (base + UInt64.ofNat k) n = contents.loadLE (0 + UInt64.ofNat k) n := by
  apply loadLE_eq_iff.mpr
  intro j hj
  rw [UInt64.add_assoc, ← UInt64.ofNat_add, h (k + j) (by omega), UInt64.zero_add,
    ← UInt64.ofNat_add]

/-- Writing next to an image leaves it as it is. -/
theorem ImageAt.congr {base : UInt64} {contents : ByteMemory} {size : ℕ}
    (h : m.ImageAt base contents size) (hsize : size ≤ 2 ^ 64)
    (hsame : ∀ a, (⟨base, size⟩ : Span).Contains a → m' a = m a) : m'.ImageAt base contents size := by
  intro k hk
  rw [hsame _ ((Span.contains_add (by omega)).mpr hk)]
  exact h k hk

/-- A number of `n` bytes is below `256 ^ n`. -/
theorem loadLE_lt : m.loadLE a n < 256 ^ n := by
  induction n generalizing a with
  | zero => exact Nat.one_pos
  | succ n ih =>
      have hbyte := UInt8.toNat_lt (m a)
      have hrest : m.loadLE (a + 1) n < 256 ^ n := ih
      rw [loadLE_succ, pow_succ]
      omega

/-! ## Words -/

/-- The 64-bit number at an address. -/
def load64 (m : ByteMemory) (a : UInt64) : UInt64 := UInt64.ofNat (m.loadLE a 8)

/-- Write a 64-bit number. -/
def store64 (m : ByteMemory) (a v : UInt64) : ByteMemory := fun b =>
  if (⟨a, 8⟩ : Span).Contains b then UInt8.ofNat (v.toNat / 256 ^ (b - a).toNat) else m b

/-- Write some bytes. -/
def storeBytes (m : ByteMemory) (a : UInt64) {n : ℕ} (bytes : Fin n → UInt8) : ByteMemory := fun b =>
  if h : (b - a).toNat < n then bytes ⟨(b - a).toNat, h⟩ else m b

/-- The bytes at an address. -/
def loadBytes (m : ByteMemory) (a : UInt64) (n : ℕ) : Fin n → UInt8 := fun i =>
  m (a + UInt64.ofNat i)

/-- Write 64-bit numbers one after the other, each at the offset of its key from an address. -/
def storeWords {ι : Type*} (m : ByteMemory) (a : UInt64) (offset value : ι → UInt64) (keys : List ι) :
    ByteMemory :=
  keys.foldl (fun m k => m.store64 (a + offset k) (value k)) m

/-- Two 64-bit numbers at these offsets do not overlap. -/
def Separate (d d' : UInt64) : Prop := 8 ≤ (d - d').toNat ∧ 8 ≤ (d' - d).toNat

section words

variable {m m' : ByteMemory} {a b d v : UInt64} {n len : ℕ} {words : List (UInt64 × UInt64)}

/-- A number is made of its digits. -/
theorem loadLE_of_digits {x : ℕ}
    (h : ∀ j < n, (m (a + UInt64.ofNat j)).toNat = x / 256 ^ j % 256) :
    m.loadLE a n = x % 256 ^ n := by
  induction n generalizing a x with
  | zero => exact (Nat.mod_one x).symm
  | succ n ih =>
      have hfirst : (m a).toNat = x % 256 := by
        have h₀ := h 0 (Nat.succ_pos n)
        rwa [show a + UInt64.ofNat 0 = a from UInt64.add_zero a, pow_zero, Nat.div_one] at h₀
      have hrest : m.loadLE (a + 1) n = x / 256 % 256 ^ n := by
        refine ih fun j hj => ?_
        have hnext : a + 1 + UInt64.ofNat j = a + UInt64.ofNat (j + 1) := by
          rw [UInt64.ofNat_add, UInt64.add_assoc, UInt64.add_comm (UInt64.ofNat j)]
          rfl
        rw [hnext, h (j + 1) (Nat.succ_lt_succ hj), Nat.div_div_eq_div_mul, pow_succ']
      rw [loadLE_succ, hfirst, hrest, pow_succ', Nat.mod_mul]

/-- A number is read from its eight bytes only. -/
theorem load64_congr (h : ∀ b, (⟨a, 8⟩ : Span).Contains b → m' b = m b) :
    m'.load64 a = m.load64 a := by
  unfold load64
  refine congrArg UInt64.ofNat (loadLE_eq_iff.mpr fun j hj => h _ ?_)
  exact (Span.contains_add (by omega)).mpr hj

/-- Eight bytes of `0` are the number `0`. -/
theorem load64_eq_zero (h : ∀ b, (⟨a, 8⟩ : Span).Contains b → m b = 0) : m.load64 a = 0 := by
  have hdigits : m.loadLE a 8 = 0 % 256 ^ 8 := by
    refine loadLE_of_digits fun j hj => ?_
    rw [h _ ((Span.contains_add (by omega)).mpr hj), Nat.zero_div]
    rfl
  unfold load64
  rw [hdigits]
  rfl

/-- A number that is stored can be loaded again. -/
theorem load64_store64 : (m.store64 a v).load64 a = v := by
  have hdigits : (m.store64 a v).loadLE a 8 = v.toNat % 256 ^ 8 := by
    refine loadLE_of_digits fun j hj => ?_
    unfold store64
    rw [if_pos ((Span.contains_add (by omega)).mpr hj), Span.toNat_add_sub (by omega),
      UInt8.toNat_ofNat']
  have hlt : v.toNat < 256 ^ 8 := UInt64.toNat_lt v
  unfold load64
  rw [hdigits, Nat.mod_eq_of_lt hlt, UInt64.ofNat_toNat]

/-- Next to its eight bytes a store changes nothing. -/
theorem store64_of_not_contains (h : ¬(⟨a, 8⟩ : Span).Contains b) : m.store64 a v b = m b := if_neg h

/-- A byte depends on the same byte of the memory before. -/
theorem store64_congr (h : m' b = m b) : m'.store64 a v b = m.store64 a v b := by
  unfold store64
  rw [h]

/-- A store does not change a number whose bytes are apart from its own. -/
theorem load64_store64_of_apart (h : (⟨b, 8⟩ : Span).Apart ⟨a, 8⟩) :
    (m.store64 a v).load64 b = m.load64 b :=
  load64_congr fun c hc => store64_of_not_contains (h c hc)

/-- Two numbers at separate offsets. -/
theorem apart_of_separate {d' : UInt64} (h : Separate d d') :
    (⟨a + d, 8⟩ : Span).Apart ⟨a + d', 8⟩ := by
  intro b hb hb'
  obtain ⟨hle, hle'⟩ := h
  obtain ⟨j, hj, -, rfl⟩ := Span.contains_iff_exists.mp hb
  obtain ⟨j', hj', -, heq⟩ := Span.contains_iff_exists.mp hb'
  simp only [UInt64.add_assoc] at hj hj' heq
  have hsum : (d + UInt64.ofNat j).toNat = (d' + UInt64.ofNat j').toNat :=
    congrArg UInt64.toNat ((UInt64.add_right_inj a).mp heq)
  have hd := UInt64.toNat_lt d
  have hd' := UInt64.toNat_lt d'
  rw [UInt64.toNat_sub] at hle hle'
  rw [UInt64.toNat_add, UInt64.toNat_add, UInt64.toNat_ofNat', UInt64.toNat_ofNat'] at hsum
  omega

/-- A part of a span, at an offset. -/
theorem within_of_offset (h : d.toNat + n ≤ len) : (⟨a + d, n⟩ : Span).Within ⟨a, len⟩ := by
  intro b hb
  obtain ⟨j, hj, -, rfl⟩ := Span.contains_iff_exists.mp hb
  unfold Span.Contains
  simp only [UInt64.add_assoc] at hj ⊢
  rw [UInt64.add_comm a, UInt64.add_sub_cancel, UInt64.toNat_add, UInt64.toNat_ofNat']
  have hlt := UInt64.toNat_lt d
  omega

/-- Two parts of a span that follow each other, at offsets. -/
theorem apart_of_offset {d' : UInt64} {n' : ℕ} (h : d.toNat + n ≤ d'.toNat)
    (h' : d'.toNat + n' ≤ 2 ^ 64) : (⟨a + d, n⟩ : Span).Apart ⟨a + d', n'⟩ := by
  have hapart : (⟨a + UInt64.ofNat d.toNat, n⟩ : Span).Apart ⟨a + UInt64.ofNat d'.toNat, n'⟩ :=
    Span.apart_of_le h h'
  rwa [UInt64.ofNat_toNat, UInt64.ofNat_toNat] at hapart

/-- The bytes that are loaded are those of the span only. -/
theorem loadBytes_congr (hn : n ≤ 2 ^ 64) (h : ∀ b, (⟨a, n⟩ : Span).Contains b → m' b = m b) :
    m'.loadBytes a n = m.loadBytes a n := by
  funext i
  exact h _ ((Span.contains_add (by omega)).mpr i.isLt)

/-- Each byte is stored at its offset. -/
theorem storeBytes_at {bytes : Fin n → UInt8} (hn : n ≤ 2 ^ 64) (i : Fin n) :
    m.storeBytes a bytes (a + UInt64.ofNat i) = bytes i := by
  have hoffset : (a + UInt64.ofNat i - a).toNat = i := Span.toNat_add_sub (by omega)
  unfold storeBytes
  simp only [hoffset, i.isLt, dif_pos]

/-- Bytes that are stored can be loaded again. -/
theorem loadBytes_storeBytes {bytes : Fin n → UInt8} (hn : n ≤ 2 ^ 64) :
    (m.storeBytes a bytes).loadBytes a n = bytes :=
  funext fun i => storeBytes_at hn i

/-- Next to the span nothing is stored. -/
theorem storeBytes_of_not_contains {bytes : Fin n → UInt8} (h : ¬(⟨a, n⟩ : Span).Contains b) :
    m.storeBytes a bytes b = m b := dif_neg h

/-! ### Several words -/

variable {ι : Type*} {offset value : ι → UInt64} {keys : List ι} {k : ι}

/-- The first word is stored before the others. -/
theorem storeWords_cons (m : ByteMemory) (a : UInt64) (offset value : ι → UInt64) (k : ι)
    (keys : List ι) : m.storeWords a offset value (k :: keys) =
      (m.store64 (a + offset k) (value k)).storeWords a offset value keys := rfl

/-- Words are stored in the order of the list. -/
theorem storeWords_append (m : ByteMemory) (keys' : List ι) :
    m.storeWords a offset value (keys ++ keys') =
      (m.storeWords a offset value keys).storeWords a offset value keys' := List.foldl_append

/-- What is outside of the block stays. -/
theorem storeWords_of_not_contains (hkeys : ∀ k ∈ keys, (offset k).toNat + 8 ≤ len)
    (hb : ¬(⟨a, len⟩ : Span).Contains b) : m.storeWords a offset value keys b = m b := by
  induction keys generalizing m with
  | nil => rfl
  | cons k keys ih =>
      obtain ⟨hk, hkeys⟩ := List.forall_mem_cons.mp hkeys
      rw [storeWords_cons, ih hkeys]
      exact store64_of_not_contains fun hin => hb (within_of_offset hk b hin)

/-- A number next to the block stays. -/
theorem load64_storeWords_of_apart (hkeys : ∀ k ∈ keys, (offset k).toNat + 8 ≤ len)
    (h : (⟨b, 8⟩ : Span).Apart ⟨a, len⟩) :
    (m.storeWords a offset value keys).load64 b = m.load64 b :=
  load64_congr fun c hc => storeWords_of_not_contains hkeys (h c hc)

/-- A number that is not written. -/
theorem load64_storeWords_of_separate (h : ∀ k ∈ keys, Separate d (offset k)) :
    (m.storeWords a offset value keys).load64 (a + d) = m.load64 (a + d) := by
  induction keys generalizing m with
  | nil => rfl
  | cons k keys ih =>
      obtain ⟨hk, hkeys⟩ := List.forall_mem_cons.mp h
      rw [storeWords_cons, ih hkeys, load64_store64_of_apart (apart_of_separate hk)]

/-- **A number that is written can be read back.** -/
theorem load64_storeWords (h : ∀ k' ∈ keys, k' ≠ k → Separate (offset k) (offset k'))
    (hk : k ∈ keys) : (m.storeWords a offset value keys).load64 (a + offset k) = value k := by
  induction keys generalizing m with
  | nil => exact absurd hk List.not_mem_nil
  | cons k' keys ih =>
      obtain ⟨-, hkeys⟩ := List.forall_mem_cons.mp h
      by_cases hlater : k ∈ keys
      · exact ih hkeys hlater
      · obtain rfl : k = k' := (List.mem_cons.mp hk).resolve_right hlater
        rw [storeWords_cons, load64_storeWords_of_separate, load64_store64]
        intro k' hk'
        refine hkeys k' hk' ?_
        rintro rfl
        exact hlater hk'

/-- A byte afterwards depends on the same byte before. -/
theorem storeWords_congr (h : m' b = m b) :
    m'.storeWords a offset value keys b = m.storeWords a offset value keys b := by
  induction keys generalizing m m' with
  | nil => exact h
  | cons k keys ih =>
      exact ih (store64_congr h)

/-- A number next to the block can be written first. -/
theorem store64_storeWords (hkeys : ∀ k ∈ keys, (offset k).toNat + 8 ≤ len)
    (h : (⟨b, 8⟩ : Span).Apart ⟨a, len⟩) :
    (m.storeWords a offset value keys).store64 b v =
      (m.store64 b v).storeWords a offset value keys := by
  funext c
  by_cases hc : (⟨b, 8⟩ : Span).Contains c
  · rw [storeWords_of_not_contains hkeys (h c hc)]
    unfold store64
    rw [if_pos hc, if_pos hc]
  · rw [store64_of_not_contains hc]
    exact (storeWords_congr (store64_of_not_contains hc)).symm

/-! ### Packed structures -/

/-- The offset of a word in a packed structure of words. -/
def packedOffset [DecidableEq ι] (layout : List ι) (k : ι) : UInt64 :=
  UInt64.ofNat (8 * layout.idxOf k)

section packed

variable [DecidableEq ι] {layout : List ι} {k' : ι}

/-- The offset of a word is eight bytes for each word before it, unless that is more than an address
can say. -/
theorem toNat_packedOffset (h : 8 * layout.length < 2 ^ 64) :
    (packedOffset layout k).toNat = 8 * layout.idxOf k := by
  have hidx : layout.idxOf k ≤ layout.length := List.idxOf_le_length
  unfold packedOffset
  rw [UInt64.toNat_ofNat']
  omega

/-- A word lies inside of its structure. -/
theorem packedOffset_add_le (h : 8 * layout.length < 2 ^ 64) (hk : k ∈ layout) :
    (packedOffset layout k).toNat + 8 ≤ 8 * layout.length := by
  have hidx := List.idxOf_lt_length_of_mem hk
  rw [toNat_packedOffset h]
  omega

/-- Two words of a structure do not overlap. -/
theorem separate_packedOffset (h : 8 * layout.length < 2 ^ 64) (hk : k ∈ layout) (hk' : k' ∈ layout)
    (hne : k ≠ k') : Separate (packedOffset layout k) (packedOffset layout k') := by
  have hidx : layout.idxOf k ≠ layout.idxOf k' := fun heq => hne ((List.idxOf_inj hk).mp heq)
  have hin := packedOffset_add_le h hk
  have hin' := packedOffset_add_le h hk'
  unfold Separate
  simp only [UInt64.toNat_sub, toNat_packedOffset h] at hin hin' ⊢
  omega

end packed

end words

end ByteMemory
