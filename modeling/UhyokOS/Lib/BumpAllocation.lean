import UhyokOS.Lib.ByteMemory

/-!
# Bump allocation

An allocator that moves a pointer up through a pool. A request may ask for an alignment, and for a
boundary that its block must not cross; `0` asks for nothing.

* `place` is where the next block goes, `le_place`, `dvd_place` and `place_uncrossed` are its contract.
* `toNat_and_not_sub_one`: the usual mask rounds down to a power of two.
* `Stacked`: blocks that follow each other. They lie in their pool and do not overlap.
-/

namespace BumpAllocation

variable {n a b ptr size align boundary : ℕ}

/-! ## Alignments -/

/-- Between two multiples of `a` there is room for `a`. -/
theorem add_le_of_dvd_of_lt {v m : ℕ} (hv : a ∣ v) (hm : a ∣ m) (hlt : v < m) : v + a ≤ m :=
  Nat.le_of_lt_add_of_dvd (Nat.add_lt_add_right hlt a) (Nat.dvd_add_self_right.mpr hv) hm

/-- The least multiple of `a` from `n` on. -/
def roundUp (n a : ℕ) : ℕ := if a = 0 then n else (n + (a - 1)) / a * a

/-- An alignment of `0` asks for nothing. -/
@[simp] theorem roundUp_zero (n : ℕ) : roundUp n 0 = n := if_pos rfl

/-- Rounding up does not go down. -/
theorem le_roundUp (n a : ℕ) : n ≤ roundUp n a := by
  unfold roundUp
  split_ifs with ha
  · exact le_rfl
  · have := Nat.div_add_mod (n + (a - 1)) a
    have := Nat.mod_lt (n + (a - 1)) (Nat.pos_of_ne_zero ha)
    have := Nat.mul_comm a ((n + (a - 1)) / a)
    omega

/-- The rounded number is a multiple of the alignment. -/
theorem dvd_roundUp (n : ℕ) (ha : a ≠ 0) : a ∣ roundUp n a := by
  unfold roundUp
  rw [if_neg ha]
  exact Nat.dvd_mul_left a _

/-- Rounding up goes by less than one alignment. -/
theorem roundUp_lt (n : ℕ) (ha : a ≠ 0) : roundUp n a < n + a := by
  unfold roundUp
  rw [if_neg ha]
  have := Nat.div_mul_le_self (n + (a - 1)) a
  omega

/-- It is the least multiple. -/
theorem roundUp_le_of_dvd {m : ℕ} (ha : a ≠ 0) (hm : a ∣ m) (hle : n ≤ m) : roundUp n a ≤ m := by
  by_contra hlt
  have hroom : m + a ≤ roundUp n a :=
    add_le_of_dvd_of_lt hm (dvd_roundUp n ha) (not_le.mp hlt)
  have := roundUp_lt n ha
  omega

/-- A multiple stays where it is. -/
theorem roundUp_of_dvd (h : a ∣ n) : roundUp n a = n := by
  unfold roundUp
  split_ifs with ha
  · rfl
  · obtain ⟨k, rfl⟩ := h
    rw [Nat.mul_add_div (Nat.pos_of_ne_zero ha), Nat.div_eq_of_lt (by omega), Nat.add_zero,
      Nat.mul_comm]

/-- `0` and the powers of two. -/
def IsAlignment (a : ℕ) : Prop := a = 0 ∨ ∃ k, a = 2 ^ k

/-- Of two powers of two one divides the other. -/
theorem IsAlignment.dvd_or_dvd (ha : IsAlignment a) (hb : IsAlignment b) : a ∣ b ∨ b ∣ a := by
  rcases ha with rfl | ⟨i, rfl⟩
  · exact Or.inr (dvd_zero b)
  · rcases hb with rfl | ⟨j, rfl⟩
    · exact Or.inl (dvd_zero _)
    · exact (le_total i j).imp (Nat.pow_dvd_pow 2) (Nat.pow_dvd_pow 2)

/-- Between a multiple of an alignment and a power of two there is room for the alignment. -/
theorem IsAlignment.add_le {v m : ℕ} (ha : IsAlignment a) (hle : a ≤ 2 ^ m) (hdvd : a ∣ v)
    (hv : v < 2 ^ m) : v + a ≤ 2 ^ m := by
  rcases Nat.eq_zero_or_pos a with rfl | hpos
  · exact hv.le
  · have hpow : a ∣ 2 ^ m := by
      rcases ha.dvd_or_dvd (Or.inr ⟨m, rfl⟩) with h | h
      · exact h
      · rw [Nat.le_antisymm hle (Nat.le_of_dvd hpos h)]
    exact add_le_of_dvd_of_lt hdvd hpow hv

/-- The usual mask rounds down to a power of two; bit by bit. -/
theorem toNat_and_not_sub_one (x : UInt64) {a : UInt64} {k : ℕ} (ha : a.toNat = 2 ^ k) :
    (x &&& ~~~(a - 1)).toNat = x.toNat / 2 ^ k * 2 ^ k := by
  have hpos : 0 < 2 ^ k := Nat.two_pow_pos k
  have hlt := UInt64.toNat_lt a
  have hone : (a - 1).toNat = 2 ^ k - 1 := by
    rw [UInt64.toNat_sub_of_le _ _ (by rw [UInt64.le_iff_toNat_le, ha]; exact hpos), ha]
    rfl
  have hmask : (~~~(a - 1)).toNat = 2 ^ 64 - (2 ^ k - 1 + 1) := by
    rw [UInt64.toNat_not, hone, Nat.sub_sub, Nat.add_comm 1]
    rfl
  apply Nat.eq_of_testBit_eq
  intro i
  rw [UInt64.toNat_and, hmask, Nat.testBit_and, Nat.testBit_two_pow_sub_succ (by omega),
    Nat.testBit_two_pow_sub_one, Nat.testBit_mul_two_pow, Nat.testBit_div_two_pow]
  by_cases hk : k ≤ i
  · rw [Nat.sub_add_cancel hk]
    by_cases hi : i < 64
    · simp [hk, hi]
    · have hx : x.toNat.testBit i = false := Nat.testBit_lt_two_pow
        ((UInt64.toNat_lt x).trans_le (Nat.pow_le_pow_right (by decide) (by omega)))
      simp [hx]
  · have hik : i < k := by omega
    simp [hk, hik]

/-! ## Places -/

/-- Where a block of `size` bytes goes. -/
def place (ptr size align boundary : ℕ) : ℕ :=
  if roundUp (roundUp ptr align) boundary < roundUp ptr align + size then
    roundUp (roundUp ptr align) boundary
  else roundUp ptr align

/-- A place is aligned before it is moved to the next boundary, so it is not below the aligned
pointer. -/
theorem roundUp_le_place (ptr size align boundary : ℕ) :
    roundUp ptr align ≤ place ptr size align boundary := by
  unfold place
  split_ifs
  · exact le_roundUp _ boundary
  · exact le_rfl

/-- No place is below the pointer. -/
theorem le_place (ptr size align boundary : ℕ) : ptr ≤ place ptr size align boundary :=
  (le_roundUp ptr align).trans (roundUp_le_place ptr size align boundary)

/-- Rounding up to a boundary keeps an alignment. -/
theorem dvd_roundUp_of_dvd (ha : IsAlignment align) (hb : IsAlignment boundary) (h : align ∣ n) :
    align ∣ roundUp n boundary := by
  by_cases hzero : boundary = 0
  · rw [hzero, roundUp_zero]
    exact h
  · rcases ha.dvd_or_dvd hb with hdvd | hdvd
    · exact hdvd.trans (dvd_roundUp n hzero)
    · rw [roundUp_of_dvd (hdvd.trans h)]
      exact h

/-- A place is aligned, also where it was moved to a boundary: of two powers of two one divides the
other. -/
theorem dvd_place (ha : IsAlignment align) (hb : IsAlignment boundary) (hzero : align ≠ 0)
    (ptr size : ℕ) : align ∣ place ptr size align boundary := by
  have hdvd : align ∣ roundUp ptr align := dvd_roundUp ptr hzero
  unfold place
  split_ifs
  · exact dvd_roundUp_of_dvd ha hb hdvd
  · exact hdvd

/-- A block that is no longer than its boundary has no multiple of it inside. -/
theorem place_uncrossed {m : ℕ} (hzero : boundary ≠ 0) (hsize : size ≤ boundary) (hm : boundary ∣ m) :
    ¬(place ptr size align boundary < m ∧ m < place ptr size align boundary + size) := by
  rintro ⟨hlow, hhigh⟩
  unfold place at hlow hhigh
  split_ifs at hlow hhigh with hlt
  · -- the block starts at a multiple, and the next one is a boundary further
    have := add_le_of_dvd_of_lt (dvd_roundUp _ hzero) hm hlow
    omega
  · -- the block ends before the first multiple behind its start
    have := roundUp_le_of_dvd hzero hm hlow.le
    omega

/-! ## Blocks -/

/-- The blocks follow each other between two addresses. -/
def Stacked : ℕ → List Span → ℕ → Prop
  | low, [], high => low ≤ high
  | low, s :: spans, high => low ≤ s.start.toNat ∧ Stacked (s.start.toNat + s.len) spans high

namespace Stacked

variable {low mid high : ℕ} {spans spans' : List Span} {s : Span}

/-- Spans that are stacked on others are stacked with them. -/
theorem append (h : Stacked low spans mid) (h' : Stacked mid spans' high) :
    Stacked low (spans ++ spans') high := by
  induction spans generalizing low with
  | nil =>
      cases spans' with
      | nil => exact Nat.le_trans h h'
      | cons s' spans' => exact ⟨Nat.le_trans h h'.1, h'.2⟩
  | cons s spans ih => exact ⟨h.1, ih h.2⟩

/-- The stack grows upwards. -/
theorem le (h : Stacked low spans high) : low ≤ high := by
  induction spans generalizing low with
  | nil => exact h
  | cons s spans ih => exact h.1.trans ((Nat.le_add_right _ _).trans (ih h.2))

/-- Every block lies between the two addresses. -/
theorem bounds (h : Stacked low spans high) (hs : s ∈ spans) :
    low ≤ s.start.toNat ∧ s.start.toNat + s.len ≤ high := by
  induction spans generalizing low with
  | nil => cases hs
  | cons t spans ih =>
      rcases List.mem_cons.mp hs with rfl | hs
      · exact ⟨h.1, h.2.le⟩
      · obtain ⟨hlow, hhigh⟩ := ih h.2 hs
        exact ⟨h.1.trans ((Nat.le_add_right _ _).trans hlow), hhigh⟩

/-- The blocks of a pool lie in it. -/
theorem within (h : Stacked low spans high) (hs : s ∈ spans) {pool : Span}
    (hlow : pool.start.toNat ≤ low) (hhigh : high ≤ pool.start.toNat + pool.len)
    (hpool : pool.start.toNat + pool.len ≤ 2 ^ 64) : s.Within pool := by
  obtain ⟨hstart, hend⟩ := h.bounds hs
  intro a ha
  rw [Span.contains_iff (by omega)] at ha ⊢
  omega

/-- No two blocks overlap. -/
theorem apart (h : Stacked low spans high) (hhigh : high ≤ 2 ^ 64) :
    spans.Pairwise Span.Apart := by
  induction spans generalizing low with
  | nil => exact List.Pairwise.nil
  | cons s spans ih =>
      refine List.pairwise_cons.mpr ⟨fun t ht a ha hat => ?_, ih h.2⟩
      obtain ⟨hstart, hend⟩ := h.2.bounds ht
      rw [Span.contains_iff (by omega)] at ha hat
      omega

end Stacked

end BumpAllocation
