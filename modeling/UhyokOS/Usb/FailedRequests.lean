import UhyokOS.Usb.MemoryRuns

/-!
# Requests that fail

`AllocMem` rounds `alloc_ptr` up before it checks whether the block fits, and does not undo it. Here
alignments, boundaries, sizes and addresses are arbitrary, so every sum may wrap.

* `alignTo_bounds`: what rounding up does to any address.
* `placed_eq_self_iff`: the block goes where `alloc_ptr` is iff neither rounding step moves it.
* `failed_request_iff`: exactly then a request that fails costs nothing.
-/

namespace UhyokOS

/-! ## Rounding up any address -/

section ceil

variable {v : UInt64} {a : UInt32}

/-- A word is its bits inside and outside a mask. -/
theorem and_add_and_not (x m : UInt64) : (x &&& m) + (x &&& ~~~m) = x := by
  apply UInt64.toBitVec_inj.mp
  show (x.toBitVec &&& m.toBitVec) + (x.toBitVec &&& ~~~m.toBitVec) = x.toBitVec
  rw [BitVec.add_eq_or_of_and_eq_zero, ← BitVec.and_or_distrib_left, BitVec.or_not_self,
    BitVec.and_allOnes]
  rw [BitVec.and_comm x.toBitVec m.toBitVec, BitVec.and_assoc, ← BitVec.and_assoc x.toBitVec,
    BitVec.and_self, BitVec.and_comm x.toBitVec, ← BitVec.and_assoc, BitVec.and_not_self]
  exact BitVec.zero_and

/-- Without the bits of a mask a word is smaller, but by no more than the mask. -/
theorem and_not_bounds (x m : UInt64) :
    (x &&& ~~~m).toNat ≤ x.toNat ∧ x.toNat ≤ (x &&& ~~~m).toNat + m.toNat := by
  have hle : (x &&& m).toNat ≤ m.toNat := by
    rw [UInt64.toNat_and]
    exact Nat.and_le_right
  have hle' : (x &&& ~~~m).toNat ≤ x.toNat := by
    rw [UInt64.toNat_and]
    exact Nat.and_le_left
  have hsum := congrArg UInt64.toNat (and_add_and_not x m)
  have hx := x.toNat_lt
  rw [UInt64.toNat_add] at hsum
  omega

theorem alignTo_of_pos (ha : a > 0) (v : UInt64) :
    alignTo v a = (v + (a - 1).toUInt64) &&& ~~~(a - 1).toUInt64 := by
  unfold alignTo ceil
  rw [if_pos ha, toUInt64_sub_one (UInt32.lt_iff_toNat_lt.mp ha)]
  congr 1
  grind

/-- Rounding up moves an address up by less than `2 ^ 32`, or wraps to a low address. -/
theorem alignTo_bounds (v : UInt64) (a : UInt32) :
    (v.toNat ≤ (alignTo v a).toNat ∧ (alignTo v a).toNat < v.toNat + 2 ^ 32) ∨
      (2 ^ 64 ≤ v.toNat + 2 ^ 32 ∧ (alignTo v a).toNat < 2 ^ 32) := by
  by_cases ha : a > 0
  · have hm : (a - 1).toUInt64.toNat < 2 ^ 32 := by
      rw [UInt32.toNat_toUInt64]
      exact UInt32.toNat_lt _
    obtain ⟨hhigh, hlow⟩ := and_not_bounds (v + (a - 1).toUInt64) (a - 1).toUInt64
    have hv := v.toNat_lt
    rw [alignTo_of_pos ha]
    generalize (a - 1).toUInt64 = m at *
    rw [UInt64.toNat_add] at hhigh hlow
    omega
  · unfold alignTo
    rw [if_neg ha]
    omega

/-- The null pointer is aligned to everything. -/
theorem alignTo_null (a : UInt32) : alignTo 0 a = 0 := by
  by_cases ha : a > 0
  · rw [alignTo_of_pos ha, UInt64.zero_add]
    apply UInt64.toBitVec_inj.mp
    exact BitVec.and_not_self _
  · unfold alignTo
    rw [if_neg ha]

end ceil

/-! ## The place of a block -/

namespace UsbMemory

variable {ptr size : UInt64} {alignment boundary : UInt32}

/-- Neither rounding step moves `alloc_ptr`: it is aligned, and it is on a boundary or the block ends
before the next one. -/
def Unmoved (ptr size : UInt64) (alignment boundary : UInt32) : Prop :=
  alignTo ptr alignment = ptr ∧ (alignTo ptr boundary = ptr ∨ ptr + size ≤ alignTo ptr boundary)

theorem placed_eq_self_iff :
    placed ptr size alignment boundary = ptr ↔ Unmoved ptr size alignment boundary := by
  unfold Unmoved
  rw [placed_eq]
  by_cases hx : alignTo ptr alignment = ptr
  · rw [hx, and_iff_right rfl]
    split_ifs with hlt
    · exact (or_iff_left (UInt64.not_le.mpr hlt)).symm
    · exact iff_of_true rfl (Or.inr (UInt64.not_lt.mp hlt))
  · refine iff_of_false ?_ fun h => hx h.1
    -- the second step does not undo the first one
    have hne : (alignTo ptr alignment).toNat ≠ ptr.toNat := fun h => hx (UInt64.toNat_inj.mp h)
    have hfirst := alignTo_bounds ptr alignment
    have hsecond := alignTo_bounds (alignTo ptr alignment) boundary
    have hlt := ptr.toNat_lt
    have hlt' := (alignTo ptr alignment).toNat_lt
    split_ifs
    · intro heq
      rw [heq] at hsecond
      omega
    · exact hx

/-- The block would be at the null pointer: rounding up wraps. -/
theorem placed_eq_zero_iff :
    placed ptr size alignment boundary = 0 ↔
      alignTo ptr alignment = 0 ∨
        (alignTo (alignTo ptr alignment) boundary = 0 ∧ alignTo ptr alignment + size ≠ 0) := by
  have hpos : ∀ x : UInt64, 0 < x ↔ x ≠ 0 := fun x => by
    rw [UInt64.lt_iff_toNat_lt, UInt64.toNat_zero, Nat.pos_iff_ne_zero, ne_eq, ne_eq,
      ← UInt64.toNat_inj, UInt64.toNat_zero]
  rw [placed_eq]
  by_cases hx : alignTo ptr alignment = 0
  · rw [hx, alignTo_null, ite_self]
    exact iff_of_true rfl (Or.inl rfl)
  · rw [or_iff_right hx]
    split_ifs with hlt
    · refine ⟨fun hy => ⟨hy, ?_⟩, And.left⟩
      rw [hy] at hlt
      exact (hpos _).mp hlt
    · refine iff_of_false hx ?_
      rintro ⟨hy, hne⟩
      rw [hy] at hlt
      exact hlt ((hpos _).mpr hne)

/-! ## What a failed request costs -/

/-- The allocator after some requests. -/
def after (mem : UsbMemory) (rs : List AllocRequest) : UsbMemory :=
  rs.foldl (fun mem r => (mem.allocMem r.size r.alignment r.boundary).2) mem

/-- The request gets a block. -/
def Succeeds (mem : UsbMemory) (r : AllocRequest) : Prop :=
  (mem.allocMem r.size r.alignment r.boundary).1 ≠ 0

/-- A request leaves `alloc_ptr` alone, and whatever is asked for afterwards, a request that would have
got a block without it still gets one. -/
structure CostsNothing (mem : UsbMemory) (r : AllocRequest) : Prop where
  unchanged : (mem.allocMem r.size r.alignment r.boundary).2.allocPtr = mem.allocPtr
  later : ∀ rs r', (mem.after rs).Succeeds r' →
    ((mem.allocMem r.size r.alignment r.boundary).2.after rs).Succeeds r'

/-- The null pointer is no refusal but a block at address `0`: rounding up wraps, and the block ends
before the end of the pool. -/
def GrantedAtNull (mem : UsbMemory) (r : AllocRequest) : Prop :=
  (alignTo mem.allocPtr r.alignment = 0 ∨
    (alignTo (alignTo mem.allocPtr r.alignment) r.boundary = 0 ∧
      alignTo mem.allocPtr r.alignment + r.size ≠ 0)) ∧
    r.size ≤ mem.memoryPool + kMemoryPoolSize

section failed

variable {mem : UsbMemory} {r : AllocRequest}

/-- The two ways a request returns the null pointer. -/
theorem allocMem_null (h : (mem.allocMem r.size r.alignment r.boundary).1 = 0) :
    (mem.GrantedAtNull r ∧
        (mem.allocMem r.size r.alignment r.boundary).2 = { mem with allocPtr := r.size }) ∨
      (¬mem.GrantedAtNull r ∧ (mem.allocMem r.size r.alignment r.boundary).2 =
        { mem with allocPtr := placed mem.allocPtr r.size r.alignment r.boundary }) := by
  have hzero : placed mem.allocPtr r.size r.alignment r.boundary = 0 ↔ _ := placed_eq_zero_iff
  obtain ⟨p, hp⟩ : ∃ p, placed mem.allocPtr r.size r.alignment r.boundary = p := ⟨_, rfl⟩
  have heq : mem.allocMem r.size r.alignment r.boundary =
      if mem.memoryPool + kMemoryPoolSize < p + r.size then (0, { mem with allocPtr := p })
      else (p, { mem with allocPtr := p + r.size }) := by
    rw [← hp]
    rfl
  rw [hp] at hzero ⊢
  unfold GrantedAtNull
  by_cases hfull : mem.memoryPool + kMemoryPoolSize < p + r.size
  · rw [heq, if_pos hfull]
    refine Or.inr ⟨?_, rfl⟩
    rintro ⟨hnull, hroom⟩
    rw [hzero.mpr hnull, UInt64.zero_add] at hfull
    exact UInt64.not_le.mpr hfull hroom
  · rw [heq, if_neg hfull] at h ⊢
    obtain rfl : p = 0 := h
    rw [UInt64.zero_add] at hfull
    refine Or.inl ⟨⟨hzero.mp rfl, UInt64.not_lt.mp hfull⟩, ?_⟩
    rw [UInt64.zero_add]

/-- **When a failed request costs nothing**, for all requests and all states of the allocator: iff
neither rounding step moves `alloc_ptr`, or, where the block is granted at address `0`, its size is what
`alloc_ptr` was. -/
theorem failed_request_iff (h : (mem.allocMem r.size r.alignment r.boundary).1 = 0) :
    mem.CostsNothing r ↔
      (¬mem.GrantedAtNull r ∧ Unmoved mem.allocPtr r.size r.alignment r.boundary) ∨
        (mem.GrantedAtNull r ∧ r.size = mem.allocPtr) := by
  have hkeeps : (mem.allocMem r.size r.alignment r.boundary).2.allocPtr = mem.allocPtr ↔
      (¬mem.GrantedAtNull r ∧ Unmoved mem.allocPtr r.size r.alignment r.boundary) ∨
        (mem.GrantedAtNull r ∧ r.size = mem.allocPtr) := by
    rcases allocMem_null h with ⟨hgranted, hmem⟩ | ⟨hgranted, hmem⟩
    · rw [hmem, and_iff_right hgranted, or_iff_right fun h => h.1 hgranted]
    · rw [hmem, and_iff_right hgranted, or_iff_left fun h => hgranted h.1, ← placed_eq_self_iff]
  have hpool : (mem.allocMem r.size r.alignment r.boundary).2.memoryPool = mem.memoryPool := by
    rcases allocMem_null h with ⟨-, hmem⟩ | ⟨-, hmem⟩
    · rw [hmem]
    · rw [hmem]
  rw [← hkeeps]
  constructor
  · intro hcost
    exact hcost.unchanged
  · intro hptr
    have hsame : (mem.allocMem r.size r.alignment r.boundary).2 = mem := by
      generalize (mem.allocMem r.size r.alignment r.boundary).2 = mem' at *
      cases mem
      cases mem'
      cases hptr
      cases hpool
      rfl
    refine ⟨hptr, fun rs r' hr' => ?_⟩
    rw [hsame]
    exact hr'

end failed

/-- The pool after one block of 64 bytes. -/
def oneBlock : UsbMemory := ⟨0x200000, 0x200040⟩

/-- A request without a boundary, for more than the rest of the pool. -/
theorem failed_request_iff_oneBlock : oneBlock.CostsNothing ⟨0x20000, 64, 0⟩ := by
  refine (failed_request_iff rfl).mpr (Or.inl ⟨?_, by decide, Or.inl rfl⟩)
  rintro ⟨h | ⟨h, -⟩, -⟩
  · exact absurd h (by decide)
  · exact absurd h (by decide)

/-- The same request with a boundary moves `alloc_ptr` to the next page. The rest of the pool, which
would have been a block, is too long afterwards. -/
theorem failed_request_costs :
    ¬∀ (mem : UsbMemory) (r : AllocRequest),
      (mem.allocMem r.size r.alignment r.boundary).1 = 0 → mem.CostsNothing r := by
  intro hall
  have hrest : (oneBlock.allocMem 0x1ffc0 64 0).1 ≠ 0 := by decide
  exact (hall oneBlock ⟨0x20000, 64, 4096⟩ rfl).later [] ⟨0x1ffc0, 64, 0⟩ hrest rfl

end UsbMemory

end UhyokOS
