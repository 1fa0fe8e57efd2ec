import UhyokOS.Lib.BumpAllocation

/-!
# The memory pool of the USB driver

The model of `kernel/usb/memory.cpp`, in the arithmetic of 64-bit addresses. A pointer is its address,
`0` being the null pointer. The address of `memory_pool` is an argument.

* `allocMem_eq`: what `AllocMem` does where no address wraps.
* `allocMem_spec`: what is known of any block that `AllocMem` returns.
-/

namespace UhyokOS

open BumpAllocation

/-- For `uintptr_t`.
Source: `kernel/usb/memory.cpp`, `Ceil` -/
def ceil (value : UInt64) (alignment : UInt32) : UInt64 :=
  (value + alignment.toUInt64 - 1) &&& ~~~(alignment - 1).toUInt64

/-- Source: `kernel/usb/memory.hpp`, `kMemoryPoolSize` -/
abbrev kMemoryPoolSize : UInt64 := 4096 * 32

/-- The variables of `kernel/usb/memory.cpp`. -/
structure UsbMemory where
  /-- The address of `memory_pool`. -/
  memoryPool : UInt64
  /-- `alloc_ptr` -/
  allocPtr : UInt64

namespace UsbMemory

/-- Before the first allocation. -/
def initial (memoryPool : UInt64) : UsbMemory := ⟨memoryPool, memoryPool⟩

/-- `alloc_ptr` where the request is checked against the end of the pool.
Source: `kernel/usb/memory.cpp`, `AllocMem` -/
def placed (allocPtr size : UInt64) (alignment boundary : UInt32) : UInt64 :=
  let allocPtr := if alignment > 0 then ceil allocPtr alignment else allocPtr
  if boundary > 0 then
    let nextBoundary := ceil allocPtr boundary
    if nextBoundary < allocPtr + size then nextBoundary else allocPtr
  else allocPtr

/-- Source: `kernel/usb/memory.cpp`, `AllocMem` -/
def allocMem (mem : UsbMemory) (size : UInt64) (alignment boundary : UInt32) :
    UInt64 × UsbMemory :=
  let p := placed mem.allocPtr size alignment boundary
  if mem.memoryPool + kMemoryPoolSize < p + size then (0, { mem with allocPtr := p })
  else (p, { mem with allocPtr := p + size })

/-- Source: `kernel/usb/memory.hpp`, `AllocArray` -/
def allocArray (mem : UsbMemory) (sizeofT numObj : UInt64) (alignment boundary : UInt32) :
    UInt64 × UsbMemory :=
  mem.allocMem (sizeofT * numObj) alignment boundary

end UsbMemory

/-! ## Rounding up -/

section ceil

variable {v : UInt64} {a : UInt32} {k : ℕ}

/-- The mask of an alignment does not wrap. -/
theorem toUInt64_sub_one (ha : 0 < a.toNat) : (a - 1).toUInt64 = a.toUInt64 - 1 := by
  have hle : (1 : UInt32) ≤ a := UInt32.le_iff_toNat_le.mpr ha
  apply UInt64.toNat_inj.mp
  rw [UInt32.toNat_toUInt64, UInt32.toNat_sub_of_le _ _ hle, UInt64.toNat_sub_of_le,
    UInt32.toNat_toUInt64]
  · rfl
  · rw [UInt64.le_iff_toNat_le, UInt32.toNat_toUInt64]
    exact ha

/-- The sum may wrap. -/
theorem toNat_ceil (v : UInt64) (ha : a.toNat = 2 ^ k) :
    (ceil v a).toNat = (v.toNat + (2 ^ k - 1)) % 2 ^ 64 / 2 ^ k * 2 ^ k := by
  have hpos : 0 < 2 ^ k := Nat.two_pow_pos k
  have hmask : (a - 1).toUInt64 = a.toUInt64 - 1 := toUInt64_sub_one (ha ▸ hpos)
  have hsum : (v + a.toUInt64 - 1).toNat = (v.toNat + (2 ^ k - 1)) % 2 ^ 64 := by
    have hv := UInt64.toNat_lt v
    have ha' := UInt32.toNat_lt a
    rw [UInt64.toNat_sub, UInt64.toNat_add, UInt32.toNat_toUInt64, ha, UInt64.toNat_one]
    rw [ha] at ha'
    omega
  unfold ceil
  rw [hmask, toNat_and_not_sub_one _ (by rw [UInt32.toNat_toUInt64, ha]), hsum]

theorem toNat_ceil_of_le (ha : a.toNat = 2 ^ k) (h : v.toNat + 2 ^ k ≤ 2 ^ 64) :
    (ceil v a).toNat = roundUp v.toNat a.toNat := by
  have hpos : 0 < 2 ^ k := Nat.two_pow_pos k
  rw [toNat_ceil v ha, Nat.mod_eq_of_lt (by omega), ha, roundUp, if_neg hpos.ne']

/-- A sum that wraps is rounded down to the null pointer. -/
theorem ceil_of_lt (ha : a.toNat = 2 ^ k) (h : 2 ^ 64 < v.toNat + 2 ^ k) : ceil v a = 0 := by
  have hv := UInt64.toNat_lt v
  have hk := UInt32.toNat_lt a
  apply UInt64.toNat_inj.mp
  rw [toNat_ceil v ha, Nat.div_eq_of_lt, Nat.zero_mul]
  · rfl
  · rw [ha] at hk
    omega

/-- The first check of `AllocMem`, and the second one. -/
def alignTo (v : UInt64) (a : UInt32) : UInt64 := if a > 0 then ceil v a else v

theorem pos_iff_toNat {a : UInt32} : a > 0 ↔ a.toNat ≠ 0 := by
  rw [gt_iff_lt, UInt32.lt_iff_toNat_lt, UInt32.toNat_zero, Nat.pos_iff_ne_zero]

theorem toNat_alignTo (ha : IsAlignment a.toNat) (h : v.toNat + a.toNat ≤ 2 ^ 64) :
    (alignTo v a).toNat = roundUp v.toNat a.toNat := by
  unfold alignTo
  by_cases hzero : a.toNat = 0
  · rw [if_neg fun hpos => pos_iff_toNat.mp hpos hzero, hzero, roundUp_zero]
  · obtain ⟨k, hk⟩ := ha.resolve_left hzero
    rw [if_pos (pos_iff_toNat.mpr hzero), toNat_ceil_of_le hk (hk ▸ h)]

theorem alignTo_cases (ha : IsAlignment a.toNat) (v : UInt64) :
    alignTo v a = 0 ∨ (alignTo v a).toNat = roundUp v.toNat a.toNat := by
  by_cases h : v.toNat + a.toNat ≤ 2 ^ 64
  · exact Or.inr (toNat_alignTo ha h)
  · left
    have hv := UInt64.toNat_lt v
    have hzero : a.toNat ≠ 0 := by omega
    obtain ⟨k, hk⟩ := ha.resolve_left hzero
    unfold alignTo
    rw [if_pos (pos_iff_toNat.mpr hzero), ceil_of_lt hk (by omega)]

theorem alignTo_zero (ha : IsAlignment a.toNat) : alignTo 0 a = 0 := by
  rcases alignTo_cases ha 0 with h | h
  · exact h
  · apply UInt64.toNat_inj.mp
    rw [h, UInt64.toNat_zero, roundUp_of_dvd (dvd_zero _)]

end ceil

/-! ## Requests -/

namespace UsbMemory

section placed

variable {ptr size : UInt64} {alignment boundary : UInt32}

theorem placed_eq (ptr size : UInt64) (alignment boundary : UInt32) :
    placed ptr size alignment boundary =
      if alignTo (alignTo ptr alignment) boundary < alignTo ptr alignment + size then
        alignTo (alignTo ptr alignment) boundary
      else alignTo ptr alignment := by
  unfold placed alignTo
  simp only
  by_cases hpos : boundary > 0
  · simp only [if_pos hpos]
  · simp only [if_neg hpos, ite_self]

/-- Where no address wraps. -/
theorem toNat_placed (ha : IsAlignment alignment.toNat) (hb : IsAlignment boundary.toNat)
    (halign : ptr.toNat + alignment.toNat ≤ 2 ^ 64)
    (hboundary : roundUp ptr.toNat alignment.toNat + boundary.toNat ≤ 2 ^ 64)
    (hsize : roundUp ptr.toNat alignment.toNat + size.toNat < 2 ^ 64) :
    (placed ptr size alignment boundary).toNat =
      place ptr.toNat size.toNat alignment.toNat boundary.toNat := by
  have hx := toNat_alignTo ha halign
  have hy := toNat_alignTo (v := alignTo ptr alignment) hb (by rwa [hx])
  rw [hx] at hy
  have hsum : (alignTo ptr alignment + size).toNat =
      roundUp ptr.toNat alignment.toNat + size.toNat := by
    rw [UInt64.toNat_add, hx, Nat.mod_eq_of_lt hsize]
  rw [placed_eq, place]
  by_cases hlt : alignTo (alignTo ptr alignment) boundary < alignTo ptr alignment + size
  · have hlt' := UInt64.lt_iff_toNat_lt.mp hlt
    rw [hy, hsum] at hlt'
    rw [if_pos hlt, if_pos hlt', hy]
  · have hlt' := mt UInt64.lt_iff_toNat_lt.mpr hlt
    rw [hy, hsum] at hlt'
    rw [if_neg hlt, if_neg hlt', hx]

/-- The contract of a place that is not null: it is aligned and behind the pointer, and a block that is
no longer than its boundary does not wrap. -/
theorem placed_spec (ha : IsAlignment alignment.toNat) (hb : IsAlignment boundary.toNat)
    (hne : placed ptr size alignment boundary ≠ 0) :
    ptr.toNat ≤ (placed ptr size alignment boundary).toNat ∧
      (alignment.toNat ≠ 0 → alignment.toNat ∣ (placed ptr size alignment boundary).toNat) ∧
      (boundary.toNat ≠ 0 → size.toNat ≤ boundary.toNat →
        (placed ptr size alignment boundary).toNat + size.toNat ≤ 2 ^ 64) := by
  have hb32 := UInt32.toNat_lt boundary
  rw [placed_eq] at hne ⊢
  rcases alignTo_cases ha ptr with hx | hx
  · -- the first sum wraps, and the second check leaves the null pointer alone
    rw [hx, alignTo_zero hb, ite_self] at hne
    exact absurd rfl hne
  · have hle : ptr.toNat ≤ (alignTo ptr alignment).toNat := hx ▸ le_roundUp _ _
    have hdvd : alignment.toNat ≠ 0 → alignment.toNat ∣ (alignTo ptr alignment).toNat := fun h =>
      hx ▸ dvd_roundUp _ h
    generalize alignTo ptr alignment = x at *
    have hx64 := UInt64.toNat_lt x
    rcases alignTo_cases hb x with hy | hy
    · -- the second sum wraps
      rw [hy] at hne ⊢
      split_ifs at hne ⊢ with hlt
      · exact absurd rfl hne
      · refine ⟨hle, hdvd, fun _ hsize => ?_⟩
        rw [UInt64.lt_iff_toNat_lt, UInt64.toNat_zero, UInt64.toNat_add] at hlt
        omega
    · have hxy : x.toNat ≤ (alignTo x boundary).toNat := hy ▸ le_roundUp _ _
      have hroom : boundary.toNat ≠ 0 → (alignTo x boundary).toNat + boundary.toNat ≤ 2 ^ 64 :=
        fun hzero => hb.add_le (by omega) (hy ▸ dvd_roundUp _ hzero) (UInt64.toNat_lt _)
      split_ifs with hlt
      · refine ⟨hle.trans hxy, fun h => ?_, fun hzero hsize => ?_⟩
        · rw [hy]
          exact dvd_roundUp_of_dvd ha hb (hdvd h)
        · have := hroom hzero
          omega
      · refine ⟨hle, hdvd, fun hzero hsize => ?_⟩
        have := hroom hzero
        omega

end placed

section allocMem

variable {mem mem' : UsbMemory} {memoryPool p size : UInt64} {alignment boundary : UInt32} {ptr : ℕ}

/-- The address behind the pool. -/
def poolEnd (memoryPool : UInt64) : ℕ := memoryPool.toNat + kMemoryPoolSize.toNat

/-- The allocator at an address. -/
def atPtr (memoryPool : UInt64) (ptr : ℕ) : UsbMemory := ⟨memoryPool, UInt64.ofNat ptr⟩

theorem toNat_atPtr (h : ptr < 2 ^ 64) : (atPtr memoryPool ptr).allocPtr.toNat = ptr :=
  UInt64.toNat_ofNat_of_lt' h

theorem toNat_poolEnd (h : poolEnd memoryPool < 2 ^ 64) :
    (memoryPool + kMemoryPoolSize).toNat = poolEnd memoryPool := by
  rw [UInt64.toNat_add, ← poolEnd, Nat.mod_eq_of_lt h]

/-- **Requests where no address wraps.** -/
theorem allocMem_eq {a b s q : ℕ} (halignment : alignment.toNat = a) (hboundary : boundary.toNat = b)
    (hsize : size.toNat = s) (ha : IsAlignment a) (hb : IsAlignment b)
    (hend : poolEnd memoryPool < 2 ^ 64) (hptr : ptr + a ≤ 2 ^ 64)
    (hround : roundUp ptr a + b ≤ 2 ^ 64) (hq : place ptr s a b = q) (hroom : q + s < 2 ^ 64) :
    (atPtr memoryPool ptr).allocMem size alignment boundary =
      if poolEnd memoryPool < q + s then (0, atPtr memoryPool q)
      else (UInt64.ofNat q, atPtr memoryPool (q + s)) := by
  subst halignment hboundary hsize
  have hle := roundUp_le_place ptr size.toNat alignment.toNat boundary.toNat
  have hptr64 : ptr < 2 ^ 64 := by
    have := le_place ptr size.toNat alignment.toNat boundary.toNat
    omega
  have hto : (UInt64.ofNat ptr).toNat = ptr := UInt64.toNat_ofNat_of_lt' hptr64
  have hplaced : placed (UInt64.ofNat ptr) size alignment boundary = UInt64.ofNat q := by
    apply UInt64.toNat_inj.mp
    rw [toNat_placed ha hb (by rwa [hto]) (by rwa [hto]) (by rw [hto]; omega), hto, hq,
      UInt64.toNat_ofNat_of_lt' (show q < 2 ^ 64 by omega)]
  have hsum : UInt64.ofNat q + size = UInt64.ofNat (q + size.toNat) := by
    rw [UInt64.ofNat_add, UInt64.ofNat_toNat]
  have hlt : memoryPool + kMemoryPoolSize < UInt64.ofNat (q + size.toNat) ↔
      poolEnd memoryPool < q + size.toNat := by
    rw [UInt64.lt_iff_toNat_lt, toNat_poolEnd hend, UInt64.toNat_ofNat_of_lt' hroom]
  unfold allocMem atPtr
  simp only [hplaced, hsum, hlt]

/-- **Any block that is returned.** It is behind the pointer and aligned. It lies in the pool and the
pointer is behind it, unless it reaches the end of the address space. -/
theorem allocMem_spec (ha : IsAlignment alignment.toNat) (hb : IsAlignment boundary.toNat)
    (hend : poolEnd mem.memoryPool < 2 ^ 64) (hzero : boundary.toNat ≠ 0)
    (hsize : size.toNat ≤ boundary.toNat) (h : mem.allocMem size alignment boundary = (p, mem'))
    (hne : p ≠ 0) :
    mem'.memoryPool = mem.memoryPool ∧ mem.allocPtr.toNat ≤ p.toNat ∧
      (alignment.toNat ≠ 0 → alignment.toNat ∣ p.toNat) ∧
      ((p.toNat + size.toNat ≤ poolEnd mem.memoryPool ∧
          mem'.allocPtr.toNat = p.toNat + size.toNat) ∨
        (p.toNat + size.toNat = 2 ^ 64 ∧ mem'.allocPtr = 0)) := by
  unfold allocMem at h
  simp only at h
  split_ifs at h with hlt
  · cases h
    exact absurd rfl hne
  · cases h
    obtain ⟨hle, hdvd, hroom⟩ := placed_spec ha hb hne
    have hroom := hroom hzero hsize
    refine ⟨rfl, hle, hdvd, ?_⟩
    rw [UInt64.lt_iff_toNat_lt, toNat_poolEnd hend, UInt64.toNat_add] at hlt
    rcases Nat.lt_or_eq_of_le hroom with hroom | hroom
    · rw [Nat.mod_eq_of_lt hroom] at hlt
      left
      refine ⟨Nat.le_of_not_lt hlt, ?_⟩
      rw [UInt64.toNat_add, Nat.mod_eq_of_lt hroom]
    · right
      refine ⟨hroom, UInt64.toNat_inj.mp ?_⟩
      rw [UInt64.toNat_add, hroom]
      rfl

theorem allocMem_of_lt
    (h : mem.memoryPool + kMemoryPoolSize <
      placed mem.allocPtr size alignment boundary + size) :
    (mem.allocMem size alignment boundary).1 = 0 := by
  unfold allocMem
  simp only [if_pos h]

/-- At address 0 there is nothing left. -/
theorem allocMem_of_zero (ha : IsAlignment alignment.toNat) (hb : IsAlignment boundary.toNat)
    (hzero : mem.allocPtr = 0) (h : mem.allocMem size alignment boundary = (p, mem')) : p = 0 := by
  have hplaced : placed mem.allocPtr size alignment boundary = 0 := by
    rw [placed_eq, hzero, alignTo_zero ha, alignTo_zero hb, ite_self]
  unfold allocMem at h
  simp only [hplaced] at h
  split_ifs at h <;> exact (Prod.mk.inj h).1.symm

end allocMem

end UsbMemory

end UhyokOS
