import UhyokOS.Usb.Memory
import UhyokOS.Lib.Transition

/-!
# Runs of the memory pool

`AllocMem` called again and again, from the first call on. The state carries the blocks that have been
returned, in order.

* `AllocRequest.NoWrap`: no sum of a call wraps, spelled out sum by sum.
* `AllocBlock.Meets`: what `usb/memory.hpp` promises the caller about one block.
* `poolInv_kept`: the blocks are stacked from `memory_pool` up to `alloc_ptr`.
* `pool_contract`: every block meets its request, and no two blocks overlap.
-/

namespace UhyokOS

open Transition BumpAllocation

/-- One call of `AllocMem`. -/
structure AllocRequest where
  /-- `size` -/
  size : UInt64
  /-- `alignment` -/
  alignment : UInt32
  /-- `boundary` -/
  boundary : UInt32

/-- A call and the address that it returned. -/
structure AllocBlock extends AllocRequest where
  /-- The pointer. -/
  p : UInt64

/-- The bytes of a block. -/
def AllocBlock.span (b : AllocBlock) : Span := ⟨b.p, b.size.toNat⟩

/-- The pool and the blocks that it has handed out. -/
structure PoolRun where
  /-- The variables of the allocator. -/
  mem : UsbMemory
  /-- The blocks, the latest one last. -/
  blocks : List AllocBlock := []

/-- One call. A null pointer is no block. -/
def PoolRun.step (s : PoolRun) (r : AllocRequest) : Option PoolRun :=
  let res := s.mem.allocMem r.size r.alignment r.boundary
  some { mem := res.2, blocks := if res.1 = 0 then s.blocks else s.blocks ++ [⟨r, res.1⟩] }

namespace AllocRequest

/-- No sum of the call wraps. The sums are those of the two calls of `Ceil`, of the check of the
boundary, and of the check of the end of the pool. -/
structure NoWrap (mem : UsbMemory) (r : AllocRequest) : Prop where
  alignment : mem.allocPtr.toNat + r.alignment.toNat ≤ 2 ^ 64
  boundary : r.boundary > 0 →
    (alignTo mem.allocPtr r.alignment).toNat + r.boundary.toNat ≤ 2 ^ 64 ∧
      (alignTo mem.allocPtr r.alignment).toNat + r.size.toNat < 2 ^ 64
  size : (UsbMemory.placed mem.allocPtr r.size r.alignment r.boundary).toNat + r.size.toNat < 2 ^ 64

/-- The calls that are considered: an alignment and a boundary are `0` or a power of two. -/
structure Permitted (s : PoolRun) (r : AllocRequest) : Prop where
  alignment : IsAlignment r.alignment.toNat
  boundary : IsAlignment r.boundary.toNat
  noWrap : r.NoWrap s.mem

end AllocRequest

/-- The states that the allocator reaches from its first call on. -/
abbrev PoolRun.Reachable (memoryPool : UInt64) (s : PoolRun) : Prop :=
  Transition.Reachable PoolRun.step AllocRequest.Permitted { mem := UsbMemory.initial memoryPool } s

/-- The promise for one block. It is aligned, no multiple of the boundary lies inside it unless it is
longer than the boundary, and it lies in the pool. -/
structure AllocBlock.Meets (memoryPool : UInt64) (b : AllocBlock) : Prop where
  aligned : b.alignment = 0 ∨ b.alignment.toNat ∣ b.p.toNat
  uncrossed : b.boundary = 0 ∨ b.size.toNat > b.boundary.toNat ∨
    ∀ m, b.boundary.toNat ∣ m → ¬(b.p.toNat < m ∧ m < b.p.toNat + b.size.toNat)
  low : memoryPool.toNat ≤ b.p.toNat
  high : b.p.toNat + b.size.toNat ≤ UsbMemory.poolEnd memoryPool

/-! ## One call -/

section call

variable {mem : UsbMemory} {memoryPool : UInt64} {r : AllocRequest} {s s' : PoolRun}

/-- The address where the block goes, as a number. -/
theorem AllocRequest.NoWrap.toNat_placed (h : r.NoWrap mem) (ha : IsAlignment r.alignment.toNat)
    (hb : IsAlignment r.boundary.toNat) :
    (UsbMemory.placed mem.allocPtr r.size r.alignment r.boundary).toNat =
      place mem.allocPtr.toNat r.size.toNat r.alignment.toNat r.boundary.toNat := by
  have hround := toNat_alignTo ha h.alignment
  by_cases hpos : r.boundary > 0
  · obtain ⟨hboundary, hsize⟩ := h.boundary hpos
    rw [hround] at hboundary hsize
    exact UsbMemory.toNat_placed ha hb h.alignment hboundary hsize
  · have hzero : r.boundary.toNat = 0 := by
      by_contra hne
      exact hpos (pos_iff_toNat.mpr hne)
    have hplaced : UsbMemory.placed mem.allocPtr r.size r.alignment r.boundary =
        alignTo mem.allocPtr r.alignment := if_neg hpos
    rw [hplaced, hround, place, hzero, roundUp_zero, ite_self]

/-- The two ways a call ends. `alloc_ptr` moves to the place of the block in both. -/
theorem AllocRequest.NoWrap.allocMem_cases (hend : UsbMemory.poolEnd mem.memoryPool < 2 ^ 64)
    (h : r.NoWrap mem) {p : UInt64}
    (hp : UsbMemory.placed mem.allocPtr r.size r.alignment r.boundary = p) :
    mem.allocMem r.size r.alignment r.boundary = (0, { mem with allocPtr := p }) ∨
      mem.allocMem r.size r.alignment r.boundary = (p, { mem with allocPtr := p + r.size }) ∧
        (p + r.size).toNat = p.toNat + r.size.toNat ∧
        p.toNat + r.size.toNat ≤ UsbMemory.poolEnd mem.memoryPool := by
  have hroom := h.size
  rw [hp] at hroom
  have hsum : (p + r.size).toNat = p.toNat + r.size.toNat := by
    rw [UInt64.toNat_add, Nat.mod_eq_of_lt hroom]
  unfold UsbMemory.allocMem
  simp only [hp]
  by_cases hfull : mem.memoryPool + kMemoryPoolSize < p + r.size
  · exact Or.inl (if_pos hfull)
  · refine Or.inr ⟨if_neg hfull, hsum, ?_⟩
    rw [UInt64.lt_iff_toNat_lt, UsbMemory.toNat_poolEnd hend, hsum] at hfull
    exact not_lt.mp hfull

/-- The place of a block keeps the promise. -/
theorem AllocRequest.Permitted.meets (h : r.Permitted s) {p : UInt64}
    (hp : UsbMemory.placed s.mem.allocPtr r.size r.alignment r.boundary = p)
    (hlow : memoryPool.toNat ≤ s.mem.allocPtr.toNat)
    (hhigh : p.toNat + r.size.toNat ≤ UsbMemory.poolEnd memoryPool) :
    (⟨r, p⟩ : AllocBlock).Meets memoryPool := by
  have hplace := h.noWrap.toNat_placed h.alignment h.boundary
  rw [hp] at hplace
  have hle := le_place s.mem.allocPtr.toNat r.size.toNat r.alignment.toNat r.boundary.toNat
  refine ⟨?_, ?_, ?_, hhigh⟩
  · show r.alignment = 0 ∨ r.alignment.toNat ∣ p.toNat
    rw [hplace, ← UInt32.toNat_inj]
    exact or_iff_not_imp_left.mpr fun hne => dvd_place h.alignment h.boundary hne _ _
  · show r.boundary = 0 ∨ _
    rw [← UInt32.toNat_inj]
    refine or_iff_not_imp_left.mpr fun hne => or_iff_not_imp_left.mpr fun hsize m hm => ?_
    show ¬(p.toNat < m ∧ m < p.toNat + r.size.toNat)
    rw [hplace]
    exact place_uncrossed hne (not_lt.mp hsize) hm
  · show memoryPool.toNat ≤ p.toNat
    rw [hplace]
    exact hlow.trans hle

/-- The blocks so far are stacked between `memory_pool` and `alloc_ptr`, and each meets its request. -/
structure PoolInv (memoryPool : UInt64) (s : PoolRun) : Prop where
  pool : s.mem.memoryPool = memoryPool
  stacked : Stacked memoryPool.toNat (s.blocks.map AllocBlock.span) s.mem.allocPtr.toNat
  meets : ∀ b ∈ s.blocks, b.Meets memoryPool

theorem poolInv_init (memoryPool : UInt64) :
    PoolInv memoryPool { mem := UsbMemory.initial memoryPool } :=
  ⟨rfl, le_rfl, fun _ hb => nomatch hb⟩

/-- `alloc_ptr` moves up without a block. -/
theorem PoolInv.skip (h : PoolInv memoryPool s) {mem : UsbMemory}
    (hpool : mem.memoryPool = s.mem.memoryPool) (hle : s.mem.allocPtr.toNat ≤ mem.allocPtr.toNat) :
    PoolInv memoryPool { s with mem := mem } := by
  refine ⟨hpool.trans h.pool, ?_, h.meets⟩
  have hstacked := h.stacked.append (show Stacked _ [] mem.allocPtr.toNat from hle)
  rwa [List.append_nil] at hstacked

/-- A block goes on top. -/
theorem PoolInv.push (h : PoolInv memoryPool s) {mem : UsbMemory} {b : AllocBlock}
    (hpool : mem.memoryPool = s.mem.memoryPool) (hle : s.mem.allocPtr.toNat ≤ b.p.toNat)
    (hptr : mem.allocPtr.toNat = b.p.toNat + b.size.toNat) (hb : b.Meets memoryPool) :
    PoolInv memoryPool { mem := mem, blocks := s.blocks ++ [b] } := by
  refine ⟨hpool.trans h.pool, ?_, ?_⟩
  · show Stacked _ ((s.blocks ++ [b]).map AllocBlock.span) mem.allocPtr.toNat
    rw [List.map_append]
    exact h.stacked.append ⟨hle, hptr.ge⟩
  · intro c hc
    rcases List.mem_append.mp hc with hc | hc
    · exact h.meets c hc
    · rw [List.mem_singleton.mp hc]
      exact hb

/-- **The step lemma.** -/
theorem poolInv_kept (hend : UsbMemory.poolEnd memoryPool < 2 ^ 64) :
    Keeps PoolRun.step AllocRequest.Permitted (PoolInv memoryPool) := by
  intro s r s' h hok hstep
  obtain ⟨p, hp⟩ : ∃ p, UsbMemory.placed s.mem.allocPtr r.size r.alignment r.boundary = p :=
    ⟨_, rfl⟩
  have hle : s.mem.allocPtr.toNat ≤ p.toNat := by
    rw [← hp, hok.noWrap.toNat_placed hok.alignment hok.boundary]
    exact le_place _ _ _ _
  unfold PoolRun.step at hstep
  rcases hok.noWrap.allocMem_cases (h.pool ▸ hend) hp with heq | ⟨heq, hsum, hhigh⟩
  · rw [heq] at hstep
    cases hstep
    exact h.skip rfl hle
  · rw [heq] at hstep
    cases hstep
    by_cases hnull : p = 0
    · simp only [if_pos hnull]
      exact h.skip rfl (hle.trans (hsum ▸ Nat.le_add_right _ _))
    · simp only [if_neg hnull]
      exact h.push rfl hle hsum (hok.meets hp h.stacked.le (h.pool ▸ hhigh))

end call

/-- **The allocator meets its contract.** Wherever the pool is, after any calls whose alignments and
boundaries are `0` or powers of two and in which no address wraps: every block that was returned is
aligned as asked, is not crossed by its boundary unless it is longer, and lies in the pool; and no two
blocks overlap. -/
theorem pool_contract {memoryPool : UInt64} (hend : UsbMemory.poolEnd memoryPool < 2 ^ 64)
    {s : PoolRun} (hr : s.Reachable memoryPool) :
    (∀ b ∈ s.blocks, b.Meets memoryPool) ∧
      s.blocks.Pairwise fun b c => b.span.Apart c.span := by
  have h := hr.invariant_of_keeps (poolInv_init memoryPool) (poolInv_kept hend)
  have hapart := h.stacked.apart (UInt64.toNat_lt _).le
  exact ⟨h.meets, List.pairwise_map.mp hapart⟩

/-- A pool that starts 64 bytes before the end of a page. -/
def poolStart : PoolRun := { mem := UsbMemory.initial 0x1fc0 }

/-- After a block of 40 bytes, which fits before the end of the page. -/
def poolSecond : PoolRun := ⟨⟨0x1fc0, 0x1fe8⟩, [⟨⟨40, 64, 4096⟩, 0x1fc0⟩]⟩

/-- After a block of 100 bytes, which goes to the next page. -/
def poolThird : PoolRun :=
  ⟨⟨0x1fc0, 0x2064⟩, [⟨⟨40, 64, 4096⟩, 0x1fc0⟩, ⟨⟨100, 16, 4096⟩, 0x2000⟩]⟩

theorem pool_contract_poolThird :
    PoolRun.step poolStart ⟨40, 64, 4096⟩ = some poolSecond ∧
      PoolRun.step poolSecond ⟨100, 16, 4096⟩ = some poolThird ∧
      (∀ b ∈ poolThird.blocks, b.Meets 0x1fc0) ∧
      poolThird.blocks.Pairwise fun b c => b.span.Apart c.span := by
  have hpage : IsAlignment 4096 := Or.inr ⟨12, rfl⟩
  have h₁ : AllocRequest.Permitted poolStart ⟨40, 64, 4096⟩ :=
    ⟨Or.inr ⟨6, rfl⟩, hpage, by decide, by decide, by decide⟩
  have h₂ : AllocRequest.Permitted poolSecond ⟨100, 16, 4096⟩ :=
    ⟨Or.inr ⟨4, rfl⟩, hpage, by decide, by decide, by decide⟩
  have hstep₁ : PoolRun.step poolStart ⟨40, 64, 4096⟩ = some poolSecond := rfl
  have hstep₂ : PoolRun.step poolSecond ⟨100, 16, 4096⟩ = some poolThird := rfl
  have hr : poolThird.Reachable 0x1fc0 := (Reachable.init.step h₁ hstep₁).step h₂ hstep₂
  exact ⟨hstep₁, hstep₂, pool_contract (by decide) hr⟩

end UhyokOS
