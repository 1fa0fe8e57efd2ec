import UhyokOS.Memory.Reachable
import Mathlib.Data.Int.Init

/-!
# The kernel heap

The model of `sbrk` in `kernel/newlib_support.c`, which moves the end of the heap that
`InitializeHeap` has allocated. An address is a 64-bit word, so the sum of a break and an
increment wraps. The regions that have been granted are listed beside the break: a positive
increment adds one, and a negative one gives back what lies above the new break.

* `sbrk_cases`: what a call does.
* `inDomain_iff_lawful`: on which increments `sbrk` does what it should.
* `heapInv_preserved`: such an increment keeps the break and the granted regions in the heap.
* `heap_stays_in_region`: so do all runs of such increments, and the heap is a block of frames that
  the frame allocator has reserved.
-/

namespace UhyokOS

open Transition

/-! ## The source -/

/-- Source: `kernel/newlib_support.c`, `program_break` and `program_break_end` -/
structure ProgramBreak where
  programBreak : UInt64
  programBreakEnd : UInt64
  /-- `errno` -/
  errno : Nat := 0

/-- The value of `ENOMEM` in newlib. -/
abbrev ENOMEM : Nat := 12

/-- `(caddr_t)-1` -/
abbrev sbrkFailed : UInt64 := -1

/-- Source: `kernel/newlib_support.c`, `sbrk` -/
def ProgramBreak.sbrk (h : ProgramBreak) (incr : Int32) : UInt64 × ProgramBreak :=
  if h.programBreak = 0 ∨ h.programBreak + UInt64.ofInt incr.toInt ≥ h.programBreakEnd then
    (sbrkFailed, { h with errno := ENOMEM })
  else
    let prevBreak := h.programBreak
    (prevBreak, { h with programBreak := h.programBreak + UInt64.ofInt incr.toInt })

/-! ## Runs -/

/-- The heap and the regions `[from, to)` that are granted, the newest first. -/
structure HeapRun where
  heap : ProgramBreak
  granted : List (Nat × Nat) := []

/-- What is left of the regions below a break. -/
def keepBelow (top : Nat) (regions : List (Nat × Nat)) : List (Nat × Nat) :=
  (regions.filter fun r => r.1 < top).map fun r => (r.1, min r.2 top)

namespace HeapRun

/-- The heap and the regions behind a call of `sbrk`. -/
def next (s : HeapRun) (incr : Int32) : HeapRun where
  heap := (s.heap.sbrk incr).2
  granted :=
    if (s.heap.sbrk incr).1 = sbrkFailed then s.granted
    else if 0 < incr.toInt then
      ((s.heap.sbrk incr).1.toNat, (s.heap.sbrk incr).2.programBreak.toNat) :: s.granted
    else keepBelow (s.heap.sbrk incr).2.programBreak.toNat s.granted

/-- A call of `sbrk`. -/
def step (s : HeapRun) (incr : Int32) : Option HeapRun := some (s.next incr)

/-- The heap as `InitializeHeap` has set it. -/
def init (start stop : Nat) : HeapRun where
  heap := { programBreak := UInt64.ofNat start, programBreakEnd := UInt64.ofNat stop }

/-- The break that a call asks for. -/
def asked (s : HeapRun) (incr : Int32) : Int := s.heap.programBreak.toNat + incr.toInt

/-- The call succeeds iff the new break would be in the heap. Then it returns the old one, and
otherwise it returns -1 and leaves the break alone. -/
def Lawful (start stop : Nat) (s : HeapRun) (incr : Int32) : Prop :=
  if start ≤ s.asked incr ∧ s.asked incr ≤ stop then
    (s.heap.sbrk incr).1 = s.heap.programBreak ∧
      ((s.heap.sbrk incr).2.programBreak.toNat : Int) = s.asked incr
  else (s.heap.sbrk incr).1 = sbrkFailed ∧
    (s.heap.sbrk incr).2.programBreak = s.heap.programBreak

/-- The new break is not the end of the heap, and if it is an address it is not below the heap. -/
def InDomain (start stop : Nat) (s : HeapRun) (incr : Int32) : Prop :=
  s.asked incr ≠ stop ∧ ¬(0 ≤ s.asked incr ∧ s.asked incr < start)

/-- The break is in the heap. The granted regions have no address in common and lie in the frames
that the frame allocator has reserved for the heap. -/
structure InHeap (mm : BitmapMemoryManager) (start stop : Nat) (s : HeapRun) : Prop where
  break_ge : start ≤ s.heap.programBreak.toNat
  break_le : s.heap.programBreak.toNat ≤ stop
  disjoint : s.granted.Pairwise fun r r' => Disjoint (Set.Ico r.1 r.2) (Set.Ico r'.1 r'.2)
  reserved : ∀ r ∈ s.granted, ∀ a ∈ Set.Ico r.1 r.2, a / kBytesPerFrame ∈
    BitmapMemoryManager.frames (start / kBytesPerFrame) kHeapFrames ∩ mm.used

/-- The break is below the end of the heap. The granted regions lie below the break, the newer ones
above the older ones. -/
structure HeapInv (start stop : Nat) (s : HeapRun) : Prop where
  break_ge : start ≤ s.heap.programBreak.toNat
  break_lt : s.heap.programBreak.toNat < stop
  breakEnd : s.heap.programBreakEnd.toNat = stop
  sorted : s.granted.Pairwise fun r r' => r'.2 ≤ r.1
  within : ∀ r ∈ s.granted, start ≤ r.1 ∧ r.2 ≤ s.heap.programBreak.toNat

variable {start stop : Nat} {s : HeapRun} {incr : Int32}

/-! ## A call -/

/-- An increment of an address wraps. -/
theorem toNat_add_ofInt (p : UInt64) (i : Int) :
    ((p + UInt64.ofInt i).toNat : Int) = (p.toNat + i) % 2 ^ 64 := by
  unfold UInt64.ofInt
  rw [UInt64.toNat_add, UInt64.toNat_ofNat']
  omega

/-- A break below the end of the heap is granted, also one below its start. -/
theorem HeapInv.sbrk_cases (h : HeapInv start stop s) (hpos : 0 < start)
    (hbound : stop ≤ kFrameCount * kBytesPerFrame) (incr : Int32) :
    (0 ≤ s.asked incr ∧ s.asked incr < stop ∧ (s.heap.sbrk incr).1 = s.heap.programBreak ∧
        ((s.heap.sbrk incr).2.programBreak.toNat : Int) = s.asked incr ∧
        (s.heap.sbrk incr).2.programBreakEnd = s.heap.programBreakEnd) ∨
      (¬(0 ≤ s.asked incr ∧ s.asked incr < stop) ∧ (s.heap.sbrk incr).1 = sbrkFailed ∧
        (s.heap.sbrk incr).2.programBreak = s.heap.programBreak ∧
        (s.heap.sbrk incr).2.programBreakEnd = s.heap.programBreakEnd) := by
  obtain ⟨hge, hlt, hend, -, -⟩ := h
  have hne : s.heap.programBreak ≠ 0 := fun hzero => by
    rw [hzero, UInt64.toNat_zero] at hge
    omega
  have hsum := toNat_add_ofInt s.heap.programBreak incr.toInt
  have hlow := incr.le_toInt
  have hhigh := incr.toInt_lt
  have hiff : s.heap.programBreak + UInt64.ofInt incr.toInt ≥ s.heap.programBreakEnd ↔
      ¬(0 ≤ s.asked incr ∧ s.asked incr < stop) := by
    rw [ge_iff_le, UInt64.le_iff_toNat_le, hend]
    unfold asked
    simp only [kFrameCount, kBytesPerFrame] at hbound
    omega
  unfold ProgramBreak.sbrk
  simp only [hne, false_or, hiff]
  by_cases hin : 0 ≤ s.asked incr ∧ s.asked incr < stop
  · rw [if_neg (not_not.mpr hin)]
    refine Or.inl ⟨hin.1, hin.2, rfl, hsum.trans ?_, rfl⟩
    simp only [kFrameCount, kBytesPerFrame] at hbound
    exact Int.emod_eq_of_lt hin.1 (by omega)
  · rw [if_pos hin]
    exact Or.inr ⟨hin, rfl, rfl, rfl⟩

theorem HeapInv.break_ne_failed (h : HeapInv start stop s)
    (hbound : stop ≤ kFrameCount * kBytesPerFrame) : s.heap.programBreak ≠ sbrkFailed := by
  intro heq
  have hlt := h.break_lt
  rw [heq, show (sbrkFailed : UInt64).toNat = 2 ^ 64 - 1 from rfl] at hlt
  simp only [kFrameCount, kBytesPerFrame] at hbound
  omega

/-- **A call is lawful** exactly on the increments of the domain. -/
theorem HeapInv.inDomain_iff_lawful (h : HeapInv start stop s) (hpos : 0 < start)
    (hbound : stop ≤ kFrameCount * kBytesPerFrame) (incr : Int32) :
    s.InDomain start stop incr ↔ s.Lawful start stop incr := by
  have hnot := h.break_ne_failed hbound
  have hge := h.break_ge
  have hlt := h.break_lt
  unfold InDomain Lawful
  rcases h.sbrk_cases hpos hbound incr with ⟨hnonneg, hstop, hresult, hbreak, -⟩ |
    ⟨hout, hresult, hbreak, -⟩
  · rw [hresult, hbreak]
    by_cases hin : start ≤ s.asked incr ∧ s.asked incr ≤ stop
    · rw [if_pos hin]
      exact iff_of_true ⟨by omega, by omega⟩ ⟨rfl, rfl⟩
    · rw [if_neg hin]
      exact iff_of_false (fun hdomain => hdomain.2 (by omega)) fun hlawful => hnot hlawful.1
  · rw [hresult, hbreak]
    by_cases hin : start ≤ s.asked incr ∧ s.asked incr ≤ stop
    · rw [if_pos hin]
      exact iff_of_false (fun hdomain => hdomain.1 (by omega)) fun hlawful => hnot hlawful.1.symm
    · rw [if_neg hin]
      exact iff_of_true ⟨by omega, by omega⟩ ⟨rfl, rfl⟩

/-! ## Runs -/

theorem keepBelow_spec {regions : List (Nat × Nat)}
    (hsorted : regions.Pairwise fun r r' => r'.2 ≤ r.1) (top : Nat) :
    (keepBelow top regions).Pairwise (fun r r' => r'.2 ≤ r.1) ∧
      ∀ r ∈ keepBelow top regions, r.2 ≤ top ∧ ∃ r' ∈ regions, r.1 = r'.1 := by
  unfold keepBelow
  constructor
  · rw [List.pairwise_map]
    refine (hsorted.filter _).imp fun hle => ?_
    exact (Nat.min_le_left _ _).trans hle
  · intro r hr
    obtain ⟨r', hr', rfl⟩ := List.mem_map.mp hr
    exact ⟨Nat.min_le_right _ _, r', List.mem_of_mem_filter hr', rfl⟩

section Change

variable {s' : HeapRun} (h : HeapInv start stop s)
  (hend : s'.heap.programBreakEnd = s.heap.programBreakEnd)
include h hend

/-- The break moves up over a new region. -/
theorem HeapInv.of_grow (hlt : s'.heap.programBreak.toNat < stop)
    (hup : s.heap.programBreak.toNat ≤ s'.heap.programBreak.toNat)
    (hgranted : s'.granted =
      (s.heap.programBreak.toNat, s'.heap.programBreak.toNat) :: s.granted) :
    HeapInv start stop s' := by
  refine ⟨h.break_ge.trans hup, hlt, hend ▸ h.breakEnd, ?_, ?_⟩
  · rw [hgranted]
    exact List.pairwise_cons.mpr ⟨fun r hr => (h.within r hr).2, h.sorted⟩
  · rw [hgranted]
    intro r hr
    rcases List.mem_cons.mp hr with rfl | hr
    · exact ⟨h.break_ge, le_rfl⟩
    · exact ⟨(h.within r hr).1, (h.within r hr).2.trans hup⟩

/-- The break moves to an address of the heap, and what lies above it is given back. -/
theorem HeapInv.of_shrink (hge : start ≤ s'.heap.programBreak.toNat)
    (hlt : s'.heap.programBreak.toNat < stop)
    (hgranted : s'.granted = keepBelow s'.heap.programBreak.toNat s.granted) :
    HeapInv start stop s' := by
  obtain ⟨hsorted, hkept⟩ := keepBelow_spec h.sorted s'.heap.programBreak.toNat
  refine ⟨hge, hlt, hend ▸ h.breakEnd, hgranted ▸ hsorted, ?_⟩
  rw [hgranted]
  intro r hr
  obtain ⟨htop, r', hr', hfrom⟩ := hkept r hr
  exact ⟨hfrom ▸ (h.within r' hr').1, htop⟩

/-- The call fails. -/
theorem HeapInv.of_same (hsame : s'.heap.programBreak = s.heap.programBreak)
    (hgranted : s'.granted = s.granted) : HeapInv start stop s' := by
  refine ⟨hsame ▸ h.break_ge, hsame ▸ h.break_lt, hend ▸ h.breakEnd, hgranted ▸ h.sorted, ?_⟩
  rw [hgranted, hsame]
  exact h.within

end Change

/-- **The step lemma**: an increment of the domain keeps the break and the regions in the heap. -/
theorem heapInv_preserved (hpos : 0 < start) (hbound : stop ≤ kFrameCount * kBytesPerFrame) :
    Preserves step (InDomain start stop) (HeapInv start stop) := by
  intro s incr h hdomain
  refine ⟨s.next incr, rfl, ?_⟩
  have hnot := h.break_ne_failed hbound
  rcases h.sbrk_cases hpos hbound incr with ⟨hnonneg, hstop, hresult, hbreak, hend⟩ |
    ⟨-, hresult, hbreak, hend⟩
  · have hasked : ((s.next incr).heap.programBreak.toNat : Int) = s.asked incr := hbreak
    have hlt : (s.next incr).heap.programBreak.toNat < stop := by
      rw [← hasked] at hstop
      exact Int.ofNat_lt.mp hstop
    by_cases hgrow : 0 < incr.toInt
    · apply h.of_grow hend hlt
      · unfold asked at hasked
        omega
      · unfold next
        rw [hresult, if_neg hnot, if_pos hgrow]
    · apply h.of_shrink hend _ hlt
      · unfold next
        rw [hresult, if_neg hnot, if_neg hgrow]
      · by_contra hbelow
        exact hdomain.2 ⟨hnonneg, by omega⟩
  · apply h.of_same hend hbreak
    unfold next
    rw [hresult, if_pos rfl]

theorem heapInv_init (hlt : start < stop) (hbound : stop ≤ kFrameCount * kBytesPerFrame) :
    HeapInv start stop (init start stop) := by
  have htoNat : ∀ n ≤ kFrameCount * kBytesPerFrame, (UInt64.ofNat n).toNat = n := by
    intro n hn
    simp only [kFrameCount, kBytesPerFrame] at hn
    rw [UInt64.toNat_ofNat', Nat.mod_eq_of_lt (by omega)]
  refine ⟨(htoNat start (by omega)).ge, ?_, htoNat stop hbound, List.Pairwise.nil, ?_⟩
  · exact (htoNat start (by omega)).trans_lt hlt
  · exact fun r hr => absurd hr List.not_mem_nil

/-- The heap is a block of frames of the bitmap, and it does not start at address 0. -/
theorem heap_of_init {memoryMap : List MemoryDescriptor} {mm : BitmapMemoryManager}
    (hinit : initializeMemoryManager memoryMap = some (mm, .ok (start, stop))) :
    ∃ f, 1 ≤ f ∧ f + kHeapFrames ≤ kFrameCount ∧ start = f * kBytesPerFrame ∧
      stop = start + kHeapFrames * kBytesPerFrame ∧
      BitmapMemoryManager.frames f kHeapFrames ⊆ mm.used := by
  obtain ⟨mm₀, hrange, hheap⟩ := Option.bind_eq_some_iff.mp hinit
  have hbegin : mm₀.rangeBegin = 1 := by
    obtain ⟨st, -, hmm⟩ := Option.bind_eq_some_iff.mp hrange
    cases hmm
    rfl
  obtain ⟨⟨mm₁, f, error⟩, halloc, hresult⟩ := Option.bind_eq_some_iff.mp hheap
  by_cases hok : error = .kSuccess
  · subst hok
    cases hresult
    obtain ⟨hle, hblock, hused⟩ := BitmapMemoryManager.allocateFrom_success halloc
    have hlast := hblock (kHeapFrames - 1) (by decide)
    refine ⟨f, hbegin ▸ hle, ?_, rfl, rfl, ?_⟩
    · simp only [kHeapFrames] at hlast ⊢
      omega
    · rw [hused]
      exact Set.subset_union_right
  · simp only [ne_eq, hok, not_false_eq_true, if_true] at hresult
    cases hresult

/-- **The heap does not leave its region.** In every run whose increments are of the domain, the
break and the granted regions stay in the heap, and `sbrk` does what it should exactly on the
increments of the domain. -/
theorem heap_stays_in_region {memoryMap : List MemoryDescriptor} {mm : BitmapMemoryManager}
    (hinit : initializeMemoryManager memoryMap = some (mm, .ok (start, stop)))
    (hr : Reachable step (InDomain start stop) (init start stop) s) :
    s.InHeap mm start stop ∧ ∀ incr, s.InDomain start stop incr ↔ s.Lawful start stop incr := by
  obtain ⟨f, hf, hend, rfl, rfl, hused⟩ := heap_of_init hinit
  have hpos : 0 < f * kBytesPerFrame := Nat.mul_pos hf (by decide)
  have hbound : f * kBytesPerFrame + kHeapFrames * kBytesPerFrame ≤
      kFrameCount * kBytesPerFrame := by
    rw [← Nat.add_mul]
    exact Nat.mul_le_mul_right _ hend
  have hinv : HeapInv _ _ s := hr.invariant
    (heapInv_init (Nat.lt_add_of_pos_right (by decide)) hbound) (heapInv_preserved hpos hbound)
  refine ⟨⟨hinv.break_ge, hinv.break_lt.le, ?_, ?_⟩, hinv.inDomain_iff_lawful hpos hbound⟩
  · refine hinv.sorted.imp fun hle => ?_
    refine Set.disjoint_left.mpr fun a ha ha' => ?_
    exact absurd (ha'.2.trans_le hle) (Nat.not_lt.mpr ha.1)
  · intro r hr' a ha
    obtain ⟨hfrom, hto⟩ := hinv.within r hr'
    have hframe : a / kBytesPerFrame ∈ BitmapMemoryManager.frames f kHeapFrames := by
      have hlow : f ≤ a / kBytesPerFrame :=
        (Nat.le_div_iff_mul_le (by decide)).mpr (hfrom.trans ha.1)
      have hhigh : a / kBytesPerFrame < f + kHeapFrames := by
        rw [Nat.div_lt_iff_lt_mul (by decide), Nat.add_mul]
        exact (ha.2.trans_le hto).trans hinv.break_lt
      exact ⟨hlow, hhigh⟩
    rw [Nat.mul_div_cancel f (by decide)]
    exact ⟨hframe, hused hframe⟩

/-- On a machine with 256 MiB the heap is the first block of frames. -/
theorem heap_of_lowMemoryMap : ∃ mm, initializeMemoryManager (lowMemoryMap 0x10000) =
    some (mm, .ok (0x1000, 0x8001000)) := by
  obtain ⟨mm, ⟨start, stop⟩, hinit, hused, -⟩ := initializeMemoryManager_lowMemoryMap
    (by decide : (0x10000 : UInt64).toNat ≤ kFrameCount) (by decide)
  obtain ⟨f, hf, -, rfl, rfl, hsubset⟩ := heap_of_init hinit
  have hlast : f + (kHeapFrames - 1) ∈ BitmapMemoryManager.frames 1 kHeapFrames := by
    rw [← hused]
    exact hsubset ⟨Nat.le_add_right _ _, Nat.add_lt_add_left (by decide) f⟩
  obtain rfl : f = 1 := by
    have hlt := hlast.2
    simp only [kHeapFrames] at hlt
    omega
  exact ⟨mm, hinit⟩

/-- A block of 64 bytes. -/
theorem heap_stays_in_region_lowMemoryMap : ∃ mm,
    ((init 0x1000 0x8001000).next 64).InHeap mm 0x1000 0x8001000 := by
  obtain ⟨mm, hinit⟩ := heap_of_lowMemoryMap
  have hdomain : (init 0x1000 0x8001000).InDomain 0x1000 0x8001000 64 := by
    unfold InDomain
    decide
  exact ⟨mm, (heap_stays_in_region hinit (.step .init hdomain rfl)).1⟩

/-- The first call may give back memory below the heap. -/
theorem heap_leaves_region : ¬∀ memoryMap mm start stop s,
    initializeMemoryManager memoryMap = some (mm, .ok (start, stop)) →
      Reachable step (fun _ _ => True) (init start stop) s →
        s.InHeap mm start stop ∧ ∀ incr, s.Lawful start stop incr := by
  intro h
  obtain ⟨mm, hinit⟩ := heap_of_lowMemoryMap
  have hin := (h _ mm 0x1000 0x8001000 ((init 0x1000 0x8001000).next (-1)) hinit
    (.step .init trivial rfl)).1
  exact absurd hin.break_ge (by decide)

/-- The last byte of the heap is never granted. -/
example : ((init 0x1000 0x8001000).heap.sbrk 0x8000000).1 = sbrkFailed := by decide

end HeapRun

end UhyokOS
