import UhyokOS.Memory.Bitmap
import UhyokOS.Lib.Transition

/-!
# The boot memory map

The model of `InitializeMemoryManager`: one pass over the UEFI memory map marks what may not be
used, then the range of the allocator is set and the heap is allocated. The map is the list of the
descriptors the loop visits. Addresses are 64-bit and wrap as in the source; `endAddr` is the end
of a descriptor as a number, and the two agree for descriptors below `kMaxPhysicalMemoryBytes`.

* `visit_spec`: one iteration marks the gap below the descriptor and, if it is not available, the
  descriptor.
* `BootSound` is what every prefix of any map guarantees, `BootExact` what it guarantees besides
  when the map is sorted and disjoint.
* `boot_free_set`: the free frames are frames of available memory, and on a sorted disjoint map
  they are all of them.
-/

namespace UhyokOS

open Transition

/-- Source: `kernel/memory_map.hpp`, `MemoryType` -/
inductive MemoryType
  | kEfiReservedMemoryType | kEfiLoaderCode | kEfiLoaderData | kEfiBootServicesCode
  | kEfiBootServicesData | kEfiRuntimeServicesCode | kEfiRuntimeServicesData
  | kEfiConventionalMemory | kEfiUnusableMemory | kEfiACPIReclaimMemory | kEfiACPIMemoryNVS
  | kEfiMemoryMappedIO | kEfiMemoryMappedIOPortSpace | kEfiPalCode | kEfiPersistentMemory
  | kEfiMaxMemoryType
  deriving DecidableEq

/-- `static_cast<uint32_t>` of an enumerator. -/
def MemoryType.value (t : MemoryType) : UInt32 := UInt32.ofNat t.ctorIdx

/-- The fields of a descriptor that are read.
Source: `kernel/memory_map.hpp`, `MemoryDescriptor` -/
structure MemoryDescriptor where
  /-- `type` -/
  type : UInt32
  /-- `physical_start` -/
  physicalStart : UInt64
  /-- `number_of_pages` -/
  numberOfPages : UInt64

/-- Source: `kernel/memory_map.hpp`, `IsAvailable` -/
def isAvailable (memoryType : UInt32) : Bool :=
  memoryType == MemoryType.value .kEfiBootServicesCode ||
    memoryType == MemoryType.value .kEfiBootServicesData ||
    memoryType == MemoryType.value .kEfiConventionalMemory

/-- Source: `kernel/memory_map.hpp`, `kUEFIPageSize` -/
abbrev kUEFIPageSize : UInt64 := 4096

/-- `FrameID{address / kBytesPerFrame}`. -/
def frameOf (address : UInt64) : Nat := address.toNat / kBytesPerFrame

/-- The variables of the descriptor loop. -/
structure BootScan where
  /-- `*memory_manager` -/
  mm : BitmapMemoryManager := {}
  /-- `available_end` -/
  availableEnd : UInt64 := 0

/-- The body of the descriptor loop.
Source: `kernel/memory_manager.cpp`, `InitializeMemoryManager` -/
def BootScan.visit (st : BootScan) (desc : MemoryDescriptor) : Option BootScan := do
  let gapMarked :=
    if st.availableEnd < desc.physicalStart then
      st.mm.markAllocated (frameOf st.availableEnd) (frameOf (desc.physicalStart - st.availableEnd))
    else some st.mm
  let mm ← gapMarked
  let physicalEnd := desc.physicalStart + desc.numberOfPages * kUEFIPageSize
  if isAvailable desc.type then
    return { mm := mm, availableEnd := physicalEnd }
  let mm ← mm.markAllocated (frameOf desc.physicalStart)
    (frameOf (desc.numberOfPages * kUEFIPageSize))
  return { mm := mm, availableEnd := st.availableEnd }

/-- The descriptor loop and `SetMemoryRange`.
Source: `kernel/memory_manager.cpp`, `InitializeMemoryManager` -/
def initializeRange (memoryMap : List MemoryDescriptor) : Option BitmapMemoryManager := do
  let st ← memoryMap.foldlM BootScan.visit {}
  return st.mm.setMemoryRange 1 (frameOf st.availableEnd)

/-- `kHeapFrames` -/
abbrev kHeapFrames : Nat := 64 * 512

/-- The heap is a block of frames; the result gives `program_break` and `program_break_end`.
Source: `kernel/memory_manager.cpp`, `InitializeHeap` -/
def initializeHeap (mm : BitmapMemoryManager) :
    Option (BitmapMemoryManager × Except Error (Nat × Nat)) := do
  let (mm, heapStart, error) ← mm.allocate kHeapFrames
  if error ≠ .kSuccess then
    return (mm, .error error)
  let programBreak := heapStart * kBytesPerFrame
  return (mm, .ok (programBreak, programBreak + kHeapFrames * kBytesPerFrame))

/-- Source: `kernel/memory_manager.cpp`, `InitializeMemoryManager` -/
def initializeMemoryManager (memoryMap : List MemoryDescriptor) :
    Option (BitmapMemoryManager × Except Error (Nat × Nat)) := do
  let mm ← initializeRange memoryMap
  initializeHeap mm

/-! ## Descriptors as sets of frames -/

namespace MemoryDescriptor

variable {d : MemoryDescriptor} {f : Nat}

/-- The address right after a descriptor. -/
def endAddr (d : MemoryDescriptor) : Nat :=
  d.physicalStart.toNat + d.numberOfPages.toNat * kBytesPerFrame

/-- The frame starts inside the descriptor. -/
def Covers (d : MemoryDescriptor) (f : Nat) : Prop :=
  d.physicalStart.toNat ≤ f * kBytesPerFrame ∧ f * kBytesPerFrame < d.endAddr

/-- The descriptor is aligned to frames and the bitmap reaches to its end. -/
structure InBitmap (d : MemoryDescriptor) : Prop where
  aligned : kBytesPerFrame ∣ d.physicalStart.toNat
  bound : d.endAddr ≤ kFrameCount * kBytesPerFrame

/-- The descriptors are sorted by address and do not overlap: each ends where or before any later
one starts. -/
def SortedDisjoint (memoryMap : List MemoryDescriptor) : Prop :=
  memoryMap.Pairwise fun d e => d.endAddr ≤ e.physicalStart.toNat

/-- For descriptors that are not empty, sorted by start and pairwise without a common frame, this
is what sorted and disjoint means. -/
theorem sortedDisjoint_iff {memoryMap : List MemoryDescriptor}
    (hd : ∀ d ∈ memoryMap, d.InBitmap ∧ d.numberOfPages ≠ 0) :
    SortedDisjoint memoryMap ↔
      memoryMap.Pairwise fun d e => d.physicalStart.toNat ≤ e.physicalStart.toNat ∧
        ∀ f, ¬(d.Covers f ∧ e.Covers f) := by
  have hpages : ∀ d ∈ memoryMap, d.physicalStart.toNat < d.endAddr := by
    intro d hmem
    have : 0 < d.numberOfPages.toNat := by
      have h0 := (hd d hmem).2
      rw [Nat.pos_iff_ne_zero]
      exact fun h => h0 (UInt64.toNat_inj.mp h)
    unfold endAddr
    simp only [kBytesPerFrame]
    omega
  unfold SortedDisjoint
  constructor
  · intro h
    refine h.imp_of_mem fun {d e} hdm _ hde => ⟨le_trans (hpages d hdm).le hde, ?_⟩
    rintro f ⟨⟨-, hlt⟩, hge, -⟩
    omega
  · intro h
    refine h.imp_of_mem fun {d e} _ hem ⟨hle, hdisj⟩ => ?_
    obtain ⟨k, hk⟩ := (hd e hem).1.aligned
    by_contra hlt
    -- the first frame of the later descriptor would belong to both
    refine hdisj k ⟨⟨?_, ?_⟩, ?_, ?_⟩ <;> rw [Nat.mul_comm k, ← hk]
    · exact hle
    · omega
    · exact hpages e hem

/-- A frame that starts inside a descriptor lies inside it. -/
theorem Covers.whole (hd : d.InBitmap) (hf : d.Covers f) :
    d.physicalStart.toNat ≤ f * kBytesPerFrame ∧ (f + 1) * kBytesPerFrame ≤ d.endAddr := by
  obtain ⟨k, hk⟩ := hd.aligned
  obtain ⟨hge, hlt⟩ := hf
  refine ⟨hge, ?_⟩
  unfold endAddr at hlt ⊢
  simp only [kBytesPerFrame] at *
  omega

/-- The address arithmetic of the loop does not wrap. -/
theorem InBitmap.toNat_size (hd : d.InBitmap) :
    (d.numberOfPages * kUEFIPageSize).toNat = d.numberOfPages.toNat * kBytesPerFrame := by
  have hb := hd.bound
  unfold endAddr at hb
  rw [UInt64.toNat_mul]
  apply Nat.mod_eq_of_lt
  have : kUEFIPageSize.toNat = kBytesPerFrame := rfl
  rw [this]
  simp only [kBytesPerFrame, kFrameCount] at *
  omega

theorem InBitmap.toNat_end (hd : d.InBitmap) :
    (d.physicalStart + d.numberOfPages * kUEFIPageSize).toNat = d.endAddr := by
  have hb := hd.bound
  rw [UInt64.toNat_add, hd.toNat_size]
  apply Nat.mod_eq_of_lt
  unfold endAddr at hb
  simp only [kBytesPerFrame, kFrameCount] at *
  omega

theorem InBitmap.dvd_end (hd : d.InBitmap) : kBytesPerFrame ∣ d.endAddr :=
  Nat.dvd_add hd.aligned (Nat.dvd_mul_left _ _)

end MemoryDescriptor

/-! ## One iteration -/

/-- Marking a region of memory marks the frames that start in it. -/
theorem markAllocated_region (mm : BitmapMemoryManager) {address size : UInt64}
    (ha : kBytesPerFrame ∣ address.toNat) (hs : kBytesPerFrame ∣ size.toNat)
    (hbound : address.toNat + size.toNat ≤ kFrameCount * kBytesPerFrame) :
    ∃ mm', mm.markAllocated (frameOf address) (frameOf size) = some mm' ∧
      ∀ f, f ∈ mm'.used ↔ f ∈ mm.used ∨ (address.toNat ≤ f * kBytesPerFrame ∧
        f * kBytesPerFrame < address.toNat + size.toNat) := by
  obtain ⟨a, ha⟩ := ha
  obtain ⟨n, hn⟩ := hs
  have hstart : frameOf address = a := by simp [frameOf, ha]
  have hsize : frameOf size = n := by simp [frameOf, hn]
  have hin : ∀ k < n, a + k < kFrameCount := by
    intro k hk
    simp only [kBytesPerFrame, kFrameCount] at *
    omega
  obtain ⟨mm', heq, -, hused⟩ := mm.markAllocated_spec hin
  refine ⟨mm', by rw [hstart, hsize, heq], fun f => ?_⟩
  rw [hused, Set.mem_union, BitmapMemoryManager.mem_frames, ha, hn]
  apply or_congr_right
  simp only [kBytesPerFrame]
  omega

/-- One iteration: the gap between the available memory so far and the descriptor is marked, and so
is a descriptor that is not available; the end of an available one is the new end. -/
theorem visit_spec {st : BootScan} {d : MemoryDescriptor} (hd : d.InBitmap)
    (hend : kBytesPerFrame ∣ st.availableEnd.toNat) :
    ∃ st', st.visit d = some st' ∧
      st'.availableEnd.toNat =
        (if isAvailable d.type = true then d.endAddr else st.availableEnd.toNat) ∧
      ∀ f, f ∈ st'.mm.used ↔ f ∈ st.mm.used ∨
        (st.availableEnd.toNat ≤ f * kBytesPerFrame ∧
          f * kBytesPerFrame < d.physicalStart.toNat) ∨
        (isAvailable d.type = false ∧ d.Covers f) := by
  have hbound := hd.bound
  have hgap : ∃ mm', (if st.availableEnd < d.physicalStart then
      st.mm.markAllocated (frameOf st.availableEnd) (frameOf (d.physicalStart - st.availableEnd))
      else some st.mm) = some mm' ∧ ∀ f, f ∈ mm'.used ↔ f ∈ st.mm.used ∨
        (st.availableEnd.toNat ≤ f * kBytesPerFrame ∧
          f * kBytesPerFrame < d.physicalStart.toNat) := by
    split_ifs with hlt
    · have hle : st.availableEnd.toNat ≤ d.physicalStart.toNat := (UInt64.lt_iff_toNat_lt.mp hlt).le
      have hsub : (d.physicalStart - st.availableEnd).toNat =
          d.physicalStart.toNat - st.availableEnd.toNat :=
        UInt64.toNat_sub_of_le _ _ (UInt64.le_iff_toNat_le.mpr hle)
      have hdvd : kBytesPerFrame ∣ (d.physicalStart - st.availableEnd).toNat :=
        hsub ▸ Nat.dvd_sub hd.aligned hend
      obtain ⟨mm', heq, hused⟩ := markAllocated_region st.mm hend hdvd (by
        rw [hsub, Nat.add_sub_cancel' hle]
        exact le_trans (Nat.le_add_right _ _) hbound)
      rw [hsub, Nat.add_sub_cancel' hle] at hused
      exact ⟨mm', heq, hused⟩
    · have hge : d.physicalStart.toNat ≤ st.availableEnd.toNat :=
        not_lt.mp fun h => hlt (UInt64.lt_iff_toNat_lt.mpr h)
      refine ⟨st.mm, rfl, fun f => ⟨Or.inl, fun h => h.resolve_right ?_⟩⟩
      omega
  obtain ⟨mm₁, heq₁, hused₁⟩ := hgap
  unfold BootScan.visit
  simp only [heq₁, Option.bind_eq_bind, Option.bind_some]
  by_cases hav : isAvailable d.type = true
  · simp only [hav, if_true]
    refine ⟨_, rfl, hd.toNat_end, fun f => (hused₁ f).trans ?_⟩
    simp
  · have hdvd : kBytesPerFrame ∣ (d.numberOfPages * kUEFIPageSize).toNat :=
      hd.toNat_size ▸ Nat.dvd_mul_left _ _
    obtain ⟨mm₂, heq₂, hused₂⟩ := markAllocated_region mm₁ hd.aligned hdvd
      (by rw [hd.toNat_size]; exact hbound)
    simp only [if_neg hav, heq₂, Option.bind_some]
    refine ⟨_, rfl, rfl, fun f => (hused₂ f).trans ?_⟩
    rw [hused₁, or_assoc, hd.toNat_size]
    have hav' : isAvailable d.type = false := by simpa using hav
    simp only [hav', true_and]
    rfl

/-! ## The whole map -/

/-- What the loop guarantees after any prefix of any map: a free frame below the end of the
available memory is covered by an available descriptor, and the frames of the other descriptors are
marked. -/
structure BootSound (seen : List MemoryDescriptor) (st : BootScan) : Prop where
  aligned : kBytesPerFrame ∣ st.availableEnd.toNat
  bound : st.availableEnd.toNat ≤ kFrameCount * kBytesPerFrame
  free : ∀ f, f * kBytesPerFrame < st.availableEnd.toNat → f ∉ st.mm.used →
    ∃ d ∈ seen, isAvailable d.type = true ∧ d.Covers f
  marked : ∀ d ∈ seen, isAvailable d.type = false → ∀ f, d.Covers f → f ∈ st.mm.used

/-- What it guarantees besides if the map is sorted and disjoint: no frame of an available
descriptor is marked. -/
structure BootExact (memoryMap seen : List MemoryDescriptor) (st : BootScan) : Prop where
  unmarked : ∀ f ∈ st.mm.used, ∀ d ∈ memoryMap, isAvailable d.type = true → ¬d.Covers f
  below : ∀ d ∈ seen, isAvailable d.type = true → d.endAddr ≤ st.availableEnd.toNat

theorem used_init : (({} : BootScan).mm).used = ∅ := by
  rw [BitmapMemoryManager.used_eq_bits]
  ext f
  simp [PackedBits.bits]

theorem bootSound_init : BootSound [] {} :=
  ⟨Nat.dvd_zero _, Nat.zero_le _, fun _ hf => absurd hf (Nat.not_lt_zero _),
    fun _ hd => absurd hd List.not_mem_nil⟩

theorem bootExact_init (memoryMap : List MemoryDescriptor) : BootExact memoryMap [] {} :=
  ⟨fun f hf => absurd (used_init ▸ hf : f ∈ (∅ : Set Nat)) (Set.notMem_empty f),
    fun _ hd => absurd hd List.not_mem_nil⟩

variable {seen rest memoryMap : List MemoryDescriptor} {st : BootScan} {d : MemoryDescriptor}

theorem BootSound.visit (h : BootSound seen st) (hd : d.InBitmap) :
    ∃ st', st.visit d = some st' ∧ BootSound (seen ++ [d]) st' := by
  obtain ⟨st', heq, hend, hused⟩ := visit_spec hd h.aligned
  refine ⟨st', heq, ⟨?_, ?_, fun f hf hfree => ?_, fun e he hav f hcov => ?_⟩⟩
  · rw [hend]
    split_ifs
    · exact hd.dvd_end
    · exact h.aligned
  · rw [hend]
    split_ifs
    · exact hd.bound
    · exact h.bound
  · rw [hused] at hfree
    simp only [not_or, not_and] at hfree
    obtain ⟨hfree, hgap, -⟩ := hfree
    by_cases hold : f * kBytesPerFrame < st.availableEnd.toNat
    · obtain ⟨e, he, hav, hcov⟩ := h.free f hold hfree
      exact ⟨e, List.mem_append_left _ he, hav, hcov⟩
    · -- the frame is new available memory: it is not in the gap, so the descriptor covers it
      have hge := hgap (not_lt.mp hold)
      rw [hend] at hf
      split_ifs at hf with hav
      · exact ⟨d, by simp, hav, not_lt.mp hge, hf⟩
      · exact absurd hf hold
  · rw [hused]
    rcases List.mem_append.mp he with he | he
    · exact Or.inl (h.marked e he hav f hcov)
    · rcases List.mem_singleton.mp he with rfl
      exact Or.inr (Or.inr ⟨hav, hcov⟩)

theorem BootExact.visit (h : BootExact memoryMap seen st) (hsound : BootSound seen st)
    (hd : d.InBitmap) (hmap : seen ++ d :: rest = memoryMap)
    (hsorted : MemoryDescriptor.SortedDisjoint memoryMap) {st' : BootScan}
    (hst' : st.visit d = some st') : BootExact memoryMap (seen ++ [d]) st' := by
  obtain ⟨st'', heq, hend, hused⟩ := visit_spec hd hsound.aligned
  rw [hst'] at heq
  cases heq
  subst hmap
  obtain ⟨-, hlater, hbefore⟩ := List.pairwise_append.mp hsorted
  have hafter := (List.pairwise_cons.mp hlater).1
  have hstart : d.physicalStart.toNat ≤ d.endAddr := Nat.le_add_right _ _
  refine ⟨fun f hf e he hav hcov => ?_, fun e he hav => ?_⟩
  · obtain ⟨hge, hlt⟩ := hcov
    rw [hused] at hf
    rcases hf with hf | ⟨hf₁, hf₂⟩ | ⟨hun, hf₁, hf₂⟩
    · exact h.unmarked f hf e he hav ⟨hge, hlt⟩
    · rcases List.mem_append.mp he with he | he
      · have := h.below e he hav
        omega
      · rcases List.mem_cons.mp he with rfl | he
        · omega
        · have := hafter e he
          omega
    · rcases List.mem_append.mp he with he | he
      · have := hbefore e he d List.mem_cons_self
        omega
      · rcases List.mem_cons.mp he with rfl | he
        · rw [hav] at hun
          cases hun
        · have := hafter e he
          omega
  · rw [hend]
    rcases List.mem_append.mp he with he | he
    · split_ifs
      · exact le_trans (hbefore e he d List.mem_cons_self) hstart
      · exact h.below e he hav
    · rcases List.mem_singleton.mp he with rfl
      rw [if_pos hav]

/-- The loop visits the whole map. -/
theorem markMap_spec (hmap : ∀ d ∈ memoryMap, d.InBitmap) :
    ∃ st, memoryMap.foldlM BootScan.visit {} = some st ∧ BootSound memoryMap st ∧
      (MemoryDescriptor.SortedDisjoint memoryMap → BootExact memoryMap memoryMap st) := by
  rw [← run_eq_foldlM]
  refine run_of_prefixes (P := fun seen st => BootSound seen st ∧
    (MemoryDescriptor.SortedDisjoint memoryMap → BootExact memoryMap seen st))
    ⟨bootSound_init, fun _ => bootExact_init memoryMap⟩ memoryMap ?_
  rintro seen d rest st hsplit ⟨hsound, hexact⟩
  have hd : d.InBitmap := hmap d (hsplit ▸ by simp)
  obtain ⟨st', heq, hsound'⟩ := hsound.visit hd
  exact ⟨st', heq, hsound', fun hsorted => (hexact hsorted).visit hsound hd hsplit hsorted heq⟩

/-- **The boot memory map is turned into the right free set.** On every memory map whose
descriptors are aligned and end within the bitmap, in any order and overlapping at will, the loop
is defined, and every frame of the allocator's range whose bit is clear lies in an available
descriptor and in no other one. If the map is sorted and disjoint, then conversely the bit of every
frame of the range in an available descriptor is clear. -/
theorem boot_free_set (hmap : ∀ d ∈ memoryMap, d.InBitmap) :
    ∃ mm, initializeRange memoryMap = some mm ∧ mm.rangeBegin = 1 ∧
      mm.rangeEnd ≤ kFrameCount ∧
      (∀ f, 1 ≤ f → f < mm.rangeEnd → mm.getBit f = some false →
        (∃ d ∈ memoryMap, isAvailable d.type = true ∧ d.Covers f) ∧
        ∀ d ∈ memoryMap, d.Covers f → isAvailable d.type = true) ∧
      (MemoryDescriptor.SortedDisjoint memoryMap → ∀ f, 1 ≤ f → f < mm.rangeEnd →
        (∃ d ∈ memoryMap, isAvailable d.type = true ∧ d.Covers f) → mm.getBit f = some false) := by
  obtain ⟨st, heq, hsound, hexact⟩ := markMap_spec hmap
  obtain ⟨e, he⟩ := hsound.aligned
  have hbound := hsound.bound
  have hframe : frameOf st.availableEnd = e := by simp [frameOf, he]
  have hle : e ≤ kFrameCount := by
    simp only [kBytesPerFrame, kFrameCount] at *
    omega
  have hbelow : ∀ f, f < e → f * kBytesPerFrame < st.availableEnd.toNat := by
    intro f hf
    simp only [kBytesPerFrame] at *
    omega
  have hrange : initializeRange memoryMap = some (st.mm.setMemoryRange 1 e) := by
    unfold initializeRange
    rw [heq, ← hframe]
    rfl
  refine ⟨st.mm.setMemoryRange 1 e, hrange, rfl, hle,
    fun f _ hf hbit => ?_, fun hsorted f _ hf hcov => ?_⟩
  · have hfree : f ∉ st.mm.used := by
      intro hin
      have hin' : st.mm.getBit f = some true := hin
      have hbit' : st.mm.getBit f = some false := hbit
      rw [hin'] at hbit'
      cases hbit'
    refine ⟨hsound.free f (hbelow f hf) hfree, fun d hd hcov => ?_⟩
    by_contra hav
    exact hfree (hsound.marked d hd (by simpa using hav) f hcov)
  · obtain ⟨d, hd, hav, hcov⟩ := hcov
    obtain ⟨b, hb, hiff⟩ := st.mm.getBit_spec (lt_of_lt_of_le hf hle)
    cases b with
    | false => exact hb
    | true => exact absurd hcov ((hexact hsorted).unmarked f (hiff.mp rfl) d hd hav)

/-- Conventional memory, a reserved range, a hole, and conventional memory again. -/
def smallMap : List MemoryDescriptor :=
  [{ type := 7, physicalStart := 0, numberOfPages := 3 },
    { type := 0, physicalStart := 0x3000, numberOfPages := 1 },
    { type := 7, physicalStart := 0x6000, numberOfPages := 2 }]

theorem boot_free_set_smallMap :
    ∃ mm, initializeRange smallMap = some mm ∧
      (∀ f, 1 ≤ f → f < mm.rangeEnd → mm.getBit f = some false →
        ∃ d ∈ smallMap, isAvailable d.type = true ∧ d.Covers f) ∧
      ∀ f, 1 ≤ f → f < mm.rangeEnd →
        (∃ d ∈ smallMap, isAvailable d.type = true ∧ d.Covers f) → mm.getBit f = some false := by
  have hmap : ∀ d ∈ smallMap, d.InBitmap := by
    intro d hd
    simp only [smallMap, List.mem_cons, List.not_mem_nil, or_false] at hd
    rcases hd with rfl | rfl | rfl <;> exact ⟨by decide, by decide⟩
  have hsorted : MemoryDescriptor.SortedDisjoint smallMap := by
    unfold MemoryDescriptor.SortedDisjoint
    decide
  obtain ⟨mm, heq, -, -, hsound, hexact⟩ := boot_free_set hmap
  exact ⟨mm, heq, fun f h₁ h₂ h₃ => (hsound f h₁ h₂ h₃).1, hexact hsorted⟩

end UhyokOS
