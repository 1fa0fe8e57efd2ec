import UhyokOS.Memory.BootMap
import UhyokOS.Memory.Frames
import UhyokOS.Memory.Paging

/-!
# Allocated frames and the identity page table

The range of the frame allocator comes from the boot memory map, the range of the page tables from
`kPageDirectoryCount`. Nothing in the source compares the two.

* `initializeMemoryManager_range`: the range ends where the last available descriptor ends.
* `run_sameRange`: no call changes the range.
* `blocks_translated_iff`: every address of every block is translated to itself iff the range lies
  in the mapped part of memory.
-/

namespace UhyokOS

open Transition PageWalk

/-! ## The range -/

/-- The end of the last available descriptor of the map, 0 if there is none. -/
def lastAvailableEnd (memoryMap : List MemoryDescriptor) : Nat :=
  memoryMap.foldl (fun last d => if isAvailable d.type = true then d.endAddr else last) 0

theorem lastAvailableEnd_append (seen : List MemoryDescriptor) (d : MemoryDescriptor) :
    lastAvailableEnd (seen ++ [d]) =
      if isAvailable d.type = true then d.endAddr else lastAvailableEnd seen := by
  unfold lastAvailableEnd
  rw [List.foldl_append]
  rfl

variable {memoryMap : List MemoryDescriptor} {mm : BitmapMemoryManager}

theorem initializeRange_range (hmap : ∀ d ∈ memoryMap, d.InBitmap)
    (h : initializeRange memoryMap = some mm) :
    mm.rangeBegin = 1 ∧ mm.rangeEnd * kBytesPerFrame = lastAvailableEnd memoryMap ∧
      mm.rangeEnd ≤ kFrameCount := by
  obtain ⟨st, hst, hmm⟩ := Option.bind_eq_some_iff.mp h
  cases hmm
  rw [← run_eq_foldlM] at hst
  obtain ⟨hdvd, hend, hbound⟩ : kBytesPerFrame ∣ st.availableEnd.toNat ∧
      st.availableEnd.toNat = lastAvailableEnd memoryMap ∧
      st.availableEnd.toNat ≤ kFrameCount * kBytesPerFrame := by
    refine run_history (P := fun seen st => kBytesPerFrame ∣ st.availableEnd.toNat ∧
      st.availableEnd.toNat = lastAvailableEnd seen ∧
      st.availableEnd.toNat ≤ kFrameCount * kBytesPerFrame)
      ⟨Nat.dvd_zero _, rfl, Nat.zero_le _⟩ ?_ hst
    rintro seen d rest st st' hsplit ⟨hdvd, hend, hbound⟩ hvisit
    have hd : d.InBitmap := hmap d (hsplit ▸ by simp)
    obtain ⟨st'', heq, hend', -⟩ := visit_spec hd hdvd
    rw [hvisit] at heq
    cases heq
    rw [lastAvailableEnd_append, hend']
    split_ifs
    · exact ⟨hd.dvd_end, rfl, hd.bound⟩
    · exact ⟨hdvd, hend, hbound⟩
  have hrange : frameOf st.availableEnd * kBytesPerFrame = st.availableEnd.toNat :=
    Nat.div_mul_cancel hdvd
  rw [← hrange] at hbound
  exact ⟨rfl, hrange.trans hend, Nat.le_of_mul_le_mul_right hbound (by decide)⟩

/-- The heap takes its block without changing the range. -/
theorem initializeMemoryManager_range (hmap : ∀ d ∈ memoryMap, d.InBitmap)
    {result : Except Error (Nat × Nat)}
    (h : initializeMemoryManager memoryMap = some (mm, result)) :
    mm.rangeBegin = 1 ∧ mm.rangeEnd * kBytesPerFrame = lastAvailableEnd memoryMap ∧
      mm.rangeEnd ≤ kFrameCount := by
  obtain ⟨mm₀, hrange, hheap⟩ := Option.bind_eq_some_iff.mp h
  obtain ⟨hbegin, hend, hbound⟩ := initializeRange_range hmap hrange
  obtain ⟨r, halloc, hcases⟩ := BitmapMemoryManager.allocate_spec hbound kHeapFrames
  unfold initializeHeap at hheap
  rw [halloc] at hheap
  have hsame : BitmapMemoryManager.SameRange mm₀ mm := by
    cases hcases with
    | success ge fits first same used =>
        cases hheap
        exact same
    | failure none =>
        cases hheap
        exact ⟨rfl, rfl⟩
  rw [hsame.rangeBegin, hsame.rangeEnd]
  exact ⟨hbegin, hend, hbound⟩

/-- **The step lemma**: no call changes the range, whatever is freed. -/
theorem sameRange_kept {mm₀ : BitmapMemoryManager} (hend : mm₀.rangeEnd ≤ kFrameCount) :
    Keeps FrameRun.step (fun _ _ => True) fun s => BitmapMemoryManager.SameRange mm₀ s.mm := by
  intro s op s' hsame _ hs
  cases op with
  | allocate n =>
      obtain ⟨r, halloc, hcases⟩ :=
        BitmapMemoryManager.allocate_spec (hsame.rangeEnd.symm ▸ hend) n
      unfold FrameRun.step at hs
      simp only [halloc, Option.bind_eq_bind, Option.bind_some] at hs
      cases hcases with
      | success ge fits first same used =>
          cases hs
          exact hsame.trans same
      | failure none =>
          cases hs
          exact hsame
  | free start n =>
      obtain ⟨⟨mm', error⟩, hfree, hrest⟩ := Option.bind_eq_some_iff.mp hs
      cases hrest
      obtain ⟨mm'', hset, heq⟩ := Option.map_eq_some_iff.mp hfree
      cases heq
      exact hsame.trans (BitmapMemoryManager.setBits_sameRange hset)

/-! ## The translation of the blocks -/

/-- The tables translate the address to itself. -/
def TranslatedToItself (t : PageTables) (mem : Memory) (a : Nat) : Prop :=
  ∃ writable, PageWalk.translate (t.setupIdentityPageTable mem).1 (t.setupIdentityPageTable mem).2
    (BitVec.ofNat 48 a) = .page a writable

/-- After every sequence of calls from `mm`, every address of the block that the next call of
`Allocate` returns is translated to itself. -/
def BlocksTranslated (t : PageTables) (mem : Memory) (mm : BitmapMemoryManager) : Prop :=
  ∀ ops s, run FrameRun.step { mm := mm } ops = some s → ∀ n mm' frame,
    s.mm.allocate n = some (mm', frame, .kSuccess) →
    ∀ a, frame * kBytesPerFrame ≤ a → a < (frame + n) * kBytesPerFrame → TranslatedToItself t mem a

variable {t : PageTables} {mem : Memory}

/-- The mapped memory in frames. -/
theorem mapped_frames : kPageDirectoryCount * kPageSize1G = 16777216 * kBytesPerFrame := rfl

theorem translatedToItself_iff (hzero : t.ZeroInitialized mem) {a : Nat}
    (ha : a < kMaxPhysicalMemoryBytes) :
    TranslatedToItself t mem a ↔ a < kPageDirectoryCount * kPageSize1G := by
  have htoNat : (BitVec.ofNat 48 a).toNat = a := by
    rw [BitVec.toNat_ofNat]
    exact Nat.mod_eq_of_lt (lt_trans ha (by decide))
  unfold TranslatedToItself
  rw [t.translate_setup mem hzero, htoNat]
  split_ifs with hlt
  · exact iff_of_true ⟨true, rfl⟩ hlt
  · refine iff_of_false ?_ hlt
    rintro ⟨writable, heq⟩
    cases heq

/-- The frames of a block that `Allocate` returns lie in the range. -/
theorem run_sameRange {mm₀ : BitmapMemoryManager} (hend : mm₀.rangeEnd ≤ kFrameCount)
    {ops : List FrameOp} {s : FrameRun} (hrun : run FrameRun.step { mm := mm₀ } ops = some s) :
    BitmapMemoryManager.SameRange mm₀ s.mm :=
  run_history (P := fun _ s => BitmapMemoryManager.SameRange mm₀ s.mm) ⟨rfl, rfl⟩
    (fun _ op _ s s' _ hsame hs => sameRange_kept hend s op s' hsame trivial hs) hrun

/-- The whole range can be one block: free it, and allocate it again. -/
theorem exists_run_allocate_range (hbegin : mm.rangeBegin = 1) (hbound : mm.rangeEnd ≤ kFrameCount)
    {last : Nat} (hlast : mm.rangeEnd = 1 + last) :
    ∃ ops s mm', run FrameRun.step { mm := mm } ops = some s ∧
      s.mm.allocate last = some (mm', 1, .kSuccess) := by
  have hin : ∀ k < last, 1 + k < kFrameCount := fun k hk => by omega
  obtain ⟨mm₁, hfree, hsame, hused⟩ := mm.free_spec hin
  have hfits : mm₁.Fits last mm₁.rangeBegin := by
    intro k hk
    rw [hsame.rangeBegin, hsame.rangeEnd, hused, hbegin, hlast]
    refine ⟨by omega, fun hmem => hmem.2 ?_⟩
    exact ⟨by omega, by omega⟩
  have hend : mm₁.rangeEnd ≤ kFrameCount := hsame.rangeEnd.symm ▸ hbound
  obtain ⟨mm₂, halloc, -⟩ := BitmapMemoryManager.allocate_at_begin hend hfits
  rw [hsame.rangeBegin, hbegin] at halloc
  refine ⟨[.free 1 last], { mm := mm₁, outstanding := [] }, mm₂, ?_, halloc⟩
  simp only [run_cons, FrameRun.step, hfree, Option.bind_eq_bind, Option.bind_some, run_nil]
  rfl

/-- The addresses of a block lie below the end of the range. -/
theorem lt_rangeEnd_of_block (hbound : mm.rangeEnd ≤ kFrameCount) {ops : List FrameOp}
    {s : FrameRun} (hrun : run FrameRun.step { mm := mm } ops = some s) {n frame a : Nat}
    {mm' : BitmapMemoryManager} (halloc : s.mm.allocate n = some (mm', frame, .kSuccess))
    (hge : frame * kBytesPerFrame ≤ a) (hlt : a < (frame + n) * kBytesPerFrame) :
    a < mm.rangeEnd * kBytesPerFrame := by
  have hsame := run_sameRange hbound hrun
  obtain ⟨r, heq, hcases⟩ := BitmapMemoryManager.allocate_spec (hsame.rangeEnd.symm ▸ hbound) n
  rw [halloc] at heq
  cases heq
  cases hcases with
  | success ge fits first same used =>
      have hn : 0 < n := by
        rw [Nat.pos_iff_ne_zero]
        rintro rfl
        exact absurd hlt (not_lt.mpr hge)
      have hlast := (fits (n - 1) (by omega)).1
      rw [hsame.rangeEnd] at hlast
      exact lt_of_lt_of_le hlt (Nat.mul_le_mul_right _ (by omega))

/-- **Blocks are reachable exactly if the range is mapped**: on every memory map that lies in the
bitmap and on which `InitializeMemoryManager` returns, with the tables at any addresses, every
address of every block allocated after any sequence of `Allocate` and `Free` is translated to itself
iff the last available descriptor ends within `kPageDirectoryCount` GiB. -/
theorem blocks_translated_iff (hmap : ∀ d ∈ memoryMap, d.InBitmap)
    (hzero : t.ZeroInitialized mem) {programBreak : Nat × Nat}
    (hinit : initializeMemoryManager memoryMap = some (mm, .ok programBreak)) :
    BlocksTranslated t mem mm ↔
      lastAvailableEnd memoryMap ≤ kPageDirectoryCount * kPageSize1G := by
  obtain ⟨hbegin, hend, hbound⟩ := initializeMemoryManager_range hmap hinit
  have hmax : mm.rangeEnd * kBytesPerFrame ≤ kMaxPhysicalMemoryBytes :=
    Nat.mul_le_mul_right _ hbound
  rw [← hend, mapped_frames, Nat.mul_le_mul_right_iff (by decide)]
  constructor
  · intro h
    by_contra hbeyond
    -- the last frame of the range is not mapped
    obtain ⟨last, hlast⟩ : ∃ last, mm.rangeEnd = 1 + last := ⟨mm.rangeEnd - 1, by omega⟩
    obtain ⟨ops, s, mm', hrun, halloc⟩ := exists_run_allocate_range hbegin hbound hlast
    have hlt : last * kBytesPerFrame < (1 + last) * kBytesPerFrame :=
      Nat.mul_lt_mul_of_pos_right (by omega) (by decide)
    have htranslated := h ops s hrun last mm' 1 halloc (last * kBytesPerFrame)
      (Nat.mul_le_mul_right _ (by omega)) hlt
    have hmapped := (translatedToItself_iff hzero
      (lt_of_lt_of_le (hlast ▸ hlt) hmax)).mp htranslated
    rw [mapped_frames] at hmapped
    have hframes := Nat.lt_of_mul_lt_mul_right hmapped
    omega
  · intro hle ops s hrun n mm' frame halloc a hge hlt
    have ha := lt_rangeEnd_of_block hbound hrun halloc hge hlt
    apply (translatedToItself_iff hzero (lt_of_lt_of_le ha hmax)).mpr
    rw [mapped_frames]
    exact lt_of_lt_of_le ha (Nat.mul_le_mul_right _ hle)

/-! ## Machines with one block of memory -/

/-- A machine with memory from address 0 on. -/
def lowMemoryMap (numberOfPages : UInt64) : List MemoryDescriptor :=
  [{ type := 7, physicalStart := 0, numberOfPages := numberOfPages }]

theorem lowMemoryMap_inBitmap {numberOfPages : UInt64} (hpages : numberOfPages.toNat ≤ kFrameCount) :
    ∀ d ∈ lowMemoryMap numberOfPages, d.InBitmap := by
  intro d hd
  rcases List.mem_singleton.mp hd with rfl
  refine ⟨Nat.dvd_zero _, ?_⟩
  unfold MemoryDescriptor.endAddr
  rw [show (0 : UInt64).toNat = 0 from rfl, Nat.zero_add]
  exact Nat.mul_le_mul_right _ hpages

/-- The heap is the first block of an empty range. -/
theorem initializeHeap_of_empty (hbegin : mm.rangeBegin = 1) (hend : mm.rangeEnd ≤ kFrameCount)
    (hempty : mm.used = ∅) (hheap : kHeapFrames < mm.rangeEnd) :
    ∃ mm' programBreak, initializeHeap mm = some (mm', .ok programBreak) ∧
      mm'.used = BitmapMemoryManager.frames 1 kHeapFrames ∧
      BitmapMemoryManager.SameRange mm mm' := by
  have hfits : mm.Fits kHeapFrames mm.rangeBegin := by
    intro k hk
    rw [hempty, hbegin]
    exact ⟨by omega, Set.notMem_empty _⟩
  obtain ⟨mm', halloc, hsame, hused⟩ := BitmapMemoryManager.allocate_at_begin hend hfits
  refine ⟨mm', (mm.rangeBegin * kBytesPerFrame,
    mm.rangeBegin * kBytesPerFrame + kHeapFrames * kBytesPerFrame), ?_, ?_, hsame⟩
  · unfold initializeHeap
    rw [halloc]
    rfl
  · rw [hused, hempty, hbegin, Set.empty_union]

theorem initializeMemoryManager_lowMemoryMap {numberOfPages : UInt64}
    (hpages : numberOfPages.toNat ≤ kFrameCount) (hheap : kHeapFrames < numberOfPages.toNat) :
    ∃ mm programBreak,
      initializeMemoryManager (lowMemoryMap numberOfPages) = some (mm, .ok programBreak) ∧
      mm.used = BitmapMemoryManager.frames 1 kHeapFrames ∧ mm.rangeBegin = 1 ∧
      mm.rangeEnd = numberOfPages.toNat := by
  have hend : frameOf (0 + numberOfPages * kUEFIPageSize) = numberOfPages.toNat := by
    have htoNat := (lowMemoryMap_inBitmap hpages _ (List.mem_singleton_self _)).toNat_end
    unfold frameOf
    rw [htoNat]
    unfold MemoryDescriptor.endAddr
    rw [show (0 : UInt64).toNat = 0 from rfl, Nat.zero_add]
    exact Nat.mul_div_cancel _ (by decide)
  have hrange : initializeRange (lowMemoryMap numberOfPages) =
      some (({} : BitmapMemoryManager).setMemoryRange 1 numberOfPages.toNat) := by
    rw [← hend]
    rfl
  have hempty : (({} : BitmapMemoryManager).setMemoryRange 1 numberOfPages.toNat).used = ∅ :=
    used_init
  obtain ⟨mm, programBreak, hinit, hused, hsame⟩ :=
    initializeHeap_of_empty rfl hpages hempty hheap
  refine ⟨mm, programBreak, ?_, hused, hsame.rangeBegin, hsame.rangeEnd⟩
  unfold initializeMemoryManager
  rw [hrange]
  exact hinit

/-- A machine with 256 MiB: all its memory is mapped. -/
theorem blocks_translated_iff_lowMemoryMap :
    ∃ mm programBreak, initializeMemoryManager (lowMemoryMap 0x10000) = some (mm, .ok programBreak) ∧
      (BlocksTranslated lowTables (fun _ => 0#64) mm ↔
        lastAvailableEnd (lowMemoryMap 0x10000) ≤ kPageDirectoryCount * kPageSize1G) := by
  obtain ⟨mm, programBreak, hinit, -⟩ := initializeMemoryManager_lowMemoryMap
    (by decide : (0x10000 : UInt64).toNat ≤ kFrameCount) (by decide)
  exact ⟨mm, programBreak, hinit, blocks_translated_iff (lowMemoryMap_inBitmap (by decide))
    (fun _ _ => ⟨rfl, rfl, fun _ _ => rfl⟩) hinit⟩

/-- A machine with 68 GiB: a block of 64 GiB, allocated after the heap, ends where nothing is
mapped. -/
theorem blocks_not_translated :
    (∀ d ∈ lowMemoryMap 0x1100000, d.InBitmap) ∧ ∃ mm programBreak,
      initializeMemoryManager (lowMemoryMap 0x1100000) = some (mm, .ok programBreak) ∧
        ¬BlocksTranslated lowTables (fun _ => 0#64) mm := by
  obtain ⟨mm, programBreak, hinit, hused, hbegin, hend⟩ := initializeMemoryManager_lowMemoryMap
    (by decide : (0x1100000 : UInt64).toNat ≤ kFrameCount) (by decide)
  refine ⟨lowMemoryMap_inBitmap (by decide), mm, programBreak, hinit, fun h => ?_⟩
  have hend' : mm.rangeEnd = 17825792 := hend
  have hbound : mm.rangeEnd ≤ kFrameCount := hend'.symm ▸ by decide
  obtain ⟨r, halloc, hcases⟩ := BitmapMemoryManager.allocate_spec hbound 0x1000000
  cases hcases with
  | @success mm' start ge fits first same used =>
      have hlast := (fits 0xffffff (by decide)).1
      have htranslated := h [] _ rfl 0x1000000 mm' start halloc (16777216 * kBytesPerFrame)
        (Nat.mul_le_mul_right _ (by omega)) (Nat.mul_lt_mul_of_pos_right (by omega) (by decide))
      have hzero : lowTables.ZeroInitialized fun _ => 0#64 := fun _ _ => ⟨rfl, rfl, fun _ _ => rfl⟩
      have hmapped := (translatedToItself_iff hzero (by decide)).mp htranslated
      exact absurd hmapped (by decide)
  | failure none =>
      have hheap : kHeapFrames = 32768 := rfl
      refine none (1 + kHeapFrames) (by omega) fun k hk => ⟨by omega, ?_⟩
      rw [hused]
      rintro ⟨-, hlt⟩
      omega

end UhyokOS
