import UhyokOS.Memory.BootMap
import UhyokOS.Memory.Frames

/-!
# Boot memory maps that reach beyond the bitmap

`InitializeMemoryManager` never compares an address with the capacity of the bitmap. Here the
descriptors may lie anywhere in the 64-bit address space, and the accesses of `alloc_map_` stay in
bounds on exactly the maps named by `WithinBitmap`.

* `visit_isSome_iff`: when one iteration of the descriptor loop is defined.
* `Progress` is what the loop has met so far; `Progress.visit` is its step lemma.
* `initializeRange_iff`: the loop is defined and leaves a range the bitmap covers iff the map is
  `WithinBitmap`.
* `boot_in_bounds_iff`: so it is with the whole of the initialization and the calls after it.
-/

namespace UhyokOS

open Transition

/-! ## Accesses beyond the bitmap -/

namespace BitmapMemoryManager

variable {mm mm' : BitmapMemoryManager} {f start i n : Nat}

/-- A search that starts in the bitmap does not pass its end: it is undefined there, although the
range goes on. -/
theorem scan_beyond (hbeyond : kFrameCount < mm.rangeEnd) {remaining : Nat}
    (hstart : start + i ≤ kFrameCount) {r : Scan} (h : mm.scan start i remaining = some r) :
    (r = .found ∧ start + i + remaining ≤ kFrameCount) ∨
      ∃ k, r = .used k ∧ start + k < kFrameCount := by
  induction remaining generalizing i with
  | zero =>
      cases h
      exact Or.inl ⟨rfl, hstart⟩
  | succ remaining ih =>
      unfold scan at h
      rw [if_neg (by omega)] at h
      obtain ⟨b, hb, hrest⟩ := Option.bind_eq_some_iff.mp h
      have hin : start + i < kFrameCount := by
        by_contra hout
        unfold getBit at hb
        rw [dif_neg fun h => hout (line_lt_iff.mp h)] at hb
        cases hb
      cases b with
      | true =>
          cases hrest
          exact Or.inr ⟨i, rfl, hin⟩
      | false =>
          rcases @ih (i + 1) (by omega) hrest with ⟨hr, hle⟩ | hused
          · exact Or.inl ⟨hr, by omega⟩
          · exact Or.inr hused

theorem allocateFrom_beyond (hbeyond : kFrameCount < mm.rangeEnd) {rounds : Nat}
    (hstart : start ≤ kFrameCount) {frame : Nat} {error : Error}
    (h : mm.allocateFrom n rounds start = some (mm', frame, error)) :
    error = .kSuccess ∧ n ≤ kFrameCount ∧ SameRange mm mm' := by
  induction rounds generalizing start with
  | zero => cases h
  | succ rounds ih =>
      unfold allocateFrom at h
      obtain ⟨r, hr, hrest⟩ := Option.bind_eq_some_iff.mp h
      rcases scan_beyond hbeyond hstart hr with ⟨rfl, hle⟩ | ⟨k, rfl, hlt⟩
      · have hn : ∀ k < n, start + k < kFrameCount := fun k hk => by omega
        obtain ⟨mm₁, heq, hsame, -⟩ := mm.markAllocated_spec hn
        simp only [heq, Option.bind_eq_bind, Option.bind_some] at hrest
        cases hrest
        exact ⟨rfl, by omega, hsame⟩
      · exact ih (by omega) hrest

/-- When the range goes beyond the bitmap, no call of `Allocate` reports that memory is exhausted,
and none is defined that asks for more frames than the bitmap has. -/
theorem allocate_beyond (hbeyond : kFrameCount < mm.rangeEnd) (hbegin : mm.rangeBegin ≤ kFrameCount)
    {frame : Nat} {error : Error} (h : mm.allocate n = some (mm', frame, error)) :
    error = .kSuccess ∧ n ≤ kFrameCount ∧ SameRange mm mm' :=
  allocateFrom_beyond hbeyond hbegin h

end BitmapMemoryManager

/-! ## Descriptors anywhere in the address space -/

namespace MemoryDescriptor

/-- The end of the bitmap as an address. -/
abbrev bitmapEnd : Nat := kFrameCount * kBytesPerFrame

/-- The end of the 64-bit address space. -/
abbrev addressSpaceEnd : Nat := 2 ^ 64

/-- The descriptor is aligned to frames and lies in the 64-bit address space. -/
structure InAddressSpace (d : MemoryDescriptor) : Prop where
  aligned : kBytesPerFrame ∣ d.physicalStart.toNat
  bound : d.endAddr ≤ addressSpaceEnd

/-- The descriptor is the whole address space, whose size in bytes wraps to 0. -/
def IsWholeSpace (d : MemoryDescriptor) : Prop :=
  d.physicalStart.toNat = 0 ∧ d.endAddr = addressSpaceEnd

variable {d : MemoryDescriptor}

theorem start_le_endAddr (d : MemoryDescriptor) : d.physicalStart.toNat ≤ d.endAddr :=
  Nat.le_add_right _ _

theorem start_lt (d : MemoryDescriptor) : d.physicalStart.toNat < addressSpaceEnd :=
  d.physicalStart.toNat_lt

/-- The empty descriptors. -/
theorem endAddr_eq_start_iff (d : MemoryDescriptor) :
    d.endAddr = d.physicalStart.toNat ↔ d.numberOfPages.toNat = 0 := by
  unfold endAddr
  rw [Nat.add_eq_left, Nat.mul_eq_zero]
  exact or_iff_left (by decide)

theorem InAddressSpace.dvd_end (hd : d.InAddressSpace) : kBytesPerFrame ∣ d.endAddr :=
  Nat.dvd_add hd.aligned (Nat.dvd_mul_left _ _)

theorem toNat_size_mod (d : MemoryDescriptor) :
    (d.numberOfPages * kUEFIPageSize).toNat =
      d.numberOfPages.toNat * kBytesPerFrame % addressSpaceEnd :=
  UInt64.toNat_mul _ _

/-- The end the loop computes is the end of the descriptor, wrapped. -/
theorem toNat_end_mod (d : MemoryDescriptor) :
    (d.physicalStart + d.numberOfPages * kUEFIPageSize).toNat = d.endAddr % addressSpaceEnd := by
  rw [UInt64.toNat_add, toNat_size_mod, Nat.add_mod_mod]
  rfl

/-- The size the loop computes is right, except that it vanishes for the whole address space. -/
theorem toNat_size_cases (hd : d.InAddressSpace) :
    ((d.numberOfPages * kUEFIPageSize).toNat = d.numberOfPages.toNat * kBytesPerFrame ∧
        ¬d.IsWholeSpace) ∨
      ((d.numberOfPages * kUEFIPageSize).toNat = 0 ∧ d.IsWholeSpace) := by
  have hbound := hd.bound
  rw [toNat_size_mod]
  unfold IsWholeSpace
  unfold endAddr at *
  simp only [kBytesPerFrame, addressSpaceEnd] at *
  rcases Nat.lt_or_ge (d.numberOfPages.toNat * 4096) (2 ^ 64) with hlt | hge
  · refine Or.inl ⟨Nat.mod_eq_of_lt hlt, ?_⟩
    omega
  · refine Or.inr ⟨?_, ?_, ?_⟩ <;> omega

end MemoryDescriptor

open MemoryDescriptor

/-! ## One iteration -/

/-- Marking a region is defined iff the region is empty or ends in the bitmap. -/
theorem markAllocated_region_isSome_iff (mm : BitmapMemoryManager) {address size : UInt64}
    (ha : kBytesPerFrame ∣ address.toNat) (hs : kBytesPerFrame ∣ size.toNat) :
    (mm.markAllocated (frameOf address) (frameOf size)).isSome = true ↔
      size.toNat = 0 ∨ address.toNat + size.toNat ≤ bitmapEnd := by
  obtain ⟨a, ha⟩ := ha
  obtain ⟨n, hn⟩ := hs
  have hstart : frameOf address = a := by simp [frameOf, ha]
  have hsize : frameOf size = n := by simp [frameOf, hn]
  unfold BitmapMemoryManager.markAllocated
  rw [BitmapMemoryManager.setBits_isSome_iff, hstart, hsize, ha, hn]
  simp only [bitmapEnd, kBytesPerFrame, kFrameCount]
  constructor
  · intro h
    rcases Nat.eq_zero_or_pos n with rfl | hpos
    · exact Or.inl rfl
    · have := h (n - 1) (by omega)
      omega
  · rintro h k hk
    omega

/-- When marking the gap below a descriptor is defined. -/
theorem gap_isSome_iff {st : BootScan} {d : MemoryDescriptor} (hd : d.InAddressSpace)
    (hend : kBytesPerFrame ∣ st.availableEnd.toNat) :
    (if st.availableEnd < d.physicalStart then
      st.mm.markAllocated (frameOf st.availableEnd) (frameOf (d.physicalStart - st.availableEnd))
      else some st.mm).isSome = true ↔
        (st.availableEnd.toNat < d.physicalStart.toNat → d.physicalStart.toNat ≤ bitmapEnd) := by
  split_ifs with hlt
  · have hlt' := UInt64.lt_iff_toNat_lt.mp hlt
    have hsub : (d.physicalStart - st.availableEnd).toNat =
        d.physicalStart.toNat - st.availableEnd.toNat :=
      UInt64.toNat_sub_of_le _ _ (UInt64.le_iff_toNat_le.mpr hlt'.le)
    rw [markAllocated_region_isSome_iff st.mm hend (hsub ▸ Nat.dvd_sub hd.aligned hend), hsub,
      Nat.add_sub_cancel' hlt'.le]
    constructor
    · rintro (h | h) -
      · omega
      · exact h
    · exact fun h => Or.inr (h hlt')
  · exact iff_of_true rfl fun h => absurd (UInt64.lt_iff_toNat_lt.mpr h) hlt

/-- When marking a descriptor itself is defined. -/
theorem own_isSome_iff (mm : BitmapMemoryManager) {d : MemoryDescriptor} (hd : d.InAddressSpace) :
    (mm.markAllocated (frameOf d.physicalStart)
      (frameOf (d.numberOfPages * kUEFIPageSize))).isSome = true ↔
      d.numberOfPages.toNat = 0 ∨ d.endAddr ≤ bitmapEnd ∨ d.IsWholeSpace := by
  have hdvd : kBytesPerFrame ∣ (d.numberOfPages * kUEFIPageSize).toNat := by
    rw [toNat_size_mod]
    exact (Nat.dvd_mod_iff (by decide)).mpr (Nat.dvd_mul_left _ _)
  rw [markAllocated_region_isSome_iff mm hd.aligned hdvd]
  rcases toNat_size_cases hd with ⟨hsize, hwhole⟩ | ⟨hsize, hwhole⟩
  · rw [hsize]
    unfold endAddr
    simp only [hwhole, or_false, Nat.mul_eq_zero]
    simp
  · exact iff_of_true (Or.inl hsize) (Or.inr (Or.inr hwhole))

/-- When an iteration is defined: the gap below the descriptor, if there is one, ends in the bitmap,
and so does the descriptor if it is marked. -/
theorem visit_isSome_iff {st : BootScan} {d : MemoryDescriptor} (hd : d.InAddressSpace)
    (hend : kBytesPerFrame ∣ st.availableEnd.toNat) :
    (st.visit d).isSome = true ↔
      (st.availableEnd.toNat < d.physicalStart.toNat → d.physicalStart.toNat ≤ bitmapEnd) ∧
        (isAvailable d.type = true ∨ d.numberOfPages.toNat = 0 ∨ d.endAddr ≤ bitmapEnd ∨
          d.IsWholeSpace) := by
  have hgap := gap_isSome_iff hd hend
  unfold BootScan.visit
  cases hmarked : (if st.availableEnd < d.physicalStart then
      st.mm.markAllocated (frameOf st.availableEnd) (frameOf (d.physicalStart - st.availableEnd))
      else some st.mm) with
  | none =>
      rw [hmarked] at hgap
      refine iff_of_false (fun h => by simp at h) fun h => ?_
      cases hgap.mpr h.1
  | some mm₁ =>
      rw [hmarked] at hgap
      have hgap' := hgap.mp rfl
      simp only [Option.bind_eq_bind, Option.bind_some]
      by_cases hav : isAvailable d.type = true
      · simp only [hav, if_true]
        exact iff_of_true rfl ⟨hgap', Or.inl trivial⟩
      · rw [if_neg hav, Option.isSome_bind, and_iff_right hgap', or_iff_right hav,
          ← own_isSome_iff mm₁ hd]
        cases mm₁.markAllocated (frameOf d.physicalStart)
          (frameOf (d.numberOfPages * kUEFIPageSize)) <;> simp

/-- The end of available memory after an iteration. -/
theorem visit_availableEnd {st st' : BootScan} {d : MemoryDescriptor} (h : st.visit d = some st') :
    st'.availableEnd.toNat =
      if isAvailable d.type = true then d.endAddr % addressSpaceEnd
      else st.availableEnd.toNat := by
  unfold BootScan.visit at h
  obtain ⟨mm, -, hrest⟩ := Option.bind_eq_some_iff.mp h
  split_ifs at hrest with hav
  · cases hrest
    rw [if_pos hav]
    exact toNat_end_mod d
  · obtain ⟨mm', -, hrest⟩ := Option.bind_eq_some_iff.mp hrest
    cases hrest
    rw [if_neg hav]

/-! ## The whole map -/

/-- A memory map of the firmware: aligned descriptors in the address space, sorted and disjoint. -/
structure WellFormedMap (memoryMap : List MemoryDescriptor) : Prop where
  descriptors : ∀ d ∈ memoryMap, d.InAddressSpace
  sorted : SortedDisjoint memoryMap

/-- The maps on which the bitmap is not left: every descriptor ends in it, or one descriptor that is
not available is the whole address space, or available memory covers every frame after it. -/
def WithinBitmap (memoryMap : List MemoryDescriptor) : Prop :=
  (∀ d ∈ memoryMap, d.endAddr ≤ bitmapEnd) ∨
    (∃ d ∈ memoryMap, isAvailable d.type = false ∧ d.IsWholeSpace) ∨
    ∀ f, kFrameCount ≤ f → f * kBytesPerFrame < addressSpaceEnd →
      ∃ d ∈ memoryMap, isAvailable d.type = true ∧ d.Covers f

/-- What the loop has met after a prefix of the map, with `availableEnd` the end of available memory
it has recorded. -/
inductive Progress (seen : List MemoryDescriptor) (availableEnd : Nat) : Prop
  /-- Everything lies within the bitmap. -/
  | low (bound : availableEnd ≤ bitmapEnd) (ends : ∀ d ∈ seen, d.endAddr ≤ bitmapEnd)
  /-- Available memory goes on without a hole from the end of the bitmap up to `top`. -/
  | high {top : Nat} (above : bitmapEnd < top) (aligned : kBytesPerFrame ∣ top)
      (attained : ∃ d ∈ seen, d.endAddr = top) (ends : ∀ d ∈ seen, d.endAddr ≤ top)
      (covered : ∀ f, kFrameCount ≤ f → f * kBytesPerFrame < top →
        ∃ d ∈ seen, isAvailable d.type = true ∧ d.Covers f)
      (wraps : availableEnd = top % addressSpaceEnd)
  /-- A descriptor that is not available was the whole address space. -/
  | whole (bound : availableEnd ≤ bitmapEnd)
      (found : ∃ d ∈ seen, isAvailable d.type = false ∧ d.IsWholeSpace)

variable {seen rest memoryMap : List MemoryDescriptor} {st st' : BootScan} {d : MemoryDescriptor}

/-- The descriptors before one of a sorted map end before it starts, those after it start after it
ends. -/
theorem WellFormedMap.split (h : WellFormedMap memoryMap) (hmap : seen ++ d :: rest = memoryMap) :
    d.InAddressSpace ∧ (∀ e ∈ seen, e.endAddr ≤ d.physicalStart.toNat) ∧
      ∀ e ∈ rest, d.endAddr ≤ e.physicalStart.toNat := by
  obtain ⟨hd, hsorted⟩ := h
  subst hmap
  obtain ⟨-, hlater, hbefore⟩ := List.pairwise_append.mp hsorted
  exact ⟨hd d (by simp), fun e he => hbefore e he d List.mem_cons_self,
    (List.pairwise_cons.mp hlater).1⟩

/-- A frame that available memory covers lies before the descriptor, in it, or after it. -/
theorem covered_cases (hmap : seen ++ d :: rest = memoryMap)
    (h : WellFormedMap memoryMap) {f : Nat}
    (hf : ∃ e ∈ memoryMap, isAvailable e.type = true ∧ e.Covers f) :
    (∃ e ∈ seen, f * kBytesPerFrame < e.endAddr) ∨ (isAvailable d.type = true ∧ d.Covers f) ∨
      d.endAddr ≤ f * kBytesPerFrame := by
  obtain ⟨-, -, hafter⟩ := h.split hmap
  obtain ⟨e, he, hav, hge, hlt⟩ := hf
  rw [← hmap] at he
  rcases List.mem_append.mp he with he | he
  · exact Or.inl ⟨e, he, hlt⟩
  · rcases List.mem_cons.mp he with rfl | he
    · exact Or.inr (Or.inl ⟨hav, hge, hlt⟩)
    · exact Or.inr (Or.inr (le_trans (hafter e he) hge))

/-- Nothing follows a descriptor that is the whole address space. -/
theorem WellFormedMap.not_whole (hwf : WellFormedMap memoryMap)
    (hmap : seen ++ d :: rest = memoryMap) {w : MemoryDescriptor} (hw : w ∈ seen) :
    ¬w.IsWholeSpace := by
  rintro ⟨-, hwend⟩
  obtain ⟨-, hbefore, -⟩ := hwf.split hmap
  have hle := hbefore w hw
  exact absurd (hwend ▸ hle) (not_le.mpr d.start_lt)

/-- What comes next on a map that is `WithinBitmap`, as long as everything is in the bitmap. -/
theorem next_of_low (hwf : WellFormedMap memoryMap) (hmap : seen ++ d :: rest = memoryMap)
    (ends : ∀ e ∈ seen, e.endAddr ≤ bitmapEnd) (hwithin : WithinBitmap memoryMap) :
    d.physicalStart.toNat ≤ bitmapEnd ∧
      (isAvailable d.type = true ∨ d.endAddr ≤ bitmapEnd ∨ d.IsWholeSpace) := by
  obtain ⟨-, -, hafter⟩ := hwf.split hmap
  have hmem : d ∈ memoryMap := hmap ▸ by simp
  have hstart := d.start_le_endAddr
  rcases hwithin with hall | ⟨w, hw, -, hwhole⟩ | hcov
  · exact ⟨le_trans hstart (hall d hmem), Or.inr (Or.inl (hall d hmem))⟩
  · rw [← hmap] at hw
    rcases List.mem_append.mp hw with hw | hw
    · exact absurd hwhole (hwf.not_whole hmap hw)
    · rcases List.mem_cons.mp hw with rfl | hw
      · exact ⟨hwhole.1 ▸ Nat.zero_le _, Or.inr (Or.inr hwhole)⟩
      · have hle := hafter w hw
        rw [hwhole.1] at hle
        exact ⟨by omega, Or.inr (Or.inl (by omega))⟩
  · rcases covered_cases hmap hwf (hcov kFrameCount le_rfl (by decide)) with
      ⟨e, he, hlt⟩ | ⟨hav, hge, -⟩ | hle
    · exact absurd hlt (not_lt.mpr (ends e he))
    · exact ⟨hge, Or.inl hav⟩
    · exact ⟨le_trans hstart hle, Or.inr (Or.inl hle)⟩

/-- What comes next once available memory has passed the end of the bitmap: more available memory
with no hole before it, or an empty descriptor at the same place. -/
theorem next_of_high (hwf : WellFormedMap memoryMap) (hmap : seen ++ d :: rest = memoryMap)
    {top : Nat} (above : bitmapEnd < top) (aligned : kBytesPerFrame ∣ top)
    (attained : ∃ e ∈ seen, e.endAddr = top) (ends : ∀ e ∈ seen, e.endAddr ≤ top)
    (hwithin : WithinBitmap memoryMap) :
    d.physicalStart.toNat = top ∧ (isAvailable d.type = true ∨ d.numberOfPages.toNat = 0) := by
  obtain ⟨-, hbefore, hafter⟩ := hwf.split hmap
  obtain ⟨e, he, heq⟩ := attained
  have htop : top ≤ d.physicalStart.toNat := heq ▸ hbefore e he
  have hstart := d.start_le_endAddr
  rcases hwithin with hall | ⟨w, hw, -, hwhole⟩ | hcov
  · have hle := hall e (hmap ▸ List.mem_append_left _ he)
    omega
  · rw [← hmap] at hw
    rcases List.mem_append.mp hw with hw | hw
    · exact absurd hwhole (hwf.not_whole hmap hw)
    · rcases List.mem_cons.mp hw with rfl | hw
      · have hzero := hwhole.1
        omega
      · have hle := hafter w hw
        rw [hwhole.1] at hle
        omega
  · -- the frame right after `top` is covered by `d` or else `d` is empty
    obtain ⟨f, rfl⟩ := aligned
    rw [Nat.mul_comm] at above htop ends ⊢
    have hf : kFrameCount ≤ f := (Nat.lt_of_mul_lt_mul_right above).le
    rcases covered_cases hmap hwf (hcov f hf (lt_of_le_of_lt htop d.start_lt)) with
      ⟨e', he', hlt⟩ | ⟨hav, hge, -⟩ | hle
    · exact absurd hlt (not_lt.mpr (ends e' he'))
    · exact ⟨le_antisymm hge htop, Or.inl hav⟩
    · refine ⟨le_antisymm (le_trans hstart hle) htop, Or.inr ?_⟩
      apply (endAddr_eq_start_iff d).mp
      exact le_antisymm (le_trans hle htop) hstart

/-- On a map that is `WithinBitmap` the next iteration is defined. -/
theorem Progress.visit_isSome (h : Progress seen st.availableEnd.toNat)
    (hwf : WellFormedMap memoryMap) (hmap : seen ++ d :: rest = memoryMap)
    (halign : kBytesPerFrame ∣ st.availableEnd.toNat) (hwithin : WithinBitmap memoryMap) :
    (st.visit d).isSome = true := by
  obtain ⟨hd, hbefore, -⟩ := hwf.split hmap
  apply (visit_isSome_iff hd halign).mpr
  cases h with
  | low bound ends =>
      obtain ⟨hle, hcases⟩ := next_of_low hwf hmap ends hwithin
      refine ⟨fun _ => hle, ?_⟩
      rcases hcases with hav | hend | hwhole
      · exact Or.inl hav
      · exact Or.inr (Or.inr (Or.inl hend))
      · exact Or.inr (Or.inr (Or.inr hwhole))
  | high above aligned attained ends covered wraps =>
      obtain ⟨heq, hcases⟩ := next_of_high hwf hmap above aligned attained ends hwithin
      rw [← heq, Nat.mod_eq_of_lt d.start_lt] at wraps
      refine ⟨fun h => absurd h (by omega), ?_⟩
      rcases hcases with hav | hpages
      · exact Or.inl hav
      · exact Or.inr (Or.inl hpages)
  | whole bound found =>
      obtain ⟨w, hw, -, hwhole⟩ := found
      exact absurd hwhole (hwf.not_whole hmap hw)

/-- One more descriptor under a bound. -/
theorem ends_concat {b : Nat} (hseen : ∀ e ∈ seen, e.endAddr ≤ b) (hle : d.endAddr ≤ b) :
    ∀ e ∈ seen ++ [d], e.endAddr ≤ b := by
  intro e he
  rcases List.mem_append.mp he with he | he
  · exact hseen e he
  · exact List.mem_singleton.mp he ▸ hle

/-- Progress while everything is in the bitmap. -/
theorem Progress.visit_low (hwf : WellFormedMap memoryMap) (hmap : seen ++ d :: rest = memoryMap)
    (halign : kBytesPerFrame ∣ st.availableEnd.toNat) (bound : st.availableEnd.toNat ≤ bitmapEnd)
    (ends : ∀ e ∈ seen, e.endAddr ≤ bitmapEnd) (hvisit : st.visit d = some st') :
    Progress (seen ++ [d]) st'.availableEnd.toNat := by
  obtain ⟨hd, hbefore, -⟩ := hwf.split hmap
  obtain ⟨hgap, hown⟩ := (visit_isSome_iff hd halign).mp (hvisit ▸ rfl)
  have hempty := d.endAddr_eq_start_iff
  have hlast : d ∈ seen ++ [d] := List.mem_append_right _ List.mem_cons_self
  have hle : d.physicalStart.toNat ≤ bitmapEnd := by
    by_contra hout
    exact hout (hgap (by omega))
  rw [visit_availableEnd hvisit]
  by_cases hav : isAvailable d.type = true
  · rw [if_pos hav]
    rcases Nat.lt_or_ge bitmapEnd d.endAddr with habove | hin
    · have hends := ends_concat (fun e he => le_trans (hbefore e he) d.start_le_endAddr) le_rfl
      refine .high habove hd.dvd_end ⟨d, hlast, rfl⟩ hends (fun f hf hflt => ?_) rfl
      refine ⟨d, hlast, hav, le_trans hle ?_, hflt⟩
      exact Nat.mul_le_mul_right _ hf
    · exact .low (le_trans (Nat.mod_le _ _) hin) (ends_concat ends hin)
  · rw [if_neg hav]
    rcases hown with hav' | hzero | hin | hwhole
    · exact absurd hav' hav
    · exact .low bound (ends_concat ends (by omega))
    · exact .low bound (ends_concat ends hin)
    · exact .whole bound ⟨d, hlast, (Bool.not_eq_true _).mp hav, hwhole⟩

/-- Progress once available memory has passed the end of the bitmap. -/
theorem Progress.visit_high (hwf : WellFormedMap memoryMap) (hmap : seen ++ d :: rest = memoryMap)
    (halign : kBytesPerFrame ∣ st.availableEnd.toNat) {top : Nat} (above : bitmapEnd < top)
    (attained : ∃ e ∈ seen, e.endAddr = top)
    (covered : ∀ f, kFrameCount ≤ f → f * kBytesPerFrame < top →
      ∃ e ∈ seen, isAvailable e.type = true ∧ e.Covers f)
    (wraps : st.availableEnd.toNat = top % addressSpaceEnd) (hvisit : st.visit d = some st') :
    Progress (seen ++ [d]) st'.availableEnd.toNat := by
  obtain ⟨hd, hbefore, -⟩ := hwf.split hmap
  obtain ⟨hgap, hown⟩ := (visit_isSome_iff hd halign).mp (hvisit ▸ rfl)
  have hstart := d.start_le_endAddr
  have hlt := d.start_lt
  have hempty := d.endAddr_eq_start_iff
  have hlast : d ∈ seen ++ [d] := List.mem_append_right _ List.mem_cons_self
  obtain ⟨e, he, heq⟩ := attained
  have htop : top ≤ d.physicalStart.toNat := heq ▸ hbefore e he
  rw [Nat.mod_eq_of_lt (by omega)] at wraps
  have hsame : d.physicalStart.toNat = top := by
    by_contra hne
    have := hgap (by omega)
    omega
  have hcovered : ∀ f, kFrameCount ≤ f → f * kBytesPerFrame < d.physicalStart.toNat →
      ∃ e ∈ seen ++ [d], isAvailable e.type = true ∧ e.Covers f := by
    intro f hf hflt
    obtain ⟨e, he, hav, hcov⟩ := covered f hf (hsame ▸ hflt)
    exact ⟨e, List.mem_append_left _ he, hav, hcov⟩
  have hends : ∀ e ∈ seen ++ [d], e.endAddr ≤ d.endAddr :=
    ends_concat (fun e he => le_trans (hbefore e he) hstart) le_rfl
  have habove : bitmapEnd < d.endAddr := by omega
  rw [visit_availableEnd hvisit]
  by_cases hav : isAvailable d.type = true
  · rw [if_pos hav]
    refine .high habove hd.dvd_end ⟨d, hlast, rfl⟩ hends (fun f hf hflt => ?_) rfl
    rcases Nat.lt_or_ge (f * kBytesPerFrame) d.physicalStart.toNat with hold | hnew
    · exact hcovered f hf hold
    · exact ⟨d, hlast, hav, hnew, hflt⟩
  · rw [if_neg hav]
    have hzero : d.endAddr = d.physicalStart.toNat := by
      rcases hown with hav' | hzero | hin | ⟨hwhole, -⟩
      · exact absurd hav' hav
      · omega
      · omega
      · omega
    refine .high habove hd.dvd_end ⟨d, hlast, rfl⟩ hends (fun f hf hflt => ?_) ?_
    · exact hcovered f hf (hzero ▸ hflt)
    · rw [wraps, hzero, hsame, Nat.mod_eq_of_lt (by omega)]

/-- **The step lemma**: an iteration that is defined makes progress. -/
theorem Progress.visit (h : Progress seen st.availableEnd.toNat) (hwf : WellFormedMap memoryMap)
    (hmap : seen ++ d :: rest = memoryMap) (halign : kBytesPerFrame ∣ st.availableEnd.toNat)
    (hvisit : st.visit d = some st') : Progress (seen ++ [d]) st'.availableEnd.toNat := by
  cases h with
  | low bound ends => exact visit_low hwf hmap halign bound ends hvisit
  | high above aligned attained ends covered wraps =>
      exact visit_high hwf hmap halign above attained covered wraps hvisit
  | whole bound found =>
      obtain ⟨w, hw, -, hwhole⟩ := found
      exact absurd hwhole (hwf.not_whole hmap hw)

/-- The recorded end stays a multiple of the frame size. -/
theorem visit_aligned (hd : d.InAddressSpace) (halign : kBytesPerFrame ∣ st.availableEnd.toNat)
    (hvisit : st.visit d = some st') : kBytesPerFrame ∣ st'.availableEnd.toNat := by
  rw [visit_availableEnd hvisit]
  split_ifs
  · exact (Nat.dvd_mod_iff (by decide)).mpr hd.dvd_end
  · exact halign

/-- After the whole map, the recorded end lies in the bitmap iff the map is `WithinBitmap`. -/
theorem Progress.end_iff {availableEnd : Nat} (h : Progress memoryMap availableEnd)
    (hwf : WellFormedMap memoryMap) : availableEnd ≤ bitmapEnd ↔ WithinBitmap memoryMap := by
  cases h with
  | low bound ends => exact iff_of_true bound (Or.inl ends)
  | whole bound found => exact iff_of_true bound (Or.inr (Or.inl found))
  | high above aligned attained ends covered wraps =>
      obtain ⟨e, he, rfl⟩ := attained
      have hspace := (hwf.descriptors e he).bound
      rw [wraps]
      rcases Nat.lt_or_eq_of_le hspace with hlt | htop
      · rw [Nat.mod_eq_of_lt hlt]
        refine iff_of_false (not_le.mpr above) ?_
        rintro (hall | ⟨w, hw, -, -, hwhole⟩ | hcov)
        · exact absurd (hall e he) (not_le.mpr above)
        · exact absurd (hwhole ▸ ends w hw) (not_le.mpr hlt)
        · obtain ⟨f, hf⟩ := aligned
          rw [Nat.mul_comm] at hf
          rw [hf] at above
          obtain ⟨w, hw, -, -, hcovers⟩ :=
            hcov f (Nat.lt_of_mul_lt_mul_right above).le (hf ▸ hlt)
          exact absurd (hf ▸ ends w hw) (not_le.mpr hcovers)
      · rw [htop, Nat.mod_self]
        exact iff_of_true (Nat.zero_le _) (Or.inr (Or.inr (htop ▸ covered)))

theorem progress_init : kBytesPerFrame ∣ ({} : BootScan).availableEnd.toNat ∧
    Progress [] ({} : BootScan).availableEnd.toNat :=
  ⟨Nat.dvd_zero _, .low (Nat.zero_le _) fun _ he => absurd he List.not_mem_nil⟩

/-- **The descriptor loop**: it is defined and leaves a range that the bitmap covers iff the map is
`WithinBitmap`. -/
theorem initializeRange_iff (hwf : WellFormedMap memoryMap) :
    (∃ mm, initializeRange memoryMap = some mm ∧ mm.rangeBegin = 1 ∧ mm.rangeEnd ≤ kFrameCount) ↔
      WithinBitmap memoryMap := by
  have hfinal : ∀ {st : BootScan}, kBytesPerFrame ∣ st.availableEnd.toNat →
      Progress memoryMap st.availableEnd.toNat →
      (frameOf st.availableEnd ≤ kFrameCount ↔ WithinBitmap memoryMap) := by
    intro st halign hprogress
    rw [← hprogress.end_iff hwf]
    obtain ⟨e, he⟩ := halign
    unfold frameOf bitmapEnd
    rw [he, Nat.mul_div_cancel_left _ (by decide), Nat.mul_comm,
      Nat.mul_le_mul_right_iff (by decide)]
  constructor
  · rintro ⟨mm, heq, -, hle⟩
    obtain ⟨st, hst, hmm⟩ := Option.bind_eq_some_iff.mp heq
    cases hmm
    rw [← run_eq_foldlM] at hst
    obtain ⟨halign, hprogress⟩ := run_history (P := fun seen st =>
      kBytesPerFrame ∣ st.availableEnd.toNat ∧ Progress seen st.availableEnd.toNat)
      progress_init (fun seen d rest st st' hmap ⟨halign, hprogress⟩ hvisit =>
        ⟨visit_aligned (hwf.split hmap).1 halign hvisit,
          hprogress.visit hwf hmap halign hvisit⟩) hst
    exact (hfinal halign hprogress).mp hle
  · intro hwithin
    have hloop : ∃ st, run BootScan.visit {} memoryMap = some st ∧
        kBytesPerFrame ∣ st.availableEnd.toNat ∧ Progress memoryMap st.availableEnd.toNat := by
      refine run_of_prefixes (P := fun seen (st : BootScan) =>
        kBytesPerFrame ∣ st.availableEnd.toNat ∧ Progress seen st.availableEnd.toNat)
        progress_init memoryMap ?_
      rintro seen d rest st hmap ⟨halign, hprogress⟩
      obtain ⟨st', hvisit⟩ :=
        Option.isSome_iff_exists.mp (hprogress.visit_isSome hwf hmap halign hwithin)
      exact ⟨st', hvisit, visit_aligned (hwf.split hmap).1 halign hvisit,
        hprogress.visit hwf hmap halign hvisit⟩
    obtain ⟨st, hst, halign, hprogress⟩ := hloop
    rw [run_eq_foldlM] at hst
    refine ⟨st.mm.setMemoryRange 1 (frameOf st.availableEnd), ?_, rfl,
      (hfinal halign hprogress).mpr hwithin⟩
    unfold initializeRange
    rw [hst]
    rfl

/-! ## The calls that follow -/

/-- Every access of the bitmap is in bounds: `InitializeMemoryManager` is defined, and if it has
not exited, so is every sequence of `Allocate` calls, with blocks freed in between. -/
def InBounds (memoryMap : List MemoryDescriptor) : Prop :=
  ∃ mm result, initializeMemoryManager memoryMap = some (mm, result) ∧
    ∀ programBreak, result = .ok programBreak → ∀ ops : List FrameOp,
      Admits FrameRun.step (fun s op => op.Permitted s) { mm := mm } ops →
      (run FrameRun.step { mm := mm } ops).isSome = true

/-- The heap takes a block of frames, or nothing. -/
theorem initializeHeap_spec {mm : BitmapMemoryManager} (hend : mm.rangeEnd ≤ kFrameCount) :
    ∃ mm' result, initializeHeap mm = some (mm', result) ∧
      BitmapMemoryManager.SameRange mm mm' := by
  obtain ⟨r, heq, halloc⟩ := BitmapMemoryManager.allocate_spec hend kHeapFrames
  unfold initializeHeap
  rw [heq]
  cases halloc with
  | success ge fits first same used => exact ⟨_, _, rfl, same⟩
  | failure none => exact ⟨_, _, rfl, rfl, rfl⟩

/-- When the range goes beyond the bitmap, the heap cannot be refused, and the first call that asks
for more than the bitmap has leaves it. -/
theorem not_inBounds_of_beyond {mm : BitmapMemoryManager}
    (hrange : initializeRange memoryMap = some mm) (hbegin : mm.rangeBegin = 1)
    (hbeyond : kFrameCount < mm.rangeEnd) : ¬InBounds memoryMap := by
  rintro ⟨mm', result, hinit, hcalls⟩
  unfold initializeMemoryManager at hinit
  rw [hrange] at hinit
  have hheap : initializeHeap mm = some (mm', result) := hinit
  obtain ⟨⟨mm₁, frame, error⟩, halloc, hrest⟩ := Option.bind_eq_some_iff.mp hheap
  obtain ⟨rfl, -, hsame⟩ := BitmapMemoryManager.allocate_beyond hbeyond
    (hbegin ▸ by decide) halloc
  cases hrest
  have hdefined := hcalls _ rfl [.allocate (kFrameCount + 1)] ⟨trivial, fun _ _ => trivial⟩
  obtain ⟨s, hs⟩ := Option.isSome_iff_exists.mp hdefined
  obtain ⟨s', hs', -⟩ := Option.bind_eq_some_iff.mp hs
  obtain ⟨⟨mm₂, frame', error'⟩, halloc', -⟩ := Option.bind_eq_some_iff.mp hs'
  obtain ⟨-, hn, -⟩ := BitmapMemoryManager.allocate_beyond (hsame.rangeEnd ▸ hbeyond)
    (by rw [hsame.rangeBegin, hbegin]; decide) halloc'
  exact absurd hn (Nat.not_succ_le_self _)

/-- **The bitmap is accessed in bounds exactly on the maps that are `WithinBitmap`**: for every
memory map of aligned descriptors, sorted and disjoint, anywhere in the 64-bit address space, the
accesses of the initialization and of all later allocations are in bounds iff every descriptor ends
in the bitmap, or one that is not available is the whole address space, or available memory covers
every frame after the bitmap. -/
theorem boot_in_bounds_iff (hwf : WellFormedMap memoryMap) :
    InBounds memoryMap ↔ WithinBitmap memoryMap := by
  rw [← initializeRange_iff hwf]
  constructor
  · intro h
    obtain ⟨mm', result, hinit, -⟩ := id h
    obtain ⟨mm, hrange, -⟩ := Option.bind_eq_some_iff.mp hinit
    obtain ⟨st, -, hmm⟩ := Option.bind_eq_some_iff.mp hrange
    have hbegin : mm.rangeBegin = 1 := by
      cases hmm
      rfl
    refine ⟨mm, hrange, hbegin, ?_⟩
    by_contra hbeyond
    exact not_inBounds_of_beyond hrange hbegin (not_le.mp hbeyond) h
  · rintro ⟨mm, hrange, -, hend⟩
    obtain ⟨mm', result, hheap, hsame⟩ := initializeHeap_spec hend
    refine ⟨mm', result, ?_, fun _ _ ops hadm => ?_⟩
    · unfold initializeMemoryManager
      rw [hrange]
      exact hheap
    · have hend' : mm'.rangeEnd ≤ kFrameCount := hsame.rangeEnd ▸ hend
      obtain ⟨s, hs, -⟩ := run_of_preserves (framesInv_preserved hend') (framesInv_init mm') hadm
      rw [hs]
      rfl

theorem smallMap_wellFormed : WellFormedMap smallMap := by
  refine ⟨fun d hd => ?_, ?_⟩
  · simp only [smallMap, List.mem_cons, List.not_mem_nil, or_false] at hd
    rcases hd with rfl | rfl | rfl <;> exact ⟨by decide, by decide⟩
  · unfold SortedDisjoint
    decide

theorem boot_in_bounds_iff_smallMap : InBounds smallMap ↔ WithinBitmap smallMap :=
  boot_in_bounds_iff smallMap_wellFormed

/-- Memory up to the end of the bitmap, and a reserved page right after it. -/
def reservedAboveMap : List MemoryDescriptor :=
  [{ type := 7, physicalStart := 0, numberOfPages := 0x2000000 },
    { type := 0, physicalStart := 0x2000000000, numberOfPages := 1 }]

/-- The reserved page is marked beyond the end of `alloc_map_`. -/
theorem boot_out_of_bounds : WellFormedMap reservedAboveMap ∧ ¬InBounds reservedAboveMap := by
  refine ⟨⟨fun d hd => ?_, ?_⟩, ?_⟩
  · simp only [reservedAboveMap, List.mem_cons, List.not_mem_nil, or_false] at hd
    rcases hd with rfl | rfl <;> exact ⟨by decide, by decide⟩
  · unfold SortedDisjoint
    decide
  · rintro ⟨mm, result, hinit, -⟩
    have hnone : initializeMemoryManager reservedAboveMap = none := by decide
    rw [hnone] at hinit
    cases hinit

end UhyokOS
