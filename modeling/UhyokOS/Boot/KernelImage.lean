import UhyokOS.Boot.Elf
import Mathlib.Order.Bounds.Basic

/-!
# The kernel's memory image

What `CalcLoadAddressRange` and `CopyLoadSegments` do with a file whose segments do not overlap each
other or the buffer the file is in.

* `Loaded.copyLoadSegment`: one segment is loaded and nothing else changes.
* `copyLoadSegments_spec`: all segments are loaded, and the rest of the memory stays as it was.
-/

namespace UhyokOS

open ElfFile

variable {file : ElfFile} {m : ByteMemory} {buffer : UInt64}

/-! ## Copying the segments -/

/-- The segments of the first `i` program headers have been loaded, and only they were written. -/
structure Loaded (file : ElfFile) (m : ByteMemory) (buffer : UInt64) (i : Nat) (s : Loading) :
    Prop where
  /-- The file in the buffer has not been touched. -/
  intact : s.memory.ImageAt buffer file.bytes file.size
  bytes : ∀ j < i, file.IsLoad j → ∀ k < (file.phdr j).pMemsz.toNat,
    s.memory ((file.phdr j).pVaddr + UInt64.ofNat k) = file.segmentByte j k
  frame : ∀ a, (∀ j < i, file.IsLoad j → ¬(file.segment j).Contains a) → s.memory a = m a
  written : ∀ span ∈ s.written, ∃ j < i, file.IsLoad j ∧ span.Within (file.segment j)

/-- No segment lies over the buffer. -/
def ClearOf (file : ElfFile) (buffer : UInt64) : Prop :=
  ∀ i, file.IsLoad i → (file.segment i).Apart (file.bufferSpan buffer)

/-- The two parts of a segment: what comes from the file, and the rest. -/
theorem parts_within (h : file.Loadable) {i : Nat} (hi : file.IsLoad i) :
    (⟨(file.phdr i).pVaddr, (file.phdr i).pFilesz.toNat⟩ : Span).Within (file.segment i) ∧
      (⟨(file.phdr i).pVaddr + (file.phdr i).pFilesz,
        ((file.phdr i).pMemsz - (file.phdr i).pFilesz).toNat⟩ : Span).Within (file.segment i) := by
  have hsize := h.filesz_le i hi
  have hle := UInt64.le_iff_toNat_le.mp hsize
  have hlt := UInt64.toNat_lt (file.phdr i).pMemsz
  rw [UInt64.toNat_sub_of_le _ _ hsize]
  constructor
  · intro a ha
    exact Nat.lt_of_lt_of_le ha hle
  · have hpart := Span.within_of_le (t := file.segment i) (k := (file.phdr i).pFilesz.toNat)
      (n := (file.phdr i).pMemsz.toNat - (file.phdr i).pFilesz.toNat) (by omega)
      (by unfold ElfFile.segment; simp only; omega)
    rwa [UInt64.ofNat_toNat] at hpart

theorem parts_apart (h : file.Loadable) {i : Nat} (hi : file.IsLoad i) :
    (⟨(file.phdr i).pVaddr, (file.phdr i).pFilesz.toNat⟩ : Span).Apart
      ⟨(file.phdr i).pVaddr + (file.phdr i).pFilesz,
        ((file.phdr i).pMemsz - (file.phdr i).pFilesz).toNat⟩ := by
  have hsize := h.filesz_le i hi
  have hle := UInt64.le_iff_toNat_le.mp hsize
  have hlt := UInt64.toNat_lt (file.phdr i).pMemsz
  have hzero : (file.phdr i).pVaddr + UInt64.ofNat 0 = (file.phdr i).pVaddr := UInt64.add_zero _
  have hparts : (⟨(file.phdr i).pVaddr + UInt64.ofNat 0, (file.phdr i).pFilesz.toNat⟩ : Span).Apart
      ⟨(file.phdr i).pVaddr + UInt64.ofNat (file.phdr i).pFilesz.toNat,
        (file.phdr i).pMemsz.toNat - (file.phdr i).pFilesz.toNat⟩ :=
    Span.apart_of_le (by omega) (by omega)
  rw [UInt64.toNat_sub_of_le _ _ hsize]
  rwa [hzero, UInt64.ofNat_toNat] at hparts

/-- A segment, if `CopyMem` does not touch the headers. -/
theorem copyLoadSegment_eq {i : Nat} (hi : file.IsLoad i) {s : Loading}
    (hintact : s.memory.ImageAt buffer file.bytes file.size)
    (hintact' : (s.copyMem (file.phdr i).pVaddr (buffer + (file.phdr i).pOffset)
      (file.phdr i).pFilesz).memory.ImageAt buffer file.bytes file.size) :
    copyLoadSegment buffer (buffer + ePhoff file.bytes 0) i s =
      (s.copyMem (file.phdr i).pVaddr (buffer + (file.phdr i).pOffset) (file.phdr i).pFilesz).setMem
        ((file.phdr i).pVaddr + (file.phdr i).pFilesz)
        ((file.phdr i).pMemsz - (file.phdr i).pFilesz) 0 := by
  have hload : ¬(file.phdr i).pType ≠ PT_LOAD := not_not.mpr hi.2
  unfold copyLoadSegment
  simp only [phdrAt_of_imageAt hintact hi.1, phdrAt_of_imageAt hintact' hi.1, hload, if_false]

/-- **Loading a segment.** -/
theorem copyLoadSegment_spec (h : file.Loadable) (hclear : ClearOf file buffer) {i : Nat}
    (hi : file.IsLoad i) {s : Loading} (hintact : s.memory.ImageAt buffer file.bytes file.size) :
    (∀ k < (file.phdr i).pMemsz.toNat,
        (copyLoadSegment buffer (buffer + ePhoff file.bytes 0) i s).memory
          ((file.phdr i).pVaddr + UInt64.ofNat k) = file.segmentByte i k) ∧
      (∀ a, ¬(file.segment i).Contains a →
        (copyLoadSegment buffer (buffer + ePhoff file.bytes 0) i s).memory a = s.memory a) ∧
      (copyLoadSegment buffer (buffer + ePhoff file.bytes 0) i s).written = s.written ++
        [⟨(file.phdr i).pVaddr, (file.phdr i).pFilesz.toNat⟩] ++
        [⟨(file.phdr i).pVaddr + (file.phdr i).pFilesz,
          ((file.phdr i).pMemsz - (file.phdr i).pFilesz).toNat⟩] := by
  obtain ⟨hfile, hrest⟩ := parts_within h hi
  have hsize := h.filesz_le i hi
  have hle := UInt64.le_iff_toNat_le.mp hsize
  have hlt := UInt64.toNat_lt (file.phdr i).pMemsz
  have hinFile := h.inFile i hi
  have hbuffer := hclear i hi
  have hlt' := file.size_lt
  -- `CopyMem` does not touch the headers
  have hintact' : (s.copyMem (file.phdr i).pVaddr (buffer + (file.phdr i).pOffset)
      (file.phdr i).pFilesz).memory.ImageAt buffer file.bytes file.size := by
    apply hintact.congr (Nat.le_of_lt hlt')
    intro a ha
    rw [Loading.copyMem_memory]
    exact ByteMemory.copy_of_not_contains fun hcopy => hbuffer a (hfile a hcopy) ha
  rw [copyLoadSegment_eq hi hintact hintact', Loading.setMem_memory, Loading.setMem_written,
    Loading.copyMem_memory, Loading.copyMem_written]
  refine ⟨fun k hk => ?_, fun a ha => ?_, rfl⟩
  · unfold segmentByte
    by_cases hfilesz : k < (file.phdr i).pFilesz.toNat
    · have hcontains : (⟨(file.phdr i).pVaddr, (file.phdr i).pFilesz.toNat⟩ : Span).Contains
          ((file.phdr i).pVaddr + UInt64.ofNat k) := (Span.contains_add (by omega)).mpr hfilesz
      have hsource : (file.phdr i).pOffset + UInt64.ofNat k =
          UInt64.ofNat ((file.phdr i).pOffset.toNat + k) := by
        rw [UInt64.ofNat_add, UInt64.ofNat_toNat]
      rw [if_pos hfilesz, ByteMemory.fill_of_not_contains (parts_apart h hi _ hcontains),
        ByteMemory.copy_at hfilesz (by omega), UInt64.add_assoc, hsource]
      exact hintact _ (by omega)
    · have haddr : (file.phdr i).pVaddr + UInt64.ofNat k = (file.phdr i).pVaddr +
          (file.phdr i).pFilesz + UInt64.ofNat (k - (file.phdr i).pFilesz.toNat) := by
        have hsplit := Span.add_offset_add (file.phdr i).pVaddr (file.phdr i).pFilesz.toNat
          (k - (file.phdr i).pFilesz.toNat)
        rw [Nat.add_sub_cancel' (Nat.le_of_not_lt hfilesz), UInt64.ofNat_toNat] at hsplit
        exact hsplit.symm
      rw [if_neg hfilesz, haddr]
      apply ByteMemory.fill_of_contains
      apply (Span.contains_add (by omega)).mpr
      simp only
      rw [UInt64.toNat_sub_of_le _ _ hsize]
      omega
  · rw [ByteMemory.fill_of_not_contains fun hfill => ha (hrest a hfill),
      ByteMemory.copy_of_not_contains fun hcopy => ha (hfile a hcopy)]

/-- Another header. -/
theorem copyLoadSegment_skip {i : Nat} (hi : i < file.phnum) (hother : ¬file.IsLoad i) {s : Loading}
    (hintact : s.memory.ImageAt buffer file.bytes file.size) :
    copyLoadSegment buffer (buffer + ePhoff file.bytes 0) i s = s := by
  have hskip : (file.phdr i).pType ≠ PT_LOAD := fun htype => hother ⟨hi, htype⟩
  unfold copyLoadSegment
  simp only [phdrAt_of_imageAt hintact hi, hskip, ne_eq, not_false_eq_true, if_true]

/-- An address of a segment is one of its bytes. -/
theorem exists_of_contains {i : Nat} {a : UInt64} (ha : (file.segment i).Contains a) :
    ∃ k < (file.phdr i).pMemsz.toNat, a = (file.phdr i).pVaddr + UInt64.ofNat k := by
  obtain ⟨k, hk, -, heq⟩ := Span.contains_iff_exists.mp ha
  exact ⟨k, hk, heq⟩

theorem contains_segment {i k : Nat} (hk : k < (file.phdr i).pMemsz.toNat) :
    (file.segment i).Contains ((file.phdr i).pVaddr + UInt64.ofNat k) :=
  (Span.contains_add (hk.trans (UInt64.toNat_lt _))).mpr hk

/-- **One header of the loop.** -/
theorem Loaded.step (h : file.Loadable) (hclear : ClearOf file buffer) {i : Nat}
    (hi : i < file.phnum) {s : Loading} (hs : Loaded file m buffer i s) :
    Loaded file m buffer (i + 1) (copyLoadSegment buffer (buffer + ePhoff file.bytes 0) i s) := by
  by_cases hload : file.IsLoad i
  · obtain ⟨hbytes, hframe, hwritten⟩ := copyLoadSegment_spec h hclear hload hs.intact
    obtain ⟨hfile, hrest⟩ := parts_within h hload
    refine ⟨?_, ?_, ?_, ?_⟩
    · exact hs.intact.congr (Nat.le_of_lt file.size_lt) fun a ha =>
        hframe a fun hin => hclear i hload a hin ha
    · intro j hj hloadj k hk
      rcases Nat.lt_succ_iff_lt_or_eq.mp hj with hlt | rfl
      · rw [hframe _ (h.apart j i hloadj hload (Nat.ne_of_lt hlt) _ (contains_segment hk))]
        exact hs.bytes j hlt hloadj k hk
      · exact hbytes k hk
    · intro a ha
      rw [hframe a (ha i (Nat.lt_succ_self i) hload)]
      exact hs.frame a fun j hj => ha j (Nat.lt_succ_of_lt hj)
    · intro span hspan
      rw [hwritten, List.append_assoc] at hspan
      rcases List.mem_append.mp hspan with hold | hnew
      · obtain ⟨j, hj, hloadj, hwithin⟩ := hs.written span hold
        exact ⟨j, Nat.lt_succ_of_lt hj, hloadj, hwithin⟩
      · refine ⟨i, Nat.lt_succ_self i, hload, ?_⟩
        rcases List.mem_cons.mp hnew with rfl | hnew
        · exact hfile
        · obtain rfl := List.mem_singleton.mp hnew
          exact hrest
  · have hnot : ∀ j < i + 1, file.IsLoad j → j < i := by
      intro j hj hloadj
      rcases Nat.lt_succ_iff_lt_or_eq.mp hj with hlt | rfl
      · exact hlt
      · exact absurd hloadj hload
    rw [copyLoadSegment_skip hi hload hs.intact]
    refine ⟨hs.intact, fun j hj hloadj => hs.bytes j (hnot j hj hloadj) hloadj, ?_, ?_⟩
    · intro a ha
      exact hs.frame a fun j hj => ha j (Nat.lt_succ_of_lt hj)
    · intro span hspan
      obtain ⟨j, hj, hloadj, hwithin⟩ := hs.written span hspan
      exact ⟨j, Nat.lt_succ_of_lt hj, hloadj, hwithin⟩

/-- The rest of the loop, by induction on the rounds left. -/
theorem Loaded.run (h : file.Loadable) (hclear : ClearOf file buffer) (rounds : Nat) {i : Nat}
    (hi : i ≤ file.phnum) (hrounds : file.phnum ≤ i + rounds) {s : Loading}
    (hs : Loaded file m buffer i s) :
    Loaded file m buffer file.phnum
      (copyLoadSegmentsFrom buffer (buffer + ePhoff file.bytes 0) rounds i s) := by
  induction rounds generalizing i s with
  | zero =>
      obtain rfl : i = file.phnum := by omega
      exact hs
  | succ rounds ih =>
      rw [copyLoadSegmentsFrom, ePhnum_of_imageAt hs.intact]
      split_ifs with hlt
      · exact ih hlt (by omega) (hs.step h hclear hlt)
      · obtain rfl : i = file.phnum := by omega
        exact hs

/-- **`CopyLoadSegments` loads the segments** and writes nothing else. -/
theorem copyLoadSegments_spec (h : file.Loadable) (hclear : ClearOf file buffer)
    (hfile : m.ImageAt buffer file.bytes file.size) :
    Loaded file m buffer file.phnum (copyLoadSegments m buffer) := by
  have hcount : file.phnum < 256 ^ 2 := ByteMemory.loadLE_lt
  unfold copyLoadSegments
  rw [ePhoff_of_imageAt hfile]
  refine Loaded.run h hclear _ (Nat.zero_le _) (by omega) ⟨hfile, ?_, fun a _ => rfl, ?_⟩
  · intro j hj
    exact absurd hj (Nat.not_lt_zero j)
  · intro span hspan
    exact absurd hspan List.not_mem_nil

/-! ## The range of addresses -/

section Range

theorem calcLoadAddressRange_eq (hfile : m.ImageAt buffer file.bytes file.size) :
    calcLoadAddressRange m buffer =
      (List.range file.phnum).foldl (fun range i => widenRange (file.phdr i) range)
        (0xffffffffffffffff, 0) := by
  unfold calcLoadAddressRange
  simp only
  rw [ePhoff_of_imageAt hfile, ePhnum_of_imageAt hfile]
  apply List.foldl_ext
  intro range i hi
  rw [phdrAt_of_imageAt hfile (List.mem_range.mp hi)]

/-- The end of a segment, as a number. -/
def segmentEnd (file : ElfFile) (i : Nat) : Nat :=
  (file.phdr i).pVaddr.toNat + (file.phdr i).pMemsz.toNat

/-- The segments end before the address space does. -/
def NoWrap (file : ElfFile) : Prop := ∀ i, file.IsLoad i → segmentEnd file i < 2 ^ 64

/-- `*first` after `n` headers: the lowest address. -/
structure FirstOf (file : ElfFile) (n : Nat) (first : UInt64) : Prop where
  lower : ∀ i < n, file.IsLoad i → first.toNat ≤ (file.phdr i).pVaddr.toNat
  attained : (∃ i < n, file.IsLoad i ∧ (file.phdr i).pVaddr.toNat = first.toNat) ∨
    first.toNat = 2 ^ 64 - 1

/-- `*last` after `n` headers: the highest end. -/
structure LastOf (file : ElfFile) (n : Nat) (last : UInt64) : Prop where
  upper : ∀ i < n, file.IsLoad i → segmentEnd file i ≤ last.toNat
  attained : (∃ i < n, file.IsLoad i ∧ segmentEnd file i = last.toNat) ∨ last.toNat = 0

variable {n : Nat} {range : UInt64 × UInt64}

theorem FirstOf.widen (h : FirstOf file n range.1) (hn : n < file.phnum) :
    FirstOf file (n + 1) (widenRange (file.phdr n) range).1 := by
  unfold widenRange
  split_ifs with htype
  · refine ⟨fun i hi hload => ?_, h.attained.imp_left ?_⟩
    · rcases Nat.lt_succ_iff_lt_or_eq.mp hi with hlt | rfl
      · exact h.lower i hlt hload
      · exact absurd hload.2 htype
    · rintro ⟨i, hi, hfirst⟩
      exact ⟨i, Nat.lt_succ_of_lt hi, hfirst⟩
  · constructor
    · intro i hi hload
      rw [toNat_addrMin]
      rcases Nat.lt_succ_iff_lt_or_eq.mp hi with hlt | rfl
      · exact (Nat.min_le_left _ _).trans (h.lower i hlt hload)
      · exact Nat.min_le_right _ _
    · rw [toNat_addrMin]
      rcases Nat.lt_or_ge range.1.toNat (file.phdr n).pVaddr.toNat with hlt | hge
      · rw [Nat.min_eq_left (Nat.le_of_lt hlt)]
        refine h.attained.imp_left ?_
        rintro ⟨i, hi, hfirst⟩
        exact ⟨i, Nat.lt_succ_of_lt hi, hfirst⟩
      · rw [Nat.min_eq_right hge]
        exact Or.inl ⟨n, Nat.lt_succ_self n, ⟨hn, not_not.mp htype⟩, rfl⟩

theorem LastOf.widen (hwrap : NoWrap file) (h : LastOf file n range.2) (hn : n < file.phnum) :
    LastOf file (n + 1) (widenRange (file.phdr n) range).2 := by
  unfold widenRange
  split_ifs with htype
  · refine ⟨fun i hi hload => ?_, h.attained.imp_left ?_⟩
    · rcases Nat.lt_succ_iff_lt_or_eq.mp hi with hlt | rfl
      · exact h.upper i hlt hload
      · exact absurd hload.2 htype
    · rintro ⟨i, hi, hlast⟩
      exact ⟨i, Nat.lt_succ_of_lt hi, hlast⟩
  · have hload : file.IsLoad n := ⟨hn, not_not.mp htype⟩
    have hend : ((file.phdr n).pVaddr + (file.phdr n).pMemsz).toNat = segmentEnd file n := by
      rw [UInt64.toNat_add]
      exact Nat.mod_eq_of_lt (hwrap n hload)
    constructor
    · intro i hi hload
      rw [toNat_addrMax, hend]
      rcases Nat.lt_succ_iff_lt_or_eq.mp hi with hlt | rfl
      · exact (h.upper i hlt hload).trans (Nat.le_max_left _ _)
      · exact Nat.le_max_right _ _
    · rw [toNat_addrMax, hend]
      rcases Nat.lt_or_ge (segmentEnd file n) range.2.toNat with hlt | hge
      · rw [Nat.max_eq_left (Nat.le_of_lt hlt)]
        refine h.attained.imp_left ?_
        rintro ⟨i, hi, hlast⟩
        exact ⟨i, Nat.lt_succ_of_lt hi, hlast⟩
      · rw [Nat.max_eq_right hge]
        exact Or.inl ⟨n, Nat.lt_succ_self n, hload, rfl⟩

/-- The loop of `CalcLoadAddressRange` keeps what each header keeps. -/
theorem range_induction {P : Nat → UInt64 × UInt64 → Prop}
    (hzero : P 0 (0xffffffffffffffff, 0))
    (hstep : ∀ n range, n < file.phnum → P n range → P (n + 1) (widenRange (file.phdr n) range))
    (hfile : m.ImageAt buffer file.bytes file.size) :
    P file.phnum (calcLoadAddressRange m buffer) := by
  have hall : ∀ n, n ≤ file.phnum → P n ((List.range n).foldl
      (fun range i => widenRange (file.phdr i) range) (0xffffffffffffffff, 0)) := by
    intro n
    induction n with
    | zero => exact fun _ => hzero
    | succ n ih =>
        intro hn
        rw [List.range_succ, List.foldl_append]
        exact hstep n _ hn (ih (Nat.le_of_succ_le hn))
  rw [calcLoadAddressRange_eq hfile]
  exact hall file.phnum (Nat.le_refl _)

/-- **`*first` is the lowest address of a segment.** -/
theorem isLeast_first (hload : ∃ i, file.IsLoad i) (hfile : m.ImageAt buffer file.bytes file.size) :
    IsLeast {n | ∃ i, file.IsLoad i ∧ n = (file.phdr i).pVaddr.toNat}
      (calcLoadAddressRange m buffer).1.toNat := by
  have hfirst : FirstOf file file.phnum (calcLoadAddressRange m buffer).1 :=
    range_induction (P := fun n range => FirstOf file n range.1)
      ⟨fun i hi => absurd hi (Nat.not_lt_zero i), Or.inr rfl⟩ (fun _ _ hn h => h.widen hn) hfile
  constructor
  · rcases hfirst.attained with ⟨i, -, hi, heq⟩ | hmax
    · exact ⟨i, hi, heq.symm⟩
    · obtain ⟨i, hi⟩ := hload
      have hle := hfirst.lower i hi.1 hi
      have hlt := UInt64.toNat_lt (file.phdr i).pVaddr
      exact ⟨i, hi, by omega⟩
  · intro n hn
    obtain ⟨i, hi, heq⟩ := hn
    rw [heq]
    exact hfirst.lower i hi.1 hi

/-- **`*last` is the highest end of a segment.** -/
theorem isGreatest_last (hwrap : NoWrap file) (hload : ∃ i, file.IsLoad i)
    (hfile : m.ImageAt buffer file.bytes file.size) :
    IsGreatest {n | ∃ i, file.IsLoad i ∧ n = segmentEnd file i}
      (calcLoadAddressRange m buffer).2.toNat := by
  have hlast : LastOf file file.phnum (calcLoadAddressRange m buffer).2 :=
    range_induction (P := fun n range => LastOf file n range.2)
      ⟨fun i hi => absurd hi (Nat.not_lt_zero i), Or.inr rfl⟩
      (fun _ _ hn h => h.widen hwrap hn) hfile
  constructor
  · rcases hlast.attained with ⟨i, -, hi, heq⟩ | hzero
    · exact ⟨i, hi, heq.symm⟩
    · obtain ⟨i, hi⟩ := hload
      have hle := hlast.upper i hi.1 hi
      exact ⟨i, hi, by omega⟩
  · intro n hn
    obtain ⟨i, hi, heq⟩ := hn
    rw [heq]
    exact hlast.upper i hi.1 hi

end Range

/-! ## The pages -/

/-- The memory that `AllocatePages` grants: `num_pages` pages from `kernel_first_addr` on.
Source: `UhyokoLoaderPkg/Main.c`, `UefiMain` -/
def granted (m : ByteMemory) (ehdr : UInt64) : Span :=
  let range := calcLoadAddressRange m ehdr
  ⟨range.1, (numPages range.1 range.2).toNat * 4096⟩

/-- The number of pages, rounded up unless the rounding wraps around. -/
theorem numPages_eq {first last : UInt64} (h : first ≤ last) :
    (numPages first last).toNat =
      if last.toNat - first.toNat + 4095 < 2 ^ 64 then (last.toNat - first.toNat + 4095) / 4096
      else 0 := by
  have hle := UInt64.le_iff_toNat_le.mp h
  have hlast := UInt64.toNat_lt last
  have hround : (0xfff : UInt64).toNat = 4095 := rfl
  have hpage : (0x1000 : UInt64).toNat = 4096 := rfl
  unfold numPages
  rw [UInt64.toNat_div, UInt64.toNat_add, UInt64.toNat_sub_of_le _ _ h, hround, hpage]
  split_ifs with hlt
  · rw [Nat.mod_eq_of_lt hlt]
  · omega

/-- Rounding the size of the image up to pages does not wrap around. -/
def FitsPages (file : ElfFile) : Prop :=
  ∀ i j, file.IsLoad i → file.IsLoad j →
    segmentEnd file j ≤ (file.phdr i).pVaddr.toNat + (2 ^ 64 - 4096)

/-- No segment has a byte. -/
def NoBytes (file : ElfFile) : Prop := ∀ i, file.IsLoad i → (file.phdr i).pMemsz = 0

section Pages

variable (hwrap : NoWrap file) (hload : ∃ i, file.IsLoad i)
  (hfile : m.ImageAt buffer file.bytes file.size)

include hwrap hload hfile

theorem first_le_last : (calcLoadAddressRange m buffer).1 ≤ (calcLoadAddressRange m buffer).2 := by
  obtain ⟨i, hi⟩ := hload
  have hfirst := (isLeast_first ⟨i, hi⟩ hfile).2 ⟨i, hi, rfl⟩
  have hlast := (isGreatest_last hwrap ⟨i, hi⟩ hfile).2 ⟨i, hi, rfl⟩
  apply UInt64.le_iff_toNat_le.mpr
  unfold segmentEnd at hlast
  omega

/-- The condition in terms of the range. -/
theorem fitsPages_iff : FitsPages file ↔ (calcLoadAddressRange m buffer).2.toNat -
    (calcLoadAddressRange m buffer).1.toNat + 4095 < 2 ^ 64 := by
  obtain ⟨⟨i, hi, hfirst⟩, hlower⟩ := isLeast_first hload hfile
  obtain ⟨⟨j, hj, hlast⟩, hupper⟩ := isGreatest_last hwrap hload hfile
  have hle := UInt64.le_iff_toNat_le.mp (first_le_last hwrap hload hfile)
  constructor
  · intro hfits
    have hdiff := hfits i j hi hj
    omega
  · intro hlt i' j' hi' hj'
    have hfirst' := hlower ⟨i', hi', rfl⟩
    have hlast' := hupper ⟨j', hj', rfl⟩
    omega

/-- **The pages hold the segments.** -/
theorem segment_within_granted (hfits : FitsPages file) {i : Nat} (hi : file.IsLoad i) :
    (file.segment i).Within (granted m buffer) := by
  have hle := first_le_last hwrap hload hfile
  have hfirst := (isLeast_first hload hfile).2 ⟨i, hi, rfl⟩
  have hlast := (isGreatest_last hwrap hload hfile).2 ⟨i, hi, rfl⟩
  have hpages := numPages_eq hle
  have hlt := (fitsPages_iff hwrap hload hfile).mp hfits
  rw [if_pos hlt] at hpages
  have hend := hwrap i hi
  unfold segmentEnd at hlast hend
  intro a ha
  obtain ⟨hlow, hhigh⟩ := (Span.contains_iff (s := file.segment i) (Nat.le_of_lt hend)).mp ha
  unfold ElfFile.segment at hlow hhigh
  unfold granted Span.Contains
  simp only at hlow hhigh ⊢
  have hfirsta : (calcLoadAddressRange m buffer).1 ≤ a :=
    UInt64.le_iff_toNat_le.mpr (hfirst.trans hlow)
  rw [UInt64.toNat_sub_of_le _ _ hfirsta, hpages]
  omega

/-- If the rounding wraps around, there are no pages. -/
theorem granted_len_of_not_fitsPages (hnot : ¬FitsPages file) : (granted m buffer).len = 0 := by
  have hpages := numPages_eq (first_le_last hwrap hload hfile)
  rw [if_neg fun hlt => hnot ((fitsPages_iff hwrap hload hfile).mpr hlt)] at hpages
  unfold granted
  simp only
  rw [hpages, Nat.zero_mul]

end Pages

/-! ## When nothing may be written -/

theorem written_copyLoadSegment (ehdr phdr : UInt64) (i : Nat) {s : Loading} {span : Span}
    (hspan : span ∈ s.written) : span ∈ (copyLoadSegment ehdr phdr i s).written := by
  unfold copyLoadSegment
  simp only
  split_ifs
  · exact hspan
  · simp only [Loading.setMem_written, Loading.copyMem_written]
    exact List.mem_append_left _ (List.mem_append_left _ hspan)

/-- What has been written stays recorded. -/
theorem written_copyLoadSegmentsFrom (ehdr phdr : UInt64) (rounds : Nat) {i : Nat} {s : Loading}
    {span : Span} (hspan : span ∈ s.written) :
    span ∈ (copyLoadSegmentsFrom ehdr phdr rounds i s).written := by
  induction rounds generalizing i s with
  | zero => exact hspan
  | succ rounds ih =>
      rw [copyLoadSegmentsFrom]
      split_ifs
      · exact ih (written_copyLoadSegment ehdr phdr i hspan)
      · exact hspan

/-- A segment that writes no byte has none. -/
theorem copyLoadSegment_empty (h : file.Loadable) {i : Nat} (hi : file.IsLoad i) {s : Loading}
    (hintact : s.memory.ImageAt buffer file.bytes file.size)
    (hempty : ∀ span ∈ (copyLoadSegment buffer (buffer + ePhoff file.bytes 0) i s).written,
      span.len = 0) :
    (file.phdr i).pMemsz = 0 ∧
      (copyLoadSegment buffer (buffer + ePhoff file.bytes 0) i s).memory.ImageAt buffer file.bytes
        file.size := by
  have hsize := h.filesz_le i hi
  -- `CopyMem` has written nothing
  have hfilesz : (file.phdr i).pFilesz.toNat = 0 := by
    refine hempty ⟨(file.phdr i).pVaddr, (file.phdr i).pFilesz.toNat⟩ ?_
    have hload : ¬(file.phdr i).pType ≠ PT_LOAD := not_not.mpr hi.2
    unfold copyLoadSegment
    simp only [phdrAt_of_imageAt hintact hi.1, hload, if_false, Loading.setMem_written,
      Loading.copyMem_written]
    exact List.mem_append_left _ (List.mem_append_right _ List.mem_cons_self)
  have hintact' : (s.copyMem (file.phdr i).pVaddr (buffer + (file.phdr i).pOffset)
      (file.phdr i).pFilesz).memory.ImageAt buffer file.bytes file.size := by
    apply hintact.congr (Nat.le_of_lt file.size_lt)
    intro a _
    rw [Loading.copyMem_memory, hfilesz]
    exact ByteMemory.copy_of_not_contains (Nat.not_lt_zero _)
  rw [copyLoadSegment_eq hi hintact hintact'] at hempty ⊢
  rw [Loading.setMem_written] at hempty
  rw [Loading.setMem_memory]
  -- and neither has `SetMem`
  have hrest : ((file.phdr i).pMemsz - (file.phdr i).pFilesz).toNat = 0 :=
    hempty ⟨(file.phdr i).pVaddr + (file.phdr i).pFilesz,
      ((file.phdr i).pMemsz - (file.phdr i).pFilesz).toNat⟩
      (List.mem_append_right _ (List.mem_singleton.mpr rfl))
  constructor
  · apply UInt64.toNat_inj.mp
    rw [UInt64.toNat_sub_of_le _ _ hsize] at hrest
    rw [UInt64.toNat_zero]
    omega
  · apply hintact'.congr (Nat.le_of_lt file.size_lt)
    intro a _
    rw [hrest]
    exact ByteMemory.fill_of_not_contains (Nat.not_lt_zero _)

/-- A loop that writes no byte has no segments with bytes, by induction on the rounds left. -/
theorem noBytes_of_written (h : file.Loadable) (rounds : Nat) {i : Nat} {s : Loading}
    (hrounds : file.phnum ≤ i + rounds) (hintact : s.memory.ImageAt buffer file.bytes file.size)
    (hempty : ∀ span ∈
      (copyLoadSegmentsFrom buffer (buffer + ePhoff file.bytes 0) rounds i s).written,
      span.len = 0) :
    ∀ j, i ≤ j → file.IsLoad j → (file.phdr j).pMemsz = 0 := by
  induction rounds generalizing i s with
  | zero =>
      intro j hij hj
      have hlt := hj.1
      omega
  | succ rounds ih =>
      intro j hij hj
      have hlt : i < file.phnum := Nat.lt_of_le_of_lt hij hj.1
      rw [copyLoadSegmentsFrom, ePhnum_of_imageAt hintact, if_pos hlt] at hempty
      have hnow : ∀ span ∈ (copyLoadSegment buffer (buffer + ePhoff file.bytes 0) i s).written,
          span.len = 0 := fun span hspan =>
        hempty span (written_copyLoadSegmentsFrom buffer _ rounds hspan)
      by_cases hload : file.IsLoad i
      · obtain ⟨hmemsz, hintact'⟩ := copyLoadSegment_empty h hload hintact hnow
        rcases Nat.eq_or_lt_of_le hij with rfl | hij
        · exact hmemsz
        · exact ih (by omega) hintact' hempty j hij hj
      · rcases Nat.eq_or_lt_of_le hij with rfl | hij
        · exact absurd hj hload
        · rw [copyLoadSegment_skip hlt hload hintact] at hempty
          exact ih (by omega) hintact hempty j hij hj

/-! ## The image -/

/-- The loader builds the image of the file. -/
structure ImageExact (file : ElfFile) (m : ByteMemory) (buffer : UInt64) : Prop where
  bytes : ∀ i, file.IsLoad i → ∀ k < (file.phdr i).pMemsz.toNat,
    (copyLoadSegments m buffer).memory ((file.phdr i).pVaddr + UInt64.ofNat k) =
      if k < (file.phdr i).pFilesz.toNat then file.bytes ((file.phdr i).pOffset + UInt64.ofNat k)
      else 0
  first : IsLeast {n | ∃ i, file.IsLoad i ∧ n = (file.phdr i).pVaddr.toNat}
    (calcLoadAddressRange m buffer).1.toNat
  last : IsGreatest {n | ∃ i, file.IsLoad i ∧ n = segmentEnd file i}
    (calcLoadAddressRange m buffer).2.toNat
  written : ∀ span ∈ (copyLoadSegments m buffer).written, span.Within (granted m buffer)

section

variable (h : file.Loadable) (hwrap : NoWrap file) (hload : ∃ i, file.IsLoad i)
  (hfile : m.ImageAt buffer file.bytes file.size)

include h hwrap hload hfile

/-- If there are no pages, nothing may be written. -/
theorem fits_of_imageExact (hexact : ImageExact file m buffer) :
    FitsPages file ∨ NoBytes file := by
  by_cases hfits : FitsPages file
  · exact Or.inl hfits
  · refine Or.inr fun j hj => ?_
    have hlen := granted_len_of_not_fitsPages hwrap hload hfile hfits
    have hcount : file.phnum < 256 ^ 2 := ByteMemory.loadLE_lt
    have hwritten := hexact.written
    unfold copyLoadSegments at hwritten
    rw [ePhoff_of_imageAt hfile] at hwritten
    refine noBytes_of_written h (2 ^ 16) (s := ⟨m, []⟩) (by omega) hfile (fun span hspan => ?_) j
      (Nat.zero_le j) hj
    -- a span with a byte is not within no pages
    by_contra hbytes
    have hin := hwritten span hspan span.start (by
      unfold Span.Contains
      rw [UInt64.sub_self]
      exact Nat.pos_of_ne_zero hbytes)
    unfold Span.Contains at hin
    rw [hlen] at hin
    exact Nat.not_lt_zero _ hin

/-- If the pages hold the segments, they are loaded. -/
theorem imageExact_of_fits (hgrant : (granted m buffer).Apart (file.bufferSpan buffer))
    (hcases : FitsPages file ∨ NoBytes file) : ImageExact file m buffer := by
  have hwithin : ∀ i, file.IsLoad i → (file.segment i).Within (granted m buffer) := by
    intro i hi
    rcases hcases with hfits | hnone
    · exact segment_within_granted hwrap hload hfile hfits hi
    · intro a ha
      obtain ⟨k, hk, -⟩ := exists_of_contains ha
      rw [hnone i hi] at hk
      exact absurd hk (Nat.not_lt_zero k)
  have hclear : ClearOf file buffer := fun i hi a ha => hgrant a (hwithin i hi a ha)
  have hloaded := copyLoadSegments_spec h hclear hfile
  refine ⟨fun i hi => hloaded.bytes i hi.1 hi, isLeast_first hload hfile,
    isGreatest_last hwrap hload hfile, ?_⟩
  intro span hspan
  obtain ⟨i, -, hi, hspan⟩ := hloaded.written span hspan
  exact hspan.trans (hwithin i hi)

end

/-- **The kernel's memory image, exactly.** Let the segments of a file neither overlap nor wrap
around, let the file be in a buffer and the granted pages apart from it. Every segment is loaded as
the file has it, `first` and `last` are the tightest bounds and nothing is written outside the
granted pages iff rounding the size of the image up to pages does not wrap around or there is
nothing to load. -/
theorem kernel_image_exact_iff {file : ElfFile} {m : ByteMemory} {buffer : UInt64}
    (h : file.Loadable) (hwrap : NoWrap file) (hload : ∃ i, file.IsLoad i)
    (hfile : m.ImageAt buffer file.bytes file.size)
    (hgrant : (granted m buffer).Apart (file.bufferSpan buffer)) :
    ImageExact file m buffer ↔ FitsPages file ∨ NoBytes file :=
  ⟨fits_of_imageExact h hwrap hload hfile, imageExact_of_fits h hwrap hload hfile hgrant⟩

/-- A file with one program header, at offset 64. -/
def oneSegment (phdr : List (UInt64 × UInt8)) : ByteMemory :=
  .sparse ([(32, 64), (56, 1), (64, 1)] ++ phdr)

/-- 512 bytes at 1 MiB, of which the file has 120. -/
def smallKernel : ElfFile where
  bytes := oneSegment [(82, 16), (96, 120), (105, 2)]
  size := 120
  size_lt := by decide
  header := by decide
  table := by decide

/-- All addresses but the last one, none of them in the file. -/
def hugeKernel : ElfFile where
  bytes := oneSegment [(104, 255), (105, 255), (106, 255), (107, 255), (108, 255), (109, 255),
    (110, 255), (111, 255)]
  size := 120
  size_lt := by decide
  header := by decide
  table := by decide

/-- A file with one program header. -/
theorem loadable_of_phnum (hone : file.phnum = 1)
    (hle : (file.phdr 0).pFilesz ≤ (file.phdr 0).pMemsz)
    (hin : (file.phdr 0).pOffset.toNat + (file.phdr 0).pFilesz.toNat ≤ file.size) :
    file.Loadable := by
  have hzero : ∀ {i}, file.IsLoad i → i = 0 := by
    intro i hi
    have hlt := hi.1
    omega
  constructor
  · intro i hi
    obtain rfl := hzero hi
    exact hle
  · intro i hi
    obtain rfl := hzero hi
    exact hin
  · intro i j hi hj hne
    exact absurd ((hzero hi).trans (hzero hj).symm) hne

theorem noWrap_of_phnum (hone : file.phnum = 1) (hend : segmentEnd file 0 < 2 ^ 64) :
    NoWrap file := by
  intro i hi
  have hlt := hi.1
  obtain rfl : i = 0 := by omega
  exact hend

/-- A file in memory at address 0. -/
theorem imageAt_zero (file : ElfFile) : file.bytes.ImageAt 0 file.bytes file.size := by
  intro k _
  rw [UInt64.zero_add]

/-- The small kernel is loaded. -/
theorem kernel_image_exact_iff_smallKernel : ImageExact smallKernel smallKernel.bytes 0 := by
  have hwrap : NoWrap smallKernel := noWrap_of_phnum (by decide) (by decide)
  have hload : ∃ i, smallKernel.IsLoad i := ⟨0, by decide⟩
  have hgrant : (granted smallKernel.bytes 0).Apart (smallKernel.bufferSpan 0) := by
    have hstart : (granted smallKernel.bytes 0).start.toNat = 0x100000 := by decide
    have hlen : (granted smallKernel.bytes 0).len = 4096 := by decide
    intro a hin hbuffer
    have hlow := (Span.contains_iff (by rw [hstart, hlen]; decide)).mp hin
    have hhigh := (Span.contains_iff (s := smallKernel.bufferSpan 0) (by decide)).mp hbuffer
    have hsize : (smallKernel.bufferSpan 0).start.toNat + (smallKernel.bufferSpan 0).len = 120 := by
      decide
    omega
  apply (kernel_image_exact_iff (loadable_of_phnum (by decide) (by decide) (by decide)) hwrap hload
    (imageAt_zero smallKernel) hgrant).mpr
  refine Or.inl fun i j hi hj => ?_
  have hi' : i < 1 := hi.1
  have hj' : j < 1 := hj.1
  obtain rfl : i = 0 := by omega
  obtain rfl : j = 0 := by omega
  decide

/-- **The size of the image wraps around**: no pages are allocated for the huge kernel. -/
theorem kernel_image_not_exact :
    ¬∀ (file : ElfFile) (m : ByteMemory) (buffer : UInt64), file.Loadable → NoWrap file →
      (∃ i, file.IsLoad i) → m.ImageAt buffer file.bytes file.size →
      (granted m buffer).Apart (file.bufferSpan buffer) → ImageExact file m buffer := by
  intro hall
  have hloadable : hugeKernel.Loadable := loadable_of_phnum (by decide) (by decide) (by decide)
  have hwrap : NoWrap hugeKernel := noWrap_of_phnum (by decide) (by decide)
  have hload : ∃ i, hugeKernel.IsLoad i := ⟨0, by decide⟩
  have hgrant : (granted hugeKernel.bytes 0).Apart (hugeKernel.bufferSpan 0) := by
    have hlen : (granted hugeKernel.bytes 0).len = 0 := by decide
    intro a hin
    unfold Span.Contains at hin
    rw [hlen] at hin
    exact absurd hin (Nat.not_lt_zero _)
  have hexact := hall hugeKernel hugeKernel.bytes 0 hloadable hwrap hload
    (imageAt_zero hugeKernel) hgrant
  rcases fits_of_imageExact hloadable hwrap hload (imageAt_zero hugeKernel) hexact with hfits | hnone
  · exact absurd (hfits 0 0 (by decide) (by decide)) (by decide)
  · exact absurd (hnone 0 (by decide)) (by decide)

end UhyokOS
