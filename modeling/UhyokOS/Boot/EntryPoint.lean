import UhyokOS.Boot.KernelImage

/-!
# The entry point

The loader frees the buffer with the ELF file and then reads the address of the entry point from the
loaded image, 24 bytes after its start. That is where the ELF header has it if the image starts with
the ELF header.

* `memory_eq_imageByte`: every byte of the memory after loading, from the file and the memory before.
* `entry_addr_iff`: exactly when the loader finds the entry point.
* `entry_addr_of_header`: it does if the lowest segment starts with the ELF header.
-/

namespace UhyokOS

open ElfFile

/-- `entry_addr`. What lies between `CopyLoadSegments` and this read does not write to the image.
Source: `UhyokoLoaderPkg/Main.c`, `UefiMain` -/
def entryAddr (m : ByteMemory) (ehdr : UInt64) : UInt64 :=
  let kernelFirstAddr := (calcLoadAddressRange m ehdr).1
  UInt64.ofNat ((copyLoadSegments m ehdr).memory.loadLE (kernelFirstAddr + UInt64.ofNat 24) 8)

/-- The lowest address at which a segment of the file starts, whatever the order of the headers. -/
def ElfFile.LowestAddress (file : ElfFile) (first : UInt64) : Prop :=
  IsLeast {n | ∃ i, file.IsLoad i ∧ n = (file.phdr i).pVaddr.toNat} first.toNat

/-- The byte that loading a file leaves at an address: the segment's, if there is one. -/
def imageByte (file : ElfFile) (m : ByteMemory) (a : UInt64) : UInt8 :=
  match (List.range file.phnum).find? fun i => file.IsLoad i ∧ (file.segment i).Contains a with
  | some i => file.segmentByte i (a - (file.phdr i).pVaddr).toNat
  | none => m a

variable {file : ElfFile} {m : ByteMemory} {buffer : UInt64}

section

variable (h : file.Loadable) (hfile : m.ImageAt buffer file.bytes file.size)
  (hclear : ClearOf file buffer)

include h hfile hclear

/-- **The memory after loading.** -/
theorem memory_eq_imageByte (a : UInt64) :
    (copyLoadSegments m buffer).memory a = imageByte file m a := by
  have hloaded := copyLoadSegments_spec h hclear hfile
  unfold imageByte
  cases hfind : (List.range file.phnum).find? fun i =>
      decide (file.IsLoad i ∧ (file.segment i).Contains a) with
  | some i =>
      have hsegment := List.find?_some hfind
      rw [decide_eq_true_iff] at hsegment
      obtain ⟨hload, hin⟩ := hsegment
      have hbyte := hloaded.bytes i hload.1 hload _ hin
      have haddr : (file.phdr i).pVaddr + UInt64.ofNat (a - (file.segment i).start).toNat = a :=
        (file.segment i).start_add_offset a
      rw [haddr] at hbyte
      exact hbyte
  | none =>
      refine hloaded.frame a fun i hi hload hin => ?_
      have hnot := List.find?_eq_none.mp hfind i (List.mem_range.mpr hi)
      exact hnot (decide_eq_true ⟨hload, hin⟩)

/-- The entry point is read from these bytes. -/
theorem entryAddr_eq : entryAddr m buffer = UInt64.ofNat (ByteMemory.loadLE (imageByte file m)
    ((calcLoadAddressRange m buffer).1 + UInt64.ofNat 24) 8) := by
  have hmemory : (copyLoadSegments m buffer).memory = imageByte file m :=
    funext (memory_eq_imageByte h hfile hclear)
  unfold entryAddr
  rw [hmemory]

end

/-- A segment that starts with the ELF header. -/
theorem imageByte_of_header (h : file.Loadable) {i : Nat} (hi : file.IsLoad i)
    (hoffset : (file.phdr i).pOffset = 0) {k : Nat} (hk : k < (file.phdr i).pFilesz.toNat) :
    imageByte file m ((file.phdr i).pVaddr + UInt64.ofNat k) = file.bytes (UInt64.ofNat k) := by
  have hsize := UInt64.le_iff_toNat_le.mp (h.filesz_le i hi)
  have hin : (file.segment i).Contains ((file.phdr i).pVaddr + UInt64.ofNat k) :=
    contains_segment (hk.trans_le hsize)
  unfold imageByte
  cases hfind : (List.range file.phnum).find? fun j =>
      decide (file.IsLoad j ∧ (file.segment j).Contains ((file.phdr i).pVaddr + UInt64.ofNat k)) with
  | some j =>
      have hsegment := List.find?_some hfind
      rw [decide_eq_true_iff] at hsegment
      -- no other segment has this byte
      obtain rfl : j = i := by
        by_contra hne
        exact h.apart j i hsegment.1 hi hne _ hsegment.2 hin
      unfold segmentByte
      simp only
      rw [Span.toNat_add_sub (hk.trans (UInt64.toNat_lt _)), if_pos hk, hoffset, UInt64.zero_add]
  | none =>
      have hnot := List.find?_eq_none.mp hfind i (List.mem_range.mpr hi.1)
      exact absurd (decide_eq_true ⟨hi, hin⟩) hnot

/-- A file has one lowest address: where `CalcLoadAddressRange` finds it is where any other way of
looking for the least `p_vaddr` of the segments finds it. -/
theorem calcLoadAddressRange_first {first : UInt64}
    (hfile : m.ImageAt buffer file.bytes file.size) (hfirst : file.LowestAddress first) :
    (calcLoadAddressRange m buffer).1 = first := by
  obtain ⟨i, hi, -⟩ := hfirst.1
  have hleast := isLeast_first ⟨i, hi⟩ hfile
  exact UInt64.toNat_inj.mp (hleast.unique hfirst)

/-- **The usual layout.** If the lowest segment starts with the ELF header, the loader finds the entry
point. -/
theorem entry_addr_of_header (h : file.Loadable) (hfile : m.ImageAt buffer file.bytes file.size)
    (hclear : ClearOf file buffer) {i : Nat} (hi : file.IsLoad i)
    (hlowest : file.LowestAddress (file.phdr i).pVaddr)
    (hoffset : (file.phdr i).pOffset = 0) (hsize : 32 ≤ (file.phdr i).pFilesz.toNat) :
    entryAddr m buffer = eEntry file.bytes 0 := by
  rw [entryAddr_eq h hfile hclear, calcLoadAddressRange_first hfile hlowest]
  apply congrArg UInt64.ofNat
  apply ByteMemory.loadLE_eq_iff.mpr
  intro j hj
  rw [Span.add_offset_add, Span.add_offset_add, imageByte_of_header h hi hoffset (by omega),
    UInt64.zero_add]

/-- Numbers of 64 bits. -/
theorem ofNat_inj {x y : Nat} (hx : x < 2 ^ 64) (hy : y < 2 ^ 64) :
    UInt64.ofNat x = UInt64.ofNat y ↔ x = y := by
  refine ⟨fun heq => ?_, congrArg UInt64.ofNat⟩
  have hnat := congrArg UInt64.toNat heq
  rwa [UInt64.toNat_ofNat', UInt64.toNat_ofNat', Nat.mod_eq_of_lt hx, Nat.mod_eq_of_lt hy] at hnat

/-- **The entry point, exactly.** Let the segments of a file overlap neither each other nor the
buffer the file is in, and let `first` be the lowest address at which one of them starts. The loader
jumps to `e_entry` iff each of the eight bytes from `first + 24` on is, once loaded, the byte of
`e_entry`. -/
theorem entry_addr_iff {file : ElfFile} {m : ByteMemory} {buffer first : UInt64} (h : file.Loadable)
    (hfile : m.ImageAt buffer file.bytes file.size) (hclear : ClearOf file buffer)
    (hfirst : file.LowestAddress first) :
    entryAddr m buffer = eEntry file.bytes 0 ↔ ∀ j < 8,
      imageByte file m (first + UInt64.ofNat 24 + UInt64.ofNat j) =
        file.bytes (0 + UInt64.ofNat 24 + UInt64.ofNat j) := by
  rw [entryAddr_eq h hfile hclear, calcLoadAddressRange_first hfile hfirst]
  unfold eEntry
  rw [ofNat_inj ByteMemory.loadLE_lt ByteMemory.loadLE_lt, ByteMemory.loadLE_eq_iff]

/-- Its only segment leaves out the first 4 KiB of the file. -/
def shiftedKernel : ElfFile where
  bytes := oneSegment [(26, 16), (73, 16), (82, 16), (96, 120), (105, 2)]
  size := 0x2000
  size_lt := by decide
  header := by decide
  table := by decide

/-- A segment above a buffer at address 0. -/
theorem clearOf_zero (hone : file.phnum = 1) (hstart : file.size ≤ (file.phdr 0).pVaddr.toNat)
    (hend : segmentEnd file 0 ≤ 2 ^ 64) : ClearOf file 0 := by
  intro i hi a hin hbuffer
  have hlt := hi.1
  obtain rfl : i = 0 := by omega
  have hlow := (Span.contains_iff (s := file.segment 0) hend).mp hin
  have hhigh := (Span.contains_iff (s := file.bufferSpan 0)
    (Nat.le_of_lt ((Nat.zero_add _).symm ▸ file.size_lt))).mp hbuffer
  have hsize : (file.bufferSpan 0).start.toNat + (file.bufferSpan 0).len = file.size :=
    Nat.zero_add _
  have hvaddr : (file.segment 0).start = (file.phdr 0).pVaddr := rfl
  rw [hvaddr] at hlow
  omega

/-- The lowest address of a file with one segment. -/
theorem lowestAddress_of_phnum (hone : file.phnum = 1) (hload : file.IsLoad 0) :
    file.LowestAddress (file.phdr 0).pVaddr := by
  constructor
  · exact ⟨0, hload, rfl⟩
  · rintro n ⟨i, hi, rfl⟩
    have hlt := hi.1
    obtain rfl : i = 0 := by omega
    exact le_rfl

/-- What the loader reads for it, from `0x100018` on, are not the bytes of `e_entry`. -/
theorem entry_addr_iff_shiftedKernel : ¬∀ j < 8,
    imageByte shiftedKernel shiftedKernel.bytes (0x100000 + UInt64.ofNat 24 + UInt64.ofNat j) =
      shiftedKernel.bytes (0 + UInt64.ofNat 24 + UInt64.ofNat j) := by
  have hfirst : shiftedKernel.LowestAddress 0x100000 :=
    lowestAddress_of_phnum (by decide) (by decide)
  rw [← entry_addr_iff (loadable_of_phnum (by decide) (by decide) (by decide))
    (imageAt_zero shiftedKernel) (clearOf_zero (by decide) (by decide) (by decide)) hfirst]
  decide

/-- **The image need not start with the ELF header.** -/
theorem entry_addr_wrong :
    ¬∀ (file : ElfFile) (m : ByteMemory) (buffer : UInt64), file.Loadable →
      (∃ i, file.IsLoad i) → m.ImageAt buffer file.bytes file.size → ClearOf file buffer →
      entryAddr m buffer = eEntry file.bytes 0 := by
  intro hall
  have hentry := hall shiftedKernel shiftedKernel.bytes 0
    (loadable_of_phnum (by decide) (by decide) (by decide)) ⟨0, by decide⟩
    (imageAt_zero shiftedKernel) (clearOf_zero (by decide) (by decide) (by decide))
  exact absurd hentry (by decide)

end UhyokOS
