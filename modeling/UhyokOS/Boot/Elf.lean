import UhyokOS.Lib.ByteMemory
import Mathlib.Tactic.SplitIfs
import Mathlib.Data.List.Basic

/-!
# Loading the kernel

How the loader brings the segments of the kernel's ELF file to their addresses. The file has been
read to a buffer in memory, and the headers are read from there, also while segments are copied:
`CopyMem` and `SetMem` write to the same memory. Every span they write is recorded.

* `phdrAt_of_imageAt`: a memory with the file in a buffer has the file's program headers.
-/

namespace UhyokOS

/-! ## Headers -/

/-- The fields of a program header that the loader reads.
Source: `kernel/elf.hpp`, `Elf64_Phdr` -/
structure Phdr where
  pType : UInt32
  pOffset : UInt64
  pVaddr : UInt64
  pFilesz : UInt64
  pMemsz : UInt64

/-- Source: `kernel/elf.hpp`, `PT_LOAD` -/
abbrev PT_LOAD : UInt32 := 1

/-- `sizeof(Elf64_Ehdr)` -/
abbrev kEhdrSize : Nat := 64

/-- `sizeof(Elf64_Phdr)` -/
abbrev kPhdrSize : Nat := 56

/-- `ehdr->e_entry`
Source: `kernel/elf.hpp`, `Elf64_Ehdr` -/
def eEntry (m : ByteMemory) (ehdr : UInt64) : UInt64 :=
  UInt64.ofNat (m.loadLE (ehdr + UInt64.ofNat 24) 8)

/-- `ehdr->e_phoff`
Source: `kernel/elf.hpp`, `Elf64_Ehdr` -/
def ePhoff (m : ByteMemory) (ehdr : UInt64) : UInt64 :=
  UInt64.ofNat (m.loadLE (ehdr + UInt64.ofNat 32) 8)

/-- `ehdr->e_phnum`, a number of 16 bits.
Source: `kernel/elf.hpp`, `Elf64_Ehdr` -/
def ePhnum (m : ByteMemory) (ehdr : UInt64) : Nat := m.loadLE (ehdr + UInt64.ofNat 56) 2

/-- `phdr[i]`
Source: `kernel/elf.hpp`, `Elf64_Phdr` -/
def phdrAt (m : ByteMemory) (phdr : UInt64) (i : Nat) : Phdr :=
  let field (offset size : Nat) : Nat :=
    m.loadLE (phdr + UInt64.ofNat (kPhdrSize * i + offset)) size
  { pType := UInt32.ofNat (field 0 4)
    pOffset := UInt64.ofNat (field 8 8)
    pVaddr := UInt64.ofNat (field 16 8)
    pFilesz := UInt64.ofNat (field 32 8)
    pMemsz := UInt64.ofNat (field 40 8) }

/-! ## The loader -/

/-- The macro `MIN` of the UEFI headers. -/
def addrMin (a b : UInt64) : UInt64 := if a < b then a else b

/-- The macro `MAX` of the UEFI headers. -/
def addrMax (a b : UInt64) : UInt64 := if a > b then a else b

/-- The body of the loop over the program headers.
Source: `UhyokoLoaderPkg/Main.c`, `CalcLoadAddressRange` -/
def widenRange (p : Phdr) (range : UInt64 × UInt64) : UInt64 × UInt64 :=
  if p.pType ≠ PT_LOAD then range
  else (addrMin range.1 p.pVaddr, addrMax range.2 (p.pVaddr + p.pMemsz))

/-- `*first` and `*last`
Source: `UhyokoLoaderPkg/Main.c`, `CalcLoadAddressRange` -/
def calcLoadAddressRange (m : ByteMemory) (ehdr : UInt64) : UInt64 × UInt64 :=
  let phdr := ehdr + ePhoff m ehdr
  (List.range (ePhnum m ehdr)).foldl (fun range i => widenRange (phdrAt m phdr i) range)
    (0xffffffffffffffff, 0)

/-- `num_pages`
Source: `UhyokoLoaderPkg/Main.c`, `UefiMain` -/
def numPages (first last : UInt64) : UInt64 := (last - first + 0xfff) / 0x1000

theorem toNat_addrMin (a b : UInt64) : (addrMin a b).toNat = min a.toNat b.toNat := by
  unfold addrMin
  split_ifs with h
  · exact (Nat.min_eq_left (Nat.le_of_lt (UInt64.lt_iff_toNat_lt.mp h))).symm
  · exact (Nat.min_eq_right (Nat.le_of_not_lt fun hlt => h (UInt64.lt_iff_toNat_lt.mpr hlt))).symm

theorem toNat_addrMax (a b : UInt64) : (addrMax a b).toNat = max a.toNat b.toNat := by
  unfold addrMax
  split_ifs with h
  · exact (Nat.max_eq_left (Nat.le_of_lt (UInt64.lt_iff_toNat_lt.mp h))).symm
  · exact (Nat.max_eq_right (Nat.le_of_not_lt fun hlt => h (UInt64.lt_iff_toNat_lt.mpr hlt))).symm

/-- The memory while segments are copied, and the spans that have been written. -/
structure Loading where
  memory : ByteMemory
  written : List Span

/-- `CopyMem(dst, src, length)` -/
def Loading.copyMem (s : Loading) (dst src length : UInt64) : Loading :=
  ⟨s.memory.copy dst src length.toNat, s.written ++ [⟨dst, length.toNat⟩]⟩

/-- `SetMem(buffer, length, value)` -/
def Loading.setMem (s : Loading) (buffer length : UInt64) (value : UInt8) : Loading :=
  ⟨s.memory.fill buffer length.toNat value, s.written ++ [⟨buffer, length.toNat⟩]⟩

@[simp] theorem Loading.copyMem_memory (s : Loading) (dst src length : UInt64) :
    (s.copyMem dst src length).memory = s.memory.copy dst src length.toNat := rfl

@[simp] theorem Loading.copyMem_written (s : Loading) (dst src length : UInt64) :
    (s.copyMem dst src length).written = s.written ++ [⟨dst, length.toNat⟩] := rfl

@[simp] theorem Loading.setMem_memory (s : Loading) (buffer length : UInt64) (value : UInt8) :
    (s.setMem buffer length value).memory = s.memory.fill buffer length.toNat value := rfl

@[simp] theorem Loading.setMem_written (s : Loading) (buffer length : UInt64) (value : UInt8) :
    (s.setMem buffer length value).written = s.written ++ [⟨buffer, length.toNat⟩] := rfl

/-- The body of the loop over the program headers; `phdr[i]` is read again after `CopyMem`.
Source: `UhyokoLoaderPkg/Main.c`, `CopyLoadSegments` -/
def copyLoadSegment (ehdr phdr : UInt64) (i : Nat) (s : Loading) : Loading :=
  let p := phdrAt s.memory phdr i
  if p.pType ≠ PT_LOAD then s
  else
    let segmInFile := ehdr + p.pOffset
    let s := s.copyMem p.pVaddr segmInFile p.pFilesz
    let p := phdrAt s.memory phdr i
    let remainBytes := p.pMemsz - p.pFilesz
    s.setMem (p.pVaddr + p.pFilesz) remainBytes 0

/-- The loop from header `i` on. `e_phnum` has 16 bits, so `2 ^ 16` rounds are never used up.
Source: `UhyokoLoaderPkg/Main.c`, `CopyLoadSegments` -/
def copyLoadSegmentsFrom (ehdr phdr : UInt64) : (rounds i : Nat) → Loading → Loading
  | 0, _, s => s
  | rounds + 1, i, s =>
      if i < ePhnum s.memory ehdr then
        copyLoadSegmentsFrom ehdr phdr rounds (i + 1) (copyLoadSegment ehdr phdr i s)
      else s

/-- Source: `UhyokoLoaderPkg/Main.c`, `CopyLoadSegments` -/
def copyLoadSegments (m : ByteMemory) (ehdr : UInt64) : Loading :=
  copyLoadSegmentsFrom ehdr (ehdr + ePhoff m ehdr) (2 ^ 16) 0 ⟨m, []⟩

/-! ## Files -/

/-- An ELF file: its bytes by their offset, and a table of program headers that lies in it. -/
structure ElfFile where
  bytes : ByteMemory
  size : Nat
  /-- It is small enough for a buffer. -/
  size_lt : size < 2 ^ 64
  /-- The ELF header is part of the file. -/
  header : kEhdrSize ≤ size
  /-- So are the program headers. -/
  table : (ePhoff bytes 0).toNat + kPhdrSize * ePhnum bytes 0 ≤ size

namespace ElfFile

/-- The number of program headers. -/
def phnum (file : ElfFile) : Nat := ePhnum file.bytes 0

/-- A program header of the file. -/
def phdr (file : ElfFile) (i : Nat) : Phdr := phdrAt file.bytes (ePhoff file.bytes 0) i

/-- The header describes a segment to be loaded. -/
def IsLoad (file : ElfFile) (i : Nat) : Prop := i < file.phnum ∧ (file.phdr i).pType = PT_LOAD

instance decidableIsLoad (file : ElfFile) (i : Nat) : Decidable (file.IsLoad i) := by
  unfold IsLoad
  infer_instance

/-- The memory of a segment. -/
def segment (file : ElfFile) (i : Nat) : Span :=
  ⟨(file.phdr i).pVaddr, (file.phdr i).pMemsz.toNat⟩

/-- The segments of a file that can be loaded. -/
structure Loadable (file : ElfFile) : Prop where
  filesz_le : ∀ i, file.IsLoad i → (file.phdr i).pFilesz ≤ (file.phdr i).pMemsz
  inFile : ∀ i, file.IsLoad i →
    (file.phdr i).pOffset.toNat + (file.phdr i).pFilesz.toNat ≤ file.size
  apart : ∀ i j, file.IsLoad i → file.IsLoad j → i ≠ j → (file.segment i).Apart (file.segment j)

/-- What byte `k` of a segment should be. -/
def segmentByte (file : ElfFile) (i k : Nat) : UInt8 :=
  if k < (file.phdr i).pFilesz.toNat then file.bytes ((file.phdr i).pOffset + UInt64.ofNat k) else 0

/-- The bytes of a buffer with the file. -/
def bufferSpan (file : ElfFile) (buffer : UInt64) : Span := ⟨buffer, file.size⟩

/-! ## Reading the headers in the buffer -/

variable {file : ElfFile} {m : ByteMemory} {buffer : UInt64}

theorem ePhoff_of_imageAt (h : m.ImageAt buffer file.bytes file.size) :
    ePhoff m buffer = ePhoff file.bytes 0 := by
  have hroom : 32 + 8 ≤ file.size := Nat.le_trans (by decide) file.header
  exact congrArg UInt64.ofNat (h.loadLE hroom)

theorem ePhnum_of_imageAt (h : m.ImageAt buffer file.bytes file.size) :
    ePhnum m buffer = file.phnum := by
  have hroom : 56 + 2 ≤ file.size := Nat.le_trans (by decide) file.header
  exact h.loadLE hroom

/-- A memory with the file in a buffer has its program headers. -/
theorem phdrAt_of_imageAt (h : m.ImageAt buffer file.bytes file.size) {i : Nat} (hi : i < file.phnum) :
    phdrAt m (buffer + ePhoff file.bytes 0) i = file.phdr i := by
  have htable := file.table
  have hentry : kPhdrSize * (i + 1) ≤ kPhdrSize * ePhnum file.bytes 0 := Nat.mul_le_mul_left _ hi
  have hfield : ∀ offset n, offset + n ≤ kPhdrSize →
      m.loadLE (buffer + ePhoff file.bytes 0 + UInt64.ofNat (kPhdrSize * i + offset)) n =
        file.bytes.loadLE (ePhoff file.bytes 0 + UInt64.ofNat (kPhdrSize * i + offset)) n := by
    intro offset n hoffset
    have haddr : ePhoff file.bytes 0 + UInt64.ofNat (kPhdrSize * i + offset) =
        UInt64.ofNat ((ePhoff file.bytes 0).toNat + (kPhdrSize * i + offset)) := by
      rw [UInt64.ofNat_add _ (kPhdrSize * i + offset), UInt64.ofNat_toNat]
    rw [UInt64.add_assoc, haddr, h.loadLE, UInt64.zero_add]
    rw [Nat.mul_add, Nat.mul_one] at hentry
    omega
  unfold phdr phdrAt
  simp only
  rw [hfield 0 4 (by decide), hfield 8 8 (by decide), hfield 16 8 (by decide),
    hfield 32 8 (by decide), hfield 40 8 (by decide)]

end ElfFile

end UhyokOS
