import UhyokOS.Lib.CString
import Mathlib.Data.UInt
import Mathlib.Tactic.Common

/-!
# What the terminal's commands read and print

The machine state that `lspci` and `ls` look at, and the lines they print for it. A C string is the
list of its characters without the terminator. The `sprintf` formats are spelled out; no formatted
line reaches the 64 characters of its buffer.
-/

namespace UhyokOS

/-- A string constant of the source. -/
def text (s : String) : List UInt8 := s.toList.map fun c => UInt8.ofNat c.toNat

/-- Source: `kernel/pci.hpp`, `ClassCode` -/
structure ClassCode where
  base : UInt8
  sub : UInt8
  interface : UInt8

/-- Source: `kernel/pci.hpp`, `Device` -/
structure PciDevice where
  bus : UInt8
  device : UInt8
  function : UInt8
  headerType : UInt8
  classCode : ClassCode

/-- The fields of a directory entry that `ls` reads.
Source: `kernel/fat.hpp`, `DirectoryEntry` -/
structure DirectoryEntry where
  name : CharArray UInt8 11
  attr : UInt8

/-- Source: `kernel/fat.hpp`, `Attribute::kLongName` -/
abbrev kLongName : UInt8 := 0x0f

/-- The size of a directory entry in bytes. -/
abbrev kDirectoryEntrySize : Nat := 32

/-- What the commands look at. -/
structure Machine where
  /-- The first `num_device` elements of `pci::devices`. -/
  devices : List PciDevice
  /-- The vendor id register of a function, by bus, device and function number. -/
  readVendorId : UInt8 → UInt8 → UInt8 → UInt16
  /-- `boot_volume_image->bytes_per_sector` -/
  bytesPerSector : UInt16
  /-- `boot_volume_image->sectors_per_cluster` -/
  sectorsPerCluster : UInt8
  /-- `root_dir_entries` -/
  rootDirEntries : Nat → DirectoryEntry

/-- A machine without devices and files. -/
def emptyMachine : Machine where
  devices := []
  readVendorId := fun _ _ _ => 0xffff
  bytesPerSector := 0
  sectorsPerCluster := 0
  rootDirEntries := fun _ => { name := .zeros 11, attr := 0 }

/-! ## Formats -/

/-- The digits of a number, left padded to a width. -/
def digits (base width : Nat) (fill : UInt8) (n : Nat) : List UInt8 :=
  let ds := (Nat.toDigits base n).map fun c => UInt8.ofNat c.toNat
  List.replicate (width - ds.length) fill ++ ds

/-- The line `%02x:%02x.%d vend=%04x head=%02x class=%2x.%2x.%2x\n` of a device.
Source: `kernel/terminal.cpp`, `Terminal::ExecuteLine` -/
def lspciLine (m : Machine) (dev : PciDevice) : List UInt8 :=
  let hex (width : Nat) (n : Nat) := digits 16 width 0x30 n
  let hexSpace (n : UInt8) := digits 16 2 0x20 n.toNat
  hex 2 dev.bus.toNat ++ text ":" ++ hex 2 dev.device.toNat ++ text "." ++
    digits 10 0 0x20 dev.function.toNat ++
    text " vend=" ++ hex 4 (m.readVendorId dev.bus dev.device dev.function).toNat ++
    text " head=" ++ hex 2 dev.headerType.toNat ++
    text " class=" ++ hexSpace dev.classCode.base ++ text "." ++ hexSpace dev.classCode.sub ++
    text "." ++ hexSpace dev.classCode.interface ++ text "\n"

/-! ## Directory entries -/

/-- A name field with its terminator, trailing spaces replaced by terminators. -/
def trimName (field : List UInt8) : List UInt8 :=
  let kept := (field.reverse.dropWhile (· == 0x20)).reverse
  kept ++ List.replicate (field.length + 1 - kept.length) 0

/-- The arrays `base` and `ext`.
Source: `kernel/fat.cpp`, `ReadName` -/
def readName (entry : DirectoryEntry) : List UInt8 × List UInt8 :=
  (trimName (entry.name.chars.take 8), trimName ((entry.name.chars.drop 8).take 3))

/-- The string that starts an array which holds a terminator. -/
def stringOf (array : List UInt8) : List UInt8 := array.takeWhile (· != 0)

/-- The number of directory entries in a cluster. -/
def Machine.entriesPerCluster (m : Machine) : Nat :=
  m.bytesPerSector.toNat / kDirectoryEntrySize * m.sectorsPerCluster.toNat

/-- The lines the loop of `ls` prints from entry `i` on, for a number of entries.
Source: `kernel/terminal.cpp`, `Terminal::ExecuteLine` -/
def lsLines (m : Machine) (i : Nat) : Nat → List (List UInt8)
  | 0 => []
  | remaining + 1 =>
      let entry := m.rootDirEntries i
      let (base, ext) := readName entry
      if base.head? = some 0x00 then []
      else if base.head? = some 0xe5 then lsLines m (i + 1) remaining
      else if entry.attr = kLongName then lsLines m (i + 1) remaining
      else
        let line :=
          if ext.head? ≠ some 0 then stringOf base ++ text "." ++ stringOf ext ++ text "\n"
          else stringOf base ++ text "\n"
        line :: lsLines m (i + 1) remaining

/-- `ls` reads the entries of its loop only. -/
theorem lsLines_congr {m m' : Machine} {i remaining : Nat}
    (h : ∀ j, i ≤ j → j < i + remaining → m.rootDirEntries j = m'.rootDirEntries j) :
    lsLines m i remaining = lsLines m' i remaining := by
  induction remaining generalizing i with
  | zero => rfl
  | succ remaining ih =>
      have hrest : lsLines m (i + 1) remaining = lsLines m' (i + 1) remaining :=
        ih fun j hi hj => h j (by omega) (by omega)
      unfold lsLines
      rw [h i (Nat.le_refl i) (by omega), hrest]

/-- Every line of `ls` ends with a newline. -/
theorem exists_of_mem_lsLines {m : Machine} {i remaining : Nat} {line : List UInt8}
    (h : line ∈ lsLines m i remaining) : ∃ s, line = s ++ text "\n" := by
  induction remaining generalizing i with
  | zero => cases h
  | succ remaining ih =>
      unfold lsLines at h
      simp only at h
      split_ifs at h with h₁ h₂ h₃ h₄
      · cases h
      · exact ih h
      · exact ih h
      · rcases List.mem_cons.mp h with rfl | h
        · exact ⟨_, rfl⟩
        · exact ih h
      · rcases List.mem_cons.mp h with rfl | h
        · exact ⟨_, rfl⟩
        · exact ih h

/-- And so does every line of `lspci`. -/
theorem exists_lspciLine (m : Machine) (dev : PciDevice) : ∃ s, lspciLine m dev = s ++ text "\n" :=
  ⟨_, rfl⟩

end UhyokOS
