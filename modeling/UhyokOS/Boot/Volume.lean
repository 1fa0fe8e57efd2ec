import UhyokOS.Lib.ByteMemory
import UhyokOS.Terminal.Commands

/-!
# The boot volume

The loader copies the start of the volume it was loaded from to memory, at most 16 MiB of it, and
the kernel reads the FAT file system in that image: `ls` reads the first cluster of the root
directory. Nothing checks that this cluster is part of the image.

* `readBpb_loadVolume`: the kernel finds the BPB of the volume.
* `getClusterAddr_eq`: where the root directory is, without wrapping around.
* `ls_reads_image_iff`: exactly when `ls` reads nothing outside the image.
-/

namespace UhyokOS

/-! ## The loader -/

/-- What the loader knows about a volume.
Source: `EFI_BLOCK_IO_MEDIA`, used in `UhyokoLoaderPkg/Main.c` -/
structure Media where
  blockSize : UInt32
  lastBlock : UInt64

/-- `volume_bytes`
Source: `UhyokoLoaderPkg/Main.c`, `UefiMain` -/
def Media.volumeBytes (media : Media) : UInt64 :=
  let volumeBytes := media.blockSize.toUInt64 * (media.lastBlock + 1)
  if volumeBytes > 16 * 1024 * 1024 then 16 * 1024 * 1024 else volumeBytes

/-- The memory after the first bytes of the volume have been read to `image`.
Source: `UhyokoLoaderPkg/Main.c`, `ReadBlocks` -/
def loadVolume (m : ByteMemory) (image : UInt64) (media : Media) (disk : ByteMemory) : ByteMemory :=
  fun a =>
    if (⟨image, media.volumeBytes.toNat⟩ : Span).Contains a then disk (a - image) else m a

/-! ## The file system -/

/-- The fields of the BPB that matter here.
Source: `kernel/fat.hpp`, `BPB` -/
structure Bpb where
  bytesPerSector : UInt16
  sectorsPerCluster : UInt8
  reservedSectorCount : UInt16
  numFats : UInt8
  totalSectors32 : UInt32
  fatSize32 : UInt32
  rootCluster : UInt32

/-- The fields of `*boot_volume_image`.
Source: `kernel/fat.hpp`, `BPB` -/
def readBpb (m : ByteMemory) (image : UInt64) : Bpb where
  bytesPerSector := UInt16.ofNat (m.loadLE (image + 11) 2)
  sectorsPerCluster := m (image + 13)
  reservedSectorCount := UInt16.ofNat (m.loadLE (image + 14) 2)
  numFats := m (image + 16)
  totalSectors32 := UInt32.ofNat (m.loadLE (image + 32) 4)
  fatSize32 := UInt32.ofNat (m.loadLE (image + 36) 4)
  rootCluster := UInt32.ofNat (m.loadLE (image + 44) 4)

/-- The first three summands of the sector number have 32 bits.
Source: `kernel/fat.cpp`, `fat::GetClusterAddr` -/
def getClusterAddr (image : UInt64) (bpb : Bpb) (cluster : UInt64) : UInt64 :=
  let sectorNum :=
    (bpb.reservedSectorCount.toUInt32 + bpb.numFats.toUInt32 * bpb.fatSize32).toUInt64 +
      (cluster - 2) * bpb.sectorsPerCluster.toUInt64
  let offset := sectorNum * bpb.bytesPerSector.toUInt64
  image + offset

/-- `root_dir_entries[i]`
Source: `kernel/terminal.cpp`, `Terminal::ExecuteLine` -/
def rootDirEntry (image : UInt64) (bpb : Bpb) (i : Nat) : Span :=
  ⟨getClusterAddr image bpb bpb.rootCluster.toUInt64 + UInt64.ofNat (kDirectoryEntrySize * i),
    kDirectoryEntrySize⟩

/-- A directory entry in memory.
Source: `kernel/fat.hpp`, `DirectoryEntry` -/
def readDirectoryEntry (m : ByteMemory) (a : UInt64) : DirectoryEntry where
  name := ⟨List.ofFn fun j : Fin 11 => m (a + UInt64.ofNat j), List.length_ofFn⟩
  attr := m (a + UInt64.ofNat 11)

/-- What `ls` looks at, in a memory with a volume image. -/
def imageMachine (m : ByteMemory) (image : UInt64) : Machine :=
  let bpb := readBpb m image
  { emptyMachine with
    bytesPerSector := bpb.bytesPerSector
    sectorsPerCluster := bpb.sectorsPerCluster
    rootDirEntries := fun i => readDirectoryEntry m (rootDirEntry image bpb i).start }

/-! ## Well-formed volumes -/

namespace Bpb

/-- `entries_per_cluster` -/
def entriesPerCluster (bpb : Bpb) : Nat :=
  bpb.bytesPerSector.toNat / kDirectoryEntrySize * bpb.sectorsPerCluster.toNat

/-- The number of the first sector of the root directory. -/
def rootSector (bpb : Bpb) : Nat :=
  bpb.reservedSectorCount.toNat + bpb.numFats.toNat * bpb.fatSize32.toNat +
    (bpb.rootCluster.toNat - 2) * bpb.sectorsPerCluster.toNat

/-- The number of bytes of the volume up to the end of the first cluster of the root directory. -/
def rootEnd (bpb : Bpb) : Nat :=
  (bpb.rootSector + bpb.sectorsPerCluster.toNat) * bpb.bytesPerSector.toNat

/-- A BPB of a FAT32 volume on a device. -/
structure WellFormed (bpb : Bpb) (media : Media) : Prop where
  bytesPerSector : bpb.bytesPerSector ∈ [512, 1024, 2048, 4096]
  sectorsPerCluster : bpb.sectorsPerCluster ∈ [1, 2, 4, 8, 16, 32, 64, 128]
  reservedSectorCount : 0 < bpb.reservedSectorCount
  numFats : 0 < bpb.numFats
  fatSize32 : 0 < bpb.fatSize32
  rootCluster : 2 ≤ bpb.rootCluster
  /-- The first cluster of the root directory is in the volume. -/
  rootInside : bpb.rootSector + bpb.sectorsPerCluster.toNat ≤ bpb.totalSectors32.toNat
  /-- The volume fits on the device. -/
  onDevice : bpb.totalSectors32.toNat * bpb.bytesPerSector.toNat ≤
    media.blockSize.toNat * (media.lastBlock.toNat + 1)
  /-- The size of the device is a number of 64 bits. -/
  deviceSize : media.blockSize.toNat * (media.lastBlock.toNat + 1) < 2 ^ 64

namespace WellFormed

variable {bpb : Bpb} {media : Media} (h : bpb.WellFormed media)

include h

/-- A sector holds whole directory entries. -/
theorem entries_eq : kDirectoryEntrySize * bpb.entriesPerCluster =
    bpb.sectorsPerCluster.toNat * bpb.bytesPerSector.toNat := by
  have hsector : kDirectoryEntrySize * (bpb.bytesPerSector.toNat / kDirectoryEntrySize) =
      bpb.bytesPerSector.toNat := by
    have hsize := h.bytesPerSector
    simp only [List.mem_cons, List.not_mem_nil, or_false] at hsize
    rcases hsize with hsize | hsize | hsize | hsize <;> rw [hsize] <;> decide
  unfold entriesPerCluster
  rw [← Nat.mul_assoc, hsector, Nat.mul_comm]

theorem entries_pos : 0 < bpb.entriesPerCluster := by
  have hsize := h.bytesPerSector
  have hcluster := h.sectorsPerCluster
  unfold entriesPerCluster
  apply Nat.mul_pos
  · simp only [List.mem_cons, List.not_mem_nil, or_false] at hsize
    rcases hsize with hsize | hsize | hsize | hsize <;> rw [hsize] <;> decide
  · simp only [List.mem_cons, List.not_mem_nil, or_false] at hcluster
    rcases hcluster with hc | hc | hc | hc | hc | hc | hc | hc <;> rw [hc] <;> decide

theorem rootEnd_pos : 0 < bpb.rootEnd := by
  unfold rootEnd
  rw [Nat.add_mul, ← h.entries_eq]
  exact Nat.add_pos_right _ (Nat.mul_pos (by decide) h.entries_pos)

theorem rootEnd_le_device : bpb.rootEnd ≤ media.blockSize.toNat * (media.lastBlock.toNat + 1) :=
  (Nat.mul_le_mul_right _ h.rootInside).trans h.onDevice

/-- The bytes that the loader copies. -/
theorem volumeBytes_eq : media.volumeBytes.toNat =
    min (media.blockSize.toNat * (media.lastBlock.toNat + 1)) (16 * 1024 * 1024) := by
  have hblock : 0 < media.blockSize.toNat := by
    apply Nat.pos_of_ne_zero
    intro hzero
    have hdevice := h.rootEnd_le_device
    have hend := h.rootEnd_pos
    rw [hzero, Nat.zero_mul] at hdevice
    omega
  have hlast : media.lastBlock.toNat + 1 < 2 ^ 64 :=
    Nat.lt_of_le_of_lt (Nat.le_mul_of_pos_left _ hblock) h.deviceSize
  have hbytes : (media.blockSize.toUInt64 * (media.lastBlock + 1)).toNat =
      media.blockSize.toNat * (media.lastBlock.toNat + 1) := by
    rw [UInt64.toNat_mul, UInt32.toNat_toUInt64, UInt64.toNat_add]
    show media.blockSize.toNat * ((media.lastBlock.toNat + 1) % 2 ^ 64) % 2 ^ 64 = _
    rw [Nat.mod_eq_of_lt hlast, Nat.mod_eq_of_lt h.deviceSize]
  have hlimit : (16 * 1024 * 1024 : UInt64).toNat = 16 * 1024 * 1024 := rfl
  unfold Media.volumeBytes
  simp only
  split_ifs with hlarge
  · have hlt := UInt64.lt_iff_toNat_lt.mp hlarge
    rw [hbytes, hlimit] at hlt
    rw [hlimit, Nat.min_eq_right (Nat.le_of_lt hlt)]
  · have hle := fun hlt => hlarge (UInt64.lt_iff_toNat_lt.mpr hlt)
    rw [hbytes, hlimit] at hle
    rw [hbytes, Nat.min_eq_left (Nat.le_of_not_lt hle)]

/-- A sector is larger than a BPB. -/
theorem bpb_le_volumeBytes : 48 ≤ media.volumeBytes.toNat := by
  have hdevice := h.rootEnd_le_device
  have hsize := h.bytesPerSector
  have hsector : 512 ≤ bpb.bytesPerSector.toNat := by
    simp only [List.mem_cons, List.not_mem_nil, or_false] at hsize
    rcases hsize with hsize | hsize | hsize | hsize <;> rw [hsize] <;> decide
  have hend : bpb.bytesPerSector.toNat ≤ bpb.rootEnd := by
    apply Nat.le_mul_of_pos_left
    apply Nat.add_pos_right
    exact Nat.pos_of_mul_pos_right (h.entries_eq ▸ Nat.mul_pos (by decide) h.entries_pos)
  rw [h.volumeBytes_eq]
  omega

/-- **No part of the address wraps around.** -/
theorem getClusterAddr_eq (image : UInt64) :
    getClusterAddr image bpb bpb.rootCluster.toUInt64 =
      image + UInt64.ofNat (bpb.rootSector * bpb.bytesPerSector.toNat) := by
  have hinside := h.rootInside
  have hsectors := UInt32.toNat_lt bpb.totalSectors32
  have hbytes := UInt16.toNat_lt bpb.bytesPerSector
  have hroot : 2 ≤ bpb.rootCluster.toNat := UInt32.le_iff_toNat_le.mp h.rootCluster
  have hcluster := UInt32.toNat_lt bpb.rootCluster
  unfold rootSector at hinside ⊢
  -- the summands of 32 bits
  have hdata : (bpb.reservedSectorCount.toUInt32 + bpb.numFats.toUInt32 * bpb.fatSize32).toNat =
      bpb.reservedSectorCount.toNat + bpb.numFats.toNat * bpb.fatSize32.toNat := by
    rw [UInt32.toNat_add, UInt32.toNat_mul, UInt16.toNat_toUInt32, UInt8.toNat_toUInt32,
      Nat.mod_eq_of_lt (a := bpb.numFats.toNat * _) (by omega), Nat.mod_eq_of_lt (by omega)]
  have hindex : (bpb.rootCluster.toUInt64 - 2).toNat = bpb.rootCluster.toNat - 2 := by
    rw [UInt64.toNat_sub, UInt32.toNat_toUInt64]
    show (2 ^ 64 - 2 + bpb.rootCluster.toNat) % 2 ^ 64 = _
    omega
  have hsum : ((bpb.reservedSectorCount.toUInt32 + bpb.numFats.toUInt32 * bpb.fatSize32).toUInt64 +
      (bpb.rootCluster.toUInt64 - 2) * bpb.sectorsPerCluster.toUInt64).toNat =
      bpb.reservedSectorCount.toNat + bpb.numFats.toNat * bpb.fatSize32.toNat +
        (bpb.rootCluster.toNat - 2) * bpb.sectorsPerCluster.toNat := by
    rw [UInt64.toNat_add, UInt64.toNat_mul, UInt32.toNat_toUInt64, hdata, hindex,
      UInt8.toNat_toUInt64,
      Nat.mod_eq_of_lt (a := (bpb.rootCluster.toNat - 2) * _) (by omega),
      Nat.mod_eq_of_lt (by omega)]
  unfold getClusterAddr
  simp only
  congr 1
  apply UInt64.toNat_inj.mp
  rw [UInt64.toNat_mul, hsum, UInt16.toNat_toUInt64, UInt64.toNat_ofNat']

/-- Where a directory entry is. -/
theorem rootDirEntry_eq (image : UInt64) (i : Nat) :
    rootDirEntry image bpb i =
      ⟨image + UInt64.ofNat (bpb.rootSector * bpb.bytesPerSector.toNat + kDirectoryEntrySize * i),
        kDirectoryEntrySize⟩ := by
  unfold rootDirEntry
  rw [h.getClusterAddr_eq, UInt64.ofNat_add, UInt64.add_assoc]

/-- **The first entries of the root directory** lie in the image iff the volume up to their end
does. -/
theorem entry_within_iff (image : UInt64) {i : Nat} (hi : i < bpb.entriesPerCluster) :
    (rootDirEntry image bpb i).Within ⟨image, media.volumeBytes.toNat⟩ ↔
      bpb.rootSector * bpb.bytesPerSector.toNat + kDirectoryEntrySize * (i + 1) ≤
        media.volumeBytes.toNat := by
  have hend := h.rootEnd_le_device
  have hsize := h.deviceSize
  have hentry : kDirectoryEntrySize * (i + 1) ≤ kDirectoryEntrySize * bpb.entriesPerCluster :=
    Nat.mul_le_mul_left _ hi
  unfold rootEnd at hend
  rw [Nat.add_mul, ← h.entries_eq] at hend
  rw [Nat.mul_add, Nat.mul_one] at hentry ⊢
  rw [h.rootDirEntry_eq, ← Nat.add_assoc]
  exact Span.within_iff (t := ⟨image, media.volumeBytes.toNat⟩)
    (k := bpb.rootSector * bpb.bytesPerSector.toNat + kDirectoryEntrySize * i) (by omega) (by decide)

/-- All entries of the first cluster. -/
theorem entries_within_iff (image : UInt64) :
    (∀ i < bpb.entriesPerCluster,
        (rootDirEntry image bpb i).Within ⟨image, media.volumeBytes.toNat⟩) ↔
      bpb.rootEnd ≤ 16 * 1024 * 1024 := by
  have hdevice := h.rootEnd_le_device
  have hbytes := h.volumeBytes_eq
  have hpos := h.entries_pos
  have hend : bpb.rootEnd = bpb.rootSector * bpb.bytesPerSector.toNat +
      kDirectoryEntrySize * bpb.entriesPerCluster := by
    unfold rootEnd
    rw [Nat.add_mul, h.entries_eq]
  constructor
  · intro hall
    have hlast := (h.entry_within_iff image (Nat.sub_lt hpos Nat.one_pos)).mp
      (hall _ (Nat.sub_lt hpos Nat.one_pos))
    rw [Nat.sub_add_cancel hpos, ← hend] at hlast
    omega
  · intro hlimit i hi
    have hentry : kDirectoryEntrySize * (i + 1) ≤ kDirectoryEntrySize * bpb.entriesPerCluster :=
      Nat.mul_le_mul_left _ hi
    apply (h.entry_within_iff image hi).mpr
    omega

end WellFormed

end Bpb

/-! ## What `ls` reads -/

section

variable {m : ByteMemory} {image : UInt64} {media : Media} {disk : ByteMemory}

/-- The start of the volume is in memory. -/
theorem imageAt_loadVolume : (loadVolume m image media disk).ImageAt image disk
    media.volumeBytes.toNat := by
  intro k hk
  have hlt : k < 2 ^ 64 := hk.trans (UInt64.toNat_lt _)
  unfold loadVolume
  rw [if_pos ((Span.contains_add hlt).mpr hk), UInt64.add_comm, UInt64.add_sub_cancel]

/-- **The BPB is part of the image.** -/
theorem readBpb_loadVolume (h : (readBpb disk 0).WellFormed media) :
    readBpb (loadVolume m image media disk) image = readBpb disk 0 := by
  have hroom : 48 ≤ media.volumeBytes.toNat := h.bpb_le_volumeBytes
  have himage : (loadVolume m image media disk).ImageAt image disk media.volumeBytes.toNat :=
    imageAt_loadVolume
  have hbyte : ∀ k, k < 48 → loadVolume m image media disk (image + UInt64.ofNat k) =
      disk (0 + UInt64.ofNat k) := by
    intro k hk
    rw [himage k (hk.trans_le hroom), UInt64.zero_add]
  have hnumber : ∀ k n, k + n ≤ 48 →
      (loadVolume m image media disk).loadLE (image + UInt64.ofNat k) n =
        disk.loadLE (0 + UInt64.ofNat k) n :=
    fun k n hk => himage.loadLE (hk.trans hroom)
  unfold readBpb
  rw [Bpb.mk.injEq]
  refine ⟨?_, ?_, ?_, ?_, ?_, ?_, ?_⟩
  · exact congrArg UInt16.ofNat (hnumber 11 2 (by decide))
  · exact hbyte 13 (by decide)
  · exact congrArg UInt16.ofNat (hnumber 14 2 (by decide))
  · exact hbyte 16 (by decide)
  · exact congrArg UInt32.ofNat (hnumber 32 4 (by decide))
  · exact congrArg UInt32.ofNat (hnumber 36 4 (by decide))
  · exact congrArg UInt32.ofNat (hnumber 44 4 (by decide))

theorem entriesPerCluster_imageMachine (h : (readBpb disk 0).WellFormed media) :
    (imageMachine (loadVolume m image media disk) image).entriesPerCluster =
      (readBpb disk 0).entriesPerCluster :=
  congrArg Bpb.entriesPerCluster (readBpb_loadVolume h)

end

/-- **`ls` and the image.** On a well-formed volume, every directory entry that `ls` may read lies in
the image that the loader has copied iff the first cluster of the root directory ends within the
first 16 MiB of the volume. -/
theorem ls_reads_image_iff (m : ByteMemory) (image : UInt64) {media : Media} {disk : ByteMemory}
    (h : (readBpb disk 0).WellFormed media) :
    (∀ i < (imageMachine (loadVolume m image media disk) image).entriesPerCluster,
        (rootDirEntry image (readBpb (loadVolume m image media disk) image) i).Within
          ⟨image, media.volumeBytes.toNat⟩) ↔
      (readBpb disk 0).rootEnd ≤ 16 * 1024 * 1024 := by
  rw [readBpb_loadVolume h, entriesPerCluster_imageMachine h]
  exact h.entries_within_iff image

/-- A volume of 8 GiB with clusters of 4 KiB: its two FATs take 16 MiB. -/
def bigDisk : ByteMemory :=
  .sparse [(12, 2), (13, 8), (14, 32), (16, 2), (35, 1), (37, 64), (44, 2)]

/-- Its device. -/
def bigMedia : Media := ⟨512, 0xffffff⟩

theorem wellFormed_bigDisk : (readBpb bigDisk 0).WellFormed bigMedia := by
  constructor <;> decide

/-- Its root directory is not loaded. -/
theorem ls_reads_image_iff_bigDisk :
    ¬∀ i < (imageMachine (loadVolume (fun _ => 0) 0 bigMedia bigDisk) 0).entriesPerCluster,
      (rootDirEntry 0 (readBpb (loadVolume (fun _ => 0) 0 bigMedia bigDisk) 0) i).Within
        ⟨0, bigMedia.volumeBytes.toNat⟩ := by
  rw [ls_reads_image_iff (fun _ => 0) 0 wellFormed_bigDisk]
  decide

/-- **`ls` reads outside the image.** -/
theorem ls_leaves_image : ¬∀ (m : ByteMemory) (image : UInt64) (media : Media) (disk : ByteMemory),
    (readBpb disk 0).WellFormed media →
      ∀ i < (imageMachine (loadVolume m image media disk) image).entriesPerCluster,
        (rootDirEntry image (readBpb (loadVolume m image media disk) image) i).Within
          ⟨image, media.volumeBytes.toNat⟩ := by
  intro hall
  have hentry := hall (fun _ => 0) 0 bigMedia bigDisk wellFormed_bigDisk
  rw [readBpb_loadVolume wellFormed_bigDisk] at hentry
  have hend := (wellFormed_bigDisk.entries_within_iff 0).mp fun i hi => hentry i (by
    rw [entriesPerCluster_imageMachine wellFormed_bigDisk]
    exact hi)
  exact absurd hend (by decide)

/-- **What `ls` prints** is on the volume, if the first cluster of the root directory has been
loaded. -/
theorem ls_of_loaded {m m' : ByteMemory} {image : UInt64} {media : Media} {disk : ByteMemory}
    (h : (readBpb disk 0).WellFormed media) (hend : (readBpb disk 0).rootEnd ≤ 16 * 1024 * 1024) :
    lsLines (imageMachine (loadVolume m image media disk) image) 0
        (imageMachine (loadVolume m image media disk) image).entriesPerCluster =
      lsLines (imageMachine (loadVolume m' image media disk) image) 0
        (imageMachine (loadVolume m' image media disk) image).entriesPerCluster := by
  have hentries := (h.entries_within_iff image).mpr hend
  rw [entriesPerCluster_imageMachine h, entriesPerCluster_imageMachine h]
  apply lsLines_congr
  intro i _ hi
  have hwithin := hentries i (by omega)
  have hbyte : ∀ j, j < kDirectoryEntrySize →
      loadVolume m image media disk ((rootDirEntry image (readBpb disk 0) i).start + UInt64.ofNat j) =
      loadVolume m' image media disk
        ((rootDirEntry image (readBpb disk 0) i).start + UInt64.ofNat j) := by
    intro j hj
    have hin := hwithin _ ((Span.contains_add (hj.trans (by decide))).mpr hj)
    unfold loadVolume
    rw [if_pos hin, if_pos hin]
  show readDirectoryEntry (loadVolume m image media disk)
      (rootDirEntry image (readBpb (loadVolume m image media disk) image) i).start =
    readDirectoryEntry (loadVolume m' image media disk)
      (rootDirEntry image (readBpb (loadVolume m' image media disk) image) i).start
  rw [readBpb_loadVolume h, readBpb_loadVolume h]
  unfold readDirectoryEntry
  simp only [hbyte _ (show 11 < kDirectoryEntrySize by decide)]
  congr 2
  apply congrArg List.ofFn
  funext j
  exact hbyte j.val (j.isLt.trans (by decide))

end UhyokOS
