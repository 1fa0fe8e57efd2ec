import UhyokOS.Lib.PageWalk

/-!
# The identity page table

The model of `SetupIdentityPageTable`: a function of the physical memory, in which the three arrays
lie at arbitrary addresses, and of nothing else. `translate` is the walk of the hardware.

* `setup_pml4`, `setup_pdp` and `setup_directory`: the entries after the loops.
* `translate_setup`: the walk of an address, by its position before or behind the mapped part.
* `identity_map_exact`: exactly the addresses below `kPageDirectoryCount` GiB are mapped, each to
  itself.
-/

namespace UhyokOS

open PageWalk

/-- Source: `kernel/paging.cpp`, `kPageSize4K` -/
abbrev kPageSize4K : Nat := 4096

/-- Source: `kernel/paging.cpp`, `kPageSize2M` -/
abbrev kPageSize2M : Nat := 512 * kPageSize4K

/-- Source: `kernel/paging.cpp`, `kPageSize1G` -/
abbrev kPageSize1G : Nat := 512 * kPageSize2M

/-- Source: `kernel/paging.hpp`, `kPageDirectoryCount` -/
abbrev kPageDirectoryCount : Nat := 64

/-- The addresses of the arrays: they are aligned, do not overlap, and lie in physical memory. -/
structure PageTables where
  /-- `&pml4_table[0]` -/
  pml4Table : Nat
  /-- `&pdp_table[0]` -/
  pdpTable : Nat
  /-- `&page_directory[0]` -/
  pageDirectory : Nat
  pml4_aligned : kPageSize4K ∣ pml4Table
  pdp_aligned : kPageSize4K ∣ pdpTable
  directory_aligned : kPageSize4K ∣ pageDirectory
  pml4_bound : pml4Table + tableSize ≤ 2 ^ 52
  pdp_bound : pdpTable + tableSize ≤ 2 ^ 52
  directory_bound : pageDirectory + kPageDirectoryCount * tableSize ≤ 2 ^ 52
  pml4_pdp : pml4Table + tableSize ≤ pdpTable ∨ pdpTable + tableSize ≤ pml4Table
  pml4_directory : pml4Table + tableSize ≤ pageDirectory ∨
    pageDirectory + kPageDirectoryCount * tableSize ≤ pml4Table
  pdp_directory : pdpTable + tableSize ≤ pageDirectory ∨
    pageDirectory + kPageDirectoryCount * tableSize ≤ pdpTable

namespace PageTables

/-- `&page_directory[i_pdpt]` -/
def directory (t : PageTables) (iPdpt : Nat) : Nat := t.pageDirectory + iPdpt * tableSize

/-- The arrays have static storage. -/
def ZeroInitialized (t : PageTables) (mem : Memory) : Prop :=
  ∀ i < 512, mem (entryAddress t.pml4Table i) = 0#64 ∧ mem (entryAddress t.pdpTable i) = 0#64 ∧
    ∀ iPdpt < kPageDirectoryCount, mem (entryAddress (t.directory iPdpt) i) = 0#64

/-- The body of the inner loop. -/
def setPage (t : PageTables) (iPdpt : Nat) (mem : Memory) (iPd : Nat) : Memory :=
  Function.update mem (entryAddress (t.directory iPdpt) iPd)
    (BitVec.ofNat 64 (iPdpt * kPageSize1G + iPd * kPageSize2M) ||| 0x083#64)

/-- The body of the outer loop. -/
def setDirectory (t : PageTables) (mem : Memory) (iPdpt : Nat) : Memory :=
  let mem := Function.update mem (entryAddress t.pdpTable iPdpt)
    (BitVec.ofNat 64 (t.directory iPdpt) ||| 0x003#64)
  (List.range 512).foldl (t.setPage iPdpt) mem

/-- The tables and CR3 afterwards.
Source: `kernel/paging.cpp`, `SetupIdentityPageTable` -/
def setupIdentityPageTable (t : PageTables) (mem : Memory) : Memory × BitVec 64 :=
  let mem := Function.update mem (entryAddress t.pml4Table 0)
    (BitVec.ofNat 64 t.pdpTable ||| 0x003#64)
  let mem := (List.range kPageDirectoryCount).foldl t.setDirectory mem
  (mem, BitVec.ofNat 64 t.pml4Table)

variable (t : PageTables) (mem : Memory) {i j iPdpt iPd p : Nat}

/-! ## The loops -/

theorem setPage_frame (hp : p ≠ entryAddress (t.directory iPdpt) iPd) :
    t.setPage iPdpt mem iPd p = mem p := Function.update_of_ne hp _ _

/-- The outer loop's body writes one entry of `pdp_table` and one directory. -/
theorem setDirectory_frame (hpdp : p ≠ entryAddress t.pdpTable iPdpt)
    (hpd : ∀ iPd < 512, p ≠ entryAddress (t.directory iPdpt) iPd) :
    t.setDirectory mem iPdpt p = mem p := by
  unfold setDirectory
  rw [foldl_of_forall_frame fun iPd hiPd mem =>
    t.setPage_frame mem (hpd iPd (List.mem_range.mp hiPd))]
  exact Function.update_of_ne hpdp _ _

/-- The addresses in the arrays. -/
theorem directory_entry (hi : iPdpt < kPageDirectoryCount) (hj : j < 512) :
    t.pageDirectory ≤ entryAddress (t.directory iPdpt) j ∧
      entryAddress (t.directory iPdpt) j < t.pageDirectory + kPageDirectoryCount * tableSize := by
  unfold entryAddress directory
  unfold kPageDirectoryCount tableSize at *
  omega

/-- A directory for each entry, at most. -/
theorem lt_entries (h : iPdpt < kPageDirectoryCount) : iPdpt < 512 := lt_trans h (by decide)

theorem pdp_ne_directory (hi : i < 512) (hiPdpt : iPdpt < kPageDirectoryCount) (hj : j < 512) :
    entryAddress t.pdpTable i ≠ entryAddress (t.directory iPdpt) j := by
  have hin := t.directory_entry hiPdpt hj
  have hsep := t.pdp_directory
  unfold entryAddress at *
  unfold kPageDirectoryCount tableSize at *
  omega

theorem pml4_ne_directory (hi : i < 512) (hiPdpt : iPdpt < kPageDirectoryCount) (hj : j < 512) :
    entryAddress t.pml4Table i ≠ entryAddress (t.directory iPdpt) j := by
  have hin := t.directory_entry hiPdpt hj
  have hsep := t.pml4_directory
  unfold entryAddress at *
  unfold kPageDirectoryCount tableSize at *
  omega

theorem pml4_ne_pdp (hi : i < 512) (hj : j < 512) :
    entryAddress t.pml4Table i ≠ entryAddress t.pdpTable j := by
  have hsep := t.pml4_pdp
  unfold entryAddress
  unfold tableSize at *
  omega

theorem entryAddress_inj {table : Nat} : entryAddress table i = entryAddress table j ↔ i = j := by
  unfold entryAddress
  omega

theorem directory_inj (hi : i < 512) (hj : j < 512)
    (h : entryAddress (t.directory iPdpt) i = entryAddress (t.directory iPd) j) :
    iPdpt = iPd ∧ i = j := by
  unfold entryAddress directory tableSize at h
  omega

/-- `pml4_table` afterwards: the first entry is set. -/
theorem setup_pml4 (hi : i < 512) :
    (t.setupIdentityPageTable mem).1 (entryAddress t.pml4Table i) =
      if i = 0 then mkEntry t.pdpTable 0x003 else mem (entryAddress t.pml4Table i) := by
  unfold setupIdentityPageTable
  simp only
  rw [foldl_of_forall_frame]
  · split_ifs with hzero
    · subst hzero
      exact Function.update_self _ _ _
    · exact Function.update_of_ne (fun h => hzero (entryAddress_inj.mp h)) _ _
  · intro iPdpt hiPdpt mem'
    have hiPdpt' := List.mem_range.mp hiPdpt
    exact t.setDirectory_frame mem' (t.pml4_ne_pdp hi (lt_entries hiPdpt'))
      fun iPd hiPd => t.pml4_ne_directory hi hiPdpt' hiPd

/-- `pdp_table` afterwards: an entry for each directory. -/
theorem setup_pdp (hi : i < 512) :
    (t.setupIdentityPageTable mem).1 (entryAddress t.pdpTable i) =
      if i < kPageDirectoryCount then mkEntry (t.directory i) 0x003
      else mem (entryAddress t.pdpTable i) := by
  have hother : ∀ iPdpt ∈ List.range kPageDirectoryCount, iPdpt ≠ i → ∀ mem' : Memory,
      t.setDirectory mem' iPdpt (entryAddress t.pdpTable i) =
        mem' (entryAddress t.pdpTable i) := by
    intro iPdpt hiPdpt hne mem'
    exact t.setDirectory_frame mem' (fun h => hne (entryAddress_inj.mp h).symm)
      fun iPd hiPd => t.pdp_ne_directory hi (List.mem_range.mp hiPdpt) hiPd
  unfold setupIdentityPageTable
  simp only
  split_ifs with hlt
  · apply foldl_of_mem (List.mem_range.mpr hlt) List.nodup_range _ hother
    intro mem'
    unfold setDirectory
    rw [foldl_of_forall_frame fun iPd hiPd mem' =>
      t.setPage_frame mem' (t.pdp_ne_directory hi hlt (List.mem_range.mp hiPd))]
    exact Function.update_self _ _ _
  · rw [foldl_of_forall_frame fun iPdpt hiPdpt => hother iPdpt hiPdpt fun h =>
      hlt (h ▸ List.mem_range.mp hiPdpt)]
    exact Function.update_of_ne (t.pml4_ne_pdp (by decide) hi).symm _ _

/-- The directories afterwards: each entry maps its page of 2 MiB. -/
theorem setup_directory (hi : iPdpt < kPageDirectoryCount) (hj : iPd < 512) :
    (t.setupIdentityPageTable mem).1 (entryAddress (t.directory iPdpt) iPd) =
      mkEntry (iPdpt * kPageSize1G + iPd * kPageSize2M) 0x083 := by
  unfold setupIdentityPageTable
  simp only
  refine foldl_of_mem (List.mem_range.mpr hi) List.nodup_range (fun mem' => ?_)
    (fun i' hi' hne mem' => ?_) _
  · unfold setDirectory
    refine foldl_of_mem (List.mem_range.mpr hj) List.nodup_range
      (fun mem' => Function.update_self _ _ _) (fun j' hj' hne mem' => ?_) _
    exact t.setPage_frame mem' fun h => hne (entryAddress_inj.mp h).symm
  · have hi'' := lt_entries (List.mem_range.mp hi')
    exact t.setDirectory_frame mem' (t.pdp_ne_directory hi'' hi hj).symm
      fun j' hj' h => hne (t.directory_inj hj hj' h).1.symm

/-! ## The walk -/

/-- An entry that points to one of the tables. -/
theorem pointer_entry {table : Nat} (haligned : kPageSize4K ∣ table)
    (hbound : table + tableSize ≤ 2 ^ 52) :
    present (mkEntry table 0x003) = true ∧ pageSize (mkEntry table 0x003) = false ∧
      writable (mkEntry table 0x003) = true ∧ address (mkEntry table 0x003) = table := by
  have hbit : ∀ i < 12, (mkEntry table 0x003).getLsbD i = (0x003#64).getLsbD i :=
    fun i hi => getLsbD_mkEntry haligned hi
  refine ⟨(hbit 0 (by decide)).trans (by decide), (hbit 7 (by decide)).trans (by decide),
    (hbit 1 (by decide)).trans (by decide), address_mkEntry haligned ?_ (by decide)⟩
  unfold tableSize at hbound
  omega

theorem directory_aligned' (iPdpt : Nat) : kPageSize4K ∣ t.directory iPdpt :=
  Nat.dvd_add t.directory_aligned (Nat.dvd_mul_left _ _)

theorem directory_bound' (h : iPdpt < kPageDirectoryCount) :
    t.directory iPdpt + tableSize ≤ 2 ^ 52 := by
  have hbound := t.directory_bound
  unfold directory
  unfold kPageDirectoryCount tableSize at *
  omega

/-- The walk through a directory: the page that contains the address. -/
theorem walk_directory (a : BitVec 48) (h : iPdpt < kPageDirectoryCount) :
    walk (t.setupIdentityPageTable mem).1 a 1 (t.directory iPdpt) =
      .page (iPdpt * kPageSize1G + a.toNat % kPageSize1G) true := by
  have hindex := index_lt 1 a
  have hentry := t.setup_directory mem h hindex
  have hbase : 2 ^ pageBits 1 ∣ iPdpt * kPageSize1G + index 1 a * kPageSize2M := by
    refine Nat.dvd_add ?_ (Nat.dvd_mul_left _ _)
    exact Nat.dvd_mul_left_of_dvd (by decide) _
  have htable : 2 ^ 12 ∣ iPdpt * kPageSize1G + index 1 a * kPageSize2M :=
    dvd_trans (by decide) hbase
  have hbit : ∀ i < 12, (mkEntry (iPdpt * kPageSize1G + index 1 a * kPageSize2M) 0x083).getLsbD i =
      (0x083#64).getLsbD i := fun i hi => getLsbD_mkEntry htable hi
  have hphysical : pageBase 1 (mkEntry (iPdpt * kPageSize1G + index 1 a * kPageSize2M) 0x083) =
      iPdpt * kPageSize1G + index 1 a * kPageSize2M := by
    apply pageBase_mkEntry hbase _ (by decide) (by decide)
    unfold kPageDirectoryCount at h
    unfold kPageSize1G kPageSize2M kPageSize4K
    omega
  rw [walk_page hentry ((hbit 0 (by decide)).trans (by decide))
    ((hbit 7 (by decide)).trans (by decide)) (by decide)]
  have hsum : iPdpt * kPageSize1G + a.toNat / 2 ^ pageBits 1 % 512 * kPageSize2M +
      a.toNat % 2 ^ pageBits 1 = iPdpt * kPageSize1G + a.toNat % kPageSize1G := by
    unfold kPageSize1G kPageSize2M kPageSize4K pageBits
    omega
  unfold Outcome.ofEntry
  rw [hphysical, show writable _ = true from (hbit 1 (by decide)).trans (by decide), index_eq, hsum]

/-- The table that `SetCR3` is given. -/
theorem address_setup (t : PageTables) (mem : Memory) :
    address (t.setupIdentityPageTable mem).2 = t.pml4Table := by
  have hlt : t.pml4Table < 2 ^ 52 :=
    lt_of_lt_of_le (Nat.lt_add_of_pos_right (by decide)) t.pml4_bound
  have heq : address (mkEntry t.pml4Table 0#64) = t.pml4Table :=
    address_mkEntry t.pml4_aligned hlt (by decide)
  unfold mkEntry at heq
  rwa [BitVec.or_zero] at heq

/-- The addresses that the directories map, by the indices of the first two tables. -/
theorem lt_mapped_iff (a : BitVec 48) : a.toNat < kPageDirectoryCount * kPageSize1G ↔
    index 3 a = 0 ∧ index 2 a < kPageDirectoryCount := by
  have ha := a.isLt
  have heq₃ := index_eq 3 a
  have heq₂ := index_eq 2 a
  unfold kPageDirectoryCount kPageSize1G kPageSize2M kPageSize4K
  unfold pageBits at heq₃ heq₂
  omega

/-- The walk from the first table down. The index there has to be 0, and the next one has to be that of
a directory. -/
theorem translate_setup (hzero : t.ZeroInitialized mem) (a : BitVec 48) :
    PageWalk.translate (t.setupIdentityPageTable mem).1 (t.setupIdentityPageTable mem).2 a =
      if a.toNat < kPageDirectoryCount * kPageSize1G then .page a.toNat true else .notPresent := by
  have hindex₃ := index_lt 3 a
  have hindex₂ := index_lt 2 a
  have hpml4 := t.setup_pml4 mem hindex₃
  have hpdp := t.setup_pdp mem hindex₂
  unfold PageWalk.translate
  rw [t.address_setup]
  simp only [lt_mapped_iff]
  by_cases htop : index 3 a = 0
  · obtain ⟨hpresent, hsize, hwritable, haddress⟩ := pointer_entry t.pdp_aligned t.pdp_bound
    rw [if_pos htop] at hpml4
    rw [walk_table hpml4 hpresent hsize, haddress, hwritable]
    by_cases hdirectory : index 2 a < kPageDirectoryCount
    · obtain ⟨hpresent, hsize, hwritable, haddress⟩ :=
        pointer_entry (t.directory_aligned' (index 2 a)) (t.directory_bound' hdirectory)
      rw [if_pos hdirectory] at hpdp
      rw [walk_table hpdp hpresent hsize, haddress, hwritable, t.walk_directory mem a hdirectory,
        if_pos ⟨htop, hdirectory⟩]
      have hself : index 2 a * kPageSize1G + a.toNat % kPageSize1G = a.toNat := by
        have ha := a.isLt
        have heq₃ := index_eq 3 a
        have heq₂ := index_eq 2 a
        unfold pageBits at heq₃ heq₂
        unfold kPageSize1G kPageSize2M kPageSize4K
        omega
      rw [hself]
      rfl
    · rw [if_neg hdirectory, (hzero _ hindex₂).2.1] at hpdp
      rw [walk_notPresent hpdp (by decide), if_neg fun h => hdirectory h.2]
      rfl
  · rw [if_neg htop, (hzero _ hindex₃).1] at hpml4
    rw [walk_notPresent hpml4 (by decide), if_neg fun h => htop h.1]

/-- **The tables are the identity map and nothing more.** With the arrays at any addresses and zero
before, an address below `kPageDirectoryCount` GiB is translated to itself, through entries that are
present and writable, and the walk of any other address ends at an entry that is not present. -/
theorem identity_map_exact (hzero : t.ZeroInitialized mem) (a : BitVec 48) :
    (a.toNat < kPageDirectoryCount * kPageSize1G →
        PageWalk.translate (t.setupIdentityPageTable mem).1 (t.setupIdentityPageTable mem).2 a =
          .page a.toNat true) ∧
      (kPageDirectoryCount * kPageSize1G ≤ a.toNat →
        PageWalk.translate (t.setupIdentityPageTable mem).1 (t.setupIdentityPageTable mem).2 a =
          .notPresent) := by
  rw [t.translate_setup mem hzero a]
  exact ⟨fun hlow => if_pos hlow, fun hhigh => if_neg (not_lt.mpr hhigh)⟩

end PageTables

/-- The arrays of the page tables at the addresses from 1 MiB on. -/
def lowTables : PageTables where
  pml4Table := 0x100000
  pdpTable := 0x101000
  pageDirectory := 0x102000
  pml4_aligned := by decide
  pdp_aligned := by decide
  directory_aligned := by decide
  pml4_bound := by decide
  pdp_bound := by decide
  directory_bound := by decide
  pml4_pdp := by decide
  pml4_directory := by decide
  pdp_directory := by decide

/-- The last byte of the mapped part, and the one behind it. -/
theorem identity_map_exact_lowTables :
    PageWalk.translate (lowTables.setupIdentityPageTable fun _ => 0#64).1
        (lowTables.setupIdentityPageTable fun _ => 0#64).2 0xfffffffff#48 =
          .page 0xfffffffff true ∧
      PageWalk.translate (lowTables.setupIdentityPageTable fun _ => 0#64).1
        (lowTables.setupIdentityPageTable fun _ => 0#64).2 0x1000000000#48 = .notPresent := by
  have hzero : lowTables.ZeroInitialized fun _ => 0#64 := fun _ _ => ⟨rfl, rfl, fun _ _ => rfl⟩
  exact ⟨(lowTables.identity_map_exact _ hzero 0xfffffffff#48).1 (by decide),
    (lowTables.identity_map_exact _ hzero 0x1000000000#48).2 (by decide)⟩

end UhyokOS
