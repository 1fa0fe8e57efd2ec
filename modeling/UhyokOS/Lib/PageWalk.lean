import Mathlib.Algebra.Group.Nat.Defs
import Mathlib.Data.BitVec
import Mathlib.Data.List.Nodup
import Mathlib.Logic.Function.Basic
import Mathlib.Tactic.Common

/-!
# The page walk

The translation of a 48-bit virtual address by four levels of x86-64 page tables, and what folds of
writes do to a memory. Level 3 is the PML4 table, level 0 a page table.

* `walk_table`, `walk_page` and `walk_notPresent`: what an entry makes the walk do.
* `address_mkEntry`, `pageBase_mkEntry` and `getLsbD_mkEntry` read an entry back that was made of an
  aligned address and of flags.
* `foldl_of_forall_frame` and `foldl_of_mem`: what a loop of writes leaves at one address.
-/

namespace PageWalk

/-- Physical memory, by the addresses of its words of eight bytes. -/
abbrev Memory : Type := Nat → BitVec 64

/-- The bytes of a table. -/
abbrev tableSize : Nat := 4096

/-- The address of an entry of a table. -/
def entryAddress (table index : Nat) : Nat := table + 8 * index

/-! ## Entries -/

/-- The flag P. -/
def present (entry : BitVec 64) : Bool := entry.getLsbD 0

/-- The flag R/W. -/
def writable (entry : BitVec 64) : Bool := entry.getLsbD 1

/-- The flag PS: the entry maps a page although the walk could go on. -/
def pageSize (entry : BitVec 64) : Bool := entry.getLsbD 7

/-- The address of the table below, in bits 51 to 12 of an entry or of CR3. -/
def address (entry : BitVec 64) : Nat := (entry.extractLsb' 12 40).toNat * tableSize

/-- The bits of an address that a page of a level leaves alone. -/
abbrev pageBits (level : Nat) : Nat := 12 + 9 * level

/-- The address of the page that an entry maps. -/
def pageBase (level : Nat) (entry : BitVec 64) : Nat :=
  (entry.extractLsb' (pageBits level) (52 - pageBits level)).toNat * 2 ^ pageBits level

/-- An entry made of the address of a table or page and of flags in the low bits. -/
def mkEntry (address : Nat) (flags : BitVec 64) : BitVec 64 := BitVec.ofNat 64 address ||| flags

variable {base level : Nat} {flags : BitVec 64}

theorem toNat_mkEntry (haligned : 2 ^ 12 ∣ base) (hbase : base < 2 ^ 52)
    (hflags : flags.toNat < 2 ^ 12) : (mkEntry base flags).toNat = base + flags.toNat := by
  obtain ⟨k, rfl⟩ := haligned
  unfold mkEntry
  rw [BitVec.toNat_or, BitVec.toNat_ofNat, Nat.mod_eq_of_lt (by omega),
    ← Nat.two_pow_add_eq_or_of_lt hflags]

/-- The flags are read back. -/
theorem getLsbD_mkEntry (haligned : 2 ^ 12 ∣ base) {i : Nat} (hi : i < 12) :
    (mkEntry base flags).getLsbD i = flags.getLsbD i := by
  obtain ⟨k, rfl⟩ := haligned
  unfold mkEntry
  rw [BitVec.getLsbD_or, BitVec.getLsbD_ofNat, Nat.testBit_two_pow_mul]
  simp only [ge_iff_le, not_le.mpr hi, decide_false, Bool.false_and, Bool.and_false, Bool.false_or]

/-- The address is read back. -/
theorem address_mkEntry (haligned : tableSize ∣ base) (hbase : base < 2 ^ 52)
    (hflags : flags.toNat < 2 ^ 12) : address (mkEntry base flags) = base := by
  unfold address
  rw [BitVec.extractLsb'_toNat, toNat_mkEntry haligned hbase hflags, Nat.shiftRight_eq_div_pow]
  unfold tableSize at *
  omega

/-- The address of a page is read back. -/
theorem pageBase_mkEntry (haligned : 2 ^ pageBits level ∣ base) (hbase : base < 2 ^ 52)
    (hflags : flags.toNat < 2 ^ 12) (hlevel : level ≤ 2) :
    pageBase level (mkEntry base flags) = base := by
  have hbits : 12 ≤ pageBits level := Nat.le_add_right _ _
  have htable : 2 ^ 12 ∣ base := dvd_trans (Nat.pow_dvd_pow 2 hbits) haligned
  have hflags' : flags.toNat < 2 ^ pageBits level :=
    lt_of_lt_of_le hflags (Nat.pow_le_pow_right (by decide) hbits)
  have hsplit : 2 ^ 52 = 2 ^ pageBits level * 2 ^ (52 - pageBits level) := by
    rw [← Nat.pow_add, Nat.add_sub_cancel' (by unfold pageBits; omega)]
  unfold pageBase
  rw [BitVec.extractLsb'_toNat, toNat_mkEntry htable hbase hflags, Nat.shiftRight_eq_div_pow]
  obtain ⟨k, rfl⟩ := haligned
  have hk : k < 2 ^ (52 - pageBits level) := Nat.lt_of_mul_lt_mul_left (hsplit ▸ hbase)
  rw [Nat.mul_add_div (Nat.two_pow_pos _), Nat.div_eq_of_lt hflags', Nat.add_zero,
    Nat.mod_eq_of_lt hk, Nat.mul_comm]

/-! ## The walk -/

/-- What comes of a walk. -/
inductive Outcome
  /-- The address is mapped. -/
  | page (physical : Nat) (writable : Bool)
  /-- The walk ends at an entry that is not present. -/
  | notPresent
  /-- The walk ends at an entry with a reserved bit set. -/
  | reserved
deriving DecidableEq

/-- A page can be written only if all entries on the way to it allow it. -/
def Outcome.restrict (writable : Bool) : Outcome → Outcome
  | .page physical writable' => .page physical (writable && writable')
  | .notPresent => .notPresent
  | .reserved => .reserved

/-- The index into the table of a level. -/
def index (level : Nat) (a : BitVec 48) : Nat := (a.extractLsb' (pageBits level) 9).toNat

/-- The page of an entry, at the offset of an address. -/
def Outcome.ofEntry (level : Nat) (entry : BitVec 64) (a : BitVec 48) : Outcome :=
  .page (pageBase level entry + a.toNat % 2 ^ pageBits level) (writable entry)

/-- The walk from a table of a level. Pages can be mapped at the levels up to 2; above, the bit of
the flag is reserved. -/
def walk (mem : Memory) (a : BitVec 48) : (level : Nat) → (table : Nat) → Outcome
  | 0, table =>
      let entry := mem (entryAddress table (index 0 a))
      if present entry then .ofEntry 0 entry a else .notPresent
  | level + 1, table =>
      let entry := mem (entryAddress table (index (level + 1) a))
      if present entry then
        if pageSize entry then
          if level + 1 ≤ 2 then .ofEntry (level + 1) entry a else .reserved
        else (walk mem a level (address entry)).restrict (writable entry)
      else .notPresent

/-- The translation of a virtual address with the tables that CR3 points to. -/
def translate (mem : Memory) (cr3 : BitVec 64) (a : BitVec 48) : Outcome :=
  walk mem a 3 (address cr3)

section steps

variable {mem : Memory} {a : BitVec 48} {table : Nat} {entry : BitVec 64}

theorem walk_notPresent (hentry : mem (entryAddress table (index level a)) = entry)
    (hpresent : present entry = false) : walk mem a level table = .notPresent := by
  cases level with
  | zero =>
      unfold walk
      rw [hentry]
      simp only [hpresent, Bool.false_eq_true, if_false]
  | succ level =>
      unfold walk
      rw [hentry]
      simp only [hpresent, Bool.false_eq_true, if_false]

/-- An entry that points to a table of the level below. -/
theorem walk_table (hentry : mem (entryAddress table (index (level + 1) a)) = entry)
    (hpresent : present entry = true) (hsize : pageSize entry = false) :
    walk mem a (level + 1) table =
      (walk mem a level (address entry)).restrict (writable entry) := by
  conv_lhs => unfold walk
  rw [hentry]
  simp only [hpresent, hsize, Bool.false_eq_true, if_true, if_false]

/-- An entry that maps a large page. -/
theorem walk_page (hentry : mem (entryAddress table (index (level + 1) a)) = entry)
    (hpresent : present entry = true) (hsize : pageSize entry = true) (hlevel : level + 1 ≤ 2) :
    walk mem a (level + 1) table = .ofEntry (level + 1) entry a := by
  unfold walk
  rw [hentry]
  simp only [hpresent, hsize, hlevel, if_true]

/-- The indices as digits of the address. -/
theorem index_eq (level : Nat) (a : BitVec 48) :
    index level a = a.toNat / 2 ^ pageBits level % 512 := by
  unfold index
  rw [BitVec.extractLsb'_toNat, Nat.shiftRight_eq_div_pow]

theorem index_lt (level : Nat) (a : BitVec 48) : index level a < 512 := by
  rw [index_eq]
  exact Nat.mod_lt _ (by decide)

end steps

/-! ## Loops of writes -/

section writes

variable {ι : Type*} {F : Memory → ι → Memory} {l : List ι} {p : Nat}

/-- A loop that never writes to an address leaves its word alone. -/
theorem foldl_of_forall_frame (hframe : ∀ i ∈ l, ∀ mem, F mem i p = mem p) (mem : Memory) :
    l.foldl F mem p = mem p := by
  induction l generalizing mem with
  | nil => rfl
  | cons i l ih =>
      rw [List.foldl_cons, ih fun j hj => hframe j (List.mem_cons_of_mem _ hj)]
      exact hframe i List.mem_cons_self mem

/-- A loop with one iteration that writes to an address leaves the word of this iteration there. -/
theorem foldl_of_mem {i : ι} (hi : i ∈ l) (hnodup : l.Nodup) {word : BitVec 64}
    (hwrite : ∀ mem, F mem i p = word) (hframe : ∀ j ∈ l, j ≠ i → ∀ mem, F mem j p = mem p)
    (mem : Memory) : l.foldl F mem p = word := by
  induction l generalizing mem with
  | nil => exact absurd hi List.not_mem_nil
  | cons j l ih =>
      obtain ⟨hj, hnodup'⟩ := List.nodup_cons.mp hnodup
      rw [List.foldl_cons]
      rcases List.mem_cons.mp hi with rfl | hi'
      · rw [foldl_of_forall_frame fun k hk =>
          hframe k (List.mem_cons_of_mem _ hk) fun h => hj (h ▸ hk)]
        exact hwrite mem
      · exact ih hi' hnodup' (fun k hk => hframe k (List.mem_cons_of_mem _ hk)) (F mem j)

end writes

end PageWalk
