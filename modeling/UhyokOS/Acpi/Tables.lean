import UhyokOS.Lib.ByteMemory
import UhyokOS.Acpi.PmTimer

/-!
# The ACPI tables

The model of `Initialize` in `kernel/acpi.cpp`, which looks for the FADT among the entries of the
XSDT. The firmware has left the tables in memory. A table is valid if it has the right signature and
if the sum of its bytes is 0, and how many bytes that are it says itself: nothing is asked of the
length.

* `scan_reads` and `scan_eq_fadt_iff`: what the loop over the entries reads, and what it finds.
* `count_add_le_iff`: the loop is bounded by the table iff the table has room for its own header.
* `staysInTables_iff`: `Initialize` stays in the tables iff the XSDT has room for its header, and
  the first FADT for the fields of the timer.
-/

namespace UhyokOS

namespace Acpi

/-! ## The source -/

/-- Source: `kernel/acpi.cpp`, `SumBytes` -/
def sumBytes (m : ByteMemory) (data : UInt64) : Nat → UInt8
  | 0 => 0
  | bytes + 1 => sumBytes m data bytes + m (data + UInt64.ofNat bytes)

/-- `strncmp(p, s, n) == 0` for a literal `s` of `n` characters. None of them is NUL, so all are
compared. -/
def startsWith (m : ByteMemory) : UInt64 → List Char → Bool
  | _, [] => true
  | p, c :: s => m p == UInt8.ofNat c.toNat && startsWith m (p + 1) s

/-- Source: `kernel/acpi.cpp`, `RSDP::IsValid` -/
def rsdpIsValid (m : ByteMemory) (rsdp : UInt64) : Bool :=
  startsWith m rsdp ['R', 'S', 'D', ' ', 'P', 'T', 'R', ' '] &&
    m (rsdp + 15) == 2 && -- revision
    sumBytes m rsdp 20 == 0 && sumBytes m rsdp 36 == 0

/-- `rsdp.xsdt_address`
Source: `kernel/acpi.hpp`, `RSDP` -/
def xsdtAddress (m : ByteMemory) (rsdp : UInt64) : UInt64 := m.load64 (rsdp + 24)

/-- `header.length`
Source: `kernel/acpi.hpp`, `DescriptionHeader` -/
def tableLength (m : ByteMemory) (table : UInt64) : UInt32 := UInt32.ofNat (m.loadLE (table + 4) 4)

/-- Source: `kernel/acpi.cpp`, `DescriptionHeader::IsValid` -/
def isValid (m : ByteMemory) (table : UInt64) (expectedSignature : List Char) : Bool :=
  startsWith m table expectedSignature && sumBytes m table (tableLength m table).toNat == 0

/-- `sizeof(DescriptionHeader)` -/
abbrev kHeaderSize : Nat := 36

/-- The bytes of an entry of the XSDT. -/
def entrySpan (xsdt : UInt64) (i : Nat) : Span := ⟨xsdt + UInt64.ofNat (kHeaderSize + 8 * i), 8⟩

/-- Source: `kernel/acpi.cpp`, `XSDT::operator[]` -/
def entryAt (m : ByteMemory) (xsdt : UInt64) (i : Nat) : UInt64 := m.load64 (entrySpan xsdt i).start

/-- Source: `kernel/acpi.cpp`, `XSDT::Count` -/
def count (m : ByteMemory) (xsdt : UInt64) : UInt64 :=
  ((tableLength m xsdt).toUInt64 - UInt64.ofNat kHeaderSize) / 8

/-- The signature of the XSDT. -/
abbrev xsdtSignature : List Char := ['X', 'S', 'D', 'T']

/-- FACP is the signature of FADT. -/
abbrev fadtSignature : List Char := ['F', 'A', 'C', 'P']

/-- What `Initialize` comes to. -/
inductive Outcome
  /-- `fadt` is this address. -/
  | fadt (address : UInt64)
  /-- `exit(1)`, after this message. -/
  | exit (message : String)
  /-- `++i` overflows. -/
  | overflow
deriving DecidableEq

/-- The loop over the entries, from entry `i` on: the entries that are read, and the outcome. The
fuel is the number of values that are left for the `int` in `i`. -/
def scan (m : ByteMemory) (xsdt : UInt64) : Nat → Nat → List Span × Outcome
  | 0, _ => ([], .overflow)
  | fuel + 1, i =>
    if i < (count m xsdt).toNat then
      let entry := entryAt m xsdt i
      if isValid m entry fadtSignature then ([entrySpan xsdt i], .fadt entry)
      else (entrySpan xsdt i :: (scan m xsdt fuel (i + 1)).1, (scan m xsdt fuel (i + 1)).2)
    else ([], .exit "FADT is not found\n")

/-- Source: `kernel/acpi.cpp`, `acpi::Initialize` -/
def initializeTables (m : ByteMemory) (rsdp : UInt64) : List Span × Outcome :=
  if !rsdpIsValid m rsdp then ([], .exit "RSDP is not valid\n")
  else
    let xsdt := xsdtAddress m rsdp
    if !isValid m xsdt xsdtSignature then ([], .exit "XSDT is not valid\n")
    else scan m xsdt (2 ^ 31) 0

/-- The fields that `WaitMilliseconds` reads.
Source: `kernel/acpi.hpp`, `FADT` -/
def fadtAt (m : ByteMemory) (fadt : UInt64) : FADT where
  pmTmrBlk := UInt32.ofNat (m.loadLE (fadt + 76) 4)
  flags := UInt32.ofNat (m.loadLE (fadt + 112) 4)

/-! ## Staying inside -/

/-- The bytes of a table, as it says itself. -/
def tableSpan (m : ByteMemory) (table : UInt64) : Span := ⟨table, (tableLength m table).toNat⟩

/-- The entries that are read lie in the XSDT, the loop over them is bounded by it, and the FADT has
the fields that are read later. -/
structure StaysInTables (m : ByteMemory) (rsdp : UInt64) : Prop where
  reads_within : ∀ s ∈ (initializeTables m rsdp).1, s.Within (tableSpan m (xsdtAddress m rsdp))
  loop_bounded : kHeaderSize + 8 * (count m (xsdtAddress m rsdp)).toNat ≤
    (tableLength m (xsdtAddress m rsdp)).toNat
  fadt_length : ∀ fadt, (initializeTables m rsdp).2 = .fadt fadt → 116 ≤ (tableLength m fadt).toNat

/-- Entry `i` of the XSDT is the first one with a valid FADT. -/
structure FirstFadt (m : ByteMemory) (xsdt : UInt64) (i : Nat) : Prop where
  valid : isValid m (entryAt m xsdt i) fadtSignature = true
  first : ∀ j < i, isValid m (entryAt m xsdt j) fadtSignature = false

variable {m : ByteMemory} {rsdp xsdt fadt : UInt64} {fuel i : Nat} {s : Span}

/-- The fields of the timer lie in a FADT of that length: they depend on no other bytes. -/
theorem fadtAt_congr {m' : ByteMemory} (h : 116 ≤ (tableLength m fadt).toNat)
    (hsame : ∀ a, (tableSpan m fadt).Contains a → m' a = m a) : fadtAt m' fadt = fadtAt m fadt := by
  have hfield : ∀ k, k + 4 ≤ 116 →
      m'.loadLE (fadt + UInt64.ofNat k) 4 = m.loadLE (fadt + UInt64.ofNat k) 4 := by
    intro k hk
    refine ByteMemory.loadLE_eq_iff.mpr fun j hj => hsame _ ?_
    rw [Span.add_offset_add]
    exact (Span.contains_add (s := tableSpan m fadt) (by omega)).mpr
      (show k + j < (tableLength m fadt).toNat by omega)
  exact congrArg₂ FADT.mk (congrArg UInt32.ofNat (hfield 76 (by decide)))
    (congrArg UInt32.ofNat (hfield 112 (by decide)))

/-- When an entry lies in the XSDT. -/
theorem entrySpan_within_iff (hi : i < 2 ^ 32) :
    (entrySpan xsdt i).Within (tableSpan m xsdt) ↔
      kHeaderSize + 8 * i + 8 ≤ (tableLength m xsdt).toNat := by
  exact Span.within_iff (t := tableSpan m xsdt) (by simp only [kHeaderSize]; omega) (by decide)

/-! ### The loop -/

theorem scan_found (hi : i < (count m xsdt).toNat)
    (hvalid : isValid m (entryAt m xsdt i) fadtSignature = true) :
    scan m xsdt (fuel + 1) i = ([entrySpan xsdt i], .fadt (entryAt m xsdt i)) := by
  rw [scan, if_pos hi]
  exact if_pos hvalid

theorem scan_next (hi : i < (count m xsdt).toNat)
    (hinvalid : isValid m (entryAt m xsdt i) fadtSignature = false) :
    scan m xsdt (fuel + 1) i =
      (entrySpan xsdt i :: (scan m xsdt fuel (i + 1)).1, (scan m xsdt fuel (i + 1)).2) := by
  rw [scan, if_pos hi]
  exact if_neg (Bool.eq_false_iff.mp hinvalid)

theorem scan_end (hi : (count m xsdt).toNat ≤ i) :
    scan m xsdt (fuel + 1) i = ([], .exit "FADT is not found\n") := by
  rw [scan, if_neg (Nat.not_lt.mpr hi)]

/-- The loop reads entries that are counted. -/
theorem scan_reads (hs : s ∈ (scan m xsdt fuel i).1) :
    ∃ j, j < i + fuel ∧ j < (count m xsdt).toNat ∧ s = entrySpan xsdt j := by
  induction fuel generalizing i with
  | zero => cases hs
  | succ fuel ih =>
      have hhere : i < i + (fuel + 1) := Nat.lt_add_of_pos_right (Nat.succ_pos fuel)
      rcases Nat.lt_or_ge i (count m xsdt).toNat with hi | hi
      · cases hvalid : isValid m (entryAt m xsdt i) fadtSignature
        · rw [scan_next hi hvalid] at hs
          rcases List.mem_cons.mp hs with rfl | hs
          · exact ⟨i, hhere, hi, rfl⟩
          · obtain ⟨j, hj, hcount, rfl⟩ := ih hs
            exact ⟨j, by omega, hcount, rfl⟩
        · rw [scan_found hi hvalid] at hs
          exact ⟨i, hhere, hi, List.mem_singleton.mp hs⟩
      · rw [scan_end hi] at hs
        cases hs

/-- The loop finds the first entry that is valid. -/
theorem scan_eq_fadt_iff : (scan m xsdt fuel i).2 = .fadt fadt ↔
    ∃ j, i ≤ j ∧ j < i + fuel ∧ j < (count m xsdt).toNat ∧ entryAt m xsdt j = fadt ∧
      isValid m (entryAt m xsdt j) fadtSignature = true ∧
      ∀ k, i ≤ k → k < j → isValid m (entryAt m xsdt k) fadtSignature = false := by
  induction fuel generalizing i with
  | zero =>
      refine iff_of_false (fun h => nomatch h) ?_
      rintro ⟨j, hle, hlt, -⟩
      exact Nat.not_lt.mpr hle hlt
  | succ fuel ih =>
      rcases Nat.lt_or_ge i (count m xsdt).toNat with hi | hi
      · cases hvalid : isValid m (entryAt m xsdt i) fadtSignature
        · rw [scan_next hi hvalid]
          refine ih.trans ⟨?_, ?_⟩
          · rintro ⟨j, hle, hlt, hcount, hj, hvalidj, hfirst⟩
            refine ⟨j, Nat.le_of_succ_le hle, by omega, hcount, hj, hvalidj, fun k hik hkj => ?_⟩
            rcases Nat.eq_or_lt_of_le hik with rfl | hik
            · exact hvalid
            · exact hfirst k hik hkj
          · rintro ⟨j, hle, hlt, hcount, hj, hvalidj, hfirst⟩
            have hne : i ≠ j := by
              rintro rfl
              exact Bool.false_ne_true (hvalid.symm.trans hvalidj)
            exact ⟨j, by omega, by omega, hcount, hj, hvalidj, fun k hik hkj =>
              hfirst k (Nat.le_of_succ_le hik) hkj⟩
        · rw [scan_found hi hvalid]
          constructor
          · intro h
            exact ⟨i, le_rfl, Nat.lt_add_of_pos_right (Nat.succ_pos fuel), hi, Outcome.fadt.inj h,
              hvalid, fun k hik hki => absurd hki (Nat.not_lt.mpr hik)⟩
          · rintro ⟨j, hle, -, -, rfl, -, hfirst⟩
            rcases Nat.eq_or_lt_of_le hle with rfl | hlt
            · rfl
            · exact absurd (hvalid.symm.trans (hfirst i le_rfl hlt)) Bool.false_ne_true.symm
      · rw [scan_end hi]
        refine iff_of_false (fun h => nomatch h) ?_
        rintro ⟨j, hle, -, hcount, -⟩
        exact Nat.not_lt.mpr (hi.trans hle) hcount

/-- The first entry is read if the loop is entered. -/
theorem entrySpan_zero_mem (h : 0 < (count m xsdt).toNat) :
    entrySpan xsdt 0 ∈ (scan m xsdt (fuel + 1) 0).1 := by
  cases hvalid : isValid m (entryAt m xsdt 0) fadtSignature
  · rw [scan_next h hvalid]
    exact List.mem_cons_self
  · rw [scan_found h hvalid]
    exact List.mem_singleton_self _

/-! ### The number of entries -/

/-- The subtraction does not wrap if there is room for the header. -/
theorem toNat_count (h : kHeaderSize ≤ (tableLength m xsdt).toNat) :
    (count m xsdt).toNat = ((tableLength m xsdt).toNat - kHeaderSize) / 8 := by
  have hle : UInt64.ofNat kHeaderSize ≤ (tableLength m xsdt).toUInt64 := by
    rw [UInt64.le_iff_toNat_le, UInt32.toNat_toUInt64]
    exact h
  rw [count, UInt64.toNat_div, UInt64.toNat_sub_of_le _ _ hle, UInt32.toNat_toUInt64]
  rfl

/-- The subtraction wraps if there is not. -/
theorem lt_toNat_count (h : (tableLength m xsdt).toNat < kHeaderSize) :
    2 ^ 60 < (count m xsdt).toNat := by
  simp only [kHeaderSize] at h
  rw [count, UInt64.toNat_div, UInt64.toNat_sub, UInt32.toNat_toUInt64]
  show 2 ^ 60 < (2 ^ 64 - 36 + (tableLength m xsdt).toNat) % 2 ^ 64 / 8
  omega

/-- **The loop is bounded by the table iff the table has room for its header.** -/
theorem count_add_le_iff : kHeaderSize + 8 * (count m xsdt).toNat ≤ (tableLength m xsdt).toNat ↔
    kHeaderSize ≤ (tableLength m xsdt).toNat := by
  have hlength := UInt32.toNat_lt (tableLength m xsdt)
  rcases Nat.lt_or_ge (tableLength m xsdt).toNat kHeaderSize with h | h
  · have hcount := lt_toNat_count h
    simp only [kHeaderSize] at h ⊢
    omega
  · rw [toNat_count h]
    simp only [kHeaderSize] at h ⊢
    omega

/-! ### `Initialize` -/

/-- With a valid RSDP and XSDT, `Initialize` goes over the entries. -/
theorem initializeTables_eq (hrsdp : rsdpIsValid m rsdp = true)
    (hxsdt : isValid m (xsdtAddress m rsdp) xsdtSignature = true) :
    initializeTables m rsdp = scan m (xsdtAddress m rsdp) (2 ^ 31) 0 := by
  simp only [initializeTables, hrsdp, hxsdt, Bool.not_true, Bool.false_eq_true, if_false]

/-- **The entries that are read lie in the XSDT iff it has room for its header.** -/
theorem reads_within_iff : (∀ s ∈ (scan m xsdt (fuel + 1) 0).1, s.Within (tableSpan m xsdt)) ↔
    kHeaderSize ≤ (tableLength m xsdt).toNat := by
  have hlength := UInt32.toNat_lt (tableLength m xsdt)
  constructor
  · intro h
    by_contra hroom
    -- the number of entries has wrapped, so the first one is read
    have hentered := Nat.zero_lt_of_lt (lt_toNat_count (Nat.lt_of_not_le hroom))
    have hle := (entrySpan_within_iff (by decide)).mp (h _ (entrySpan_zero_mem hentered))
    exact hroom ((Nat.le_add_right _ _).trans hle)
  · intro hroom s hs
    obtain ⟨j, -, hcount, rfl⟩ := scan_reads hs
    rw [toNat_count hroom] at hcount
    simp only [kHeaderSize] at hcount
    apply (entrySpan_within_iff (by omega)).mpr
    simp only [kHeaderSize]
    omega

/-- What the loop finds in such an XSDT. The `int` does not overflow. -/
theorem scan_eq_fadt_iff_of_le (hroom : kHeaderSize ≤ (tableLength m xsdt).toNat) :
    (scan m xsdt (2 ^ 31) 0).2 = .fadt fadt ↔
      ∃ i < ((tableLength m xsdt).toNat - kHeaderSize) / 8,
        FirstFadt m xsdt i ∧ entryAt m xsdt i = fadt := by
  have hlength := UInt32.toNat_lt (tableLength m xsdt)
  rw [scan_eq_fadt_iff, toNat_count hroom]
  constructor
  · rintro ⟨j, -, -, hcount, hj, hvalid, hfirst⟩
    exact ⟨j, hcount, ⟨hvalid, fun k hk => hfirst k (Nat.zero_le k) hk⟩, hj⟩
  · rintro ⟨j, hcount, hfadt, hj⟩
    exact ⟨j, Nat.zero_le j, by omega, hcount, hj, hfadt.valid, fun k _ hk => hfadt.first k hk⟩

/-- **`Initialize` stays in the tables** iff the XSDT has room for its own header, and the first FADT
among its entries, if there is one, for the fields of the timer. -/
theorem staysInTables_iff (m : ByteMemory) (rsdp : UInt64) (hrsdp : rsdpIsValid m rsdp = true)
    (hxsdt : isValid m (xsdtAddress m rsdp) xsdtSignature = true) :
    StaysInTables m rsdp ↔
      kHeaderSize ≤ (tableLength m (xsdtAddress m rsdp)).toNat ∧
        ∀ i < ((tableLength m (xsdtAddress m rsdp)).toNat - kHeaderSize) / 8,
          FirstFadt m (xsdtAddress m rsdp) i →
            116 ≤ (tableLength m (entryAt m (xsdtAddress m rsdp) i)).toNat := by
  constructor
  · intro h
    have hroom := count_add_le_iff.mp h.loop_bounded
    refine ⟨hroom, fun i hi hfirst => h.fadt_length _ ?_⟩
    rw [initializeTables_eq hrsdp hxsdt]
    exact (scan_eq_fadt_iff_of_le hroom).mpr ⟨i, hi, hfirst, rfl⟩
  · rintro ⟨hroom, hlong⟩
    refine ⟨fun s hs => ?_, count_add_le_iff.mpr hroom, fun fadt hfadt => ?_⟩
    · rw [initializeTables_eq hrsdp hxsdt] at hs
      exact reads_within_iff.mpr hroom s hs
    · rw [initializeTables_eq hrsdp hxsdt, scan_eq_fadt_iff_of_le hroom] at hfadt
      obtain ⟨i, hi, hfirst, rfl⟩ := hfadt
      exact hlong i hi hfirst

/-- A valid RSDP at 4096, for an XSDT at 8192. -/
def rsdpBytes : List (UInt64 × UInt8) :=
  [(4096, 82), (4097, 83), (4098, 68), (4099, 32), (4100, 80), (4101, 84), (4102, 82), (4103, 32),
    (4104, 223), (4111, 2), (4121, 32), (4128, 224)]

/-- A signature at an address, and the lowest byte of the length and the checksum behind it. -/
def headerBytes (table : UInt64) (signature : List Char) (length checksum : UInt8) :
    List (UInt64 × UInt8) :=
  (table + 4, length) :: (table + 9, checksum) ::
    signature.zipIdx.map fun (c, j) => (table + UInt64.ofNat j, UInt8.ofNat c.toNat)

/-- An XSDT of 44 bytes, for a FADT of 116 bytes at 12288. -/
def soundTables : ByteMemory :=
  .sparse (rsdpBytes ++ headerBytes 8192 xsdtSignature 44 97 ++ [(8229, 48)] ++
    headerBytes 12288 fadtSignature 116 114)

theorem soundTables_stays : StaysInTables soundTables 4096 := by
  apply (staysInTables_iff soundTables 4096 (by decide +kernel) (by decide +kernel)).mpr
  have hone : ((tableLength soundTables (xsdtAddress soundTables 4096)).toNat - kHeaderSize) / 8 = 1 := by
    decide +kernel
  refine ⟨by decide +kernel, fun i hi _ => ?_⟩
  rw [hone, Nat.lt_one_iff] at hi
  subst hi
  decide +kernel

/-- An XSDT of 0 bytes. Its only entry belongs to a FADT of 0 bytes. -/
def emptyTables : ByteMemory :=
  .sparse (rsdpBytes ++ headerBytes 8192 xsdtSignature 0 0 ++ [(8229, 48)] ++
    headerBytes 12288 fadtSignature 0 0)

/-- The sum over no bytes is 0, so both tables are valid. The first entry is read behind the XSDT, and
the FADT is taken. -/
theorem emptyTables_left : rsdpIsValid emptyTables 4096 = true ∧
    isValid emptyTables (xsdtAddress emptyTables 4096) xsdtSignature = true ∧
    (initializeTables emptyTables 4096).2 = .fadt 12288 ∧ tableLength emptyTables 12288 = 0 ∧
    ¬StaysInTables emptyTables 4096 := by
  have hrsdp : rsdpIsValid emptyTables 4096 = true := by decide +kernel
  have hxsdt : isValid emptyTables (xsdtAddress emptyTables 4096) xsdtSignature = true := by
    decide +kernel
  refine ⟨hrsdp, hxsdt, by decide +kernel, by decide +kernel, fun h => ?_⟩
  have hroom := count_add_le_iff.mp h.loop_bounded
  revert hroom
  decide +kernel

end Acpi

end UhyokOS
