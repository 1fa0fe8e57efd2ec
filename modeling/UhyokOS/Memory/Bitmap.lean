import UhyokOS.Memory.Manager
import UhyokOS.Lib.PackedBits
import Mathlib.Order.Interval.Set.Basic
import Mathlib.Data.Set.Lattice

/-!
# What the frame allocator does to the set of used frames

`used` is the set of frames whose bit is set. Each member function of `BitmapMemoryManager` is
described once, by what it does to that set:

* `markAllocated_spec` and `free_spec` add and remove a range of frames;
* `allocate_spec`: `Allocate` terminates, and it either takes the first range of free frames that
  fits or changes nothing because none fits;
* `allocate_first_fit`: the same over the bits of the map, with the place returned as the least
  element of the set of all places (`freeRuns`).
-/

namespace UhyokOS

namespace BitmapMemoryManager

variable {mm mm' : BitmapMemoryManager} {f start n : Nat}

/-- The frames whose bit is set. -/
def used (mm : BitmapMemoryManager) : Set Nat := {f | mm.getBit f = some true}

/-- The frames of a block. -/
def frames (start n : Nat) : Set Nat := Set.Ico start (start + n)

/-- The frames of a range. -/
theorem mem_frames : f ∈ frames start n ↔ start ≤ f ∧ f < start + n := Iff.rfl

/-! ## One bit -/

/-- A frame has a line in the map iff its number is below the number of frames. -/
theorem line_lt_iff : f / kBitsPerMapLine < kMapLines ↔ f < kFrameCount :=
  Nat.div_lt_iff_lt_mul (by decide)

/-- The line of a frame that the map has. -/
theorem line_lt (hf : f < kFrameCount) : f / kBitsPerMapLine < kMapLines := line_lt_iff.mpr hf

/-- The place of a frame in its line. -/
theorem bit_lt (f : Nat) : f % kBitsPerMapLine < kBitsPerMapLine := Nat.mod_lt _ (by decide)

/-- A bit that the map has is read from its line. -/
theorem getBit_eq (hf : f < kFrameCount) : mm.getBit f =
    some ((mm.allocMap ⟨f / kBitsPerMapLine, line_lt hf⟩).getLsbD (f % kBitsPerMapLine)) := by
  unfold getBit
  rw [dif_pos (line_lt hf), PackedBits.and_mask_bne_zero _ (bit_lt f)]

/-- The set of used frames is the set the bitmap stores. -/
theorem used_eq_bits (mm : BitmapMemoryManager) : mm.used = PackedBits.bits mm.allocMap := by
  ext f
  by_cases hf : f < kFrameCount
  · rw [PackedBits.mem_bits (line_lt hf)]
    show mm.getBit f = some true ↔ _
    rw [getBit_eq hf, Option.some.injEq]
  · have hline : ¬f / kBitsPerMapLine < kMapLines := fun h => hf (line_lt_iff.mp h)
    constructor
    · intro h
      have h' : mm.getBit f = some true := h
      unfold getBit at h'
      rw [dif_neg hline] at h'
      cases h'
    · exact fun h => absurd (PackedBits.lt_of_mem_bits h) hline

/-- `GetBit` answers membership. -/
theorem getBit_spec (mm : BitmapMemoryManager) (hf : f < kFrameCount) :
    ∃ b, mm.getBit f = some b ∧ (b = true ↔ f ∈ mm.used) := by
  refine ⟨_, getBit_eq hf, ?_⟩
  rw [used_eq_bits, PackedBits.mem_bits (line_lt hf)]

/-- The two managers differ in their bitmaps only. -/
structure SameRange (mm mm' : BitmapMemoryManager) : Prop where
  rangeBegin : mm'.rangeBegin = mm.rangeBegin
  rangeEnd : mm'.rangeEnd = mm.rangeEnd

/-- Two changes of bits, one after the other, leave the range as it was. -/
theorem SameRange.trans {mm'' : BitmapMemoryManager} (h : SameRange mm mm')
    (h' : SameRange mm' mm'') : SameRange mm mm'' :=
  ⟨h'.rangeBegin.trans h.rangeBegin, h'.rangeEnd.trans h.rangeEnd⟩

/-- `SetBit` decides the membership of one frame. -/
theorem setBit_spec (mm : BitmapMemoryManager) (hf : f < kFrameCount) (b : Bool) :
    ∃ mm', mm.setBit f b = some mm' ∧ SameRange mm mm' ∧
      ∀ g, g ∈ mm'.used ↔ if g = f then b = true else g ∈ mm.used := by
  unfold setBit
  simp only [dif_pos (line_lt hf)]
  refine ⟨_, rfl, ⟨rfl, rfl⟩, fun g => ?_⟩
  rw [used_eq_bits, used_eq_bits]
  refine (PackedBits.mem_bits_setWord (line_lt hf) (fun j hj => ?_) g).trans ?_
  · cases b
    · simp [PackedBits.getLsbD_and_not_mask _ (bit_lt f), hj]
    · simp [PackedBits.getLsbD_or_mask _ (bit_lt f), hj]
  · cases b
    · simp [PackedBits.getLsbD_and_not_mask _ (bit_lt f)]
    · simp [PackedBits.getLsbD_or_mask _ (bit_lt f)]

/-! ## Ranges of frames -/

/-- Setting the bits of frames that the map has is defined, and sets those and no others. -/
theorem setBits_spec (mm : BitmapMemoryManager) (b : Bool) (hn : ∀ k < n, start + k < kFrameCount) :
    ∃ mm', mm.setBits b start n = some mm' ∧ SameRange mm mm' ∧
      ∀ g, g ∈ mm'.used ↔ if g ∈ Set.Ico start (start + n) then b = true else g ∈ mm.used := by
  induction n with
  | zero => exact ⟨mm, rfl, ⟨rfl, rfl⟩, fun g => by simp⟩
  | succ n ih =>
      obtain ⟨mm₁, heq₁, hsame₁, hused₁⟩ := ih fun k hk => hn k (by omega)
      obtain ⟨mm₂, heq₂, hsame₂, hused₂⟩ := mm₁.setBit_spec (hn n (by omega)) b
      refine ⟨mm₂, by simp [setBits, heq₁, heq₂], hsame₁.trans hsame₂, fun g => ?_⟩
      rw [hused₂, hused₁]
      by_cases hg : g = start + n
      · subst hg
        simp [Set.mem_Ico]
      · have hiff : g ∈ Set.Ico start (start + (n + 1)) ↔ g ∈ Set.Ico start (start + n) := by
          simp only [Set.mem_Ico]
          omega
        simp only [hg, if_false, hiff]

/-- Setting the bit of a frame that the map does not have writes outside of `alloc_map_`. -/
theorem setBit_eq_none (hf : kFrameCount ≤ f) (b : Bool) : mm.setBit f b = none := by
  unfold setBit
  exact dif_neg fun h => absurd (line_lt_iff.mp h) (not_lt.mpr hf)

/-- `MarkAllocated` and `Free` are defined on the ranges within the bitmap only. -/
theorem setBits_isSome_iff (mm : BitmapMemoryManager) (b : Bool) :
    (mm.setBits b start n).isSome = true ↔ ∀ k < n, start + k < kFrameCount := by
  constructor
  · induction n with
    | zero => exact fun _ k hk => absurd hk (Nat.not_lt_zero _)
    | succ n ih =>
        intro h k hk
        obtain ⟨mm', heq⟩ := Option.isSome_iff_exists.mp h
        obtain ⟨mm₁, heq₁, hset⟩ := Option.bind_eq_some_iff.mp heq
        rcases Nat.lt_or_eq_of_le (Nat.le_of_lt_succ hk) with hlt | rfl
        · apply ih _ k hlt
          rw [heq₁]
          rfl
        · by_contra hout
          rw [setBit_eq_none (not_lt.mp hout)] at hset
          cases hset
  · intro h
    obtain ⟨mm', heq, -⟩ := mm.setBits_spec b h
    rw [heq]
    rfl

/-- Setting bits does not change the range that is searched. -/
theorem setBits_sameRange {b : Bool} (h : mm.setBits b start n = some mm') : SameRange mm mm' := by
  have hn : ∀ k < n, start + k < kFrameCount := (mm.setBits_isSome_iff b).mp (h ▸ rfl)
  obtain ⟨mm'', heq, hsame, -⟩ := mm.setBits_spec b hn
  rw [h] at heq
  cases heq
  exact hsame

/-- `MarkAllocated` adds its frames. -/
theorem markAllocated_spec (mm : BitmapMemoryManager) (hn : ∀ k < n, start + k < kFrameCount) :
    ∃ mm', mm.markAllocated start n = some mm' ∧ SameRange mm mm' ∧
      mm'.used = mm.used ∪ frames start n := by
  obtain ⟨mm', heq, hsame, hused⟩ := mm.setBits_spec true hn
  refine ⟨mm', heq, hsame, Set.ext fun g => ?_⟩
  rw [hused]
  split_ifs with hg
  · simp [frames, hg]
  · exact ⟨fun h => Or.inl h, fun h => h.resolve_right hg⟩

/-- `Free` removes its frames. -/
theorem free_spec (mm : BitmapMemoryManager) (hn : ∀ k < n, start + k < kFrameCount) :
    ∃ mm', mm.free start n = some (mm', .kSuccess) ∧ SameRange mm mm' ∧
      mm'.used = mm.used \ frames start n := by
  obtain ⟨mm', heq, hsame, hused⟩ := mm.setBits_spec false hn
  refine ⟨mm', by simp [free, heq], hsame, Set.ext fun g => ?_⟩
  rw [hused]
  split_ifs with hg
  · simp [frames, hg]
  · exact ⟨fun h => ⟨h, hg⟩, fun h => h.1⟩

/-! ## The search -/

/-- The block fits: every frame of it lies below the end of the range and is free. -/
def Fits (mm : BitmapMemoryManager) (n start : Nat) : Prop :=
  ∀ k < n, start + k < mm.rangeEnd ∧ start + k ∉ mm.used

/-- What the inner loop has found when it ends, its counter having started at `i`. -/
def Scan.Sound (mm : BitmapMemoryManager) (start i n : Nat) : Scan → Prop
  | .found => ∀ k, i ≤ k → k < n → start + k < mm.rangeEnd ∧ start + k ∉ mm.used
  | .outOfRange => ∃ k, i ≤ k ∧ k < n ∧ mm.rangeEnd ≤ start + k
  | .used k => i ≤ k ∧ k < n ∧ start + k < mm.rangeEnd ∧ start + k ∈ mm.used

/-- The inner loop stays inside the map, and what it reports is so. -/
theorem scan_spec (hend : mm.rangeEnd ≤ kFrameCount) (start : Nat) {i remaining n : Nat}
    (hn : i + remaining = n) :
    ∃ r, mm.scan start i remaining = some r ∧ Scan.Sound mm start i n r := by
  induction remaining generalizing i with
  | zero => exact ⟨.found, rfl, fun k hk hkn => by omega⟩
  | succ remaining ih =>
      unfold scan
      by_cases hout : start + i ≥ mm.rangeEnd
      · exact ⟨.outOfRange, if_pos hout, i, le_rfl, by omega, hout⟩
      · rw [if_neg hout]
        obtain ⟨b, heq, hb⟩ := mm.getBit_spec (lt_of_lt_of_le (not_le.mp hout) hend)
        cases b with
        | true =>
            exact ⟨.used i, by simp [heq], le_rfl, by omega, by omega, hb.mp rfl⟩
        | false =>
            have hfree : start + i ∉ mm.used := fun h => by simpa using hb.mpr h
            obtain ⟨r, hr, hsound⟩ := ih (i := i + 1) (by omega)
            refine ⟨r, by simp [heq, hr], ?_⟩
            cases r with
            | found =>
                intro k hk hkn
                rcases Nat.eq_or_lt_of_le hk with rfl | hlt
                · exact ⟨by omega, hfree⟩
                · exact hsound k hlt hkn
            | outOfRange =>
                obtain ⟨k, hk, hkn, hout⟩ := hsound
                exact ⟨k, by omega, hkn, hout⟩
            | used k => exact ⟨by have := hsound.1; omega, hsound.2⟩

/-- The two ways `Allocate` ends: with the first block that fits, or with an error because none
does, and then nothing has changed. -/
inductive Allocated (mm : BitmapMemoryManager) (n from_ : Nat) :
    BitmapMemoryManager × Nat × Error → Prop
  | success {mm' : BitmapMemoryManager} {start : Nat} (ge : from_ ≤ start)
      (fits : mm.Fits n start) (first : ∀ s, from_ ≤ s → s < start → ¬mm.Fits n s)
      (same : SameRange mm mm') (used : mm'.used = mm.used ∪ frames start n) :
      Allocated mm n from_ (mm', start, .kSuccess)
  | failure (none : ∀ s, from_ ≤ s → ¬mm.Fits n s) :
      Allocated mm n from_ (mm, kNullFrame, .kNoEnoughMemory)

/-- A block cannot fit on a frame that is in use. -/
theorem not_fits_of_used {k s : Nat} (hs : start ≤ s) (hsk : s ≤ start + k) (hk : k < n)
    (hused : start + k ∈ mm.used) : ¬mm.Fits n s := by
  intro hfits
  have := (hfits (start + k - s) (by omega)).2
  rw [Nat.add_sub_cancel' hsk] at this
  exact this hused

/-- The outer loop is given a round for each frame left, and one more. -/
theorem allocateFrom_spec (hend : mm.rangeEnd ≤ kFrameCount) {rounds : Nat}
    (hrounds : mm.rangeEnd - start < rounds) :
    ∃ r, mm.allocateFrom n rounds start = some r ∧ Allocated mm n start r := by
  induction rounds generalizing start with
  | zero => exact absurd hrounds (Nat.not_lt_zero _)
  | succ rounds ih =>
      obtain ⟨r, hr, hsound⟩ := scan_spec hend start (Nat.zero_add n)
      unfold allocateFrom
      simp only [hr, Option.bind_eq_bind, Option.bind_some]
      cases r with
      | outOfRange =>
          obtain ⟨k, -, hkn, hout⟩ := hsound
          refine ⟨_, rfl, .failure fun s hs hfits => ?_⟩
          have hlt : s + k < mm.rangeEnd := (hfits k hkn).1
          omega
      | found =>
          have hfits : mm.Fits n start := fun k hk => hsound k (by omega) hk
          have hbelow : ∀ k < n, start + k < kFrameCount := fun k hk =>
            lt_of_lt_of_le (hfits k hk).1 hend
          obtain ⟨mm', heq, hsame, hused⟩ := mm.markAllocated_spec hbelow
          exact ⟨(mm', start, .kSuccess), by simp [heq], .success le_rfl hfits
            (fun s hs hlt => by omega) hsame hused⟩
      | used k =>
          obtain ⟨-, hkn, hin, hused⟩ := hsound
          obtain ⟨r, heq, halloc⟩ := @ih (start + (k + 1)) (by omega)
          refine ⟨r, heq, ?_⟩
          have hskip : ∀ s, start ≤ s → s < start + (k + 1) → ¬mm.Fits n s := fun s hs hlt =>
            not_fits_of_used hs (by omega) hkn hused
          cases halloc with
          | success ge fits first same used =>
              refine .success (by omega) fits (fun s hs hlt => ?_) same used
              rcases Nat.lt_or_ge s (start + (k + 1)) with h | h
              · exact hskip s hs h
              · exact first s h hlt
          | failure none =>
              refine .failure fun s hs => ?_
              rcases Nat.lt_or_ge s (start + (k + 1)) with h | h
              · exact hskip s hs h
              · exact none s h

/-- **`Allocate` is first fit**, and total on a range the bitmap covers. -/
theorem allocate_spec (hend : mm.rangeEnd ≤ kFrameCount) (n : Nat) :
    ∃ r, mm.allocate n = some r ∧ Allocated mm n mm.rangeBegin r :=
  allocateFrom_spec hend (Nat.lt_succ_self _)

/-- A block that fits at the beginning of the range is taken there. -/
theorem allocate_at_begin (hend : mm.rangeEnd ≤ kFrameCount) (hfits : mm.Fits n mm.rangeBegin) :
    ∃ mm', mm.allocate n = some (mm', mm.rangeBegin, .kSuccess) ∧ SameRange mm mm' ∧
      mm'.used = mm.used ∪ frames mm.rangeBegin n := by
  obtain ⟨r, heq, hcases⟩ := allocate_spec hend n
  cases hcases with
  | @success mm' start ge fits first same used =>
      obtain rfl : start = mm.rangeBegin := by
        by_contra hne
        exact first mm.rangeBegin le_rfl (lt_of_le_of_ne ge (Ne.symm hne)) hfits
      exact ⟨mm', heq, same, used⟩
  | failure none => exact absurd hfits (none _ le_rfl)

/-- A call that succeeds takes a block of the bitmap, whatever the range is. -/
theorem allocateFrom_success {rounds frame : Nat}
    (h : mm.allocateFrom n rounds start = some (mm', frame, .kSuccess)) :
    start ≤ frame ∧ (∀ k < n, frame + k < kFrameCount) ∧ mm'.used = mm.used ∪ frames frame n := by
  induction rounds generalizing start with
  | zero => cases h
  | succ rounds ih =>
      unfold allocateFrom at h
      obtain ⟨r, -, h⟩ := Option.bind_eq_some_iff.mp h
      cases r with
      | outOfRange => cases h
      | found =>
          obtain ⟨mm₁, hmark, h⟩ := Option.bind_eq_some_iff.mp h
          have hbelow : ∀ k < n, start + k < kFrameCount :=
            (mm.setBits_isSome_iff true).mp (Option.isSome_of_eq_some hmark)
          obtain ⟨mm₂, heq, -, hused⟩ := mm.markAllocated_spec hbelow
          rw [hmark] at heq
          cases heq
          cases h
          exact ⟨le_rfl, hbelow, hused⟩
      | used k =>
          obtain ⟨hle, hblock⟩ := ih h
          exact ⟨by omega, hblock⟩

/-! ## First fit, bit by bit -/

/-- The places where a block of `n` frames can go: it lies within the range and is free. -/
def freeRuns (mm : BitmapMemoryManager) (n : Nat) : Set Nat :=
  {s | mm.rangeBegin ≤ s ∧ s + n ≤ mm.rangeEnd ∧ ∀ k < n, mm.getBit (s + k) = some false}

/-- A frame that the map has is free iff its bit is not set. -/
theorem getBit_eq_false_iff (hf : f < kFrameCount) : mm.getBit f = some false ↔ f ∉ mm.used := by
  obtain ⟨b, heq, hb⟩ := mm.getBit_spec hf
  rw [heq, ← hb]
  simp

/-- Reading the bit of a frame that the map does not have reads outside of `alloc_map_`. -/
theorem getBit_eq_none (hf : kFrameCount ≤ f) : mm.getBit f = none := by
  unfold getBit
  exact dif_neg fun h => absurd (line_lt_iff.mp h) (not_lt.mpr hf)

/-- The places are the ones the search looks for. -/
theorem mem_freeRuns_iff (hend : mm.rangeEnd ≤ kFrameCount) (hn : 1 ≤ n) {s : Nat} :
    s ∈ mm.freeRuns n ↔ mm.rangeBegin ≤ s ∧ mm.Fits n s := by
  constructor
  · rintro ⟨hs, hin, hfree⟩
    refine ⟨hs, fun k hk => ?_⟩
    have hlt : s + k < mm.rangeEnd := by omega
    exact ⟨hlt, (getBit_eq_false_iff (lt_of_lt_of_le hlt hend)).mp (hfree k hk)⟩
  · rintro ⟨hs, hfits⟩
    have hlast : s + (n - 1) < mm.rangeEnd := (hfits (n - 1) (by omega)).1
    refine ⟨hs, by omega, fun k hk => ?_⟩
    obtain ⟨hlt, hfree⟩ := hfits k hk
    exact (getBit_eq_false_iff (lt_of_lt_of_le hlt hend)).mpr hfree

/-- The bits after a block has been marked: its own are set, the others are as before. -/
theorem getBit_of_used_eq (hused : mm'.used = mm.used ∪ frames start n) (f : Nat) :
    mm'.getBit f = if start ≤ f ∧ f < start + n then some true else mm.getBit f := by
  have hmem : f ∈ mm'.used ↔ f ∈ mm.used ∨ start ≤ f ∧ f < start + n := by
    rw [hused, Set.mem_union, mem_frames]
  split_ifs with hin
  · exact hmem.mpr (.inr hin)
  · by_cases hf : f < kFrameCount
    · obtain ⟨b, heq, hb⟩ := mm.getBit_spec hf
      obtain ⟨b', heq', hb'⟩ := mm'.getBit_spec hf
      have hsame : b' = b := by
        rw [Bool.eq_iff_iff, hb, hb', hmem]
        exact ⟨fun h => h.resolve_right hin, Or.inl⟩
      rw [heq, heq', hsame]
    · rw [getBit_eq_none (not_lt.mp hf), getBit_eq_none (not_lt.mp hf)]

/-- **`Allocate` is exactly first fit.** It always ends. If the block fits somewhere, it is put at
the least such place and its bits are set, and no others; else the answer is `kNullFrame` with
`kNoEnoughMemory`, and the manager is the one before. -/
theorem allocate_first_fit (mm : BitmapMemoryManager) (hend : mm.rangeEnd ≤ kFrameCount) {n : Nat}
    (hn : 1 ≤ n) :
    ((mm.freeRuns n).Nonempty → ∃ s mm', IsLeast (mm.freeRuns n) s ∧
      mm.allocate n = some (mm', s, .kSuccess) ∧ SameRange mm mm' ∧
      ∀ f, mm'.getBit f = if s ≤ f ∧ f < s + n then some true else mm.getBit f) ∧
      (¬(mm.freeRuns n).Nonempty →
        mm.allocate n = some (mm, kNullFrame, .kNoEnoughMemory)) := by
  obtain ⟨r, heq, hcases⟩ := allocate_spec hend n
  cases hcases with
  | @success mm' start ge fits first same used =>
      have hstart : start ∈ mm.freeRuns n := (mem_freeRuns_iff hend hn).mpr ⟨ge, fits⟩
      refine ⟨fun _ => ⟨start, mm', ⟨hstart, fun s hs => ?_⟩, heq, same, ?_⟩,
        fun h => absurd ⟨start, hstart⟩ h⟩
      · obtain ⟨hge, hfits⟩ := (mem_freeRuns_iff hend hn).mp hs
        by_contra hlt
        exact first s hge (not_le.mp hlt) hfits
      · exact getBit_of_used_eq used
  | failure none =>
      refine ⟨fun ⟨s, hs⟩ => ?_, fun _ => heq⟩
      obtain ⟨hge, hfits⟩ := (mem_freeRuns_iff hend hn).mp hs
      exact absurd hfits (none s hge)

/-- The frames 1 to 5, of which frame 3 is taken. -/
def gapStart : BitmapMemoryManager where
  allocMap := fun i => if i.val = 0 then 8#64 else 0#64
  rangeBegin := 1
  rangeEnd := 6

/-- Three frames do not fit on either side of the gap, two fit before it. -/
theorem allocate_first_fit_gapStart :
    gapStart.allocate 3 = some (gapStart, kNullFrame, .kNoEnoughMemory) ∧
      ∃ s mm', IsLeast (gapStart.freeRuns 2) s ∧ gapStart.allocate 2 = some (mm', s, .kSuccess) := by
  constructor
  · have hfirst := allocate_first_fit gapStart (by decide) (show 1 ≤ 3 by decide)
    apply hfirst.2
    rintro ⟨s, hs, hin, hfree⟩
    have hs : 1 ≤ s := hs
    have hin : s + 3 ≤ 6 := hin
    have hgap : gapStart.getBit 3 = some true := by decide
    have hbit := hfree (3 - s) (by omega)
    rw [Nat.add_sub_cancel' (by omega), hgap] at hbit
    cases hbit
  · have hfirst := allocate_first_fit gapStart (by decide) (show 1 ≤ 2 by decide)
    have hplace : 1 ∈ gapStart.freeRuns 2 := ⟨le_rfl, by decide, by decide⟩
    obtain ⟨s, mm', hleast, heq, -⟩ := hfirst.1 ⟨1, hplace⟩
    exact ⟨s, mm', hleast, heq⟩

end BitmapMemoryManager

end UhyokOS
