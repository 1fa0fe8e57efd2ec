import UhyokOS.Usb.ControllerMemory

/-!
# The scratchpad buffers

The controller uses every entry of the scratchpad array as a page of its own.

* `Usable`: what the entries must be.
* `scratchpads_usable_iff`: exactly when a successful initialization has made them so.
* `scratchpads_not_usable`: an initialization that succeeds with a null entry.
-/

namespace UhyokOS

open BumpAllocation FueledLoop UsbMemory

/-- A scratchpad buffer. -/
def bufferSpan (buffer : UInt64) : Span := ⟨buffer, 4096⟩

namespace ControllerMemory

/-- The other structures that the controller uses. -/
def structures (mem : ControllerMemory) : List Span :=
  [⟨mem.devices, 72⟩, ⟨mem.deviceContextPointers, 72⟩, ⟨mem.commandRing, 512⟩,
    ⟨mem.eventRing, 512⟩, ⟨mem.segmentTable, 16⟩]

/-- There are `n` entries, and they are the addresses of different pages in the pool that overlap none
of the other structures. -/
structure Usable (memoryPool : UInt64) (n : ℕ) (mem : ControllerMemory) : Prop where
  length : mem.scratchpadBuffers.length = n
  ne_null : ∀ p ∈ mem.scratchpadBuffers, p ≠ 0
  aligned : ∀ p ∈ mem.scratchpadBuffers, 4096 ∣ p.toNat
  distinct : mem.scratchpadBuffers.Nodup
  within : ∀ p ∈ mem.scratchpadBuffers,
    (bufferSpan p).Within ⟨memoryPool, kMemoryPoolSize.toNat⟩
  apart : ∀ p ∈ mem.scratchpadBuffers, ∀ s ∈ mem.structures, (bufferSpan p).Apart s

end ControllerMemory

/-- The pages behind the arrays are enough: 31 with an array that ends on the page of `memory_pool`,
30 otherwise. -/
def ScratchpadsFit (pool n : ℕ) : Prop := n ≤ 30 ∨ n = 31 ∧ pool % 4096 ≤ 3592

instance decidableScratchpadsFit (pool n : ℕ) : Decidable (ScratchpadsFit pool n) := by
  unfold ScratchpadsFit
  infer_instance

/-- The page in which the pool ends. -/
def lastPage (pool : ℕ) : ℕ := (pool + 131072) / 4096 * 4096

/-- What is left of the pool on its last page is not enough for the rings and the segment table, or
it is so near to the end of the address space that they are not allocated. -/
def NoRoomForRings (pool n : ℕ) : Prop :=
  if lastPage pool = 2 ^ 64 - 4096 then n ≤ 31 ∨ n = 32 ∧ pool % 4096 ≤ 3584
  else pool % 4096 < 1040 ∨ 2 ^ 64 - 65536 ≤ lastPage pool

instance decidableNoRoomForRings (pool n : ℕ) : Decidable (NoRoomForRings pool n) := by
  unfold NoRoomForRings
  infer_instance

section steps

variable {memoryPool : UInt64} {hcsparams2 : BitVec 32} {mem : ControllerMemory} {n : ℕ}

/-- The steps of a successful initialization. -/
theorem initializeController_eq_ok_iff (halign : memoryPool.toNat % 64 = 0)
    (hpool : poolEnd memoryPool ≤ 2 ^ 64) :
    initializeController memoryPool hcsparams2 = .ok mem ↔
      memoryPool ≠ 0 ∧ poolEnd memoryPool < 2 ^ 64 ∧
        ∃ scratchpadBufArr scratchpadBuffers mem₁,
          (atPtr memoryPool (contextsAt memoryPool.toNat + 72)).allocScratchpads
            (maxScratchpadBuffers hcsparams2) =
              .ok (scratchpadBufArr, scratchpadBuffers, mem₁) ∧
          ∃ commandRing mem₂, mem₁.initializeRing 32 = .ok (commandRing, mem₂) ∧
            ∃ eventRing segmentTable mem₃,
              mem₂.initializeEventRing 32 = .ok (eventRing, segmentTable, mem₃) ∧
              mem = ⟨memoryPool, UInt64.ofNat (contextsAt memoryPool.toNat), scratchpadBufArr,
                scratchpadBuffers, commandRing, eventRing, segmentTable⟩ := by
  unfold initializeController
  simp only [bind_eq_ok_iff, Prod.exists, Except.ok.injEq]
  constructor
  · rintro ⟨devices, pointers, mem₀, hdevices, arr, buffers, mem₁, harr, ring, mem₂, hring, event,
      table, mem₃, hevent, rfl⟩
    obtain ⟨hne, hend, heq⟩ := (initializeDeviceManager_eq_ok_iff halign hpool).mp hdevices
    cases heq
    exact ⟨hne, hend, arr, buffers, mem₁, harr, ring, mem₂, hring, event, table, mem₃, hevent, rfl⟩
  · rintro ⟨hne, hend, arr, buffers, mem₁, harr, ring, mem₂, hring, event, table, mem₃, hevent, rfl⟩
    exact ⟨_, _, _, (initializeDeviceManager_eq_ok_iff halign hpool).mpr ⟨hne, hend, rfl⟩, arr,
      buffers, mem₁, harr, ring, mem₂, hring, event, table, mem₃, hevent, rfl⟩

/-! ## Buffers that fit -/

theorem mem_pages {page : ℕ} {p : UInt64} (h : p ∈ pages page n) (hroom : page + 4096 * n ≤ 2 ^ 64) :
    ∃ i < n, p = UInt64.ofNat (page + 4096 * i) ∧ p.toNat = page + 4096 * i := by
  obtain ⟨i, hi, rfl⟩ := List.mem_map.mp h
  have hi := List.mem_range.mp hi
  exact ⟨i, hi, rfl, UInt64.toNat_ofNat_of_lt' (show page + 4096 * i < 2 ^ 64 by omega)⟩

/-- Pages in a row follow each other, by induction on their number. -/
theorem pages_stacked {page : ℕ} (hroom : page + 4096 * n < 2 ^ 64) :
    Stacked page ((pages page n).map bufferSpan) (page + 4096 * n) := by
  induction n generalizing page with
  | zero => exact Nat.le_add_right page _
  | succ n ih =>
      have hto : (UInt64.ofNat page).toNat = page :=
        UInt64.toNat_ofNat_of_lt' (show page < 2 ^ 64 by omega)
      have hsum : page + 4096 + 4096 * n = page + 4096 * (n + 1) := by omega
      rw [pages_succ, List.map_cons]
      refine ⟨hto.ge, ?_⟩
      show Stacked ((UInt64.ofNat page).toNat + 4096) _ _
      rw [hto, ← hsum]
      exact ih (by omega)

theorem pages_nodup {page : ℕ} (hroom : page + 4096 * n ≤ 2 ^ 64) : (pages page n).Nodup := by
  refine List.Nodup.map_on (fun i hi j hj heq => ?_) List.nodup_range
  have hi := List.mem_range.mp hi
  have hj := List.mem_range.mp hj
  have hnat := congrArg UInt64.toNat heq
  rw [UInt64.toNat_ofNat_of_lt' (show page + 4096 * i < 2 ^ 64 by omega),
    UInt64.toNat_ofNat_of_lt' (show page + 4096 * j < 2 ^ 64 by omega)] at hnat
  omega

/-- **Buffers between the arrays and the rings** can be used. -/
theorem usable_of_pages (halign : memoryPool.toNat % 64 = 0) (hend : poolEnd memoryPool < 2 ^ 64)
    {page : ℕ} (hpage : 4096 ∣ page) (hpos : 0 < page)
    (hbehind : contextsAt memoryPool.toNat + 72 ≤ page)
    (hbuffers : mem.scratchpadBuffers = pages page n)
    (hdevices : mem.devices = memoryPool)
    (hcontexts : mem.deviceContextPointers = UInt64.ofNat (contextsAt memoryPool.toNat))
    (hrings : Stacked (page + 4096 * n)
      [⟨mem.commandRing, 512⟩, ⟨mem.eventRing, 512⟩, ⟨mem.segmentTable, 16⟩]
      (poolEnd memoryPool)) : mem.Usable memoryPool n := by
  have hroom : page + 4096 * n ≤ poolEnd memoryPool := hrings.le
  have hbounds := contextsAt_bounds halign
  have hto : (UInt64.ofNat (contextsAt memoryPool.toNat)).toNat = contextsAt memoryPool.toNat :=
    UInt64.toNat_ofNat_of_lt' (show _ < 2 ^ 64 by omega)
  have harrays : Stacked memoryPool.toNat
      [⟨mem.devices, 72⟩, ⟨mem.deviceContextPointers, 72⟩] page := by
    rw [hdevices, hcontexts]
    refine ⟨le_rfl, ?_, ?_⟩
    · show memoryPool.toNat + 72 ≤ (UInt64.ofNat (contextsAt memoryPool.toNat)).toNat
      omega
    · show (UInt64.ofNat (contextsAt memoryPool.toNat)).toNat + 72 ≤ page
      omega
  have hpages : Stacked page ((pages page n).map bufferSpan) (page + 4096 * n) :=
    pages_stacked (by omega)
  have hall := (harrays.append hpages).append hrings
  have hapart := hall.apart hend.le
  rw [List.pairwise_append, List.pairwise_append] at hapart
  obtain ⟨⟨-, -, hbefore⟩, -, hafter⟩ := hapart
  have hmem : ∀ p ∈ mem.scratchpadBuffers, ∃ i < n, p.toNat = page + 4096 * i := by
    intro p hp
    obtain ⟨i, hi, -, hto⟩ := mem_pages (hbuffers ▸ hp) (by omega)
    exact ⟨i, hi, hto⟩
  have hspan : ∀ p ∈ mem.scratchpadBuffers, bufferSpan p ∈ (pages page n).map bufferSpan :=
    fun p hp => List.mem_map_of_mem (hbuffers ▸ hp)
  refine ⟨?_, fun p hp hnull => ?_, fun p hp => ?_, ?_, fun p hp => ?_, fun p hp s hs => ?_⟩
  · rw [hbuffers, pages, List.length_map, List.length_range]
  · obtain ⟨i, -, hto⟩ := hmem p hp
    rw [hnull, UInt64.toNat_zero] at hto
    omega
  · obtain ⟨i, -, hto⟩ := hmem p hp
    rw [hto]
    exact Nat.dvd_add hpage (Nat.dvd_mul_right 4096 i)
  · rw [hbuffers]
    exact pages_nodup (by omega)
  · exact hpages.within (hspan p hp) (show memoryPool.toNat ≤ page by omega) hroom hend.le
  · -- the first two structures are before the pages, the others behind
    rcases List.mem_append.mp (show s ∈ [⟨mem.devices, 72⟩, ⟨mem.deviceContextPointers, 72⟩] ++
      [⟨mem.commandRing, 512⟩, ⟨mem.eventRing, 512⟩, ⟨mem.segmentTable, 16⟩] from hs) with hs | hs
    · exact (hbefore s hs _ (hspan p hp)).symm
    · exact hafter _ (List.mem_append_right _ (hspan p hp)) s hs

/-- **The buffers fit.** -/
theorem usable_of_fit (halign : memoryPool.toNat % 64 = 0) (hpool : poolEnd memoryPool ≤ 2 ^ 64)
    (hfit : ScratchpadsFit memoryPool.toNat (maxScratchpadBuffers hcsparams2))
    (h : initializeController memoryPool hcsparams2 = .ok mem) :
    mem.Usable memoryPool (maxScratchpadBuffers hcsparams2) := by
  obtain ⟨hne, hend, arr, buffers, mem₁, harr, ring, mem₂, hring, event, table, mem₃, hevent, rfl⟩ :=
    (initializeController_eq_ok_iff halign hpool).mp h
  have hlt := maxScratchpadBuffers_lt hcsparams2
  generalize maxScratchpadBuffers hcsparams2 = n at *
  rcases Nat.eq_zero_or_pos n with rfl | hpos
  · -- there is no array
    cases harr
    have hnone : ∀ p : UInt64, p ∉ ([] : List UInt64) := fun _ => List.not_mem_nil
    exact ⟨rfl, fun p hp => absurd hp (hnone p), fun p hp => absurd hp (hnone p), List.nodup_nil,
      fun p hp => absurd hp (hnone p), fun p hp => absurd hp (hnone p)⟩
  · have hpage := (firstPage_le_iff halign hpos).mpr hfit
    have hbounds := contextsAt_bounds halign
    have harray := arrayAt_bounds (n := n) halign
    have hround : roundUp (arrayAt memoryPool.toNat n + 8 * n) 4096 =
        firstPage memoryPool.toNat n := rfl
    have hfirst := (le_roundUp (arrayAt memoryPool.toNat n + 8 * n) 4096).trans_eq hround
    obtain ⟨k, rfl⟩ : ∃ k, n = k + 1 := ⟨n - 1, by omega⟩
    rw [allocScratchpads_eq halign hend hpos hlt, allocBuffers_fit hend hround hpage] at harr
    cases harr
    have hrings := rings_stacked hend rfl hring hevent
    rw [toNat_atPtr (lt_of_le_of_lt hpage hend)] at hrings
    exact usable_of_pages halign hend (dvd_roundUp _ (by decide)) (by omega) (by omega) rfl rfl rfl
      hrings

/-! ## Buffers that do not fit -/

/-- The pages are used up, and the loop goes on. -/
theorem exists_full (halign : memoryPool.toNat % 64 = 0) (hend : poolEnd memoryPool < 2 ^ 64)
    (hlt : n < 1024) (hnot : ¬ScratchpadsFit memoryPool.toNat n) :
    ∃ m j, n = m + 1 + (j + 1) ∧
      firstPage memoryPool.toNat n + 4096 * (m + 1) = lastPage memoryPool.toNat ∧
      (atPtr memoryPool (contextsAt memoryPool.toNat + 72)).allocScratchpads n =
        .ok (UInt64.ofNat (arrayAt memoryPool.toNat n),
          pages (firstPage memoryPool.toNat n) (m + 1) ++
            (allocBuffers (j + 1) (atPtr memoryPool (lastPage memoryPool.toNat))).1,
          (allocBuffers (j + 1) (atPtr memoryPool (lastPage memoryPool.toNat))).2) := by
  have hpos : 1 ≤ n := by
    unfold ScratchpadsFit at hnot
    omega
  have hpage := mt (firstPage_le_iff halign hpos).mp hnot
  have hbounds := contextsAt_bounds halign
  have harray := arrayAt_bounds (n := n) halign
  have hround : roundUp (arrayAt memoryPool.toNat n + 8 * n) 4096 =
      firstPage memoryPool.toNat n := rfl
  have hfirst := (roundUp_lt (arrayAt memoryPool.toNat n + 8 * n) (show 4096 ≠ 0 by decide))
  have hdvd := dvd_roundUp (arrayAt memoryPool.toNat n + 8 * n) (show 4096 ≠ 0 by decide)
  rw [hround] at hfirst hdvd
  have hlast : lastPage memoryPool.toNat = (memoryPool.toNat + 131072) / 4096 * 4096 := rfl
  obtain ⟨m, hm⟩ : ∃ m, firstPage memoryPool.toNat n + 4096 * (m + 1) =
      lastPage memoryPool.toNat :=
    ⟨(lastPage memoryPool.toNat - firstPage memoryPool.toNat n) / 4096 - 1, by omega⟩
  obtain ⟨j, hj⟩ : ∃ j, n = m + 1 + (j + 1) := ⟨n - m - 2, by omega⟩
  have hfit : firstPage memoryPool.toNat n + 4096 * (m + 1) ≤ poolEnd memoryPool := by
    have := poolEnd_eq memoryPool
    omega
  refine ⟨m, j, hj, hm, ?_⟩
  rw [allocScratchpads_eq halign hend hpos hlt]
  congr 2
  have hsplit := allocBuffers_add (m + 1) (j + 1)
    (atPtr memoryPool (arrayAt memoryPool.toNat n + 8 * n))
  rw [allocBuffers_fit hend hround hfit, hm, ← hj] at hsplit
  exact hsplit

/-- Below the last page of the address space, the other buffers are null. -/
theorem allocBuffers_low (hend : poolEnd memoryPool < 2 ^ 64)
    (hlow : lastPage memoryPool.toNat ≠ 2 ^ 64 - 4096) (j : ℕ) :
    allocBuffers (j + 1) (atPtr memoryPool (lastPage memoryPool.toNat)) =
      (List.replicate (j + 1) 0, atPtr memoryPool (lastPage memoryPool.toNat)) := by
  have hpoolEnd := poolEnd_eq memoryPool
  have hlast : lastPage memoryPool.toNat = (memoryPool.toNat + 131072) / 4096 * 4096 := rfl
  exact allocBuffers_full hend (roundUp_of_dvd (Nat.dvd_mul_left 4096 _)) (by omega) (by omega)

/-- On the last page of the address space one more buffer is returned, and the others go on at
address 0. -/
theorem allocBuffers_high (hend : poolEnd memoryPool < 2 ^ 64)
    (hhigh : lastPage memoryPool.toNat = 2 ^ 64 - 4096) {j : ℕ} (hj : j < 1024) :
    allocBuffers (j + 1) (atPtr memoryPool (lastPage memoryPool.toNat)) =
      (UInt64.ofNat (2 ^ 64 - 4096) :: pages 0 j, atPtr memoryPool (4096 * j)) := by
  have hpoolEnd := poolEnd_eq memoryPool
  have hlast : lastPage memoryPool.toNat = (memoryPool.toNat + 131072) / 4096 * 4096 := rfl
  rw [hhigh, allocBuffers_succ, allocMem_lastPage]
  cases j with
  | zero => rfl
  | succ j =>
      have hfit : 0 + 4096 * (j + 1) ≤ poolEnd memoryPool := by omega
      simp only
      rw [allocBuffers_fit hend (roundUp_of_dvd (dvd_zero _)) hfit, Nat.zero_add]

/-- **The initialization fails.** -/
theorem not_ok_of_noRoom (halign : memoryPool.toNat % 64 = 0) (hpool : poolEnd memoryPool ≤ 2 ^ 64)
    (hnot : ¬ScratchpadsFit memoryPool.toNat (maxScratchpadBuffers hcsparams2))
    (hroom : NoRoomForRings memoryPool.toNat (maxScratchpadBuffers hcsparams2)) :
    initializeController memoryPool hcsparams2 ≠ .ok mem := by
  intro h
  obtain ⟨-, hend, arr, buffers, mem₁, harr, ring, mem₂, hring, event, table, mem₃, hevent, -⟩ :=
    (initializeController_eq_ok_iff halign hpool).mp h
  have hlt := maxScratchpadBuffers_lt hcsparams2
  generalize maxScratchpadBuffers hcsparams2 = n at *
  obtain ⟨m, j, hn, hm, hfull⟩ := exists_full halign hend hlt hnot
  rw [hfull] at harr
  have hpoolEnd := poolEnd_eq memoryPool
  have hlast : lastPage memoryPool.toNat = (memoryPool.toNat + 131072) / 4096 * 4096 := rfl
  unfold NoRoomForRings at hroom
  split_ifs at hroom with hhigh
  · -- all buffers but the one on the last page are behind address 0
    rw [allocBuffers_high hend hhigh (by omega)] at harr
    cases harr
    have hj : j = 0 := by
      have := (firstPage_le_succ_iff halign (show 1 ≤ n by omega)).mpr hroom
      omega
    obtain ⟨hfirst, hne⟩ := initializeRing_eq_ok_iff.mp hring
    refine hne (allocMem_ring_of_zero ?_ hfirst)
    rw [hj]
    rfl
  · rw [allocBuffers_low hend hhigh] at harr
    cases harr
    have hptr : (atPtr memoryPool (lastPage memoryPool.toNat)).allocPtr.toNat =
        lastPage memoryPool.toNat := toNat_atPtr (by omega)
    rcases hroom with hshort | hnear
    · obtain ⟨hring, hevent, htable, hle⟩ := rings_stacked hend rfl hring hevent
      rw [hptr] at hring
      simp only [Stacked] at hring hevent htable hle
      omega
    · exact not_rings_near_end (by show poolEnd memoryPool + 512 < 2 ^ 64; omega)
        (by rw [hptr]; omega) hring hevent

/-- **The initialization succeeds** with a null entry. -/
theorem exists_null_of_room (halign : memoryPool.toNat % 64 = 0)
    (hpool : poolEnd memoryPool ≤ 2 ^ 64)
    (hnot : ¬ScratchpadsFit memoryPool.toNat (maxScratchpadBuffers hcsparams2))
    (hroom : ¬NoRoomForRings memoryPool.toNat (maxScratchpadBuffers hcsparams2)) :
    ∃ mem, initializeController memoryPool hcsparams2 = .ok mem ∧ 0 ∈ mem.scratchpadBuffers := by
  have hlt := maxScratchpadBuffers_lt hcsparams2
  have hpoolEnd := poolEnd_eq memoryPool
  have hlast : lastPage memoryPool.toNat = (memoryPool.toNat + 131072) / 4096 * 4096 := rfl
  have hnear : lastPage memoryPool.toNat = 2 ^ 64 - 4096 ∨
      lastPage memoryPool.toNat < 2 ^ 64 - 65536 ∧ 1040 ≤ memoryPool.toNat % 4096 := by
    unfold NoRoomForRings at hroom
    split_ifs at hroom with hhigh
    · exact Or.inl hhigh
    · omega
  have hend : poolEnd memoryPool < 2 ^ 64 := by omega
  have hne : memoryPool ≠ 0 := by
    rintro rfl
    rw [UInt64.toNat_zero] at hnear hlast
    omega
  obtain ⟨m, j, hn, hm, hfull⟩ := exists_full halign hend hlt hnot
  rcases hnear with hhigh | ⟨hlow, hrest⟩
  · rw [allocBuffers_high hend hhigh (by omega)] at hfull
    have hj : 1 ≤ j := by
      by_contra hj
      unfold NoRoomForRings at hroom
      rw [if_pos hhigh, ← firstPage_le_succ_iff halign (by omega)] at hroom
      omega
    obtain ⟨hring, hevent⟩ := rings_ok hend (Nat.dvd_mul_right 4096 j) (by omega) (by omega)
      (by omega)
    refine ⟨_, (initializeController_eq_ok_iff halign hpool).mpr ⟨hne, hend, _, _, _, hfull, _, _,
      hring, _, _, _, hevent, rfl⟩, ?_⟩
    obtain ⟨i, rfl⟩ : ∃ i, j = i + 1 := ⟨j - 1, by omega⟩
    have hnull : (0 : UInt64) ∈ pages 0 (i + 1) := by
      rw [pages_succ]
      exact List.mem_cons_self
    exact List.mem_append_right _ (List.mem_cons_of_mem _ hnull)
  · rw [allocBuffers_low hend (by omega)] at hfull
    obtain ⟨hring, hevent⟩ := rings_ok hend (Nat.dvd_mul_left 4096 _) (by omega)
      (show lastPage memoryPool.toNat + 1040 ≤ poolEnd memoryPool by omega) (by omega)
    refine ⟨_, (initializeController_eq_ok_iff halign hpool).mpr ⟨hne, hend, _, _, _, hfull, _, _,
      hring, _, _, _, hevent, rfl⟩, ?_⟩
    exact List.mem_append_right _ (List.mem_replicate.mpr ⟨Nat.succ_ne_zero j, rfl⟩)

end steps

/-- **Exactly when a successful initialization makes the scratchpads usable.** For every address of
`memory_pool`, aligned as it is declared and with room for the pool, and every value of the register:
iff the pages of the pool are enough for the buffers, or the rings are not allocated either. -/
theorem scratchpads_usable_iff {memoryPool : UInt64} (halign : memoryPool.toNat % 64 = 0)
    (hpool : poolEnd memoryPool ≤ 2 ^ 64) (hcsparams2 : BitVec 32) :
    (∀ mem, initializeController memoryPool hcsparams2 = .ok mem →
      mem.Usable memoryPool (maxScratchpadBuffers hcsparams2)) ↔
    ScratchpadsFit memoryPool.toNat (maxScratchpadBuffers hcsparams2) ∨
      NoRoomForRings memoryPool.toNat (maxScratchpadBuffers hcsparams2) := by
  constructor
  · intro h
    by_contra hneither
    obtain ⟨hnot, hroom⟩ := not_or.mp hneither
    obtain ⟨mem, hok, hnull⟩ := exists_null_of_room halign hpool hnot hroom
    exact (h mem hok).ne_null 0 hnull rfl
  · rintro h mem hok
    by_cases hfit : ScratchpadsFit memoryPool.toNat (maxScratchpadBuffers hcsparams2)
    · exact usable_of_fit halign hpool hfit hok
    · exact absurd hok (not_ok_of_noRoom halign hpool hfit (h.resolve_left hfit))

theorem isOk_eightBuffers : (initializeController 0x200440 0x40000000).isOk = true := by decide

/-- A controller that wants 8 buffers gets them. -/
theorem scratchpads_usable_iff_eightBuffers :
    ∃ mem, initializeController 0x200440 0x40000000 = .ok mem ∧ mem.Usable 0x200440 8 := by
  have hok := isOk_eightBuffers
  cases h : initializeController 0x200440 0x40000000 with
  | error e =>
      rw [h] at hok
      cases hok
  | ok mem =>
      have halign : (0x200440 : UInt64).toNat % 64 = 0 := by decide
      exact ⟨mem, rfl, (scratchpads_usable_iff halign (by decide) 0x40000000).mpr
        (Or.inl (by decide)) mem h⟩

/-- **An initialization that succeeds with a null entry.** The controller wants 32 buffers, and the
pool has 31 pages and room for the rings behind them. -/
theorem scratchpads_not_usable :
    ¬∀ (memoryPool : UInt64) (hcsparams2 : BitVec 32) (mem : ControllerMemory),
      memoryPool.toNat % 64 = 0 → poolEnd memoryPool ≤ 2 ^ 64 →
        initializeController memoryPool hcsparams2 = .ok mem →
          mem.Usable memoryPool (maxScratchpadBuffers hcsparams2) := by
  intro hall
  obtain ⟨mem, hok, hnull⟩ : ∃ mem, initializeController 0x200440 0x200000 = .ok mem ∧
      0 ∈ mem.scratchpadBuffers :=
    exists_null_of_room (by decide) (by decide) (by decide) (by decide)
  exact (hall _ _ mem (by decide) (by decide) hok).ne_null 0 hnull rfl

end UhyokOS
