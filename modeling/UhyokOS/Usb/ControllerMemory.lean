import UhyokOS.Lib.FueledLoop
import UhyokOS.Usb.DeviceManager
import UhyokOS.Usb.Memory

/-!
# What the controller gets from the pool

The model of `Controller::Initialize` in `kernel/usb/xhci/xhci.cpp`, as far as it allocates memory, with
the functions that it calls. What they write to registers and to the memory is left out, apart from
the entries of the scratchpad array. `Initialize` is the first to use the pool.

* `initializeDeviceManager_eq`, `allocScratchpads_eq`: the arrays, which always fit.
* `allocBuffers_fit`, `allocBuffers_full`, `allocBuffers_wrap`: the scratchpad buffers, with the pages
  of the pool used up or not.
* `rings_stacked`, `rings_ok`: the rings and the segment table.
-/

namespace UhyokOS

open BumpAllocation FueledLoop

/-! ## The model -/

/-- How a function ends that does not succeed. -/
inductive InitializeFailure
  | error (err : Error)
  /-- A null pointer is used. -/
  | nullPointer
  deriving DecidableEq

/-- Source: `kernel/usb/xhci/registers.hpp`, `HCSPARAMS2_Bitmap`, and `kernel/usb/xhci/xhci.cpp`,
`Controller::Initialize` -/
def maxScratchpadBuffers (hcsparams2 : BitVec 32) : ℕ :=
  (hcsparams2.extractLsb' 27 5).toNat ||| (hcsparams2.extractLsb' 21 5).toNat <<< 5

/-- What `Controller::Initialize` allocates. -/
structure ControllerMemory where
  /-- `devmgr_.devices_` -/
  devices : UInt64
  /-- `devmgr_.device_context_pointers_` -/
  deviceContextPointers : UInt64
  /-- `scratchpad_buf_arr`, null if there is none -/
  scratchpadBufArr : UInt64
  /-- The entries of `scratchpad_buf_arr`. -/
  scratchpadBuffers : List UInt64
  /-- `cr_.buf_` -/
  commandRing : UInt64
  /-- `er_.buf_` -/
  eventRing : UInt64
  /-- `er_.erst_` -/
  segmentTable : UInt64

/-- The size of a pointer. -/
abbrev sizeofPointer : UInt64 := 8

/-- `sizeof(TRB)` and `sizeof(EventRingSegmentTableEntry)` -/
abbrev sizeofRingEntry : UInt64 := 16

/-- `Controller::kDeviceSize` -/
abbrev numDeviceSlots : UInt64 := 8

namespace UsbMemory

/-- An array without which the function fails. -/
def allocOrFail (mem : UsbMemory) (sizeofT numObj : UInt64) (alignment boundary : UInt32) :
    Except InitializeFailure (UInt64 × UsbMemory) :=
  let array := mem.allocArray sizeofT numObj alignment boundary
  if array.1 = 0 then .error (.error .kNoEnoughMemory) else .ok array

/-- Source: `kernel/usb/xhci/devmgr.cpp`, `DeviceManager::Initialize` -/
def initializeDeviceManager (mem : UsbMemory) (maxSlots : UInt64) :
    Except InitializeFailure (UInt64 × UInt64 × UsbMemory) := do
  let (devices, mem) ← mem.allocOrFail sizeofPointer (maxSlots + 1) 0 0
  let (deviceContextPointers, mem) ← mem.allocOrFail sizeofPointer (maxSlots + 1) 64 4096
  .ok (devices, deviceContextPointers, mem)

/-- The loop over the entries of the scratchpad array.
Source: `kernel/usb/xhci/xhci.cpp`, `Controller::Initialize` -/
def allocBuffers : ℕ → UsbMemory → List UInt64 × UsbMemory
  | 0, mem => ([], mem)
  | n + 1, mem =>
      let buffer := mem.allocMem 4096 4096 4096
      let rest := allocBuffers n buffer.2
      (buffer.1 :: rest.1, rest.2)

/-- Source: `kernel/usb/xhci/xhci.cpp`, `Controller::Initialize` -/
def allocScratchpads (mem : UsbMemory) (maxScratchpadBuffers : ℕ) :
    Except InitializeFailure (UInt64 × List UInt64 × UsbMemory) :=
  if maxScratchpadBuffers > 0 then
    let scratchpadBufArr :=
      mem.allocArray sizeofPointer (UInt64.ofNat maxScratchpadBuffers) 64 4096
    if scratchpadBufArr.1 = 0 then .error .nullPointer
    else .ok (scratchpadBufArr.1, scratchpadBufArr.2.allocBuffers maxScratchpadBuffers)
  else .ok (0, [], mem)

/-- Source: `kernel/usb/xhci/ring.cpp`, `Ring::Initialize` -/
def initializeRing (mem : UsbMemory) (bufSize : UInt64) :
    Except InitializeFailure (UInt64 × UsbMemory) :=
  mem.allocOrFail sizeofRingEntry bufSize 64 (64 * 1024)

/-- Source: `kernel/usb/xhci/ring.cpp`, `EventRing::Initialize` -/
def initializeEventRing (mem : UsbMemory) (bufSize : UInt64) :
    Except InitializeFailure (UInt64 × UInt64 × UsbMemory) := do
  let (buf, mem) ← mem.allocOrFail sizeofRingEntry bufSize 64 (64 * 1024)
  let (erst, mem) ← mem.allocOrFail sizeofRingEntry 1 64 (64 * 1024)
  .ok (buf, erst, mem)

end UsbMemory

/-- Source: `kernel/usb/xhci/xhci.cpp`, `Controller::Initialize` -/
def initializeController (memoryPool : UInt64) (hcsparams2 : BitVec 32) :
    Except InitializeFailure ControllerMemory := do
  let (devices, deviceContextPointers, mem) ←
    (UsbMemory.initial memoryPool).initializeDeviceManager numDeviceSlots
  let (scratchpadBufArr, scratchpadBuffers, mem) ←
    mem.allocScratchpads (maxScratchpadBuffers hcsparams2)
  let (commandRing, mem) ← mem.initializeRing 32
  let (eventRing, segmentTable, _) ← mem.initializeEventRing 32
  .ok ⟨devices, deviceContextPointers, scratchpadBufArr, scratchpadBuffers, commandRing, eventRing,
    segmentTable⟩

/-! ## The arrays -/

theorem isAlignment_of_pow {a : ℕ} (k : ℕ) (h : a = 2 ^ k) : IsAlignment a := Or.inr ⟨k, h⟩

/-- Where the device context array goes. -/
def contextsAt (pool : ℕ) : ℕ := place (pool + 72) 72 64 4096

/-- Where the scratchpad array goes. -/
def arrayAt (pool n : ℕ) : ℕ := place (contextsAt pool + 72) (8 * n) 64 4096

/-- The first page behind the arrays. -/
def firstPage (pool n : ℕ) : ℕ := roundUp (arrayAt pool n + 8 * n) 4096

section arrays

variable {pool n : ℕ}

theorem contextsAt_eq (h : pool % 64 = 0) :
    contextsAt pool = if pool % 4096 = 3904 then pool + 192 else pool + 128 := by
  unfold contextsAt place roundUp
  simp only [OfNat.ofNat_ne_zero, if_false]
  split_ifs <;> omega

theorem contextsAt_bounds (h : pool % 64 = 0) :
    pool + 128 ≤ contextsAt pool ∧ contextsAt pool ≤ pool + 192 ∧ contextsAt pool % 64 = 0 := by
  rw [contextsAt_eq h]
  split_ifs <;> omega

/-- The array starts behind the other one, or on the next page. -/
theorem arrayAt_eq (h : pool % 64 = 0) : arrayAt pool n =
    if roundUp (contextsAt pool + 128) 4096 < contextsAt pool + 128 + 8 * n then
      roundUp (contextsAt pool + 128) 4096
    else contextsAt pool + 128 := by
  have hround : roundUp (contextsAt pool + 72) 64 = contextsAt pool + 128 := by
    have := (contextsAt_bounds h).2.2
    unfold roundUp
    simp only [OfNat.ofNat_ne_zero, if_false]
    omega
  rw [arrayAt, place, hround]

theorem arrayAt_bounds (h : pool % 64 = 0) :
    contextsAt pool + 128 ≤ arrayAt pool n ∧ arrayAt pool n < contextsAt pool + 128 + 4096 := by
  rw [arrayAt_eq h]
  have hle := le_roundUp (contextsAt pool + 128) 4096
  have hlt := roundUp_lt (contextsAt pool + 128) (show 4096 ≠ 0 by decide)
  split_ifs
  · exact ⟨hle, hlt⟩
  · exact ⟨le_rfl, by omega⟩

/-- **When the buffers fit.** With up to 31 entries the array takes a page at most; in the page of
`memory_pool` there is room for it if it ends with this page. -/
theorem firstPage_le_iff (h : pool % 64 = 0) (hn : 1 ≤ n) :
    firstPage pool n + 4096 * n ≤ pool + 131072 ↔ n ≤ 30 ∨ n = 31 ∧ pool % 4096 ≤ 3592 := by
  unfold firstPage
  rw [arrayAt_eq h, contextsAt_eq h]
  unfold roundUp
  simp only [OfNat.ofNat_ne_zero, if_false]
  split_ifs <;> omega

/-- With one more page there would be room for one more buffer. -/
theorem firstPage_le_succ_iff (h : pool % 64 = 0) (hn : 1 ≤ n) :
    firstPage pool n + 4096 * n ≤ pool + 131072 + 4096 ↔ n ≤ 31 ∨ n = 32 ∧ pool % 4096 ≤ 3584 := by
  unfold firstPage
  rw [arrayAt_eq h, contextsAt_eq h]
  unfold roundUp
  simp only [OfNat.ofNat_ne_zero, if_false]
  split_ifs <;> omega

end arrays

namespace UsbMemory

variable {memoryPool : UInt64} {n : ℕ}

theorem poolEnd_eq (memoryPool : UInt64) : poolEnd memoryPool = memoryPool.toNat + 131072 := rfl

theorem maxScratchpadBuffers_lt (hcsparams2 : BitVec 32) :
    maxScratchpadBuffers hcsparams2 < 1024 := by
  have hlow := (hcsparams2.extractLsb' 27 5).isLt
  have hhigh := (hcsparams2.extractLsb' 21 5).isLt
  refine Nat.or_lt_two_pow (n := 10) (by omega) ?_
  rw [Nat.shiftLeft_eq]
  omega

theorem allocOrFail_eq_ok_iff {mem mem' : UsbMemory} {sizeofT numObj p : UInt64}
    {alignment boundary : UInt32} :
    mem.allocOrFail sizeofT numObj alignment boundary = .ok (p, mem') ↔
      mem.allocMem (sizeofT * numObj) alignment boundary = (p, mem') ∧ p ≠ 0 := by
  unfold allocOrFail allocArray
  generalize mem.allocMem (sizeofT * numObj) alignment boundary = r
  simp only
  split_ifs with hzero
  · refine iff_of_false (fun h => nomatch h) ?_
    rintro ⟨rfl, hne⟩
    exact hne hzero
  · constructor
    · intro h
      cases h
      exact ⟨rfl, hzero⟩
    · intro h
      rw [h.1]

theorem initial_eq (memoryPool : UInt64) :
    initial memoryPool = atPtr memoryPool memoryPool.toNat := by
  rw [initial, atPtr, UInt64.ofNat_toNat]

/-- An address that is not the null pointer. -/
theorem ofNat_ne_zero {ptr : ℕ} (hpos : 0 < ptr) (hptr : ptr < 2 ^ 64) : UInt64.ofNat ptr ≠ 0 := by
  intro heq
  have := congrArg UInt64.toNat heq
  rw [UInt64.toNat_ofNat_of_lt' hptr, UInt64.toNat_zero] at this
  omega

theorem allocMem_devices (hend : poolEnd memoryPool < 2 ^ 64) :
    (atPtr memoryPool memoryPool.toNat).allocMem (sizeofPointer * (numDeviceSlots + 1)) 0 0 =
      (memoryPool, atPtr memoryPool (memoryPool.toNat + 72)) := by
  have hpoolEnd := poolEnd_eq memoryPool
  rw [allocMem_eq (a := 0) (b := 0) (s := 72) (q := memoryPool.toNat) rfl rfl rfl (Or.inl rfl)
    (Or.inl rfl) hend (by omega) (by rw [roundUp_zero]; omega) (by simp [place]) (by omega),
    if_neg (by omega), UInt64.ofNat_toNat]

/-- A pool that ends at the end of the address space: its end is address 0, and no request is below
this. -/
theorem allocMem_devices_of_end (hend : poolEnd memoryPool = 2 ^ 64) :
    ((atPtr memoryPool memoryPool.toNat).allocMem (sizeofPointer * (numDeviceSlots + 1)) 0 0).1 =
      0 := by
  have hpoolEnd := poolEnd_eq memoryPool
  have hzero : memoryPool + kMemoryPoolSize = 0 := by
    apply UInt64.toNat_inj.mp
    rw [UInt64.toNat_add, ← poolEnd, hend]
    rfl
  have hplaced : placed memoryPool (sizeofPointer * (numDeviceSlots + 1)) 0 0 = memoryPool := rfl
  have hsize : (sizeofPointer * (numDeviceSlots + 1)).toNat = 72 := rfl
  have hlt : (0 : UInt64) < memoryPool + sizeofPointer * (numDeviceSlots + 1) := by
    rw [UInt64.lt_iff_toNat_lt, UInt64.toNat_add, hsize, Nat.mod_eq_of_lt (by omega),
      UInt64.toNat_zero]
    omega
  refine allocMem_of_lt ?_
  rw [atPtr, UInt64.ofNat_toNat, hplaced, hzero]
  exact hlt

theorem allocMem_contexts (halign : memoryPool.toNat % 64 = 0)
    (hend : poolEnd memoryPool < 2 ^ 64) :
    (atPtr memoryPool (memoryPool.toNat + 72)).allocMem
        (sizeofPointer * (numDeviceSlots + 1)) 64 4096 =
      (UInt64.ofNat (contextsAt memoryPool.toNat),
        atPtr memoryPool (contextsAt memoryPool.toNat + 72)) := by
  have hpoolEnd := poolEnd_eq memoryPool
  have hcontexts := contextsAt_bounds halign
  have hround := roundUp_lt (memoryPool.toNat + 72) (show 64 ≠ 0 by decide)
  rw [allocMem_eq (a := 64) (b := 4096) (s := 72) rfl rfl rfl (isAlignment_of_pow 6 rfl)
    (isAlignment_of_pow 12 rfl) hend (by omega) (by omega) rfl (by rw [← contextsAt]; omega),
    ← contextsAt, if_neg (by omega)]

/-- **The arrays of the device manager.** The only pool without room for them is one that ends at the
end of the address space. -/
theorem initializeDeviceManager_eq_ok_iff (halign : memoryPool.toNat % 64 = 0)
    (hpool : poolEnd memoryPool ≤ 2 ^ 64) {result : UInt64 × UInt64 × UsbMemory} :
    (initial memoryPool).initializeDeviceManager numDeviceSlots = .ok result ↔
      memoryPool ≠ 0 ∧ poolEnd memoryPool < 2 ^ 64 ∧
        result = (memoryPool, UInt64.ofNat (contextsAt memoryPool.toNat),
          atPtr memoryPool (contextsAt memoryPool.toNat + 72)) := by
  have hpoolEnd := poolEnd_eq memoryPool
  have hcontexts := contextsAt_bounds halign
  unfold initializeDeviceManager
  simp only [initial_eq, bind_eq_ok_iff, Prod.exists, allocOrFail_eq_ok_iff, Except.ok.injEq]
  constructor
  · rintro ⟨devices, mem, ⟨hdevices, hne⟩, pointers, mem', ⟨hpointers, -⟩, rfl⟩
    have hend : poolEnd memoryPool < 2 ^ 64 := by
      refine lt_of_le_of_ne hpool fun heq => hne ?_
      rw [← allocMem_devices_of_end heq, hdevices]
    rw [allocMem_devices hend] at hdevices
    cases hdevices
    rw [allocMem_contexts halign hend] at hpointers
    cases hpointers
    exact ⟨hne, hend, rfl⟩
  · rintro ⟨hne, hend, rfl⟩
    exact ⟨_, _, ⟨allocMem_devices hend, hne⟩, _, _, ⟨allocMem_contexts halign hend,
      ofNat_ne_zero (by omega) (by omega)⟩, rfl⟩

theorem allocScratchpads_of_pos {mem mem' : UsbMemory} {scratchpadBufArr : UInt64} (hn : 0 < n)
    (harray : mem.allocMem (sizeofPointer * UInt64.ofNat n) 64 4096 = (scratchpadBufArr, mem'))
    (hne : scratchpadBufArr ≠ 0) :
    mem.allocScratchpads n = .ok (scratchpadBufArr, mem'.allocBuffers n) := by
  unfold allocScratchpads allocArray
  rw [if_pos hn, harray, if_neg hne]

/-- **The scratchpad array.** It fits, so its entries are written. -/
theorem allocScratchpads_eq (halign : memoryPool.toNat % 64 = 0)
    (hend : poolEnd memoryPool < 2 ^ 64) (hn : 1 ≤ n) (hlt : n < 1024) :
    (atPtr memoryPool (contextsAt memoryPool.toNat + 72)).allocScratchpads n =
      .ok (UInt64.ofNat (arrayAt memoryPool.toNat n),
        (atPtr memoryPool (arrayAt memoryPool.toNat n + 8 * n)).allocBuffers n) := by
  have hpoolEnd := poolEnd_eq memoryPool
  have hcontexts := contextsAt_bounds halign
  have harray := arrayAt_bounds (n := n) halign
  have hround := roundUp_lt (contextsAt memoryPool.toNat + 72) (show 64 ≠ 0 by decide)
  have hsize : (sizeofPointer * UInt64.ofNat n).toNat = 8 * n := by
    have hpointer : sizeofPointer.toNat = 8 := rfl
    have hn64 : n < 2 ^ 64 := by omega
    rw [UInt64.toNat_mul, UInt64.toNat_ofNat_of_lt' hn64, hpointer, Nat.mod_eq_of_lt (by omega)]
  refine allocScratchpads_of_pos hn ?_ (ofNat_ne_zero (by omega) (by omega))
  rw [allocMem_eq (a := 64) (b := 4096) (s := 8 * n) rfl rfl hsize (isAlignment_of_pow 6 rfl)
    (isAlignment_of_pow 12 rfl) hend (by omega) (by omega) rfl (by rw [← arrayAt]; omega),
    ← arrayAt, if_neg (by omega)]

/-! ## The scratchpad buffers -/

/-- A page goes on the next page. -/
theorem place_page (ptr : ℕ) : place ptr 4096 4096 4096 = roundUp ptr 4096 := by
  have h : roundUp (roundUp ptr 4096) 4096 = roundUp ptr 4096 :=
    roundUp_of_dvd (dvd_roundUp ptr (by decide))
  rw [place, h, ite_self]

variable {ptr page : ℕ}

/-- A page where no address wraps. -/
theorem allocMem_page (hend : poolEnd memoryPool < 2 ^ 64) (hpage : roundUp ptr 4096 = page)
    (hroom : page + 4096 < 2 ^ 64) :
    (atPtr memoryPool ptr).allocMem 4096 4096 4096 =
      if poolEnd memoryPool < page + 4096 then (0, atPtr memoryPool page)
      else (UInt64.ofNat page, atPtr memoryPool (page + 4096)) := by
  have hle := le_roundUp ptr 4096
  exact allocMem_eq (a := 4096) (b := 4096) (s := 4096) rfl rfl rfl (isAlignment_of_pow 12 rfl)
    (isAlignment_of_pow 12 rfl) hend (by omega) (by omega) ((place_page ptr).trans hpage) hroom

theorem allocBuffers_succ (n : ℕ) (mem : UsbMemory) :
    allocBuffers (n + 1) mem = ((mem.allocMem 4096 4096 4096).1 ::
      (allocBuffers n (mem.allocMem 4096 4096 4096).2).1,
        (allocBuffers n (mem.allocMem 4096 4096 4096).2).2) := rfl

theorem allocBuffers_add (m n : ℕ) (mem : UsbMemory) :
    allocBuffers (m + n) mem = ((allocBuffers m mem).1 ++ (allocBuffers n (allocBuffers m mem).2).1,
      (allocBuffers n (allocBuffers m mem).2).2) := by
  induction m generalizing mem with
  | zero =>
      rw [Nat.zero_add]
      rfl
  | succ m ih =>
      rw [Nat.succ_add, allocBuffers_succ, ih, allocBuffers_succ]
      rfl

/-- The addresses of `n` pages in a row. -/
def pages (page n : ℕ) : List UInt64 := (List.range n).map fun i => UInt64.ofNat (page + 4096 * i)

theorem pages_succ (page n : ℕ) : pages page (n + 1) = UInt64.ofNat page :: pages (page + 4096) n := by
  unfold pages
  rw [List.range_succ_eq_map, List.map_cons, List.map_map, Nat.mul_zero, Nat.add_zero]
  refine congrArg _ (List.map_congr_left fun i _ => ?_)
  simp only [Function.comp, Nat.mul_succ]
  rw [Nat.add_assoc, Nat.add_comm 4096]

/-- **Buffers that fit**, by induction on their number. -/
theorem allocBuffers_fit (hend : poolEnd memoryPool < 2 ^ 64) (hpage : roundUp ptr 4096 = page)
    (hfit : page + 4096 * (n + 1) ≤ poolEnd memoryPool) :
    allocBuffers (n + 1) (atPtr memoryPool ptr) =
      (pages page (n + 1), atPtr memoryPool (page + 4096 * (n + 1))) := by
  induction n generalizing ptr page with
  | zero =>
      rw [allocBuffers_succ, allocMem_page hend hpage (by omega), if_neg (by omega), pages_succ]
      simp only [allocBuffers, pages, List.range_zero, List.map_nil, Nat.zero_add, Nat.mul_one]
  | succ n ih =>
      have hroom : page + 4096 < 2 ^ 64 := by omega
      have hfirst : ¬poolEnd memoryPool < page + 4096 := by omega
      have hsum : page + 4096 + 4096 * (n + 1) = page + 4096 * (n + 1 + 1) := by
        rw [Nat.mul_succ 4096 (n + 1), Nat.add_assoc, Nat.add_comm 4096]
      have hdvd : 4096 ∣ page := hpage ▸ dvd_roundUp ptr (by decide)
      have hnext : roundUp (page + 4096) 4096 = page + 4096 :=
        roundUp_of_dvd (Nat.dvd_add_self_right.mpr hdvd)
      rw [allocBuffers_succ, allocMem_page hend hpage hroom, if_neg hfirst,
        ih hnext (hsum.trans_le hfit), ← pages_succ,
        hsum]

/-- **Buffers that do not fit** are null, and the pointer stays on the page where they do not fit. -/
theorem allocBuffers_full (hend : poolEnd memoryPool < 2 ^ 64) (hpage : roundUp ptr 4096 = page)
    (hfull : poolEnd memoryPool < page + 4096) (hroom : page + 4096 < 2 ^ 64) :
    allocBuffers (n + 1) (atPtr memoryPool ptr) =
      (List.replicate (n + 1) 0, atPtr memoryPool page) := by
  induction n generalizing ptr with
  | zero =>
      rw [allocBuffers_succ, allocMem_page hend hpage hroom, if_pos hfull]
      rfl
  | succ n ih =>
      have hstay : roundUp page 4096 = page :=
        roundUp_of_dvd (hpage ▸ dvd_roundUp ptr (by decide))
      rw [allocBuffers_succ, allocMem_page hend hpage hroom, if_pos hfull, ih hstay]
      rfl

/-- The last page of the address space is returned where it does not fit, as its end wraps. -/
theorem allocMem_lastPage (memoryPool : UInt64) :
    (atPtr memoryPool (2 ^ 64 - 4096)).allocMem 4096 4096 4096 =
      (UInt64.ofNat (2 ^ 64 - 4096), atPtr memoryPool 0) := by
  have hplaced : placed (UInt64.ofNat (2 ^ 64 - 4096)) 4096 4096 4096 =
      UInt64.ofNat (2 ^ 64 - 4096) := by decide
  have hsum : UInt64.ofNat (2 ^ 64 - 4096) + 4096 = 0 := by decide
  unfold allocMem atPtr
  simp only [hplaced, hsum]
  rw [if_neg (UInt64.not_lt.mpr UInt64.zero_le)]
  rfl

/-! ## The rings -/

theorem isAlignment_sixtyFour : IsAlignment (64 : UInt32).toNat := isAlignment_of_pow 6 rfl

theorem isAlignment_ringBoundary : IsAlignment (64 * 1024 : UInt32).toNat :=
  isAlignment_of_pow 16 rfl

section rings

variable {mem mem' : UsbMemory} {p buf erst commandRing eventRing segmentTable : UInt64}

theorem initializeRing_eq_ok_iff {bufSize : UInt64} :
    mem.initializeRing bufSize = .ok (buf, mem') ↔
      mem.allocMem (sizeofRingEntry * bufSize) 64 (64 * 1024) = (buf, mem') ∧ buf ≠ 0 :=
  allocOrFail_eq_ok_iff

theorem initializeEventRing_eq_ok_iff {bufSize : UInt64} :
    mem.initializeEventRing bufSize = .ok (buf, erst, mem') ↔
      ∃ mem₁, (mem.allocMem (sizeofRingEntry * bufSize) 64 (64 * 1024) = (buf, mem₁) ∧ buf ≠ 0) ∧
        mem₁.allocMem (sizeofRingEntry * 1) 64 (64 * 1024) = (erst, mem') ∧ erst ≠ 0 := by
  unfold initializeEventRing
  simp only [bind_eq_ok_iff, Prod.exists, allocOrFail_eq_ok_iff, Except.ok.injEq]
  constructor
  · rintro ⟨_, mem₁, hfirst, _, _, hsecond, heq⟩
    cases heq
    exact ⟨mem₁, hfirst, hsecond⟩
  · rintro ⟨mem₁, hfirst, hsecond⟩
    exact ⟨_, mem₁, hfirst, _, _, hsecond, rfl⟩

/-- A block for a ring. -/
theorem allocMem_ring {size : UInt64} (hend : poolEnd mem.memoryPool < 2 ^ 64)
    (hsize : size.toNat ≤ 65536) (h : mem.allocMem size 64 (64 * 1024) = (p, mem')) (hne : p ≠ 0) :
    mem'.memoryPool = mem.memoryPool ∧ mem.allocPtr.toNat ≤ p.toNat ∧ 64 ∣ p.toNat ∧
      ((p.toNat + size.toNat ≤ poolEnd mem.memoryPool ∧
          mem'.allocPtr.toNat = p.toNat + size.toNat) ∨
        (p.toNat + size.toNat = 2 ^ 64 ∧ mem'.allocPtr = 0)) := by
  obtain ⟨hpool, hle, hdvd, hroom⟩ := allocMem_spec isAlignment_sixtyFour
    isAlignment_ringBoundary hend (by decide) hsize h hne
  exact ⟨hpool, hle, hdvd (by decide), hroom⟩

/-- At address 0 there is no room for a ring. -/
theorem allocMem_ring_of_zero {size : UInt64} (hzero : mem.allocPtr = 0)
    (h : mem.allocMem size 64 (64 * 1024) = (p, mem')) : p = 0 :=
  allocMem_of_zero isAlignment_sixtyFour isAlignment_ringBoundary hzero h

/-- **Rings that were allocated** follow each other up to the end of the pool. -/
theorem rings_stacked (hend : poolEnd memoryPool < 2 ^ 64) (hpool : mem.memoryPool = memoryPool)
    (hring : mem.initializeRing 32 = .ok (commandRing, mem'))
    {mem'' : UsbMemory}
    (hevent : mem'.initializeEventRing 32 = .ok (eventRing, segmentTable, mem'')) :
    Stacked mem.allocPtr.toNat [⟨commandRing, 512⟩, ⟨eventRing, 512⟩, ⟨segmentTable, 16⟩]
      (poolEnd memoryPool) := by
  subst hpool
  obtain ⟨hfirst, hne⟩ := initializeRing_eq_ok_iff.mp hring
  obtain ⟨mem₁, ⟨hsecond, hne'⟩, hthird, hne''⟩ := initializeEventRing_eq_ok_iff.mp hevent
  have hsize : (sizeofRingEntry * 32).toNat = 512 := rfl
  have hsize' : (sizeofRingEntry * 1).toNat = 16 := rfl
  obtain ⟨hpool, hle, -, ⟨hroom, hptr⟩ | ⟨-, hzero⟩⟩ := allocMem_ring hend (by decide) hfirst hne
  · rw [← hpool] at hend
    obtain ⟨hpool', hle', -, ⟨hroom', hptr'⟩ | ⟨-, hzero⟩⟩ :=
      allocMem_ring hend (by decide) hsecond hne'
    · rw [← hpool'] at hend
      obtain ⟨-, hle'', hdvd, ⟨hroom'', -⟩ | ⟨hwrap, -⟩⟩ :=
        allocMem_ring hend (by decide) hthird hne''
      · rw [hsize] at hroom hptr hroom' hptr'
        rw [hsize'] at hroom''
        rw [hpool', hpool] at hroom''
        exact ⟨hle, hptr ▸ hle', hptr' ▸ hle'', hroom''⟩
      · rw [hsize'] at hwrap
        omega
    · exact absurd (allocMem_ring_of_zero hzero hthird) hne''
  · exact absurd (allocMem_ring_of_zero hzero hsecond) hne'

/-- **Rings on a page** with enough room, away from the end of the address space. -/
theorem rings_ok {ptr : ℕ} (hend : poolEnd memoryPool < 2 ^ 64) (hpage : 4096 ∣ ptr) (hpos : 0 < ptr)
    (hroom : ptr + 1040 ≤ poolEnd memoryPool) (hlow : ptr + 4096 + 65536 ≤ 2 ^ 64) :
    (atPtr memoryPool ptr).initializeRing 32 =
        .ok (UInt64.ofNat ptr, atPtr memoryPool (ptr + 512)) ∧
      (atPtr memoryPool (ptr + 512)).initializeEventRing 32 =
        .ok (UInt64.ofNat (ptr + 512), UInt64.ofNat (ptr + 1024),
          atPtr memoryPool (ptr + 1040)) := by
  obtain ⟨k, rfl⟩ := hpage
  -- none of the three blocks reaches the end of the page
  have hblock : ∀ (size : UInt64) (d s : ℕ), size.toNat = s → d % 64 = 0 → d + s ≤ 1040 →
      (atPtr memoryPool (4096 * k + d)).allocMem size 64 (64 * 1024) =
        (UInt64.ofNat (4096 * k + d), atPtr memoryPool (4096 * k + d + s)) := by
    intro size d s hsize hd hle
    have hround : roundUp (4096 * k + d) 64 = 4096 * k + d := roundUp_of_dvd (by omega)
    have hplace : place (4096 * k + d) s 64 65536 = 4096 * k + d := by
      rw [place, hround]
      have hle := le_roundUp (4096 * k + d) 65536
      have hdvd := dvd_roundUp (4096 * k + d) (show 65536 ≠ 0 by decide)
      split_ifs with hlt
      · omega
      · rfl
    rw [allocMem_eq (a := 64) (b := 65536) (s := s) rfl rfl hsize isAlignment_sixtyFour
      isAlignment_ringBoundary hend (by omega) (by omega) hplace (by omega), if_neg (by omega)]
  refine ⟨initializeRing_eq_ok_iff.mpr ⟨?_, ofNat_ne_zero hpos (by omega)⟩,
    initializeEventRing_eq_ok_iff.mpr ⟨_, ⟨hblock _ 512 512 rfl rfl (by decide),
      ofNat_ne_zero (by omega) (by omega)⟩, ?_, ofNat_ne_zero (by omega) (by omega)⟩⟩
  · exact hblock _ 0 512 rfl rfl (by decide)
  · exact hblock _ 1024 16 rfl rfl (by decide)

/-- In the last 64 KiB of the address space the next boundary wraps to the null pointer. -/
theorem allocMem_ring_near_end {size : UInt64} (hdvd : 64 ∣ mem.allocPtr.toNat)
    (hnear : 2 ^ 64 - 65536 < mem.allocPtr.toNat) (hroom : mem.allocPtr.toNat + size.toNat < 2 ^ 64)
    (h : mem.allocMem size 64 (64 * 1024) = (p, mem')) : p = 0 := by
  have hplaced : placed mem.allocPtr size 64 (64 * 1024) = 0 := by
    have hfirst : alignTo mem.allocPtr 64 = mem.allocPtr := by
      apply UInt64.toNat_inj.mp
      rw [toNat_alignTo isAlignment_sixtyFour]
      · exact roundUp_of_dvd hdvd
      · have h64 : (64 : UInt32).toNat = 64 := rfl
        omega
    have hsecond : alignTo mem.allocPtr (64 * 1024) = 0 := by
      rw [alignTo, if_pos (by decide)]
      exact ceil_of_lt (k := 16) rfl (by omega)
    have hlt : (0 : UInt64) < mem.allocPtr + size := by
      rw [UInt64.lt_iff_toNat_lt, UInt64.toNat_add, Nat.mod_eq_of_lt hroom, UInt64.toNat_zero]
      omega
    rw [placed_eq, hfirst, hsecond, if_pos hlt]
  unfold allocMem at h
  simp only [hplaced] at h
  split_ifs at h <;> exact (Prod.mk.inj h).1.symm

/-- There the event ring is never allocated. -/
theorem not_rings_near_end (hend : poolEnd mem.memoryPool + 512 < 2 ^ 64)
    (hnear : 2 ^ 64 - 65536 ≤ mem.allocPtr.toNat)
    (hring : mem.initializeRing 32 = .ok (commandRing, mem')) {mem'' : UsbMemory} :
    mem'.initializeEventRing 32 ≠ .ok (eventRing, segmentTable, mem'') := by
  intro hevent
  obtain ⟨hfirst, hne⟩ := initializeRing_eq_ok_iff.mp hring
  obtain ⟨mem₁, ⟨hsecond, hne'⟩, -⟩ := initializeEventRing_eq_ok_iff.mp hevent
  have hsize : (sizeofRingEntry * 32).toNat = 512 := rfl
  obtain ⟨hpool, hle, hdvd, ⟨hroom, hptr⟩ | ⟨-, hzero⟩⟩ :=
    allocMem_ring (by omega) (by decide) hfirst hne
  · rw [hsize] at hroom hptr
    exact hne' (allocMem_ring_near_end (by omega) (by omega) (by omega) hsecond)
  · exact hne' (allocMem_ring_of_zero hzero hsecond)

end rings

end UsbMemory

end UhyokOS
