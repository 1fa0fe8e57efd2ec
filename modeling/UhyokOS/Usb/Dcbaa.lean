import UhyokOS.Lib.Transition
import UhyokOS.Usb.Xhci
import Mathlib.Data.UInt

/-!
# The device context base array

Entry 0 of the array is the scratchpad array, the others are the device contexts of the slots. The
controller writes to these addresses, so an entry must never be anything else.

* `Intact`: what the array and the devices must be.
* `handle_devmgr`: only the completion of an Enable Slot command changes the device manager.
* `scratchpad_kept_iff`: the array stays intact iff no such completion with slot 0 is accepted.
* `scratchpad_overwritten`: a failed Enable Slot command reports slot 0.
-/

namespace UhyokOS

open Transition

namespace DeviceManager

/-- Entry 0 is what `Initialize` stored, there is no device for slot 0, and any other entry is null
or the context of the device that was allocated for its slot. -/
structure Intact (scratchpad : BitVec 64) (devmgr : DeviceManager) : Prop where
  entryZero : devmgr.deviceContextPointers[0]? = some scratchpad
  noDevice : devmgr.deviceAt 0 = none
  entries : ∀ (slotId : UInt8) (p : BitVec 64), slotId ≠ 0 →
    devmgr.deviceContextPointers[slotId.toNat]? = some p → p = 0 ∨
      ∃ dev, devmgr.deviceAt slotId = some dev ∧ dev.slotId = slotId ∧ p = dev.deviceContext

/-- The arrays have an entry for each slot, and the devices know theirs. -/
structure WellFormed (devmgr : DeviceManager) : Prop where
  length : devmgr.devices.length = devmgr.maxSlots + 1
  slotId : ∀ slotId dev, devmgr.deviceAt slotId = some dev → dev.slotId = slotId

variable {devmgr devmgr' : DeviceManager} {scratchpad : BitVec 64} {slotId : UInt8}
  {allocated : Option (BitVec 64)}

/-- Slot 0 is the only one with index 0. -/
theorem toNat_ne_zero (h : slotId ≠ 0) : slotId.toNat ≠ 0 := by
  intro hzero
  exact h (UInt8.toNat_inj.mp hzero)

/-- **What `AllocDevice` does.** -/
theorem allocDevice_cases
    (h : (devmgr.allocDevice slotId allocated).map Prod.snd = some devmgr') :
    devmgr' = devmgr ∨ (slotId.toNat ≤ devmgr.maxSlots ∧ devmgr.deviceAt slotId = none ∧
      ∃ deviceContext, devmgr' = { devmgr with
        devices := devmgr.devices.set slotId.toNat (some ⟨slotId, deviceContext⟩) }) := by
  unfold allocDevice at h
  split_ifs at h with hslot hnull
  · cases h
    exact Or.inl rfl
  · cases h
    exact Or.inl rfl
  · rw [Option.map_map] at h
    obtain ⟨deviceContext, -, rfl⟩ := Option.map_eq_some_iff.mp h
    exact Or.inr ⟨by omega, not_not.mp hnull, deviceContext, rfl⟩

/-- **What `LoadDCBAA` does.** -/
theorem loadDCBAA_cases (h : (devmgr.loadDCBAA slotId).map Prod.snd = some devmgr') :
    devmgr' = devmgr ∨ ∃ dev, devmgr.deviceAt slotId = some dev ∧ devmgr' = { devmgr with
      deviceContextPointers := devmgr.deviceContextPointers.set slotId.toNat dev.deviceContext } := by
  unfold loadDCBAA at h
  split_ifs at h
  · cases h
    exact Or.inl rfl
  · rw [Option.map_map] at h
    obtain ⟨dev, hdev, rfl⟩ := Option.map_eq_some_iff.mp h
    exact Or.inr ⟨dev, hdev, rfl⟩

/-- The slot of a new device, and all others. -/
theorem deviceAt_set (dev : Device) (other : UInt8) (hlt : slotId.toNat < devmgr.devices.length) :
    ({ devmgr with devices := devmgr.devices.set slotId.toNat (some dev) }).deviceAt other =
      if other = slotId then some dev else devmgr.deviceAt other := by
  unfold deviceAt
  simp only
  split_ifs with heq
  · rw [heq, List.getElem?_set_self hlt]
    rfl
  · rw [List.getElem?_set_ne fun hindex => heq (UInt8.toNat_inj.mp hindex).symm]

/-- A device that is allocated is at the place of its slot id. -/
theorem WellFormed.allocDevice (h : devmgr.WellFormed)
    (halloc : (devmgr.allocDevice slotId allocated).map Prod.snd = some devmgr') :
    devmgr'.WellFormed := by
  rcases allocDevice_cases halloc with rfl | ⟨hslot, -, deviceContext, rfl⟩
  · exact h
  · have hlt : slotId.toNat < devmgr.devices.length := by
      rw [h.length]
      omega
    refine ⟨?_, fun other dev hdev => ?_⟩
    · rw [List.length_set]
      exact h.length
    · rw [deviceAt_set _ _ hlt] at hdev
      split_ifs at hdev with heq
      · cases hdev
        exact heq.symm
      · exact h.slotId other dev hdev

/-- Loading the array changes no device. -/
theorem WellFormed.loadDCBAA (h : devmgr.WellFormed)
    (hload : (devmgr.loadDCBAA slotId).map Prod.snd = some devmgr') : devmgr'.WellFormed := by
  rcases loadDCBAA_cases hload with rfl | ⟨dev, -, rfl⟩
  · exact h
  · exact ⟨h.length, h.slotId⟩

/-- A device for another slot than 0. -/
theorem Intact.allocDevice (h : devmgr.Intact scratchpad) (hwf : devmgr.WellFormed)
    (hslot : slotId ≠ 0)
    (halloc : (devmgr.allocDevice slotId allocated).map Prod.snd = some devmgr') :
    devmgr'.Intact scratchpad := by
  rcases allocDevice_cases halloc with rfl | ⟨hle, hnull, deviceContext, rfl⟩
  · exact h
  · have hlt : slotId.toNat < devmgr.devices.length := by
      rw [hwf.length]
      omega
    refine ⟨h.entryZero, ?_, fun other p hother hp => ?_⟩
    · rw [deviceAt_set _ _ hlt, if_neg hslot.symm]
      exact h.noDevice
    · rw [deviceAt_set _ _ hlt]
      rcases h.entries other p hother hp with hnone | ⟨dev, hdev, hid, hp⟩
      · exact Or.inl hnone
      · right
        have hne : other ≠ slotId := by
          rintro rfl
          rw [hnull] at hdev
          cases hdev
        rw [if_neg hne]
        exact ⟨dev, hdev, hid, hp⟩

/-- The entry of another slot than 0. -/
theorem Intact.loadDCBAA (h : devmgr.Intact scratchpad) (hwf : devmgr.WellFormed)
    (hslot : slotId ≠ 0) (hload : (devmgr.loadDCBAA slotId).map Prod.snd = some devmgr') :
    devmgr'.Intact scratchpad := by
  rcases loadDCBAA_cases hload with rfl | ⟨dev, hdev, rfl⟩
  · exact h
  · refine ⟨?_, h.noDevice, fun other p hother hp => ?_⟩
    · rw [List.getElem?_set_ne (toNat_ne_zero hslot)]
      exact h.entryZero
    · by_cases heq : other = slotId
      · right
        obtain ⟨hlt, rfl⟩ := List.getElem?_eq_some_iff.mp hp
        refine ⟨dev, heq ▸ hdev, heq ▸ hwf.slotId slotId dev hdev, ?_⟩
        simp only [heq, List.getElem_set_self]
      · rw [List.getElem?_set_ne fun hindex => heq (UInt8.toNat_inj.mp hindex).symm] at hp
        exact h.entries other p hother hp

/-- A device for slot 0 is new if there was none. -/
theorem noDevice_of_allocDevice_zero (hwf : devmgr.WellFormed) (hnone : devmgr.deviceAt 0 = none)
    (halloc : (devmgr.allocDevice 0 allocated).map Prod.snd = some devmgr') :
    devmgr'.deviceAt 0 ≠ none := by
  have hslot : ¬(0 : UInt8).toNat > devmgr.maxSlots := Nat.not_lt_zero _
  unfold DeviceManager.allocDevice at halloc
  rw [if_neg hslot, if_neg (not_not.mpr hnone), Option.map_map] at halloc
  obtain ⟨deviceContext, -, rfl⟩ := Option.map_eq_some_iff.mp halloc
  have hlt : (0 : UInt8).toNat < devmgr.devices.length := by
    rw [hwf.length]
    exact Nat.succ_pos _
  show ({ devmgr with devices := _ } : DeviceManager).deviceAt 0 ≠ none
  rw [deviceAt_set _ _ hlt, if_pos rfl]
  exact Option.some_ne_none _

end DeviceManager

namespace Controller

open DeviceManager

variable {xhc xhc' : Controller} {r : Readings} {err : Error} {scratchpad : BitVec 64}

/-- The handlers of the other completions leave the device manager alone. -/
theorem resetPort_devmgr (xhc : Controller) (port : Port) :
    (xhc.resetPort port).2.devmgr = xhc.devmgr := by
  unfold resetPort
  split_ifs <;> rfl

/-- The next port in the queue does not concern the device manager. -/
theorem handOver_devmgr (xhc : Controller) (r : Readings) :
    (xhc.handOver r).2.devmgr = xhc.devmgr := by
  unfold handOver
  split
  · rfl
  · exact resetPort_devmgr xhc _

/-- The completion of Address Device does not concern the array. -/
theorem onAddressDeviceCompletion_devmgr (xhc : Controller) (r : Readings) (slotId : UInt8) :
    (xhc.onAddressDeviceCompletion r slotId).2.devmgr = xhc.devmgr := by
  unfold onAddressDeviceCompletion initializeDevice
  split
  · rfl
  · simp only
    split_ifs
    · rfl
    · rfl
    · exact handOver_devmgr _ r
    · exact handOver_devmgr _ r
    · exact handOver_devmgr _ r

/-- The completion of Configure Endpoint does not concern the array. -/
theorem onConfigureEndpointCompletion_devmgr (xhc : Controller) (r : Readings) (slotId : UInt8) :
    (xhc.onConfigureEndpointCompletion r slotId).2.devmgr = xhc.devmgr := by
  unfold onConfigureEndpointCompletion completeConfiguration
  split
  · rfl
  · simp only
    split_ifs <;> rfl

/-- Enabling a slot is a command only, whose completion tells the slot. -/
theorem enableSlot_devmgr (xhc : Controller) (port : Port) :
    (xhc.enableSlot port).2.devmgr = xhc.devmgr := by
  unfold enableSlot
  split_ifs <;> rfl

/-- Configuring the endpoints writes the input context, which the array does not point to. -/
theorem configureEndpoints_devmgr {dev : Device}
    (h : xhc.configureEndpoints r dev = some (err, xhc')) : xhc'.devmgr = xhc.devmgr := by
  unfold configureEndpoints at h
  simp only at h
  split_ifs at h <;> cases h <;> rfl

/-- Apart from the completion of Enable Slot no handler concerns the device manager. -/
theorem Handled.devmgr (h : Handled r xhc xhc') : xhc'.devmgr = xhc.devmgr := by
  cases h with
  | same => rfl
  | resetPort => exact resetPort_devmgr xhc _
  | enableSlot => exact enableSlot_devmgr xhc _
  | configureEndpoints _ hconfigured => exact configureEndpoints_devmgr hconfigured
  | addressDeviceCompletion => exact onAddressDeviceCompletion_devmgr xhc r _
  | configureEndpointCompletion => exact onConfigureEndpointCompletion_devmgr xhc r _

/-- **Only addressing a device changes the device manager.** -/
theorem handle_devmgr {event : XhciEvent} (h : xhc.handle r event = some (err, xhc')) :
    (xhc'.devmgr = xhc.devmgr ∧ ∀ slotId, ¬xhc.Addresses event slotId) ∨
      ∃ slotId, xhc.Addresses event slotId ∧ ∃ devmgr,
        (xhc.devmgr.allocDevice slotId r.deviceContext).map Prod.snd = some devmgr ∧
          (xhc'.devmgr = devmgr ∨ (devmgr.loadDCBAA slotId).map Prod.snd = some xhc'.devmgr) := by
  rcases handle_cases h with ⟨slotId, haddresses, haddress⟩ | ⟨hnone, hhandled⟩
  · obtain ⟨devmgr, halloc, hcases⟩ := addressDevice_cases haddress
    refine Or.inr ⟨slotId, haddresses, devmgr, halloc, ?_⟩
    rcases hcases with ⟨-, rfl⟩ | ⟨devmgr', hload, rfl⟩
    · exact Or.inl rfl
    · exact Or.inr hload
  · exact Or.inl ⟨hhandled.devmgr, hnone⟩

/-! ## Runs -/

/-- No device is addressed for slot 0. -/
def NoSlotZero (xhc : Controller) (op : XhciEvent × Readings) : Prop := ¬xhc.Addresses op.1 0

/-- **One event is exact.** -/
theorem intact_iff (hwf : xhc.devmgr.WellFormed) (hintact : xhc.devmgr.Intact scratchpad)
    {op : XhciEvent × Readings} (hs : xhc.step op = some xhc') :
    xhc'.devmgr.WellFormed ∧ (xhc'.devmgr.Intact scratchpad ↔ xhc.NoSlotZero op) := by
  obtain ⟨⟨err, xhc''⟩, hhandle, rfl⟩ := Option.map_eq_some_iff.mp hs
  rcases handle_devmgr hhandle with ⟨heq, hnone⟩ | ⟨slotId, haddresses, devmgr, halloc, hload⟩
  · show xhc''.devmgr.WellFormed ∧ (xhc''.devmgr.Intact scratchpad ↔ xhc.NoSlotZero op)
    rw [heq]
    exact ⟨hwf, iff_of_true hintact (hnone 0)⟩
  · have hwf' := hwf.allocDevice halloc
    show xhc''.devmgr.WellFormed ∧ (xhc''.devmgr.Intact scratchpad ↔ xhc.NoSlotZero op)
    refine ⟨?_, ?_⟩
    · rcases hload with heq | hload
      · rw [heq]
        exact hwf'
      · exact hwf'.loadDCBAA hload
    · by_cases hzero : slotId = 0
      · -- the new device for slot 0 stays
        subst hzero
        refine iff_of_false (fun hintact' => ?_) (not_not.mpr haddresses)
        have hdevice := noDevice_of_allocDevice_zero hwf hintact.noDevice halloc
        have hnone := hintact'.noDevice
        rcases hload with heq | hload
        · exact hdevice (heq ▸ hnone)
        · rcases loadDCBAA_cases hload with heq | ⟨dev, -, heq⟩
          · exact hdevice (heq ▸ hnone)
          · rw [heq] at hnone
            exact hdevice hnone
      · refine iff_of_true ?_ fun hzero' => hzero ?_
        · have hintact' := hintact.allocDevice hwf hzero halloc
          rcases hload with heq | hload
          · rw [heq]
            exact hintact'
          · exact hintact'.loadDCBAA hwf' hzero hload
        · obtain ⟨⟨code, hevent⟩, -⟩ := haddresses
          obtain ⟨⟨code', hevent'⟩, -⟩ := hzero'
          rw [hevent] at hevent'
          cases hevent'
          rfl

/-- `Controller::kDeviceSize` -/
abbrev kDeviceSize : Nat := 8

/-- What `Initialize` leaves in entry 0. -/
def scratchpadEntry (maxScratchpadBuffers : Nat) (scratchpadBufArr : BitVec 64) : BitVec 64 :=
  if maxScratchpadBuffers > 0 then scratchpadBufArr else 0

/-- The device manager after `Initialize`, which stores the scratchpad array if the controller wants
any scratchpad buffers.
Source: `kernel/usb/xhci/xhci.cpp`, `Controller::Initialize` -/
def afterInitialize (maxScratchpadBuffers : Nat) (scratchpadBufArr : BitVec 64) : Controller :=
  let devmgr := DeviceManager.initializeSlots kDeviceSize
  if maxScratchpadBuffers > 0 then
    { devmgr := { devmgr with
        deviceContextPointers := devmgr.deviceContextPointers.set 0 scratchpadBufArr } }
  else { devmgr := devmgr }

/-- What `Initialize` leaves of the device manager: no devices, and in the array the scratchpad
entry only. -/
theorem afterInitialize_devmgr (maxScratchpadBuffers : Nat) (scratchpadBufArr : BitVec 64) :
    (afterInitialize maxScratchpadBuffers scratchpadBufArr).devmgr =
      { DeviceManager.initializeSlots kDeviceSize with
        deviceContextPointers := (List.replicate (kDeviceSize + 1) 0).set 0
          (scratchpadEntry maxScratchpadBuffers scratchpadBufArr) } := by
  unfold afterInitialize scratchpadEntry
  split_ifs <;> rfl

/-- After `Initialize` the device manager is well-formed, and entry `0` is the one of the scratchpad
buffers. -/
theorem afterInitialize_wellFormed (maxScratchpadBuffers : Nat) (scratchpadBufArr : BitVec 64) :
    (afterInitialize maxScratchpadBuffers scratchpadBufArr).devmgr.WellFormed ∧
      (afterInitialize maxScratchpadBuffers scratchpadBufArr).devmgr.Intact
        (scratchpadEntry maxScratchpadBuffers scratchpadBufArr) := by
  rw [afterInitialize_devmgr]
  have hdevice : ∀ slotId, (DeviceManager.initializeSlots kDeviceSize).deviceAt slotId = none := by
    intro slotId
    unfold deviceAt initializeSlots
    simp only
    rw [List.getElem?_replicate]
    split_ifs <;> rfl
  refine ⟨⟨List.length_replicate, fun slotId dev hdev => ?_⟩, rfl, hdevice 0,
    fun slotId p hslot hp => ?_⟩
  · exact absurd ((hdevice slotId).symm.trans hdev) (Option.some_ne_none dev).symm
  · rw [List.getElem?_set_ne (toNat_ne_zero hslot).symm, List.getElem?_replicate] at hp
    split_ifs at hp
    cases hp
    exact Or.inl rfl

/-- **The scratchpad entry is kept iff no device is addressed for slot 0.** In every run of calls and
events after `Initialize`, whatever the handlers read: the device context base array is intact after
each handler, iff no Enable Slot completion with slot 0 comes while the port that holds the lock
waits for a slot. -/
theorem scratchpad_kept_iff {maxScratchpadBuffers : Nat} {scratchpadBufArr : BitVec 64}
    {ops : List (XhciEvent × Readings)}
    (hdefined : (run Controller.step (afterInitialize maxScratchpadBuffers scratchpadBufArr)
      ops).isSome = true) :
    (∀ pre, pre <+: ops → ∀ xhc,
      run Controller.step (afterInitialize maxScratchpadBuffers scratchpadBufArr) pre = some xhc →
        xhc.devmgr.Intact (scratchpadEntry maxScratchpadBuffers scratchpadBufArr)) ↔
      Admits Controller.step NoSlotZero (afterInitialize maxScratchpadBuffers scratchpadBufArr)
        ops := by
  let Inv (xhc : Controller) : Prop := xhc.devmgr.WellFormed ∧
    xhc.devmgr.Intact (scratchpadEntry maxScratchpadBuffers scratchpadBufArr)
  have hkeeps : Keeps Controller.step NoSlotZero Inv := by
    rintro xhc op xhc' ⟨hwf, hintact⟩ hok hs
    obtain ⟨hwf', hiff⟩ := intact_iff hwf hintact hs
    exact ⟨hwf', hiff.mpr hok⟩
  refine forall_defined_prefix_iff_admits hkeeps (fun _ h => h.2) ?_
    (afterInitialize_wellFormed maxScratchpadBuffers scratchpadBufArr) hdefined
  rintro xhc op xhc' ⟨hwf, hintact⟩ hs hintact'
  exact (intact_iff hwf hintact hs).2.mp hintact'

/-! ## An Enable Slot command that fails -/

/-- Port 1 is reset, and its Enable Slot command completes with "No Slots Available", which comes
with slot 0. -/
def enableSlotFails : List (XhciEvent × Readings) :=
  [(.configurePort 1, readings [1]), (.portStatusChange 1, readings [1]),
    (.commandCompletion enableSlotCommandType 0 9, readings [1])]

/-- Every step of the example is defined. -/
theorem isSome_run_enableSlotFails :
    (run Controller.step (afterInitialize 1 0x2000) enableSlotFails).isSome = true := by decide

/-- Entry 0 becomes the context of a device. -/
theorem overwritten_enableSlotFails :
    ∃ xhc, run Controller.step (afterInitialize 1 0x2000) enableSlotFails = some xhc ∧
      ¬xhc.devmgr.Intact (scratchpadEntry 1 0x2000) := by
  obtain ⟨xhc, hrun⟩ := Option.isSome_iff_exists.mp isSome_run_enableSlotFails
  have hentry : ∀ xhc ∈ run Controller.step (afterInitialize 1 0x2000) enableSlotFails,
      xhc.devmgr.deviceContextPointers[0]? ≠ some (scratchpadEntry 1 0x2000) := by decide
  exact ⟨xhc, hrun, fun h => hentry xhc hrun h.entryZero⟩

/-- The run does not meet the condition. -/
theorem scratchpad_kept_iff_enableSlotFails :
    ¬Admits Controller.step NoSlotZero (afterInitialize 1 0x2000) enableSlotFails := by
  intro hadm
  obtain ⟨xhc, hrun, hoverwritten⟩ := overwritten_enableSlotFails
  exact hoverwritten ((scratchpad_kept_iff isSome_run_enableSlotFails).mpr hadm _
    List.prefix_rfl xhc hrun)

/-- **The scratchpad entry is overwritten** when an Enable Slot command fails. -/
theorem scratchpad_overwritten :
    ¬∀ (maxScratchpadBuffers : Nat) (scratchpadBufArr : BitVec 64)
      (ops : List (XhciEvent × Readings)) (xhc : Controller),
      run Controller.step (afterInitialize maxScratchpadBuffers scratchpadBufArr) ops = some xhc →
        xhc.devmgr.Intact (scratchpadEntry maxScratchpadBuffers scratchpadBufArr) := by
  intro hall
  obtain ⟨xhc, hrun, hoverwritten⟩ := overwritten_enableSlotFails
  exact hoverwritten (hall 1 0x2000 _ xhc hrun)

end Controller

end UhyokOS
