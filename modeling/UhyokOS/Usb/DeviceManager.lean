import UhyokOS.Error
import Mathlib.Data.List.Basic

/-!
# The device manager

The model of `kernel/usb/xhci/devmgr.cpp`. A pointer is its address, `0` being the null pointer. Of a
device the manager knows where its device context is; what the controller writes there is read by
the event handlers. A function is undefined (`none`) where the source uses a null pointer or an
entry outside an array.
-/

namespace UhyokOS

/-- Source: `kernel/usb/xhci/device.hpp`, `Device` -/
structure Device where
  /-- `slot_id_` -/
  slotId : UInt8
  /-- `&ctx_` -/
  deviceContext : BitVec 64
  deriving DecidableEq

/-- Source: `kernel/usb/xhci/devmgr.hpp`, `DeviceManager` -/
structure DeviceManager where
  /-- `device_context_pointers_` -/
  deviceContextPointers : List (BitVec 64)
  /-- `max_slots_` -/
  maxSlots : Nat
  /-- `devices_`, `none` for a null pointer -/
  devices : List (Option Device)

namespace DeviceManager

/-- When both arrays were allocated.
Source: `kernel/usb/xhci/devmgr.cpp`, `DeviceManager::Initialize` -/
def initializeSlots (maxSlots : Nat) : DeviceManager where
  deviceContextPointers := List.replicate (maxSlots + 1) 0
  maxSlots := maxSlots
  devices := List.replicate (maxSlots + 1) none

/-- `devices_[slot_id]` -/
def deviceAt (devmgr : DeviceManager) (slotId : UInt8) : Option Device :=
  (devmgr.devices[slotId.toNat]?).join

/-- Source: `kernel/usb/xhci/devmgr.cpp`, `DeviceManager::FindBySlot` -/
def findBySlot (devmgr : DeviceManager) (slotId : UInt8) : Option Device :=
  if slotId.toNat > devmgr.maxSlots then none else devmgr.deviceAt slotId

/-- The last argument is what `AllocArray` returned, as the address of the new device's context.
Source: `kernel/usb/xhci/devmgr.cpp`, `DeviceManager::AllocDevice` -/
def allocDevice (devmgr : DeviceManager) (slotId : UInt8) (allocated : Option (BitVec 64)) :
    Option (Error × DeviceManager) :=
  if slotId.toNat > devmgr.maxSlots then some (.kInvalidSlotID, devmgr)
  else if devmgr.deviceAt slotId ≠ none then some (.kAlreadyAllocated, devmgr)
  else allocated.map fun deviceContext =>
    (.kSuccess, { devmgr with
      devices := devmgr.devices.set slotId.toNat (some ⟨slotId, deviceContext⟩) })

/-- Source: `kernel/usb/xhci/devmgr.cpp`, `DeviceManager::LoadDCBAA` -/
def loadDCBAA (devmgr : DeviceManager) (slotId : UInt8) : Option (Error × DeviceManager) :=
  if slotId.toNat > devmgr.maxSlots then some (.kInvalidSlotID, devmgr)
  else (devmgr.deviceAt slotId).map fun dev =>
    (.kSuccess, { devmgr with
      deviceContextPointers := devmgr.deviceContextPointers.set slotId.toNat dev.deviceContext })

end DeviceManager

end UhyokOS
