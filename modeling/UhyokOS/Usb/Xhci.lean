import UhyokOS.Usb.DeviceManager
import Mathlib.Data.BitVec
import Mathlib.Logic.Function.Basic

/-!
# Event handlers of the host controller driver

The model of the event handlers in `kernel/usb/xhci/xhci.cpp`, with the two variables that configure
the root-hub ports one after the other. What a handler reads from the hardware and from the parts of
a device that are not modelled here is an argument (`Readings`): the registers of the ports, the
device contexts, the results of the allocator, and what the device itself makes of a transfer event.
What the handlers write to registers and to the contexts of a device is left out.

A function is undefined (`none`) where the source uses a null pointer.

* `addressDevice_cases` and `handle_cases`: what one call and one event can do.
-/

namespace UhyokOS

/-- Source: `kernel/usb/xhci/xhci.cpp`, `ConfigPhase` -/
inductive ConfigPhase
  | kNotConnected
  | kWaitingAddressed
  | kResettingPort
  | kEnablingSlot
  | kAddressingDevice
  | kInitializingDevice
  | kConfiguringEndpoints
  | kConfigured
  deriving DecidableEq

/-- A port and its register `PORTSC`.
Source: `kernel/usb/xhci/port.hpp`, `Port` -/
structure Port where
  number : UInt8
  portsc : BitVec 32

namespace Port

/-- Source: `kernel/usb/xhci/port.cpp`, `Port::IsConnected` -/
def isConnected (port : Port) : Bool := port.portsc.getLsbD 0

/-- Source: `kernel/usb/xhci/port.cpp`, `Port::IsEnabled` -/
def isEnabled (port : Port) : Bool := port.portsc.getLsbD 1

/-- Source: `kernel/usb/xhci/port.cpp`, `Port::IsPortResetChanged` -/
def isPortResetChanged (port : Port) : Bool := port.portsc.getLsbD 21

/-- Source: `kernel/usb/xhci/port.cpp`, `Port::Speed` -/
def speed (port : Port) : Nat := (port.portsc.extractLsb' 10 4).toNat

end Port

/-- Source: `kernel/usb/xhci/speed.hpp`, `kSuperSpeedPlus` -/
abbrev kSuperSpeedPlus : Nat := 5

/-- What one handler reads. -/
structure Readings where
  /-- `PORTSC` of each port -/
  portsc : UInt8 → BitVec 32
  /-- `root_hub_port_num` in the device context of each slot -/
  rootHubPortNum : UInt8 → UInt8
  /-- What `AllocArray<Device>` returns, as the address of the device's context. -/
  deviceContext : Option (BitVec 64)
  /-- `AllocTransferRing` returns no null pointer. -/
  ringsAllocated : Bool
  /-- What `Device::OnTransferEventReceived` returns. -/
  transferResult : Error
  /-- What `IsInitialized` returns after that. -/
  isInitialized : Bool

/-- Source: `kernel/usb/xhci/xhci.hpp`, `Controller::PortAt` -/
def Readings.portAt (r : Readings) (portNum : UInt8) : Port := ⟨portNum, r.portsc portNum⟩

/-- The commands that the handlers push.
Source: `kernel/usb/xhci/trb.hpp`, `EnableSlotCommandTRB`, `AddressDeviceCommandTRB`,
`ConfigureEndpointCommandTRB` -/
inductive Command
  | enableSlot
  | addressDevice (slotId : UInt8)
  | configureEndpoint (slotId : UInt8)

/-- The controller, with the variables of `xhci.cpp`.
Source: `kernel/usb/xhci/xhci.hpp`, `Controller` -/
structure Controller where
  /-- `devmgr_` -/
  devmgr : DeviceManager
  /-- The commands pushed to `cr_`. -/
  commands : List Command := []
  /-- `port_config_phase` -/
  portConfigPhase : UInt8 → ConfigPhase := fun _ => .kNotConnected
  /-- `addressing_port` -/
  addressingPort : UInt8 := 0

namespace Controller

/-- `port_config_phase[portId] = phase` -/
def setPhase (xhc : Controller) (portId : UInt8) (phase : ConfigPhase) : Controller :=
  { xhc with portConfigPhase := Function.update xhc.portConfigPhase portId phase }

/-- `CommandRing()->Push(cmd)` -/
def pushCommand (xhc : Controller) (cmd : Command) : Controller :=
  { xhc with commands := xhc.commands ++ [cmd] }

/-- Source: `kernel/usb/xhci/xhci.cpp`, `ResetPort` -/
def resetPort (xhc : Controller) (port : Port) : Error × Controller :=
  if port.isConnected = false then (.kSuccess, xhc)
  else if xhc.addressingPort ≠ 0 then (.kSuccess, xhc.setPhase port.number .kWaitingAddressed)
  else if xhc.portConfigPhase port.number ≠ .kNotConnected ∧
      xhc.portConfigPhase port.number ≠ .kWaitingAddressed then (.kInvalidPhase, xhc)
  else
    (.kSuccess, { xhc with addressingPort := port.number }.setPhase port.number .kResettingPort)

/-- Source: `kernel/usb/xhci/xhci.cpp`, `EnableSlot` -/
def enableSlot (xhc : Controller) (port : Port) : Error × Controller :=
  if port.isEnabled ∧ port.isPortResetChanged then
    (.kSuccess, (xhc.setPhase port.number .kEnablingSlot).pushCommand .enableSlot)
  else (.kSuccess, xhc)

/-- Source: `kernel/usb/xhci/xhci.cpp`, `AddressDevice` -/
def addressDevice (xhc : Controller) (r : Readings) (portId slotId : UInt8) :
    Option (Error × Controller) :=
  (xhc.devmgr.allocDevice slotId r.deviceContext).bind fun (_, devmgr) =>
    let xhc := { xhc with devmgr := devmgr }
    if xhc.devmgr.findBySlot slotId = none then some (.kInvalidSlotID, xhc)
    else if r.ringsAllocated = false then none
    else (xhc.devmgr.loadDCBAA slotId).map fun (_, devmgr) =>
      let xhc := { xhc with devmgr := devmgr }
      let xhc := xhc.setPhase portId .kAddressingDevice
      (.kSuccess, xhc.pushCommand (.addressDevice slotId))

/-- The two ways in which `AddressDevice` returns. -/
theorem addressDevice_cases {xhc xhc' : Controller} {r : Readings} {portId slotId : UInt8}
    {err : Error} (h : xhc.addressDevice r portId slotId = some (err, xhc')) :
    ∃ devmgr, (xhc.devmgr.allocDevice slotId r.deviceContext).map Prod.snd = some devmgr ∧
      ((devmgr.findBySlot slotId = none ∧ xhc' = { xhc with devmgr := devmgr }) ∨
        ∃ devmgr', (devmgr.loadDCBAA slotId).map Prod.snd = some devmgr' ∧
          xhc' = (({ xhc with devmgr := devmgr' } : Controller).setPhase portId
            .kAddressingDevice).pushCommand (.addressDevice slotId)) := by
  unfold addressDevice at h
  obtain ⟨⟨e, devmgr⟩, halloc, h⟩ := Option.bind_eq_some_iff.mp h
  refine ⟨devmgr, by rw [halloc]; rfl, ?_⟩
  simp only at h
  split_ifs at h with hnone hrings
  · cases h
    exact Or.inl ⟨hnone, rfl⟩
  · obtain ⟨⟨e', devmgr'⟩, hload, h⟩ := Option.map_eq_some_iff.mp h
    cases h
    exact Or.inr ⟨devmgr', by rw [hload]; rfl, rfl⟩

/-- Source: `kernel/usb/xhci/xhci.cpp`, `InitializeDevice` -/
def initializeDevice (xhc : Controller) (portId slotId : UInt8) : Error × Controller :=
  if xhc.devmgr.findBySlot slotId = none then (.kInvalidSlotID, xhc)
  else (.kSuccess, xhc.setPhase portId .kInitializingDevice)

/-- Source: `kernel/usb/xhci/xhci.cpp`, `CompleteConfiguration` -/
def completeConfiguration (xhc : Controller) (portId slotId : UInt8) : Error × Controller :=
  if xhc.devmgr.findBySlot slotId = none then (.kInvalidSlotID, xhc)
  else (.kSuccess, xhc.setPhase portId .kConfigured)

/-- The device is the one in a slot; its endpoints are not modelled here.
Source: `kernel/usb/xhci/xhci.cpp`, `ConfigureEndpoints` -/
def configureEndpoints (xhc : Controller) (r : Readings) (dev : Device) :
    Option (Error × Controller) :=
  let portId := r.rootHubPortNum dev.slotId
  let portSpeed := (r.portAt portId).speed
  if portSpeed = 0 ∨ portSpeed > kSuperSpeedPlus then some (.kUnknownXHCISpeedID, xhc)
  else if r.ringsAllocated = false then none
  else some (.kSuccess,
    (xhc.setPhase portId .kConfiguringEndpoints).pushCommand (.configureEndpoint dev.slotId))

/-- Source: `kernel/usb/xhci/xhci.cpp`, `ConfigurePort` -/
def configurePort (xhc : Controller) (port : Port) : Error × Controller :=
  if xhc.portConfigPhase port.number = .kNotConnected then xhc.resetPort port
  else (.kSuccess, xhc)

/-- Source: `kernel/usb/xhci/xhci.cpp`, `OnEvent(Controller&, PortStatusChangeEventTRB&)` -/
def onPortStatusChange (xhc : Controller) (r : Readings) (portId : UInt8) : Error × Controller :=
  match xhc.portConfigPhase portId with
  | .kNotConnected => xhc.resetPort (r.portAt portId)
  | .kResettingPort => xhc.enableSlot (r.portAt portId)
  | _ => (.kInvalidPhase, xhc)

/-- Source: `kernel/usb/xhci/xhci.cpp`, `OnEvent(Controller&, TransferEventTRB&)` -/
def onTransfer (xhc : Controller) (r : Readings) (slotId : UInt8) : Option (Error × Controller) :=
  match xhc.devmgr.findBySlot slotId with
  | none => some (.kInvalidSlotID, xhc)
  | some dev =>
      if r.transferResult ≠ .kSuccess then some (r.transferResult, xhc)
      else if r.isInitialized ∧
          xhc.portConfigPhase (r.rootHubPortNum dev.slotId) = .kInitializingDevice then
        xhc.configureEndpoints r dev
      else some (.kSuccess, xhc)

/-- The first entry of `port_config_phase` that the loop over it finds. -/
def firstWaiting (xhc : Controller) : Option UInt8 :=
  ((List.range 256).map UInt8.ofNat).find? fun i => xhc.portConfigPhase i = .kWaitingAddressed

/-- The loop that hands over to the next port.
Source: `kernel/usb/xhci/xhci.cpp`, `OnEvent(Controller&, CommandCompletionEventTRB&)` -/
def handOver (xhc : Controller) (r : Readings) : Error × Controller :=
  match xhc.firstWaiting with
  | none => (.kSuccess, xhc)
  | some i => xhc.resetPort (r.portAt i)

/-- `EnableSlotCommandTRB::Type` -/
abbrev enableSlotCommandType : BitVec 6 := 9

/-- `AddressDeviceCommandTRB::Type` -/
abbrev addressDeviceCommandType : BitVec 6 := 11

/-- `ConfigureEndpointCommandTRB::Type` -/
abbrev configureEndpointCommandType : BitVec 6 := 12

/-- The completion of an Address Device command.
Source: `kernel/usb/xhci/xhci.cpp`, `OnEvent(Controller&, CommandCompletionEventTRB&)` -/
def onAddressDeviceCompletion (xhc : Controller) (r : Readings) (slotId : UInt8) :
    Error × Controller :=
  match xhc.devmgr.findBySlot slotId with
  | none => (.kInvalidSlotID, xhc)
  | some dev =>
      let portId := r.rootHubPortNum dev.slotId
      if portId ≠ xhc.addressingPort then (.kInvalidPhase, xhc)
      else if xhc.portConfigPhase portId ≠ .kAddressingDevice then (.kInvalidPhase, xhc)
      else
        let (err, xhc) := { xhc with addressingPort := 0 }.handOver r
        if err ≠ .kSuccess then (err, xhc) else xhc.initializeDevice portId slotId

/-- The completion of a Configure Endpoint command.
Source: `kernel/usb/xhci/xhci.cpp`, `OnEvent(Controller&, CommandCompletionEventTRB&)` -/
def onConfigureEndpointCompletion (xhc : Controller) (r : Readings) (slotId : UInt8) :
    Error × Controller :=
  match xhc.devmgr.findBySlot slotId with
  | none => (.kInvalidSlotID, xhc)
  | some dev =>
      let portId := r.rootHubPortNum dev.slotId
      if xhc.portConfigPhase portId ≠ .kConfiguringEndpoints then (.kInvalidPhase, xhc)
      else xhc.completeConfiguration portId slotId

/-- Source: `kernel/usb/xhci/xhci.cpp`, `OnEvent(Controller&, CommandCompletionEventTRB&)` -/
def onCommandCompletion (xhc : Controller) (r : Readings) (issuerType : BitVec 6)
    (slotId : UInt8) : Option (Error × Controller) :=
  if issuerType = enableSlotCommandType then
    if xhc.portConfigPhase xhc.addressingPort ≠ .kEnablingSlot then some (.kInvalidPhase, xhc)
    else xhc.addressDevice r xhc.addressingPort slotId
  else if issuerType = addressDeviceCommandType then
    some (xhc.onAddressDeviceCompletion r slotId)
  else if issuerType = configureEndpointCommandType then
    some (xhc.onConfigureEndpointCompletion r slotId)
  else some (.kInvalidPhase, xhc)

end Controller

/-! ## Events -/

/-- An initial call of `ConfigurePort`, or an event that the controller reports. The completion code
of a command is not looked at. -/
inductive XhciEvent
  | configurePort (portNum : UInt8)
  | portStatusChange (portId : UInt8)
  | transfer (slotId : UInt8)
  | commandCompletion (issuerType : BitVec 6) (slotId : UInt8) (completionCode : BitVec 8)

/-- The handler of an event, with its result. -/
def Controller.handle (xhc : Controller) (r : Readings) : XhciEvent → Option (Error × Controller)
  | .configurePort portNum => some (xhc.configurePort (r.portAt portNum))
  | .portStatusChange portId => some (xhc.onPortStatusChange r portId)
  | .transfer slotId => xhc.onTransfer r slotId
  | .commandCompletion issuerType slotId _ => xhc.onCommandCompletion r issuerType slotId

/-- One event. -/
def Controller.step (xhc : Controller) (op : XhciEvent × Readings) : Option Controller :=
  (xhc.handle op.2 op.1).map Prod.snd

/-! ## What a handler does -/

namespace Controller

variable {xhc xhc' : Controller} {r : Readings} {err : Error}

/-- The event makes the driver address the device of a slot. -/
def Addresses (xhc : Controller) (event : XhciEvent) (slotId : UInt8) : Prop :=
  (∃ completionCode, event = .commandCompletion enableSlotCommandType slotId completionCode) ∧
    xhc.portConfigPhase xhc.addressingPort = .kEnablingSlot

/-- The controller after an event that addresses no device, by the function that the handler ends
in. -/
inductive Handled (r : Readings) (xhc : Controller) : Controller → Prop
  | same : Handled r xhc xhc
  | resetPort {p : UInt8} (phase : xhc.portConfigPhase p = .kNotConnected) :
      Handled r xhc (xhc.resetPort (r.portAt p)).2
  | enableSlot {p : UInt8} (phase : xhc.portConfigPhase p = .kResettingPort) :
      Handled r xhc (xhc.enableSlot (r.portAt p)).2
  | configureEndpoints {dev : Device} {err : Error} {xhc' : Controller}
      (phase : xhc.portConfigPhase (r.rootHubPortNum dev.slotId) = .kInitializingDevice)
      (configured : xhc.configureEndpoints r dev = some (err, xhc')) : Handled r xhc xhc'
  | addressDeviceCompletion {slotId : UInt8} :
      Handled r xhc (xhc.onAddressDeviceCompletion r slotId).2
  | configureEndpointCompletion {slotId : UInt8} :
      Handled r xhc (xhc.onConfigureEndpointCompletion r slotId).2

theorem not_addresses {event : XhciEvent}
    (h : ∀ slotId code, event ≠ .commandCompletion enableSlotCommandType slotId code)
    (slotId : UInt8) : ¬xhc.Addresses event slotId := by
  rintro ⟨⟨code, hevent⟩, -⟩
  exact h slotId code hevent

theorem onTransfer_handled {slotId : UInt8} (h : xhc.onTransfer r slotId = some (err, xhc')) :
    Handled r xhc xhc' := by
  unfold onTransfer at h
  split at h
  · cases h
    exact .same
  · split_ifs at h with hresult hinit
    · cases h
      exact .same
    · exact .configureEndpoints hinit.2 h
    · cases h
      exact .same

/-- **What a handler does.** Only the completion of an Enable Slot command addresses a device. -/
theorem handle_cases {event : XhciEvent} (h : xhc.handle r event = some (err, xhc')) :
    (∃ slotId, xhc.Addresses event slotId ∧
      xhc.addressDevice r xhc.addressingPort slotId = some (err, xhc')) ∨
      ((∀ slotId, ¬xhc.Addresses event slotId) ∧ Handled r xhc xhc') := by
  cases event with
  | configurePort p =>
      obtain rfl : _ = xhc' := congrArg Prod.snd (Option.some.inj h)
      refine Or.inr ⟨not_addresses (fun _ _ h => nomatch h), ?_⟩
      unfold configurePort
      split_ifs with hphase
      · exact .resetPort hphase
      · exact .same
  | portStatusChange p =>
      obtain rfl : _ = xhc' := congrArg Prod.snd (Option.some.inj h)
      refine Or.inr ⟨not_addresses (fun _ _ h => nomatch h), ?_⟩
      unfold onPortStatusChange
      split
      · next hphase => exact .resetPort hphase
      · next hphase => exact .enableSlot hphase
      · exact .same
  | transfer slotId =>
      exact Or.inr ⟨not_addresses (fun _ _ h => nomatch h), onTransfer_handled h⟩
  | commandCompletion issuerType slotId completionCode =>
      change xhc.onCommandCompletion r issuerType slotId = some (err, xhc') at h
      unfold onCommandCompletion at h
      by_cases henable : issuerType = enableSlotCommandType
      · rw [if_pos henable] at h
        split_ifs at h with hphase
        · cases h
          exact Or.inr ⟨fun _ hand => hphase hand.2, .same⟩
        · exact Or.inl ⟨slotId, ⟨⟨completionCode, by rw [henable]⟩, not_not.mp hphase⟩, h⟩
      · rw [if_neg henable] at h
        refine Or.inr ⟨not_addresses ?_, ?_⟩
        · rintro _ _ heq
          cases heq
          exact henable rfl
        · split_ifs at h
          · obtain rfl : _ = xhc' := congrArg Prod.snd (Option.some.inj h)
            exact .addressDeviceCompletion
          · obtain rfl : _ = xhc' := congrArg Prod.snd (Option.some.inj h)
            exact .configureEndpointCompletion
          · cases h
            exact .same

end Controller

/-! ## Readings of short runs -/

/-- Some ports are connected and enabled after a reset; every device is on port 1. -/
def readings (connected : List UInt8) : Readings where
  portsc := fun p => if p ∈ connected then 0x200003 else 0
  rootHubPortNum := fun _ => 1
  deviceContext := some 0x1000
  ringsAllocated := true
  transferResult := .kSuccess
  isInitialized := false

end UhyokOS
