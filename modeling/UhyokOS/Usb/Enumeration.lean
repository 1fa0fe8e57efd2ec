import UhyokOS.Usb.InterruptTransfer
import UhyokOS.Usb.Keyboard
import UhyokOS.Usb.ParsedConfiguration
import UhyokOS.Usb.Xhci

/-!
# Enumeration

The model of a device from the completion of its Address Device command on: the phases of
`Device::OnControlCompleted`, the class driver of `kernel/usb/classdriver/hid.cpp`, and the handlers
of `kernel/usb/xhci/xhci.cpp` that lead it from one command to the next. The state has the transfers
that are in flight, which the controller reports in any order, with or without success.

A function is undefined (`none`) where the source uses a null pointer, also one that an allocation has
returned, or a byte or entry outside an array, be it only for the log. The contexts of the device are
in `Usb.EndpointContexts`, the other ports in `Usb.Xhci`, and what a report means in `Usb.Keyboard`.
-/

namespace UhyokOS

/-! ## Requests -/

/-- Source: `kernel/usb/setupdata.hpp`, `request::kGetDescriptor` -/
abbrev kGetDescriptor : BitVec 8 := 6

/-- Source: `kernel/usb/setupdata.hpp`, `request::kSetConfiguration` -/
abbrev kSetConfiguration : BitVec 8 := 9

/-- Source: `kernel/usb/setupdata.hpp`, `request::kSetProtocol` -/
abbrev kSetProtocol : BitVec 8 := 11

/-- Source: `kernel/usb/descriptor.hpp`, `DeviceDescriptor::kType` -/
abbrev deviceDescriptorType : Nat := 1

/-- The size of `buf_`.
Source: `kernel/usb/device.hpp`, `Device` -/
abbrev kDeviceBufferSize : Nat := 256

/-- The request of `GetDescriptor`.
Source: `kernel/usb/device.cpp`, `GetDescriptor` -/
def getDescriptor (descType descIndex : BitVec 8) : SetupData where
  requestType := 0x80
  request := kGetDescriptor
  value := descType.setWidth 16 <<< 8 ||| descIndex.setWidth 16
  index := 0
  length := BitVec.ofNat 16 kDeviceBufferSize

/-- The request of a driver whose endpoints are configured.
Source: `kernel/usb/classdriver/hid.cpp`, `HIDBaseDriver::OnEndpointsConfigured` -/
def setProtocol (interfaceIndex : Nat) : SetupData where
  requestType := 0x21
  request := kSetProtocol
  value := 0
  index := BitVec.ofNat 16 interfaceIndex
  length := 0

/-- What is asked of the controller. -/
inductive UsbRequest
  | control (setupData : SetupData)
  | interruptIn (epId : EndpointID) (len : Nat)
deriving DecidableEq

/-! ## The class driver -/

/-- The fields that the initialisation uses.
Source: `kernel/usb/classdriver/hid.hpp`, `HIDBaseDriver` -/
structure HIDDriver where
  epInterruptIn : EndpointID := ⟨0⟩
  epInterruptOut : EndpointID := ⟨0⟩
  interfaceIndex : Nat
  inPacketSize : Nat
  initializePhase : Nat := 0

/-- Source: `kernel/usb/classdriver/keyboard.cpp`, `HIDKeyboardDriver::HIDKeyboardDriver`;
`kernel/usb/classdriver/mouse.cpp`, `HIDMouseDriver::HIDMouseDriver` -/
def ClassDriver.newDriver : ClassDriver → HIDDriver
  | .hidKeyboard interfaceIndex => { interfaceIndex := interfaceIndex, inPacketSize := 8 }
  | .hidMouse interfaceIndex => { interfaceIndex := interfaceIndex, inPacketSize := 3 }

/-- Source: `kernel/usb/classdriver/hid.cpp`, `HIDBaseDriver::SetEndpoint` -/
def HIDDriver.setEndpoint (d : HIDDriver) (config : EndpointConfig) : HIDDriver :=
  if config.epType = .kInterrupt ∧ config.epId.isIn then { d with epInterruptIn := config.epId }
  else if config.epType = .kInterrupt ∧ ¬config.epId.isIn then
    { d with epInterruptOut := config.epId }
  else d

/-! ## The device -/

/-- A device in its slot.
Source: `kernel/usb/device.hpp`, `Device`; `kernel/usb/xhci/device.hpp`, `Device` -/
structure DeviceSlot where
  /-- `transfer_rings_`, `setup_stage_map_` and `event_waiters_`, with the control transfers in
  flight. -/
  transfers : ControlRun
  /-- The interrupt transfers in flight. -/
  interrupts : List InterruptTransfer := []
  /-- `class_drivers_`, `initialize_phase_`, `ep_configs_` and `num_ep_configs_` -/
  usb : UsbDevice
  /-- `is_initialized_` -/
  isInitialized : Bool := false
  /-- The address of `buf_`. -/
  buf : BitVec 64
  /-- The object that the entries of `class_drivers_` point to. -/
  driver : Option HIDDriver := none
  /-- Its address. -/
  driverPtr : BitVec 64
  /-- The address of its `buf_`. -/
  driverBuf : BitVec 64
  /-- The entry of `port_config_phase` for the port of the device. -/
  phase : ConfigPhase := .kAddressingDevice
  /-- What has been asked of the controller. -/
  requests : List UsbRequest := []
  /-- The number of calls of `OnDataReceived`. -/
  reports : Nat := 0

/-- What the handlers read or are given. -/
structure SlotReadings where
  /-- The contents of `buf_`, of which the device has sent the first bytes. -/
  buffer : List UInt8
  /-- All of it can be read. -/
  length : buffer.length = kDeviceBufferSize
  /-- The fuel of the loops over the descriptors in it. -/
  fuel : Nat
  /-- What `Port::Speed` returns. -/
  portSpeed : Nat
  /-- There is memory for the object of a class driver. -/
  driverAllocated : Bool
  /-- What `AllocTransferRing` gets for each endpoint: a ring and an array, `none` for a null
  pointer. -/
  ringBuffer : Nat → Option (Option (BitVec 64))

namespace DeviceSlot

/-! ## Calls -/

/-- A control transfer is in flight if the call that issues it returns no error. -/
def issue (s : DeviceSlot) (t : Transfer) (result : Option (Error × TransferDevice)) :
    Option (Error × DeviceSlot) := do
  let (err, device) ← result
  if err ≠ .kSuccess then
    return (err, { s with transfers := { s.transfers with device := device } })
  let transfers ← s.transfers.issue t result
  return (err, { s with
    transfers := transfers
    requests := s.requests ++ [.control t.setupData] })

/-- The call with the buffer of the device.
Source: `kernel/usb/device.cpp`, `GetDescriptor` -/
def getDescriptor (s : DeviceSlot) (descType descIndex : BitVec 8) : Option (Error × DeviceSlot) :=
  let setupData := UhyokOS.getDescriptor descType descIndex
  let len := BitVec.ofNat 32 kDeviceBufferSize
  s.issue (s.transfers.next true setupData s.buf len)
    (s.transfers.device.controlIn kDefaultControlPipeID setupData s.buf len 0)

/-- A call without a data stage, as `SetConfiguration` and the drivers make it.
Source: `kernel/usb/xhci/device.cpp`, `Device::ControlOut` -/
def controlOut (s : DeviceSlot) (setupData : SetupData) (issuer : BitVec 64) :
    Option (Error × DeviceSlot) :=
  s.issue (s.transfers.next false setupData 0 0)
    (s.transfers.device.controlOut kDefaultControlPipeID setupData 0 0 issuer)

/-- A call with the buffer of the driver.
Source: `kernel/usb/xhci/device.cpp`, `Device::InterruptIn` -/
def interruptIn (s : DeviceSlot) (epId : EndpointID) (len : Nat) : Option (Error × DeviceSlot) := do
  let (err, device) ← s.transfers.device.interruptIn epId s.driverBuf (BitVec.ofNat 32 len)
  let s' := { s with transfers := { s.transfers with device := device } }
  if err ≠ .kSuccess then return (err, s')
  let position := s.transfers.device.nextPosition epId
  return (err, { s' with
    interrupts := s.interrupts ++ [⟨epId, position, s.driverBuf, BitVec.ofNat 32 len⟩]
    requests := s.requests ++ [.interruptIn epId len] })

/-! ## The methods of the driver -/

/-- Source: `kernel/usb/classdriver/hid.cpp`, `HIDBaseDriver::OnEndpointsConfigured` -/
def driverOnEndpointsConfigured (s : DeviceSlot) : Option (Error × DeviceSlot) := do
  let driver ← s.driver
  let s := { s with driver := some { driver with initializePhase := 1 } }
  s.controlOut (setProtocol driver.interfaceIndex) s.driverPtr

/-- Source: `kernel/usb/classdriver/hid.cpp`, `HIDBaseDriver::OnControlCompleted` -/
def driverOnControlCompleted (s : DeviceSlot) : Option (Error × DeviceSlot) := do
  let driver ← s.driver
  if driver.initializePhase = 1 then
    let s := { s with driver := some { driver with initializePhase := 2 } }
    s.interruptIn driver.epInterruptIn driver.inPacketSize
  else return (.kNotImplemented, s)

/-- Undefined where more is copied than the buffers have room for.
Source: `kernel/usb/classdriver/hid.cpp`, `HIDBaseDriver::OnInterruptCompleted` -/
def driverOnInterruptCompleted (s : DeviceSlot) (epId : EndpointID) (len : BitVec 32) :
    Option (Error × DeviceSlot) := do
  let driver ← s.driver
  if epId.isIn then
    if kHIDBufferSize < len.toInt then failure
    let s := { s with reports := s.reports + 1 }
    s.interruptIn driver.epInterruptIn driver.inPacketSize
  else return (.kNotImplemented, s)

/-! ## The methods of the device -/

/-- `class_drivers_[ep_id.Number()]` -/
def classDriverAt (s : DeviceSlot) (epId : EndpointID) : Option (Option ClassDriver) :=
  if h : epId.number < 16 then some (s.usb.classDrivers ⟨epId.number, h⟩) else none

/-- `ep_configs_[i]` -/
def epConfigAt (s : DeviceSlot) (i : Nat) : Option EndpointConfig :=
  if h : i < 16 then some (s.usb.epConfigs ⟨i, h⟩) else none

/-- Source: `kernel/usb/device.cpp`, `Device::StartInitialize` -/
def startInitialize (s : DeviceSlot) : Option (Error × DeviceSlot) :=
  let s := { s with isInitialized := false, usb := { s.usb with initializePhase := 1 } }
  s.getDescriptor (BitVec.ofNat 8 deviceDescriptorType) 0

/-- One iteration of the loop in `OnEndpointsConfigured`, which returns at an error. -/
def visitClassDriver : Error × DeviceSlot → Fin 16 → Option (Error × DeviceSlot)
  | (err, s), n =>
      if err ≠ .kSuccess then some (err, s)
      else
        match s.usb.classDrivers n with
        | some _ => s.driverOnEndpointsConfigured
        | none => some (err, s)

/-- Source: `kernel/usb/device.cpp`, `Device::OnEndpointsConfigured` -/
def onEndpointsConfigured (s : DeviceSlot) : Option (Error × DeviceSlot) :=
  (List.finRange 16).foldlM visitClassDriver (.kSuccess, s)

/-- `config_index_` is 0, and nobody reads `num_configurations_`.
Source: `kernel/usb/device.cpp`, `Device::InitializePhase1` -/
def initializePhase1 (s : DeviceSlot) : Option (Error × DeviceSlot) :=
  let s := { s with usb := { s.usb with initializePhase := 2 } }
  s.getDescriptor (BitVec.ofNat 8 configurationDescriptorType) 0

/-- A request is made if a driver has been created; its constructor writes through the null pointer
where there was no memory.
Source: `kernel/usb/device.cpp`, `Device::InitializePhase2` -/
def initializePhase2 (s : DeviceSlot) (r : SlotReadings) (buf : List UInt8) (len : Nat) :
    Option (Error × DeviceSlot) := do
  let (ret, usb) ← (UhyokOS.initializePhase2 s.usb buf len r.fuel).toOption
  match ret with
  | .error err => return (err, { s with usb := usb })
  | .controlOut setupData =>
      if ¬r.driverAllocated then failure
      let classDriver := (List.finRange 16).findSome? usb.classDrivers
      let s := { s with usb := usb, driver := classDriver.map ClassDriver.newDriver }
      s.controlOut setupData 0

/-- One iteration of the loop in `InitializePhase3`; undefined where the driver is missing. -/
def setEndpoint (s : DeviceSlot) (i : Nat) : Option DeviceSlot := do
  let config ← s.epConfigAt i
  let _ ← (← s.classDriverAt config.epId)
  let driver ← s.driver
  return { s with driver := some (driver.setEndpoint config) }

/-- Source: `kernel/usb/device.cpp`, `Device::InitializePhase3` -/
def initializePhase3 (s : DeviceSlot) : Option (Error × DeviceSlot) := do
  let s ← (List.range s.usb.numEpConfigs).foldlM setEndpoint s
  return (.kSuccess,
    { s with usb := { s.usb with initializePhase := 4 }, isInitialized := true })

/-- The descriptor in a buffer has the given type. -/
def castsTo (kType : Nat) (data : Option (List UInt8)) : Option Bool := do
  let buf ← data
  let desc ← (descriptorDynamicCast kType buf (some 0)).toOption
  return desc.isSome

/-- `data` are the bytes at `buf`. Only the driver waits for requests.
Source: `kernel/usb/device.cpp`, `Device::OnControlCompleted` -/
def onControlCompleted (s : DeviceSlot) (r : SlotReadings) (setupData : SetupData)
    (data : Option (List UInt8)) (len : Nat) : Option (Error × DeviceSlot) := do
  if s.isInitialized then
    match s.transfers.device.eventWaiters.get setupData with
    | some w => if w = s.driverPtr then s.driverOnControlCompleted else none
    | none => return (.kNoWaiter, s)
  else if s.usb.initializePhase = 1 then
    if setupData.request = kGetDescriptor then
      if ← castsTo deviceDescriptorType data then s.initializePhase1
      else return (.kInvalidPhase, s)
    else return (.kInvalidPhase, s)
  else if s.usb.initializePhase = 2 then
    if setupData.request = kGetDescriptor then
      if ← castsTo configurationDescriptorType data then
        s.initializePhase2 r (← data) len
      else return (.kInvalidPhase, s)
    else return (.kInvalidPhase, s)
  else if s.usb.initializePhase = 3 then
    if setupData.request = kSetConfiguration then s.initializePhase3
    else return (.kInvalidPhase, s)
  else return (.kNotImplemented, s)

/-- Source: `kernel/usb/device.cpp`, `Device::OnInterruptCompleted` -/
def onInterruptCompleted (s : DeviceSlot) (epId : EndpointID) (len : BitVec 32) :
    Option (Error × DeviceSlot) := do
  match ← s.classDriverAt epId with
  | some _ => s.driverOnInterruptCompleted epId len
  | none => return (.kNoWaiter, s)

/-- What `OnTransferEventReceived` ends with. -/
def onTransferResult (s : DeviceSlot) (r : SlotReadings) :
    TransferResult → Option (Error × DeviceSlot)
  | .controlCompleted _ setupData buf len =>
      let data := if buf = s.buf then some r.buffer else none
      s.onControlCompleted r setupData data len.toInt.toNat
  | .interruptCompleted epId _ len => s.onInterruptCompleted epId len
  | .error err => some (err, s)

/-! ## The handlers of the controller -/

/-- One iteration of the loop in `ConfigureEndpoints`: the transfer ring of an endpoint, whose buffer
is asked for also where there was no memory for the ring. -/
def allocEndpointRing (r : SlotReadings) (s : DeviceSlot) (i : Nat) : Option DeviceSlot := do
  let config ← s.epConfigAt i
  let (tr, device) ← s.transfers.device.allocTransferRing (deviceContextIndex config.epId) 32
    (r.ringBuffer i)
  let _ ← tr
  return { s with transfers := { s.transfers with device := device } }

/-- Source: `kernel/usb/xhci/xhci.cpp`, `ConfigureEndpoints` -/
def configureEndpoints (s : DeviceSlot) (r : SlotReadings) : Option (Error × DeviceSlot) := do
  if r.portSpeed = 0 ∨ r.portSpeed > kSuperSpeedPlus then return (.kUnknownXHCISpeedID, s)
  let s ← (List.range s.usb.numEpConfigs).foldlM (allocEndpointRing r) s
  return (.kSuccess, { s with phase := .kConfiguringEndpoints })

/-- Source: `kernel/usb/xhci/xhci.cpp`, `OnEvent(Controller&, TransferEventTRB&)` -/
def onTransfer (s : DeviceSlot) (r : SlotReadings) (result : TransferResult) :
    Option (Error × DeviceSlot) := do
  let (err, s) ← s.onTransferResult r result
  if err ≠ .kSuccess then return (err, s)
  if s.isInitialized ∧ s.phase = .kInitializingDevice then s.configureEndpoints r
  else return (.kSuccess, s)

/-- Source: `kernel/usb/xhci/xhci.cpp`, `InitializeDevice` -/
def initializeDevice (s : DeviceSlot) : Option (Error × DeviceSlot) := do
  let (_, s) ← { s with phase := .kInitializingDevice }.startInitialize
  return (.kSuccess, s)

/-- Source: `kernel/usb/xhci/xhci.cpp`, `CompleteConfiguration` -/
def completeConfiguration (s : DeviceSlot) : Option (Error × DeviceSlot) := do
  let (_, s) ← s.onEndpointsConfigured
  return (.kSuccess, { s with phase := .kConfigured })

/-! ## Events -/

/-- The completions of the commands for the device, and of the `i`th transfer in flight. -/
inductive SlotEvent
  | addressed
  | control (i : Nat) (trb : TransferEventTRB) (r : SlotReadings)
  | interrupt (i : Nat) (trb : TransferEventTRB) (r : SlotReadings)
  | endpointsConfigured

/-- The handler of an event, with its result. While a device is being addressed, `addressing_port`
is its port.
Source: `kernel/usb/xhci/xhci.cpp`, `OnEvent` -/
def handle (s : DeviceSlot) : SlotEvent → Option (Error × DeviceSlot)
  | .addressed =>
      if s.phase ≠ .kAddressingDevice then some (.kInvalidPhase, s) else s.initializeDevice
  | .control i trb r => do
      let transfers ← s.transfers.step (.event i trb)
      let (_, _, result) ← transfers.report
      { s with transfers := transfers }.onTransfer r result
  | .interrupt i trb r => do
      let (result, device) ← s.transfers.device.onTransferEventReceived trb
      let s := { s with
        transfers := { s.transfers with device := device }
        interrupts := s.interrupts.eraseIdx i }
      s.onTransfer r result
  | .endpointsConfigured =>
      if s.phase ≠ .kConfiguringEndpoints then some (.kInvalidPhase, s)
      else s.completeConfiguration

/-- One event. -/
def step (s : DeviceSlot) (event : SlotEvent) : Option DeviceSlot := (s.handle event).map Prod.snd

end DeviceSlot

end UhyokOS
