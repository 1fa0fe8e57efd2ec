import UhyokOS.Lib.FueledLoop
import UhyokOS.Usb.ControlTransfer

/-!
# Configuration descriptors

The model of `Device::InitializePhase2` and of the reader in `kernel/usb/device.cpp`. A descriptor is
its offset in the buffer that the device has filled, and a field is read there when the source reads
it, also for the log. The device has sent `len` bytes: only `Next` compares with that, and a field
behind them can be read as long as it lies in the buffer. A read outside the buffer, a null pointer to
a descriptor and an index outside an array are faults. The objects of the class drivers are taken to
be allocated.

* `nextDescriptor_returns_iff`: what the typed `Next` returns.
* `recordEndpoint_eq_ok_iff`, `logHidDescriptor_eq_ok_iff` and `endpointBody_next_iff`: what one
  iteration over the endpoints does.
* `interfaceBody_next_iff` and `interfaceBody_done_iff`: the same for the interfaces.
* `initializePhase2_returns_iff`: when `InitializePhase2` returns without a fault.
-/

namespace UhyokOS

open FueledLoop Relation

/-- What the source must not run into. -/
inductive Fault
  /-- A read outside the buffer. -/
  | readOutOfBounds (offset : Nat)
  /-- A null pointer to a descriptor. -/
  | nullDescriptor
  /-- An index outside an array. -/
  | indexOutOfBounds
  /-- The fuel is used up. -/
  | outOfFuel
deriving DecidableEq

/-! ## Reading the buffer -/

/-- Read a byte. -/
def readByte (buf : List UInt8) (offset : Nat) : Except Fault Nat :=
  match buf[offset]? with
  | some byte => .ok byte.toNat
  | none => .error (.readOutOfBounds offset)

/-- Read a 16-bit field. -/
def readWord (buf : List UInt8) (offset : Nat) : Except Fault Nat := do
  let low ← readByte buf offset
  let high ← readByte buf (offset + 1)
  .ok (low + 256 * high)

/-- `a[i] = value` -/
def setAt {α : Type} (a : Fin 16 → α) (i : Nat) (value : α) : Except Fault (Fin 16 → α) :=
  if h : i < 16 then .ok (Function.update a ⟨i, h⟩ value) else .error .indexOutOfBounds

/-- Source: `kernel/usb/device.cpp`, `ConfigurationDescriptorReader::Next` -/
def next (buf : List UInt8) (len p : Nat) : Except Fault (Option Nat × Nat) := do
  let length ← readByte buf p
  let p := p + length
  .ok (if p < len then some p else none, p)

/-- The cast to the descriptor type with the given `kType`.
Source: `kernel/usb/descriptor.hpp`, `DescriptorDynamicCast` -/
def descriptorDynamicCast (kType : Nat) (buf : List UInt8) :
    Option Nat → Except Fault (Option Nat)
  | none => .error .nullDescriptor
  | some descData => do
      let descriptorType ← readByte buf (descData + 1)
      .ok (if descriptorType = kType then some descData else none)

/-- One iteration of the typed `Next`. -/
def nextBody (kType : Nat) (buf : List UInt8) (len p : Nat) :
    Except Fault (Nat ⊕ Option Nat × Nat) := do
  match ← next buf len p with
  | (none, p) => .ok (.inr (none, p))
  | (some n, p) => do
      match ← descriptorDynamicCast kType buf (some n) with
      | some d => .ok (.inr (some d, p))
      | none => .ok (.inl p)

/-- Source: `kernel/usb/device.cpp`, `ConfigurationDescriptorReader::Next<T>` -/
def nextDescriptor (kType : Nat) (buf : List UInt8) (len fuel p : Nat) :
    Except Fault (Option Nat × Nat) :=
  loop .outOfFuel (nextBody kType buf len) fuel p

/-! ## The descriptors -/

/-- Source: `kernel/usb/descriptor.hpp`, `ConfigurationDescriptor::kType` -/
abbrev configurationDescriptorType : Nat := 2

/-- Source: `kernel/usb/descriptor.hpp`, `InterfaceDescriptor::kType` -/
abbrev interfaceDescriptorType : Nat := 4

/-- Source: `kernel/usb/descriptor.hpp`, `EndpointDescriptor::kType` -/
abbrev endpointDescriptorType : Nat := 5

/-- Source: `kernel/usb/descriptor.hpp`, `HIDDescriptor::kType` -/
abbrev hidDescriptorType : Nat := 33

/-- `sizeof(HIDDescriptor)` -/
abbrev sizeofHIDDescriptor : Nat := 6

/-- `sizeof(ClassDescriptor)` -/
abbrev sizeofClassDescriptor : Nat := 3

/-- Source: `kernel/usb/descriptor.hpp`, `ConfigurationDescriptor` -/
def configurationValue (buf : List UInt8) (confDesc : Nat) : Except Fault Nat :=
  readByte buf (confDesc + 5)

/-- Source: `kernel/usb/descriptor.hpp`, `InterfaceDescriptor` -/
def numEndpoints (buf : List UInt8) (ifDesc : Nat) : Except Fault Nat := readByte buf (ifDesc + 4)

/-- Source: `kernel/usb/descriptor.hpp`, `HIDDescriptor` -/
def numDescriptors (buf : List UInt8) (hidDesc : Nat) : Except Fault Nat :=
  readByte buf (hidDesc + 5)

/-- Source: `kernel/usb/descriptor.hpp`, `HIDDescriptor::GetClassDescriptor` -/
def getClassDescriptor (buf : List UInt8) (hidDesc index : Nat) : Except Fault (Option Nat) := do
  let num ← numDescriptors buf hidDesc
  .ok (if index ≥ num then none
    else some (hidDesc + sizeofHIDDescriptor + sizeofClassDescriptor * index))

/-- Source: `kernel/usb/device.cpp`, `MakeEPConfig` -/
def makeEPConfig (buf : List UInt8) (epDesc : Nat) : Except Fault EndpointConfig := do
  let address ← readByte buf (epDesc + 2)
  let attributes ← readByte buf (epDesc + 3)
  let maxPacketSize ← readWord buf (epDesc + 4)
  let interval ← readByte buf (epDesc + 6)
  .ok { epId := .new (address % 16) (decide (address / 128 = 1))
        epType := .ofBits (attributes % 4)
        maxPacketSize := maxPacketSize
        interval := interval }

/-- The drivers that `NewClassDriver` creates, with their `interface_index_`.
Source: `kernel/usb/classdriver/keyboard.hpp`, `HIDKeyboardDriver`;
`kernel/usb/classdriver/mouse.hpp`, `HIDMouseDriver` -/
inductive ClassDriver
  | hidKeyboard (interfaceIndex : Nat)
  | hidMouse (interfaceIndex : Nat)
deriving DecidableEq

/-- Source: `kernel/usb/device.cpp`, `NewClassDriver` -/
def newClassDriver (buf : List UInt8) (ifDesc : Nat) : Except Fault (Option ClassDriver) := do
  let interfaceClass ← readByte buf (ifDesc + 5)
  if interfaceClass = 3 then
    let interfaceSubClass ← readByte buf (ifDesc + 6)
    if interfaceSubClass = 1 then
      let interfaceProtocol ← readByte buf (ifDesc + 7)
      if interfaceProtocol = 1 then
        let interfaceNumber ← readByte buf (ifDesc + 2)
        .ok (some (.hidKeyboard interfaceNumber))
      else if interfaceProtocol = 2 then
        let interfaceNumber ← readByte buf (ifDesc + 2)
        .ok (some (.hidMouse interfaceNumber))
      else .ok none
    else .ok none
  else .ok none

/-- The fields that the log reads.
Source: `kernel/usb/device.cpp`, `Log(LogLevel, InterfaceDescriptor&)` -/
def logInterfaceDescriptor (buf : List UInt8) (ifDesc : Nat) : Except Fault Unit := do
  let _ ← readByte buf (ifDesc + 5)
  let _ ← readByte buf (ifDesc + 6)
  let _ ← readByte buf (ifDesc + 7)
  .ok ()

/-- One iteration of the log of a HID descriptor. -/
def logClassDescriptor (buf : List UInt8) (hidDesc i : Nat) : Except Fault Unit := do
  match ← getClassDescriptor buf hidDesc i with
  | none => .error .nullDescriptor
  | some classDesc => do
      let _ ← readByte buf classDesc
      let _ ← readWord buf (classDesc + 1)
      .ok ()

/-- The fields that the log reads.
Source: `kernel/usb/device.cpp`, `Log(LogLevel, HIDDescriptor&)` -/
def logHidDescriptor (buf : List UInt8) (hidDesc : Nat) : Except Fault Unit := do
  let _ ← readWord buf (hidDesc + 2)
  let num ← numDescriptors buf hidDesc
  (List.range num).forM (logClassDescriptor buf hidDesc)

/-! ## The initialisation of a device -/

/-- The part of a device that its initialisation fills.
Source: `kernel/usb/device.hpp`, `Device` -/
structure UsbDevice where
  /-- `class_drivers_` -/
  classDrivers : Fin 16 → Option ClassDriver
  /-- `initialize_phase_` -/
  initializePhase : Nat
  /-- `ep_configs_` -/
  epConfigs : Fin 16 → EndpointConfig
  /-- `num_ep_configs_` -/
  numEpConfigs : Nat

/-- What `InitializePhase2` returns: an error of its own, or what `ControlOut` returns for a
request. -/
inductive Phase2Return
  | error (err : Error)
  | controlOut (setupData : SetupData)
deriving DecidableEq

/-- The request of `SetConfiguration`.
Source: `kernel/usb/device.cpp`, `SetConfiguration` -/
def setConfiguration (configValue : Nat) : SetupData where
  requestType := 0
  request := 9
  value := BitVec.ofNat 16 configValue
  index := 0
  length := 0

/-- The endpoint branch of the inner loop.
Source: `kernel/usb/device.cpp`, `Device::InitializePhase2` -/
def recordEndpoint (buf : List UInt8) (classDriver : ClassDriver) (dev : UsbDevice) (epDesc : Nat) :
    Except Fault UsbDevice := do
  let conf ← makeEPConfig buf epDesc
  let epConfigs ← setAt dev.epConfigs dev.numEpConfigs conf
  let classDrivers ← setAt dev.classDrivers conf.epId.number (some classDriver)
  .ok { dev with
    epConfigs := epConfigs, numEpConfigs := dev.numEpConfigs + 1, classDrivers := classDrivers }

/-- The inner loop, with the descriptor that `Next` returned.
Source: `kernel/usb/device.cpp`, `Device::InitializePhase2` -/
def handleDescriptor (buf : List UInt8) (classDriver : ClassDriver) (dev : UsbDevice)
    (desc : Option Nat) : Except Fault UsbDevice := do
  match ← descriptorDynamicCast endpointDescriptorType buf desc with
  | some epDesc => recordEndpoint buf classDriver dev epDesc
  | none => do
      match ← descriptorDynamicCast hidDescriptorType buf desc with
      | some hidDesc => do
          logHidDescriptor buf hidDesc
          .ok dev
      | none => .ok dev

/-- One iteration of the inner loop: the next position and device, or the device at the end.
Source: `kernel/usb/device.cpp`, `Device::InitializePhase2` -/
def endpointBody (buf : List UInt8) (len ifDesc : Nat) (classDriver : ClassDriver) :
    Nat × UsbDevice → Except Fault (Nat × UsbDevice ⊕ UsbDevice)
  | (p, dev) => do
    let num ← numEndpoints buf ifDesc
    if dev.numEpConfigs < num then
      let (desc, p) ← next buf len p
      let dev ← handleDescriptor buf classDriver dev desc
      .ok (.inl (p, dev))
    else .ok (.inr dev)

/-- The body of the outer loop, with what the typed `Next` returned.
Source: `kernel/usb/device.cpp`, `Device::InitializePhase2` -/
def visitInterface (buf : List UInt8) (len : Nat) (dev : UsbDevice) :
    Option Nat × Nat → Nat → Except Fault (Nat × UsbDevice ⊕ UsbDevice × Option ClassDriver)
  | (none, _), _ => .ok (.inr (dev, none))
  | (some ifDesc, p), fuel => do
      logInterfaceDescriptor buf ifDesc
      match ← newClassDriver buf ifDesc with
      | none => .ok (.inl (p, dev))
      | some classDriver => do
          let dev ← loop .outOfFuel (endpointBody buf len ifDesc classDriver) fuel
            (p, { dev with numEpConfigs := 0 })
          .ok (.inr (dev, some classDriver))

/-- One iteration of the outer loop: the next position and device, or the device and the driver at
the end. -/
def interfaceBody (buf : List UInt8) (len fuel : Nat) (s : Nat × UsbDevice) :
    Except Fault (Nat × UsbDevice ⊕ UsbDevice × Option ClassDriver) := do
  let found ← nextDescriptor interfaceDescriptorType buf len fuel s.1
  visitInterface buf len s.2 found fuel

/-- `InitializePhase2` behind its loop.
Source: `kernel/usb/device.cpp`, `Device::InitializePhase2` -/
def finishPhase2 (buf : List UInt8) (confDesc : Nat) :
    UsbDevice × Option ClassDriver → Except Fault (Phase2Return × UsbDevice)
  | (dev, none) => .ok (.error .kSuccess, dev)
  | (dev, some _) => do
      let value ← configurationValue buf confDesc
      .ok (.controlOut (setConfiguration value), { dev with initializePhase := 3 })

/-- The bytes that can be read from `buf` on, of which the device has sent `len`.
Source: `kernel/usb/device.cpp`, `Device::InitializePhase2` -/
def initializePhase2 (dev : UsbDevice) (buf : List UInt8) (len fuel : Nat) :
    Except Fault (Phase2Return × UsbDevice) := do
  match ← descriptorDynamicCast configurationDescriptorType buf (some 0) with
  | none => .ok (.error .kInvalidDescriptor, dev)
  | some confDesc => do
      let found ← loop .outOfFuel (interfaceBody buf len fuel) fuel (0, dev)
      finishPhase2 buf confDesc found

/-! ## Bytes of the buffer -/

/-- The byte at an offset. -/
def ByteAt (buf : List UInt8) (offset byte : Nat) : Prop :=
  buf[offset]?.map UInt8.toNat = some byte

/-- Where the length byte at `p` leads. -/
def NextAt (buf : List UInt8) (p q : Nat) : Prop := ∃ length, ByteAt buf p length ∧ q = p + length

variable {buf : List UInt8} {len p q kType : Nat}

theorem readByte_eq_ok_iff {byte : Nat} : readByte buf p = .ok byte ↔ ByteAt buf p byte := by
  unfold readByte ByteAt
  rcases buf[p]? with _ | b
  · exact iff_of_false (fun h => nomatch h) fun h => nomatch h
  · exact (Except.ok.injEq _ _).to_iff.trans (Option.some.injEq _ _).to_iff.symm

theorem ByteAt.unique {byte byte' : Nat} (h : ByteAt buf p byte) (h' : ByteAt buf p byte') :
    byte = byte' :=
  Option.some.inj (Eq.trans (Eq.symm h) h')

theorem ByteAt.lt {byte : Nat} (h : ByteAt buf p byte) : p < buf.length := by
  obtain ⟨b, hb, -⟩ := Option.map_eq_some_iff.mp h
  exact (List.getElem?_eq_some_iff.mp hb).1

theorem exists_byteAt (h : p < buf.length) : ∃ byte, ByteAt buf p byte :=
  ⟨buf[p].toNat, by unfold ByteAt; rw [List.getElem?_eq_getElem h]; rfl⟩

theorem exists_readByte (h : p < buf.length) : ∃ byte, readByte buf p = .ok byte := by
  obtain ⟨byte, hbyte⟩ := exists_byteAt h
  exact ⟨byte, readByte_eq_ok_iff.mpr hbyte⟩

theorem readWord_eq_ok_iff {word : Nat} : readWord buf p = .ok word ↔
    ∃ low high, ByteAt buf p low ∧ ByteAt buf (p + 1) high ∧ word = low + 256 * high := by
  unfold readWord
  simp only [bind_eq_ok_iff, readByte_eq_ok_iff, Except.ok.injEq]
  constructor
  · rintro ⟨low, hlow, high, hhigh, rfl⟩
    exact ⟨low, high, hlow, hhigh, rfl⟩
  · rintro ⟨low, high, hlow, hhigh, rfl⟩
    exact ⟨low, hlow, high, hhigh, rfl⟩

theorem exists_readWord (h : p + 1 < buf.length) : ∃ word, readWord buf p = .ok word := by
  obtain ⟨low, hlow⟩ := exists_byteAt (Nat.lt_of_succ_lt h)
  obtain ⟨high, hhigh⟩ := exists_byteAt h
  exact ⟨_, readWord_eq_ok_iff.mpr ⟨low, high, hlow, hhigh, rfl⟩⟩

/-! ## The reader -/

/-- `Next` moves by the length byte and yields no descriptor behind the bytes that were sent. -/
theorem next_eq_ok_iff {desc : Option Nat} : next buf len p = .ok (desc, q) ↔
    NextAt buf p q ∧ desc = if q < len then some q else none := by
  unfold next NextAt
  simp only [bind_eq_ok_iff, readByte_eq_ok_iff, Except.ok.injEq, Prod.mk.injEq]
  constructor
  · rintro ⟨length, hlength, rfl, rfl⟩
    exact ⟨⟨length, hlength, rfl⟩, rfl⟩
  · rintro ⟨⟨length, hlength, rfl⟩, rfl⟩
    exact ⟨length, hlength, rfl, rfl⟩

/-- A cast needs a descriptor whose type byte is in the buffer. -/
theorem descriptorDynamicCast_eq_ok_iff {desc d : Option Nat} :
    descriptorDynamicCast kType buf desc = .ok d ↔
      ∃ q type, desc = some q ∧ ByteAt buf (q + 1) type ∧
        d = if type = kType then some q else none := by
  rcases desc with _ | q
  · exact iff_of_false (fun h => nomatch h) fun ⟨_, _, h, _⟩ => nomatch h
  · unfold descriptorDynamicCast
    simp only [bind_eq_ok_iff, readByte_eq_ok_iff, Except.ok.injEq, Option.some.injEq]
    constructor
    · rintro ⟨type, htype, rfl⟩
      exact ⟨q, type, rfl, htype, rfl⟩
    · rintro ⟨_, type, rfl, htype, rfl⟩
      exact ⟨type, htype, rfl⟩

/-- The typed `Next` passes over a descriptor of another type. -/
def Passes (kType : Nat) (buf : List UInt8) (len p q : Nat) : Prop :=
  NextAt buf p q ∧ q < len ∧ ∃ type, ByteAt buf (q + 1) type ∧ type ≠ kType

/-- The typed `Next` stops: behind the bytes that were sent or at a descriptor of its type. -/
def Stops (kType : Nat) (buf : List UInt8) (len p : Nat) (desc : Option Nat) (q : Nat) : Prop :=
  NextAt buf p q ∧
    ((len ≤ q ∧ desc = none) ∨ (q < len ∧ ByteAt buf (q + 1) kType ∧ desc = some q))

/-- One iteration of the typed `Next`. -/
theorem nextBody_eq_ok_iff {r : Nat ⊕ Option Nat × Nat} : nextBody kType buf len p = .ok r ↔
    ∃ q, NextAt buf p q ∧ ((len ≤ q ∧ r = .inr (none, q)) ∨
      (q < len ∧ ∃ type, ByteAt buf (q + 1) type ∧
        r = if type = kType then .inr (some q, q) else .inl q)) := by
  unfold nextBody
  rw [bind_eq_ok_iff]
  constructor
  · rintro ⟨⟨_ | n, q⟩, hnext, h⟩
    · cases h
      obtain ⟨hat, hn⟩ := next_eq_ok_iff.mp hnext
      split_ifs at hn with hlt
      exact ⟨q, hat, Or.inl ⟨Nat.le_of_not_lt hlt, rfl⟩⟩
    · obtain ⟨hat, hn⟩ := next_eq_ok_iff.mp hnext
      split_ifs at hn with hlt
      cases hn
      obtain ⟨d, hcast, h⟩ := bind_eq_ok_iff.mp h
      obtain ⟨_, type, hq, htype, rfl⟩ := descriptorDynamicCast_eq_ok_iff.mp hcast
      cases hq
      refine ⟨_, hat, Or.inr ⟨hlt, type, htype, ?_⟩⟩
      split_ifs at h with heq
      · rw [if_pos heq]
        exact (Except.ok.inj h).symm
      · rw [if_neg heq]
        exact (Except.ok.inj h).symm
  · rintro ⟨q, hat, ⟨hend, rfl⟩ | ⟨hlt, type, htype, rfl⟩⟩
    · exact ⟨(none, q), next_eq_ok_iff.mpr ⟨hat, (if_neg (Nat.not_lt.mpr hend)).symm⟩, rfl⟩
    · refine ⟨(some q, q), next_eq_ok_iff.mpr ⟨hat, (if_pos hlt).symm⟩, ?_⟩
      refine bind_eq_ok_iff.mpr ⟨_, descriptorDynamicCast_eq_ok_iff.mpr
        ⟨q, type, rfl, htype, rfl⟩, ?_⟩
      split_ifs <;> rfl

theorem nextBody_next_iff : nextBody kType buf len p = .ok (.inl q) ↔ Passes kType buf len p q := by
  unfold Passes
  rw [nextBody_eq_ok_iff]
  constructor
  · rintro ⟨q', hat, ⟨-, h⟩ | ⟨hlt, type, htype, h⟩⟩
    · cases h
    · split_ifs at h with heq
      cases h
      exact ⟨hat, hlt, type, htype, heq⟩
  · rintro ⟨hat, hlt, type, htype, hne⟩
    exact ⟨q, hat, Or.inr ⟨hlt, type, htype, (if_neg hne).symm⟩⟩

theorem nextBody_done_iff {desc : Option Nat} :
    nextBody kType buf len p = .ok (.inr (desc, q)) ↔ Stops kType buf len p desc q := by
  unfold Stops
  rw [nextBody_eq_ok_iff]
  constructor
  · rintro ⟨q', hat, ⟨hend, h⟩ | ⟨hlt, type, htype, h⟩⟩
    · cases h
      exact ⟨hat, Or.inl ⟨hend, rfl⟩⟩
    · split_ifs at h with heq
      cases h
      exact ⟨hat, Or.inr ⟨hlt, heq ▸ htype, rfl⟩⟩
  · rintro ⟨hat, ⟨hend, rfl⟩ | ⟨hlt, htype, rfl⟩⟩
    · exact ⟨q, hat, Or.inl ⟨hend, rfl⟩⟩
    · exact ⟨q, hat, Or.inr ⟨hlt, kType, htype, (if_pos rfl).symm⟩⟩

theorem grows_nextDescriptor (kType : Nat) (buf : List UInt8) (len p : Nat) :
    Grows fun fuel => nextDescriptor kType buf len fuel p :=
  Grows.loop (fun p => grows_const (nextBody kType buf len p)) p

/-- **The typed `Next`** walks to the first descriptor of its type, or to the end. -/
theorem nextDescriptor_returns_iff {desc : Option Nat} :
    Returns (fun fuel => nextDescriptor kType buf len fuel p) (desc, q) ↔
      ∃ p', ReflTransGen (Passes kType buf len) p p' ∧ Stops kType buf len p' desc q := by
  unfold nextDescriptor
  rw [returns_loop_const_iff]
  simp only [nextBody_next_iff, nextBody_done_iff]

/-! ## Endpoints -/

theorem setAt_eq_ok_iff {α : Type} {a a' : Fin 16 → α} {i : Nat} {value : α} :
    setAt a i value = .ok a' ↔ ∃ h : i < 16, a' = Function.update a ⟨i, h⟩ value := by
  unfold setAt
  split_ifs with h
  · rw [Except.ok.injEq, exists_prop_of_true h]
    exact eq_comm
  · exact iff_of_false (fun h' => nomatch h') fun ⟨h', _⟩ => h h'

/-- The fields of an endpoint descriptor, decoded. -/
theorem makeEPConfig_eq_ok_iff {conf : EndpointConfig} : makeEPConfig buf q = .ok conf ↔
    ∃ address attributes maxPacketSize interval, ByteAt buf (q + 2) address ∧
      ByteAt buf (q + 3) attributes ∧ readWord buf (q + 4) = .ok maxPacketSize ∧
      ByteAt buf (q + 6) interval ∧
      conf = ⟨.new (address % 16) (decide (address / 128 = 1)), .ofBits (attributes % 4),
        maxPacketSize, interval⟩ := by
  unfold makeEPConfig
  simp only [bind_eq_ok_iff, readByte_eq_ok_iff, Except.ok.injEq]
  constructor
  · rintro ⟨address, haddress, attributes, hattributes, size, hsize, interval, hinterval, rfl⟩
    exact ⟨address, attributes, size, interval, haddress, hattributes, hsize, hinterval, rfl⟩
  · rintro ⟨address, attributes, size, interval, haddress, hattributes, hsize, hinterval, rfl⟩
    exact ⟨address, haddress, attributes, hattributes, size, hsize, interval, hinterval, rfl⟩

/-- The endpoint id is made of the address byte. -/
theorem epId_of_makeEPConfig {conf : EndpointConfig} {address : Nat}
    (h : makeEPConfig buf q = .ok conf) (haddress : ByteAt buf (q + 2) address) :
    conf.epId = .new (address % 16) (decide (address / 128 = 1)) := by
  obtain ⟨address', _, _, _, haddress', -, -, -, rfl⟩ := makeEPConfig_eq_ok_iff.mp h
  rw [haddress.unique haddress']

/-- An endpoint descriptor can be read if it lies in the buffer. -/
theorem exists_makeEPConfig_iff :
    (∃ conf, makeEPConfig buf q = .ok conf) ↔ q + 6 < buf.length := by
  constructor
  · rintro ⟨conf, h⟩
    obtain ⟨_, _, _, _, -, -, -, hinterval, -⟩ := makeEPConfig_eq_ok_iff.mp h
    exact hinterval.lt
  · intro h
    obtain ⟨address, haddress⟩ := exists_byteAt (show q + 2 < buf.length by omega)
    obtain ⟨attributes, hattributes⟩ := exists_byteAt (show q + 3 < buf.length by omega)
    obtain ⟨size, hsize⟩ := exists_readWord (show q + 4 + 1 < buf.length by omega)
    obtain ⟨interval, hinterval⟩ := exists_byteAt h
    exact ⟨_, makeEPConfig_eq_ok_iff.mpr
      ⟨address, attributes, size, interval, haddress, hattributes, hsize, hinterval, rfl⟩⟩

/-- An endpoint is recorded behind the others, and its number is mapped to the driver. -/
theorem recordEndpoint_eq_ok_iff {classDriver : ClassDriver} {dev dev' : UsbDevice} :
    recordEndpoint buf classDriver dev q = .ok dev' ↔
      ∃ conf, makeEPConfig buf q = .ok conf ∧
        ∃ (hroom : dev.numEpConfigs < 16) (hnumber : conf.epId.number < 16),
          dev' = { dev with
            epConfigs := Function.update dev.epConfigs ⟨_, hroom⟩ conf
            numEpConfigs := dev.numEpConfigs + 1
            classDrivers := Function.update dev.classDrivers ⟨_, hnumber⟩ (some classDriver) } := by
  unfold recordEndpoint
  simp only [bind_eq_ok_iff, setAt_eq_ok_iff, Except.ok.injEq]
  constructor
  · rintro ⟨conf, hconf, _, ⟨hroom, rfl⟩, _, ⟨hnumber, rfl⟩, rfl⟩
    exact ⟨conf, hconf, hroom, hnumber, rfl⟩
  · rintro ⟨conf, hconf, hroom, hnumber, rfl⟩
    exact ⟨conf, hconf, _, ⟨hroom, rfl⟩, _, ⟨hnumber, rfl⟩, rfl⟩

/-- Every number in an endpoint descriptor is an index of `class_drivers_`. -/
theorem number_of_makeEPConfig {conf : EndpointConfig} (h : makeEPConfig buf q = .ok conf) :
    conf.epId.number < 16 := by
  obtain ⟨address, _, _, _, -, -, -, -, rfl⟩ := makeEPConfig_eq_ok_iff.mp h
  rw [EndpointID.number_new]
  exact Nat.mod_lt _ (by decide)

/-! ## HID descriptors -/

theorem logClassDescriptor_eq_ok_iff {num i : Nat} (hnum : ByteAt buf (q + 5) num) (hi : i < num) :
    logClassDescriptor buf q i = .ok () ↔ q + 6 + 3 * i + 2 < buf.length := by
  have hget : getClassDescriptor buf q i = .ok (some (q + 6 + 3 * i)) :=
    bind_eq_ok_iff.mpr ⟨num, readByte_eq_ok_iff.mpr hnum, by rw [if_neg (Nat.not_le.mpr hi)]⟩
  have hread : logClassDescriptor buf q i =
      (readByte buf (q + 6 + 3 * i) >>= fun _ => readWord buf (q + 6 + 3 * i + 1) >>= fun _ =>
        .ok ()) := by
    unfold logClassDescriptor
    rw [hget]
    rfl
  rw [hread]
  constructor
  · intro h
    obtain ⟨_, -, h⟩ := bind_eq_ok_iff.mp h
    obtain ⟨_, hword, -⟩ := bind_eq_ok_iff.mp h
    obtain ⟨_, _, -, hhigh, -⟩ := readWord_eq_ok_iff.mp hword
    exact hhigh.lt
  · intro h
    obtain ⟨byte, hbyte⟩ := exists_readByte (show q + 6 + 3 * i < buf.length by omega)
    obtain ⟨word, hword⟩ := exists_readWord (show q + 6 + 3 * i + 1 + 1 < buf.length by omega)
    exact bind_eq_ok_iff.mpr ⟨byte, hbyte, bind_eq_ok_iff.mpr ⟨word, hword, rfl⟩⟩

/-- **The log of a HID descriptor** reads behind it as many class descriptors as it says. -/
theorem logHidDescriptor_eq_ok_iff : logHidDescriptor buf q = .ok () ↔
    ∃ num, ByteAt buf (q + 5) num ∧ q + 6 + 3 * num ≤ buf.length := by
  unfold logHidDescriptor numDescriptors
  simp only [bind_eq_ok_iff, readByte_eq_ok_iff, forM_eq_ok_iff, List.mem_range]
  constructor
  · rintro ⟨_, -, num, hnum, hall⟩
    refine ⟨num, hnum, ?_⟩
    rcases Nat.eq_zero_or_pos num with rfl | hpos
    · exact hnum.lt
    · have hlast := (logClassDescriptor_eq_ok_iff hnum (Nat.sub_one_lt_of_lt hpos)).mp
        (hall (num - 1) (Nat.sub_one_lt_of_lt hpos))
      omega
  · rintro ⟨num, hnum, hend⟩
    obtain ⟨release, hrelease⟩ := exists_readWord (show q + 2 + 1 < buf.length by omega)
    refine ⟨release, hrelease, num, hnum, fun i hi => ?_⟩
    exact (logClassDescriptor_eq_ok_iff hnum hi).mpr (by omega)

/-! ## The inner loop -/

variable {ifDesc m : Nat} {classDriver : ClassDriver} {dev dev' : UsbDevice}

/-- What an iteration over the endpoints does with the descriptor at `q`. -/
def Handles (buf : List UInt8) (classDriver : ClassDriver) (dev : UsbDevice) (q : Nat)
    (dev' : UsbDevice) : Prop :=
  (ByteAt buf (q + 1) endpointDescriptorType ∧ recordEndpoint buf classDriver dev q = .ok dev') ∨
    (dev' = dev ∧ ∃ type, ByteAt buf (q + 1) type ∧ type ≠ endpointDescriptorType ∧
      (type = hidDescriptorType → logHidDescriptor buf q = .ok ()))

theorem handleDescriptor_eq_ok_iff {desc : Option Nat} :
    handleDescriptor buf classDriver dev desc = .ok dev' ↔
      ∃ q, desc = some q ∧ Handles buf classDriver dev q dev' := by
  unfold handleDescriptor Handles
  rw [bind_eq_ok_iff]
  constructor
  · rintro ⟨d, hcast, h⟩
    obtain ⟨q, type, rfl, htype, rfl⟩ := descriptorDynamicCast_eq_ok_iff.mp hcast
    refine ⟨q, rfl, ?_⟩
    split_ifs at h with hendpoint
    · subst hendpoint
      exact Or.inl ⟨htype, h⟩
    · obtain ⟨d, hcast, h⟩ := bind_eq_ok_iff.mp h
      obtain ⟨_, type', hq, htype', rfl⟩ := descriptorDynamicCast_eq_ok_iff.mp hcast
      cases hq
      obtain rfl := htype.unique htype'
      split_ifs at h with hhid
      · obtain ⟨_, hlog, h⟩ := bind_eq_ok_iff.mp h
        cases h
        exact Or.inr ⟨rfl, type, htype, hendpoint, fun _ => hlog⟩
      · cases h
        exact Or.inr ⟨rfl, type, htype, hendpoint, fun heq => absurd heq hhid⟩
  · rintro ⟨q, rfl, ⟨htype, hrecord⟩ | ⟨rfl, type, htype, hendpoint, hlog⟩⟩
    · refine ⟨some q, descriptorDynamicCast_eq_ok_iff.mpr ⟨q, _, rfl, htype, ?_⟩, hrecord⟩
      exact (if_pos rfl).symm
    · refine ⟨none, descriptorDynamicCast_eq_ok_iff.mpr ⟨q, _, rfl, htype, ?_⟩, ?_⟩
      · exact (if_neg hendpoint).symm
      · refine bind_eq_ok_iff.mpr ⟨_, descriptorDynamicCast_eq_ok_iff.mpr ⟨q, _, rfl, htype, rfl⟩, ?_⟩
        split_ifs with hhid
        · exact bind_eq_ok_iff.mpr ⟨_, hlog hhid, rfl⟩
        · rfl

/-- The test of the inner loop, with the number of endpoints that the interface says. -/
theorem endpointBody_eq (hnum : ByteAt buf (ifDesc + 4) m) :
    endpointBody buf len ifDesc classDriver (p, dev) =
      if dev.numEpConfigs < m then next buf len p >>= fun found =>
        handleDescriptor buf classDriver dev found.1 >>= fun dev => .ok (.inl (found.2, dev))
      else .ok (.inr dev) := by
  unfold endpointBody numEndpoints
  rw [readByte_eq_ok_iff.mpr hnum]
  rfl

/-- **An iteration over the endpoints.** -/
theorem endpointBody_next_iff (hnum : ByteAt buf (ifDesc + 4) m) :
    endpointBody buf len ifDesc classDriver (p, dev) = .ok (.inl (q, dev')) ↔
      dev.numEpConfigs < m ∧ NextAt buf p q ∧ q < len ∧ Handles buf classDriver dev q dev' := by
  rw [endpointBody_eq hnum]
  split_ifs with hlt
  · rw [bind_eq_ok_iff, and_iff_right hlt]
    constructor
    · rintro ⟨⟨desc, q'⟩, hnext, h⟩
      obtain ⟨hat, hdesc⟩ := next_eq_ok_iff.mp hnext
      obtain ⟨dev₁, hhandle, h⟩ := bind_eq_ok_iff.mp h
      cases h
      obtain ⟨q', rfl, hhandled⟩ := handleDescriptor_eq_ok_iff.mp hhandle
      split_ifs at hdesc with hq
      cases hdesc
      exact ⟨hat, hq, hhandled⟩
    · rintro ⟨hat, hq, hhandle⟩
      refine ⟨(some q, q), next_eq_ok_iff.mpr ⟨hat, (if_pos hq).symm⟩, ?_⟩
      exact bind_eq_ok_iff.mpr ⟨dev', handleDescriptor_eq_ok_iff.mpr ⟨q, rfl, hhandle⟩, rfl⟩
  · exact iff_of_false (fun h => nomatch h) fun h => hlt h.1

/-- The loop ends when it has counted all endpoints. -/
theorem endpointBody_done_iff (hnum : ByteAt buf (ifDesc + 4) m) :
    endpointBody buf len ifDesc classDriver (p, dev) = .ok (.inr dev') ↔
      m ≤ dev.numEpConfigs ∧ dev' = dev := by
  rw [endpointBody_eq hnum]
  split_ifs with hlt
  · refine iff_of_false (fun h => ?_) fun h => Nat.not_le.mpr hlt h.1
    obtain ⟨_, -, h⟩ := bind_eq_ok_iff.mp h
    obtain ⟨_, -, h⟩ := bind_eq_ok_iff.mp h
    cases h
  · rw [and_iff_right (Nat.le_of_not_lt hlt), Except.ok.injEq, Sum.inr.injEq]
    exact eq_comm

/-- One iteration over the endpoints of an interface with `m` of them. -/
def Iterates (buf : List UInt8) (len : Nat) (classDriver : ClassDriver) (m : Nat)
    (s t : Nat × UsbDevice) : Prop :=
  s.2.numEpConfigs < m ∧ NextAt buf s.1 t.1 ∧ t.1 < len ∧ Handles buf classDriver s.2 t.1 t.2

/-- **The inner loop.** -/
theorem endpointLoop_returns_iff (hnum : ByteAt buf (ifDesc + 4) m) :
    Returns (fun fuel => loop .outOfFuel (endpointBody buf len ifDesc classDriver) fuel (p, dev))
        dev' ↔
      ∃ q, ReflTransGen (Iterates buf len classDriver m) (p, dev) (q, dev') ∧
        m ≤ dev'.numEpConfigs := by
  have hnext : (fun s t => endpointBody buf len ifDesc classDriver s = .ok (.inl t)) =
      Iterates buf len classDriver m := by
    funext ⟨p, dev⟩ ⟨q, dev'⟩
    exact propext (endpointBody_next_iff hnum)
  rw [returns_loop_const_iff, hnext]
  constructor
  · rintro ⟨⟨q, dev₁⟩, hpath, h⟩
    obtain ⟨hend, rfl⟩ := (endpointBody_done_iff hnum).mp h
    exact ⟨q, hpath, hend⟩
  · rintro ⟨q, hpath, hend⟩
    exact ⟨(q, dev'), hpath, (endpointBody_done_iff hnum).mpr ⟨hend, rfl⟩⟩

/-! ## The outer loop -/

theorem ByteAt.iff_eq {byte byte' : Nat} (h : ByteAt buf p byte) :
    ByteAt buf p byte' ↔ byte = byte' :=
  ⟨h.unique, fun heq => heq ▸ h⟩

/-- The HID boot interface of a keyboard or a mouse. -/
def BootInterface (buf : List UInt8) (ifDesc : Nat) : Prop :=
  ByteAt buf (ifDesc + 5) 3 ∧ ByteAt buf (ifDesc + 6) 1 ∧
    (ByteAt buf (ifDesc + 7) 1 ∨ ByteAt buf (ifDesc + 7) 2)

theorem logInterfaceDescriptor_eq_ok_iff :
    logInterfaceDescriptor buf q = .ok () ↔ q + 7 < buf.length := by
  unfold logInterfaceDescriptor
  simp only [bind_eq_ok_iff, readByte_eq_ok_iff, exists_and_right]
  constructor
  · rintro ⟨-, -, ⟨_, hlast⟩, -⟩
    exact hlast.lt
  · intro h
    exact ⟨exists_byteAt (by omega), exists_byteAt (by omega), exists_byteAt h, trivial⟩

/-- **The choice of a driver** by class, subclass and protocol. -/
theorem newClassDriver_eq {interfaceClass interfaceSubClass interfaceProtocol interfaceNumber : Nat}
    (hclass : ByteAt buf (q + 5) interfaceClass) (hsub : ByteAt buf (q + 6) interfaceSubClass)
    (hprotocol : ByteAt buf (q + 7) interfaceProtocol)
    (hnumber : ByteAt buf (q + 2) interfaceNumber) :
    newClassDriver buf q = .ok (if interfaceClass = 3 ∧ interfaceSubClass = 1 then
      if interfaceProtocol = 1 then some (.hidKeyboard interfaceNumber)
      else if interfaceProtocol = 2 then some (.hidMouse interfaceNumber)
      else none
    else none) := by
  unfold newClassDriver
  rw [readByte_eq_ok_iff.mpr hclass, readByte_eq_ok_iff.mpr hsub,
    readByte_eq_ok_iff.mpr hprotocol, readByte_eq_ok_iff.mpr hnumber]
  by_cases h3 : interfaceClass = 3
  · by_cases h1 : interfaceSubClass = 1
    · rw [if_pos ⟨h3, h1⟩]
      show (if interfaceClass = 3 then if interfaceSubClass = 1 then
        if interfaceProtocol = 1 then _ else if interfaceProtocol = 2 then _ else _ else _ else _) = _
      rw [if_pos h3, if_pos h1]
      split_ifs <;> rfl
    · rw [if_neg fun h => h1 h.2]
      show (if interfaceClass = 3 then if interfaceSubClass = 1 then _ else _ else _) = _
      rw [if_pos h3, if_neg h1]
  · rw [if_neg fun h => h3 h.1]
    show (if interfaceClass = 3 then _ else _) = _
    rw [if_neg h3]

/-- Whether there is a driver depends on the three bytes alone. -/
theorem newClassDriver_cases (hend : q + 7 < buf.length) :
    (BootInterface buf q ∧ ∃ classDriver, newClassDriver buf q = .ok (some classDriver)) ∨
      (¬BootInterface buf q ∧ newClassDriver buf q = .ok none) := by
  obtain ⟨interfaceClass, hclass⟩ := exists_byteAt (show q + 5 < buf.length by omega)
  obtain ⟨interfaceSubClass, hsub⟩ := exists_byteAt (show q + 6 < buf.length by omega)
  obtain ⟨interfaceProtocol, hprotocol⟩ := exists_byteAt hend
  obtain ⟨interfaceNumber, hnumber⟩ := exists_byteAt (show q + 2 < buf.length by omega)
  rw [newClassDriver_eq hclass hsub hprotocol hnumber]
  unfold BootInterface
  rw [hclass.iff_eq, hsub.iff_eq, hprotocol.iff_eq, hprotocol.iff_eq]
  split_ifs with hboot hkeyboard hmouse
  · exact Or.inl ⟨⟨hboot.1, hboot.2, Or.inl hkeyboard⟩, _, rfl⟩
  · exact Or.inl ⟨⟨hboot.1, hboot.2, Or.inr hmouse⟩, _, rfl⟩
  · exact Or.inr ⟨fun h => h.2.2.elim hkeyboard hmouse, rfl⟩
  · exact Or.inr ⟨fun h => hboot ⟨h.1, h.2.1⟩, rfl⟩

/-- The outer loop goes on behind an interface that has no driver. -/
def Refuses (buf : List UInt8) (len p q : Nat) : Prop :=
  NextAt buf p q ∧ q < len ∧ ByteAt buf (q + 1) interfaceDescriptorType ∧ q + 7 < buf.length ∧
    ¬BootInterface buf q

/-- The descriptor at `q` is the interface that gets the driver, and its endpoints are recorded. -/
def Accepts (buf : List UInt8) (len : Nat) (dev : UsbDevice) (q : Nat) (dev' : UsbDevice)
    (classDriver : ClassDriver) : Prop :=
  q < len ∧ ByteAt buf (q + 1) interfaceDescriptorType ∧ q + 7 < buf.length ∧
    newClassDriver buf q = .ok (some classDriver) ∧
    Returns (fun fuel => loop .outOfFuel (endpointBody buf len q classDriver) fuel
      (q, { dev with numEpConfigs := 0 })) dev'

theorem grows_endpointLoop (buf : List UInt8) (len ifDesc : Nat) (classDriver : ClassDriver)
    (s : Nat × UsbDevice) :
    Grows fun fuel => loop .outOfFuel (endpointBody buf len ifDesc classDriver) fuel s :=
  Grows.loop (fun s => grows_const (endpointBody buf len ifDesc classDriver s)) s

theorem grows_visitInterface (buf : List UInt8) (len : Nat) (dev : UsbDevice)
    (found : Option Nat × Nat) : Grows (visitInterface buf len dev found) := by
  rcases found with ⟨_ | ifDesc, p⟩
  · exact grows_const _
  · apply Grows.bind (grows_const _)
    intro _
    apply Grows.bind (grows_const _)
    rintro (_ | classDriver)
    · exact grows_const _
    · exact Grows.bind (grows_endpointLoop buf len ifDesc classDriver _) fun _ => grows_const _

theorem grows_interfaceBody (buf : List UInt8) (len : Nat) (s : Nat × UsbDevice) :
    Grows fun fuel => interfaceBody buf len fuel s :=
  Grows.bind (grows_nextDescriptor interfaceDescriptorType buf len s.1)
    (grows_visitInterface buf len s.2)

/-- An interface that gets a driver. -/
theorem visitInterface_of_driver (hend : ifDesc + 7 < buf.length)
    (hdriver : newClassDriver buf ifDesc = .ok (some classDriver)) :
    visitInterface buf len dev (some ifDesc, p) = fun fuel =>
      loop .outOfFuel (endpointBody buf len ifDesc classDriver) fuel
        (p, { dev with numEpConfigs := 0 }) >>= fun dev₁ =>
      .ok (.inr (dev₁, some classDriver)) := by
  funext fuel
  simp only [visitInterface]
  rw [logInterfaceDescriptor_eq_ok_iff.mpr hend, hdriver]
  rfl

/-- An interface that gets none. -/
theorem visitInterface_of_none (hend : ifDesc + 7 < buf.length)
    (hnone : newClassDriver buf ifDesc = .ok none) :
    visitInterface buf len dev (some ifDesc, p) = fun _ => .ok (.inl (p, dev)) := by
  funext fuel
  simp only [visitInterface]
  rw [logInterfaceDescriptor_eq_ok_iff.mpr hend, hnone]
  rfl

/-- What the outer loop does with an interface. -/
theorem visitInterface_returns_iff {r : Nat × UsbDevice ⊕ UsbDevice × Option ClassDriver} :
    Returns (visitInterface buf len dev (some ifDesc, p)) r ↔ ifDesc + 7 < buf.length ∧
      ((¬BootInterface buf ifDesc ∧ r = .inl (p, dev)) ∨
        ∃ classDriver dev₁, newClassDriver buf ifDesc = .ok (some classDriver) ∧
          Returns (fun fuel => loop .outOfFuel (endpointBody buf len ifDesc classDriver) fuel
            (p, { dev with numEpConfigs := 0 })) dev₁ ∧ r = .inr (dev₁, some classDriver)) := by
  by_cases hend : ifDesc + 7 < buf.length
  · rw [and_iff_right hend]
    rcases newClassDriver_cases hend with ⟨hboot, classDriver, hdriver⟩ | ⟨hboot, hnone⟩
    · rw [visitInterface_of_driver hend hdriver,
        returns_bind_iff (grows_endpointLoop buf len ifDesc classDriver _) fun _ => grows_const _]
      simp only [returns_const_iff, Except.ok.injEq]
      constructor
      · rintro ⟨dev₁, hdev₁, hr⟩
        exact Or.inr ⟨classDriver, dev₁, hdriver, hdev₁, hr.symm⟩
      · rintro (⟨hrefused, -⟩ | ⟨classDriver', dev₁, hdriver', hdev₁, hr⟩)
        · exact absurd hboot hrefused
        · rw [hdriver] at hdriver'
          cases hdriver'
          exact ⟨dev₁, hdev₁, hr.symm⟩
    · rw [visitInterface_of_none hend hnone, returns_const_iff, Except.ok.injEq]
      constructor
      · intro h
        exact Or.inl ⟨hboot, h.symm⟩
      · rintro (⟨-, hr⟩ | ⟨_, _, hdriver, -⟩)
        · exact hr.symm
        · rw [hnone] at hdriver
          cases hdriver
  · refine iff_of_false ?_ fun h => hend h.1
    rintro ⟨fuel, h⟩
    obtain ⟨_, hlog, -⟩ := bind_eq_ok_iff.mp h
    exact hend (logInterfaceDescriptor_eq_ok_iff.mp hlog)

theorem interfaceBody_returns_iff {r : Nat × UsbDevice ⊕ UsbDevice × Option ClassDriver} :
    Returns (fun fuel => interfaceBody buf len fuel (p, dev)) r ↔
      ∃ p' q, ReflTransGen (Passes interfaceDescriptorType buf len) p p' ∧ NextAt buf p' q ∧
        ((len ≤ q ∧ r = .inr (dev, none)) ∨
          (q < len ∧ ByteAt buf (q + 1) interfaceDescriptorType ∧
            Returns (visitInterface buf len dev (some q, q)) r)) := by
  unfold interfaceBody
  rw [returns_bind_iff (grows_nextDescriptor interfaceDescriptorType buf len p)
    (grows_visitInterface buf len dev)]
  constructor
  · rintro ⟨⟨desc, q⟩, hfound, h⟩
    obtain ⟨p', hpath, hat, ⟨hend, rfl⟩ | ⟨hlt, htype, rfl⟩⟩ := nextDescriptor_returns_iff.mp hfound
    · obtain ⟨_, hr⟩ := h
      cases hr
      exact ⟨p', q, hpath, hat, Or.inl ⟨hend, rfl⟩⟩
    · exact ⟨p', q, hpath, hat, Or.inr ⟨hlt, htype, h⟩⟩
  · rintro ⟨p', q, hpath, hat, ⟨hend, rfl⟩ | ⟨hlt, htype, h⟩⟩
    · refine ⟨(none, q), nextDescriptor_returns_iff.mpr ⟨p', hpath, hat, ?_⟩, 0, rfl⟩
      exact Or.inl ⟨hend, rfl⟩
    · refine ⟨(some q, q), nextDescriptor_returns_iff.mpr ⟨p', hpath, hat, ?_⟩, h⟩
      exact Or.inr ⟨hlt, htype, rfl⟩

/-- **An iteration over the interfaces** that goes on leaves the device alone. -/
theorem interfaceBody_next_iff :
    Returns (fun fuel => interfaceBody buf len fuel (p, dev)) (.inl (q, dev')) ↔
      dev' = dev ∧ ∃ p', ReflTransGen (Passes interfaceDescriptorType buf len) p p' ∧
        Refuses buf len p' q := by
  rw [interfaceBody_returns_iff]
  constructor
  · rintro ⟨p', q', hpath, hat, ⟨-, h⟩ | ⟨hlt, htype, h⟩⟩
    · cases h
    · obtain ⟨hend, ⟨hboot, h⟩ | ⟨_, _, -, -, h⟩⟩ := visitInterface_returns_iff.mp h
      · cases h
        exact ⟨rfl, p', hpath, hat, hlt, htype, hend, hboot⟩
      · cases h
  · rintro ⟨rfl, p', hpath, hat, hlt, htype, hend, hboot⟩
    refine ⟨p', q, hpath, hat, Or.inr ⟨hlt, htype, visitInterface_returns_iff.mpr ⟨hend, ?_⟩⟩⟩
    exact Or.inl ⟨hboot, rfl⟩

/-- **The last iteration over the interfaces** is behind the bytes that were sent or at the interface
that gets the driver. -/
theorem interfaceBody_done_iff {found : Option ClassDriver} :
    Returns (fun fuel => interfaceBody buf len fuel (p, dev)) (.inr (dev', found)) ↔
      ∃ p' q, ReflTransGen (Passes interfaceDescriptorType buf len) p p' ∧ NextAt buf p' q ∧
        ((len ≤ q ∧ dev' = dev ∧ found = none) ∨
          ∃ classDriver, found = some classDriver ∧ Accepts buf len dev q dev' classDriver) := by
  rw [interfaceBody_returns_iff]
  constructor
  · rintro ⟨p', q, hpath, hat, ⟨hend, h⟩ | ⟨hlt, htype, h⟩⟩
    · cases h
      exact ⟨p', q, hpath, hat, Or.inl ⟨hend, rfl, rfl⟩⟩
    · obtain ⟨hend, ⟨-, h⟩ | ⟨classDriver, dev₁, hdriver, hloop, h⟩⟩ :=
        visitInterface_returns_iff.mp h
      · cases h
      · cases h
        exact ⟨p', q, hpath, hat, Or.inr ⟨classDriver, rfl, hlt, htype, hend, hdriver, hloop⟩⟩
  · rintro ⟨p', q, hpath, hat, ⟨hend, rfl, rfl⟩ |
      ⟨classDriver, rfl, hlt, htype, hend, hdriver, hloop⟩⟩
    · exact ⟨p', q, hpath, hat, Or.inl ⟨hend, rfl⟩⟩
    · refine ⟨p', q, hpath, hat, Or.inr ⟨hlt, htype, visitInterface_returns_iff.mpr ⟨hend, ?_⟩⟩⟩
      exact Or.inr ⟨classDriver, dev', hdriver, hloop, rfl⟩

/-- What the search for an interface leaves behind. -/
def Skips (buf : List UInt8) (len p q : Nat) : Prop :=
  Passes interfaceDescriptorType buf len p q ∨ Refuses buf len p q

/-- The iterations over the interfaces, as a path of positions. -/
theorem interfacePath_iff {s t : Nat × UsbDevice} :
    ReflTransGen (fun s t => Returns (fun fuel => interfaceBody buf len fuel s) (.inl t)) s t ↔
      t.2 = s.2 ∧ ReflTransGen (fun p q => ∃ p',
        ReflTransGen (Passes interfaceDescriptorType buf len) p p' ∧ Refuses buf len p' q)
          s.1 t.1 := by
  constructor
  · intro h
    induction h using ReflTransGen.head_induction_on with
    | refl => exact ⟨rfl, .refl⟩
    | @head s s₁ hstep _ ih =>
        obtain ⟨heq, hrefuse⟩ := interfaceBody_next_iff.mp hstep
        exact ⟨ih.1.trans heq, ih.2.head hrefuse⟩
  · obtain ⟨p, dev⟩ := s
    obtain ⟨q, dev'⟩ := t
    rintro ⟨heq, hpath⟩
    obtain rfl : dev' = dev := heq
    refine ReflTransGen.lift (fun p => (p, dev')) (fun p q hstep => ?_) _ _ hpath
    exact interfaceBody_next_iff.mpr ⟨rfl, hstep⟩

/-- **The outer loop.** -/
theorem interfaceLoop_returns_iff {found : Option ClassDriver} :
    Returns (fun fuel => loop .outOfFuel (interfaceBody buf len fuel) fuel (p, dev)) (dev', found) ↔
      ∃ p' q, ReflTransGen (Skips buf len) p p' ∧ NextAt buf p' q ∧
        ((len ≤ q ∧ dev' = dev ∧ found = none) ∨
          ∃ classDriver, found = some classDriver ∧ Accepts buf len dev q dev' classDriver) := by
  rw [returns_loop_iff (grows_interfaceBody buf len)]
  constructor
  · rintro ⟨⟨p₁, dev₁⟩, hpath, hdone⟩
    obtain ⟨heq, houter⟩ := interfacePath_iff.mp hpath
    obtain rfl : dev₁ = dev := heq
    obtain ⟨p', q, hinner, hlast⟩ := interfaceBody_done_iff.mp hdone
    exact ⟨p', q, reflTransGen_or_iff.mpr ⟨p₁, houter, hinner⟩, hlast⟩
  · rintro ⟨p', q, hpath, hlast⟩
    obtain ⟨p₁, houter, hinner⟩ := reflTransGen_or_iff.mp hpath
    exact ⟨(p₁, dev), interfacePath_iff.mpr ⟨rfl, houter⟩,
      interfaceBody_done_iff.mpr ⟨p', q, hinner, hlast⟩⟩

/-! ## `InitializePhase2` -/

theorem grows_initializePhase2 (dev : UsbDevice) (buf : List UInt8) (len : Nat) :
    Grows (initializePhase2 dev buf len) := by
  apply Grows.bind (grows_const _)
  rintro (_ | confDesc)
  · exact grows_const _
  · exact Grows.bind (Grows.loop (grows_interfaceBody buf len) _) fun _ => grows_const _

/-- **`InitializePhase2` without a fault**, for a buffer that begins with a configuration
descriptor. -/
theorem initializePhase2_returns_iff (htype : ByteAt buf 1 configurationDescriptorType)
    {ret : Phase2Return} : Returns (initializePhase2 dev buf len) (ret, dev') ↔
      ∃ p q, ReflTransGen (Skips buf len) 0 p ∧ NextAt buf p q ∧
        ((len ≤ q ∧ ret = .error .kSuccess ∧ dev' = dev) ∨
          ∃ dev₁ classDriver value, Accepts buf len dev q dev₁ classDriver ∧ ByteAt buf 5 value ∧
            ret = .controlOut (setConfiguration value) ∧
            dev' = { dev₁ with initializePhase := 3 }) := by
  have hphase2 : initializePhase2 dev buf len = fun fuel =>
      loop .outOfFuel (interfaceBody buf len fuel) fuel (0, dev) >>= fun found =>
      finishPhase2 buf 0 found := by
    have hcast : descriptorDynamicCast configurationDescriptorType buf (some 0) = .ok (some 0) :=
      descriptorDynamicCast_eq_ok_iff.mpr ⟨0, _, rfl, htype, (if_pos rfl).symm⟩
    funext fuel
    unfold initializePhase2
    rw [hcast]
    rfl
  rw [hphase2, returns_bind_iff (Grows.loop (grows_interfaceBody buf len) _) fun _ => grows_const _]
  constructor
  · rintro ⟨⟨dev₁, found⟩, hloop, hfinish⟩
    rw [returns_const_iff] at hfinish
    obtain ⟨p, q, hpath, hat, ⟨hend, rfl, rfl⟩ | ⟨classDriver, rfl, haccepts⟩⟩ :=
      interfaceLoop_returns_iff.mp hloop
    · cases hfinish
      exact ⟨p, q, hpath, hat, Or.inl ⟨hend, rfl, rfl⟩⟩
    · obtain ⟨value, hvalue, h⟩ := bind_eq_ok_iff.mp hfinish
      cases h
      exact ⟨p, q, hpath, hat, Or.inr
        ⟨dev₁, classDriver, value, haccepts, readByte_eq_ok_iff.mp hvalue, rfl, rfl⟩⟩
  · rintro ⟨p, q, hpath, hat, ⟨hend, rfl, rfl⟩ |
      ⟨dev₁, classDriver, value, haccepts, hvalue, rfl, rfl⟩⟩
    · exact ⟨(dev', none), interfaceLoop_returns_iff.mpr
        ⟨p, q, hpath, hat, Or.inl ⟨hend, rfl, rfl⟩⟩, 0, rfl⟩
    · refine ⟨(dev₁, some classDriver), interfaceLoop_returns_iff.mpr
        ⟨p, q, hpath, hat, Or.inr ⟨classDriver, rfl, haccepts⟩⟩, 0, ?_⟩
      exact bind_eq_ok_iff.mpr ⟨value, readByte_eq_ok_iff.mpr hvalue, rfl⟩

end UhyokOS
