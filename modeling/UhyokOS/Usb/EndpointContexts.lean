import UhyokOS.Usb.Descriptors
import UhyokOS.Usb.Xhci

/-!
# Endpoint contexts

The model of what `ConfigureEndpoints` of `kernel/usb/xhci/xhci.cpp` writes to the contexts and the
transfer rings of a device; the port's phase and the command are `Controller.configureEndpoints`. The
rings that `AllocTransferRing` returns are taken to be allocated.

* `exists_configureEndpoint_iff`: when one endpoint is configured without a fault.
* `exists_configureContexts_iff`: the same for all recorded endpoints.
-/

namespace UhyokOS

open FueledLoop

/-! ## Contexts -/

/-- The fields that are used here.
Source: `kernel/usb/xhci/context.hpp`, `SlotContext` -/
structure SlotContext where
  contextEntries : BitVec 5
  rootHubPortNum : UInt8

/-- The fields that are used here.
Source: `kernel/usb/xhci/context.hpp`, `EndpointContext` -/
structure EndpointContext where
  mult : BitVec 2
  maxPrimaryStreams : BitVec 5
  interval : BitVec 8
  errorCount : BitVec 2
  epType : BitVec 3
  maxPacketSize : BitVec 16
  dequeueCycleState : BitVec 1
  trDequeuePointer : BitVec 60
  averageTrbLength : BitVec 16

/-- Source: `kernel/usb/xhci/context.hpp`, `InputContext` -/
structure InputContext where
  /-- `input_control_context.drop_context_flags` -/
  dropContextFlags : BitVec 32
  /-- `input_control_context.add_context_flags` -/
  addContextFlags : BitVec 32
  slotContext : SlotContext
  epContexts : Fin 31 → EndpointContext

/-- The part of a device that the controller configures.
Source: `kernel/usb/xhci/device.hpp`, `Device` -/
structure ContextDevice where
  /-- `ctx_.slot_context` -/
  slotContext : SlotContext
  /-- `input_ctx_` -/
  inputContext : InputContext
  /-- The buffers of `transfer_rings_`. -/
  transferRings : Fin 31 → BitVec 64

/-- The entry `dci - 1` of an array of 31. -/
def contextEntry (dci : Nat) : Except Fault (Fin 31) :=
  if h : 1 ≤ dci ∧ dci ≤ 31 then .ok ⟨dci - 1, by omega⟩ else .error .indexOutOfBounds

/-- `a[i]` -/
def getAt {α : Type} (a : Fin 16 → α) (i : Nat) : Except Fault α :=
  if h : i < 16 then .ok (a ⟨i, h⟩) else .error .indexOutOfBounds

/-! ## Configuring the endpoints -/

/-- Source: `kernel/usb/xhci/speed.hpp`, `kFullSpeed` -/
abbrev kFullSpeed : Nat := 1

/-- Source: `kernel/usb/xhci/speed.hpp`, `kLowSpeed` -/
abbrev kLowSpeed : Nat := 2

/-- Source: `kernel/usb/xhci/xhci.cpp`, `MostSignificantBit` -/
def mostSignificantBit (value : Nat) : Int := if value = 0 then -1 else Nat.log2 value

/-- `convert_interval`
Source: `kernel/usb/xhci/xhci.cpp`, `ConfigureEndpoints` -/
def convertInterval (portSpeed : Nat) (type : EndpointType) (interval : Nat) : Int :=
  if portSpeed = kFullSpeed ∨ portSpeed = kLowSpeed then
    if type = .kIsochronous then interval + 2 else mostSignificantBit interval + 3
  else interval - 1

/-- The `ep_type` of a context.
Source: `kernel/usb/xhci/xhci.cpp`, `ConfigureEndpoints` -/
def contextEpType (conf : EndpointConfig) : BitVec 3 :=
  match conf.epType with
  | .kControl => 4
  | .kIsochronous => if conf.epId.isIn then 5 else 1
  | .kBulk => if conf.epId.isIn then 6 else 2
  | .kInterrupt => if conf.epId.isIn then 7 else 3

/-- One iteration of the loop, with the buffer of the ring that is allocated in it.
Source: `kernel/usb/xhci/xhci.cpp`, `ConfigureEndpoints` -/
def configureEndpoint (portSpeed : Nat) (ringBuffer : Nat → BitVec 64) (dev : UsbDevice)
    (ctxDev : ContextDevice) (i : Nat) : Except Fault ContextDevice := do
  let conf ← getAt dev.epConfigs i
  let epDci := deviceContextIndex conf.epId
  let entry ← contextEntry epDci
  let epCtx : EndpointContext :=
    { mult := 0
      maxPrimaryStreams := 0
      interval := BitVec.ofInt 8 (convertInterval portSpeed conf.epType conf.interval)
      errorCount := 3
      epType := contextEpType conf
      maxPacketSize := BitVec.ofNat 16 conf.maxPacketSize
      dequeueCycleState := 1
      trDequeuePointer := (ringBuffer i).extractLsb' 4 60
      averageTrbLength := 1 }
  let inputContext :=
    { ctxDev.inputContext with
      addContextFlags := ctxDev.inputContext.addContextFlags ||| (1 : BitVec 32) <<< epDci
      epContexts := Function.update ctxDev.inputContext.epContexts entry epCtx }
  .ok { ctxDev with
    inputContext := inputContext
    transferRings := Function.update ctxDev.transferRings entry (ringBuffer i) }

/-- The input context before the loop.
Source: `kernel/usb/xhci/xhci.cpp`, `ConfigureEndpoints` -/
def startInputContext (ctxDev : ContextDevice) : InputContext :=
  { ctxDev.inputContext with
    dropContextFlags := 0
    addContextFlags := 1
    slotContext := { ctxDev.slotContext with contextEntries := 31 } }

/-- Source: `kernel/usb/xhci/xhci.cpp`, `ConfigureEndpoints` -/
def configureContexts (portAt : UInt8 → Port) (ringBuffer : Nat → BitVec 64) (dev : UsbDevice)
    (ctxDev : ContextDevice) : Except Fault (Error × ContextDevice) := do
  let ctxDev := { ctxDev with inputContext := startInputContext ctxDev }
  let portSpeed := (portAt ctxDev.slotContext.rootHubPortNum).speed
  if portSpeed = 0 ∨ portSpeed > kSuperSpeedPlus then .ok (.kUnknownXHCISpeedID, ctxDev)
  else
    let ctxDev ←
      (List.range dev.numEpConfigs).foldlM (configureEndpoint portSpeed ringBuffer dev) ctxDev
    .ok (.kSuccess, ctxDev)

/-! ## When it runs without a fault -/

/-- The endpoint ids that were recorded have a context. -/
def UsbDevice.IdsInRange (dev : UsbDevice) : Prop :=
  ∀ i : Fin 16, i < dev.numEpConfigs →
    1 ≤ deviceContextIndex (dev.epConfigs i).epId ∧ deviceContextIndex (dev.epConfigs i).epId ≤ 31

instance (dev : UsbDevice) : Decidable dev.IdsInRange :=
  inferInstanceAs (Decidable (∀ i : Fin 16, i < dev.numEpConfigs →
    1 ≤ deviceContextIndex (dev.epConfigs i).epId ∧
      deviceContextIndex (dev.epConfigs i).epId ≤ 31))

/-- Entry `i` of `ep_configs_` exists, and its id has a context. -/
def UsbDevice.HasContext (dev : UsbDevice) (i : Nat) : Prop :=
  ∃ hi : i < 16, 1 ≤ deviceContextIndex (dev.epConfigs ⟨i, hi⟩).epId ∧
    deviceContextIndex (dev.epConfigs ⟨i, hi⟩).epId ≤ 31

theorem forall_hasContext_iff {dev : UsbDevice} :
    (∀ i ∈ List.range dev.numEpConfigs, dev.HasContext i) ↔
      dev.numEpConfigs ≤ 16 ∧ dev.IdsInRange := by
  constructor
  · intro h
    refine ⟨Nat.le_of_not_lt fun hgt => ?_, fun i hi => ?_⟩
    · obtain ⟨h16, -⟩ := h 16 (List.mem_range.mpr hgt)
      exact absurd h16 (Nat.lt_irrefl 16)
    · obtain ⟨_, hrange⟩ := h i (List.mem_range.mpr hi)
      exact hrange
  · rintro ⟨hle, hids⟩ i hi
    have hi := List.mem_range.mp hi
    exact ⟨by omega, hids ⟨i, by omega⟩ hi⟩

variable {dev : UsbDevice} {ctxDev : ContextDevice} {ringBuffer : Nat → BitVec 64}

theorem exists_contextEntry_iff {dci : Nat} :
    (∃ entry, contextEntry dci = .ok entry) ↔ 1 ≤ dci ∧ dci ≤ 31 := by
  unfold contextEntry
  split_ifs with h
  · exact iff_of_true ⟨_, rfl⟩ h
  · exact iff_of_false (fun ⟨_, h'⟩ => nomatch h') h

/-- **One endpoint** needs an entry of `ep_configs_` with an id that has a context. -/
theorem exists_configureEndpoint_iff {portSpeed i : Nat} :
    (∃ ctxDev', configureEndpoint portSpeed ringBuffer dev ctxDev i = .ok ctxDev') ↔
      dev.HasContext i := by
  unfold configureEndpoint getAt UsbDevice.HasContext
  by_cases hi : i < 16
  · rw [dif_pos hi, exists_prop_of_true hi, ← exists_contextEntry_iff]
    constructor
    · rintro ⟨_, h⟩
      obtain ⟨_, hconf, h⟩ := bind_eq_ok_iff.mp h
      cases hconf
      obtain ⟨entry, hentry, -⟩ := bind_eq_ok_iff.mp h
      exact ⟨entry, hentry⟩
    · rintro ⟨entry, hentry⟩
      exact ⟨_, bind_eq_ok_iff.mpr ⟨_, rfl, bind_eq_ok_iff.mpr ⟨entry, hentry, rfl⟩⟩⟩
  · rw [dif_neg hi]
    exact iff_of_false (fun ⟨_, h⟩ => nomatch h) fun ⟨h, _⟩ => hi h

/-- **All recorded endpoints** are configured without a fault iff they fit into `ep_configs_` and
their ids have a context. A port with an unknown speed is given up before that. -/
theorem exists_configureContexts_iff {portAt : UInt8 → Port} :
    (∃ r, configureContexts portAt ringBuffer dev ctxDev = .ok r) ↔
      (portAt ctxDev.slotContext.rootHubPortNum).speed = 0 ∨
        (portAt ctxDev.slotContext.rootHubPortNum).speed > kSuperSpeedPlus ∨
        (dev.numEpConfigs ≤ 16 ∧ dev.IdsInRange) := by
  unfold configureContexts
  simp only
  split_ifs with hspeed
  · exact iff_of_true ⟨_, rfl⟩ (or_assoc.mp (Or.inl hspeed))
  · rw [← or_assoc, or_iff_right hspeed]
    have hfold : ∀ {portSpeed : Nat} {ctxDev : ContextDevice},
        (∃ ctxDev', (List.range dev.numEpConfigs).foldlM
          (configureEndpoint portSpeed ringBuffer dev) ctxDev = .ok ctxDev') ↔
        ∀ i ∈ List.range dev.numEpConfigs, dev.HasContext i :=
      exists_foldlM_eq_ok_iff (P := dev.HasContext) fun _ _ => exists_configureEndpoint_iff
    rw [← forall_hasContext_iff, ← hfold]
    constructor
    · rintro ⟨_, h⟩
      obtain ⟨ctxDev', h, -⟩ := bind_eq_ok_iff.mp h
      exact ⟨ctxDev', h⟩
    · rintro ⟨ctxDev', h⟩
      exact ⟨_, bind_eq_ok_iff.mpr ⟨ctxDev', h, rfl⟩⟩

end UhyokOS
