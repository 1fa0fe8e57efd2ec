import UhyokOS.Usb.EnumerationSteps

/-!
# The stages of an enumeration

What the controller may report, where the enumeration is, and what is in flight there. A completed
request of the device leads from one stage to the next.

* `Stage`: the stages, with what holds in each of them.
* `UsbConfiguration.Conforms.recorded`: what is recorded of a configuration.
* `Taken.deviceDescriptor`, `Taken.configurationDescriptor` and `Taken.setConfiguration`: the
  completions of the three requests of the device.
-/

namespace UhyokOS

open Transition FueledLoop

/-! ## What the device says -/

/-- The endpoints of the boot interface. -/
def UsbConfiguration.endpointConfigs (c : UsbConfiguration) : List EndpointConfig :=
  match c.fromBoot with
  | [] => []
  | _ :: ds => (endpointsOf ds).map UsbDescriptor.epConfig

/-- The log of the configuration reads inside the buffer, which holds `rest` behind it, its boot
interface does not claim the control endpoint, and it has an endpoint to listen to. -/
structure UsbConfiguration.Conforms (c : UsbConfiguration) (rest : List UInt8) : Prop where
  logFits : c.LogFits rest
  noControl : ∀ config ∈ c.endpointConfigs, 1 ≤ config.epId.number
  interruptIn : c.fromBoot ≠ [] → ∃ config ∈ c.endpointConfigs, DeviceSlot.IsInterruptIn config

/-- The number of bytes that arrived, as `OnTransferEventReceived` computes it. -/
def Transfer.received (t : Transfer) (event : TransferEventTRB) : Nat :=
  ((t.len.setWidth 17).setWidth 32 - event.trbTransferLength.setWidth 32 : BitVec 32).toInt.toNat

namespace DeviceSlot

/-- The request of the device descriptor. -/
def deviceRequest : SetupData :=
  UhyokOS.getDescriptor (BitVec.ofNat 8 deviceDescriptorType) 0

/-- The request of the configuration descriptor. -/
def configurationRequest : SetupData :=
  UhyokOS.getDescriptor (BitVec.ofNat 8 configurationDescriptorType) 0

/-- What the handler of a completed control transfer reads: a configuration that conforms if it is one
and was asked for, with enough fuel for the loops over it; and memory for the driver, and for the
transfer rings, where these are created. -/
structure Answer (s : DeviceSlot) (t : Transfer) (trb : TransferEventTRB) (r : SlotReadings) :
    Prop where
  configuration : t.setupData = configurationRequest →
    ByteAt r.buffer 1 configurationDescriptorType →
      ∃ (c : UsbConfiguration) (rest : List UInt8), c.Conforms rest ∧ r.buffer = c.bytes ++ rest ∧
        t.received trb = c.bytes.length ∧
        Enough (UhyokOS.initializePhase2 s.usb r.buffer c.bytes.length) r.fuel
  driver : t.setupData = configurationRequest → r.driverAllocated = true
  rings : t.setupData.request = kSetConfiguration →
    ∃ arrays, FreshBuffers r s.transfers.device s.usb.numEpConfigs arrays

/-- The controller reports transfers in flight, a success with the TRB that raises the event. -/
def Permitted (s : DeviceSlot) : SlotEvent → Prop
  | .control i trb r => ∃ t, s.transfers.outstanding[i]? = some t ∧
      (trb.Succeeded → trb.trbPointer = s.transfers.reporting t.first ∧ s.Answer t trb r)
  | .interrupt i trb _ => ∃ t, s.interrupts[i]? = some t ∧
      (trb.Succeeded → trb.trbPointer = t.position ∧
        trb.endpointId.toNat = deviceContextIndex t.epId)
  | _ => True

/-- The event can be logged: its completion code has a name, and it has event data or points to a TRB
of the device. An event of success can. -/
def Logs (s : DeviceSlot) : SlotEvent → Prop
  | .control _ trb _ | .interrupt _ trb _ =>
      trb.completionCode.toNat < kTRBCompletionCodeNames ∧
        (trb.eventData = true ∨ (s.transfers.device.trbAt trb.trbPointer).isSome)
  | _ => True

/-- The event tells what the initialisation waits for: a success, with a descriptor of the type that
was asked for, a boot interface in the configuration, and a port of a known speed. -/
def GoesWell (s : DeviceSlot) : SlotEvent → Prop
  | .addressed => s.phase = .kAddressingDevice
  | .control i trb r => trb.Succeeded ∧ ¬(r.portSpeed = 0 ∨ r.portSpeed > kSuperSpeedPlus) ∧
      ∀ t, s.transfers.outstanding[i]? = some t →
        (t.setupData = deviceRequest → ByteAt r.buffer 1 deviceDescriptorType) ∧
        (t.setupData = configurationRequest → ByteAt r.buffer 1 configurationDescriptorType ∧
          ∀ c : UsbConfiguration, r.buffer.take (t.received trb) = c.bytes → c.fromBoot ≠ [])
  | .interrupt _ trb _ => trb.Succeeded
  | .endpointsConfigured => s.phase = .kConfiguringEndpoints

/-! ## The stages -/

/-- The requests before the endpoints are configured. -/
def enumerationRequests (value : Nat) : List UsbRequest :=
  [.control deviceRequest, .control configurationRequest, .control (setConfiguration value)]

/-- One request is in flight, or has failed or been answered badly. -/
structure Asking (s : DeviceSlot) (n : Nat) (setupData : SetupData) (buf : BitVec 64) : Prop where
  phase : s.phase = .kInitializingDevice
  isInitialized : s.isInitialized = false
  initializePhase : s.usb.initializePhase = n
  interrupts : s.interrupts = []
  reports : s.reports = 0
  outstanding : s.transfers.outstanding = [] ∨ ∃ t, s.transfers.outstanding = [t] ∧
    t.setupData = setupData ∧ t.buf = buf ∧ s.used ≤ 1
  waiters : s.transfers.device.eventWaiters.HasFree

/-- The driver has an endpoint to listen to, with a transfer ring. -/
structure Equipped (s : DeviceSlot) (d : HIDDriver) : Prop where
  isInitialized : s.isInitialized = true
  driver : s.driver = some d
  context : d.epInterruptIn.HasContext
  isIn : d.epInterruptIn.isIn = true
  ring : s.transfers.device.HasRing d.epInterruptIn
  entry : ∃ classDriver, s.classDriverAt d.epInterruptIn = some (some classDriver)
  size : d.inPacketSize ≤ 8
  noControl : s.usb.classDrivers 0 = none

/-- Where the enumeration is. The stages follow each other, but for the last one. -/
inductive Stage (s : DeviceSlot) : Nat → Prop
  | addressing (phase : s.phase = .kAddressingDevice)
      (outstanding : s.transfers.outstanding = []) (interrupts : s.interrupts = [])
      (requests : s.requests = []) (reports : s.reports = 0) (used : s.used = 0)
      (waiters : s.transfers.device.eventWaiters.HasFree)
      (noDrivers : ∀ n, s.usb.classDrivers n = none) : Stage s 0
  | device (asking : Asking s 1 deviceRequest s.buf)
      (requests : s.requests = [.control deviceRequest])
      (noDrivers : ∀ n, s.usb.classDrivers n = none) : Stage s 1
  | configuration (asking : Asking s 2 configurationRequest s.buf)
      (requests : s.requests = [.control deviceRequest, .control configurationRequest])
      (noDrivers : ∀ n, s.usb.classDrivers n = none) : Stage s 2
  | setting {value : Nat} {classDriver : ClassDriver} {configs : List EndpointConfig}
      (asking : Asking s 3 (setConfiguration value) 0)
      (requests : s.requests = enumerationRequests value)
      (driver : s.driver = some classDriver.newDriver)
      (recorded : Recorded s classDriver configs) : Stage s 3
  | configuring {value : Nat} {d : HIDDriver} (phase : s.phase = .kConfiguringEndpoints)
      (equipped : Equipped s d) (outstanding : s.transfers.outstanding = [])
      (interrupts : s.interrupts = []) (requests : s.requests = enumerationRequests value)
      (reports : s.reports = 0) (used : s.used = 0)
      (waiters : s.transfers.device.eventWaiters.HasFree) : Stage s 4
  | protocol {value k : Nat} {d : HIDDriver} (phase : s.phase = .kConfigured)
      (equipped : Equipped s d) (initializePhase : d.initializePhase = 1)
      (outstanding : ∀ t ∈ s.transfers.outstanding, t.setupData = setProtocol d.interfaceIndex)
      (interrupts : s.interrupts = [])
      (requests : s.requests = enumerationRequests value ++
        List.replicate k (.control (setProtocol d.interfaceIndex)))
      (reports : s.reports = 0)
      (present : s.transfers.device.eventWaiters.Present (setProtocol d.interfaceIndex)) :
      Stage s 5
  | listening {value k : Nat} {d : HIDDriver} (phase : s.phase = .kConfigured)
      (equipped : Equipped s d) (initializePhase : d.initializePhase = 2)
      (outstanding : ∀ t ∈ s.transfers.outstanding, t.setupData = setProtocol d.interfaceIndex)
      (single : s.interrupts.length ≤ 1)
      (interrupts : ∀ t ∈ s.interrupts,
        t.epId = d.epInterruptIn ∧ t.len = BitVec.ofNat 32 d.inPacketSize)
      (requests : s.requests = enumerationRequests value ++
        List.replicate k (.control (setProtocol d.interfaceIndex)) ++
        List.replicate (s.reports + 1) (.interruptIn d.epInterruptIn d.inPacketSize))
      (present : s.transfers.device.eventWaiters.Present (setProtocol d.interfaceIndex)) :
      Stage s 6
  | stalled {value : Nat} (phase : s.phase = .kInitializingDevice)
      (isInitialized : s.isInitialized = true) (outstanding : s.transfers.outstanding = [])
      (interrupts : s.interrupts = []) (requests : s.requests = enumerationRequests value)
      (reports : s.reports = 0) : Stage s 7

variable {bufPtr : BitVec 64} {s : DeviceSlot} {t : Transfer} {r : SlotReadings}

/-! ## One request -/

/-- One request has been made where none was in flight. -/
structure Asks (bufPtr : BitVec 64) (s : DeviceSlot) (setupData : SetupData) (buf : BitVec 64)
    (s' : DeviceSlot) : Prop where
  sound : SlotSound bufPtr s'
  same : s' = { s with transfers := s'.transfers, requests := s.requests ++ [.control setupData] }
  outstanding : ∃ t, s'.transfers.outstanding = [t] ∧ t.setupData = setupData ∧ t.buf = buf
  used : s'.used ≤ 1
  waiters : s'.transfers.device.eventWaiters = s.transfers.device.eventWaiters

/-- What the two kinds of requests have in common. -/
theorem asks_of_issue (h : SlotSound bufPtr s) (hnone : s.transfers.outstanding = [])
    (hused : s.used = 0) {isIn : Bool} {setupData : SetupData} {buf : BitVec 64} {len : BitVec 32}
    (ht : t = s.transfers.next isIn setupData buf len) (statusIn : Bool) :
    ∃ s', s.issue t (s.transfers.device.control
        (if t.isIn then SetupStageTRB.kInDataStage else SetupStageTRB.kOutDataStage) t.isIn statusIn
        kDefaultControlPipeID t.setupData t.buf t.len 0) = some (.kSuccess, s') ∧
      Asks bufPtr s setupData buf s' := by
  have htime := SlotSound.keepsInTime_of_nil hnone t
  have hlt : s.used < 16 := by
    rw [hused]
    decide
  obtain ⟨device, heq, hsound, -, hused', hwaiters⟩ := h.issue ht htime hlt statusIn (Or.inl rfl)
  have hsetup : t.setupData = setupData := congrArg Transfer.setupData ht
  have hbuf : t.buf = buf := congrArg Transfer.buf ht
  refine ⟨s.asked t device, heq, ?_⟩
  constructor
  · exact hsound
  · rw [← hsetup]
    rfl
  · refine ⟨t, ?_, hsetup, hbuf⟩
    show s.transfers.outstanding ++ [t] = [t]
    rw [hnone, List.nil_append]
  · rw [hused] at hused'
    exact hused'
  · rw [TransferDevice.noteWaiter, if_neg (not_not_intro rfl)] at hwaiters
    exact hwaiters

theorem getDescriptor_spec (h : SlotSound bufPtr s) (hnone : s.transfers.outstanding = [])
    (hused : s.used = 0) (descType descIndex : BitVec 8) :
    ∃ s', s.getDescriptor descType descIndex = some (.kSuccess, s') ∧
      Asks bufPtr s (UhyokOS.getDescriptor descType descIndex) s.buf s' := by
  unfold DeviceSlot.getDescriptor TransferDevice.controlIn
  generalize BitVec.ofNat 32 kDeviceBufferSize = len
  generalize UhyokOS.getDescriptor descType descIndex = setupData
  obtain ⟨s', heq, hs'⟩ := asks_of_issue (t := s.transfers.next true setupData s.buf len) h hnone
    hused rfl false
  exact ⟨s', heq, hs'⟩

theorem controlOut_spec (h : SlotSound bufPtr s) (hnone : s.transfers.outstanding = [])
    (hused : s.used = 0) (setupData : SetupData) :
    ∃ s', s.controlOut setupData 0 = some (.kSuccess, s') ∧ Asks bufPtr s setupData 0 s' := by
  unfold DeviceSlot.controlOut TransferDevice.controlOut
  obtain ⟨s', heq, hs'⟩ := asks_of_issue (t := s.transfers.next false setupData 0 0) h hnone
    hused rfl true
  exact ⟨s', heq, hs'⟩

/-- The next stage begins with a request. -/
theorem Asks.asking {s' : DeviceSlot} {setupData : SetupData} {buf : BitVec 64} {n : Nat}
    (h : Asks bufPtr s setupData buf s') (hphase : s.phase = .kInitializingDevice)
    (hinit : s.isInitialized = false) (hn : s.usb.initializePhase = n)
    (hinterrupts : s.interrupts = []) (hreports : s.reports = 0)
    (hwaiters : s.transfers.device.eventWaiters.HasFree) : Asking s' n setupData buf := by
  obtain ⟨t, hout, hsetup, hbuf⟩ := h.outstanding
  have hused := h.used
  have hwaiters' := h.waiters
  refine ⟨?_, ?_, ?_, ?_, ?_, Or.inr ⟨t, hout, hsetup, hbuf, hused⟩, hwaiters' ▸ hwaiters⟩
  · rw [h.same]
    exact hphase
  · rw [h.same]
    exact hinit
  · rw [h.same]
    exact hn
  · rw [h.same]
    exact hinterrupts
  · rw [h.same]
    exact hreports

/-! ## What the device answers -/

/-- The type of a descriptor in a buffer of two bytes or more. -/
theorem castsTo_cases (kType : Nat) {buf : List UInt8} (h : 2 ≤ buf.length) :
    (castsTo kType (some buf) = some true ∧ ByteAt buf 1 kType) ∨
      castsTo kType (some buf) = some false ∧ ¬ByteAt buf 1 kType := by
  have htype : ByteAt buf (0 + 1) (buf.get ⟨1, h⟩).toNat := by
    unfold ByteAt
    rw [Nat.zero_add, List.getElem?_eq_getElem h]
    rfl
  have hcast : descriptorDynamicCast kType buf (some 0) =
      .ok (if (buf.get ⟨1, h⟩).toNat = kType then some 0 else none) :=
    descriptorDynamicCast_eq_ok_iff.mpr ⟨0, _, rfl, htype, rfl⟩
  have heq : castsTo kType (some buf) =
      some (if (buf.get ⟨1, h⟩).toNat = kType then some 0 else none : Option Nat).isSome := by
    unfold castsTo
    simp only [hcast, Option.bind_eq_bind, Option.bind_some]
    rfl
  rw [heq]
  by_cases hkind : (buf.get ⟨1, h⟩).toNat = kType
  · rw [if_pos hkind]
    exact Or.inl ⟨rfl, hkind ▸ htype⟩
  · rw [if_neg hkind]
    exact Or.inr ⟨rfl, fun hbyte => hkind (htype.unique hbyte)⟩

end DeviceSlot

theorem EndpointID.hasContext_of_number {epId : EndpointID} (hlow : 1 ≤ epId.number)
    (hhigh : epId.number < 16) : epId.HasContext := by
  have hnumber : epId.number = epId.addr / 2 := Nat.shiftRight_eq_div_pow _ _
  unfold EndpointID.HasContext deviceContextIndex EndpointID.address
  omega

/-- A buffer holds one list of descriptors at most. -/
theorem bytesOf_injective : Function.Injective bytesOf := by
  intro ds
  induction ds with
  | nil =>
      intro ds' h
      cases ds' with
      | nil => rfl
      | cons d' ds' =>
          have hlength := congrArg List.length h
          have htwo := d'.two_le_length
          rw [bytesOf_cons, List.length_append] at hlength
          have hzero : (bytesOf []).length = 0 := rfl
          omega
  | cons d ds ih =>
      intro ds' h
      cases ds' with
      | nil =>
          have hlength := congrArg List.length h
          have htwo := d.two_le_length
          rw [bytesOf_cons, List.length_append] at hlength
          have hzero : (bytesOf []).length = 0 := rfl
          omega
      | cons d' ds' =>
          have hfirst : ∀ (e : UsbDescriptor) (es : List UsbDescriptor),
              byteOf (bytesOf (e :: es)) 0 = e.bytes.length := by
            intro e es
            have htwo := e.two_le_length
            refine Eq.trans ?_ e.byteOf_zero
            unfold byteOf
            rw [bytesOf_cons, List.getD_eq_getElem?_getD, List.getD_eq_getElem?_getD,
              List.getElem?_append_left (by omega)]
          have hlength : d.bytes.length = d'.bytes.length := by
            rw [← hfirst d ds, ← hfirst d' ds', h]
          rw [bytesOf_cons, bytesOf_cons] at h
          obtain ⟨hbytes, hrest⟩ := List.append_inj h hlength
          have hd : d = d' := by
            cases d
            cases d'
            cases hbytes
            rfl
          rw [hd, ih hrest]

theorem UsbDescriptor.number_epConfig (d : UsbDescriptor) : d.epConfig.epId.number < 16 := by
  have hnumber : d.epConfig.epId.number = d.byte 2 % 16 := EndpointID.number_new _ _
  rw [hnumber]
  exact Nat.mod_lt _ (by decide)

namespace UsbConfiguration

variable {c : UsbConfiguration} {ifDesc : UsbDescriptor} {ds : List UsbDescriptor} {dev : UsbDevice}
  {s : DeviceSlot} {rest : List UInt8}

theorem number_lt {config : EndpointConfig} (h : config ∈ c.endpointConfigs) :
    config.epId.number < 16 := by
  unfold endpointConfigs at h
  cases hfrom : c.fromBoot with
  | nil =>
      rw [hfrom] at h
      exact absurd h List.not_mem_nil
  | cons ifDesc ds =>
      rw [hfrom] at h
      obtain ⟨d, -, rfl⟩ := List.mem_map.mp h
      exact d.number_epConfig

theorem length_endpointConfigs (hfrom : c.fromBoot = ifDesc :: ds) :
    c.endpointConfigs.length ≤ 16 := by
  have hboot := isBoot_of_fromBoot hfrom
  obtain ⟨hcount, hle⟩ := c.endpoints_eq ifDesc ds (hfrom ▸ c.fromBoot_suffix) hboot.1
  unfold endpointConfigs
  rw [hfrom]
  exact (List.length_map _).trans hcount ▸ hle

/-- The device that a conforming configuration asks for. -/
theorem Conforms.recorded (h : c.Conforms rest) (hfrom : c.fromBoot = ifDesc :: ds)
    (hnone : ∀ n, dev.classDrivers n = none)
    (husb : s.usb = configured dev ifDesc.driver c.endpointConfigs) :
    DeviceSlot.Recorded s ifDesc.driver c.endpointConfigs := by
  have hlength := length_endpointConfigs hfrom
  constructor
  · rw [husb]
    rfl
  · intro i hi
    unfold DeviceSlot.epConfigAt
    rw [dif_pos (Nat.lt_of_lt_of_le hi hlength), husb]
    show some (c.endpointConfigs[i]?.getD _) = _
    rw [List.getElem?_eq_getElem hi]
    rfl
  · intro config hconfig
    unfold DeviceSlot.classDriverAt
    rw [dif_pos (number_lt hconfig), husb]
    exact congrArg some (if_pos ⟨config, hconfig, rfl⟩)
  · exact fun config hconfig =>
      EndpointID.hasContext_of_number (h.noControl config hconfig) (number_lt hconfig)
  · exact h.interruptIn (hfrom ▸ List.cons_ne_nil _ _)
  · rw [husb]
    refine (if_neg ?_).trans (hnone 0)
    rintro ⟨config, hconfig, hzero⟩
    exact absurd hzero (Nat.ne_of_gt (h.noControl config hconfig))

/-- All drivers of the device are the same object. -/
theorem Conforms.findSome_classDrivers (h : c.Conforms rest) (hfrom : c.fromBoot = ifDesc :: ds)
    (hnone : ∀ n, dev.classDrivers n = none) :
    (List.finRange 16).findSome? (configured dev ifDesc.driver c.endpointConfigs).classDrivers =
      some ifDesc.driver := by
  have hentry : ∀ n classDriver, (configured dev ifDesc.driver c.endpointConfigs).classDrivers n =
      some classDriver → classDriver = ifDesc.driver := by
    intro n classDriver hn
    unfold configured at hn
    dsimp only at hn
    split_ifs at hn
    · exact (Option.some.inj hn).symm
    · rw [hnone n] at hn
      cases hn
  cases hfind : (List.finRange 16).findSome?
      (configured dev ifDesc.driver c.endpointConfigs).classDrivers with
  | some classDriver =>
      obtain ⟨n, -, hn⟩ := List.exists_of_findSome?_eq_some hfind
      rw [hentry n classDriver hn]
  | none =>
      obtain ⟨config, hconfig, -⟩ := h.interruptIn (hfrom ▸ List.cons_ne_nil _ _)
      have hn := List.findSome?_eq_none_iff.mp hfind ⟨_, number_lt hconfig⟩ (List.mem_finRange _)
      have hsome : (configured dev ifDesc.driver c.endpointConfigs).classDrivers
          ⟨_, number_lt hconfig⟩ = some ifDesc.driver := if_pos ⟨config, hconfig, rfl⟩
      rw [hsome] at hn
      cases hn

end UsbConfiguration

namespace DeviceSlot

/-! ## One event -/

variable {bufPtr : BitVec 64} {s : DeviceSlot} {t : Transfer} {r : SlotReadings} {i n : Nat}
  {trb : TransferEventTRB} {device : TransferDevice} {setupData : SetupData} {buf : BitVec 64}

theorem step_of_handle {event : SlotEvent} {err : Error} {s' : DeviceSlot}
    (h : s.handle event = some (err, s')) : s.step event = some s' :=
  congrArg (Option.map Prod.snd) h

/-- The end of `OnEvent` without a call of `ConfigureEndpoints`. -/
theorem onTransfer_stays {result : TransferResult} {err : Error} {s' : DeviceSlot}
    (h : s.onTransferResult r result = some (err, s'))
    (hstay : ¬(s'.isInitialized ∧ s'.phase = .kInitializingDevice)) :
    ∃ err', s.onTransfer r result = some (err', s') := by
  unfold onTransfer
  simp only [h, Option.bind_eq_bind, Option.bind_some, Option.pure_def]
  by_cases herr : err ≠ .kSuccess
  · exact ⟨err, if_pos herr⟩
  · rw [if_neg herr, if_neg hstay]
    exact ⟨.kSuccess, rfl⟩

/-- The end of `OnEvent` with one. -/
theorem onTransfer_configures {result : TransferResult} {s' : DeviceSlot}
    (h : s.onTransferResult r result = some (.kSuccess, s')) (hinit : s'.isInitialized = true)
    (hphase : s'.phase = .kInitializingDevice) :
    s.onTransfer r result = s'.configureEndpoints r := by
  unfold onTransfer
  simp only [h, Option.bind_eq_bind, Option.bind_some]
  rw [if_neg (not_not_intro rfl), if_pos ⟨hinit, hphase⟩]

/-- An event whose handler is defined could be logged. -/
theorem logs_of_step {event : SlotEvent} {s' : DeviceSlot} (h : s.step event = some s') :
    s.Logs event := by
  obtain ⟨_, hhandle, -⟩ := Option.map_eq_some_iff.mp h
  cases event with
  | addressed => trivial
  | endpointsConfigured => trivial
  | control i trb r =>
      obtain ⟨transfers, hstep, -⟩ := Option.bind_eq_some_iff.mp hhandle
      exact TransferDevice.logTransferEvent_iff.mp (ControlRun.logged_of_step hstep)
  | interrupt i trb r =>
      obtain ⟨result, hresult, -⟩ := Option.bind_eq_some_iff.mp hhandle
      exact TransferDevice.logTransferEvent_iff.mp
        (TransferDevice.log_of_onTransferEventReceived hresult)

/-- An event that goes well can be logged. -/
theorem SlotSound.logs_of_goesWell (h : SlotSound bufPtr s) {event : SlotEvent}
    (hpermitted : s.Permitted event) (hwell : s.GoesWell event) : s.Logs event := by
  cases event with
  | addressed => trivial
  | endpointsConfigured => trivial
  | control i trb r =>
      obtain ⟨t, -, hreport⟩ := hpermitted
      exact TransferDevice.logTransferEvent_iff.mp
        (h.transfers.log_of_succeeded hwell.1 (hreport hwell.1).1)
  | interrupt i trb r =>
      obtain ⟨t, hfound, hreport⟩ := hpermitted
      obtain ⟨-, hplaced⟩ := h.placed t (List.mem_of_getElem? hfound)
      exact TransferDevice.logTransferEvent_iff.mp
        (hplaced.log_of_succeeded h.transfers.rings hwell (hreport hwell).1)

/-- The event for a control transfer has been taken. -/
structure Took (bufPtr : BitVec 64) (s : DeviceSlot) (i : Nat) (t : Transfer)
    (trb : TransferEventTRB) (r : SlotReadings) (device : TransferDevice) : Prop where
  found : s.transfers.outstanding[i]? = some t
  sound : SlotSound bufPtr (s.tookControl i t trb device)
  rings : device.transferRings = s.transfers.device.transferRings
  waiters : device.eventWaiters = s.transfers.device.eventWaiters
  fails : ¬trb.Succeeded → s.step (.control i trb r) = some (s.tookControl i t trb device)
  succeeds : trb.Succeeded → (s.tookControl i t trb device).used + 1 = s.used ∧
    s.handle (.control i trb r) =
      (s.tookControl i t trb device).onTransfer r (t.completion trb) ∧
    s.Answer t trb r

theorem SlotSound.took (h : SlotSound bufPtr s) (hpermitted : s.Permitted (.control i trb r))
    (hlogs : s.Logs (.control i trb r)) : ∃ t device, Took bufPtr s i t trb r device := by
  obtain ⟨t, hfound, hreport⟩ := hpermitted
  have hlog := TransferDevice.logTransferEvent_iff.mpr hlogs
  obtain ⟨device, heq, hsound, hrings, hwaiters, hused⟩ :=
    h.handle_control (r := r) hfound hlog fun hsuccess => (hreport hsuccess).1
  refine ⟨t, device, hfound, hsound, hrings, hwaiters, fun hfail => ?_, fun hsuccess => ?_⟩
  · rw [if_neg hfail, onTransfer_error _ _ (by decide)] at heq
    exact step_of_handle heq
  · rw [if_pos hsuccess] at heq
    exact ⟨hused hsuccess, heq, (hreport hsuccess).2⟩

/-- No request is in flight any more. -/
theorem Asking.took (ha : Asking s n setupData buf) (h : Took bufPtr s i t trb r device) :
    Asking (s.tookControl i t trb device) n setupData buf ∧
      (s.tookControl i t trb device).transfers.outstanding = [] ∧ t.setupData = setupData ∧
      t.buf = buf ∧ s.used ≤ 1 := by
  have hfound := h.found
  rcases ha.outstanding with hnil | ⟨u, hu, hsetup, hbuf, hused⟩
  · rw [hnil] at hfound
    cases hfound
  · rw [hu] at hfound
    obtain ⟨rfl, rfl⟩ : i = 0 ∧ u = t := by
      cases i with
      | zero => exact ⟨rfl, Option.some.inj hfound⟩
      | succ i => cases hfound
    have hout : (s.tookControl 0 u trb device).transfers.outstanding = [] := by
      show s.transfers.outstanding.eraseIdx 0 = []
      rw [hu]
      rfl
    refine ⟨?_, hout, hsetup, hbuf, hused⟩
    have hwaiters := h.waiters
    exact ⟨ha.phase, ha.isInitialized, ha.initializePhase, ha.interrupts, ha.reports, Or.inl hout,
      hwaiters ▸ ha.waiters⟩

/-! ## The requests of the device -/

/-- The invariant of a run. -/
def Sound (bufPtr : BitVec 64) (s : DeviceSlot) : Prop := SlotSound bufPtr s ∧ ∃ n, Stage s n

/-- The stage is reached, and the driver listens in the last one. -/
def Reaches (s : DeviceSlot) (n : Nat) : Prop := Stage s n ∧ (n = 6 → s.interrupts.length = 1)

/-- The event is defined, keeps the invariant, and leads to the given stage if it goes well. -/
def Steps (bufPtr : BitVec 64) (s : DeviceSlot) (event : SlotEvent) (n : Nat) : Prop :=
  ∃ s', s.step event = some s' ∧ Sound bufPtr s' ∧ (s.GoesWell event → Reaches s' n)

/-- The transfer has filled the buffer of the device. -/
theorem onTransferResult_completion (h : t.buf = s.buf) (hbuf : s.buf ≠ 0) (trb : TransferEventTRB)
    (r : SlotReadings) :
    s.onTransferResult r (t.completion trb) =
      s.onControlCompleted r t.setupData (some r.buffer) (t.received trb) := by
  unfold onTransferResult Transfer.completion Transfer.received
  dsimp only
  rw [h, if_pos rfl, if_pos hbuf]

variable {data : Option (List UInt8)} {len : Nat} {b : Bool}

theorem onControlCompleted_one (hinit : s.isInitialized = false)
    (hphase : s.usb.initializePhase = 1) (hcast : castsTo deviceDescriptorType data = some b) :
    s.onControlCompleted r deviceRequest data len =
      if b then s.initializePhase1 else some (.kInvalidPhase, s) := by
  have hrequest : deviceRequest.request = kGetDescriptor := rfl
  unfold onControlCompleted
  rw [hinit, if_neg Bool.false_ne_true, if_pos hphase, if_pos hrequest, hcast]
  rfl

theorem onControlCompleted_two {bytes : List UInt8} (hinit : s.isInitialized = false)
    (hphase : s.usb.initializePhase = 2)
    (hcast : castsTo configurationDescriptorType (some bytes) = some b) :
    s.onControlCompleted r configurationRequest (some bytes) len =
      if b then s.initializePhase2 r bytes len else some (.kInvalidPhase, s) := by
  have hrequest : configurationRequest.request = kGetDescriptor := rfl
  have hone : s.usb.initializePhase ≠ 1 := by
    rw [hphase]
    decide
  unfold onControlCompleted
  rw [hinit, if_neg Bool.false_ne_true, if_neg hone, if_pos hphase, if_pos hrequest, hcast]
  rfl

theorem onControlCompleted_three {value : Nat} (hinit : s.isInitialized = false)
    (hphase : s.usb.initializePhase = 3) :
    s.onControlCompleted r (setConfiguration value) data len = s.initializePhase3 := by
  have hrequest : (setConfiguration value).request = kSetConfiguration := rfl
  have hone : s.usb.initializePhase ≠ 1 := by
    rw [hphase]
    decide
  have htwo : s.usb.initializePhase ≠ 2 := by
    rw [hphase]
    decide
  unfold onControlCompleted
  rw [hinit, if_neg Bool.false_ne_true, if_neg hone, if_neg htwo, if_pos hphase, if_pos hrequest]

/-- The only request has been taken from those in flight, and its completion is handled. -/
structure Taken (bufPtr : BitVec 64) (s : DeviceSlot) (n : Nat) (setupData : SetupData)
    (buf : BitVec 64) (t : Transfer) : Prop where
  sound : SlotSound bufPtr s
  asking : Asking s n setupData buf
  outstanding : s.transfers.outstanding = []
  used : s.used = 0
  setupData : t.setupData = setupData
  buf : t.buf = buf

/-- The event for a request fails, or leads to the completion. -/
theorem Asking.control (ha : Asking s n setupData buf) (h : SlotSound bufPtr s)
    (hpermitted : s.Permitted (.control i trb r)) (hlogs : s.Logs (.control i trb r)) :
    ∃ t device, SlotSound bufPtr (s.tookControl i t trb device) ∧
      Asking (s.tookControl i t trb device) n setupData buf ∧
      device.transferRings = s.transfers.device.transferRings ∧
      s.transfers.outstanding[i]? = some t ∧
      (¬trb.Succeeded ∧ s.step (.control i trb r) = some (s.tookControl i t trb device) ∨
        Taken bufPtr (s.tookControl i t trb device) n setupData buf t ∧ s.Answer t trb r ∧
        s.handle (.control i trb r) =
          (s.tookControl i t trb device).onTransfer r (t.completion trb)) := by
  obtain ⟨t, device, htook⟩ := h.took hpermitted hlogs
  obtain ⟨ha', hout, hsetup, hbuf, hused⟩ := ha.took htook
  refine ⟨t, device, htook.sound, ha', htook.rings, htook.found, ?_⟩
  by_cases hsuccess : trb.Succeeded
  · obtain ⟨hcount, hhandle, hanswer⟩ := htook.succeeds hsuccess
    have hzero : (s.tookControl i t trb device).used = 0 := by omega
    exact Or.inr ⟨⟨htook.sound, ha', hout, hzero, hsetup, hbuf⟩, hanswer, hhandle⟩
  · exact Or.inl ⟨hsuccess, htook.fails hsuccess⟩

/-- The completion of a request keeps the invariant, and leads to a stage if it goes well. -/
def Completes (bufPtr : BitVec 64) (s : DeviceSlot) (t : Transfer) (trb : TransferEventTRB)
    (r : SlotReadings) (well : Prop) (n : Nat) : Prop :=
  ∃ err s', s.onTransfer r (t.completion trb) = some (err, s') ∧ Sound bufPtr s' ∧
    (well → Reaches s' n)

/-- Before the last stage no driver listens. -/
theorem Stage.reaches (h : Stage s n) (hn : n ≠ 6) : Reaches s n :=
  ⟨h, fun heq => absurd heq hn⟩

/-- The completion of the first request. -/
theorem Taken.deviceDescriptor (h : Taken bufPtr s 1 deviceRequest s.buf t)
    (hrequests : s.requests = [.control deviceRequest])
    (hdrivers : ∀ n, s.usb.classDrivers n = none) :
    Completes bufPtr s t trb r (ByteAt r.buffer 1 deviceDescriptorType) 2 := by
  have ha := h.asking
  have htwo : 2 ≤ r.buffer.length := by
    rw [r.length]
    decide
  rcases castsTo_cases deviceDescriptorType htwo with ⟨hcast, -⟩ | ⟨hcast, hother⟩
  · have hsound : SlotSound bufPtr { s with usb := { s.usb with initializePhase := 2 } } :=
      h.sound.congr rfl rfl rfl rfl
    obtain ⟨s', heq, hasks⟩ := getDescriptor_spec hsound h.outstanding h.used
      (BitVec.ofNat 8 configurationDescriptorType) 0
    have hresult : s.onTransferResult r (t.completion trb) = some (.kSuccess, s') := by
      rw [onTransferResult_completion h.buf h.sound.buf, h.setupData,
        onControlCompleted_one ha.isInitialized ha.initializePhase hcast, if_pos rfl]
      exact heq
    have hasking := hasks.asking ha.phase ha.isInitialized rfl ha.interrupts ha.reports ha.waiters
    have hsame := hasks.same
    obtain ⟨err, hstep⟩ := onTransfer_stays hresult (by simp [hasking.isInitialized])
    have hbuf : s'.buf = s.buf := by rw [hsame]
    have hstage : Stage s' 2 := by
      refine .configuration (hbuf.symm ▸ hasking) ?_ ?_
      · rw [hsame]
        show s.requests ++ _ = _
        rw [hrequests]
        rfl
      · rw [hsame]
        exact hdrivers
    exact ⟨err, s', hstep, ⟨hasks.sound, 2, hstage⟩, fun _ => hstage.reaches (by decide)⟩
  · have hresult : s.onTransferResult r (t.completion trb) = some (.kInvalidPhase, s) := by
      rw [onTransferResult_completion h.buf h.sound.buf, h.setupData,
        onControlCompleted_one ha.isInitialized ha.initializePhase hcast,
        if_neg Bool.false_ne_true]
    obtain ⟨err, hstep⟩ := onTransfer_stays hresult (by simp [ha.isInitialized])
    exact ⟨err, s, hstep, ⟨h.sound, 1, .device ha hrequests hdrivers⟩,
      fun hbyte => absurd hbyte hother⟩

/-- The completion of the second request: the device is set to its configuration, if it has a boot
interface. -/
theorem Taken.configurationDescriptor (h : Taken bufPtr s 2 configurationRequest s.buf t)
    (hrequests : s.requests = [.control deviceRequest, .control configurationRequest])
    (hdrivers : ∀ n, s.usb.classDrivers n = none) (hallocated : r.driverAllocated = true)
    (hconfiguration : ByteAt r.buffer 1 configurationDescriptorType →
      ∃ (c : UsbConfiguration) (rest : List UInt8), c.Conforms rest ∧ r.buffer = c.bytes ++ rest ∧
        t.received trb = c.bytes.length ∧
        Enough (UhyokOS.initializePhase2 s.usb r.buffer c.bytes.length) r.fuel) :
    Completes bufPtr s t trb r (ByteAt r.buffer 1 configurationDescriptorType ∧
      ∀ c : UsbConfiguration, r.buffer.take (t.received trb) = c.bytes → c.fromBoot ≠ []) 3 := by
  have ha := h.asking
  have htwo : 2 ≤ r.buffer.length := by
    rw [r.length]
    decide
  have hcompleted := onTransferResult_completion h.buf h.sound.buf trb r
  rw [h.setupData] at hcompleted
  rcases castsTo_cases configurationDescriptorType htwo with ⟨hcast, htype⟩ | ⟨hcast, hother⟩
  · obtain ⟨c, rest, hc, hbuffer, hreceived, henough⟩ := hconfiguration htype
    have hbytes : r.buffer.take (t.received trb) = c.bytes := by
      rw [hbuffer, hreceived, List.take_left]
    have hreturns := (c.returns_iff rest s.usb).mpr ⟨hc.logFits, rfl⟩
    have hok := henough.eq_ok (grows_initializePhase2 _ _ _) (hbuffer ▸ hreturns)
    rw [onControlCompleted_two ha.isInitialized ha.initializePhase hcast, if_pos rfl, hreceived]
      at hcompleted
    unfold initializePhase2 at hcompleted
    rw [hok] at hcompleted
    cases hfrom : c.fromBoot with
    | nil =>
        -- without a boot interface nothing is asked for any more
        have hnothing : c.parsed s.usb = (.error .kSuccess, s.usb) := by
          unfold UsbConfiguration.parsed
          rw [hfrom]
        rw [hnothing] at hcompleted
        have hresult : s.onTransferResult r (t.completion trb) = some (.kSuccess, s) := hcompleted
        obtain ⟨err, hstep⟩ := onTransfer_stays hresult (by simp [ha.isInitialized])
        exact ⟨err, s, hstep, ⟨h.sound, 2, .configuration ha hrequests hdrivers⟩,
          fun hwell => absurd hfrom (hwell.2 c hbytes)⟩
    | cons ifDesc ds =>
        have hboot : c.parsed s.usb =
            (.controlOut (UhyokOS.setConfiguration (byteOf c.bytes 5)),
              configured s.usb ifDesc.driver c.endpointConfigs) := by
          unfold UsbConfiguration.parsed UsbConfiguration.endpointConfigs
          rw [hfrom]
        rw [hboot] at hcompleted
        have hsound : SlotSound bufPtr { s with
            usb := configured s.usb ifDesc.driver c.endpointConfigs
            driver := some ifDesc.driver.newDriver } := h.sound.congr rfl rfl rfl rfl
        obtain ⟨s', heq, hasks⟩ := controlOut_spec hsound h.outstanding h.used
          (UhyokOS.setConfiguration (byteOf c.bytes 5))
        have hfind := hc.findSome_classDrivers hfrom hdrivers
        have hresult : s.onTransferResult r (t.completion trb) = some (.kSuccess, s') := by
          rw [hcompleted]
          simp only [Except.toOption, Option.bind_eq_bind, Option.bind_some, hallocated, hfind,
            Option.map_some]
          exact heq
        have hasking := hasks.asking ha.phase ha.isInitialized rfl ha.interrupts ha.reports
          ha.waiters
        have hsame := hasks.same
        obtain ⟨err, hstep⟩ := onTransfer_stays hresult (by simp [hasking.isInitialized])
        have husb : s'.usb = configured s.usb ifDesc.driver c.endpointConfigs := by rw [hsame]
        have hdriver : s'.driver = some ifDesc.driver.newDriver := by rw [hsame]
        have hstage : Stage s' 3 := by
          refine .setting hasking ?_ hdriver (hc.recorded hfrom hdrivers husb)
          rw [hsame]
          show s.requests ++ _ = _
          rw [hrequests]
          rfl
        exact ⟨err, s', hstep, ⟨hasks.sound, 3, hstage⟩, fun _ => hstage.reaches (by decide)⟩
  · rw [onControlCompleted_two ha.isInitialized ha.initializePhase hcast,
      if_neg Bool.false_ne_true] at hcompleted
    obtain ⟨err, hstep⟩ := onTransfer_stays hcompleted (by simp [ha.isInitialized])
    exact ⟨err, s, hstep, ⟨h.sound, 2, .configuration ha hrequests hdrivers⟩,
      fun hwell => absurd hwell.1 hother⟩

/-- A new driver asks for 8 bytes at most. -/
theorem inPacketSize_newDriver (classDriver : ClassDriver) :
    classDriver.newDriver.inPacketSize ≤ 8 := by
  cases classDriver with
  | hidKeyboard interfaceIndex => exact le_refl 8
  | hidMouse interfaceIndex => exact (by decide : 3 ≤ 8)

/-- The completion of `SetConfiguration`: the endpoints get transfer rings, or the speed of the port
is unknown. -/
theorem Taken.setConfiguration {value : Nat} {classDriver : ClassDriver}
    {configs : List EndpointConfig} (h : Taken bufPtr s 3 (UhyokOS.setConfiguration value) 0 t)
    (hrequests : s.requests = enumerationRequests value)
    (hdriver : s.driver = some classDriver.newDriver) (hrecorded : Recorded s classDriver configs)
    {arrays : Nat → BitVec 64}
    (hfresh : FreshBuffers r s.transfers.device configs.length arrays) :
    Completes bufPtr s t trb r (¬(r.portSpeed = 0 ∨ r.portSpeed > kSuperSpeedPlus)) 4 := by
  have ha := h.asking
  obtain ⟨d, hphase3, hsize, config, hmem, hin, hepId⟩ := hrecorded.initializePhase3 hdriver
  have hresult : s.onTransferResult r (t.completion trb) =
      some (.kSuccess, s.initialized d) := by
    unfold onTransferResult Transfer.completion
    dsimp only
    rw [h.setupData, onControlCompleted_three ha.isInitialized ha.initializePhase]
    exact hphase3
  have htransfer := onTransfer_configures hresult rfl ha.phase
  have hsound : SlotSound bufPtr (s.initialized d) := h.sound.congr rfl rfl rfl rfl
  have hrecorded' : Recorded (s.initialized d) classDriver configs := hrecorded.congr rfl rfl rfl
  by_cases hspeed : r.portSpeed = 0 ∨ r.portSpeed > kSuperSpeedPlus
  · refine ⟨_, _, htransfer.trans (if_pos hspeed), ⟨hsound, 7, ?_⟩,
      fun hwell => absurd hspeed hwell⟩
    exact .stalled ha.phase rfl h.outstanding ha.interrupts hrequests ha.reports
  · obtain ⟨x, heq, hx⟩ := hsound.configureEndpoints hrecorded' hfresh hspeed
    have hsound' : SlotSound bufPtr
        { s.initialized d with transfers := x, phase := .kConfiguringEndpoints } := by
      refine ⟨hx.sound, ?_, ?_, h.sound.buf, h.sound.driverPtr⟩
      · intro u hu
        have hu' : u ∈ s.interrupts := hu
        rw [ha.interrupts] at hu'
        exact absurd hu' List.not_mem_nil
      · intro key waiter hkey
        have hkey' : (some key, waiter) ∈ x.device.eventWaiters.table := hkey
        rw [hx.eventWaiters] at hkey'
        exact h.sound.waiters key waiter hkey'
    have hring : x.device.HasRing config.epId := by
      refine hx.hasRing config ?_
      rw [List.take_length]
      exact hmem
    have hle : d.inPacketSize ≤ 8 := by
      rw [hsize]
      exact inPacketSize_newDriver classDriver
    have hwaiters := hx.eventWaiters
    have hmap := hx.setupStageMap
    have hfree : x.device.eventWaiters.HasFree := by
      rw [hwaiters]
      exact ha.waiters
    have hstage : Stage
        { s.initialized d with transfers := x, phase := .kConfiguringEndpoints } 4 :=
      .configuring rfl
        ⟨rfl, rfl, hepId ▸ hrecorded.context config hmem, hepId ▸ hin.2, hepId ▸ hring,
          ⟨classDriver, hepId ▸ hrecorded.entry config hmem⟩, hle, hrecorded.noControl⟩
        (hx.outstanding.trans h.outstanding) ha.interrupts hrequests ha.reports
        ((congrArg ArrayMap.used hmap).trans h.used) hfree
    exact ⟨_, _, htransfer.trans heq, ⟨hsound', 4, hstage⟩, fun _ => hstage.reaches (by decide)⟩

end DeviceSlot

end UhyokOS
