import UhyokOS.Usb.DeviceTransfers
import UhyokOS.Usb.Enumeration

/-!
# The steps of an enumeration

What the calls and handlers of `Usb.Enumeration` do to a device whose transfers are in order.

* `SlotSound.issue` and `SlotSound.interruptIn`: a call succeeds, and its transfer is in flight.
* `SlotSound.handle_control` and `SlotSound.handle_interrupt`: an event leads to the completion of
  its transfer.
* `Recorded.initializePhase3`, `SlotSound.configureEndpoints` and `ProtocolAsked.loop`: the loops.
-/

namespace UhyokOS

namespace DeviceSlot

variable {bufPtr : BitVec 64} {s : DeviceSlot} {t : Transfer} {r : SlotReadings}

/-! ## Calls -/

/-- The device after a control request. -/
def asked (s : DeviceSlot) (t : Transfer) (device : TransferDevice) : DeviceSlot :=
  { s with
    transfers := s.transfers.issued t device
    requests := s.requests ++ [.control t.setupData] }

/-- The device after an interrupt request. -/
def listening (s : DeviceSlot) (epId : EndpointID) (len : Nat) (ring : Ring) : DeviceSlot :=
  { s with
    transfers := s.transfers.setRing (deviceContextIndex epId - 1) ring
    interrupts := s.interrupts ++
      [⟨epId, s.transfers.device.nextPosition epId, s.driverBuf, BitVec.ofNat 32 len⟩]
    requests := s.requests ++ [.interruptIn epId len] }

/-- The transfers in flight are found when an event reports them, and only the driver waits. -/
structure SlotSound (bufPtr : BitVec 64) (s : DeviceSlot) : Prop where
  transfers : TransfersSound bufPtr s.transfers
  placed : ∀ t ∈ s.interrupts, t.epId.HasContext ∧ t.Placed s.transfers.device
  waiters : ∀ key value, (some key, value) ∈ s.transfers.device.eventWaiters.table →
    value = s.driverPtr
  buf : s.buf ≠ 0
  driverPtr : s.driverPtr ≠ 0

/-- The slots of `setup_stage_map_` in use. -/
def used (s : DeviceSlot) : Nat := s.transfers.device.setupStageMap.used

namespace SlotSound

/-- The invariant is about these parts of the device. -/
theorem congr {s' : DeviceSlot} (h : SlotSound bufPtr s) (htransfers : s'.transfers = s.transfers)
    (hinterrupts : s'.interrupts = s.interrupts) (hbuf : s'.buf = s.buf)
    (hdriverPtr : s'.driverPtr = s.driverPtr) : SlotSound bufPtr s' := by
  constructor
  · exact htransfers ▸ h.transfers
  · rw [htransfers, hinterrupts]
    exact h.placed
  · rw [htransfers, hdriverPtr]
    exact h.waiters
  · exact hbuf ▸ h.buf
  · exact hdriverPtr ▸ h.driverPtr

/-- **A control request** succeeds. -/
theorem issue (h : SlotSound bufPtr s) {isIn : Bool} {setupData : SetupData} {buf : BitVec 64}
    {len : BitVec 32} (ht : t = s.transfers.next isIn setupData buf len)
    (htime : s.transfers.KeepsInTime t) (hused : s.used < 16) (statusIn : Bool) {issuer : BitVec 64}
    (hissuer : issuer = 0 ∨ issuer = s.driverPtr) :
    ∃ device, s.issue t (s.transfers.device.control
        (if t.isIn then SetupStageTRB.kInDataStage else SetupStageTRB.kOutDataStage) t.isIn statusIn
        kDefaultControlPipeID t.setupData t.buf t.len issuer) =
          some (.kSuccess, s.asked t device) ∧
      SlotSound bufPtr (s.asked t device) ∧
      (∀ i, 1 ≤ i → device.transferRings[i]? = s.transfers.device.transferRings[i]?) ∧
      device.setupStageMap.used ≤ s.used + 1 ∧
      device.eventWaiters = (s.transfers.device.noteWaiter t.setupData issuer).eventWaiters := by
  obtain ⟨device, heq, hsound, hrings, hused', hwaiters⟩ := h.transfers.issue ht htime
    (ArrayMap.hasFree_of_used_lt hused) statusIn issuer
  refine ⟨device, ?_, ⟨hsound, ?_, ?_, h.buf, h.driverPtr⟩, hrings, hused', hwaiters⟩
  · rw [heq]
    rfl
  · intro u hu
    obtain ⟨hcontext, hplaced⟩ := h.placed u hu
    exact ⟨hcontext, hplaced.of_ring_eq (hrings _ (Nat.le_sub_one_of_lt hcontext.1))⟩
  · intro key value hmem
    have hmem' : (some key, value) ∈ device.eventWaiters.table := hmem
    rw [hwaiters] at hmem'
    unfold TransferDevice.noteWaiter at hmem'
    split_ifs at hmem' with hzero
    · rcases ArrayMap.mem_put hmem' with hmem' | ⟨-, hvalue⟩
      · exact h.waiters key value hmem'
      · exact hvalue.trans (hissuer.resolve_left hzero)
    · exact h.waiters key value hmem'

/-- A transfer overtakes none if none is in flight. -/
theorem keepsInTime_of_nil (hnone : s.transfers.outstanding = []) (t : Transfer) :
    s.transfers.KeepsInTime t := by
  unfold ControlRun.KeepsInTime
  rw [hnone]
  exact fun u hu => absurd hu List.not_mem_nil

/-- **`InterruptIn`** succeeds where no interrupt transfer is in flight. -/
theorem interruptIn (h : SlotSound bufPtr s) (hnone : s.interrupts = []) {epId : EndpointID}
    (hid : epId.HasContext) (hring : s.transfers.device.HasRing epId) (len : Nat) :
    ∃ ring, s.interruptIn epId len = some (.kSuccess, s.listening epId len ring) ∧
      SlotSound bufPtr (s.listening epId len ring) := by
  obtain ⟨ring, heq, hsound, hplaced⟩ :=
    h.transfers.interruptIn hid hring s.driverBuf (BitVec.ofNat 32 len)
  refine ⟨ring, ?_, hsound, ?_, h.waiters, h.buf, h.driverPtr⟩
  · unfold DeviceSlot.interruptIn
    rw [heq]
    rfl
  · intro u hu
    have hu' : u ∈ s.interrupts ++ [⟨epId, s.transfers.device.nextPosition epId, s.driverBuf,
        BitVec.ofNat 32 len⟩] := hu
    rw [hnone, List.nil_append, List.mem_singleton] at hu'
    subst hu'
    exact ⟨hid, hplaced⟩

end SlotSound

/-! ## Events -/

/-- The event for the `i`th control transfer has been taken. -/
def tookControl (s : DeviceSlot) (i : Nat) (t : Transfer) (trb : TransferEventTRB)
    (device : TransferDevice) : DeviceSlot :=
  { s with transfers := s.transfers.reported i t trb device }

/-- The event for the `i`th interrupt transfer has been taken. -/
def tookInterrupt (s : DeviceSlot) (i : Nat) : DeviceSlot :=
  { s with interrupts := s.interrupts.eraseIdx i }

theorem onTransfer_error (s : DeviceSlot) (r : SlotReadings) {err : Error} (h : err ≠ .kSuccess) :
    s.onTransfer r (.error err) = some (err, s) := by
  unfold onTransfer onTransferResult
  simp only [Option.pure_def, Option.bind_eq_bind, Option.bind_some]
  rw [if_pos h]

namespace SlotSound

/-- **The event for a control transfer** in flight, if it can be logged. -/
theorem handle_control (h : SlotSound bufPtr s) {i : Nat} {trb : TransferEventTRB}
    (ht : s.transfers.outstanding[i]? = some t)
    (hlog : s.transfers.device.logTransferEvent trb = some ())
    (hpointer : trb.Succeeded → trb.trbPointer = s.transfers.reporting t.first) :
    ∃ device, s.handle (.control i trb r) = (s.tookControl i t trb device).onTransfer r
        (if trb.Succeeded then t.completion trb else .error .kTransferFailed) ∧
      SlotSound bufPtr (s.tookControl i t trb device) ∧
      device.transferRings = s.transfers.device.transferRings ∧
      device.eventWaiters = s.transfers.device.eventWaiters ∧
      (trb.Succeeded → (s.tookControl i t trb device).used + 1 = s.used) := by
  obtain ⟨device, hstep, hsound, hrings, hwaiters, hused, -⟩ := h.transfers.event ht hlog hpointer
  refine ⟨device, ?_, ⟨hsound, ?_, ?_, h.buf, h.driverPtr⟩, hrings, hwaiters, hused⟩
  · simp only [handle, hstep, Option.bind_eq_bind, Option.bind_some]
    rfl
  · intro u hu
    obtain ⟨hcontext, hplaced⟩ := h.placed u hu
    exact ⟨hcontext, hplaced.of_ring_eq (congrArg (·[_]?) hrings)⟩
  · intro key value hmem
    have hmem' : (some key, value) ∈ device.eventWaiters.table := hmem
    exact h.waiters key value (hwaiters ▸ hmem')

/-- **The event for an interrupt transfer** in flight, if it can be logged. -/
theorem handle_interrupt (h : SlotSound bufPtr s) {i : Nat} {trb : TransferEventTRB}
    {t : InterruptTransfer} (ht : s.interrupts[i]? = some t)
    (hlog : s.transfers.device.logTransferEvent trb = some ())
    (hpointer : trb.Succeeded → trb.trbPointer = t.position) :
    s.handle (.interrupt i trb r) = (s.tookInterrupt i).onTransfer r (if trb.Succeeded then
        .interruptCompleted ⟨trb.endpointId.toNat⟩ t.buf (t.received trb)
        else .error .kTransferFailed) ∧
      SlotSound bufPtr (s.tookInterrupt i) := by
  obtain ⟨-, hplaced⟩ := h.placed t (List.mem_of_getElem? ht)
  refine ⟨?_, h.transfers, fun u hu => h.placed u (List.mem_of_mem_eraseIdx hu), h.waiters, h.buf,
    h.driverPtr⟩
  simp only [handle, hplaced.event h.transfers.rings hlog hpointer]
  split_ifs <;> rfl

end SlotSound

/-! ## The recorded endpoints -/

/-- The last iteration of a loop. -/
theorem foldlM_range_succ {σ : Type} (f : σ → Nat → Option σ) (s : σ) (m : Nat) :
    (List.range (m + 1)).foldlM f s = ((List.range m).foldlM f s).bind fun s => f s m := by
  rw [List.range_succ, List.foldlM_append]
  simp

/-- An endpoint that the driver listens to. -/
def IsInterruptIn (config : EndpointConfig) : Prop :=
  config.epType = .kInterrupt ∧ config.epId.isIn = true

/-- The endpoints of the boot interface are recorded, and all of them belong to its driver. -/
structure Recorded (s : DeviceSlot) (classDriver : ClassDriver) (configs : List EndpointConfig) :
    Prop where
  num : s.usb.numEpConfigs = configs.length
  config : ∀ i (h : i < configs.length), s.epConfigAt i = some configs[i]
  entry : ∀ config ∈ configs, s.classDriverAt config.epId = some (some classDriver)
  context : ∀ config ∈ configs, config.epId.HasContext
  interruptIn : ∃ config ∈ configs, IsInterruptIn config
  noControl : s.usb.classDrivers 0 = none

theorem Recorded.congr {s s' : DeviceSlot} {classDriver : ClassDriver}
    {configs : List EndpointConfig} (h : Recorded s classDriver configs)
    (hnum : s'.usb.numEpConfigs = s.usb.numEpConfigs)
    (hconfigs : s'.usb.epConfigs = s.usb.epConfigs)
    (hdrivers : s'.usb.classDrivers = s.usb.classDrivers) : Recorded s' classDriver configs := by
  refine ⟨hnum.trans h.num, ?_, ?_, h.context, h.interruptIn, ?_⟩
  · unfold epConfigAt
    rw [hconfigs]
    exact h.config
  · unfold classDriverAt
    rw [hdrivers]
    exact h.entry
  · rw [hdrivers]
    exact h.noControl

/-- The endpoints that the driver has been told of determine what it listens to. -/
structure ToldOf (driver driver' : HIDDriver) (configs : List EndpointConfig) : Prop where
  interfaceIndex : driver'.interfaceIndex = driver.interfaceIndex
  inPacketSize : driver'.inPacketSize = driver.inPacketSize
  initializePhase : driver'.initializePhase = driver.initializePhase
  epInterruptIn : (∀ config ∈ configs, ¬IsInterruptIn config) ∨
    ∃ config ∈ configs, IsInterruptIn config ∧ driver'.epInterruptIn = config.epId

variable {classDriver : ClassDriver} {configs : List EndpointConfig} {d d' : HIDDriver}

theorem ToldOf.setEndpoint (h : ToldOf d d' configs) (config : EndpointConfig) :
    ToldOf d (d'.setEndpoint config) (configs ++ [config]) := by
  by_cases hin : IsInterruptIn config
  · have hset : d'.setEndpoint config = { d' with epInterruptIn := config.epId } := if_pos hin
    rw [hset]
    refine ⟨h.interfaceIndex, h.inPacketSize, h.initializePhase, Or.inr ⟨config, ?_, hin, rfl⟩⟩
    exact List.mem_append_right _ (List.mem_singleton_self _)
  · have hset : d'.setEndpoint config =
        if config.epType = .kInterrupt ∧ ¬config.epId.isIn then
          { d' with epInterruptOut := config.epId }
        else d' := if_neg hin
    have hsame : (d'.setEndpoint config).epInterruptIn = d'.epInterruptIn ∧
        (d'.setEndpoint config).interfaceIndex = d'.interfaceIndex ∧
        (d'.setEndpoint config).inPacketSize = d'.inPacketSize ∧
        (d'.setEndpoint config).initializePhase = d'.initializePhase := by
      rw [hset]
      split_ifs <;> exact ⟨rfl, rfl, rfl, rfl⟩
    obtain ⟨hid, hindex, hsize, hphase⟩ := hsame
    refine ⟨hindex.trans h.interfaceIndex, hsize.trans h.inPacketSize,
      hphase.trans h.initializePhase, ?_⟩
    rcases h.epInterruptIn with hnone | ⟨found, hmem, hfound, heq⟩
    · refine Or.inl fun other hother => ?_
      rcases List.mem_append.mp hother with hother | hother
      · exact hnone other hother
      · exact List.mem_singleton.mp hother ▸ hin
    · exact Or.inr ⟨found, List.mem_append_left _ hmem, hfound, hid.trans heq⟩

theorem setEndpoint_eq {i : Nat} {config : EndpointConfig} (hconfig : s.epConfigAt i = some config)
    (hentry : s.classDriverAt config.epId = some (some classDriver)) (hd : s.driver = some d) :
    s.setEndpoint i = some { s with driver := some (d.setEndpoint config) } := by
  unfold setEndpoint
  simp only [hconfig, hentry, hd, Option.bind_eq_bind, Option.bind_some, Option.pure_def]

/-- The loop of `InitializePhase3`, up to an endpoint. -/
theorem Recorded.setEndpoints_upTo (h : Recorded s classDriver configs) (hd : s.driver = some d)
    (m : Nat) (hm : m ≤ configs.length) :
    ∃ d', (List.range m).foldlM setEndpoint s = some { s with driver := some d' } ∧
      ToldOf d d' (configs.take m) := by
  induction m with
  | zero =>
      refine ⟨d, ?_, rfl, rfl, rfl, Or.inl fun config hmem => absurd hmem List.not_mem_nil⟩
      rw [← hd]
      rfl
  | succ m ih =>
      obtain ⟨d', heq, htold⟩ := ih (Nat.le_of_succ_le hm)
      have hconfig := h.config m hm
      have hentry := h.entry configs[m] (List.getElem_mem hm)
      refine ⟨d'.setEndpoint configs[m], ?_, ?_⟩
      · rw [foldlM_range_succ, heq, Option.bind_some]
        exact setEndpoint_eq hconfig hentry rfl
      · rw [List.take_succ_eq_append_getElem hm]
        exact htold.setEndpoint _

/-- The device after its driver has been told of the endpoints. -/
def initialized (s : DeviceSlot) (driver : HIDDriver) : DeviceSlot :=
  { s with
    driver := some driver
    usb := { s.usb with initializePhase := 4 }
    isInitialized := true }

/-- **`InitializePhase3`** tells the driver of its endpoints. -/
theorem Recorded.initializePhase3 (h : Recorded s classDriver configs) (hd : s.driver = some d) :
    ∃ d', s.initializePhase3 = some (.kSuccess, s.initialized d') ∧
      d'.inPacketSize = d.inPacketSize ∧
      ∃ config ∈ configs, IsInterruptIn config ∧ d'.epInterruptIn = config.epId := by
  obtain ⟨d', heq, htold⟩ := h.setEndpoints_upTo hd configs.length le_rfl
  rw [List.take_length] at htold
  refine ⟨d', ?_, htold.inPacketSize, ?_⟩
  · unfold DeviceSlot.initializePhase3
    rw [h.num, heq]
    rfl
  · obtain ⟨config, hmem, hin⟩ := h.interruptIn
    exact htold.epInterruptIn.resolve_left fun hnone => hnone config hmem hin

/-! ## The transfer rings -/

/-- There is memory for `n` transfer rings and their arrays, and the arrays lie apart from those of
the other transfer rings and from each other. -/
structure FreshBuffers (r : SlotReadings) (dev : TransferDevice) (n : Nat)
    (arrays : Nat → BitVec 64) : Prop where
  allocated : ∀ {i : Nat}, i < n → r.ringBuffer i = some (some (arrays i))
  rings : ∀ {i j : Nat} {ring : Ring}, i < n → dev.transferRings[j]? = some (some ring) →
    Apart ring.bufPtr (arrays i)
  each : ∀ {i j : Nat}, i < n → j < n → i ≠ j → Apart (arrays i) (arrays j)

/-- The endpoint of another ring keeps its ring. -/
theorem HasRing.setRing {dev : TransferDevice} {epId : EndpointID} (h : dev.HasRing epId) (i : Nat)
    (ring : Ring) : (dev.setRing i ring).HasRing epId := by
  obtain ⟨old, hold⟩ := h
  unfold TransferDevice.HasRing TransferDevice.setRing
  by_cases hi : i = deviceContextIndex epId - 1
  · rw [hi]
    exact ⟨ring, List.getElem?_set_self (List.getElem?_eq_some_iff.mp hold).1⟩
  · exact ⟨old, (List.getElem?_set_ne hi).trans hold⟩

variable {arrays : Nat → BitVec 64}

/-- The transfer rings of the first `m` endpoints are allocated. -/
structure RingsFor (bufPtr : BitVec 64) (s : DeviceSlot) (arrays : Nat → BitVec 64)
    (configs : List EndpointConfig) (m : Nat) (x : ControlRun) : Prop where
  sound : TransfersSound bufPtr x
  outstanding : x.outstanding = s.transfers.outstanding
  setupStageMap : x.device.setupStageMap = s.transfers.device.setupStageMap
  eventWaiters : x.device.eventWaiters = s.transfers.device.eventWaiters
  hasRing : ∀ config ∈ configs.take m, x.device.HasRing config.epId
  fresh : ∀ {i j : Nat} {ring : Ring}, m ≤ i → i < configs.length →
    x.device.transferRings[j]? = some (some ring) → Apart ring.bufPtr (arrays i)

/-- One iteration of the loop. -/
theorem RingsFor.next {m : Nat} {x : ControlRun} (h : RingsFor bufPtr s arrays configs m x)
    (hrecorded : Recorded s classDriver configs)
    (hfresh : FreshBuffers r s.transfers.device configs.length arrays) (hm : m < configs.length) :
    ∃ x', allocEndpointRing r { s with transfers := x } m = some { s with transfers := x' } ∧
      RingsFor bufPtr s arrays configs (m + 1) x' := by
  have hcontext := hrecorded.context configs[m] (List.getElem_mem hm)
  obtain ⟨ring, hptr, heq, hsound⟩ := h.sound.allocTransferRing hcontext
    (fun hring _ => h.fresh le_rfl hm hring)
  have hlength := h.sound.rings.length
  obtain ⟨hlow, hhigh⟩ := hcontext
  refine ⟨_, ?_, hsound, h.outstanding, h.setupStageMap, h.eventWaiters, ?_, ?_⟩
  · have hconfig : { s with transfers := x }.epConfigAt m = some configs[m] := hrecorded.config m hm
    unfold allocEndpointRing
    rw [hconfig, hfresh.allocated hm]
    show (x.device.allocTransferRing (deviceContextIndex configs[m].epId) (kControlSlots + 1)
      (some (some (arrays m)))).bind _ = _
    rw [heq]
    rfl
  · intro config hconfig
    rw [List.take_succ_eq_append_getElem hm] at hconfig
    rcases List.mem_append.mp hconfig with hconfig | hconfig
    · exact HasRing.setRing (h.hasRing config hconfig) _ _
    · rw [List.mem_singleton.mp hconfig]
      exact ⟨ring, List.getElem?_set_self (by omega)⟩
  · intro i j other hi hlt hother
    have hother' : (x.device.transferRings.set _ (some ring))[j]? = some (some other) := hother
    by_cases hj : deviceContextIndex configs[m].epId - 1 = j
    · rw [← hj, List.getElem?_set_self (by omega)] at hother'
      cases hother'
      rw [hptr]
      exact hfresh.each hm hlt (Nat.ne_of_lt hi)
    · rw [List.getElem?_set_ne hj] at hother'
      exact h.fresh (Nat.le_of_succ_le hi) hlt hother'

/-- **`ConfigureEndpoints`** gives every endpoint a transfer ring, if there is memory for them. -/
theorem SlotSound.configureEndpoints (h : SlotSound bufPtr s)
    (hrecorded : Recorded s classDriver configs)
    (hfresh : FreshBuffers r s.transfers.device configs.length arrays)
    (hspeed : ¬(r.portSpeed = 0 ∨ r.portSpeed > kSuperSpeedPlus)) :
    ∃ x, s.configureEndpoints r = some (.kSuccess,
        { s with transfers := x, phase := .kConfiguringEndpoints }) ∧
      RingsFor bufPtr s arrays configs configs.length x := by
  have hloop : ∀ m ≤ configs.length, ∃ x,
      (List.range m).foldlM (allocEndpointRing r) s = some { s with transfers := x } ∧
        RingsFor bufPtr s arrays configs m x := by
    intro m hm
    induction m with
    | zero =>
        exact ⟨s.transfers, rfl, h.transfers, rfl, rfl, rfl,
          fun config hconfig => absurd hconfig List.not_mem_nil,
          fun _ hi hring => hfresh.rings hi hring⟩
    | succ m ih =>
        obtain ⟨x, heq, hx⟩ := ih (Nat.le_of_succ_le hm)
        obtain ⟨x', heq', hx'⟩ := hx.next hrecorded hfresh hm
        refine ⟨x', ?_, hx'⟩
        rw [foldlM_range_succ, heq]
        exact heq'
  obtain ⟨x, heq, hx⟩ := hloop configs.length le_rfl
  refine ⟨x, ?_, hx⟩
  unfold DeviceSlot.configureEndpoints
  rw [if_neg hspeed, hrecorded.num, heq]
  rfl

/-! ## The requests of the driver -/

/-- The driver has asked `k` times for its protocol, once for each entry of `class_drivers_`. -/
structure ProtocolAsked (bufPtr : BitVec 64) (s₀ : DeviceSlot) (d : HIDDriver) (k : Nat)
    (s : DeviceSlot) : Prop where
  sound : SlotSound bufPtr s
  same : s = { s₀ with transfers := s.transfers, driver := s.driver, requests := s.requests }
  driver : ∃ phase, s.driver = some { d with initializePhase := phase } ∧ (0 < k → phase = 1)
  requests : s.requests =
    s₀.requests ++ List.replicate k (.control (setProtocol d.interfaceIndex))
  length : s.transfers.outstanding.length = k
  outstanding : ∀ t ∈ s.transfers.outstanding,
    t.setupData = setProtocol d.interfaceIndex ∧ s.transfers.pushed ≤ t.first + 2 * k
  used : s.used ≤ k
  waiters : s.transfers.device.eventWaiters.HasFree ∨
    s.transfers.device.eventWaiters.Present (setProtocol d.interfaceIndex)
  present : 0 < k → s.transfers.device.eventWaiters.Present (setProtocol d.interfaceIndex)
  rings : ∀ i, 1 ≤ i →
    s.transfers.device.transferRings[i]? = s₀.transfers.device.transferRings[i]?

namespace ProtocolAsked

variable {s₀ : DeviceSlot} {k : Nat}

/-- One call of `HIDBaseDriver::OnEndpointsConfigured`. -/
theorem next (h : ProtocolAsked bufPtr s₀ d k s) (hk : k < 15) :
    ∃ s', s.driverOnEndpointsConfigured = some (.kSuccess, s') ∧
      ProtocolAsked bufPtr s₀ d (k + 1) s' := by
  obtain ⟨phase, hdriver, -⟩ := h.driver
  have hsound : SlotSound bufPtr { s with driver := some { d with initializePhase := 1 } } :=
    h.sound.congr rfl rfl rfl rfl
  have hcount : (s.transfers.next false (setProtocol d.interfaceIndex) 0 0).count = 2 := rfl
  have htime : s.transfers.KeepsInTime
      (s.transfers.next false (setProtocol d.interfaceIndex) 0 0) := by
    intro u hu
    have hu' := (h.outstanding u hu).2
    rw [hcount]
    unfold kControlSlots
    omega
  have hused : s.used < 16 := Nat.lt_of_le_of_lt h.used (by omega)
  obtain ⟨device, heq, hsound', hrings, hused', hwaiters⟩ :=
    hsound.issue rfl htime hused true (Or.inr rfl)
  have hnote : device.eventWaiters =
      s.transfers.device.eventWaiters.put (setProtocol d.interfaceIndex) s.driverPtr := by
    rw [hwaiters]
    unfold TransferDevice.noteWaiter
    rw [if_pos h.sound.driverPtr]
    rfl
  have hpresent : device.eventWaiters.Present (setProtocol d.interfaceIndex) := by
    rw [hnote, ArrayMap.present_put]
    exact h.waiters.symm.imp id fun hfree => ⟨hfree, rfl⟩
  refine ⟨_, ?_, hsound', ?_, ⟨1, rfl, fun _ => rfl⟩, ?_, ?_, ?_, ?_, Or.inr hpresent,
    fun _ => hpresent, fun i hi => (hrings i hi).trans (h.rings i hi)⟩
  · unfold driverOnEndpointsConfigured
    rw [hdriver]
    exact heq
  · show _ = _
    rw [h.same]
    rfl
  · show s.requests ++ [_] = _
    rw [h.requests, List.replicate_succ', List.append_assoc]
    rfl
  · show (s.transfers.outstanding ++ [_]).length = _
    rw [List.length_append, h.length]
    rfl
  · intro t ht
    show t.setupData = _ ∧ s.transfers.pushed + 2 ≤ _
    rcases List.mem_append.mp ht with ht | ht
    · obtain ⟨hsetup, hpushed⟩ := h.outstanding t ht
      exact ⟨hsetup, by omega⟩
    · rw [List.mem_singleton.mp ht]
      refine ⟨rfl, ?_⟩
      show s.transfers.pushed + 2 ≤ s.transfers.pushed + 2 * (k + 1)
      omega
  · exact hused'.trans (Nat.succ_le_succ h.used)

/-- **The loop** over some entries of `class_drivers_`. -/
theorem loop (l : List (Fin 16)) (h : ProtocolAsked bufPtr s₀ d k s)
    (hk : k + l.countP (fun n => (s₀.usb.classDrivers n).isSome) ≤ 15) :
    ∃ s', l.foldlM visitClassDriver (.kSuccess, s) = some (.kSuccess, s') ∧
      ProtocolAsked bufPtr s₀ d (k + l.countP fun n => (s₀.usb.classDrivers n).isSome) s' := by
  induction l generalizing s k with
  | nil => exact ⟨s, rfl, h⟩
  | cons n l ih =>
      have husb : s.usb = s₀.usb := by rw [h.same]
      rw [List.foldlM_cons]
      rw [List.countP_cons] at hk ⊢
      cases hentry : s₀.usb.classDrivers n with
      | none =>
          rw [hentry] at hk
          have hvisit : visitClassDriver (.kSuccess, s) n = some (.kSuccess, s) := by
            unfold visitClassDriver
            simp only [husb, hentry]
            rfl
          rw [hvisit]
          exact ih h hk
      | some classDriver =>
          rw [hentry] at hk
          have hk' : k + 1 + l.countP (fun n => (s₀.usb.classDrivers n).isSome) ≤ 15 := by
            simp only [Option.isSome_some, if_true] at hk
            omega
          obtain ⟨s', heq, hs'⟩ := h.next (by omega)
          have hvisit : visitClassDriver (.kSuccess, s) n = some (.kSuccess, s') := by
            unfold visitClassDriver
            simp only [husb, hentry, ← heq]
            rfl
          obtain ⟨s'', heq', hs''⟩ := ih hs' hk'
          refine ⟨s'', ?_, ?_⟩
          · rw [hvisit]
            exact heq'
          · simp only [Option.isSome_some, if_true]
            rwa [Nat.add_right_comm, Nat.add_assoc] at hs''

end ProtocolAsked

end DeviceSlot

end UhyokOS
