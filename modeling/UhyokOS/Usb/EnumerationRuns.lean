import UhyokOS.Usb.EnumerationStages

/-!
# The runs of an enumeration

A device that describes itself well is enumerated while the controller reports its transfers in any
order, with or without success. Of the events that may be reported, the handler of one is undefined
only if the event cannot be logged.

* `stage_step`: an event that can be logged keeps the invariant, and leads to the next stage if it goes
  well.
* `enumeration_in_order`: what is asked of the controller, and when.
* `listens_iff`: the driver listens exactly until an interrupt transfer fails.
* `enumerates`: six events that go well lead to a driver that listens.
-/

namespace UhyokOS

open Transition

namespace DeviceSlot

variable {bufPtr : BitVec 64} {s : DeviceSlot} {t : Transfer} {r : SlotReadings} {i n : Nat}
  {trb : TransferEventTRB} {device : TransferDevice} {setupData : SetupData} {buf : BitVec 64}

/-! ## The requests of the driver -/

variable {d : HIDDriver} {value k : Nat}

/-- What the driver has stays while none of the things it is made of changes: the device descriptor
data, the driver itself and the ring of its endpoint. -/
theorem Equipped.congr {s' : DeviceSlot} (he : Equipped s d)
    (hinit : s'.isInitialized = s.isInitialized) (husb : s'.usb = s.usb)
    (hdriver : s'.driver = s.driver) (hring : s'.transfers.device.HasRing d.epInterruptIn) :
    Equipped s' d := by
  have hentry : ∃ classDriver, s'.classDriverAt d.epInterruptIn = some (some classDriver) := by
    unfold classDriverAt
    rw [husb]
    exact he.entry
  exact ⟨hinit.trans he.isInitialized, hdriver.trans he.driver, he.context, he.isIn, hring, hentry,
    he.size, husb ▸ he.noControl⟩

/-- An event for a control transfer does not concern what the driver has. -/
theorem Equipped.took (he : Equipped s d) (h : Took bufPtr s i t trb r device) :
    Equipped (s.tookControl i t trb device) d := by
  have hring : device.HasRing d.epInterruptIn := by
    unfold TransferDevice.HasRing
    rw [h.rings]
    exact he.ring
  exact he.congr rfl rfl rfl hring

/-- No driver is at the control endpoint, and one is where it listens. -/
theorem Equipped.countP_classDrivers (he : Equipped s d) :
    0 < (List.finRange 16).countP (fun n => (s.usb.classDrivers n).isSome) ∧
      (List.finRange 16).countP (fun n => (s.usb.classDrivers n).isSome) ≤ 15 := by
  obtain ⟨classDriver, hentry⟩ := he.entry
  unfold classDriverAt at hentry
  constructor
  · split_ifs at hentry with hlt
    refine List.countP_pos_iff.mpr ⟨⟨_, hlt⟩, List.mem_finRange _, ?_⟩
    rw [Option.some.inj hentry]
    rfl
  · have hzero : ¬(s.usb.classDrivers 0).isSome = true := by
      rw [he.noControl]
      exact Bool.false_ne_true
    have hrest : (List.finRange 16).countP (fun n => (s.usb.classDrivers n).isSome) =
        ((List.finRange 15).map Fin.succ).countP fun n => (s.usb.classDrivers n).isSome := by
      rw [List.finRange_succ]
      exact List.countP_cons_of_neg hzero
    rw [hrest]
    refine List.countP_le_length.trans ?_
    rw [List.length_map, List.length_finRange]

/-- **`CompleteConfiguration`** asks for the protocol once for each entry of the driver. -/
theorem Equipped.completeConfiguration (he : Equipped s d) (h : SlotSound bufPtr s)
    (hout : s.transfers.outstanding = []) (hinterrupts : s.interrupts = [])
    (hrequests : s.requests = enumerationRequests value) (hreports : s.reports = 0)
    (hused : s.used = 0) (hwaiters : s.transfers.device.eventWaiters.HasFree) :
    ∃ s', s.completeConfiguration = some (.kSuccess, s') ∧ SlotSound bufPtr s' ∧ Stage s' 5 := by
  have hstart : ProtocolAsked bufPtr s d 0 s := by
    refine ⟨h, rfl, ⟨d.initializePhase, he.driver, fun hpos => absurd hpos (Nat.lt_irrefl 0)⟩,
      (List.append_nil _).symm, ?_, ?_, hused.le, Or.inl hwaiters,
      fun hpos => absurd hpos (Nat.lt_irrefl 0), fun _ _ => rfl⟩
    · rw [hout]
      rfl
    · intro u hu
      rw [hout] at hu
      exact absurd hu List.not_mem_nil
  obtain ⟨hpos, hle⟩ := he.countP_classDrivers
  obtain ⟨s', heq, hs'⟩ := hstart.loop (List.finRange 16) (by rwa [Nat.zero_add])
  rw [Nat.zero_add] at hs'
  obtain ⟨phase, hdriver, hone⟩ := hs'.driver
  obtain rfl := hone hpos
  have hsame := hs'.same
  have hinit : s'.isInitialized = true := by
    rw [hsame]
    exact he.isInitialized
  have husb : s'.usb = s.usb := by rw [hsame]
  have hnone : s'.interrupts = [] := by
    rw [hsame]
    exact hinterrupts
  have hzero : s'.reports = 0 := by
    rw [hsame]
    exact hreports
  have hring : s'.transfers.device.HasRing d.epInterruptIn := by
    obtain ⟨ring, hring⟩ := he.ring
    exact ⟨ring, (hs'.rings _ (Nat.le_sub_one_of_lt he.context.1)).trans hring⟩
  have hentry : ∃ classDriver, s'.classDriverAt d.epInterruptIn = some (some classDriver) := by
    unfold classDriverAt
    rw [husb]
    exact he.entry
  have hequipped : Equipped { s' with phase := .kConfigured } { d with initializePhase := 1 } :=
    ⟨hinit, hdriver, he.context, he.isIn, hring, hentry, he.size, husb ▸ he.noControl⟩
  refine ⟨{ s' with phase := .kConfigured }, ?_, hs'.sound.congr rfl rfl rfl rfl, ?_⟩
  · unfold DeviceSlot.completeConfiguration onEndpointsConfigured
    rw [heq]
    rfl
  · exact .protocol rfl hequipped rfl (fun u hu => (hs'.outstanding u hu).1) hnone
      (hrequests ▸ hs'.requests) hzero (hs'.present hpos)

/-- The completion of a request of the driver. -/
theorem SlotSound.onTransferResult_driver (h : SlotSound bufPtr s) (hinit : s.isInitialized = true)
    (hpresent : s.transfers.device.eventWaiters.Present t.setupData) (trb : TransferEventTRB)
    (r : SlotReadings) : s.onTransferResult r (t.completion trb) = s.driverOnControlCompleted := by
  obtain ⟨w, hw⟩ := ArrayMap.exists_get hpresent
  have hptr : w = s.driverPtr := h.waiters _ _ (ArrayMap.mem_of_get hw)
  unfold onTransferResult Transfer.completion onControlCompleted
  dsimp only
  rw [hinit, if_pos rfl, hw]
  exact if_pos hptr

/-- **The driver listens** where nobody does. -/
theorem Equipped.listens (he : Equipped s d) (h : SlotSound bufPtr s)
    (hphase : s.phase = .kConfigured) (htwo : d.initializePhase = 2)
    (houtstanding : ∀ u ∈ s.transfers.outstanding, u.setupData = setProtocol d.interfaceIndex)
    (hinterrupts : s.interrupts = [])
    (hrequests : s.requests = enumerationRequests value ++
      List.replicate k (.control (setProtocol d.interfaceIndex)) ++
      List.replicate s.reports (.interruptIn d.epInterruptIn d.inPacketSize))
    (hpresent : s.transfers.device.eventWaiters.Present (setProtocol d.interfaceIndex)) :
    ∃ s', s.interruptIn d.epInterruptIn d.inPacketSize = some (.kSuccess, s') ∧
      SlotSound bufPtr s' ∧ Stage s' 6 ∧ s'.phase = .kConfigured ∧ s'.interrupts.length = 1 := by
  obtain ⟨ring, heq, hsound⟩ := h.interruptIn hinterrupts he.context he.ring d.inPacketSize
  have hequipped : Equipped (s.listening d.epInterruptIn d.inPacketSize ring) d :=
    he.congr rfl rfl rfl (HasRing.setRing he.ring _ _)
  have hone : (s.listening d.epInterruptIn d.inPacketSize ring).interrupts.length = 1 := by
    show (s.interrupts ++ [_]).length = 1
    rw [hinterrupts]
    rfl
  have heach : ∀ u ∈ (s.listening d.epInterruptIn d.inPacketSize ring).interrupts,
      u.epId = d.epInterruptIn ∧ u.len = BitVec.ofNat 32 d.inPacketSize := by
    intro u hu
    have hu' : u ∈ s.interrupts ++ [⟨d.epInterruptIn,
        s.transfers.device.nextPosition d.epInterruptIn, s.driverBuf,
        BitVec.ofNat 32 d.inPacketSize⟩] := hu
    rw [hinterrupts, List.nil_append, List.mem_singleton] at hu'
    subst hu'
    exact ⟨rfl, rfl⟩
  have hasked : (s.listening d.epInterruptIn d.inPacketSize ring).requests =
      enumerationRequests value ++
        List.replicate k (.control (setProtocol d.interfaceIndex)) ++
        List.replicate (s.reports + 1) (.interruptIn d.epInterruptIn d.inPacketSize) := by
    show s.requests ++ [_] = _
    rw [hrequests, List.replicate_succ', List.append_assoc _ (List.replicate s.reports _)]
  have hstage : Stage (s.listening d.epInterruptIn d.inPacketSize ring) 6 :=
    .listening hphase hequipped htwo houtstanding hone.le heach hasked hpresent
  exact ⟨_, heq, hsound, hstage, hphase, hone⟩

/-- A configured device is not configured again. -/
theorem onTransfer_configured {result : TransferResult} {err : Error} {s' : DeviceSlot}
    (h : s.onTransferResult r result = some (err, s')) (hphase : s'.phase = .kConfigured) :
    ∃ err', s.onTransfer r result = some (err', s') := by
  apply onTransfer_stays h
  rintro ⟨-, hinitializing⟩
  exact absurd (hphase.symm.trans hinitializing) (by decide)

/-- An event for a control transfer of a configured device fails, or leads to the driver. -/
theorem Equipped.control (he : Equipped s d) (h : Took bufPtr s i t trb r device)
    (houtstanding : ∀ u ∈ s.transfers.outstanding, u.setupData = setProtocol d.interfaceIndex)
    (hpresent : s.transfers.device.eventWaiters.Present (setProtocol d.interfaceIndex)) :
    (¬trb.Succeeded ∧ s.step (.control i trb r) = some (s.tookControl i t trb device)) ∨
      ∀ err s', (s.tookControl i t trb device).driverOnControlCompleted = some (err, s') →
        s'.phase = .kConfigured → s.step (.control i trb r) = some s' := by
  by_cases hsuccess : trb.Succeeded
  · obtain ⟨-, hhandle, -⟩ := h.succeeds hsuccess
    have hsetup := houtstanding t (List.mem_of_getElem? h.found)
    have hwaiters := h.waiters
    have hpresent' : device.eventWaiters.Present t.setupData := by
      rw [hwaiters, hsetup]
      exact hpresent
    have hdriver := h.sound.onTransferResult_driver he.isInitialized hpresent' trb r
    refine Or.inr fun err s' hcompleted hconfigured => ?_
    obtain ⟨err', hstep⟩ := onTransfer_configured (hdriver.trans hcompleted) hconfigured
    exact step_of_handle (hhandle.trans hstep)
  · exact Or.inl ⟨hsuccess, h.fails hsuccess⟩

/-- What the source makes of the length of a report. -/
theorem InterruptTransfer.received_le {u : InterruptTransfer} {size : Nat}
    (trb : TransferEventTRB) (hsize : size ≤ 8) (hlen : u.len = BitVec.ofNat 32 size) :
    (u.received trb).toInt ≤ 8 := by
  have hresidual := trb.trbTransferLength.isLt
  unfold InterruptTransfer.received
  rw [hlen, BitVec.toInt_eq_toNat_cond, BitVec.toNat_sub]
  simp only [BitVec.toNat_setWidth, BitVec.toNat_ofNat]
  split_ifs <;> omega

/-- **A report** makes the driver listen again. -/
theorem Equipped.onInterruptCompleted (he : Equipped s d) (trb : TransferEventTRB)
    {u : InterruptTransfer} (hid : trb.endpointId.toNat = deviceContextIndex d.epInterruptIn)
    (hlen : u.len = BitVec.ofNat 32 d.inPacketSize) :
    s.onInterruptCompleted ⟨trb.endpointId.toNat⟩ (u.received trb) =
      DeviceSlot.interruptIn { s with reports := s.reports + 1 } d.epInterruptIn
        d.inPacketSize := by
  obtain ⟨classDriver, hentry⟩ := he.entry
  have hepId : (⟨trb.endpointId.toNat⟩ : EndpointID) = d.epInterruptIn := by
    rw [hid]
    rfl
  have hfits : ¬(kHIDBufferSize < (u.received trb).toInt) := by
    have hle := InterruptTransfer.received_le trb he.size hlen
    show ¬((1024 : Int) < _)
    omega
  rw [hepId]
  unfold DeviceSlot.onInterruptCompleted driverOnInterruptCompleted
  simp only [hentry, he.driver, he.isIn, Option.bind_eq_bind, Option.bind_some, if_true]
  rw [if_neg hfits]

/-! ## The steps -/

/-- The event reports an interrupt transfer that has failed. -/
def SlotEvent.InterruptFails : SlotEvent → Prop
  | .interrupt _ trb _ => ¬trb.Succeeded
  | _ => False

/-- Where no transfer is in flight, no event for one is permitted. -/
theorem not_permitted_control (hout : s.transfers.outstanding = []) :
    ¬s.Permitted (.control i trb r) := by
  rintro ⟨t, hfound, -⟩
  rw [hout] at hfound
  cases hfound

/-- Where no interrupt transfer is in flight, no event for one is permitted. -/
theorem not_permitted_interrupt (hinterrupts : s.interrupts = []) :
    ¬s.Permitted (.interrupt i trb r) := by
  rintro ⟨t, hfound, -⟩
  rw [hinterrupts] at hfound
  cases hfound

/-- The completion of a command that the device has not waited for changes nothing. -/
theorem step_addressed (hphase : s.phase ≠ .kAddressingDevice) : s.step .addressed = some s :=
  step_of_handle (if_pos hphase)

/-- The same of the command that configures the endpoints. -/
theorem step_endpointsConfigured (hphase : s.phase ≠ .kConfiguringEndpoints) :
    s.step .endpointsConfigured = some s :=
  step_of_handle (if_pos hphase)

/-- The completion of a command that the device does not wait for keeps the stage. -/
theorem addressed_ignored {m : Nat} (hs : Sound bufPtr s) (hphase : s.phase ≠ .kAddressingDevice) :
    Steps bufPtr s .addressed m :=
  ⟨s, step_of_handle (if_pos hphase), hs, fun hwell => absurd hwell hphase⟩

/-- That of the endpoints as well. -/
theorem endpointsConfigured_ignored {m : Nat} (hs : Sound bufPtr s)
    (hphase : s.phase ≠ .kConfiguringEndpoints) : Steps bufPtr s .endpointsConfigured m :=
  ⟨s, step_of_handle (if_pos hphase), hs, fun hwell => absurd hwell hphase⟩

/-- An event while the device is being initialised. -/
theorem Asking.step {m : Nat} (ha : Asking s n setupData buf) (hs : Sound bufPtr s)
    {event : SlotEvent} (hpermitted : s.Permitted event) (hlogs : s.Logs event)
    (hcontrol : ∀ {i trb r}, s.Permitted (.control i trb r) → s.Logs (.control i trb r) →
      Steps bufPtr s (.control i trb r) m) : Steps bufPtr s event m := by
  have haddressing : s.phase ≠ .kAddressingDevice := by
    rw [ha.phase]
    decide
  have hconfiguring : s.phase ≠ .kConfiguringEndpoints := by
    rw [ha.phase]
    decide
  cases event with
  | addressed => exact addressed_ignored hs haddressing
  | control i trb r => exact hcontrol hpermitted hlogs
  | interrupt i trb r => exact absurd hpermitted (not_permitted_interrupt ha.interrupts)
  | endpointsConfigured => exact endpointsConfigured_ignored hs hconfiguring

/-- The first event. -/
theorem addressing_step (h : SlotSound bufPtr s) (hphase : s.phase = .kAddressingDevice)
    (hout : s.transfers.outstanding = []) (hinterrupts : s.interrupts = [])
    (hrequests : s.requests = []) (hreports : s.reports = 0)
    (hused : s.used = 0) (hwaiters : s.transfers.device.eventWaiters.HasFree)
    (hdrivers : ∀ n, s.usb.classDrivers n = none) :
    ∃ s', s.step .addressed = some s' ∧ SlotSound bufPtr s' ∧ Stage s' 1 := by
  have hsound : SlotSound bufPtr { s with
      phase := .kInitializingDevice
      isInitialized := false
      usb := { s.usb with initializePhase := 1 } } := h.congr rfl rfl rfl rfl
  obtain ⟨s', heq, hasks⟩ := getDescriptor_spec hsound hout hused
    (BitVec.ofNat 8 deviceDescriptorType) 0
  have hasking := hasks.asking rfl rfl rfl hinterrupts hreports hwaiters
  have hsame := hasks.same
  have hbuf : s'.buf = s.buf := by rw [hsame]
  have hstep : s.handle .addressed = some (.kSuccess, s') := by
    unfold handle
    rw [if_neg (not_not_intro hphase)]
    unfold initializeDevice startInitialize
    simp only [heq, Option.bind_eq_bind, Option.bind_some, Option.pure_def]
  refine ⟨s', step_of_handle hstep, hasks.sound, .device (hbuf.symm ▸ hasking) ?_ ?_⟩
  · rw [hsame]
    show s.requests ++ _ = _
    rw [hrequests]
    rfl
  · rw [hsame]
    exact hdrivers

/-- An event for the driver that has not listened yet. -/
theorem protocol_step (h : SlotSound bufPtr s) (hphase : s.phase = .kConfigured)
    (he : Equipped s d) (hone : d.initializePhase = 1)
    (houtstanding : ∀ u ∈ s.transfers.outstanding, u.setupData = setProtocol d.interfaceIndex)
    (hinterrupts : s.interrupts = [])
    (hrequests : s.requests = enumerationRequests value ++
      List.replicate k (.control (setProtocol d.interfaceIndex)))
    (hreports : s.reports = 0)
    (hpresent : s.transfers.device.eventWaiters.Present (setProtocol d.interfaceIndex))
    (hpermitted : s.Permitted (.control i trb r)) (hlogs : s.Logs (.control i trb r)) :
    Steps bufPtr s (.control i trb r) 6 := by
  obtain ⟨t, device, htook⟩ := h.took hpermitted hlogs
  have he' := he.took htook
  have hwaiters := htook.waiters
  have houtstanding' : ∀ u ∈ (s.tookControl i t trb device).transfers.outstanding,
      u.setupData = setProtocol d.interfaceIndex :=
    fun u hu => houtstanding u (List.mem_of_mem_eraseIdx hu)
  have hpresent' : device.eventWaiters.Present (setProtocol d.interfaceIndex) := by
    rw [hwaiters]
    exact hpresent
  rcases he.control htook houtstanding hpresent with ⟨hfail, hstep⟩ | hstep
  · exact ⟨_, hstep, ⟨htook.sound, 5, .protocol hphase he' hone houtstanding' hinterrupts hrequests
      hreports hpresent'⟩, fun hwell => absurd hwell.1 hfail⟩
  · have hsound : SlotSound bufPtr { s.tookControl i t trb device with
        driver := some { d with initializePhase := 2 } } := htook.sound.congr rfl rfl rfl rfl
    have hlistener : Equipped { s.tookControl i t trb device with
        driver := some { d with initializePhase := 2 } } { d with initializePhase := 2 } :=
      ⟨he'.isInitialized, rfl, he'.context, he'.isIn, he'.ring, he'.entry, he'.size, he'.noControl⟩
    have hnothing : s.requests = enumerationRequests value ++
        List.replicate k (.control (setProtocol d.interfaceIndex)) ++
        List.replicate s.reports (.interruptIn d.epInterruptIn d.inPacketSize) := by
      rw [hreports]
      exact hrequests.trans (List.append_nil _).symm
    obtain ⟨s', heq, hsound', hstage, hconfigured, hlength⟩ := hlistener.listens hsound hphase rfl
      houtstanding' hinterrupts hnothing hpresent'
    refine ⟨s', hstep .kSuccess s' ?_ hconfigured, ⟨hsound', 6, hstage⟩,
      fun _ => ⟨hstage, fun _ => hlength⟩⟩
    unfold driverOnControlCompleted
    rw [he'.driver]
    simp only [Option.bind_eq_bind, Option.bind_some]
    rw [if_pos hone]
    exact heq

/-- **An event for a driver that listens.** Only the failure of an interrupt transfer ends it. -/
theorem listening_step (h : SlotSound bufPtr s) (hstage : Stage s 6) {event : SlotEvent}
    (hpermitted : s.Permitted event) (hlogs : s.Logs event) :
    ∃ s', s.step event = some s' ∧ SlotSound bufPtr s' ∧ Stage s' 6 ∧
      (event.InterruptFails → s'.interrupts = []) ∧
      (¬event.InterruptFails → s'.interrupts.length = s.interrupts.length) := by
  have hlistening := hstage
  cases hstage with
  | @listening value k d hphase he htwo houtstanding hsingle heach hrequests hpresent =>
      cases event with
      | addressed =>
          refine ⟨s, step_addressed ?_, h, hlistening, False.elim, fun _ => rfl⟩
          rw [hphase]
          decide
      | endpointsConfigured =>
          refine ⟨s, step_endpointsConfigured ?_, h, hlistening, False.elim, fun _ => rfl⟩
          rw [hphase]
          decide
      | control i trb r =>
          obtain ⟨t, device, htook⟩ := h.took hpermitted hlogs
          have he' := he.took htook
          have hwaiters := htook.waiters
          have hpresent' : device.eventWaiters.Present (setProtocol d.interfaceIndex) := by
            rw [hwaiters]
            exact hpresent
          have hstage' : Stage (s.tookControl i t trb device) 6 :=
            .listening hphase he' htwo
              (fun u hu => houtstanding u (List.mem_of_mem_eraseIdx hu)) hsingle heach hrequests
              hpresent'
          refine ⟨_, ?_, htook.sound, hstage', False.elim, fun _ => rfl⟩
          rcases he.control htook houtstanding hpresent with ⟨-, hstep⟩ | hstep
          · exact hstep
          · refine hstep .kNotImplemented _ ?_ hphase
            have hne : ¬d.initializePhase = 1 := by
              rw [htwo]
              decide
            unfold driverOnControlCompleted
            rw [he'.driver]
            simp only [Option.bind_eq_bind, Option.bind_some]
            exact if_neg hne
      | interrupt i trb r =>
          obtain ⟨t, hfound, hreport⟩ := hpermitted
          obtain ⟨hepId, hlen⟩ := heach t (List.mem_of_getElem? hfound)
          obtain ⟨hlt, -⟩ := List.getElem?_eq_some_iff.mp hfound
          have hone : s.interrupts.length = 1 := by omega
          have hnone : (s.tookInterrupt i).interrupts = [] := by
            refine List.length_eq_zero_iff.mp ((List.length_eraseIdx_of_lt hlt).trans ?_)
            rw [hone]
          have hlog := TransferDevice.logTransferEvent_iff.mpr hlogs
          obtain ⟨heq, hsound⟩ :=
            h.handle_interrupt (r := r) hfound hlog fun hsuccess => (hreport hsuccess).1
          by_cases hsuccess : trb.Succeeded
          · rw [if_pos hsuccess] at heq
            have hid : trb.endpointId.toNat = deviceContextIndex d.epInterruptIn :=
              hepId ▸ (hreport hsuccess).2
            have hreported : SlotSound bufPtr { s.tookInterrupt i with reports := s.reports + 1 } :=
              hsound.congr rfl rfl rfl rfl
            have he' : Equipped (s.tookInterrupt i) d := he.congr rfl rfl rfl he.ring
            have hequipped : Equipped { s.tookInterrupt i with reports := s.reports + 1 } d :=
              he.congr rfl rfl rfl he.ring
            obtain ⟨s', hlisten, hsound', hstage', hconfigured, hlength⟩ :=
              hequipped.listens hreported hphase htwo houtstanding hnone hrequests hpresent
            have hresult : (s.tookInterrupt i).onTransferResult r
                (.interruptCompleted ⟨trb.endpointId.toNat⟩ t.buf (t.received trb)) =
                  some (.kSuccess, s') :=
              (he'.onInterruptCompleted trb hid hlen).trans hlisten
            obtain ⟨err, hstep⟩ := onTransfer_configured hresult hconfigured
            exact ⟨s', step_of_handle (heq.trans hstep), hsound', hstage',
              fun hfails => absurd hsuccess hfails, fun _ => hlength.trans hone.symm⟩
          · rw [if_neg hsuccess, onTransfer_error _ _ (by decide)] at heq
            refine ⟨_, step_of_handle heq, hsound, ?_, fun _ => hnone,
              fun hgood => absurd hsuccess hgood⟩
            refine .listening hphase (he.congr rfl rfl rfl he.ring) htwo houtstanding ?_ ?_ hrequests
              hpresent
            · rw [hnone]
              exact Nat.zero_le 1
            · intro u hu
              rw [hnone] at hu
              exact absurd hu List.not_mem_nil

/-- **An event in a stage** keeps the invariant, if it can be logged, and leads to the next stage if it
goes well. -/
theorem stage_step (h : SlotSound bufPtr s) (hstage : Stage s n) {event : SlotEvent}
    (hpermitted : s.Permitted event) (hlogs : s.Logs event) :
    ∃ s', s.step event = some s' ∧ Sound bufPtr s' ∧
      (Reaches s n → s.GoesWell event → Reaches s' (min (n + 1) 6)) := by
  have hs : Sound bufPtr s := ⟨h, n, hstage⟩
  have hsteps : ∀ {m}, Steps bufPtr s event m → m = min (n + 1) 6 →
      ∃ s', s.step event = some s' ∧ Sound bufPtr s' ∧
        (Reaches s n → s.GoesWell event → Reaches s' (min (n + 1) 6)) := by
    rintro m ⟨s', hstep, hs', hwell⟩ rfl
    exact ⟨s', hstep, hs', fun _ => hwell⟩
  cases hstage with
  | addressing hphase hout hinterrupts hrequests hreports hused hwaiters hdrivers =>
      cases event with
      | addressed =>
          obtain ⟨s', hstep, hsound, hnext⟩ := addressing_step h hphase hout hinterrupts hrequests
            hreports hused hwaiters hdrivers
          exact ⟨s', hstep, ⟨hsound, 1, hnext⟩, fun _ _ => hnext.reaches (by decide)⟩
      | control i trb r => exact absurd hpermitted (not_permitted_control hout)
      | interrupt i trb r => exact absurd hpermitted (not_permitted_interrupt hinterrupts)
      | endpointsConfigured =>
          have hne : s.phase ≠ .kConfiguringEndpoints := by
            rw [hphase]
            decide
          exact hsteps (endpointsConfigured_ignored hs hne) rfl
  | device ha hrequests hdrivers =>
      refine hsteps (ha.step hs hpermitted hlogs ?_) rfl
      intro i trb r hcontrol hlogs
      obtain ⟨t, device, hsound, ha', -, hfound, ⟨hfail, hstep⟩ | ⟨htaken, hanswer, hhandle⟩⟩ :=
        ha.control h hcontrol hlogs
      · exact ⟨_, hstep, ⟨hsound, 1, .device ha' hrequests hdrivers⟩,
          fun hwell => absurd hwell.1 hfail⟩
      · obtain ⟨err, s', heq, hs', hnext⟩ :=
          htaken.deviceDescriptor hrequests hdrivers
        exact ⟨s', step_of_handle (hhandle.trans heq), hs',
          fun hwell => hnext ((hwell.2.2 t hfound).1 htaken.setupData)⟩
  | configuration ha hrequests hdrivers =>
      refine hsteps (ha.step hs hpermitted hlogs ?_) rfl
      intro i trb r hcontrol hlogs
      obtain ⟨t, device, hsound, ha', -, hfound, ⟨hfail, hstep⟩ | ⟨htaken, hanswer, hhandle⟩⟩ :=
        ha.control h hcontrol hlogs
      · exact ⟨_, hstep, ⟨hsound, 2, .configuration ha' hrequests hdrivers⟩,
          fun hwell => absurd hwell.1 hfail⟩
      · obtain ⟨err, s', heq, hs', hnext⟩ := htaken.configurationDescriptor hrequests hdrivers
          (hanswer.driver htaken.setupData) (hanswer.configuration htaken.setupData)
        exact ⟨s', step_of_handle (hhandle.trans heq), hs',
          fun hwell => hnext ((hwell.2.2 t hfound).2 htaken.setupData)⟩
  | @setting _ _ configs ha hrequests hdriver hrecorded =>
      refine hsteps (ha.step hs hpermitted hlogs ?_) rfl
      intro i trb r hcontrol hlogs
      obtain ⟨t, device, hsound, ha', hrings, -, ⟨hfail, hstep⟩ | ⟨htaken, hanswer, hhandle⟩⟩ :=
        ha.control h hcontrol hlogs
      · exact ⟨_, hstep, ⟨hsound, 3, .setting ha' hrequests hdriver
          (hrecorded.congr rfl rfl rfl)⟩, fun hwell => absurd hwell.1 hfail⟩
      · have hrequest : t.setupData.request = kSetConfiguration := htaken.setupData ▸ rfl
        obtain ⟨arrays, hfresh⟩ := hanswer.rings hrequest
        rw [hrecorded.num] at hfresh
        have hfresh' : FreshBuffers r device configs.length arrays :=
          ⟨hfresh.allocated, fun hi hring => hfresh.rings hi (hrings ▸ hring), hfresh.each⟩
        obtain ⟨err, s', heq, hs', hnext⟩ := htaken.setConfiguration hrequests hdriver
          (hrecorded.congr rfl rfl rfl) hfresh'
        exact ⟨s', step_of_handle (hhandle.trans heq), hs', fun hwell => hnext hwell.2.1⟩
  | configuring hphase he hout hinterrupts hrequests hreports hused hwaiters =>
      cases event with
      | addressed =>
          have hne : s.phase ≠ .kAddressingDevice := by
            rw [hphase]
            decide
          exact hsteps (addressed_ignored hs hne) rfl
      | control i trb r => exact absurd hpermitted (not_permitted_control hout)
      | interrupt i trb r => exact absurd hpermitted (not_permitted_interrupt hinterrupts)
      | endpointsConfigured =>
          obtain ⟨s', heq, hsound, hnext⟩ := he.completeConfiguration h hout hinterrupts hrequests
            hreports hused hwaiters
          exact ⟨s', step_of_handle ((if_neg (not_not_intro hphase)).trans heq), ⟨hsound, 5, hnext⟩,
            fun _ _ => hnext.reaches (by decide)⟩
  | protocol hphase he hone houtstanding hinterrupts hrequests hreports hpresent =>
      cases event with
      | addressed =>
          have hne : s.phase ≠ .kAddressingDevice := by
            rw [hphase]
            decide
          exact hsteps (addressed_ignored hs hne) rfl
      | control i trb r =>
          exact hsteps (protocol_step h hphase he hone houtstanding hinterrupts hrequests hreports
            hpresent hpermitted hlogs) rfl
      | interrupt i trb r => exact absurd hpermitted (not_permitted_interrupt hinterrupts)
      | endpointsConfigured =>
          have hne : s.phase ≠ .kConfiguringEndpoints := by
            rw [hphase]
            decide
          exact hsteps (endpointsConfigured_ignored hs hne) rfl
  | listening hphase he htwo houtstanding hsingle heach hrequests hpresent =>
      obtain ⟨s', hstep, hsound, hnext, -, hlength⟩ := listening_step h
        (.listening hphase he htwo houtstanding hsingle heach hrequests hpresent) hpermitted hlogs
      refine ⟨s', hstep, ⟨hsound, 6, hnext⟩, fun hreaches hwell => ⟨hnext, fun _ => ?_⟩⟩
      rw [hlength, hreaches.2 rfl]
      cases event with
      | addressed => exact id
      | control i trb r => exact id
      | interrupt i trb r => exact not_not_intro hwell
      | endpointsConfigured => exact id
  | stalled hphase hinit hout hinterrupts hrequests hreports =>
      cases event with
      | addressed =>
          have hne : s.phase ≠ .kAddressingDevice := by
            rw [hphase]
            decide
          exact hsteps (addressed_ignored hs hne) rfl
      | control i trb r => exact absurd hpermitted (not_permitted_control hout)
      | interrupt i trb r => exact absurd hpermitted (not_permitted_interrupt hinterrupts)
      | endpointsConfigured =>
          have hne : s.phase ≠ .kConfiguringEndpoints := by
            rw [hphase]
            decide
          exact hsteps (endpointsConfigured_ignored hs hne) rfl

/-- **Every event** that the controller may report keeps the invariant, if it can be logged. -/
theorem preserves_sound :
    Preserves step (fun s event => s.Permitted event ∧ s.Logs event) (Sound bufPtr) := by
  rintro s event ⟨h, n, hstage⟩ ⟨hpermitted, hlogs⟩
  obtain ⟨s', hstep, hs', -⟩ := stage_step h hstage hpermitted hlogs
  exact ⟨s', hstep, hs'⟩

/-- The handler of an event is defined only if the event can be logged. -/
theorem keeps_sound : Keeps step Permitted (Sound bufPtr) :=
  fun s event s' h hpermitted hstep =>
    preserves_sound.keeps s event s' h ⟨hpermitted, logs_of_step hstep⟩ hstep

/-! ## Runs -/

/-- What the stages have in common. -/
theorem Stage.in_order (h : Stage s n) :
    (∃ value k interfaceIndex epId size, s.requests <+: enumerationRequests value ++
      List.replicate k (.control (setProtocol interfaceIndex)) ++
      List.replicate (s.reports + 1) (.interruptIn epId size)) ∧
    (s.phase ≠ .kConfigured → s.transfers.outstanding.length ≤ 1 ∧ s.interrupts = []) ∧
    s.interrupts.length ≤ 1 := by
  have hstart : ∀ value rest, s.requests ++ rest = enumerationRequests value →
      ∃ value k interfaceIndex epId size, s.requests <+: enumerationRequests value ++
        List.replicate k (.control (setProtocol interfaceIndex)) ++
        List.replicate (s.reports + 1) (.interruptIn epId size) := by
    intro value rest hrest
    refine ⟨value, 0, 0, ⟨0⟩, 0, ?_⟩
    rw [← hrest, List.append_assoc, List.append_assoc]
    exact List.prefix_append _ _
  have hone : ∀ {m : Nat} {setupData : SetupData} {buf : BitVec 64}, Asking s m setupData buf →
      (s.phase ≠ .kConfigured → s.transfers.outstanding.length ≤ 1 ∧ s.interrupts = []) ∧
        s.interrupts.length ≤ 1 := by
    intro m setupData buf ha
    rw [ha.interrupts]
    refine ⟨fun _ => ⟨?_, rfl⟩, Nat.zero_le 1⟩
    rcases ha.outstanding with hout | ⟨t, hout, -⟩
    · rw [hout]
      exact Nat.zero_le 1
    · rw [hout]
      exact le_rfl
  have hnone : s.transfers.outstanding = [] → s.interrupts = [] →
      (s.phase ≠ .kConfigured → s.transfers.outstanding.length ≤ 1 ∧ s.interrupts = []) ∧
        s.interrupts.length ≤ 1 := by
    intro hout hinterrupts
    rw [hout, hinterrupts]
    exact ⟨fun _ => ⟨Nat.zero_le 1, rfl⟩, Nat.zero_le 1⟩
  cases h with
  | addressing hphase hout hinterrupts hrequests =>
      refine ⟨hstart 0 (enumerationRequests 0) ?_, hnone hout hinterrupts⟩
      rw [hrequests]
      rfl
  | device ha hrequests =>
      refine ⟨hstart 0 [.control configurationRequest, .control (setConfiguration 0)] ?_, hone ha⟩
      rw [hrequests]
      rfl
  | configuration ha hrequests =>
      refine ⟨hstart 0 [.control (setConfiguration 0)] ?_, hone ha⟩
      rw [hrequests]
      rfl
  | setting ha hrequests => exact ⟨hstart _ [] ((List.append_nil _).trans hrequests), hone ha⟩
  | configuring hphase he hout hinterrupts hrequests =>
      exact ⟨hstart _ [] ((List.append_nil _).trans hrequests), hnone hout hinterrupts⟩
  | @protocol value k d hphase he hinit hout hinterrupts hrequests =>
      refine ⟨⟨value, k, d.interfaceIndex, ⟨0⟩, 0, ?_⟩, fun hne => absurd hphase hne, ?_⟩
      · rw [hrequests]
        exact List.prefix_append _ _
      · rw [hinterrupts]
        exact Nat.zero_le 1
  | @listening value k d hphase he htwo hout hsingle heach hrequests =>
      refine ⟨⟨value, k, d.interfaceIndex, d.epInterruptIn, d.inPacketSize, ?_⟩,
        fun hne => absurd hphase hne, hsingle⟩
      rw [hrequests]
  | stalled hphase hinit hout hinterrupts hrequests =>
      exact ⟨hstart _ [] ((List.append_nil _).trans hrequests), hnone hout hinterrupts⟩

/-- A driver with an interrupt transfer in flight is in the last stage. -/
theorem Sound.listening (h : Sound bufPtr s) (hlistens : s.interrupts ≠ []) : Stage s 6 := by
  obtain ⟨-, n, hstage⟩ := h
  cases hstage with
  | addressing hphase hout hinterrupts => exact absurd hinterrupts hlistens
  | device ha => exact absurd ha.interrupts hlistens
  | configuration ha => exact absurd ha.interrupts hlistens
  | setting ha => exact absurd ha.interrupts hlistens
  | configuring hphase he hout hinterrupts => exact absurd hinterrupts hlistens
  | protocol hphase he hinit hout hinterrupts => exact absurd hinterrupts hlistens
  | listening hphase he htwo hout hsingle heach hrequests hpresent =>
      exact .listening hphase he htwo hout hsingle heach hrequests hpresent
  | stalled hphase hinit hout hinterrupts => exact absurd hinterrupts hlistens

variable {events : List SlotEvent}

/-- From the last stage on, the driver listens until an interrupt transfer fails. -/
theorem listening_run {s' : DeviceSlot} (h : SlotSound bufPtr s) (hstage : Stage s 6)
    (hevents : Admits step Permitted s events) (hrun : run step s events = some s') :
    s'.interrupts ≠ [] ↔ s.interrupts ≠ [] ∧ ∀ event ∈ events, ¬event.InterruptFails := by
  induction events generalizing s with
  | nil =>
      cases hrun
      exact (and_iff_left fun _ hevent => absurd hevent List.not_mem_nil).symm
  | cons event events ih =>
      rw [run_cons] at hrun
      obtain ⟨s₁, hstep, hrun⟩ := Option.bind_eq_some_iff.mp hrun
      obtain ⟨s₂, hstep', hsound, hstage₁, hfails, hkeeps⟩ :=
        listening_step h hstage hevents.1 (logs_of_step hstep)
      obtain rfl : s₁ = s₂ := Option.some.inj (hstep.symm.trans hstep')
      rw [ih hsound hstage₁ (hevents.2 s₁ hstep) hrun, List.forall_mem_cons]
      by_cases hfail : event.InterruptFails
      · rw [hfails hfail]
        exact iff_of_false (fun hempty => hempty.1 rfl) fun hnot => hnot.2.1 hfail
      · have hsame : s₁.interrupts ≠ [] ↔ s.interrupts ≠ [] := by
          rw [ne_eq, ne_eq, ← List.length_eq_zero_iff, ← List.length_eq_zero_iff, hkeeps hfail]
        rw [hsame, and_iff_right hfail]

/-- Events that go well lead from one stage to the next. -/
theorem Reaches.run (hr : Reaches s n) (hn : n ≤ 6) (h : SlotSound bufPtr s)
    (hevents : Admits step (fun s event => s.Permitted event ∧ s.GoesWell event) s events) :
    ∃ s', run step s events = some s' ∧ Reaches s' (min (n + events.length) 6) := by
  induction events generalizing s n with
  | nil => exact ⟨s, rfl, (Nat.min_eq_left hn).symm ▸ hr⟩
  | cons event events ih =>
      obtain ⟨hpermitted, hwell⟩ := hevents.1
      obtain ⟨s₁, hstep, hs₁, hnext⟩ :=
        stage_step h hr.1 hpermitted (h.logs_of_goesWell hpermitted hwell)
      obtain ⟨s', hrun, hr'⟩ := ih (hnext hr hwell) (Nat.min_le_right _ _) hs₁.1
        (hevents.2 s₁ hstep)
      have hstages :
          min (min (n + 1) 6 + events.length) 6 = min (n + (event :: events).length) 6 := by
        rw [List.length_cons]
        omega
      refine ⟨s', ?_, hstages ▸ hr'⟩
      rw [run_cons, hstep]
      exact hrun

/-! ## A keyboard -/

/-- Two arrays of 512 bytes, one behind the other. -/
theorem apart_of_le {p q : BitVec 64} (h : p.toNat + 512 ≤ q.toNat) (hq : q.toNat + 512 ≤ 2 ^ 64) :
    Apart p q := by
  intro i j hi hj heq
  have hnat := congrArg BitVec.toNat heq
  unfold trbAddress sizeofTRB at hnat
  unfold kControlSlots at hi hj
  rw [BitVec.toNat_add, BitVec.toNat_add, BitVec.toNat_ofNat, BitVec.toNat_ofNat] at hnat
  omega

/-- The `i`th of some arrays at equal distances. -/
def spacedArray (base : BitVec 64) (i : Nat) : BitVec 64 := base + BitVec.ofNat 64 (0x1000 * i)

/-- Arrays at a low address do not wrap. -/
theorem toNat_spacedArray {base : BitVec 64} (hbase : base.toNat ≤ 0x100000) {i : Nat}
    (hi : i < 16) : (spacedArray base i).toNat = base.toNat + 0x1000 * i := by
  unfold spacedArray
  rw [BitVec.toNat_add, BitVec.toNat_ofNat]
  omega

/-- Arrays at equal distances behind the rings of the device. -/
theorem freshBuffers_of_spaced {base : BitVec 64} {dev : TransferDevice}
    (hbase : base.toNat ≤ 0x100000) (hn : n ≤ 16)
    (hallocated : ∀ i < n, r.ringBuffer i = some (some (spacedArray base i)))
    (hrings : ∀ ring, some ring ∈ dev.transferRings → ring.bufPtr.toNat + 512 ≤ base.toNat) :
    FreshBuffers r dev n (spacedArray base) := by
  have hspaced : ∀ i < n, (spacedArray base i).toNat = base.toNat + 0x1000 * i :=
    fun i hi => toNat_spacedArray hbase (Nat.lt_of_lt_of_le hi hn)
  constructor
  · exact fun hi => hallocated _ hi
  · intro i j ring hi hring
    have hle := hrings ring (List.mem_of_getElem? hring)
    have heq := hspaced i hi
    exact apart_of_le (by omega) (by omega)
  · intro i j hi hj hne
    have heqi := hspaced i hi
    have heqj := hspaced j hj
    rcases Nat.lt_or_gt_of_ne hne with hlt | hgt
    · exact apart_of_le (by omega) (by omega)
    · exact (apart_of_le (by omega) (by omega)).symm

/-- A device whose control endpoint was just set up is in order. -/
theorem slotSound_start (hstart : s.transfers.Start (List.replicate 30 none))
    (hinterrupts : s.interrupts = [])
    (hwaiters : s.transfers.device.eventWaiters = ArrayMap.empty _ _ 0) (hbuf : s.buf ≠ 0)
    (hdriverPtr : s.driverPtr ≠ 0) : SlotSound s.transfers.bufPtr s := by
  have hfirst : ∀ {i : Nat} {ring : Ring},
      s.transfers.device.transferRings[i]? = some (some ring) →
        i = 0 ∧ ring = (Ring.initializeRing (kControlSlots + 1) (some s.transfers.bufPtr)).2 := by
    intro i ring hring
    rw [hstart.rings] at hring
    cases i with
    | zero => exact ⟨rfl, (Option.some.inj (Option.some.inj hring)).symm⟩
    | succ i =>
        rw [List.getElem?_cons_succ] at hring
        have hnone := List.eq_of_mem_replicate (List.mem_of_getElem? hring)
        cases hnone
  have hnone : ∀ u ∈ s.transfers.outstanding, False := by
    rw [hstart.outstanding]
    exact fun u hu => absurd hu List.not_mem_nil
  refine ⟨⟨⟨_, controlInv_start hstart⟩, ⟨?_, ?_, ?_⟩, fun u hu => (hnone u hu).elim,
    fun u hu => (hnone u hu).elim⟩, ?_, ?_, hbuf, hdriverPtr⟩
  · rw [hstart.rings]
    rfl
  · intro i ring hring
    rw [(hfirst hring).2]
    exact ⟨0, rfl, rfl, List.length_replicate, rfl⟩
  · intro i j ring ring' hring hring' hne
    exact absurd ((hfirst hring).1.trans (hfirst hring').1.symm) hne
  · intro u hu
    rw [hinterrupts] at hu
    exact absurd hu List.not_mem_nil
  · intro key value hmem
    rw [hwaiters] at hmem
    cases (List.eq_of_mem_replicate hmem)

/-- The buffer has what a keyboard answers, and there is memory for its driver. -/
def keyboardAnswers (s : DeviceSlot) (t : Transfer) (trb : TransferEventTRB) (r : SlotReadings) :
    Bool :=
  decide (t.setupData = deviceRequest →
    r.buffer[1]?.map UInt8.toNat = some deviceDescriptorType) &&
  decide (t.setupData = configurationRequest →
    r.buffer[1]?.map UInt8.toNat = some configurationDescriptorType ∧
    r.buffer = (keyboardWith 1).bytes ++ keyboardRest ∧
    t.received trb = (keyboardWith 1).bytes.length ∧
    (UhyokOS.initializePhase2 s.usb r.buffer (keyboardWith 1).bytes.length r.fuel).toOption.isSome ∧
    r.driverAllocated = true)

/-- The arrays for the transfer rings are spaced out behind the rings of the device. -/
def spacedRings (s : DeviceSlot) (r : SlotReadings) (base : BitVec 64) : Bool :=
  decide (base.toNat ≤ 0x100000) && decide (s.usb.numEpConfigs ≤ 16) &&
  ((List.range s.usb.numEpConfigs).all fun i =>
    decide (r.ringBuffer i = some (some (spacedArray base i)))) &&
  s.transfers.device.transferRings.all fun ring =>
    ring.all fun tr => decide (tr.bufPtr.toNat + 512 ≤ base.toNat)

/-- What makes an event permitted and good for a keyboard, as a test. The arrays begin at `base`. -/
def keyboardReports (base : BitVec 64) (s : DeviceSlot) : SlotEvent → Bool
  | .addressed => s.phase = .kAddressingDevice
  | .control i trb r => s.transfers.outstanding[i]?.any fun t =>
      decide (trb.Succeeded ∧ trb.trbPointer = s.transfers.reporting t.first ∧ r.portSpeed = 3) &&
      s.keyboardAnswers t trb r &&
      (decide (t.setupData.request ≠ kSetConfiguration) || s.spacedRings r base)
  | .interrupt _ _ _ => false
  | .endpointsConfigured => s.phase = .kConfiguringEndpoints

/-- A device at an address of its own, to be initialised. -/
def keyboardSlot : DeviceSlot where
  transfers := controlStart
  usb := { blankUsbDevice with initializePhase := 0 }
  buf := 0x8000
  driverPtr := 0x9000
  driverBuf := 0x9100

/-- What the handlers read while the buffer begins with some bytes. -/
def keyboardReadings (bytes : List UInt8) : SlotReadings where
  buffer := (bytes ++ List.replicate 256 0).take 256
  length := by
    rw [List.length_take, List.length_append, List.length_replicate]
    exact Nat.min_eq_left (Nat.le_add_left _ _)
  fuel := 20
  portSpeed := 3
  driverAllocated := true
  ringBuffer i := some (some (spacedArray 0x20000 i))

/-- The events of the initialisation of a keyboard. -/
def keyboardEvents : List SlotEvent :=
  [.addressed,
    .control 0 ⟨0x1010, 238, 13, false, 1⟩ (keyboardReadings [18, 1]),
    .control 0 ⟨0x1040, 222, 13, false, 1⟩ (keyboardReadings (keyboardWith 1).bytes),
    .control 0 ⟨0x1070, 0, 1, false, 1⟩ (keyboardReadings []),
    .endpointsConfigured,
    .control 0 ⟨0x1090, 0, 1, false, 1⟩ (keyboardReadings [])]

/-- A result that is there is the value of the computation. -/
theorem exists_eq_ok {ε α : Type} {x : Except ε α} (h : x.toOption.isSome) : ∃ a, x = .ok a := by
  cases x with
  | error e => cases h
  | ok a => exact ⟨a, rfl⟩

/-- The keyboard has one endpoint, for its reports. -/
theorem endpointConfigs_keyboardWith_one :
    (keyboardWith 1).endpointConfigs = [keyboardEndpoint.epConfig] := rfl

/-- The keyboard's descriptors are what a boot keyboard should send, and the log of its HID
descriptor stays in the buffer. -/
theorem keyboardWith_one_conforms : (keyboardWith 1).Conforms keyboardRest := by
  have hfits : (keyboardWith 1).LogFits keyboardRest := by
    rw [logFits_keyboardWith_iff, length_keyboardRest]
    decide
  refine ⟨hfits, ?_, fun _ => ⟨keyboardEndpoint.epConfig, ?_, rfl, rfl⟩⟩
  · rw [endpointConfigs_keyboardWith_one]
    decide
  · rw [endpointConfigs_keyboardWith_one]
    exact List.mem_singleton_self _

/-- The test is enough. -/
theorem keyboardReports_sound {base : BitVec 64} {event : SlotEvent}
    (h : s.keyboardReports base event = true) :
    s.Permitted event ∧ s.GoesWell event := by
  cases event with
  | addressed => exact ⟨trivial, show s.phase = _ from of_decide_eq_true h⟩
  | endpointsConfigured => exact ⟨trivial, show s.phase = _ from of_decide_eq_true h⟩
  | interrupt i trb r => cases h
  | control i trb r =>
      obtain ⟨t, hfound, htest⟩ := (Option.any_eq_true _ _).mp h
      simp only [keyboardAnswers, spacedRings, Bool.and_eq_true, Bool.or_eq_true,
        decide_eq_true_eq, List.all_eq_true, List.mem_range] at htest
      obtain ⟨⟨⟨hsuccess, hpointer, hspeed⟩, hdevice, hconfiguration⟩, hspaced⟩ := htest
      have hbytes : ∀ c : UsbConfiguration, c.bytes = (keyboardWith 1).bytes → c.fromBoot ≠ [] := by
        intro c hc hnil
        obtain ⟨-, hdescriptors⟩ := List.cons.inj (bytesOf_injective hc)
        unfold UsbConfiguration.fromBoot at hnil
        rw [hdescriptors] at hnil
        exact absurd hnil (by decide +kernel)
      refine ⟨⟨t, hfound, fun _ => ⟨hpointer, ?_, ?_, ?_⟩⟩, hsuccess, ?_, ?_⟩
      · intro hsetup _
        obtain ⟨-, hbuffer, hreceived, hok, -⟩ := hconfiguration hsetup
        obtain ⟨result, hok⟩ := exists_eq_ok hok
        exact ⟨keyboardWith 1, keyboardRest, keyboardWith_one_conforms, hbuffer, hreceived,
          (grows_initializePhase2 _ _ _).enough hok⟩
      · exact fun hsetup => (hconfiguration hsetup).2.2.2.2
      · intro hrequest
        obtain ⟨⟨⟨hbase, hnum⟩, hallocated⟩, hrings⟩ := hspaced.resolve_left (not_not_intro hrequest)
        exact ⟨spacedArray base, freshBuffers_of_spaced hbase hnum hallocated
          fun ring hring => of_decide_eq_true (hrings _ hring)⟩
      · rw [hspeed]
        decide
      · intro u hu
        obtain rfl : t = u := Option.some.inj (hfound.symm.trans hu)
        refine ⟨hdevice, fun hsetup => ?_⟩
        obtain ⟨htype, hbuffer, hreceived, -⟩ := hconfiguration hsetup
        refine ⟨htype, fun c hc => hbytes c (hc.symm.trans ?_)⟩
        rw [hbuffer, hreceived, List.take_left]

/-- Each event of the initialisation passes the test when it arrives. -/
theorem keyboardEvents_admits :
    Admits step (fun s event => s.keyboardReports 0x20000 event) keyboardSlot keyboardEvents := by
  decide +kernel

/-- The slot the examples start from is one that `EnableSlot` has just given out. -/
theorem keyboardSlot_sound : SlotSound 0x1000 keyboardSlot :=
  slotSound_start (s := keyboardSlot) controlStart_start rfl rfl (by decide) (by decide)

/-- The slot of the example waits for its address. -/
theorem keyboardSlot_stage : Stage keyboardSlot 0 :=
  .addressing rfl rfl rfl rfl rfl (by decide) (by decide) fun _ => rfl

/-- The events of the example are permitted and go well. -/
theorem keyboardEvents_go_well : Admits step (fun s event => s.Permitted event ∧ s.GoesWell event)
    keyboardSlot keyboardEvents :=
  keyboardEvents_admits.mono fun _ _ => keyboardReports_sound

/-- The keyboard is initialised, and its driver listens. -/
theorem keyboardSlot_reaches : ∃ s, Reachable step Permitted keyboardSlot s ∧
    run step keyboardSlot keyboardEvents = some s ∧ s.interrupts.length = 1 := by
  obtain ⟨s, hrun, -, hlistens⟩ := (keyboardSlot_stage.reaches (by decide)).run (Nat.zero_le 6)
    keyboardSlot_sound keyboardEvents_go_well
  have hpermitted : Admits step Permitted keyboardSlot keyboardEvents :=
    keyboardEvents_go_well.mono fun _ _ => And.left
  exact ⟨s, Reachable.init.of_admits hpermitted hrun, hrun, hlistens rfl⟩

/-! ## The enumeration -/

/-- **The enumeration goes in order.** Whatever the controller reports, and in whatever order: where
there is memory for the driver and its rings, a handler runs into a null pointer or reads outside an
array exactly if it cannot log its event. The requests are those of the initialisation, then of the
protocol, then one interrupt transfer for each report. Before the device is configured at most one
transfer is in flight, and never more than one interrupt transfer. -/
theorem enumeration_in_order {s₀ : DeviceSlot} (h : SlotSound bufPtr s₀) (hstart : Stage s₀ 0)
    (hs : Reachable step Permitted s₀ s) :
    (∀ event, s.Permitted event → ((s.step event).isSome ↔ s.Logs event)) ∧
      (∃ value k interfaceIndex epId size, s.requests <+: enumerationRequests value ++
        List.replicate k (.control (setProtocol interfaceIndex)) ++
        List.replicate (s.reports + 1) (.interruptIn epId size)) ∧
      (s.phase ≠ .kConfigured → s.transfers.outstanding.length ≤ 1 ∧ s.interrupts = []) ∧
      s.interrupts.length ≤ 1 := by
  have hsound : Sound bufPtr s := hs.invariant_of_keeps ⟨h, 0, hstart⟩ keeps_sound
  refine ⟨fun event hpermitted => ⟨fun hdefined => ?_, fun hlogs => ?_⟩,
    hsound.2.elim fun _ hstage => hstage.in_order⟩
  · obtain ⟨s', hstep⟩ := Option.isSome_iff_exists.mp hdefined
    exact logs_of_step hstep
  · obtain ⟨s', hstep, -⟩ := preserves_sound s event hsound ⟨hpermitted, hlogs⟩
    rw [hstep]
    rfl

/-- The slot of the example, after the initialisation. -/
theorem enumeration_in_order_keyboard : ∃ s, run step keyboardSlot keyboardEvents = some s ∧
    (∀ event, s.Permitted event → ((s.step event).isSome ↔ s.Logs event)) ∧
      s.interrupts.length ≤ 1 := by
  obtain ⟨s, hs, hrun, -⟩ := keyboardSlot_reaches
  obtain ⟨hdefined, -, -, hone⟩ := enumeration_in_order keyboardSlot_sound keyboardSlot_stage hs
  exact ⟨s, hrun, hdefined, hone⟩

/-- **A driver listens on** exactly until an interrupt transfer fails: nothing asks for another. The
handlers of a run are all defined iff its events can be logged. -/
theorem listens_iff {s₀ : DeviceSlot} (h : SlotSound bufPtr s₀) (hstart : Stage s₀ 0)
    (hs : Reachable step Permitted s₀ s) (hlistens : s.interrupts ≠ [])
    (hevents : Admits step Permitted s events) :
    ((∃ s', run step s events = some s') ↔ Admits step Logs s events) ∧
      ∀ s', run step s events = some s' →
        (s'.interrupts ≠ [] ↔ ∀ event ∈ events, ¬event.InterruptFails) := by
  have hsound : Sound bufPtr s := hs.invariant_of_keeps ⟨h, 0, hstart⟩ keeps_sound
  refine ⟨⟨?_, fun hlogs => ?_⟩, fun s' hrun => ?_⟩
  · rintro ⟨s', hrun⟩
    exact admits_of_run (fun _ _ _ => logs_of_step) hrun
  · obtain ⟨s', hrun, -⟩ := run_of_preserves preserves_sound hsound (hevents.and hlogs)
    exact ⟨s', hrun⟩
  · rw [listening_run hsound.1 (hsound.listening hlistens) hevents hrun]
    exact and_iff_right hlistens

/-- An event that reports the failure of the first interrupt transfer. -/
def keyboardStalls : SlotEvent := .interrupt 0 ⟨0x20000, 0, 6, false, 3⟩ (keyboardReadings [])

/-- In the example the first interrupt transfer fails, and no other is asked for. -/
theorem listens_iff_keyboard : ∃ s s', run step keyboardSlot keyboardEvents = some s ∧
    s.interrupts.length = 1 ∧ run step s [keyboardStalls] = some s' ∧ s'.interrupts = [] := by
  obtain ⟨s, hs, hrun, hone⟩ := keyboardSlot_reaches
  have hlistens : s.interrupts ≠ [] := List.ne_nil_of_length_eq_add_one hone
  have hlt : 0 < s.interrupts.length := Nat.lt_of_lt_of_eq Nat.zero_lt_one hone.symm
  have hpermitted : s.Permitted keyboardStalls :=
    ⟨_, List.getElem?_eq_getElem hlt, fun hsuccess => absurd hsuccess (by decide)⟩
  have hfails : keyboardStalls.InterruptFails :=
    (by decide : ¬TransferEventTRB.Succeeded ⟨0x20000, 0, 6, false, 3⟩)
  have hread : ((run step keyboardSlot keyboardEvents).bind fun s =>
      s.transfers.device.trbAt 0x20000).isSome := by decide +kernel
  rw [hrun] at hread
  have hlogged : s.Logs keyboardStalls := ⟨by decide, Or.inr hread⟩
  have hevents : Admits step Permitted s [keyboardStalls] := ⟨hpermitted, fun _ _ => trivial⟩
  have hlogs : Admits step Logs s [keyboardStalls] := ⟨hlogged, fun _ _ => trivial⟩
  obtain ⟨hdefined, hiff⟩ :=
    listens_iff keyboardSlot_sound keyboardSlot_stage hs hlistens hevents
  obtain ⟨s', hrun'⟩ := hdefined.mpr hlogs
  refine ⟨s, s', hrun, hone, hrun', ?_⟩
  by_contra hne
  exact (hiff s' hrun').mp hne keyboardStalls (List.mem_singleton_self _) hfails

/-- **A device that answers well is enumerated** by six events or more: it is configured, and its
driver listens. -/
theorem enumerates {s₀ : DeviceSlot} (h : SlotSound bufPtr s₀) (hstart : Stage s₀ 0)
    (hevents : Admits step (fun s event => s.Permitted event ∧ s.GoesWell event) s₀ events)
    (hlength : 6 ≤ events.length) :
    ∃ s, run step s₀ events = some s ∧ s.phase = .kConfigured ∧ s.interrupts.length = 1 := by
  obtain ⟨s, hrun, hstage, hlistens⟩ :=
    (hstart.reaches (by decide)).run (Nat.zero_le 6) h hevents
  have hsix : min (0 + events.length) 6 = 6 := by omega
  rw [hsix] at hstage hlistens
  refine ⟨s, hrun, ?_, hlistens rfl⟩
  cases hstage with
  | listening hphase => exact hphase

/-- The keyboard of the example is configured by the six events, and its driver listens. -/
theorem enumerates_keyboard : ∃ s, run step keyboardSlot keyboardEvents = some s ∧
    s.phase = .kConfigured ∧ s.interrupts.length = 1 :=
  enumerates keyboardSlot_sound keyboardSlot_stage keyboardEvents_go_well (by decide)

end DeviceSlot

end UhyokOS
