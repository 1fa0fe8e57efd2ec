import UhyokOS.Usb.EndpointContexts

/-!
# Hostile configuration descriptors

What a device may send as its configuration, and what `InitializePhase2` and `ConfigureEndpoints` do
with it. The walk trusts the length byte of every descriptor, the number of endpoints of the
interface, and that the endpoints are there. Here the buffer ends where the bytes that the device has
sent end, so no byte behind them is to be read.

* `WellFormedConfiguration`: the buffers that are processed without a fault, by what stands at the
  offsets that the length bytes lead to.
* `ids_of_handles` and `exists_iterates_of_counts`: an iteration over the endpoints against a step
  of the walk.
* `configuration_survived_iff`: the processing ends without a fault, with ids that have a context, iff
  the buffer is well-formed.
-/

namespace UhyokOS

open FueledLoop Relation

/-! ## Well-formed buffers -/

/-- A step of the walk over the descriptors behind an interface with `m` endpoints: the offset, and
the number of endpoints met so far. -/
inductive Counts (buf : List UInt8) (m : Nat) : Nat × Nat → Nat × Nat → Prop
  /-- An endpoint, other than endpoint 0 with direction OUT, that `ep_configs_` has room for. -/
  | endpoint {p q n address : Nat} (hnext : NextAt buf p q) (hn : n < m)
      (htype : ByteAt buf (q + 1) endpointDescriptorType) (hend : q + 6 < buf.length)
      (hroom : n < 16) (haddress : ByteAt buf (q + 2) address)
      (hid : address % 16 ≠ 0 ∨ address / 128 = 1) : Counts buf m (p, n) (q, n + 1)
  /-- A HID descriptor that lies in the buffer with its class descriptors. -/
  | hid {p q n num : Nat} (hnext : NextAt buf p q) (hn : n < m)
      (htype : ByteAt buf (q + 1) hidDescriptorType) (hnum : ByteAt buf (q + 5) num)
      (hend : q + 6 + 3 * num ≤ buf.length) : Counts buf m (p, n) (q, n)
  /-- Another descriptor. -/
  | other {p q n type : Nat} (hnext : NextAt buf p q) (hn : n < m)
      (htype : ByteAt buf (q + 1) type) (hendpoint : type ≠ endpointDescriptorType)
      (hhid : type ≠ hidDescriptorType) : Counts buf m (p, n) (q, n)

/-- The interface at `q` is followed by as many endpoints as it says. -/
def EndpointsFollow (buf : List UInt8) (q : Nat) : Prop :=
  ∃ m p, ByteAt buf (q + 4) m ∧ ReflTransGen (Counts buf m) (q, 0) (p, m)

/-- The length bytes lead from the first descriptor over others to the end of the buffer, or to the
interface of a keyboard or mouse that its endpoints follow. -/
def WellFormedConfiguration (buf : List UInt8) : Prop :=
  ∃ p q, ReflTransGen (Skips buf buf.length) 0 p ∧ NextAt buf p q ∧
    (buf.length ≤ q ∨ (ByteAt buf (q + 1) interfaceDescriptorType ∧ BootInterface buf q ∧
      EndpointsFollow buf q))

variable {buf : List UInt8} {m : Nat} {classDriver : ClassDriver}

theorem Counts.le {s t : Nat × Nat} (h : Counts buf m s t) : t.2 ≤ m := by
  rcases h with ⟨-, hn, -, -, -, -, -⟩ | ⟨-, hn, -, -, -⟩ | ⟨-, hn, -, -, -⟩
  · exact hn
  · exact Nat.le_of_lt hn
  · exact Nat.le_of_lt hn

/-- No more endpoints are met than the interface says, and than fit into `ep_configs_`. -/
theorem count_le_of_path {q : Nat} {t : Nat × Nat} (h : ReflTransGen (Counts buf m) (q, 0) t) :
    t.2 ≤ m ∧ t.2 ≤ 16 := by
  induction h with
  | refl => exact ⟨Nat.zero_le m, Nat.zero_le 16⟩
  | tail _ hstep ih =>
      refine ⟨hstep.le, ?_⟩
      rcases hstep with ⟨-, -, -, -, hroom, -, -⟩ | ⟨-, -, -, -, -⟩ | ⟨-, -, -, -, -⟩
      · exact hroom
      · exact ih.2
      · exact ih.2

/-! ## The ids of the endpoints -/

/-- The only address without a context is endpoint 0 with direction OUT. -/
theorem contextIndex_iff (address : Nat) :
    (1 ≤ deviceContextIndex (.new (address % 16) (decide (address / 128 = 1))) ∧
      deviceContextIndex (.new (address % 16) (decide (address / 128 = 1))) ≤ 31) ↔
      address % 16 ≠ 0 ∨ address / 128 = 1 := by
  unfold deviceContextIndex
  rw [EndpointID.address_new]
  have hlt : address % 16 < 16 := Nat.mod_lt _ (by decide)
  by_cases hin : address / 128 = 1
  · rw [decide_eq_true hin]
    simp only [Bool.toNat_true]
    omega
  · rw [decide_eq_false hin]
    simp only [Bool.toNat_false]
    omega

/-- Recording an endpoint adds its id behind the others. -/
theorem idsInRange_record {dev dev' : UsbDevice} {conf : EndpointConfig}
    (hroom : dev.numEpConfigs < 16) (hnum : dev'.numEpConfigs = dev.numEpConfigs + 1)
    (hconfigs : dev'.epConfigs = Function.update dev.epConfigs ⟨_, hroom⟩ conf) :
    dev'.IdsInRange ↔ dev.IdsInRange ∧
      (1 ≤ deviceContextIndex conf.epId ∧ deviceContextIndex conf.epId ≤ 31) := by
  unfold UsbDevice.IdsInRange
  rw [hnum, hconfigs]
  constructor
  · intro h
    constructor
    · intro i hi
      have hne : i ≠ ⟨_, hroom⟩ := fun heq => Nat.ne_of_lt hi (congrArg Fin.val heq)
      have hrange := h i (Nat.lt_succ_of_lt hi)
      rw [Function.update_of_ne hne] at hrange
      exact hrange
    · have hrange := h ⟨_, hroom⟩ (Nat.lt_succ_self _)
      rw [Function.update_self] at hrange
      exact hrange
  · rintro ⟨h, hconf⟩ i hi
    by_cases heq : i = ⟨_, hroom⟩
    · rw [heq, Function.update_self]
      exact hconf
    · rw [Function.update_of_ne heq]
      refine h i (Nat.lt_of_le_of_ne (Nat.le_of_lt_succ hi) fun h' => heq ?_)
      exact Fin.ext h'

/-! ## Iterations and steps of the walk -/

/-- **An iteration** that leaves ids in the range is a step of the walk. -/
theorem ids_of_handles {dev dev' : UsbDevice} {p q : Nat} (hnext : NextAt buf p q)
    (hn : dev.numEpConfigs < m) (h : Handles buf classDriver dev q dev') (ht : dev'.IdsInRange) :
    dev.IdsInRange ∧ Counts buf m (p, dev.numEpConfigs) (q, dev'.numEpConfigs) := by
  rcases h with ⟨htype, hrecord⟩ | ⟨rfl, type, htype, hendpoint, hlog⟩
  · obtain ⟨conf, hconf, hroom, _, rfl⟩ := recordEndpoint_eq_ok_iff.mp hrecord
    have hend : q + 6 < buf.length := exists_makeEPConfig_iff.mp ⟨conf, hconf⟩
    obtain ⟨address, haddress⟩ := exists_byteAt (show q + 2 < buf.length by omega)
    obtain ⟨hids, hrange⟩ := (idsInRange_record hroom rfl rfl).mp ht
    rw [epId_of_makeEPConfig hconf haddress] at hrange
    exact ⟨hids, .endpoint hnext hn htype hend hroom haddress ((contextIndex_iff address).mp hrange)⟩
  · refine ⟨ht, ?_⟩
    by_cases hhid : type = hidDescriptorType
    · obtain ⟨num, hnum, hend⟩ := logHidDescriptor_eq_ok_iff.mp (hlog hhid)
      exact .hid hnext hn (hhid ▸ htype) hnum hend
    · exact .other hnext hn htype hendpoint hhid

/-- **A step of the walk** is an iteration that keeps the ids in the range. -/
theorem exists_iterates_of_counts {p q n n' : Nat} (h : Counts buf m (p, n) (q, n'))
    {dev : UsbDevice} (hdev : dev.numEpConfigs = n) (hids : dev.IdsInRange) :
    ∃ dev', Iterates buf buf.length classDriver m (p, dev) (q, dev') ∧ dev'.numEpConfigs = n' ∧
      dev'.IdsInRange := by
  subst hdev
  rcases h with ⟨hnext, hn, htype, hend, hroom, haddress, hid⟩ | ⟨hnext, hn, htype, hnum, hend⟩ |
    ⟨hnext, hn, htype, hendpoint, hhid⟩
  · obtain ⟨conf, hconf⟩ := exists_makeEPConfig_iff.mpr hend
    have hrange := (contextIndex_iff _).mpr hid
    rw [← epId_of_makeEPConfig hconf haddress] at hrange
    refine ⟨_, ⟨hn, hnext, Nat.lt_of_succ_lt htype.lt, Or.inl ⟨htype, recordEndpoint_eq_ok_iff.mpr
      ⟨conf, hconf, hroom, number_of_makeEPConfig hconf, rfl⟩⟩⟩, rfl, ?_⟩
    exact (idsInRange_record hroom rfl rfl).mpr ⟨hids, hrange⟩
  · refine ⟨dev, ⟨hn, hnext, Nat.lt_of_succ_lt htype.lt, Or.inr ⟨rfl, _, htype, by decide,
      fun _ => ?_⟩⟩, rfl, hids⟩
    exact logHidDescriptor_eq_ok_iff.mpr ⟨_, hnum, hend⟩
  · exact ⟨dev, ⟨hn, hnext, Nat.lt_of_succ_lt htype.lt, Or.inr ⟨rfl, _, htype, hendpoint,
      fun h => absurd h hhid⟩⟩, rfl, hids⟩

/-- The iterations of the inner loop are a walk. -/
theorem counts_of_iterations {s t : Nat × UsbDevice}
    (h : ReflTransGen (Iterates buf buf.length classDriver m) s t) (ht : t.2.IdsInRange) :
    s.2.IdsInRange ∧
      ReflTransGen (Counts buf m) (s.1, s.2.numEpConfigs) (t.1, t.2.numEpConfigs) := by
  induction h using ReflTransGen.head_induction_on with
  | refl => exact ⟨ht, .refl⟩
  | head hstep _ ih =>
      obtain ⟨hids, hpath⟩ := ih
      obtain ⟨hids', hcounts⟩ := ids_of_handles hstep.2.1 hstep.1 hstep.2.2.2 hids
      exact ⟨hids', hpath.head hcounts⟩

/-- A walk is one of the iterations of the inner loop. -/
theorem iterations_of_counts (classDriver : ClassDriver) {s t : Nat × Nat}
    (h : ReflTransGen (Counts buf m) s t)
    {dev : UsbDevice} (hdev : dev.numEpConfigs = s.2) (hids : dev.IdsInRange) :
    ∃ dev', ReflTransGen (Iterates buf buf.length classDriver m) (s.1, dev) (t.1, dev') ∧
      dev'.numEpConfigs = t.2 ∧ dev'.IdsInRange := by
  induction h with
  | refl => exact ⟨dev, .refl, hdev, hids⟩
  | tail _ hstep ih =>
      obtain ⟨dev₁, hpath, hdev₁, hids₁⟩ := ih
      obtain ⟨dev₂, hiterates, hdev₂, hids₂⟩ := exists_iterates_of_counts hstep hdev₁ hids₁
      exact ⟨dev₂, hpath.tail hiterates, hdev₂, hids₂⟩

/-! ## The interface that gets the driver -/

theorem idsInRange_zero (dev : UsbDevice) : ({ dev with numEpConfigs := 0 } : UsbDevice).IdsInRange :=
  fun _ hi => absurd hi (Nat.not_lt_zero _)

/-- The endpoints of an accepted interface are all that it says, and they fit into `ep_configs_`. -/
theorem walk_of_accepts {dev dev' : UsbDevice} {q : Nat}
    (h : Accepts buf buf.length dev q dev' classDriver) (hids : dev'.IdsInRange) :
    EndpointsFollow buf q ∧ dev'.numEpConfigs ≤ 16 := by
  obtain ⟨-, -, hend, -, hloop⟩ := h
  obtain ⟨m, hm⟩ := exists_byteAt (show q + 4 < buf.length by omega)
  obtain ⟨p, hpath, hle⟩ := (endpointLoop_returns_iff hm).mp hloop
  obtain ⟨-, hcounts⟩ := counts_of_iterations hpath hids
  obtain ⟨hm', hroom⟩ := count_le_of_path hcounts
  have heq : dev'.numEpConfigs = m := Nat.le_antisymm hm' hle
  exact ⟨⟨m, p, hm, heq ▸ hcounts⟩, hroom⟩

/-- **An accepted interface** with ids in the range is a boot interface that its endpoints follow. -/
theorem exists_accepts_iff (dev : UsbDevice) {q : Nat} :
    (∃ dev' classDriver, Accepts buf buf.length dev q dev' classDriver ∧ dev'.IdsInRange) ↔
      ByteAt buf (q + 1) interfaceDescriptorType ∧ BootInterface buf q ∧ EndpointsFollow buf q := by
  constructor
  · rintro ⟨dev', classDriver, haccepts, hids⟩
    have hfollow := (walk_of_accepts haccepts hids).1
    obtain ⟨-, htype, hend, hdriver, -⟩ := haccepts
    refine ⟨htype, ?_, hfollow⟩
    rcases newClassDriver_cases hend with ⟨hboot, -⟩ | ⟨-, hnone⟩
    · exact hboot
    · rw [hnone] at hdriver
      cases hdriver
  · rintro ⟨htype, hboot, m, p, hm, hpath⟩
    have hend : q + 7 < buf.length := by
      rcases hboot.2.2 with h | h <;> exact h.lt
    rcases newClassDriver_cases hend with ⟨-, classDriver, hdriver⟩ | ⟨hno, -⟩
    · obtain ⟨dev', hiterations, hnum, hids⟩ :=
        iterations_of_counts classDriver hpath rfl (idsInRange_zero dev)
      refine ⟨dev', classDriver, ⟨Nat.lt_of_succ_lt htype.lt, htype, hend, hdriver, ?_⟩, hids⟩
      exact (endpointLoop_returns_iff hm).mpr ⟨p, hiterations, hnum.ge⟩
    · exact absurd hboot hno

/-! ## The processing of a buffer -/

/-- `InitializePhase2` ends without a fault, and if it asks for the configuration, the ids that it
has recorded have a context and `ConfigureEndpoints` ends without a fault. -/
def Survives (buf : List UInt8) (dev : UsbDevice) (portAt : UInt8 → Port)
    (ringBuffer : Nat → BitVec 64) (ctxDev : ContextDevice) : Prop :=
  ∃ ret dev', Returns (initializePhase2 dev buf buf.length) (ret, dev') ∧
    ∀ setupData, ret = .controlOut setupData → dev'.IdsInRange ∧
      ∃ r, configureContexts portAt ringBuffer dev' ctxDev = .ok r

/-- **A configuration is processed without a fault** iff it is well-formed. -/
theorem configuration_survived_iff (htype : ByteAt buf 1 configurationDescriptorType)
    (dev : UsbDevice) (portAt : UInt8 → Port) (ringBuffer : Nat → BitVec 64)
    (ctxDev : ContextDevice) :
    Survives buf dev portAt ringBuffer ctxDev ↔ WellFormedConfiguration buf := by
  constructor
  · rintro ⟨ret, dev', hreturns, hconfigured⟩
    obtain ⟨p, q, hpath, hnext, ⟨hend, -, -⟩ | ⟨dev₁, classDriver, value, haccepts, -, rfl, rfl⟩⟩ :=
      (initializePhase2_returns_iff htype).mp hreturns
    · exact ⟨p, q, hpath, hnext, Or.inl hend⟩
    · have hids : dev₁.IdsInRange := (hconfigured _ rfl).1
      exact ⟨p, q, hpath, hnext, Or.inr
        ((exists_accepts_iff dev).mp ⟨dev₁, classDriver, haccepts, hids⟩)⟩
  · rintro ⟨p, q, hpath, hnext, hend | haccepted⟩
    · refine ⟨.error .kSuccess, dev, ?_, fun _ h => nomatch h⟩
      exact (initializePhase2_returns_iff htype).mpr
        ⟨p, q, hpath, hnext, Or.inl ⟨hend, rfl, rfl⟩⟩
    · obtain ⟨dev₁, classDriver, haccepts, hids⟩ := (exists_accepts_iff dev).mpr haccepted
      have hroom : dev₁.numEpConfigs ≤ 16 := (walk_of_accepts haccepts hids).2
      have hlt : q + 7 < buf.length := haccepts.2.2.1
      obtain ⟨value, hvalue⟩ := exists_byteAt (show 5 < buf.length by omega)
      refine ⟨.controlOut (setConfiguration value), { dev₁ with initializePhase := 3 }, ?_, ?_⟩
      · exact (initializePhase2_returns_iff htype).mpr ⟨p, q, hpath, hnext,
          Or.inr ⟨dev₁, classDriver, value, haccepts, hvalue, rfl, rfl⟩⟩
      · intro _ _
        exact ⟨hids, exists_configureContexts_iff.mpr (Or.inr (Or.inr ⟨hroom, hids⟩))⟩

/-! ## Examples -/

/-- A device in phase 2 with nothing recorded. -/
def blankUsbDevice : UsbDevice where
  classDrivers _ := none
  initializePhase := 2
  epConfigs _ := ⟨.new 0 false, .kControl, 0, 0⟩
  numEpConfigs := 0

/-- The contexts of a device on port 1. -/
def blankContexts : ContextDevice where
  slotContext := ⟨0, 1⟩
  inputContext := ⟨0, 0, ⟨0, 0⟩, fun _ => ⟨0, 0, 0, 0, 0, 0, 0, 0, 0⟩⟩
  transferRings _ := 0

/-- A port with a full-speed device. -/
def fullSpeedPort (portNum : UInt8) : Port := ⟨portNum, 1 <<< 10⟩

/-- A keyboard: the configuration, a boot interface with a HID descriptor, and endpoint 1 IN. -/
def keyboardConfiguration : List UInt8 :=
  [9, 2, 34, 0, 1, 1, 0, 160, 50,  9, 4, 0, 0, 1, 3, 1, 1, 0,  9, 33, 17, 1, 0, 1, 34, 63, 0,
    7, 5, 129, 3, 8, 0, 10]

/-- The keyboard of a hostile device: the interface says that it has an endpoint. -/
def missingEndpoint : List UInt8 := [9, 2, 18, 0, 1, 1, 0, 160, 50,  9, 4, 0, 0, 1, 3, 1, 1, 0]

theorem configuration_survived_iff_keyboardConfiguration :
    ByteAt keyboardConfiguration 1 configurationDescriptorType ∧
      WellFormedConfiguration keyboardConfiguration := by
  have htype : ByteAt keyboardConfiguration 1 configurationDescriptorType := rfl
  refine ⟨htype, (configuration_survived_iff htype blankUsbDevice fullSpeedPort (fun _ => 0)
    blankContexts).mp ?_⟩
  exact ⟨_, _, ⟨10, rfl⟩, fun _ _ => ⟨by decide, _, rfl⟩⟩

/-- The read of the endpoint goes through the null pointer that `Next` returns. -/
theorem configuration_not_survived :
    missingEndpoint.length ≤ 256 ∧ ByteAt missingEndpoint 1 configurationDescriptorType ∧
      ¬Survives missingEndpoint blankUsbDevice fullSpeedPort (fun _ => 0) blankContexts := by
  refine ⟨by decide, rfl, ?_⟩
  rintro ⟨ret, dev', hreturns, -⟩
  exact (grows_initializePhase2 _ _ _).not_returns 5 (fun _ => rfl) hreturns

end UhyokOS
