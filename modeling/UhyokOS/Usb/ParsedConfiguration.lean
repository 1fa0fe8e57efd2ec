import UhyokOS.Usb.HostileDescriptors

/-!
# Well-formed configuration descriptors

What a device should send as its configuration is a list of descriptors, and `InitializePhase2` is
compared with what that list says. The position of the reader is related to the descriptors ahead of
it. The list is at the beginning of `buf_`, and `rest` is what `buf_` holds behind it: the reader does
not go there, but the log of a HID descriptor may.

* `UsbDescriptor` and `UsbConfiguration`: the descriptors, with what makes them well-formed.
* `UsbConfiguration.parsed`: the device that the list asks for.
* `Ahead`: the descriptors ahead of a position, with the rules for its bytes and for `Next`.
* `search_iff`: the outer loop finds the first boot interface.
* `iterations_iff`: the inner loop records the endpoints of that interface.
* `configuration_parsed_iff`: the configuration is parsed exactly iff the log of the HID descriptors
  stays in the buffer.
-/

namespace UhyokOS

open FueledLoop Relation

/-! ## Descriptors -/

/-- The byte at an index, or 0 behind the end. -/
def byteOf (bytes : List UInt8) (i : Nat) : Nat := (bytes.getD i 0).toNat

/-- A descriptor: its first byte is its length, and the fields of an interface or an endpoint are
there. -/
structure UsbDescriptor where
  bytes : List UInt8
  two_le_length : 2 ≤ bytes.length
  byteOf_zero : byteOf bytes 0 = bytes.length
  interface_le : byteOf bytes 1 = interfaceDescriptorType → 9 ≤ bytes.length
  endpoint_le : byteOf bytes 1 = endpointDescriptorType → 7 ≤ bytes.length

namespace UsbDescriptor

/-- A field of one byte. -/
def byte (d : UsbDescriptor) (i : Nat) : Nat := byteOf d.bytes i

/-- `descriptor_type` -/
def type (d : UsbDescriptor) : Nat := d.byte 1

/-- `num_endpoints` of an interface. -/
def endpointCount (d : UsbDescriptor) : Nat := d.byte 4

/-- An interface with class 3, subclass 1 and protocol 1 or 2. -/
def IsBoot (d : UsbDescriptor) : Prop :=
  d.type = interfaceDescriptorType ∧ d.byte 5 = 3 ∧ d.byte 6 = 1 ∧ (d.byte 7 = 1 ∨ d.byte 7 = 2)

/-- Whether a descriptor is a boot interface is read from its bytes. -/
instance : DecidablePred IsBoot := fun _ => inferInstanceAs (Decidable (_ ∧ _))

/-- The driver of a boot interface, by its protocol. -/
def driver (d : UsbDescriptor) : ClassDriver :=
  if d.byte 7 = 1 then .hidKeyboard (d.byte 2) else .hidMouse (d.byte 2)

/-- The number, direction, type, packet size and interval of an endpoint. -/
def epConfig (d : UsbDescriptor) : EndpointConfig where
  epId := .new (d.byte 2 % 16) (decide (d.byte 2 / 128 = 1))
  epType := .ofBits (d.byte 3 % 4)
  maxPacketSize := d.byte 4 + 256 * d.byte 5
  interval := d.byte 6

end UsbDescriptor

/-- The descriptors one behind the other. -/
def bytesOf (ds : List UsbDescriptor) : List UInt8 := ds.flatMap UsbDescriptor.bytes

/-- The endpoints of an interface, from the descriptors behind it. -/
def endpointsOf (ds : List UsbDescriptor) : List UsbDescriptor :=
  (ds.takeWhile fun d => d.type ≠ interfaceDescriptorType).filter fun d =>
    d.type = endpointDescriptorType

/-- A configuration descriptor and what follows it: every interface has the endpoints that it says,
and at most 16. -/
structure UsbConfiguration where
  confDesc : UsbDescriptor
  descriptors : List UsbDescriptor
  confDesc_type : confDesc.type = configurationDescriptorType
  endpoints_eq : ∀ ifDesc ds, ifDesc :: ds <:+ descriptors → ifDesc.type = interfaceDescriptorType →
    (endpointsOf ds).length = ifDesc.endpointCount ∧ ifDesc.endpointCount ≤ 16

/-! ## The device that a configuration asks for -/

/-- The recorded endpoints, mapped to the driver. -/
def configured (dev : UsbDevice) (classDriver : ClassDriver) (confs : List EndpointConfig) :
    UsbDevice where
  classDrivers n := if ∃ conf ∈ confs, conf.epId.number = n then some classDriver
    else dev.classDrivers n
  initializePhase := 3
  epConfigs i := confs[i.val]?.getD (dev.epConfigs i)
  numEpConfigs := confs.length

namespace UsbConfiguration

/-- The buffer that the device fills. -/
def bytes (c : UsbConfiguration) : List UInt8 := bytesOf (c.confDesc :: c.descriptors)

/-- The first boot interface with what is behind it, or nothing. -/
def fromBoot (c : UsbConfiguration) : List UsbDescriptor :=
  c.descriptors.dropWhile fun d => ¬d.IsBoot

/-- What `InitializePhase2` should return, and the device behind it. -/
def parsed (c : UsbConfiguration) (dev : UsbDevice) : Phase2Return × UsbDevice :=
  match c.fromBoot with
  | [] => (.error .kSuccess, dev)
  | ifDesc :: ds => (.controlOut (setConfiguration (byteOf c.bytes 5)),
      configured dev ifDesc.driver ((endpointsOf ds).map UsbDescriptor.epConfig))

end UsbConfiguration

/-- The bytes from a HID descriptor to the end of the buffer hold the class descriptors that it
says. -/
def HidFits (bytes : List UInt8) : Prop :=
  ∃ num, ByteAt bytes 5 num ∧ 6 + 3 * num ≤ bytes.length

/-- Every HID descriptor that `m` endpoints have not yet preceded fits. -/
def HidsFit (rest : List UInt8) (m : Nat) (ds : List UsbDescriptor) : Prop :=
  ∀ front hidDesc back, ds = front ++ hidDesc :: back → hidDesc.type = hidDescriptorType →
    (front.countP fun d => d.type = endpointDescriptorType) < m →
      HidFits (bytesOf (hidDesc :: back) ++ rest)

/-- The HID descriptors that stand before the last endpoint of the boot interface fit, in a buffer
that holds `rest` behind the configuration. -/
def UsbConfiguration.LogFits (c : UsbConfiguration) (rest : List UInt8) : Prop :=
  ∀ ifDesc ds, c.fromBoot = ifDesc :: ds → HidsFit rest ifDesc.endpointCount ds

/-! ## The descriptors ahead of the reader -/

/-- From `p` on the buffer holds these descriptors, up to `len`, and then `rest`. -/
def Ahead (buf rest : List UInt8) (len p : Nat) (ds : List UsbDescriptor) : Prop :=
  ∃ front, buf = front ++ (bytesOf ds ++ rest) ∧ p = front.length ∧ len = p + (bytesOf ds).length

variable {buf rest : List UInt8} {len p q m : Nat} {d e : UsbDescriptor} {ds : List UsbDescriptor}

/-- The bytes of the first descriptor precede those of the others. -/
theorem bytesOf_cons (d : UsbDescriptor) (ds : List UsbDescriptor) :
    bytesOf (d :: ds) = d.bytes ++ bytesOf ds :=
  List.flatMap_cons

/-- A byte of a list is the byte at its place, if the list is that long. -/
theorem byteAt_byteOf {bytes : List UInt8} {i : Nat} (hi : i < bytes.length) :
    ByteAt bytes i (byteOf bytes i) := by
  unfold ByteAt byteOf
  rw [List.getD_eq_getElem?_getD, List.getElem?_eq_getElem hi]
  rfl

namespace Ahead

/-- The descriptors ahead end where the configuration does. -/
theorem len_eq (h : Ahead buf rest len p ds) : len = p + (bytesOf ds).length := by
  obtain ⟨front, -, -, hlen⟩ := h
  exact hlen

/-- The buffer ends behind the descriptors ahead and what it holds behind the configuration. -/
theorem length_eq (h : Ahead buf rest len p ds) :
    buf.length = p + (bytesOf ds ++ rest).length := by
  obtain ⟨front, rfl, rfl, -⟩ := h
  exact List.length_append

/-- The descriptor at the position was sent in whole. -/
theorem le_len (h : Ahead buf rest len p (d :: ds)) : p + d.bytes.length ≤ len := by
  rw [h.len_eq, bytesOf_cons, List.length_append]
  omega

/-- Where a descriptor is ahead, the reader has not reached the end. -/
theorem lt_len (h : Ahead buf rest len p (d :: ds)) : p < len := by
  have hle := h.le_len
  have htwo := d.two_le_length
  omega

/-- A byte of the buffer is one of the bytes ahead. -/
theorem byteAt_iff (h : Ahead buf rest len p ds) (i : Nat) {b : Nat} :
    ByteAt buf (p + i) b ↔ ByteAt (bytesOf ds ++ rest) i b := by
  obtain ⟨front, rfl, rfl, -⟩ := h
  unfold ByteAt
  rw [List.getElem?_append_right (Nat.le_add_right _ _), Nat.add_sub_cancel_left]

/-- The fields of the descriptor at the position. -/
theorem byteAt (h : Ahead buf rest len p (d :: ds)) {i : Nat} (hi : i < d.bytes.length) :
    ByteAt buf (p + i) (d.byte i) := by
  rw [h.byteAt_iff, bytesOf_cons, List.append_assoc]
  unfold ByteAt
  rw [List.getElem?_append_left hi]
  exact byteAt_byteOf hi

/-- The fields of an interface. -/
theorem byteAt_interface (h : Ahead buf rest len p (d :: ds)) (htype : d.type = interfaceDescriptorType)
    (i : Nat) (hi : i < 9) : ByteAt buf (p + i) (d.byte i) :=
  h.byteAt (Nat.lt_of_lt_of_le hi (d.interface_le htype))

/-- The fields of an endpoint. -/
theorem byteAt_endpoint (h : Ahead buf rest len p (d :: ds)) (htype : d.type = endpointDescriptorType)
    (i : Nat) (hi : i < 7) : ByteAt buf (p + i) (d.byte i) :=
  h.byteAt (Nat.lt_of_lt_of_le hi (d.endpoint_le htype))

/-- The second byte of a descriptor is its type, and every descriptor has one. -/
theorem type (h : Ahead buf rest len p (d :: ds)) : ByteAt buf (p + 1) d.type :=
  h.byteAt d.two_le_length

/-- Asking the buffer for the type of the next descriptor is asking the descriptor. -/
theorem type_iff (h : Ahead buf rest len p (d :: ds)) {kType : Nat} :
    ByteAt buf (p + 1) kType ↔ d.type = kType :=
  h.type.iff_eq

/-- The length byte leads to the next descriptor. -/
theorem nextAt_iff (h : Ahead buf rest len p (d :: ds)) : NextAt buf p q ↔ q = p + d.bytes.length := by
  have hlength : ByteAt buf p d.bytes.length := by
    have hbyte := h.byteAt (Nat.lt_of_lt_of_le Nat.zero_lt_two d.two_le_length)
    rwa [UsbDescriptor.byte, d.byteOf_zero] at hbyte
  constructor
  · rintro ⟨length, hat, rfl⟩
    rw [hat.unique hlength]
  · rintro rfl
    exact ⟨_, hlength, rfl⟩

/-- Behind the first descriptor the others are ahead. -/
theorem tail (h : Ahead buf rest len p (d :: ds)) :
    Ahead buf rest len (p + d.bytes.length) ds := by
  obtain ⟨front, rfl, rfl, rfl⟩ := h
  refine ⟨front ++ d.bytes, ?_, List.length_append.symm, ?_⟩
  · rw [bytesOf_cons, List.append_assoc, List.append_assoc]
  · rw [bytesOf_cons, List.length_append, Nat.add_assoc]

/-- The same descriptors are ahead at one position only, since `len` is where they end. -/
theorem unique (h : Ahead buf rest len p ds) (h' : Ahead buf rest len q ds) : p = q :=
  Nat.add_right_cancel (h.len_eq.symm.trans h'.len_eq)

/-- Some of the last descriptors are ahead at a later position. -/
theorem exists_of_suffix (h : Ahead buf rest len p ds) {back : List UsbDescriptor}
    (hback : back <:+ ds) : ∃ q, Ahead buf rest len q back := by
  obtain ⟨front, rfl, rfl, rfl⟩ := h
  obtain ⟨passed, rfl⟩ := hback
  have hbytes : bytesOf (passed ++ back) = bytesOf passed ++ bytesOf back := List.flatMap_append
  refine ⟨_, front ++ bytesOf passed, ?_, rfl, ?_⟩
  · rw [hbytes, List.append_assoc, List.append_assoc]
  · rw [hbytes, List.length_append, List.length_append, Nat.add_assoc]

end Ahead

/-! ## The outer loop -/

/-- What the source asks of the three bytes. -/
theorem Ahead.bootInterface_iff (h : Ahead buf rest len p (d :: ds))
    (htype : d.type = interfaceDescriptorType) : BootInterface buf p ↔ d.IsBoot := by
  have hbyte := h.byteAt_interface htype
  have hclass := hbyte 5 (by decide)
  have hsub := hbyte 6 (by decide)
  have hprotocol := hbyte 7 (by decide)
  unfold BootInterface UsbDescriptor.IsBoot
  rw [hclass.iff_eq, hsub.iff_eq, hprotocol.iff_eq, hprotocol.iff_eq]
  exact (and_iff_right htype).symm

/-- The search passes over a descriptor iff it is no boot interface. -/
theorem Ahead.skips_iff (h : Ahead buf rest len p (d :: e :: ds)) :
    Skips buf len p q ↔ q = p + d.bytes.length ∧ ¬e.IsBoot := by
  have hnext : NextAt buf p q ↔ q = p + d.bytes.length := h.nextAt_iff
  unfold Skips Passes Refuses
  rw [hnext]
  constructor
  · rintro (⟨rfl, -, type, htype, hne⟩ | ⟨rfl, -, htype, -, hrefused⟩)
    · refine ⟨rfl, fun hboot => hne ?_⟩
      rw [← h.tail.type_iff.mp htype, hboot.1]
    · refine ⟨rfl, fun hboot => hrefused ?_⟩
      exact (h.tail.bootInterface_iff hboot.1).mpr hboot
  · rintro ⟨rfl, hno⟩
    by_cases htype : e.type = interfaceDescriptorType
    · refine Or.inr ⟨rfl, h.tail.lt_len, h.tail.type_iff.mpr htype, ?_, ?_⟩
      · exact (h.tail.byteAt_interface htype 7 (by decide)).lt
      · exact fun hboot => hno ((h.tail.bootInterface_iff htype).mp hboot)
    · exact Or.inl ⟨rfl, h.tail.lt_len, e.type, h.tail.type, htype⟩

/-- The search does not leave the last descriptor. -/
theorem Ahead.not_skips (h : Ahead buf rest len p [d]) : ¬Skips buf len p q := by
  intro hskips
  have hend : len = p + d.bytes.length := h.tail.len_eq
  have hq : q = p + d.bytes.length ∧ q < len := by
    rcases hskips with ⟨hnext, hlt, -⟩ | ⟨hnext, hlt, -⟩
    · exact ⟨h.nextAt_iff.mp hnext, hlt⟩
    · exact ⟨h.nextAt_iff.mp hnext, hlt⟩
  omega

/-- A path of the search is empty or begins with a step. -/
theorem Ahead.search_cases {P : Nat → Prop} (h : Ahead buf rest len p (d :: ds)) :
    (∃ p' q, ReflTransGen (Skips buf len) p p' ∧ NextAt buf p' q ∧ P q) ↔
      P (p + d.bytes.length) ∨ ∃ p₁, Skips buf len p p₁ ∧
        ∃ p' q, ReflTransGen (Skips buf len) p₁ p' ∧ NextAt buf p' q ∧ P q := by
  constructor
  · rintro ⟨p', q, hpath, hnext, hq⟩
    rcases hpath.cases_head with rfl | ⟨p₁, hskips, hpath⟩
    · rw [h.nextAt_iff.mp hnext] at hq
      exact Or.inl hq
    · exact Or.inr ⟨p₁, hskips, p', q, hpath, hnext, hq⟩
  · rintro (hq | ⟨p₁, hskips, p', q, hpath, hnext, hq⟩)
    · exact ⟨p, _, .refl, h.nextAt_iff.mpr rfl, hq⟩
    · exact ⟨p', q, hpath.head hskips, hnext, hq⟩

/-- A condition at the position where some descriptors are ahead. -/
theorem Ahead.exists_iff {P : Nat → Prop} (h : Ahead buf rest len p ds) :
    (∃ q, Ahead buf rest len q ds ∧ P q) ↔ P p := by
  constructor
  · rintro ⟨q, hq, hP⟩
    rwa [h.unique hq]
  · exact fun hP => ⟨p, h, hP⟩

/-- **The search** for an interface ends in front of the first boot interface, or at the end.
The induction is on the descriptors ahead; by `hstop` the search does not go on from there. -/
theorem search_iff {P : Nat → Prop} (h : Ahead buf rest len p (d :: ds))
    (hstop : ∀ q, P q → len ≤ q ∨
      (ByteAt buf (q + 1) interfaceDescriptorType ∧ BootInterface buf q)) :
    (∃ p' q, ReflTransGen (Skips buf len) p p' ∧ NextAt buf p' q ∧ P q) ↔
      ∃ q, Ahead buf rest len q (ds.dropWhile fun d => ¬d.IsBoot) ∧ P q := by
  induction ds generalizing p d with
  | nil =>
      rw [h.search_cases, List.dropWhile_nil, h.tail.exists_iff]
      exact or_iff_left fun ⟨_, hskips, _⟩ => h.not_skips hskips
  | cons e ds ih =>
      rw [h.search_cases]
      by_cases hboot : e.IsBoot
      · rw [List.dropWhile_cons_of_neg (by simpa using hboot), h.tail.exists_iff]
        exact or_iff_left fun ⟨_, hskips, _⟩ => (h.skips_iff.mp hskips).2 hboot
      · -- the reader does not stop at `e`, so the path goes on behind it
        have hgo : ¬P (p + d.bytes.length) := by
          intro hP
          rcases hstop _ hP with hend | ⟨htype, hat⟩
          · have hlt := h.tail.lt_len
            omega
          · exact hboot ((h.tail.bootInterface_iff (h.tail.type_iff.mp htype)).mp hat)
        rw [List.dropWhile_cons_of_pos (by simpa using hboot), ← ih h.tail, or_iff_right hgo]
        constructor
        · rintro ⟨p₁, hskips, hpath⟩
          rwa [(h.skips_iff.mp hskips).1] at hpath
        · exact fun hpath => ⟨_, h.skips_iff.mpr ⟨rfl, hboot⟩, hpath⟩

/-! ## The inner loop -/

/-- The endpoints of an interface end at the next one. -/
theorem endpointsOf_interface (htype : e.type = interfaceDescriptorType) :
    endpointsOf (e :: ds) = [] := by
  unfold endpointsOf
  rw [List.takeWhile_cons_of_neg (by simpa using htype), List.filter_nil]

/-- An endpoint descriptor is the first of the endpoints. -/
theorem endpointsOf_endpoint (htype : e.type = endpointDescriptorType) :
    endpointsOf (e :: ds) = e :: endpointsOf ds := by
  unfold endpointsOf
  rw [List.takeWhile_cons_of_pos (by simp [htype]), List.filter_cons_of_pos (by simpa using htype)]

/-- Any other descriptor is passed over. -/
theorem endpointsOf_other (hinterface : e.type ≠ interfaceDescriptorType)
    (hendpoint : e.type ≠ endpointDescriptorType) : endpointsOf (e :: ds) = endpointsOf ds := by
  unfold endpointsOf
  rw [List.takeWhile_cons_of_pos (by simpa using hinterface),
    List.filter_cons_of_neg (by simpa using hendpoint)]

/-- Where no endpoint is expected, no HID descriptor is read. -/
theorem hidsFit_zero (rest : List UInt8) (ds : List UsbDescriptor) : HidsFit rest 0 ds :=
  fun _ _ _ _ _ hlt => absurd hlt (Nat.not_lt_zero _)

/-- An endpoint is one fewer to expect. -/
theorem hidsFit_endpoint (htype : e.type = endpointDescriptorType) :
    HidsFit rest (m + 1) (e :: ds) ↔ HidsFit rest m ds := by
  constructor
  · rintro hfit front hidDesc back rfl hhid hlt
    refine hfit (e :: front) hidDesc back rfl hhid ?_
    rw [List.countP_cons_of_pos (by simpa using htype)]
    exact Nat.succ_lt_succ hlt
  · rintro hfit front hidDesc back heq hhid hlt
    rcases List.cons_eq_append_iff.mp heq with ⟨-, h⟩ | ⟨front', rfl, rfl⟩
    · rw [(List.cons.inj h).1, htype] at hhid
      exact absurd hhid (by decide)
    · rw [List.countP_cons_of_pos (by simpa using htype)] at hlt
      exact hfit front' hidDesc back rfl hhid (Nat.lt_of_succ_lt_succ hlt)

/-- While endpoints are expected, a HID descriptor is read and logged as soon as it is reached. -/
theorem hidsFit_other (htype : e.type ≠ endpointDescriptorType) (hm : 0 < m) :
    HidsFit rest m (e :: ds) ↔
      (e.type = hidDescriptorType → HidFits (bytesOf (e :: ds) ++ rest)) ∧ HidsFit rest m ds := by
  constructor
  · intro hfit
    refine ⟨fun hhid => hfit [] e ds rfl hhid hm, ?_⟩
    rintro front hidDesc back rfl hhid hlt
    refine hfit (e :: front) hidDesc back rfl hhid ?_
    rwa [List.countP_cons_of_neg (by simpa using htype)]
  · rintro ⟨hfirst, hfit⟩ front hidDesc back heq hhid hlt
    rcases List.cons_eq_append_iff.mp heq with ⟨-, h⟩ | ⟨front', rfl, rfl⟩
    · obtain ⟨rfl, rfl⟩ := List.cons.inj h
      exact hfirst hhid
    · rw [List.countP_cons_of_neg (by simpa using htype)] at hlt
      exact hfit front' hidDesc back rfl hhid hlt

/-- The device with one more endpoint behind the others. -/
def withEndpoint (classDriver : ClassDriver) (dev : UsbDevice) (conf : EndpointConfig) :
    UsbDevice where
  classDrivers n := if conf.epId.number = n then some classDriver else dev.classDrivers n
  initializePhase := dev.initializePhase
  epConfigs i := if i.val = dev.numEpConfigs then conf else dev.epConfigs i
  numEpConfigs := dev.numEpConfigs + 1

variable {classDriver : ClassDriver} {dev dev' : UsbDevice} {t : Nat × UsbDevice}

/-- `ep_configs_[num_ep_configs_]` and the entry of `class_drivers_` are written in bounds. -/
theorem withEndpoint_eq {conf : EndpointConfig} (hroom : dev.numEpConfigs < 16)
    (hnumber : conf.epId.number < 16) :
    { dev with
      epConfigs := Function.update dev.epConfigs ⟨_, hroom⟩ conf
      numEpConfigs := dev.numEpConfigs + 1
      classDrivers := Function.update dev.classDrivers ⟨_, hnumber⟩ (some classDriver) } =
      withEndpoint classDriver dev conf := by
  unfold withEndpoint
  congr 1
  · funext n
    simp only [Function.update_apply, Fin.ext_iff, eq_comm]
  · funext i
    simp only [Function.update_apply, Fin.ext_iff]

/-- **An endpoint descriptor** is decoded and recorded. -/
theorem Ahead.recordEndpoint_iff (h : Ahead buf rest len q (e :: ds))
    (htype : e.type = endpointDescriptorType) (hroom : dev.numEpConfigs < 16) :
    recordEndpoint buf classDriver dev q = .ok dev' ↔
      dev' = withEndpoint classDriver dev e.epConfig := by
  have hbyte := h.byteAt_endpoint htype
  have hsize : readWord buf (q + 4) = .ok (e.byte 4 + 256 * e.byte 5) :=
    readWord_eq_ok_iff.mpr ⟨_, _, hbyte 4 (by decide), hbyte 5 (by decide), rfl⟩
  have hconf : makeEPConfig buf q = .ok e.epConfig := makeEPConfig_eq_ok_iff.mpr
    ⟨_, _, _, _, hbyte 2 (by decide), hbyte 3 (by decide), hsize, hbyte 6 (by decide), rfl⟩
  have hnumber : e.epConfig.epId.number < 16 := number_of_makeEPConfig hconf
  rw [recordEndpoint_eq_ok_iff]
  constructor
  · rintro ⟨conf, hconf', _, _, rfl⟩
    obtain rfl : e.epConfig = conf := Except.ok.inj (hconf.symm.trans hconf')
    exact withEndpoint_eq hroom hnumber
  · rintro rfl
    exact ⟨_, hconf, hroom, hnumber, (withEndpoint_eq hroom hnumber).symm⟩

/-- A HID descriptor can be logged iff its class descriptors fit into what the buffer still
holds. -/
theorem Ahead.log_iff (h : Ahead buf rest len q ds) :
    logHidDescriptor buf q = .ok () ↔ HidFits (bytesOf ds ++ rest) := by
  rw [logHidDescriptor_eq_ok_iff]
  unfold HidFits
  refine exists_congr fun num => and_congr (h.byteAt_iff 5) ?_
  rw [h.length_eq, Nat.add_assoc, Nat.add_le_add_iff_left]

/-- **An iteration over the endpoints** moves to the next descriptor. -/
theorem Ahead.iterates_iff (h : Ahead buf rest len p (d :: e :: ds)) (hm : m ≤ 16)
    (hlt : dev.numEpConfigs < m) :
    Iterates buf len classDriver m (p, dev) t ↔ t.1 = p + d.bytes.length ∧
      ((e.type = endpointDescriptorType ∧ t.2 = withEndpoint classDriver dev e.epConfig) ∨
        (e.type ≠ endpointDescriptorType ∧ t.2 = dev ∧
          (e.type = hidDescriptorType → HidFits (bytesOf (e :: ds) ++ rest)))) := by
  obtain ⟨q, dev'⟩ := t
  unfold Iterates
  rw [and_iff_right hlt]
  dsimp only
  rw [h.nextAt_iff]
  refine and_congr_right ?_
  rintro rfl
  rw [and_iff_right h.tail.lt_len]
  unfold Handles
  rw [h.tail.type_iff, h.tail.log_iff]
  refine or_congr (and_congr_right fun htype =>
    h.tail.recordEndpoint_iff htype (Nat.lt_of_lt_of_le hlt hm)) ?_
  constructor
  · rintro ⟨rfl, type, htype, hne, hlog⟩
    obtain rfl := h.tail.type_iff.mp htype
    exact ⟨hne, rfl, hlog⟩
  · rintro ⟨hne, rfl, hlog⟩
    exact ⟨rfl, e.type, h.tail.type, hne, hlog⟩

/-- The iterations from a state on end with the device `dev'`. -/
def IteratesTo (buf : List UInt8) (len : Nat) (classDriver : ClassDriver) (m : Nat)
    (s : Nat × UsbDevice) (dev' : UsbDevice) : Prop :=
  ∃ q, ReflTransGen (Iterates buf len classDriver m) s (q, dev') ∧ m ≤ dev'.numEpConfigs

/-- The device with a list of endpoints behind the others. -/
def recorded (classDriver : ClassDriver) (dev : UsbDevice) (confs : List EndpointConfig) :
    UsbDevice :=
  confs.foldl (withEndpoint classDriver) dev

/-- The endpoints are recorded in order. -/
theorem recorded_cons (classDriver : ClassDriver) (dev : UsbDevice) (conf : EndpointConfig)
    (confs : List EndpointConfig) : recorded classDriver dev (conf :: confs) =
      recorded classDriver (withEndpoint classDriver dev conf) confs :=
  rfl

/-- The iterations are over when all endpoints are counted. -/
theorem iterations_done (hle : m ≤ dev.numEpConfigs) :
    IteratesTo buf len classDriver m (p, dev) dev' ↔ dev' = dev := by
  constructor
  · rintro ⟨q, hpath, -⟩
    rcases hpath.cases_head with heq | ⟨_, ⟨hlt, -, -⟩, -⟩
    · exact (Prod.mk.inj heq).2.symm
    · exact absurd hlt (Nat.not_lt.mpr hle)
  · rintro rfl
    exact ⟨p, .refl, hle⟩

/-- Before that there is another one. -/
theorem iterations_cases (hlt : dev.numEpConfigs < m) :
    IteratesTo buf len classDriver m (p, dev) dev' ↔
      ∃ t, Iterates buf len classDriver m (p, dev) t ∧ IteratesTo buf len classDriver m t dev' := by
  constructor
  · rintro ⟨q, hpath, hle⟩
    rcases hpath.cases_head with heq | ⟨t, hstep, hpath⟩
    · obtain rfl : dev = dev' := (Prod.mk.inj heq).2
      exact absurd hlt (Nat.not_lt.mpr hle)
    · exact ⟨t, hstep, q, hpath, hle⟩
  · rintro ⟨t, hstep, q, hpath, hle⟩
    exact ⟨q, hpath.head hstep, hle⟩

/-- Without an endpoint ahead they are over. -/
theorem iterations_over (hnil : endpointsOf ds = [])
    (hcount : dev.numEpConfigs + (endpointsOf ds).length = m) :
    IteratesTo buf len classDriver m (p, dev) dev' ↔
      HidsFit rest (endpointsOf ds).length ds ∧
        dev' = recorded classDriver dev ((endpointsOf ds).map UsbDescriptor.epConfig) := by
  rw [hnil] at hcount ⊢
  rw [iterations_done hcount.ge]
  exact (and_iff_right (hidsFit_zero rest ds)).symm

/-- **The iterations over the endpoints** record those of the interface in their order, and end iff
every HID descriptor between them fits.
The induction is on the descriptors ahead, which hold the endpoints still to be counted. -/
theorem iterations_iff (hm : m ≤ 16) (h : Ahead buf rest len p (d :: ds))
    (hcount : dev.numEpConfigs + (endpointsOf ds).length = m) :
    IteratesTo buf len classDriver m (p, dev) dev' ↔
      HidsFit rest (endpointsOf ds).length ds ∧
        dev' = recorded classDriver dev ((endpointsOf ds).map UsbDescriptor.epConfig) := by
  induction ds generalizing p d dev with
  | nil => exact iterations_over rfl hcount
  | cons e ds ih =>
      by_cases hnil : endpointsOf (e :: ds) = []
      · exact iterations_over hnil hcount
      have hlt : dev.numEpConfigs < m := by
        have hpos := List.length_pos_iff.mpr hnil
        omega
      rw [iterations_cases hlt]
      by_cases hendpoint : e.type = endpointDescriptorType
      · -- the endpoint is recorded, and one fewer is still to be counted
        rw [endpointsOf_endpoint hendpoint] at hcount ⊢
        have hnext : (withEndpoint classDriver dev e.epConfig).numEpConfigs +
            (endpointsOf ds).length = m :=
          (Nat.succ_add_eq_add_succ _ _).trans hcount
        have hrest := ih h.tail hnext
        rw [List.length_cons, hidsFit_endpoint hendpoint, List.map_cons, recorded_cons, ← hrest]
        constructor
        · rintro ⟨⟨p₁, dev₁⟩, hstep, hpath⟩
          obtain ⟨rfl, ⟨-, rfl⟩ | ⟨hne, -, -⟩⟩ := (h.iterates_iff hm hlt).mp hstep
          · exact hpath
          · exact absurd hendpoint hne
        · exact fun hpath => ⟨_, (h.iterates_iff hm hlt).mpr ⟨rfl, Or.inl ⟨hendpoint, rfl⟩⟩, hpath⟩
      · -- another descriptor is passed over, after the log of a HID descriptor
        have hinterface : e.type ≠ interfaceDescriptorType := fun heq =>
          hnil (endpointsOf_interface heq)
        rw [endpointsOf_other hinterface hendpoint] at hnil hcount ⊢
        have hrest := ih h.tail hcount
        rw [hidsFit_other hendpoint (List.length_pos_iff.mpr hnil), and_assoc, ← hrest]
        constructor
        · rintro ⟨⟨p₁, dev₁⟩, hstep, hpath⟩
          obtain ⟨rfl, ⟨heq, -⟩ | ⟨-, rfl, hlog⟩⟩ := (h.iterates_iff hm hlt).mp hstep
          · exact absurd heq hendpoint
          · exact ⟨hlog, hpath⟩
        · rintro ⟨hlog, hpath⟩
          exact ⟨_, (h.iterates_iff hm hlt).mpr ⟨rfl, Or.inr ⟨hendpoint, rfl, hlog⟩⟩, hpath⟩

/-! ## The recorded endpoints -/

/-- What a list of endpoints leaves in each field. -/
theorem recorded_eq (confs : List EndpointConfig) (dev : UsbDevice) :
    recorded classDriver dev confs =
      { classDrivers := fun n => if ∃ conf ∈ confs, conf.epId.number = n then some classDriver
          else dev.classDrivers n
        initializePhase := dev.initializePhase
        epConfigs := fun i => if i.val < dev.numEpConfigs then dev.epConfigs i
          else confs[i.val - dev.numEpConfigs]?.getD (dev.epConfigs i)
        numEpConfigs := dev.numEpConfigs + confs.length } := by
  induction confs generalizing dev with
  | nil => simp [recorded]
  | cons conf confs ih =>
      rw [recorded_cons, ih]
      unfold withEndpoint
      congr 1
      · funext n
        simp only [List.exists_mem_cons_iff]
        by_cases hrest : ∃ conf ∈ confs, conf.epId.number = n
        · rw [if_pos hrest, if_pos (Or.inr hrest)]
        · simp only [hrest, if_false, or_false]
      · funext i
        dsimp only
        rcases lt_trichotomy i.val dev.numEpConfigs with hlt | heq | hgt
        · rw [if_pos (Nat.lt_succ_of_lt hlt), if_neg hlt.ne, if_pos hlt]
        · rw [heq, if_pos (Nat.lt_succ_self _), if_pos rfl, if_neg (Nat.lt_irrefl _), Nat.sub_self]
          rfl
        · obtain ⟨k, hk⟩ := Nat.exists_eq_add_of_lt hgt
          have hback : i.val - (dev.numEpConfigs + 1) = k := by omega
          have hback' : i.val - dev.numEpConfigs = k + 1 := by omega
          rw [if_neg (Nat.not_lt.mpr hgt), if_neg hgt.ne', if_neg hgt.not_gt, hback, hback',
            List.getElem?_cons_succ]
      · rw [List.length_cons]
        exact Nat.succ_add_eq_add_succ _ _

/-- From an empty list they are the configuration. -/
theorem configured_eq (dev : UsbDevice) (classDriver : ClassDriver) (confs : List EndpointConfig) :
    { recorded classDriver { dev with numEpConfigs := 0 } confs with initializePhase := 3 } =
      configured dev classDriver confs := by
  rw [recorded_eq]
  simp only [configured, Nat.not_lt_zero, if_false, Nat.sub_zero, Nat.zero_add]

/-! ## The boot interface -/

/-- The source chooses the driver by the protocol. -/
theorem Ahead.newClassDriver_eq (h : Ahead buf rest len q (d :: ds)) (hboot : d.IsBoot) :
    newClassDriver buf q = .ok (some d.driver) := by
  have hbyte := h.byteAt_interface hboot.1
  obtain ⟨-, hclass, hsub, hprotocol⟩ := hboot
  rw [UhyokOS.newClassDriver_eq (hbyte 5 (by decide)) (hbyte 6 (by decide)) (hbyte 7 (by decide))
    (hbyte 2 (by decide)), if_pos ⟨hclass, hsub⟩]
  unfold UsbDescriptor.driver
  split_ifs with hkeyboard hmouse
  · rfl
  · rfl
  · exact absurd hprotocol (not_or.mpr ⟨hkeyboard, hmouse⟩)

/-- **An accepted interface** has its endpoints recorded. -/
theorem Ahead.accepts_iff (h : Ahead buf rest len q (d :: ds)) (hboot : d.IsBoot)
    (hcount : (endpointsOf ds).length = d.endpointCount) (hle : d.endpointCount ≤ 16) :
    Accepts buf len dev q dev' classDriver ↔ classDriver = d.driver ∧ HidsFit rest d.endpointCount ds ∧
      dev' = recorded classDriver { dev with numEpConfigs := 0 }
        ((endpointsOf ds).map UsbDescriptor.epConfig) := by
  have hbyte := h.byteAt_interface hboot.1
  have hnum : ByteAt buf (q + 4) d.endpointCount := hbyte 4 (by decide)
  have hend : q + 7 < buf.length := (hbyte 7 (by decide)).lt
  have hloop : Returns (fun fuel => loop .outOfFuel (endpointBody buf len q classDriver) fuel
      (q, { dev with numEpConfigs := 0 })) dev' ↔ _ :=
    (endpointLoop_returns_iff hnum).trans (iterations_iff hle h ((Nat.zero_add _).trans hcount))
  unfold Accepts
  rw [and_iff_right h.lt_len, and_iff_right (h.type_iff.mpr hboot.1), and_iff_right hend,
    h.newClassDriver_eq hboot, Except.ok.injEq, Option.some.injEq, hloop, hcount]
  exact and_congr_left fun _ => eq_comm

/-! ## `InitializePhase2` -/

/-- What happens where the search for an interface ends. -/
def Finishes (buf : List UInt8) (len : Nat) (dev : UsbDevice) (ret : Phase2Return)
    (dev' : UsbDevice) (q : Nat) : Prop :=
  (len ≤ q ∧ ret = .error .kSuccess ∧ dev' = dev) ∨
    ∃ dev₁ classDriver value, Accepts buf len dev q dev₁ classDriver ∧ ByteAt buf 5 value ∧
      ret = .controlOut (setConfiguration value) ∧ dev' = { dev₁ with initializePhase := 3 }

variable {ret : Phase2Return}

/-- The search ends nowhere else. -/
theorem Finishes.stops (h : Finishes buf len dev ret dev' q) : len ≤ q ∨
    (ByteAt buf (q + 1) interfaceDescriptorType ∧ BootInterface buf q) := by
  rcases h with ⟨hend, -, -⟩ | ⟨_, _, _, ⟨-, hinterface, hend, hdriver, -⟩, -⟩
  · exact Or.inl hend
  · rcases newClassDriver_cases hend with ⟨hboot, -⟩ | ⟨-, hnone⟩
    · exact Or.inr ⟨hinterface, hboot⟩
    · rw [hnone] at hdriver
      cases hdriver

/-- At the end of the buffer the device stays as it is. -/
theorem Ahead.finishes_nil (h : Ahead buf rest len q []) :
    Finishes buf len dev ret dev' q ↔ ret = .error .kSuccess ∧ dev' = dev := by
  have hend : len = q := h.len_eq
  constructor
  · rintro (⟨-, hret, hdev⟩ | ⟨_, _, _, ⟨hlt, -, -, -⟩, -⟩)
    · exact ⟨hret, hdev⟩
    · omega
  · rintro ⟨hret, hdev⟩
    exact Or.inl ⟨hend.le, hret, hdev⟩

/-- At a boot interface the device is configured, if the log fits. -/
theorem Ahead.finishes_boot (h : Ahead buf rest len q (d :: ds)) (hboot : d.IsBoot)
    (hcount : (endpointsOf ds).length = d.endpointCount) (hle : d.endpointCount ≤ 16) {value : Nat}
    (hvalue : ByteAt buf 5 value) :
    Finishes buf len dev ret dev' q ↔ HidsFit rest d.endpointCount ds ∧
      ret = .controlOut (setConfiguration value) ∧
      dev' = configured dev d.driver ((endpointsOf ds).map UsbDescriptor.epConfig) := by
  have hlt : q < len := h.lt_len
  constructor
  · rintro (⟨hend, -, -⟩ | ⟨dev₁, classDriver, value', haccepts, hvalue', rfl, rfl⟩)
    · omega
    · obtain ⟨rfl, hfits, rfl⟩ := (h.accepts_iff hboot hcount hle).mp haccepts
      rw [hvalue.unique hvalue', configured_eq]
      exact ⟨hfits, rfl, rfl⟩
  · rintro ⟨hfits, rfl, rfl⟩
    refine Or.inr ⟨_, d.driver, value, (h.accepts_iff hboot hcount hle).mpr ⟨rfl, hfits, rfl⟩,
      hvalue, rfl, ?_⟩
    exact (configured_eq _ _ _).symm

namespace UsbConfiguration

variable {c : UsbConfiguration} {ifDesc : UsbDescriptor}

/-- The reader starts in front of the configuration descriptor. -/
theorem ahead_zero (c : UsbConfiguration) (rest : List UInt8) :
    Ahead (c.bytes ++ rest) rest c.bytes.length 0 (c.confDesc :: c.descriptors) :=
  ⟨[], rfl, rfl, (Nat.zero_add _).symm⟩

/-- What is behind the first boot interface is the end of the configuration. -/
theorem fromBoot_suffix (c : UsbConfiguration) : c.fromBoot <:+ c.descriptors :=
  List.dropWhile_suffix _

/-- The search ends at a boot interface, if it does not end at the end. -/
theorem isBoot_of_fromBoot (h : c.fromBoot = ifDesc :: ds) : ifDesc.IsBoot := by
  have hhead := List.head?_dropWhile_not (fun d : UsbDescriptor => ¬d.IsBoot) c.descriptors
  rw [show c.descriptors.dropWhile (fun d => ¬d.IsBoot) = _ from h] at hhead
  simpa using hhead

/-- The outer loop from the configuration descriptor on. -/
theorem exists_finishes_iff (c : UsbConfiguration) (rest : List UInt8) (dev : UsbDevice)
    {r : Phase2Return × UsbDevice} :
    Returns (initializePhase2 dev (c.bytes ++ rest) c.bytes.length) r ↔
      ∃ q, Ahead (c.bytes ++ rest) rest c.bytes.length q c.fromBoot ∧
        Finishes (c.bytes ++ rest) c.bytes.length dev r.1 r.2 q := by
  have htype : ByteAt (c.bytes ++ rest) 1 configurationDescriptorType :=
    (c.ahead_zero rest).type_iff.mpr c.confDesc_type
  exact (initializePhase2_returns_iff htype).trans
    (search_iff (c.ahead_zero rest) fun _ => Finishes.stops)

/-- **`InitializePhase2` on a configuration** returns iff the log fits, and then what the
descriptors say. -/
theorem returns_iff (c : UsbConfiguration) (rest : List UInt8) (dev : UsbDevice)
    {r : Phase2Return × UsbDevice} :
    Returns (initializePhase2 dev (c.bytes ++ rest) c.bytes.length) r ↔
      c.LogFits rest ∧ r = c.parsed dev := by
  obtain ⟨ret, dev'⟩ := r
  have hsuffix : c.fromBoot <:+ c.confDesc :: c.descriptors :=
    c.fromBoot_suffix.trans (List.suffix_cons _ _)
  obtain ⟨q, hq⟩ := (c.ahead_zero rest).exists_of_suffix hsuffix
  rw [c.exists_finishes_iff, hq.exists_iff]
  unfold LogFits parsed
  rcases hfrom : c.fromBoot with _ | ⟨ifDesc, ds⟩
  · rw [hfrom] at hq
    rw [hq.finishes_nil, and_iff_right fun _ _ heq => nomatch heq]
    exact Prod.mk_inj.symm
  · have hboot : ifDesc.IsBoot := isBoot_of_fromBoot hfrom
    obtain ⟨hcount, hle⟩ := c.endpoints_eq ifDesc ds (hfrom ▸ c.fromBoot_suffix) hboot.1
    rw [hfrom] at hq
    have hvalue : ByteAt (c.bytes ++ rest) 5 (byteOf c.bytes 5) := by
      have hend := hq.le_len
      have hsize := ifDesc.interface_le hboot.1
      have hlt : 5 < c.bytes.length := by omega
      unfold ByteAt
      rw [List.getElem?_append_left hlt]
      exact byteAt_byteOf hlt
    rw [hq.finishes_boot hboot hcount hle hvalue]
    constructor
    · rintro ⟨hfits, rfl, rfl⟩
      refine ⟨fun ifDesc' ds' heq => ?_, rfl⟩
      obtain ⟨rfl, rfl⟩ := List.cons.inj heq
      exact hfits
    · rintro ⟨hfits, heq⟩
      obtain ⟨hret, hdev⟩ := Prod.mk.inj heq
      exact ⟨hfits _ _ rfl, hret, hdev⟩

end UsbConfiguration

/-- **A configuration is parsed exactly** iff the HID descriptors that stand before the last
endpoint of the boot interface lie in the buffer with the class descriptors that they say. The buffer
is `buf_` of the device, whatever it holds behind the bytes that the device has sent. -/
theorem configuration_parsed_iff (c : UsbConfiguration) (rest : List UInt8) (dev : UsbDevice) :
    Returns (initializePhase2 dev (c.bytes ++ rest) c.bytes.length) (c.parsed dev) ↔
      c.LogFits rest := by
  rw [c.returns_iff]
  exact and_iff_left rfl

/-! ## Examples -/

/-- The boot interface of a keyboard. -/
def keyboardInterface : UsbDescriptor where
  bytes := [9, 4, 0, 0, 1, 3, 1, 1, 0]
  two_le_length := by decide
  byteOf_zero := rfl
  interface_le := by decide
  endpoint_le := by decide

/-- Its HID descriptor, with the number of class descriptors that it says. -/
def keyboardHid (numDescriptors : UInt8) : UsbDescriptor where
  bytes := [9, 33, 17, 1, 0, numDescriptors, 34, 63, 0]
  two_le_length := (by decide : 2 ≤ 9)
  byteOf_zero := rfl
  interface_le := (by decide : 33 = 4 → 9 ≤ 9)
  endpoint_le := (by decide : 33 = 5 → 7 ≤ 9)

/-- Its endpoint 1 IN. -/
def keyboardEndpoint : UsbDescriptor where
  bytes := [7, 5, 129, 3, 8, 0, 10]
  two_le_length := by decide
  byteOf_zero := rfl
  interface_le := by decide
  endpoint_le := by decide

/-- The configuration of a keyboard. -/
def keyboardWith (numDescriptors : UInt8) : UsbConfiguration where
  confDesc := ⟨[9, 2, 34, 0, 1, 1, 0, 160, 50], by decide, rfl, by decide, by decide⟩
  descriptors := [keyboardInterface, keyboardHid numDescriptors, keyboardEndpoint]
  confDesc_type := rfl
  endpoints_eq := by
    intro ifDesc ds hsuffix htype
    simp only [List.suffix_cons_iff, List.suffix_nil, List.cons.injEq, reduceCtorEq,
      or_false] at hsuffix
    rcases hsuffix with ⟨rfl, rfl⟩ | ⟨rfl, -⟩ | ⟨rfl, -⟩
    · exact ⟨rfl, by decide⟩
    · exact absurd (show 33 = 4 from htype) (by decide)
    · exact absurd htype (by decide)

example : (keyboardWith 1).bytes = keyboardConfiguration := rfl

/-- The HID descriptor is at offset 18, and behind it there are 10 more bytes of the configuration. -/
theorem logFits_keyboardWith_iff {num : UInt8} : (keyboardWith num).LogFits rest ↔
    6 + 3 * num.toNat ≤ 16 + rest.length := by
  have hfrom : (keyboardWith num).fromBoot =
      [keyboardInterface, keyboardHid num, keyboardEndpoint] := rfl
  have hlength : (bytesOf [keyboardHid num, keyboardEndpoint] ++ rest).length = 16 + rest.length := by
    rw [List.length_append]
    rfl
  have hnum : ByteAt (bytesOf [keyboardHid num, keyboardEndpoint] ++ rest) 5 num.toNat := rfl
  have hhid : HidsFit rest 1 [keyboardHid num, keyboardEndpoint] ↔
      6 + 3 * num.toNat ≤ 16 + rest.length := by
    have htype : (keyboardHid num).type = hidDescriptorType := rfl
    have hother : (keyboardHid num).type ≠ endpointDescriptorType := by
      rw [htype]
      decide
    rw [hidsFit_other hother Nat.one_pos, hidsFit_endpoint (e := keyboardEndpoint) rfl,
      and_iff_left (hidsFit_zero rest []), forall_prop_of_true htype]
    unfold HidFits
    rw [hlength]
    constructor
    · rintro ⟨num', hnum', hle⟩
      rwa [hnum.unique hnum']
    · exact fun hle => ⟨_, hnum, hle⟩
  unfold UsbConfiguration.LogFits
  rw [hfrom]
  constructor
  · intro hfits
    exact hhid.mp (hfits _ _ rfl)
  · rintro hle ifDesc ds heq
    obtain ⟨rfl, rfl⟩ := List.cons.inj heq
    exact hhid.mpr hle

/-- What `buf_`, an array of 256 bytes, holds behind the 34 bytes of a keyboard. -/
def keyboardRest : List UInt8 := List.replicate 222 0

/-- The rest of the buffer of 256 bytes behind the 34 bytes of the configuration. -/
theorem length_keyboardRest : keyboardRest.length = 222 := List.length_replicate

/-- Five class descriptors end behind the bytes that were sent, but in `buf_`. -/
example : (keyboardWith 5).LogFits keyboardRest := by
  rw [logFits_keyboardWith_iff, length_keyboardRest]
  decide

/-- **The log reads outside `buf_`**: 255 class descriptors behind the HID descriptor. -/
theorem configuration_not_parsed :
    (keyboardWith 255).bytes.length ≤ 256 ∧
      ((keyboardWith 255).bytes ++ keyboardRest).length = 256 ∧
      ¬Returns (initializePhase2 blankUsbDevice ((keyboardWith 255).bytes ++ keyboardRest)
          (keyboardWith 255).bytes.length)
        ((keyboardWith 255).parsed blankUsbDevice) := by
  refine ⟨by decide, ?_, fun hreturns => ?_⟩
  · rw [List.length_append, length_keyboardRest]
    rfl
  · have hfits := (((keyboardWith 255).returns_iff keyboardRest blankUsbDevice).mp hreturns).1
    rw [logFits_keyboardWith_iff, length_keyboardRest] at hfits
    exact absurd hfits (by decide)

end UhyokOS
