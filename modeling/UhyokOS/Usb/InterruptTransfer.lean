import UhyokOS.Usb.ArrayMapLaws
import UhyokOS.Usb.ControlTransfer

/-!
# Interrupt transfers

The model of `Device::AllocTransferRing` and `Device::InterruptIn`, and of what
`OnTransferEventReceived` makes of an event for a Normal TRB. A pointer into a transfer ring is
looked up in all rings of the device, so they must lie apart from each other.

* `RingsApart.set` and `RingsApart.allocTransferRing`: pushing and allocating keeps the rings apart.
* `interruptIn_spec`: a call puts its TRB where an event finds it.
* `InterruptTransfer.Placed.event`: the event leads to `OnInterruptCompleted` for its transfer.
* `ControlInv.setRing`: the control endpoint does not mind.
-/

namespace UhyokOS

open CycleRing

/-! ## The source -/

/-- The words of a Normal TRB. -/
def NormalTRB.data (normal : NormalTRB) : TRB :=
  .ofParameter normal.dataBufferPointer (0#15 ++ normal.trbTransferLength)
    (TRB.controlWord 0 NormalTRB.Type'
      (TRB.flags false normal.interruptOnCompletion normal.interruptOnShortPacket))

/-- The Normal TRB of a call.
Source: `kernel/usb/xhci/device.cpp`, `Device::InterruptIn` -/
def makeNormalTRB (buf : BitVec 64) (len : BitVec 32) : NormalTRB where
  dataBufferPointer := buf
  trbTransferLength := len.setWidth 17
  interruptOnShortPacket := true
  interruptOnCompletion := true

namespace TransferDevice

/-- `transfer_rings_[i] = tr` -/
def setRing (dev : TransferDevice) (i : Nat) (tr : Ring) : TransferDevice :=
  { dev with transferRings := dev.transferRings.set i (some tr) }

/-- The pointer that it returns goes into the array too. What `AllocArray` returned for the ring is
the argument, `none` for the null pointer, and in it what `AllocArray` returned for its array. The
result of `Ring::Initialize` is not looked at.
Source: `kernel/usb/xhci/device.cpp`, `Device::AllocTransferRing` -/
def allocTransferRing (dev : TransferDevice) (index bufSize : Nat)
    (allocated : Option (Option (BitVec 64))) : Option (Option Ring × TransferDevice) :=
  if 1 ≤ index ∧ index ≤ dev.transferRings.length then
    let tr := allocated.map fun buf => (Ring.initializeRing bufSize buf).2
    some (tr, { dev with transferRings := dev.transferRings.set (index - 1) tr })
  else none

/-- Source: `kernel/usb/xhci/device.cpp`, `Device::InterruptIn` -/
def interruptIn (dev : TransferDevice) (epId : EndpointID) (buf : BitVec 64) (len : BitVec 32) :
    Option (Error × TransferDevice) :=
  let dci := deviceContextIndex epId
  (dev.transferRing dci).bind fun
    | none => some (.kTransferRingNotSet, dev)
    | some tr =>
        (tr.push (makeNormalTRB buf len).data).map fun (_, tr) =>
          (.kSuccess, dev.setRing (dci - 1) tr)

/-- The address of the slot that the next push on the ring of an endpoint writes. -/
def nextPosition (dev : TransferDevice) (epId : EndpointID) : BitVec 64 :=
  match dev.transferRing (deviceContextIndex epId) with
  | some (some tr) => tr.trbPtr tr.writeIndex
  | _ => 0

end TransferDevice

/-- An interrupt transfer that was issued. -/
structure InterruptTransfer where
  epId : EndpointID
  /-- The address of its TRB. -/
  position : BitVec 64
  buf : BitVec 64
  len : BitVec 32

/-- Its TRB. -/
def InterruptTransfer.trb (t : InterruptTransfer) : TRB := (makeNormalTRB t.buf t.len).data

/-- The number of bytes that arrived, as `OnTransferEventReceived` computes it. -/
def InterruptTransfer.received (t : InterruptTransfer) (event : TransferEventTRB) : BitVec 32 :=
  (t.len.setWidth 17).setWidth 32 - event.trbTransferLength.setWidth 32

/-! ## Normal TRBs -/

namespace NormalTRB

@[simp] theorem trbType_data (normal : NormalTRB) : normal.data.trbType = Type' :=
  TRB.trbType_controlWord

/-- The buffer and its length are read back. -/
theorem buffer_ofTRB_data (normal : NormalTRB) (cycle : Bool) :
    (ofTRB (normal.data.withCycle cycle)).dataBufferPointer = normal.dataBufferPointer ∧
      (ofTRB (normal.data.withCycle cycle)).trbTransferLength = normal.trbTransferLength := by
  unfold ofTRB data
  refine ⟨?_, BitVec.extractLsb'_append_eq_right⟩
  exact TRB.parameter_ofParameter _ _ _

end NormalTRB

/-! ## Rings that lie apart -/

/-- Two arrays of 32 TRBs have no address in common. -/
def Apart (p q : BitVec 64) : Prop :=
  ∀ i j, i ≤ kControlSlots → j ≤ kControlSlots → trbAddress p i ≠ trbAddress q j

theorem Apart.symm {p q : BitVec 64} (h : Apart p q) : Apart q p :=
  fun i j hi hj heq => h j i hj hi heq.symm

/-- What a ring holds lies in its array. -/
theorem Ring.exists_trbAddress {ring : Ring} {p : BitVec 64} {trb : TRB}
    (h : ring.deref p = some trb) : ∃ i < ring.buf.length, p = trbAddress ring.bufPtr i := by
  unfold deref at h
  simp only at h
  split_ifs at h with haligned
  obtain ⟨hlt, -⟩ := List.getElem?_eq_some_iff.mp h
  refine ⟨_, hlt, ?_⟩
  unfold trbAddress sizeofTRB
  rw [Nat.mul_div_cancel' (Nat.dvd_of_mod_eq_zero haligned), BitVec.ofNat_toNat, BitVec.setWidth_eq,
    BitVec.add_comm, BitVec.sub_add_cancel]

/-- A ring holds nothing at the addresses of another one. -/
theorem Ring.At.deref_of_apart {ring : Ring} {p q : BitVec 64} {n i : Nat}
    (h : ring.At p kControlSlots n) (hapart : Apart p q) (hi : i ≤ kControlSlots) :
    ring.deref (trbAddress q i) = none := by
  by_contra hne
  obtain ⟨trb, htrb⟩ := Option.ne_none_iff_exists'.mp hne
  obtain ⟨j, hj, heq⟩ := Ring.exists_trbAddress htrb
  rw [h.length] at hj
  rw [h.ptr] at heq
  exact hapart j i (Nat.le_of_lt_succ hj) hi heq.symm

/-- All transfer rings of a device are rings of 32 TRBs, apart from each other. -/
structure RingsApart (rings : List (Option Ring)) : Prop where
  length : rings.length = 31
  sound : ∀ {i : Nat} {ring : Ring}, rings[i]? = some (some ring) →
    ∃ n, ring.At ring.bufPtr kControlSlots n
  apart : ∀ {i j : Nat} {ring ring' : Ring}, rings[i]? = some (some ring) →
    rings[j]? = some (some ring') → i ≠ j → Apart ring.bufPtr ring'.bufPtr

namespace RingsApart

variable {rings : List (Option Ring)} {ring ring' : Ring} {i : Nat}

/-- A ring is replaced by one that lies apart from the others. -/
theorem set (h : RingsApart rings) (hi : i < 31) {n : Nat}
    (hring : ring.At ring.bufPtr kControlSlots n)
    (hapart : ∀ {j : Nat} {other : Ring}, rings[j]? = some (some other) → j ≠ i →
      Apart other.bufPtr ring.bufPtr) : RingsApart (rings.set i (some ring)) := by
  have hlt : i < rings.length := h.length.symm ▸ hi
  constructor
  · rw [List.length_set]
    exact h.length
  · intro j other hother
    by_cases hji : j = i
    · rw [hji, List.getElem?_set_self hlt] at hother
      cases hother
      exact ⟨n, hring⟩
    · rw [List.getElem?_set_ne (Ne.symm hji)] at hother
      exact h.sound hother
  · intro j k other other' hother hother' hjk
    by_cases hji : j = i
    · have hki : k ≠ i := fun hki => hjk (hji.trans hki.symm)
      rw [hji, List.getElem?_set_self hlt] at hother
      rw [List.getElem?_set_ne (Ne.symm hki)] at hother'
      cases hother
      exact (hapart hother' hki).symm
    · rw [List.getElem?_set_ne (Ne.symm hji)] at hother
      by_cases hki : k = i
      · rw [hki, List.getElem?_set_self hlt] at hother'
        cases hother'
        exact hapart hother hji
      · rw [List.getElem?_set_ne (Ne.symm hki)] at hother'
        exact h.apart hother hother' hjk

/-- A push leaves a ring where it is. -/
theorem set_same (h : RingsApart rings) (hring : rings[i]? = some (some ring)) {n : Nat}
    (hat : ring'.At ring.bufPtr kControlSlots n) : RingsApart (rings.set i (some ring')) := by
  have hi : i < 31 := h.length ▸ (List.getElem?_eq_some_iff.mp hring).1
  have hptr := hat.ptr
  apply h.set hi (hptr ▸ hat)
  intro j other hother hj
  rw [hptr]
  exact h.apart hother hring hj

/-- The address of a slot of a ring is looked up in this ring. -/
theorem trbAt_eq (h : RingsApart rings) (hring : rings[i]? = some (some ring)) {k : Nat}
    (hk : k ≤ kControlSlots) {dev : TransferDevice} (hdev : dev.transferRings = rings) {trb : TRB}
    (htrb : ring.deref (trbAddress ring.bufPtr k) = some trb) :
    dev.trbAt (trbAddress ring.bufPtr k) = some trb := by
  unfold TransferDevice.trbAt
  rw [hdev, List.findSome?_eq_some_iff]
  obtain ⟨hlt, hget⟩ := List.getElem?_eq_some_iff.mp hring
  refine ⟨rings.take i, some ring, rings.drop (i + 1), ?_, htrb, ?_⟩
  · rw [← hget, ← List.drop_eq_getElem_cons hlt]
    exact (List.take_append_drop i rings).symm
  · intro other hother
    obtain ⟨j, hj⟩ := List.mem_iff_getElem?.mp hother
    rw [List.getElem?_take] at hj
    split_ifs at hj with hji
    cases other with
    | none => rfl
    | some other =>
        obtain ⟨n, hat⟩ := h.sound hj
        exact hat.deref_of_apart (h.apart hj hring (Nat.ne_of_lt hji)) hk

end RingsApart

/-! ## Calls and events -/

variable {dev dev' : TransferDevice} {epId : EndpointID} {t : InterruptTransfer}

/-- The endpoint has a context of its own, behind that of the control endpoint. -/
def EndpointID.HasContext (epId : EndpointID) : Prop :=
  2 ≤ deviceContextIndex epId ∧ deviceContextIndex epId ≤ 31

/-- The endpoint has a transfer ring. -/
def TransferDevice.HasRing (dev : TransferDevice) (epId : EndpointID) : Prop :=
  ∃ ring, dev.transferRings[deviceContextIndex epId - 1]? = some (some ring)

theorem EndpointID.HasContext.transferRing_eq (h : epId.HasContext) (dev : TransferDevice) :
    dev.transferRing (deviceContextIndex epId) = dev.transferRings[deviceContextIndex epId - 1]? :=
  if_neg (Nat.ne_of_gt (Nat.lt_of_succ_lt h.1))

/-- **A ring is allocated** apart from the others, if there is memory for it and for its array. -/
theorem RingsApart.allocTransferRing (h : RingsApart dev.transferRings) (hid : epId.HasContext)
    {allocated : BitVec 64} (hapart : ∀ {j : Nat} {ring : Ring},
      dev.transferRings[j]? = some (some ring) → j ≠ deviceContextIndex epId - 1 →
        Apart ring.bufPtr allocated) :
    ∃ ring, ring.bufPtr = allocated ∧
      dev.allocTransferRing (deviceContextIndex epId) (kControlSlots + 1) (some (some allocated)) =
        some (some ring, dev.setRing (deviceContextIndex epId - 1) ring) ∧
      RingsApart (dev.setRing (deviceContextIndex epId - 1) ring).transferRings := by
  obtain ⟨hlow, hhigh⟩ := hid
  have hlength := h.length
  refine ⟨(Ring.initializeRing (kControlSlots + 1) (some allocated)).2, rfl, ?_, ?_⟩
  · unfold TransferDevice.allocTransferRing
    rw [if_pos ⟨by omega, by omega⟩]
    rfl
  · have hat : (Ring.initializeRing (kControlSlots + 1) (some allocated)).2.At allocated
        kControlSlots 0 := ⟨rfl, rfl, List.length_replicate, rfl⟩
    exact h.set (by omega) hat hapart

/-- The TRB of the transfer is on the ring of its endpoint. -/
def InterruptTransfer.Placed (t : InterruptTransfer) (dev : TransferDevice) : Prop :=
  ∃ ring k cycle, dev.transferRings[deviceContextIndex t.epId - 1]? = some (some ring) ∧
    k ≤ kControlSlots ∧ t.position = trbAddress ring.bufPtr k ∧
    ring.deref t.position = some (t.trb.withCycle cycle)

/-- **A call** puts its TRB on the ring of the endpoint and leaves the rest of the device alone. -/
theorem interruptIn_spec (h : RingsApart dev.transferRings) (hid : epId.HasContext)
    (hring : dev.HasRing epId) (buf : BitVec 64) (len : BitVec 32) :
    ∃ ring, dev.interruptIn epId buf len =
        some (.kSuccess, dev.setRing (deviceContextIndex epId - 1) ring) ∧
      RingsApart (dev.setRing (deviceContextIndex epId - 1) ring).transferRings ∧
      InterruptTransfer.Placed ⟨epId, dev.nextPosition epId, buf, len⟩
        (dev.setRing (deviceContextIndex epId - 1) ring) := by
  obtain ⟨ring, hring⟩ := hring
  obtain ⟨n, hat⟩ := h.sound hring
  have hslots : n % kControlSlots < kControlSlots := Nat.mod_lt _ (by decide)
  obtain ⟨ring', hpush, hat', hholds, -⟩ := hat.push (by decide) (makeNormalTRB buf len).data
  obtain ⟨cycle, hderef⟩ := hholds.deref hat'.ptr
  have hposition : dev.nextPosition epId = trbAddress ring.bufPtr (n % kControlSlots) := by
    unfold TransferDevice.nextPosition Ring.trbPtr
    rw [hid.transferRing_eq, hring, ← hat.writeIndex]
  refine ⟨ring', ?_, h.set_same hring hat', ring', n % kControlSlots, cycle, ?_, hslots.le, ?_, ?_⟩
  · unfold TransferDevice.interruptIn
    simp only [hid.transferRing_eq, hring, Option.bind_some, hpush, Option.map_some]
  · exact List.getElem?_set_self (List.getElem?_eq_some_iff.mp hring).1
  · show dev.nextPosition epId = trbAddress ring'.bufPtr _
    rw [hat'.ptr]
    exact hposition
  · show ring'.deref (dev.nextPosition epId) = _
    rw [hposition]
    exact hderef

namespace InterruptTransfer.Placed

/-- The rings other than that of the endpoint do not matter. -/
theorem of_ring_eq (h : t.Placed dev)
    (hring : dev'.transferRings[deviceContextIndex t.epId - 1]? =
      dev.transferRings[deviceContextIndex t.epId - 1]?) : t.Placed dev' := by
  obtain ⟨ring, k, cycle, hget, hrest⟩ := h
  exact ⟨ring, k, cycle, hring.trans hget, hrest⟩

/-- The TRB of the transfer is found at its address. -/
theorem trbAt_eq (h : t.Placed dev) (hrings : RingsApart dev.transferRings) :
    ∃ cycle, dev.trbAt t.position = some (t.trb.withCycle cycle) := by
  obtain ⟨ring, k, cycle, hring, hk, hposition, hderef⟩ := h
  refine ⟨cycle, ?_⟩
  rw [hposition] at hderef ⊢
  exact hrings.trbAt_eq hring hk rfl hderef

/-- An event of success for the transfer can be logged. -/
theorem log_of_succeeded (h : t.Placed dev) (hrings : RingsApart dev.transferRings)
    {trb : TransferEventTRB} (hsuccess : trb.Succeeded) (hpointer : trb.trbPointer = t.position) :
    dev.logTransferEvent trb = some () := by
  obtain ⟨cycle, hissuer⟩ := h.trbAt_eq hrings
  rw [TransferDevice.logTransferEvent_iff, hpointer, hissuer]
  exact ⟨hsuccess.named, Or.inr rfl⟩

/-- **An event** of success leads to `OnInterruptCompleted` for the transfer, and a failure only to
an error, if it can be logged. -/
theorem event (h : t.Placed dev) (hrings : RingsApart dev.transferRings) {trb : TransferEventTRB}
    (hlog : dev.logTransferEvent trb = some ())
    (hpointer : trb.Succeeded → trb.trbPointer = t.position) :
    dev.onTransferEventReceived trb = some (if trb.Succeeded then
      (.interruptCompleted ⟨trb.endpointId.toNat⟩ t.buf (t.received trb), dev)
      else (.error .kTransferFailed, dev)) := by
  obtain ⟨cycle, hissuer⟩ := h.trbAt_eq hrings
  unfold TransferDevice.onTransferEventReceived
  simp only [hlog, Option.bind_some]
  by_cases hsuccess : trb.Succeeded
  · have hcode : ¬(trb.completionCode ≠ 1 ∧ trb.completionCode ≠ 13) := by
      rintro ⟨hone, hthirteen⟩
      exact hsuccess.elim hone hthirteen
    obtain ⟨hbuffer, hlength⟩ := (makeNormalTRB t.buf t.len).buffer_ofTRB_data cycle
    have htype : (t.trb.withCycle cycle).trbType = NormalTRB.Type' := by
      rw [TRB.trbType_withCycle]
      exact NormalTRB.trbType_data _
    rw [if_neg hcode, hpointer hsuccess, hissuer, Option.bind_some, if_pos htype, if_pos hsuccess]
    unfold InterruptTransfer.trb
    simp only [hbuffer, hlength]
    rfl
  · rw [if_pos (by unfold TransferEventTRB.Succeeded at hsuccess; exact not_or.mp hsuccess),
      if_neg hsuccess]

end InterruptTransfer.Placed

/-! ## The control endpoint -/

namespace ControlInv

variable {bufPtr : BitVec 64} {rest : List (Option Ring)} {s : ControlRun}

/-- Another transfer ring of the device does not concern the control endpoint. -/
theorem setRing (h : ControlInv bufPtr rest s) {i : Nat} (hi : 1 ≤ i) (ring : Ring) :
    ControlInv bufPtr (rest.set (i - 1) (some ring))
      { s with device := s.device.setRing i ring } := by
  obtain ⟨control, hrings, hcontrol⟩ := h.ring
  refine ⟨h.ptr, ⟨control, ?_, hcontrol⟩, h.issued, h.apart, h.values, h.registered⟩
  obtain ⟨i, rfl⟩ := Nat.exists_eq_add_of_le' hi
  show s.device.transferRings.set (i + 1) (some ring) = _
  rw [hrings]
  rfl

end ControlInv

end UhyokOS
