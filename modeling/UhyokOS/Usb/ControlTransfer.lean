import UhyokOS.Usb.ArrayMap
import UhyokOS.Usb.Endpoint
import UhyokOS.Usb.Ring

/-!
# Control transfers

The model of `Device::ControlIn`, `Device::ControlOut` and `Device::OnTransferEventReceived`, and of
the runs of a control endpoint: transfers are issued, and events report them in any order. Pointers
are addresses, `0` being the null pointer. A function is undefined (`none`) where the source reads
through a pointer that points into no transfer ring or outside an array, be it only for the log. The
doorbell and the texts of the log are left out.

* `Ring.At.push` says what a push leaves of the TRBs of the last lap.
* `control_spec` and `onTransferEventReceived_spec` say what a call and an event do.
* `controlInv_preserved`: the step lemma of the runs.
* `control_transfers_matched_iff`: the events that report success are matched with their transfers
  if each of these transfers found room in `setup_stage_map_` and is reported before the ring comes
  around to it, and every completion code has a name.
-/

namespace UhyokOS

open Transition CycleRing

/-! ## Pushing TRBs -/

namespace Ring

/-- The TRB that a pointer into the array points to. -/
def deref (ring : Ring) (p : BitVec 64) : Option TRB :=
  let offset := (p - ring.bufPtr).toNat
  if offset % sizeofTRB = 0 then ring.buf[offset / sizeofTRB]? else none

/-- The ring after `pushed` pushes: `K` data slots and the Link TRB behind them. -/
structure At (ring : Ring) (bufPtr : BitVec 64) (K pushed : Nat) : Prop where
  ptr : ring.bufPtr = bufPtr
  size : ring.bufSize = K + 1
  length : ring.buf.length = K + 1
  writeIndex : ring.writeIndex = pushed % K

/-- The TRB of push number `k` is on the ring, up to its cycle bit. -/
def Holds (ring : Ring) (K k : Nat) (trb : TRB) : Prop :=
  ∃ cycle, ring.buf[k % K]? = some (trb.withCycle cycle)

variable {ring : Ring} {bufPtr : BitVec 64} {K n k : Nat} {trb : TRB}

theorem deref_trbAddress (hptr : ring.bufPtr = bufPtr) {i : Nat} (hi : sizeofTRB * i < 2 ^ 64) :
    ring.deref (trbAddress bufPtr i) = ring.buf[i]? := by
  unfold deref
  rw [hptr, trbAddress_sub bufPtr hi]
  simp only
  rw [if_pos (Nat.mul_mod_right _ _), Nat.mul_div_cancel_left _ (by decide)]

/-- **A push** writes its own slot and leaves the other data slots alone. -/
theorem At.push (h : ring.At bufPtr K n) (hK : 0 < K) (data : TRB) :
    ∃ ring', ring.push data = some (trbAddress bufPtr (n % K), ring') ∧ ring'.At bufPtr K (n + 1) ∧
      ring'.Holds K n data ∧
      ∀ k trb, k < n → n < k + K → ring.Holds K k trb → ring'.Holds K k trb := by
  have hlt : n % K < K := Nat.mod_lt _ hK
  have hin : ring.writeIndex < ring.buf.length := by
    rw [h.writeIndex, h.length]
    omega
  have hnext := mod_succ hK n
  have hposition : ring.trbPtr ring.writeIndex = trbAddress bufPtr (n % K) := by
    unfold trbPtr
    rw [h.ptr, h.writeIndex]
  by_cases hend : n % K + 1 = K
  · rw [if_pos hend] at hnext
    rw [push_end data (by rw [h.writeIndex, h.length]; omega)
      (by rw [h.writeIndex, h.size, hend]; rfl), hposition]
    refine ⟨_, rfl, ⟨h.ptr, h.size, ?_, hnext.symm⟩, ⟨ring.cycleBit, ?_⟩, fun k trb hk hlap => ?_⟩
    · rw [List.length_set, List.length_set]
      exact h.length
    · rw [h.writeIndex, List.getElem?_set_ne (by omega), List.getElem?_set_self]
      rw [h.length]
      omega
    · rintro ⟨cycle, hslot⟩
      have hne := mod_ne_mod hk hlap
      have hltk : k % K < K := Nat.mod_lt _ hK
      refine ⟨cycle, ?_⟩
      rw [h.writeIndex, List.getElem?_set_ne (by omega), List.getElem?_set_ne (Ne.symm hne)]
      exact hslot
  · rw [if_neg hend] at hnext
    rw [push_inside data hin (by rw [h.writeIndex, h.size]; exact hend), hposition]
    refine ⟨_, rfl, ⟨h.ptr, h.size, ?_, ?_⟩, ⟨ring.cycleBit, ?_⟩, fun k trb hk hlap => ?_⟩
    · rw [List.length_set]
      exact h.length
    · rw [hnext, ← h.writeIndex]
    · rw [h.writeIndex, List.getElem?_set_self]
      rw [h.length]
      omega
    · rintro ⟨cycle, hslot⟩
      refine ⟨cycle, ?_⟩
      rw [h.writeIndex, List.getElem?_set_ne (Ne.symm (mod_ne_mod hk hlap))]
      exact hslot

end Ring

/-! ## The device -/

/-- Source: `kernel/usb/setupdata.hpp`, `SetupData` -/
structure SetupData where
  requestType : BitVec 8
  request : BitVec 8
  value : BitVec 16
  index : BitVec 16
  length : BitVec 16
deriving DecidableEq

/-- The part of a device that transfers use.
Source: `kernel/usb/xhci/device.hpp`, `Device` -/
structure TransferDevice where
  /-- `transfer_rings_`, `none` for a null pointer -/
  transferRings : List (Option Ring)
  /-- `setup_stage_map_` -/
  setupStageMap : ArrayMap (BitVec 64) (BitVec 64) 16
  /-- `event_waiters_` -/
  eventWaiters : ArrayMap SetupData (BitVec 64) 4

/-- Source: `kernel/usb/xhci/device.cpp`, `MakeSetupStageTRB` -/
def makeSetupStageTRB (setupData : SetupData) (transferType : BitVec 2) : SetupStageTRB where
  requestType := setupData.requestType
  request := setupData.request
  value := setupData.value
  index := setupData.index
  length := setupData.length
  transferType := transferType

/-- The fields that `OnTransferEventReceived` copies. -/
def SetupData.ofSetupStageTRB (setupStageTrb : SetupStageTRB) : SetupData where
  requestType := setupStageTrb.requestType
  request := setupStageTrb.request
  value := setupStageTrb.value
  index := setupStageTrb.index
  length := setupStageTrb.length

/-- Source: `kernel/usb/xhci/device.cpp`, `MakeDataStageTRB` -/
def makeDataStageTRB (buf : BitVec 64) (len : BitVec 32) (dirIn : Bool) : DataStageTRB where
  dataBufferPointer := buf
  trbTransferLength := len.setWidth 17
  tdSize := 0
  direction := dirIn

namespace Ring

/-- The pointer, or the null pointer if the TRB it points to is of another type.
Source: `kernel/usb/xhci/trb.hpp`, `TRBDynamicCast` -/
def trbDynamicCast (ring : Ring) (type : BitVec 6) (p : BitVec 64) : Option (BitVec 64) :=
  (ring.deref p).map fun trb => if trb.trbType = type then p else 0

/-- The TRBs of a control transfer: the positions of the TRB that reports it and of its Setup Stage
TRB. `dataStage` is the transfer type and `dirIn` the direction of a data stage, `statusIn` the
direction of the status stage after it. -/
def pushControl (tr : Ring) (dataStage : BitVec 2) (dirIn statusIn : Bool) (setupData : SetupData)
    (buf : BitVec 64) (len : BitVec 32) : Option (BitVec 64 × BitVec 64 × Ring) :=
  if buf ≠ 0 then
    (tr.push (makeSetupStageTRB setupData dataStage).data).bind fun (position, tr) =>
    (tr.trbDynamicCast SetupStageTRB.Type' position).bind fun setupTrbPosition =>
    let data := { makeDataStageTRB buf len dirIn with interruptOnCompletion := true }
    (tr.push data.data).bind fun (dataTrbPosition, tr) =>
    let status : StatusStageTRB := { direction := statusIn }
    (tr.push status.data).map fun (_, tr) => (dataTrbPosition, setupTrbPosition, tr)
  else
    (tr.push (makeSetupStageTRB setupData SetupStageTRB.kNoDataStage).data).bind
      fun (position, tr) =>
    (tr.trbDynamicCast SetupStageTRB.Type' position).bind fun setupTrbPosition =>
    let status : StatusStageTRB := { direction := true, interruptOnCompletion := true }
    (tr.push status.data).map fun (statusTrbPosition, tr) =>
      (statusTrbPosition, setupTrbPosition, tr)

end Ring

/-- What `OnTransferEventReceived` ends with. -/
inductive TransferResult
  /-- It returns what this call of `OnControlCompleted` returns. -/
  | controlCompleted (epId : EndpointID) (setupData : SetupData) (buf : BitVec 64) (len : BitVec 32)
  /-- It returns what this call of `OnInterruptCompleted` returns. -/
  | interruptCompleted (epId : EndpointID) (buf : BitVec 64) (len : BitVec 32)
  /-- It returns an error of its own. -/
  | error (e : Error)
deriving DecidableEq

/-- The number of names of completion codes.
Source: `kernel/usb/xhci/trb.cpp`, `kTRBCompletionCodeToName` -/
abbrev kTRBCompletionCodeNames : Nat := 37

namespace TransferDevice

/-- `transfer_rings_[dci.value - 1]`, undefined outside the array. -/
def transferRing (dev : TransferDevice) (dci : Nat) : Option (Option Ring) :=
  if dci = 0 then none else dev.transferRings[dci - 1]?

/-- The TRB that a pointer into one of the transfer rings points to. -/
def trbAt (dev : TransferDevice) (p : BitVec 64) : Option TRB :=
  dev.transferRings.findSome? fun tr => tr.bind (·.deref p)

/-- The caller is noted as the one that waits for the request.
Source: `kernel/usb/device.cpp`, `Device::ControlIn` -/
def noteWaiter (dev : TransferDevice) (setupData : SetupData) (issuer : BitVec 64) :
    TransferDevice :=
  if issuer ≠ 0 then { dev with eventWaiters := dev.eventWaiters.put setupData issuer } else dev

/-- What `ControlIn` and `ControlOut` have in common. -/
def control (dataStage : BitVec 2) (dirIn statusIn : Bool) (dev : TransferDevice)
    (epId : EndpointID) (setupData : SetupData) (buf : BitVec 64) (len : BitVec 32)
    (issuer : BitVec 64) : Option (Error × TransferDevice) :=
  let dev := dev.noteWaiter setupData issuer
  if 15 < epId.number then some (.kInvalidEndpointNumber, dev)
  else
    let dci := deviceContextIndex epId
    (dev.transferRing dci).bind fun
      | none => some (.kTransferRingNotSet, dev)
      | some tr =>
          (tr.pushControl dataStage dirIn statusIn setupData buf len).map
            fun (trbPosition, setupTrbPosition, tr) =>
              (.kSuccess, { dev with
                transferRings := dev.transferRings.set (dci - 1) (some tr)
                setupStageMap := dev.setupStageMap.put trbPosition setupTrbPosition })

/-- Source: `kernel/usb/xhci/device.cpp`, `Device::ControlIn` -/
def controlIn : TransferDevice → EndpointID → SetupData → BitVec 64 → BitVec 32 → BitVec 64 →
    Option (Error × TransferDevice) :=
  control SetupStageTRB.kInDataStage true false

/-- Source: `kernel/usb/xhci/device.cpp`, `Device::ControlOut` -/
def controlOut : TransferDevice → EndpointID → SetupData → BitVec 64 → BitVec 32 → BitVec 64 →
    Option (Error × TransferDevice) :=
  control SetupStageTRB.kOutDataStage false true

/-- What the log of an event reads: the name of its completion code, and the TRB it points to unless
it has event data. Every type of a TRB has a name.
Source: `kernel/usb/xhci/device.cpp`, `Log(LogLevel, const TransferEventTRB&)` -/
def logTransferEvent (dev : TransferDevice) (trb : TransferEventTRB) : Option Unit :=
  if kTRBCompletionCodeNames ≤ trb.completionCode.toNat then none
  else if trb.eventData then some ()
  else (dev.trbAt trb.trbPointer).map fun _ => ()

/-- Lengths are subtracted as `uint32_t`. The event is logged in either case.
Source: `kernel/usb/xhci/device.cpp`, `Device::OnTransferEventReceived` -/
def onTransferEventReceived (dev : TransferDevice) (trb : TransferEventTRB) :
    Option (TransferResult × TransferDevice) :=
  let residualLength : BitVec 32 := trb.trbTransferLength.setWidth 32
  let epId : EndpointID := ⟨trb.endpointId.toNat⟩
  (dev.logTransferEvent trb).bind fun _ =>
  if trb.completionCode ≠ 1 ∧ trb.completionCode ≠ 13 then some (.error .kTransferFailed, dev)
  else
    (dev.trbAt trb.trbPointer).bind fun issuerTrb =>
      if issuerTrb.trbType = NormalTRB.Type' then
        let normalTrb := NormalTRB.ofTRB issuerTrb
        let transferLength := normalTrb.trbTransferLength.setWidth 32 - residualLength
        some (.interruptCompleted epId normalTrb.dataBufferPointer transferLength, dev)
      else
        match dev.setupStageMap.get trb.trbPointer with
        | none => some (.error .kNoCorrespondingSetupStage, dev)
        | some setupStagePosition =>
            let dev := { dev with setupStageMap := dev.setupStageMap.delete trb.trbPointer }
            (dev.trbAt setupStagePosition).map fun setupTrb =>
              let setupData := SetupData.ofSetupStageTRB (SetupStageTRB.ofTRB setupTrb)
              if issuerTrb.trbType = DataStageTRB.Type' then
                let dataStageTrb := DataStageTRB.ofTRB issuerTrb
                let transferLength := dataStageTrb.trbTransferLength.setWidth 32 - residualLength
                (.controlCompleted epId setupData dataStageTrb.dataBufferPointer transferLength, dev)
              else if issuerTrb.trbType = StatusStageTRB.Type' then
                (.controlCompleted epId setupData 0 0, dev)
              else (.error .kNotImplemented, dev)

end TransferDevice

/-! ## Runs of a control endpoint -/

/-- The slots of the transfer ring of a control endpoint: `AddressDevice` asks for 32, of which the
last holds the Link TRB. -/
abbrev kControlSlots : Nat := 31

/-- A transfer that was issued. -/
structure Transfer where
  /-- The number of TRBs that had been pushed before it. -/
  first : Nat
  /-- It was issued by `ControlIn`. -/
  isIn : Bool
  setupData : SetupData
  buf : BitVec 64
  len : BitVec 32
  /-- `setup_stage_map_` had a free slot when it was issued, or a slot with its key already. -/
  registered : Bool

namespace Transfer

variable (t : Transfer)

/-- The number of its TRBs. -/
def count : Nat := if t.buf ≠ 0 then 3 else 2

/-- Its first TRB. -/
def setupTRB : TRB :=
  (makeSetupStageTRB t.setupData (if t.buf ≠ 0 then
    (if t.isIn then SetupStageTRB.kInDataStage else SetupStageTRB.kOutDataStage)
    else SetupStageTRB.kNoDataStage)).data

/-- Its second TRB, which raises its event. -/
def reportingTRB : TRB :=
  if t.buf ≠ 0 then
    { makeDataStageTRB t.buf t.len t.isIn with interruptOnCompletion := true : DataStageTRB }.data
  else { direction := true, interruptOnCompletion := true : StatusStageTRB }.data

theorem trbType_reportingTRB : t.reportingTRB.trbType =
    if t.buf ≠ 0 then DataStageTRB.Type' else StatusStageTRB.Type' := by
  unfold reportingTRB
  split_ifs
  · exact DataStageTRB.trbType_data _
  · exact StatusStageTRB.trbType_data _

/-- The request is read back from the first TRB. -/
theorem setupData_setupTRB (cycle : Bool) :
    SetupData.ofSetupStageTRB (SetupStageTRB.ofTRB (t.setupTRB.withCycle cycle)) =
      t.setupData := by
  obtain ⟨hrequestType, hrequest, hvalue, hindex, hlength⟩ :=
    SetupStageTRB.request_ofTRB_data (makeSetupStageTRB t.setupData (if t.buf ≠ 0 then
      (if t.isIn then SetupStageTRB.kInDataStage else SetupStageTRB.kOutDataStage)
      else SetupStageTRB.kNoDataStage)) cycle
  unfold setupTRB SetupData.ofSetupStageTRB
  rw [hrequestType, hrequest, hvalue, hindex, hlength]
  rfl

/-- The buffer is read back from the second TRB. -/
theorem buffer_reportingTRB (hbuf : t.buf ≠ 0) (cycle : Bool) :
    (DataStageTRB.ofTRB (t.reportingTRB.withCycle cycle)).dataBufferPointer = t.buf ∧
      (DataStageTRB.ofTRB (t.reportingTRB.withCycle cycle)).trbTransferLength =
        t.len.setWidth 17 := by
  unfold reportingTRB
  rw [if_pos hbuf]
  exact DataStageTRB.buffer_ofTRB_data _ cycle

/-- The call of `OnControlCompleted` that belongs to the transfer. -/
def completion (event : TransferEventTRB) : TransferResult :=
  .controlCompleted ⟨event.endpointId.toNat⟩ t.setupData t.buf
    (if t.buf ≠ 0 then (t.len.setWidth 17).setWidth 32 - event.trbTransferLength.setWidth 32 else 0)

end Transfer

/-- Success or Short Packet. -/
def TransferEventTRB.Succeeded (event : TransferEventTRB) : Prop :=
  event.completionCode = 1 ∨ event.completionCode = 13

instance (event : TransferEventTRB) : Decidable event.Succeeded :=
  inferInstanceAs (Decidable (_ ∨ _))

/-- The completion codes of success have names. -/
theorem TransferEventTRB.Succeeded.named {event : TransferEventTRB} (h : event.Succeeded) :
    event.completionCode.toNat < kTRBCompletionCodeNames := by
  rcases h with hcode | hcode
  · rw [hcode]
    decide
  · rw [hcode]
    decide

/-- **An event can be logged** iff its completion code has a name and its TRB can be read. -/
theorem TransferDevice.logTransferEvent_iff {dev : TransferDevice} {trb : TransferEventTRB} :
    dev.logTransferEvent trb = some () ↔ trb.completionCode.toNat < kTRBCompletionCodeNames ∧
      (trb.eventData = true ∨ (dev.trbAt trb.trbPointer).isSome) := by
  unfold logTransferEvent
  rw [← Nat.not_le]
  by_cases hunnamed : kTRBCompletionCodeNames ≤ trb.completionCode.toNat
  · rw [if_pos hunnamed]
    exact iff_of_false (Option.some_ne_none ()).symm fun h => h.1 hunnamed
  · rw [if_neg hunnamed, and_iff_right hunnamed]
    cases trb.eventData with
    | true => exact iff_of_true rfl (Or.inl rfl)
    | false =>
        rw [if_neg Bool.false_ne_true, or_iff_right Bool.false_ne_true]
        cases dev.trbAt trb.trbPointer with
        | none => exact iff_of_false (Option.some_ne_none ()).symm Bool.false_ne_true
        | some issuerTrb => exact iff_of_true rfl rfl

/-- A device whose control endpoint works, and the transfers that are not reported. -/
structure ControlRun where
  device : TransferDevice
  /-- The address of the array of the transfer ring. -/
  bufPtr : BitVec 64
  /-- The number of TRBs that were pushed. -/
  pushed : Nat := 0
  /-- The transfers that were issued and not reported, the oldest first. -/
  outstanding : List Transfer := []
  /-- What the last step reported. -/
  report : Option (Transfer × TransferEventTRB × TransferResult) := none

/-- The calls of `ControlIn` and `ControlOut`, and the event for the `i`th outstanding transfer. -/
inductive ControlOp
  | controlIn (setupData : SetupData) (buf : BitVec 64) (len : BitVec 32) (issuer : BitVec 64)
  | controlOut (setupData : SetupData) (buf : BitVec 64) (len : BitVec 32) (issuer : BitVec 64)
  | event (i : Nat) (trb : TransferEventTRB)

namespace ControlRun

/-- The address of the TRB that reports a transfer. -/
def reporting (s : ControlRun) (first : Nat) : BitVec 64 :=
  trbAddress s.bufPtr ((first + 1) % kControlSlots)

/-- The transfer that is issued next. -/
def next (s : ControlRun) (isIn : Bool) (setupData : SetupData) (buf : BitVec 64)
    (len : BitVec 32) : Transfer where
  first := s.pushed
  isIn := isIn
  setupData := setupData
  buf := buf
  len := len
  registered := decide (s.device.setupStageMap.HasFree ∨
    s.device.setupStageMap.Present (s.reporting s.pushed))

/-- A transfer is issued. -/
def issue (s : ControlRun) (t : Transfer) (result : Option (Error × TransferDevice)) :
    Option ControlRun :=
  result.map fun (_, device) => { s with
    device := device
    pushed := s.pushed + t.count
    outstanding := s.outstanding ++ [t]
    report := none }

/-- One step. -/
def step (s : ControlRun) : ControlOp → Option ControlRun
  | .controlIn setupData buf len issuer =>
      s.issue (s.next true setupData buf len)
        (s.device.controlIn kDefaultControlPipeID setupData buf len issuer)
  | .controlOut setupData buf len issuer =>
      s.issue (s.next false setupData buf len)
        (s.device.controlOut kDefaultControlPipeID setupData buf len issuer)
  | .event i trb =>
      s.outstanding[i]?.bind fun t =>
        (s.device.onTransferEventReceived trb).map fun (result, device) => { s with
          device := device
          outstanding := s.outstanding.eraseIdx i
          report := some (t, trb, result) }

/-- The number of TRBs of the transfers that are not reported. -/
def outstandingTRBs (s : ControlRun) : Nat := (s.outstanding.map Transfer.count).sum

/-- There is room for the transfer: with it at most 16 transfers and 31 TRBs are issued and not
reported. -/
def HasRoom (s : ControlRun) (t : Transfer) : Prop :=
  s.outstanding.length < 16 ∧ s.outstandingTRBs + t.count ≤ kControlSlots

/-- The ring has not come around to the TRBs of the transfer. Where events come in the order of the
ring, `HasRoom` is enough for that; a transfer that is reported out of order may be overtaken by those
that are issued after it. -/
def InTime (s : ControlRun) (t : Transfer) : Prop := s.pushed ≤ t.first + kControlSlots

/-- The event points to a TRB of the transfer, a success to the TRB that raises it. -/
def Reports (s : ControlRun) (trb : TransferEventTRB) (t : Transfer) : Prop :=
  (∃ k < t.count, trb.trbPointer = trbAddress s.bufPtr ((t.first + k) % kControlSlots)) ∧
    (trb.Succeeded → trb.trbPointer = s.reporting t.first)

/-- Transfers are issued where there is room, and events belong to outstanding transfers. -/
def Permitted (s : ControlRun) : ControlOp → Prop
  | .controlIn setupData buf len _ => s.HasRoom (s.next true setupData buf len)
  | .controlOut setupData buf len _ => s.HasRoom (s.next false setupData buf len)
  | .event i trb => ∃ t, s.outstanding[i]? = some t ∧ s.Reports trb t

/-- An event of success that was just handled led to the call that belongs to its transfer. -/
def Matched (s : ControlRun) : Prop :=
  ∀ t trb result, s.report = some (t, trb, result) → trb.Succeeded → result = t.completion trb

/-- The completion code of an event has a name. -/
def CodeNamed : ControlOp → Prop
  | .event _ trb => trb.completionCode.toNat < kTRBCompletionCodeNames
  | _ => True

/-- A transfer that succeeds had been registered. -/
def SucceedsRegistered (s : ControlRun) : ControlOp → Prop
  | .event i trb => ∀ t, s.outstanding[i]? = some t → trb.Succeeded → t.registered = true
  | _ => True

/-- A transfer that succeeds is reported before the ring comes around to it. -/
def SucceedsInTime (s : ControlRun) : ControlOp → Prop
  | .event i trb => ∀ t, s.outstanding[i]? = some t → trb.Succeeded → s.InTime t
  | _ => True

end ControlRun

/-! ## One call -/

namespace Transfer

theorem two_le_count (t : Transfer) : 2 ≤ t.count := by
  unfold count
  split_ifs <;> omega

theorem count_le (t : Transfer) : t.count ≤ 3 := by
  unfold count
  split_ifs <;> omega

end Transfer

namespace Ring

variable {ring : Ring} {bufPtr : BitVec 64} {n k : Nat} {trb : TRB}

/-- A TRB of the last lap is found at its address. -/
theorem Holds.deref (h : ring.Holds kControlSlots k trb) (hptr : ring.bufPtr = bufPtr) :
    ∃ cycle, ring.deref (trbAddress bufPtr (k % kControlSlots)) = some (trb.withCycle cycle) := by
  obtain ⟨cycle, hslot⟩ := h
  have hlt : k % kControlSlots < kControlSlots := Nat.mod_lt _ (by decide)
  refine ⟨cycle, ?_⟩
  rw [deref_trbAddress hptr, hslot]
  unfold sizeofTRB
  unfold kControlSlots at *
  omega

/-- A Setup Stage TRB that was just pushed is one. -/
theorem trbDynamicCast_setup (setup : SetupStageTRB) (hptr : ring.bufPtr = bufPtr)
    (h : ring.Holds kControlSlots n setup.data) :
    ring.trbDynamicCast SetupStageTRB.Type' (trbAddress bufPtr (n % kControlSlots)) =
      some (trbAddress bufPtr (n % kControlSlots)) := by
  obtain ⟨cycle, hderef⟩ := h.deref hptr
  unfold trbDynamicCast
  rw [hderef, Option.map_some, TRB.trbType_withCycle, SetupStageTRB.trbType_data, if_pos rfl]

/-- **The TRBs of a transfer** go into the next slots. -/
theorem At.pushControl (h : ring.At bufPtr kControlSlots n) (t : Transfer) (statusIn : Bool) :
    ∃ ring', ring.pushControl
        (if t.isIn then SetupStageTRB.kInDataStage else SetupStageTRB.kOutDataStage) t.isIn statusIn
        t.setupData t.buf t.len =
          some (trbAddress bufPtr ((n + 1) % kControlSlots),
            trbAddress bufPtr (n % kControlSlots), ring') ∧
      ring'.At bufPtr kControlSlots (n + t.count) ∧
      ring'.Holds kControlSlots n t.setupTRB ∧ ring'.Holds kControlSlots (n + 1) t.reportingTRB ∧
      ∀ k trb, k < n → n + t.count ≤ k + kControlSlots →
        ring.Holds kControlSlots k trb → ring'.Holds kControlSlots k trb := by
  have hK : 0 < kControlSlots := by decide
  have hslots : kControlSlots = 31 := rfl
  unfold Ring.pushControl Transfer.setupTRB Transfer.reportingTRB Transfer.count
  by_cases hbuf : t.buf ≠ 0
  · simp only [if_pos hbuf]
    obtain ⟨ring₁, heq₁, hat₁, hnew₁, hold₁⟩ := h.push hK (makeSetupStageTRB t.setupData
      (if t.isIn then SetupStageTRB.kInDataStage else SetupStageTRB.kOutDataStage)).data
    obtain ⟨ring₂, heq₂, hat₂, hnew₂, hold₂⟩ := hat₁.push hK
      { makeDataStageTRB t.buf t.len t.isIn with interruptOnCompletion := true : DataStageTRB }.data
    obtain ⟨ring₃, heq₃, hat₃, -, hold₃⟩ := hat₂.push hK
      { direction := statusIn : StatusStageTRB }.data
    refine ⟨ring₃, ?_, hat₃, ?_, ?_, fun k trb hk hlap hheld => ?_⟩
    · rw [heq₁, Option.bind_some, trbDynamicCast_setup _ hat₁.ptr hnew₁, Option.bind_some, heq₂,
        Option.bind_some, heq₃, Option.map_some]
    · exact hold₃ n _ (by omega) (by omega) (hold₂ n _ (by omega) (by omega) hnew₁)
    · exact hold₃ (n + 1) _ (by omega) (by omega) hnew₂
    · exact hold₃ k trb (by omega) (by omega) (hold₂ k trb (by omega) (by omega)
        (hold₁ k trb hk (by omega) hheld))
  · simp only [if_neg hbuf]
    obtain ⟨ring₁, heq₁, hat₁, hnew₁, hold₁⟩ := h.push hK
      (makeSetupStageTRB t.setupData SetupStageTRB.kNoDataStage).data
    obtain ⟨ring₂, heq₂, hat₂, hnew₂, hold₂⟩ := hat₁.push hK
      { direction := true, interruptOnCompletion := true : StatusStageTRB }.data
    refine ⟨ring₂, ?_, hat₂, ?_, hnew₂, fun k trb hk hlap hheld => ?_⟩
    · rw [heq₁, Option.bind_some, trbDynamicCast_setup _ hat₁.ptr hnew₁, Option.bind_some, heq₂,
        Option.map_some]
    · exact hold₂ n _ (by omega) (by omega) hnew₁
    · exact hold₂ k trb (by omega) (by omega) (hold₁ k trb hk (by omega) hheld)

end Ring

namespace TransferDevice

variable {dev : TransferDevice}

@[simp] theorem noteWaiter_transferRings (setupData : SetupData) (issuer : BitVec 64) :
    (dev.noteWaiter setupData issuer).transferRings = dev.transferRings := by
  unfold noteWaiter
  split_ifs <;> rfl

@[simp] theorem noteWaiter_setupStageMap (setupData : SetupData) (issuer : BitVec 64) :
    (dev.noteWaiter setupData issuer).setupStageMap = dev.setupStageMap := by
  unfold noteWaiter
  split_ifs <;> rfl

/-- **A call on the control endpoint** pushes the TRBs of the transfer and asks the map to keep where
its Setup Stage TRB is. -/
theorem control_spec {ring : Ring} {rest : List (Option Ring)} {bufPtr : BitVec 64} {n : Nat}
    (hrings : dev.transferRings = some ring :: rest) (h : ring.At bufPtr kControlSlots n)
    (t : Transfer) (statusIn : Bool) (issuer : BitVec 64) :
    ∃ ring' dev', control
        (if t.isIn then SetupStageTRB.kInDataStage else SetupStageTRB.kOutDataStage) t.isIn statusIn
        dev kDefaultControlPipeID t.setupData t.buf t.len issuer = some (.kSuccess, dev') ∧
      dev'.transferRings = some ring' :: rest ∧
      dev'.setupStageMap = dev.setupStageMap.put (trbAddress bufPtr ((n + 1) % kControlSlots))
        (trbAddress bufPtr (n % kControlSlots)) ∧
      ring'.At bufPtr kControlSlots (n + t.count) ∧
      ring'.Holds kControlSlots n t.setupTRB ∧ ring'.Holds kControlSlots (n + 1) t.reportingTRB ∧
      ∀ k trb, k < n → n + t.count ≤ k + kControlSlots →
        ring.Holds kControlSlots k trb → ring'.Holds kControlSlots k trb := by
  obtain ⟨ring', heq, hrest⟩ := h.pushControl t statusIn
  have hring : (dev.noteWaiter t.setupData issuer).transferRing
      (deviceContextIndex kDefaultControlPipeID) = some (some ring) := by
    unfold transferRing
    rw [noteWaiter_transferRings, hrings]
    rfl
  unfold control
  simp only [hring, Option.bind_some, heq, Option.map_some]
  rw [if_neg (by decide)]
  refine ⟨ring', _, rfl, ?_, ?_, hrest⟩
  · rw [noteWaiter_transferRings, hrings]
    rfl
  · rw [noteWaiter_setupStageMap]

end TransferDevice

/-! ## The invariant -/

/-- The TRBs of an outstanding transfer are on the ring until the ring comes around to them, and as
long the map has its entry iff it was registered. The value of an entry is determined by its key, so
that an entry that was left over is as good as a new one. -/
structure ControlInv (bufPtr : BitVec 64) (rest : List (Option Ring)) (s : ControlRun) : Prop where
  ptr : s.bufPtr = bufPtr
  ring : ∃ ring, s.device.transferRings = some ring :: rest ∧
    ring.At bufPtr kControlSlots s.pushed ∧ ∀ t ∈ s.outstanding, s.InTime t →
      ring.Holds kControlSlots t.first t.setupTRB ∧
        ring.Holds kControlSlots (t.first + 1) t.reportingTRB
  issued : ∀ t ∈ s.outstanding, t.first + 2 ≤ s.pushed
  apart : s.outstanding.Pairwise fun t u => t.first + 2 ≤ u.first
  values : ∀ key value, (some key, value) ∈ s.device.setupStageMap.table →
    ∃ k, key = trbAddress bufPtr ((k + 1) % kControlSlots) ∧
      value = trbAddress bufPtr (k % kControlSlots)
  registered : ∀ t ∈ s.outstanding, s.InTime t →
    (t.registered = true ↔ s.device.setupStageMap.Present (s.reporting t.first))

namespace ControlInv

variable {bufPtr : BitVec 64} {rest : List (Option Ring)} {s s' : ControlRun} {t u : Transfer}

theorem slot_address_inj {j k : Nat} :
    trbAddress bufPtr (j % kControlSlots) = trbAddress bufPtr (k % kControlSlots) ↔
      j % kControlSlots = k % kControlSlots := by
  have hj : j % kControlSlots < kControlSlots := Nat.mod_lt _ (by decide)
  have hk : k % kControlSlots < kControlSlots := Nat.mod_lt _ (by decide)
  apply trbAddress_inj
  · unfold sizeofTRB
    unfold kControlSlots at *
    omega
  · unfold sizeofTRB
    unfold kControlSlots at *
    omega

/-- Transfers of one lap are reported by different TRBs. -/
theorem reporting_ne (hlt : t.first < u.first) (hlap : u.first < t.first + kControlSlots) :
    s.reporting t.first ≠ s.reporting u.first := by
  unfold ControlRun.reporting
  rw [Ne, slot_address_inj]
  exact mod_ne_mod (by omega) (by omega)

/-- The value that the map has for the reporting TRB of a transfer. -/
theorem value_eq (h : ControlInv bufPtr rest s) {first : Nat} {value : BitVec 64}
    (hget : s.device.setupStageMap.get (s.reporting first) = some value) :
    value = trbAddress bufPtr (first % kControlSlots) := by
  obtain ⟨k, hkey, hvalue⟩ := h.values _ _ (ArrayMap.mem_of_get hget)
  unfold ControlRun.reporting at hkey
  rw [h.ptr, slot_address_inj] at hkey
  rw [hvalue, slot_address_inj]
  unfold kControlSlots at *
  omega

/-- A call registers its transfer if there is room for the key, and changes nothing for the others
that the ring has not come around to. -/
theorem registered_issue (h : ControlInv bufPtr rest s) {isIn : Bool} {setupData : SetupData}
    {buf : BitVec 64} {len : BitVec 32} (ht : t = s.next isIn setupData buf len)
    (hu : u ∈ s.outstanding ++ [t]) (hlap : s.pushed + t.count ≤ u.first + kControlSlots)
    (value : BitVec 64) :
    u.registered = true ↔
      (s.device.setupStageMap.put (s.reporting s.pushed) value).Present (s.reporting u.first) := by
  have hfirst : t.first = s.pushed := by rw [ht]; rfl
  have hcount := t.two_le_count
  rw [ArrayMap.present_put]
  rcases List.mem_append.mp hu with hu | hu
  · have hissued := h.issued u hu
    have hin : s.InTime u := Nat.le_trans (Nat.le_add_right _ _) hlap
    have hne : s.reporting u.first ≠ s.reporting t.first := reporting_ne (by omega) (by omega)
    rw [hfirst] at hne
    rw [h.registered u hu hin]
    exact ⟨Or.inl, fun hpresent => hpresent.resolve_right fun hand => hne hand.2⟩
  · rcases List.mem_singleton.mp hu with rfl
    have hregistered : u.registered = decide (s.device.setupStageMap.HasFree ∨
        s.device.setupStageMap.Present (s.reporting s.pushed)) := by rw [ht]; rfl
    rw [hregistered, decide_eq_true_iff, hfirst, or_comm]
    simp only [and_true]

/-- **A call keeps the invariant.** The transfers that it overtakes are not in time any more. -/
theorem issue (h : ControlInv bufPtr rest s) {isIn : Bool} {setupData : SetupData}
    {buf : BitVec 64} {len : BitVec 32} (statusIn : Bool) (issuer : BitVec 64)
    (ht : t = s.next isIn setupData buf len) :
    ∃ s', s.issue t (s.device.control
        (if t.isIn then SetupStageTRB.kInDataStage else SetupStageTRB.kOutDataStage) t.isIn statusIn
        kDefaultControlPipeID t.setupData t.buf t.len issuer) = some s' ∧
      ControlInv bufPtr rest s' := by
  obtain ⟨ring, hrings, hat, hheld⟩ := h.ring
  obtain ⟨ring', dev', heq, hrings', hmap', hat', hsetup, hreporting, hold⟩ :=
    TransferDevice.control_spec hrings hat t statusIn issuer
  have hfirst : t.first = s.pushed := by rw [ht]; rfl
  have hcount := t.two_le_count
  have hkey : trbAddress bufPtr ((s.pushed + 1) % kControlSlots) = s.reporting s.pushed := by
    unfold ControlRun.reporting
    rw [h.ptr]
  unfold ControlRun.issue
  rw [heq, Option.map_some]
  refine ⟨_, rfl, h.ptr, ⟨ring', hrings', hat', fun u hu hin => ?_⟩, fun u hu => ?_, ?_,
    fun key value hmem => ?_, fun u hu hin => ?_⟩
  · have hlap : s.pushed + t.count ≤ u.first + kControlSlots := hin
    rcases List.mem_append.mp hu with hu | hu
    · have hissued := h.issued u hu
      obtain ⟨hfirst', hsecond'⟩ := hheld u hu (Nat.le_trans (Nat.le_add_right _ _) hlap)
      exact ⟨hold _ _ (by omega) hlap hfirst', hold _ _ (by omega) (by omega) hsecond'⟩
    · rcases List.mem_singleton.mp hu with rfl
      rw [hfirst]
      exact ⟨hsetup, hreporting⟩
  · show u.first + 2 ≤ s.pushed + t.count
    rcases List.mem_append.mp hu with hu | hu
    · have hissued := h.issued u hu
      omega
    · rcases List.mem_singleton.mp hu with rfl
      omega
  · refine List.pairwise_append.mpr ⟨h.apart, List.pairwise_singleton _ _, fun u hu v hv => ?_⟩
    rcases List.mem_singleton.mp hv with rfl
    rw [hfirst]
    exact h.issued u hu
  · have hmem' : (some key, value) ∈ (s.device.setupStageMap.put
        (trbAddress bufPtr ((s.pushed + 1) % kControlSlots))
        (trbAddress bufPtr (s.pushed % kControlSlots))).table := hmap' ▸ hmem
    rcases ArrayMap.mem_put hmem' with hmem' | ⟨hkey, hvalue⟩
    · exact h.values key value hmem'
    · exact ⟨s.pushed, hkey, hvalue⟩
  · show u.registered = true ↔ dev'.setupStageMap.Present (s.reporting u.first)
    rw [hmap', hkey]
    exact h.registered_issue ht hu hin _

/-- There is a TRB in every slot of the ring. -/
theorem exists_trbAt (h : ControlInv bufPtr rest s) (k : Nat) :
    ∃ trb, s.device.trbAt (trbAddress bufPtr (k % kControlSlots)) = some trb := by
  obtain ⟨ring, hrings, hat, -⟩ := h.ring
  have hlt : k % kControlSlots < kControlSlots := Nat.mod_lt _ (by decide)
  have hin : k % kControlSlots < ring.buf.length := by
    rw [hat.length]
    omega
  refine ⟨ring.buf[k % kControlSlots], ?_⟩
  unfold TransferDevice.trbAt
  rw [hrings, List.findSome?_cons, Option.bind_some, Ring.deref_trbAddress hat.ptr,
    List.getElem?_eq_getElem hin]
  unfold sizeofTRB
  unfold kControlSlots at hlt ⊢
  omega

/-- The log of an event that points into the ring needs the name of its completion code. -/
theorem log_eq (h : ControlInv bufPtr rest s) {trb : TransferEventTRB} {k : Nat}
    (hpointer : trb.trbPointer = trbAddress bufPtr (k % kControlSlots))
    (hnamed : trb.completionCode.toNat < kTRBCompletionCodeNames) :
    s.device.logTransferEvent trb = some () := by
  obtain ⟨issuerTrb, hissuer⟩ := h.exists_trbAt k
  rw [TransferDevice.logTransferEvent_iff, hpointer, hissuer]
  exact ⟨hnamed, Or.inr rfl⟩

/-- An event of success that points to the TRB that raises it can be logged. -/
theorem log_of_succeeded (h : ControlInv bufPtr rest s) {trb : TransferEventTRB} {first : Nat}
    (hsuccess : trb.Succeeded) (hpointer : trb.trbPointer = s.reporting first) :
    s.device.logTransferEvent trb = some () := by
  refine h.log_eq (k := first + 1) ?_ hsuccess.named
  rw [hpointer, ← h.ptr]
  rfl

/-- The TRBs of an outstanding transfer are found at their addresses. -/
theorem trbAt_eq (h : ControlInv bufPtr rest s) (ht : t ∈ s.outstanding) (hin : s.InTime t)
    (map : ArrayMap _ _ 16) :
    (∃ cycle, s.device.trbAt (s.reporting t.first) = some (t.reportingTRB.withCycle cycle)) ∧
      ∃ cycle, { s.device with setupStageMap := map }.trbAt
        (trbAddress bufPtr (t.first % kControlSlots)) = some (t.setupTRB.withCycle cycle) := by
  obtain ⟨ring, hrings, hat, hheld⟩ := h.ring
  obtain ⟨hsetup, hreporting⟩ := hheld t ht hin
  obtain ⟨cycle, hderef⟩ := hreporting.deref hat.ptr
  obtain ⟨cycle', hderef'⟩ := hsetup.deref hat.ptr
  unfold TransferDevice.trbAt ControlRun.reporting
  refine ⟨⟨cycle, ?_⟩, cycle', ?_⟩
  · rw [hrings, h.ptr, List.findSome?_cons, Option.bind_some, hderef]
  · show s.device.transferRings.findSome? _ = _
    rw [hrings, List.findSome?_cons, Option.bind_some, hderef']

/-- **An event** that can be logged: a failure changes nothing, and a success in time is matched with
its transfer iff this had been registered. -/
theorem onTransferEventReceived_spec (h : ControlInv bufPtr rest s) (ht : t ∈ s.outstanding)
    {trb : TransferEventTRB} (hlog : s.device.logTransferEvent trb = some ())
    (hpointer : trb.Succeeded → trb.trbPointer = s.reporting t.first)
    (hin : trb.Succeeded → s.InTime t) :
    ∃ result dev, s.device.onTransferEventReceived trb = some (result, dev) ∧
      dev.transferRings = s.device.transferRings ∧
      (dev.setupStageMap = s.device.setupStageMap ∨ trb.Succeeded ∧
        dev.setupStageMap = s.device.setupStageMap.delete (s.reporting t.first)) ∧
      (trb.Succeeded → (result = t.completion trb ↔ t.registered = true)) := by
  unfold TransferDevice.onTransferEventReceived
  simp only [hlog, Option.bind_some]
  by_cases hsuccess : trb.Succeeded
  · have hcode : ¬(trb.completionCode ≠ 1 ∧ trb.completionCode ≠ 13) := by
      rintro ⟨hone, hthirteen⟩
      rcases hsuccess with hcode | hcode
      · exact hone hcode
      · exact hthirteen hcode
    obtain ⟨⟨cycle, hissuer⟩, cycle', hsetup⟩ :=
      h.trbAt_eq ht (hin hsuccess) (s.device.setupStageMap.delete (s.reporting t.first))
    have htype : t.reportingTRB.trbType ≠ NormalTRB.Type' := by
      rw [t.trbType_reportingTRB]
      split_ifs <;> decide
    rw [if_neg hcode, hpointer hsuccess, hissuer, Option.bind_some, TRB.trbType_withCycle,
      if_neg htype]
    by_cases hregistered : t.registered = true
    · obtain ⟨value, hget⟩ := ArrayMap.exists_get ((h.registered t ht (hin hsuccess)).mp hregistered)
      rw [hget]
      simp only
      rw [h.value_eq hget, hsetup, Option.map_some, t.setupData_setupTRB cycle']
      by_cases hbuf : t.buf ≠ 0
      · have hdata : t.reportingTRB.trbType = DataStageTRB.Type' := by
          rw [t.trbType_reportingTRB, if_pos hbuf]
        obtain ⟨hpointer', hlength⟩ := t.buffer_reportingTRB hbuf cycle
        rw [if_pos hdata, hpointer', hlength]
        refine ⟨_, _, rfl, rfl, Or.inr ⟨hsuccess, rfl⟩, fun _ => iff_of_true ?_ hregistered⟩
        unfold Transfer.completion
        rw [if_pos hbuf]
      · have hstatus : t.reportingTRB.trbType = StatusStageTRB.Type' := by
          rw [t.trbType_reportingTRB, if_neg hbuf]
        rw [if_neg (by rw [hstatus]; decide), if_pos hstatus]
        refine ⟨_, _, rfl, rfl, Or.inr ⟨hsuccess, rfl⟩, fun _ => iff_of_true ?_ hregistered⟩
        unfold Transfer.completion
        rw [if_neg hbuf, not_not.mp hbuf]
    · have hget := ArrayMap.get_eq_none_iff.mpr fun hpresent =>
        hregistered ((h.registered t ht (hin hsuccess)).mpr hpresent)
      rw [hget]
      refine ⟨_, _, rfl, rfl, Or.inl rfl, fun _ => iff_of_false ?_ hregistered⟩
      unfold Transfer.completion
      exact fun heq => nomatch heq
  · rw [if_pos (by unfold TransferEventTRB.Succeeded at hsuccess; exact not_or.mp hsuccess)]
    exact ⟨_, _, rfl, rfl, Or.inl rfl, fun hand => absurd hand hsuccess⟩

/-- The other outstanding transfers in time are reported by other TRBs. -/
theorem reporting_ne_of_mem_eraseIdx (h : ControlInv bufPtr rest s) {i : Nat}
    (ht : s.outstanding[i]? = some t) (hin : s.InTime t) (hu : u ∈ s.outstanding.eraseIdx i)
    (hin' : s.InTime u) : s.reporting u.first ≠ s.reporting t.first := by
  obtain ⟨j, hne, hj⟩ := List.mem_eraseIdx_iff_getElem?.mp hu
  obtain ⟨hi', rfl⟩ := List.getElem?_eq_some_iff.mp ht
  obtain ⟨hj', rfl⟩ := List.getElem?_eq_some_iff.mp hj
  have hapart := List.pairwise_iff_getElem.mp h.apart
  have hissued := h.issued _ (List.getElem_mem hi')
  have hissued' := h.issued _ (List.getElem_mem hj')
  unfold ControlRun.InTime at hin hin'
  rcases Nat.lt_or_gt_of_ne hne with hlt | hgt
  · have hbefore := hapart j i hj' hi' hlt
    exact reporting_ne (by omega) (by omega)
  · have hbefore := hapart i j hi' hj' hgt
    exact (reporting_ne (by omega) (by omega)).symm

/-- **An event keeps the invariant.** -/
theorem event (h : ControlInv bufPtr rest s) {i : Nat} {trb : TransferEventTRB}
    (ht : s.outstanding[i]? = some t) (hlog : s.device.logTransferEvent trb = some ())
    (hpointer : trb.Succeeded → trb.trbPointer = s.reporting t.first)
    (hin : trb.Succeeded → s.InTime t) :
    ∃ s', s.step (.event i trb) = some s' ∧ ControlInv bufPtr rest s' ∧
      (s'.Matched ↔ (trb.Succeeded → t.registered = true)) := by
  obtain ⟨result, dev, heq, hrings', hmap', hresult⟩ :=
    h.onTransferEventReceived_spec (List.mem_of_getElem? ht) hlog hpointer hin
  obtain ⟨ring, hrings, hat, hheld⟩ := h.ring
  have hmem : ∀ u ∈ s.outstanding.eraseIdx i, u ∈ s.outstanding :=
    fun u hu => List.mem_of_mem_eraseIdx hu
  simp only [ControlRun.step, ht, Option.bind_some, heq, Option.map_some]
  refine ⟨_, rfl, ⟨h.ptr, ⟨ring, hrings'.trans hrings, hat, fun u hu => hheld u (hmem u hu)⟩,
    fun u hu => h.issued u (hmem u hu), h.apart.sublist (List.eraseIdx_sublist _ _),
    fun key value hentry => ?_, fun u hu hinTime => ?_⟩, ?_⟩
  · rcases hmap' with hsame | ⟨-, hdelete⟩
    · exact h.values key value (hsame ▸ hentry)
    · have hentry' : (some key, value) ∈
          (s.device.setupStageMap.delete (s.reporting t.first)).table := hdelete ▸ hentry
      exact h.values key value (ArrayMap.mem_delete hentry')
  · show u.registered = true ↔ dev.setupStageMap.Present (s.reporting u.first)
    rw [h.registered u (hmem u hu) hinTime]
    rcases hmap' with hsame | ⟨hsuccess, hdelete⟩
    · rw [hsame]
    · rw [hdelete, ArrayMap.present_delete
        (h.reporting_ne_of_mem_eraseIdx ht (hin hsuccess) hu hinTime)]
  · constructor
    · intro hmatched hsuccess
      exact (hresult hsuccess).mp (hmatched t trb result rfl hsuccess)
    · intro hregistered t' trb' result' hreport hsuccess
      cases hreport
      exact (hresult hsuccess).mpr (hregistered hsuccess)

end ControlInv

/-- A step is logged if it is an event. -/
def ControlRun.Logged (s : ControlRun) : ControlOp → Prop
  | .event _ trb => s.device.logTransferEvent trb = some ()
  | _ => True

/-- What the step lemma asks of a step: an event can be logged, and a success is reported in time. -/
def ControlRun.Sound (s : ControlRun) (op : ControlOp) : Prop :=
  s.Permitted op ∧ s.Logged op ∧ s.SucceedsInTime op

/-- **The step lemma.** -/
theorem controlInv_preserved (bufPtr : BitVec 64) (rest : List (Option Ring)) :
    Preserves ControlRun.step (fun s op => s.Sound op) (ControlInv bufPtr rest) := by
  intro s op h hop
  cases op with
  | controlIn setupData buf len issuer => exact h.issue false issuer rfl
  | controlOut setupData buf len issuer => exact h.issue true issuer rfl
  | event i trb =>
      obtain ⟨⟨t, ht, -, hpointer⟩, hlog, hin⟩ := hop
      obtain ⟨s', hs', hinv, -⟩ := h.event ht hlog hpointer (hin t ht)
      exact ⟨s', hs', hinv⟩

/-- One step is matched iff it is not the success of a transfer that was not registered. -/
theorem matched_iff {bufPtr : BitVec 64} {rest : List (Option Ring)} {s s' : ControlRun}
    {op : ControlOp} (h : ControlInv bufPtr rest s) (hop : s.Sound op)
    (hs : s.step op = some s') : s'.Matched ↔ s.SucceedsRegistered op := by
  cases op with
  | controlIn setupData buf len issuer =>
      obtain ⟨_, -, rfl⟩ := Option.map_eq_some_iff.mp hs
      refine iff_of_true (fun t trb result hreport => ?_) trivial
      cases hreport
  | controlOut setupData buf len issuer =>
      obtain ⟨_, -, rfl⟩ := Option.map_eq_some_iff.mp hs
      refine iff_of_true (fun t trb result hreport => ?_) trivial
      cases hreport
  | event i trb =>
      obtain ⟨⟨t, ht, -, hpointer⟩, hlog, hin⟩ := hop
      obtain ⟨s'', hs'', -, hiff⟩ := h.event ht hlog hpointer (hin t ht)
      rw [hs] at hs''
      cases hs''
      rw [hiff]
      refine ⟨fun hregistered t' ht' => ?_, fun hregistered => hregistered t ht⟩
      rw [ht] at ht'
      cases ht'
      exact hregistered

/-- An event that is handled was logged. -/
theorem TransferDevice.log_of_onTransferEventReceived {dev : TransferDevice}
    {trb : TransferEventTRB} {r : TransferResult × TransferDevice}
    (h : dev.onTransferEventReceived trb = some r) : dev.logTransferEvent trb = some () :=
  (Option.bind_eq_some_iff.mp h).elim fun _ hlog => hlog.1

/-- **An event can be logged** iff its completion code has a name. -/
theorem ControlInv.logged_iff {bufPtr : BitVec 64} {rest : List (Option Ring)} {s : ControlRun}
    {op : ControlOp} (h : ControlInv bufPtr rest s) (hop : s.Permitted op) :
    s.Logged op ↔ ControlRun.CodeNamed op := by
  cases op with
  | controlIn setupData buf len issuer => exact Iff.rfl
  | controlOut setupData buf len issuer => exact Iff.rfl
  | event i trb =>
      obtain ⟨t, -, ⟨k, -, hpointer⟩, -⟩ := hop
      rw [h.ptr] at hpointer
      exact ⟨fun hlog => (TransferDevice.logTransferEvent_iff.mp hlog).1, h.log_eq hpointer⟩

/-- A step that is defined was logged. -/
theorem ControlRun.logged_of_step {s s' : ControlRun} {op : ControlOp} (h : s.step op = some s') :
    s.Logged op := by
  cases op with
  | controlIn setupData buf len issuer => exact trivial
  | controlOut setupData buf len issuer => exact trivial
  | event i trb =>
      obtain ⟨t, -, h⟩ := Option.bind_eq_some_iff.mp h
      obtain ⟨r, hr, -⟩ := Option.map_eq_some_iff.mp h
      exact TransferDevice.log_of_onTransferEventReceived hr

/-- A device whose control endpoint was just set up, with other transfer rings or without. -/
structure ControlRun.Start (s : ControlRun) (rest : List (Option Ring)) : Prop where
  rings : s.device.transferRings =
    some (Ring.initializeRing (kControlSlots + 1) (some s.bufPtr)).2 :: rest
  map : s.device.setupStageMap = ArrayMap.empty _ _ 0
  pushed : s.pushed = 0
  outstanding : s.outstanding = []
  report : s.report = none

theorem controlInv_start {s : ControlRun} {rest : List (Option Ring)} (h : s.Start rest) :
    ControlInv s.bufPtr rest s := by
  have hnone : ∀ t ∈ s.outstanding, False := by
    rw [h.outstanding]
    exact fun t ht => absurd ht List.not_mem_nil
  refine ⟨rfl, ⟨_, h.rings, ?_, fun t ht => (hnone t ht).elim⟩, fun t ht => (hnone t ht).elim, ?_,
    fun key value hmem => ?_, fun t ht => (hnone t ht).elim⟩
  · rw [h.pushed]
    exact ⟨rfl, rfl, List.length_replicate, (Nat.zero_mod _).symm⟩
  · rw [h.outstanding]
    exact List.Pairwise.nil
  · rw [h.map] at hmem
    cases List.eq_of_mem_replicate hmem

namespace ControlRun

/-- The calls and events of a run are defined, and every event of success in it is matched. -/
def MatchedThroughout (s : ControlRun) (ops : List ControlOp) : Prop :=
  ∀ pre, pre <+: ops → ∃ s', run step s pre = some s' ∧ s'.Matched

/-- What an event needs: a name for its completion code, and on success a transfer that had been
registered and is reported before the ring comes around to it. -/
def Meets (s : ControlRun) (op : ControlOp) : Prop :=
  (CodeNamed op ∧ s.SucceedsRegistered op) ∧ s.SucceedsInTime op

/-- What is permitted while successes are reported in time. -/
def PermittedInTime (s : ControlRun) (op : ControlOp) : Prop := s.Permitted op ∧ s.SucceedsInTime op

variable {s : ControlRun} {rest : List (Option Ring)} {ops : List ControlOp}

/-- **Among the runs in time** the names and the registrations decide. -/
theorem matchedThroughout_iff (hstart : s.Start rest)
    (hops : Admits step (fun s op => s.PermittedInTime op) s ops) :
    s.MatchedThroughout ops ↔
      Admits step (fun s op => CodeNamed op ∧ s.SucceedsRegistered op) s ops := by
  have hinv := controlInv_start hstart
  have hpreserved := controlInv_preserved s.bufPtr rest
  have hmatched : s.Matched := by
    intro t trb result hreport
    rw [hstart.report] at hreport
    cases hreport
  have hkeeps : Keeps step (fun s op => s.PermittedInTime op) (ControlInv s.bufPtr rest) :=
    fun s op s' h hop hs => hpreserved.keeps s op s' h ⟨hop.1, logged_of_step hs, hop.2⟩ hs
  have hiff : ∀ x op, ControlInv s.bufPtr rest x ∧ x.Matched → x.PermittedInTime op →
      ((∃ x', step x op = some x' ∧ ControlInv s.bufPtr rest x' ∧ x'.Matched) ↔
        CodeNamed op ∧ x.SucceedsRegistered op) := by
    rintro x op ⟨h, -⟩ ⟨hpermitted, hin⟩
    constructor
    · rintro ⟨x', hs, -, hgood⟩
      have hlogged := logged_of_step hs
      exact ⟨(h.logged_iff hpermitted).mp hlogged,
        (matched_iff h ⟨hpermitted, hlogged, hin⟩ hs).mp hgood⟩
    · rintro ⟨hnamed, hregistered⟩
      have hsound : x.Sound op := ⟨hpermitted, (h.logged_iff hpermitted).mpr hnamed, hin⟩
      obtain ⟨x', hs, hinv'⟩ := hpreserved x op h hsound
      exact ⟨x', hs, hinv', (matched_iff h hsound hs).mpr hregistered⟩
  rw [← forall_prefix_defined_iff_admits hiff ⟨hinv, hmatched⟩ hops]
  refine forall_congr' fun pre => forall_congr' fun hpre => exists_congr fun s' => ?_
  refine and_congr_right fun hrun => (and_iff_right ?_).symm
  exact run_of_keeps hkeeps hinv (hops.of_prefix hpre) hrun

end ControlRun

/-- **Control transfers are matched with their own setup data if they were registered and are reported
in time.** For every run of a control endpoint, with at most 16 transfers and 31 TRBs issued and not
reported, events in any order and with any completion codes, around the ring any number of times: all
calls and events are defined, and every event of success makes `OnTransferEventReceived` call
`OnControlCompleted` with the request, the values and the buffer of its transfer, if every completion
code has a name and each transfer that succeeds was issued while `setup_stage_map_` had a free slot, or
a slot left over with the same key, and is reported before 31 TRBs have been pushed from its first one
on. Among the runs in which successes are reported that early nothing less will do. -/
theorem control_transfers_matched_iff {s : ControlRun} {rest : List (Option Ring)}
    (hstart : s.Start rest) {ops : List ControlOp}
    (hops : Admits ControlRun.step (fun s op => s.Permitted op) s ops) :
    (Admits ControlRun.step (fun s op => s.Meets op) s ops → s.MatchedThroughout ops) ∧
      (Admits ControlRun.step (fun s op => s.SucceedsInTime op) s ops →
        (s.MatchedThroughout ops ↔ Admits ControlRun.step (fun s op => s.Meets op) s ops)) := by
  have hiff : Admits ControlRun.step (fun s op => s.SucceedsInTime op) s ops →
      (s.MatchedThroughout ops ↔ Admits ControlRun.step (fun s op => s.Meets op) s ops) := by
    intro hin
    rw [ControlRun.matchedThroughout_iff hstart (hops.and hin)]
    exact ⟨fun hmeets => hmeets.and hin, fun hmeets => hmeets.mono fun _ _ => And.left⟩
  exact ⟨fun hmeets => (hiff (hmeets.mono fun _ _ => And.right)).mpr hmeets, hiff⟩

/-! ## Short runs -/

instance ControlRun.decidableHasRoom (s : ControlRun) (t : Transfer) : Decidable (s.HasRoom t) :=
  inferInstanceAs (Decidable (_ ∧ _))

instance ControlRun.decidableReports (s : ControlRun) (trb : TransferEventTRB) (t : Transfer) :
    Decidable (s.Reports trb t) :=
  inferInstanceAs (Decidable (_ ∧ _))

instance ControlRun.decidablePermitted (s : ControlRun) :
    (op : ControlOp) → Decidable (s.Permitted op)
  | .controlIn setupData buf len _ => s.decidableHasRoom (s.next true setupData buf len)
  | .controlOut setupData buf len _ => s.decidableHasRoom (s.next false setupData buf len)
  | .event i trb => decidable_of_iff (∃ t ∈ s.outstanding[i]?, s.Reports trb t) Iff.rfl

instance ControlRun.decidableMeets (s : ControlRun) : (op : ControlOp) → Decidable (s.Meets op)
  | .controlIn _ _ _ _ | .controlOut _ _ _ _ => isTrue ⟨⟨trivial, trivial⟩, trivial⟩
  | .event i trb =>
      decidable_of_iff (trb.completionCode.toNat < kTRBCompletionCodeNames ∧
          ∀ t ∈ s.outstanding[i]?, trb.Succeeded →
            t.registered = true ∧ s.pushed ≤ t.first + kControlSlots) <| by
        constructor
        · rintro ⟨hnamed, hboth⟩
          exact ⟨⟨hnamed, fun t ht hs => (hboth t ht hs).1⟩, fun t ht hs => (hboth t ht hs).2⟩
        · rintro ⟨⟨hnamed, hregistered⟩, hin⟩
          exact ⟨hnamed, fun t ht hs => ⟨hregistered t ht hs, hin t ht hs⟩⟩

/-- A device whose control endpoint was just set up, with the ring at an address of its own. -/
def controlStart : ControlRun where
  device := {
    transferRings :=
      some (Ring.initializeRing (kControlSlots + 1) (some 0x1000)).2 :: List.replicate 30 none
    setupStageMap := .empty _ _ 0
    eventWaiters := .empty _ _ 0 }
  bufPtr := 0x1000

theorem controlStart_start : controlStart.Start (List.replicate 30 none) := ⟨rfl, rfl, rfl, rfl, rfl⟩

/-- A request of the descriptor of the device. -/
def getDescriptorData : SetupData := ⟨0x80, 6, 0x100, 0, 18⟩

/-- A request to set the configuration. -/
def setConfigurationData : SetupData := ⟨0, 9, 1, 0, 0⟩

/-- A transfer with a data stage that succeeds, and one without that fails. -/
def shortControlOps : List ControlOp :=
  [.controlIn getDescriptorData 0x8000 18 0, .event 0 ⟨0x1010, 0, 1, false, 1⟩,
    .controlOut setConfigurationData 0 0 0, .event 0 ⟨0x1040, 0, 6, false, 1⟩]

theorem control_transfers_matched_iff_shortControlOps :
    controlStart.MatchedThroughout shortControlOps :=
  (control_transfers_matched_iff controlStart_start (by decide +kernel)).1 (by decide +kernel)

/-- Transfers without a data stage from the first ring slot `first` on, each of which fails before the
next one is issued. -/
def failingOps (n : Nat) : List ControlOp :=
  (List.range n).flatMap fun k => [.controlOut setConfigurationData 0 0 0,
    .event 0 ⟨trbAddress 0x1000 ((2 * k + 1) % kControlSlots), 0, 6, false, 1⟩]

/-- Sixteen transfers fail; the seventeenth succeeds. -/
def seventeenthOps : List ControlOp :=
  failingOps 16 ++ [.controlOut setConfigurationData 0 0 0, .event 0 ⟨0x1020, 0, 1, false, 1⟩]

/-- **The seventeenth transfer is not matched**: the entries of the failed ones fill the map. -/
theorem control_transfer_not_matched :
    Admits ControlRun.step (fun s op => s.Permitted op) controlStart seventeenthOps ∧
      ∃ s' t trb, run ControlRun.step controlStart seventeenthOps = some s' ∧ trb.Succeeded ∧
        s'.report = some (t, trb, .error .kNoCorrespondingSetupStage) ∧ ¬s'.Matched := by
  have hreport : (run ControlRun.step controlStart seventeenthOps).bind (fun s' =>
      s'.report.map fun (_, trb, result) => (decide trb.Succeeded, result)) =
        some (true, .error .kNoCorrespondingSetupStage) := by decide +kernel
  obtain ⟨s', hs', hreport⟩ := Option.bind_eq_some_iff.mp hreport
  obtain ⟨⟨t, trb, result⟩, hreport, heq⟩ := Option.map_eq_some_iff.mp hreport
  obtain ⟨hsuccess, rfl⟩ := Prod.mk.inj heq
  refine ⟨by decide +kernel, s', t, trb, hs', of_decide_eq_true hsuccess, hreport, fun hmatched => ?_⟩
  have hresult := hmatched t trb _ hreport (of_decide_eq_true hsuccess)
  unfold Transfer.completion at hresult
  exact nomatch hresult

end UhyokOS
