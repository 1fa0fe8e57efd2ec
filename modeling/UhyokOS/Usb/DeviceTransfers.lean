import UhyokOS.Usb.InterruptTransfer

/-!
# The transfers of a device

The control transfers and the transfer rings of a device with interrupt transfers in flight.

* `TransfersSound.issue`: a call of `ControlIn` or `ControlOut` succeeds, and the transfer is found.
* `TransfersSound.event`: an event hands its own transfer to `OnControlCompleted`, or is a failure.
* `TransfersSound.interruptIn` and `TransfersSound.allocTransferRing`: the same for the other rings.
-/

namespace UhyokOS

open CycleRing

/-! ## Slots in use -/

namespace ArrayMap

variable {K V : Type} {N : Nat} {m : ArrayMap K V N} {key : K} {value : V}

/-- The number of slots in use. -/
def used (m : ArrayMap K V N) : Nat := (occupied m.table).length

theorem hasFree_of_used_lt (h : m.used < N) : m.HasFree := by
  by_contra hfull
  have hslots : ∀ slots : List (Option K × V), (¬∃ slot ∈ slots, slot.1 = none) →
      (occupied slots).length = slots.length := by
    intro slots hfull
    unfold occupied
    induction slots with
    | nil => rfl
    | cons slot slots ih =>
        rw [List.exists_mem_cons_iff] at hfull
        obtain ⟨hhead, htail⟩ := not_or.mp hfull
        obtain ⟨key, hkey⟩ := Option.ne_none_iff_exists'.mp hhead
        rw [List.filterMap_cons_some hkey, List.length_cons, List.length_cons, ih htail]
  have hused : m.used = N := (hslots m.table hfull).trans m.size
  exact absurd hused (Nat.ne_of_lt h)

theorem used_put_le (key : K) (value : V) : (m.put key value).used ≤ m.used + 1 := by
  unfold used
  by_cases hfree : m.HasFree
  · obtain ⟨before, behind, hbefore, hafter⟩ := occupied_put hfree key value
    rw [hbefore, hafter]
    simp [Nat.add_assoc]
  · show (occupied (putSlots key value m.table)).length ≤ _
    rcases putSlots_cases key value m.table with ⟨-, heq⟩ | ⟨pre, old, post, hsplit, -⟩
    · rw [heq]
      exact Nat.le_succ _
    · exact absurd ⟨(none, old), hsplit ▸ List.mem_append_right _ List.mem_cons_self, rfl⟩ hfree

theorem used_delete [DecidableEq K] (h : m.Present key) : (m.delete key).used + 1 = m.used := by
  unfold used
  show (occupied (deleteSlots key m.table)).length + 1 = _
  rcases deleteSlots_cases key m.table with ⟨hother, -⟩ | ⟨pre, value, post, hsplit, heq⟩
  · obtain ⟨slot, hmem, hkey⟩ := h
    exact absurd hkey (hother slot hmem)
  · rw [heq, hsplit]
    simp [occupied, Nat.add_assoc]

end ArrayMap

/-! ## One event -/

/-- **What `OnTransferEventReceived` does to the device**: it deletes the entry it has found. -/
theorem TransferDevice.onTransferEventReceived_frame {dev dev' : TransferDevice}
    {trb : TransferEventTRB} {result : TransferResult}
    (h : dev.onTransferEventReceived trb = some (result, dev')) :
    dev'.transferRings = dev.transferRings ∧ dev'.eventWaiters = dev.eventWaiters ∧
      (¬trb.Succeeded → result = .error .kTransferFailed ∧ dev' = dev) ∧
      ∀ epId setupData buf len, result = .controlCompleted epId setupData buf len →
        dev.setupStageMap.Present trb.trbPointer ∧
          dev'.setupStageMap = dev.setupStageMap.delete trb.trbPointer := by
  unfold onTransferEventReceived at h
  obtain ⟨-, -, h⟩ := Option.bind_eq_some_iff.mp h
  split_ifs at h with hcode
  · cases h
    exact ⟨rfl, rfl, fun _ => ⟨rfl, rfl⟩, fun _ _ _ _ heq => TransferResult.noConfusion heq⟩
  · have hsuccess : trb.Succeeded := by
      rcases not_and_or.mp hcode with hone | hthirteen
      · exact Or.inl (not_not.mp hone)
      · exact Or.inr (not_not.mp hthirteen)
    obtain ⟨issuer, -, h⟩ := Option.bind_eq_some_iff.mp h
    by_cases hnormal : issuer.trbType = NormalTRB.Type'
    · rw [if_pos hnormal] at h
      cases h
      exact ⟨rfl, rfl, fun hfail => absurd hsuccess hfail,
        fun _ _ _ _ heq => TransferResult.noConfusion heq⟩
    · rw [if_neg hnormal] at h
      cases hget : dev.setupStageMap.get trb.trbPointer with
      | none =>
          rw [hget] at h
          cases h
          exact ⟨rfl, rfl, fun hfail => absurd hsuccess hfail,
        fun _ _ _ _ heq => TransferResult.noConfusion heq⟩
      | some position =>
          rw [hget] at h
          obtain ⟨setup, -, h⟩ := Option.map_eq_some_iff.mp h
          have hpresent : dev.setupStageMap.Present trb.trbPointer :=
            ⟨_, ArrayMap.mem_of_get hget, rfl⟩
          split_ifs at h
          · cases h
            exact ⟨rfl, rfl, fun hfail => absurd hsuccess hfail,
              fun _ _ _ _ _ => ⟨hpresent, rfl⟩⟩
          · cases h
            exact ⟨rfl, rfl, fun hfail => absurd hsuccess hfail,
              fun _ _ _ _ _ => ⟨hpresent, rfl⟩⟩
          · cases h
            exact ⟨rfl, rfl, fun hfail => absurd hsuccess hfail,
              fun _ _ _ _ heq => TransferResult.noConfusion heq⟩

/-- A call on the control endpoint notes the waiter and nobody else. -/
theorem TransferDevice.control_eventWaiters {dev dev' : TransferDevice} {dataStage : BitVec 2}
    {dirIn statusIn : Bool} {epId : EndpointID} {setupData : SetupData} {buf : BitVec 64}
    {len : BitVec 32} {issuer : BitVec 64} {err : Error}
    (h : control dataStage dirIn statusIn dev epId setupData buf len issuer = some (err, dev')) :
    dev'.eventWaiters = (dev.noteWaiter setupData issuer).eventWaiters := by
  unfold control at h
  simp only at h
  split_ifs at h
  · cases h
    rfl
  · obtain ⟨ring, -, h⟩ := Option.bind_eq_some_iff.mp h
    cases ring with
    | none =>
        cases h
        rfl
    | some ring =>
        obtain ⟨pushed, -, h⟩ := Option.map_eq_some_iff.mp h
        cases h
        rfl

/-! ## Runs with other transfers -/

namespace ControlRun

variable (x : ControlRun)

/-- The state after a call that returns no error. -/
def issued (t : Transfer) (device : TransferDevice) : ControlRun where
  device := device
  bufPtr := x.bufPtr
  pushed := x.pushed + t.count
  outstanding := x.outstanding ++ [t]
  report := none

/-- The state after the event for the `i`th outstanding transfer. -/
def reported (i : Nat) (t : Transfer) (trb : TransferEventTRB) (device : TransferDevice) :
    ControlRun where
  device := device
  bufPtr := x.bufPtr
  pushed := x.pushed
  outstanding := x.outstanding.eraseIdx i
  report := some (t, trb,
    if trb.Succeeded then t.completion trb else .error .kTransferFailed)

/-- The transfer does not overtake one that is in flight: with its TRBs the ring does not come around
to that one. -/
def KeepsInTime (t : Transfer) : Prop :=
  ∀ u ∈ x.outstanding, x.pushed + t.count ≤ u.first + kControlSlots

/-- Another transfer ring is written. -/
def setRing (i : Nat) (tr : Ring) : ControlRun := { x with device := x.device.setRing i tr }

end ControlRun

/-- The control transfers in flight are on their ring and in the map, and all rings lie apart. -/
structure TransfersSound (bufPtr : BitVec 64) (x : ControlRun) : Prop where
  control : ∃ rest, ControlInv bufPtr rest x
  rings : RingsApart x.device.transferRings
  registered : ∀ t ∈ x.outstanding, t.registered = true
  inTime : ∀ t ∈ x.outstanding, x.InTime t

namespace TransfersSound

variable {bufPtr : BitVec 64} {x : ControlRun} {t : Transfer} {epId : EndpointID}

/-- **A call** on the control endpoint. -/
theorem issue (h : TransfersSound bufPtr x) {isIn : Bool} {setupData : SetupData} {buf : BitVec 64}
    {len : BitVec 32} (ht : t = x.next isIn setupData buf len) (htime : x.KeepsInTime t)
    (hfree : x.device.setupStageMap.HasFree) (statusIn : Bool) (issuer : BitVec 64) :
    ∃ device, x.device.control
        (if t.isIn then SetupStageTRB.kInDataStage else SetupStageTRB.kOutDataStage) t.isIn statusIn
        kDefaultControlPipeID t.setupData t.buf t.len issuer = some (.kSuccess, device) ∧
      TransfersSound bufPtr (x.issued t device) ∧
      (∀ i, 1 ≤ i → device.transferRings[i]? = x.device.transferRings[i]?) ∧
      device.setupStageMap.used ≤ x.device.setupStageMap.used + 1 ∧
      device.eventWaiters = (x.device.noteWaiter t.setupData issuer).eventWaiters := by
  obtain ⟨rest, hcontrol⟩ := h.control
  obtain ⟨ring, hrings, hat, -⟩ := hcontrol.ring
  obtain ⟨ring', device, heq, hrings', hmap, hat', -⟩ :=
    TransferDevice.control_spec hrings hat t statusIn issuer
  obtain ⟨x', hx', hcontrol'⟩ := hcontrol.issue statusIn issuer ht
  have hx : x' = x.issued t device := by
    rw [heq] at hx'
    exact (Option.some.inj hx').symm
  have hset : device.transferRings = x.device.transferRings.set 0 (some ring') := by
    rw [hrings, hrings']
    rfl
  have hzero : x.device.transferRings[0]? = some (some ring) := by
    rw [hrings]
    rfl
  refine ⟨device, heq, ⟨⟨rest, hx ▸ hcontrol'⟩, ?_, ?_, ?_⟩, ?_, ?_,
    TransferDevice.control_eventWaiters heq⟩
  · show RingsApart device.transferRings
    rw [hset]
    exact h.rings.set_same hzero (hat.ptr ▸ hat')
  · intro u hu
    rcases List.mem_append.mp hu with hu | hu
    · exact h.registered u hu
    · rw [List.mem_singleton.mp hu, ht]
      exact decide_eq_true (Or.inl hfree)
  · intro u hu
    show x.pushed + t.count ≤ u.first + kControlSlots
    rcases List.mem_append.mp hu with hu | hu
    · exact htime u hu
    · have hcount := t.count_le
      have hfirst : t.first = x.pushed := by rw [ht]; rfl
      rw [List.mem_singleton.mp hu, hfirst]
      exact Nat.add_le_add_left (hcount.trans (by decide)) _
  · intro i hi
    rw [hset]
    exact List.getElem?_set_ne (Nat.ne_of_lt hi)
  · rw [hmap]
    exact ArrayMap.used_put_le _ _

/-- An event of success for a control transfer in flight can be logged. -/
theorem log_of_succeeded (h : TransfersSound bufPtr x) {trb : TransferEventTRB} {first : Nat}
    (hsuccess : trb.Succeeded) (hpointer : trb.trbPointer = x.reporting first) :
    x.device.logTransferEvent trb = some () :=
  h.control.elim fun _ hcontrol => hcontrol.log_of_succeeded hsuccess hpointer

/-- **An event** for a control transfer in flight, if it can be logged. -/
theorem event (h : TransfersSound bufPtr x) {i : Nat} {trb : TransferEventTRB}
    (ht : x.outstanding[i]? = some t) (hlog : x.device.logTransferEvent trb = some ())
    (hpointer : trb.Succeeded → trb.trbPointer = x.reporting t.first) :
    ∃ device, x.step (.event i trb) = some (x.reported i t trb device) ∧
      TransfersSound bufPtr (x.reported i t trb device) ∧
      device.transferRings = x.device.transferRings ∧
      device.eventWaiters = x.device.eventWaiters ∧
      (trb.Succeeded → device.setupStageMap.used + 1 = x.device.setupStageMap.used) ∧
      (¬trb.Succeeded → device = x.device) := by
  obtain ⟨rest, hcontrol⟩ := h.control
  have hmem : t ∈ x.outstanding := List.mem_of_getElem? ht
  have hin : trb.Succeeded → x.InTime t := fun _ => h.inTime t hmem
  obtain ⟨x', hstep, hcontrol', hmatched⟩ := hcontrol.event ht hlog hpointer hin
  obtain ⟨result, device, heq, -⟩ := hcontrol.onTransferEventReceived_spec hmem hlog hpointer hin
  obtain ⟨hrings, hwaiters, hfails, hcompleted⟩ := TransferDevice.onTransferEventReceived_frame heq
  have hx' : x' = { x with
      device := device
      outstanding := x.outstanding.eraseIdx i
      report := some (t, trb, result) } := by
    simp only [ControlRun.step, ht, Option.bind_some, heq, Option.map_some] at hstep
    exact (Option.some.inj hstep).symm
  have hsucceeds : trb.Succeeded → result = t.completion trb := by
    intro hsuccess
    refine hmatched.mpr (fun _ => h.registered t hmem) t trb result ?_ hsuccess
    rw [hx']
  have hresult : result = if trb.Succeeded then t.completion trb else .error .kTransferFailed := by
    split_ifs with hsuccess
    · exact hsucceeds hsuccess
    · exact (hfails hsuccess).1
  have hreported : x' = x.reported i t trb device := by
    rw [hx', hresult]
    rfl
  refine ⟨device, hreported ▸ hstep, ⟨⟨rest, hreported ▸ hcontrol'⟩, ?_, ?_, ?_⟩, hrings, hwaiters,
    ?_, fun hfail => (hfails hfail).2⟩
  · show RingsApart device.transferRings
    rw [hrings]
    exact h.rings
  · intro u hu
    exact h.registered u (List.mem_of_mem_eraseIdx hu)
  · intro u hu
    exact h.inTime u (List.mem_of_mem_eraseIdx hu)
  · intro hsuccess
    obtain ⟨hpresent, hdelete⟩ := hcompleted _ _ _ _ (hsucceeds hsuccess)
    rw [hdelete]
    exact ArrayMap.used_delete hpresent

theorem setRing (h : TransfersSound bufPtr x) {i : Nat} (hi : 1 ≤ i) {ring : Ring}
    (hrings : RingsApart (x.device.setRing i ring).transferRings) :
    TransfersSound bufPtr (x.setRing i ring) := by
  obtain ⟨rest, hcontrol⟩ := h.control
  exact ⟨⟨_, hcontrol.setRing hi ring⟩, hrings, h.registered, h.inTime⟩

/-- **A call of `InterruptIn`.** -/
theorem interruptIn (h : TransfersSound bufPtr x) (hid : epId.HasContext)
    (hring : x.device.HasRing epId) (buf : BitVec 64) (len : BitVec 32) :
    ∃ ring, x.device.interruptIn epId buf len =
        some (.kSuccess, x.device.setRing (deviceContextIndex epId - 1) ring) ∧
      TransfersSound bufPtr (x.setRing (deviceContextIndex epId - 1) ring) ∧
      InterruptTransfer.Placed ⟨epId, x.device.nextPosition epId, buf, len⟩
        (x.device.setRing (deviceContextIndex epId - 1) ring) := by
  obtain ⟨ring, heq, hrings, hplaced⟩ := interruptIn_spec h.rings hid hring buf len
  exact ⟨ring, heq, h.setRing (Nat.le_sub_one_of_lt hid.1) hrings, hplaced⟩

/-- **A transfer ring is allocated**, with its array. -/
theorem allocTransferRing (h : TransfersSound bufPtr x) (hid : epId.HasContext)
    {allocated : BitVec 64} (hapart : ∀ {j : Nat} {ring : Ring},
      x.device.transferRings[j]? = some (some ring) → j ≠ deviceContextIndex epId - 1 →
        Apart ring.bufPtr allocated) :
    ∃ ring, ring.bufPtr = allocated ∧
      x.device.allocTransferRing (deviceContextIndex epId) (kControlSlots + 1)
          (some (some allocated)) =
        some (some ring, x.device.setRing (deviceContextIndex epId - 1) ring) ∧
      TransfersSound bufPtr (x.setRing (deviceContextIndex epId - 1) ring) := by
  obtain ⟨ring, hptr, heq, hrings⟩ := h.rings.allocTransferRing hid hapart
  exact ⟨ring, hptr, heq, h.setRing (Nat.le_sub_one_of_lt hid.1) hrings⟩

end TransfersSound

end UhyokOS
