import UhyokOS.Lib.Transition
import UhyokOS.Usb.Xhci
import Mathlib.Data.UInt

/-!
# The root-hub ports

One port at a time is between its reset and the assignment of an address: `addressing_port` is a
lock, and a port that finds it taken waits. Port numbers start at 1.

* `PortStep` lists what one event can do to the phases and the lock, `handle_portStep` that no
  handler does anything else.
* `one_port_addressing`: in every run the lock says which port is being addressed.
* `no_port_forgotten_iff`: exactly when the hand-over of the lock leaves no connected port waiting.
* `port_forgotten`: it does leave one, if the port that is picked was unplugged.
-/

namespace UhyokOS

open Transition

/-- The port is between its reset and the assignment of an address. -/
def ConfigPhase.IsAddressing (phase : ConfigPhase) : Prop :=
  phase = .kResettingPort ∨ phase = .kEnablingSlot ∨ phase = .kAddressingDevice

instance ConfigPhase.decidableIsAddressing (phase : ConfigPhase) : Decidable phase.IsAddressing := by
  unfold ConfigPhase.IsAddressing
  infer_instance

namespace Controller

variable {xhc xhc' : Controller} {r : Readings} {err : Error}

/-! ## What a handler does to the ports -/

/-- The phases and the lock after one event. -/
inductive PortStep (r : Readings) (xhc : Controller) : (UInt8 → ConfigPhase) → UInt8 → Prop
  | same : PortStep r xhc xhc.portConfigPhase xhc.addressingPort
  | wait {p : UInt8} (connected : (r.portAt p).isConnected = true)
      (busy : xhc.addressingPort ≠ 0) (phase : xhc.portConfigPhase p = .kNotConnected) :
      PortStep r xhc (Function.update xhc.portConfigPhase p .kWaitingAddressed) xhc.addressingPort
  | reset {p : UInt8} (connected : (r.portAt p).isConnected = true)
      (free : xhc.addressingPort = 0) (phase : xhc.portConfigPhase p = .kNotConnected) :
      PortStep r xhc (Function.update xhc.portConfigPhase p .kResettingPort) p
  | enable {p : UInt8} (phase : xhc.portConfigPhase p = .kResettingPort) :
      PortStep r xhc (Function.update xhc.portConfigPhase p .kEnablingSlot) xhc.addressingPort
  | address (phase : xhc.portConfigPhase xhc.addressingPort = .kEnablingSlot) :
      PortStep r xhc (Function.update xhc.portConfigPhase xhc.addressingPort .kAddressingDevice)
        xhc.addressingPort
  | release (phase : xhc.portConfigPhase xhc.addressingPort = .kAddressingDevice) :
      PortStep r xhc (Function.update xhc.portConfigPhase xhc.addressingPort .kInitializingDevice) 0
  | handOver {i : UInt8} (phase : xhc.portConfigPhase xhc.addressingPort = .kAddressingDevice)
      (waiting : xhc.portConfigPhase i = .kWaitingAddressed)
      (connected : (r.portAt i).isConnected = true) :
      PortStep r xhc (Function.update (Function.update xhc.portConfigPhase i .kResettingPort)
        xhc.addressingPort .kInitializingDevice) i
  | configure {p : UInt8} (phase : xhc.portConfigPhase p = .kInitializingDevice) :
      PortStep r xhc (Function.update xhc.portConfigPhase p .kConfiguringEndpoints)
        xhc.addressingPort
  | configured {p : UInt8} (phase : xhc.portConfigPhase p = .kConfiguringEndpoints) :
      PortStep r xhc (Function.update xhc.portConfigPhase p .kConfigured) xhc.addressingPort

/-- A port that is not connected yet is reset, or waits. -/
theorem resetPort_portStep {p : UInt8} (hphase : xhc.portConfigPhase p = .kNotConnected) :
    PortStep r xhc (xhc.resetPort (r.portAt p)).2.portConfigPhase
      (xhc.resetPort (r.portAt p)).2.addressingPort := by
  unfold resetPort
  split_ifs with hconnected hbusy hwrong
  · exact .same
  · exact .wait ((Bool.not_eq_false _).mp hconnected) hbusy hphase
  · exact absurd hphase hwrong.1
  · exact .reset ((Bool.not_eq_false _).mp hconnected) (not_not.mp hbusy) hphase

/-- What the loop over the ports finds. -/
theorem firstWaiting_eq_some_iff {i : UInt8} :
    xhc.firstWaiting = some i ↔ xhc.portConfigPhase i = .kWaitingAddressed ∧
      ∀ j < i, xhc.portConfigPhase j ≠ .kWaitingAddressed := by
  unfold firstWaiting
  rw [List.find?_map, Option.map_eq_some_iff]
  constructor
  · rintro ⟨n, hfind, rfl⟩
    obtain ⟨hphase, hmem, hbefore⟩ := List.find?_range_eq_some.mp hfind
    have hn : n < 256 := List.mem_range.mp hmem
    refine ⟨of_decide_eq_true hphase, fun j hj => ?_⟩
    have hlt : j.toNat < n := by
      have := UInt8.lt_iff_toNat_lt.mp hj
      rwa [UInt8.toNat_ofNat_of_lt' hn] at this
    have := hbefore j.toNat hlt
    simpa using this
  · rintro ⟨hphase, hbefore⟩
    refine ⟨i.toNat, List.find?_range_eq_some.mpr ⟨?_, ?_, fun n hn => ?_⟩, UInt8.ofNat_toNat⟩
    · simpa using hphase
    · exact List.mem_range.mpr i.toNat_lt
    · have hlt : UInt8.ofNat n < i := by
        rw [UInt8.lt_iff_toNat_lt, UInt8.toNat_ofNat_of_lt' (hn.trans i.toNat_lt)]
        exact hn
      simpa using hbefore _ hlt

theorem firstWaiting_eq_none_iff :
    xhc.firstWaiting = none ↔ ∀ p, xhc.portConfigPhase p ≠ .kWaitingAddressed := by
  unfold firstWaiting
  rw [List.find?_eq_none]
  constructor
  · intro h p
    have := h p (List.mem_map.mpr ⟨p.toNat, List.mem_range.mpr p.toNat_lt, UInt8.ofNat_toNat⟩)
    simpa using this
  · intro h p _
    simpa using h p

/-- `ResetPort` for the port that the loop picks. -/
theorem resetPort_of_waiting {p : UInt8} (hfree : xhc.addressingPort = 0)
    (hphase : xhc.portConfigPhase p = .kWaitingAddressed) :
    xhc.resetPort (r.portAt p) =
      if (r.portAt p).isConnected = true then
        (.kSuccess, { xhc with addressingPort := p }.setPhase p .kResettingPort)
      else (.kSuccess, xhc) := by
  unfold resetPort
  by_cases hconnected : (r.portAt p).isConnected = true
  · rw [if_neg (by rw [hconnected]; exact Bool.noConfusion), if_neg (not_not.mpr hfree),
      if_neg fun h => h.2 hphase, if_pos hconnected]
    rfl
  · rw [if_pos ((Bool.not_eq_true _).mp hconnected), if_neg hconnected]

/-- **The completion of an Address Device command that is accepted.** -/
theorem onAddressDeviceCompletion_eq {slotId : UInt8} {dev : Device}
    (hdev : xhc.devmgr.findBySlot slotId = some dev)
    (hport : r.rootHubPortNum dev.slotId = xhc.addressingPort)
    (hphase : xhc.portConfigPhase xhc.addressingPort = .kAddressingDevice) :
    xhc.onAddressDeviceCompletion r slotId =
      (.kSuccess, ({ xhc with addressingPort := 0 }.handOver r).2.setPhase xhc.addressingPort
        .kInitializingDevice) := by
  have hover : ({ xhc with addressingPort := 0 }.handOver r).1 = .kSuccess ∧
      ({ xhc with addressingPort := 0 }.handOver r).2.devmgr = xhc.devmgr := by
    unfold handOver
    split
    · exact ⟨rfl, rfl⟩
    · next i hfirst =>
        have hwaiting := (firstWaiting_eq_some_iff.mp hfirst).1
        rw [resetPort_of_waiting rfl hwaiting]
        split_ifs <;> exact ⟨rfl, rfl⟩
  unfold onAddressDeviceCompletion initializeDevice
  rw [hdev]
  simp only
  rw [if_neg (not_not.mpr hport), hport, if_neg (not_not.mpr hphase), hover.1,
    if_neg (not_not.mpr rfl), hover.2, hdev]
  rfl

theorem onAddressDeviceCompletion_portStep (r : Readings) (xhc : Controller) (slotId : UInt8) :
    PortStep r xhc (xhc.onAddressDeviceCompletion r slotId).2.portConfigPhase
      (xhc.onAddressDeviceCompletion r slotId).2.addressingPort := by
  cases hdev : xhc.devmgr.findBySlot slotId with
  | none =>
      unfold onAddressDeviceCompletion
      rw [hdev]
      exact .same
  | some dev =>
      by_cases hport : r.rootHubPortNum dev.slotId = xhc.addressingPort
      · by_cases hphase : xhc.portConfigPhase xhc.addressingPort = .kAddressingDevice
        · rw [onAddressDeviceCompletion_eq hdev hport hphase]
          unfold handOver
          split
          · exact .release hphase
          · next i hfirst =>
              have hwaiting := (firstWaiting_eq_some_iff.mp hfirst).1
              rw [resetPort_of_waiting rfl hwaiting]
              split_ifs with hconnected
              · exact .handOver hphase hwaiting hconnected
              · exact .release hphase
        · unfold onAddressDeviceCompletion
          rw [hdev]
          simp only
          rw [if_neg (not_not.mpr hport), hport, if_pos hphase]
          exact .same
      · unfold onAddressDeviceCompletion
        rw [hdev]
        simp only
        rw [if_pos hport]
        exact .same

theorem onConfigureEndpointCompletion_portStep (r : Readings) (xhc : Controller)
    (slotId : UInt8) :
    PortStep r xhc (xhc.onConfigureEndpointCompletion r slotId).2.portConfigPhase
      (xhc.onConfigureEndpointCompletion r slotId).2.addressingPort := by
  unfold onConfigureEndpointCompletion completeConfiguration
  split
  · exact .same
  · simp only
    split_ifs with hphase
    · exact .same
    · exact .same
    · exact .configured (not_not.mp hphase)

theorem configureEndpoints_portStep {dev : Device}
    (hphase : xhc.portConfigPhase (r.rootHubPortNum dev.slotId) = .kInitializingDevice)
    (h : xhc.configureEndpoints r dev = some (err, xhc')) :
    PortStep r xhc xhc'.portConfigPhase xhc'.addressingPort := by
  unfold configureEndpoints at h
  simp only at h
  split_ifs at h
  · cases h
    exact .same
  · cases h
    exact .configure hphase

theorem enableSlot_portStep {p : UInt8} (hphase : xhc.portConfigPhase p = .kResettingPort) :
    PortStep r xhc (xhc.enableSlot (r.portAt p)).2.portConfigPhase
      (xhc.enableSlot (r.portAt p)).2.addressingPort := by
  unfold enableSlot
  split_ifs
  · exact .enable hphase
  · exact .same

/-- **The step lemma.** -/
theorem handle_portStep {event : XhciEvent} (h : xhc.handle r event = some (err, xhc')) :
    PortStep r xhc xhc'.portConfigPhase xhc'.addressingPort := by
  rcases handle_cases h with ⟨slotId, haddresses, haddress⟩ | ⟨-, hhandled⟩
  · obtain ⟨devmgr, -, ⟨-, rfl⟩ | ⟨devmgr', -, rfl⟩⟩ := addressDevice_cases haddress
    · exact .same
    · exact .address haddresses.2
  · cases hhandled with
    | same => exact .same
    | resetPort hphase => exact resetPort_portStep hphase
    | enableSlot hphase => exact enableSlot_portStep hphase
    | configureEndpoints hphase hconfigured => exact configureEndpoints_portStep hphase hconfigured
    | addressDeviceCompletion => exact onAddressDeviceCompletion_portStep r xhc _
    | configureEndpointCompletion => exact onConfigureEndpointCompletion_portStep r xhc _

/-! ## At most one port is being addressed -/

/-- The lock says which port is being addressed. -/
def OneAddressing (xhc : Controller) : Prop :=
  ∀ p : UInt8, p ≠ 0 → ((xhc.portConfigPhase p).IsAddressing ↔ p = xhc.addressingPort)

/-- A port that enters or leaves none of the three phases. -/
theorem isAddressing_update {phases : UInt8 → ConfigPhase} {q : UInt8} {phase : ConfigPhase}
    (h : phase.IsAddressing ↔ (phases q).IsAddressing) (p : UInt8) :
    (Function.update phases q phase p).IsAddressing ↔ (phases p).IsAddressing := by
  by_cases hpq : p = q
  · rw [hpq, Function.update_self, h]
  · rw [Function.update_of_ne hpq]

/-- What an event does to the ports keeps this. -/
theorem PortStep.oneAddressing {phases : UInt8 → ConfigPhase} {a : UInt8}
    (h : PortStep r xhc phases a) (hinv : xhc.OneAddressing) (p : UInt8) (hp : p ≠ 0) :
    (phases p).IsAddressing ↔ p = a := by
  cases h with
  | same => exact hinv p hp
  | wait _ _ hphase =>
      rw [isAddressing_update (by rw [hphase]; decide)]
      exact hinv p hp
  | enable hphase =>
      rw [isAddressing_update (by rw [hphase]; decide)]
      exact hinv p hp
  | address hphase =>
      rw [isAddressing_update (by rw [hphase]; decide)]
      exact hinv p hp
  | configure hphase =>
      rw [isAddressing_update (by rw [hphase]; decide)]
      exact hinv p hp
  | configured hphase =>
      rw [isAddressing_update (by rw [hphase]; decide)]
      exact hinv p hp
  | reset _ hfree _ =>
      by_cases hpa : p = a
      · rw [hpa, Function.update_self]
        exact iff_of_true (Or.inl rfl) rfl
      · rw [Function.update_of_ne hpa, hinv p hp, hfree]
        exact iff_of_false hp hpa
  | release hphase =>
      by_cases hpa : p = xhc.addressingPort
      · rw [hpa, Function.update_self]
        exact iff_of_false (by decide) (hpa ▸ hp)
      · rw [Function.update_of_ne hpa, hinv p hp]
        exact iff_of_false hpa hp
  | handOver hphase hwaiting _ =>
      by_cases hpa : p = xhc.addressingPort
      · rw [hpa, Function.update_self]
        refine iff_of_false (by decide) fun heq => ?_
        rw [← heq, hphase] at hwaiting
        cases hwaiting
      · rw [Function.update_of_ne hpa]
        by_cases hpi : p = a
        · rw [hpi, Function.update_self]
          exact iff_of_true (Or.inl rfl) rfl
        · rw [Function.update_of_ne hpi, hinv p hp]
          exact iff_of_false hpa hpi

theorem oneAddressing_keeps :
    Keeps Controller.step (fun _ _ => True) OneAddressing := by
  intro xhc op xhc' hinv _ hs
  obtain ⟨⟨err, xhc''⟩, hhandle, rfl⟩ := Option.map_eq_some_iff.mp hs
  exact (handle_portStep hhandle).oneAddressing hinv

/-- The states of the driver after `Controller::Initialize` left it with a device manager, whatever
events and readings follow. -/
abbrev Reachable (devmgr : DeviceManager) (xhc : Controller) : Prop :=
  Transition.Reachable Controller.step (fun _ _ => True) { devmgr := devmgr } xhc

theorem oneAddressing_init (devmgr : DeviceManager) : OneAddressing { devmgr := devmgr } := by
  intro p hp
  have hphase : ¬ConfigPhase.kNotConnected.IsAddressing := by decide
  exact iff_of_false hphase hp

/-- **At most one root-hub port is between reset and addressing.** In every run of calls and events,
whatever the handlers read, after each handler: if the lock is free no port is in one of the three
phases, and if it is taken the port it names is in one of them and no other port is. -/
theorem one_port_addressing {devmgr : DeviceManager} {xhc : Controller}
    (h : xhc.Reachable devmgr) :
    (xhc.addressingPort = 0 → ∀ p, p ≠ 0 → ¬(xhc.portConfigPhase p).IsAddressing) ∧
      (xhc.addressingPort ≠ 0 → (xhc.portConfigPhase xhc.addressingPort).IsAddressing ∧
        ∀ p, p ≠ 0 → p ≠ xhc.addressingPort → ¬(xhc.portConfigPhase p).IsAddressing) := by
  have hinv : xhc.OneAddressing :=
    Transition.Reachable.invariant_of_keeps (oneAddressing_init devmgr) oneAddressing_keeps h
  refine ⟨fun hfree p hp => ?_, fun htaken => ⟨(hinv _ htaken).mpr rfl, fun p hp hne => ?_⟩⟩
  · rw [hinv p hp, hfree]
    exact hp
  · rw [hinv p hp]
    exact hne

/-! ## Handing over the lock -/

/-- The completion of an Address Device command for a slot is accepted: its device is on the port
that is being addressed. -/
def AcceptsAddressed (xhc : Controller) (r : Readings) (slotId : UInt8) : Prop :=
  ∃ dev, xhc.devmgr.findBySlot slotId = some dev ∧
    r.rootHubPortNum dev.slotId = xhc.addressingPort ∧
      xhc.portConfigPhase xhc.addressingPort = .kAddressingDevice

/-- If the lock is free, no port that is connected waits for it. -/
def NoneForgotten (xhc : Controller) (r : Readings) : Prop :=
  xhc.addressingPort = 0 → ∀ p : UInt8, p ≠ 0 → (r.portAt p).isConnected = true →
    xhc.portConfigPhase p ≠ .kWaitingAddressed

/-- No port that is connected waits, or the first entry that waits is a port that is connected. -/
def FirstWaitingConnected (xhc : Controller) (r : Readings) : Prop :=
  (∀ p : UInt8, p ≠ 0 → (r.portAt p).isConnected = true →
    xhc.portConfigPhase p ≠ .kWaitingAddressed) ∨
  ∃ i : UInt8, i ≠ 0 ∧ (r.portAt i).isConnected = true ∧
    xhc.portConfigPhase i = .kWaitingAddressed ∧
      ∀ j < i, xhc.portConfigPhase j ≠ .kWaitingAddressed

/-- An event that is not accepted reports an error. -/
theorem onAddressDeviceCompletion_eq_success_iff {slotId : UInt8} :
    (xhc.onAddressDeviceCompletion r slotId).1 = .kSuccess ↔ xhc.AcceptsAddressed r slotId := by
  constructor
  · intro h
    cases hdev : xhc.devmgr.findBySlot slotId with
    | none =>
        unfold onAddressDeviceCompletion at h
        rw [hdev] at h
        cases h
    | some dev =>
        refine ⟨dev, hdev, ?_⟩
        unfold onAddressDeviceCompletion at h
        rw [hdev] at h
        simp only at h
        split_ifs at h with hport hphase
        · exact ⟨not_not.mp hport, by rw [← not_not.mp hport]; exact not_not.mp hphase⟩
        · exact ⟨not_not.mp hport, by rw [← not_not.mp hport]; exact not_not.mp hphase⟩
  · rintro ⟨dev, hdev, hport, hphase⟩
    rw [onAddressDeviceCompletion_eq hdev hport hphase]

/-- A port that was not the one being addressed waits afterwards iff it did before and was not
picked. -/
theorem noneForgotten_of_kept {xhc' : Controller} (hfree : xhc'.addressingPort = 0)
    (hphases : ∀ p : UInt8, p ≠ 0 → (xhc'.portConfigPhase p = .kWaitingAddressed ↔
      xhc.portConfigPhase p = .kWaitingAddressed)) :
    xhc'.NoneForgotten r ↔ ∀ p : UInt8, p ≠ 0 → (r.portAt p).isConnected = true →
      xhc.portConfigPhase p ≠ .kWaitingAddressed := by
  constructor
  · intro h p hp hconnected
    rw [Ne, ← hphases p hp]
    exact h hfree p hp hconnected
  · intro h _ p hp hconnected
    rw [Ne, hphases p hp]
    exact h p hp hconnected

/-- The port whose device got its address does not wait, before or after. -/
theorem waiting_update_iff {phases : UInt8 → ConfigPhase} {a : UInt8}
    (hphase : phases a = .kAddressingDevice) (p : UInt8) :
    Function.update phases a .kInitializingDevice p = .kWaitingAddressed ↔
      phases p = .kWaitingAddressed := by
  by_cases hpa : p = a
  · rw [hpa, Function.update_self, hphase]
    decide
  · rw [Function.update_of_ne hpa]

/-- **Exactly when the hand-over forgets nobody.** -/
theorem noneForgotten_iff {slotId : UInt8} (h : xhc.AcceptsAddressed r slotId) :
    (xhc.onAddressDeviceCompletion r slotId).2.NoneForgotten r ↔ xhc.FirstWaitingConnected r := by
  obtain ⟨dev, hdev, hport, hphase⟩ := h
  rw [onAddressDeviceCompletion_eq hdev hport hphase]
  have hkept := waiting_update_iff hphase
  unfold handOver
  split
  · next hnone =>
      have hnobody := firstWaiting_eq_none_iff.mp hnone
      refine iff_of_true ?_ (Or.inl fun p _ _ => hnobody p)
      exact (noneForgotten_of_kept rfl fun p _ => hkept p).mpr fun p _ _ => hnobody p
  · next i hfirst =>
      obtain ⟨hwaiting, hbefore⟩ := firstWaiting_eq_some_iff.mp hfirst
      have hunique : xhc.FirstWaitingConnected r ↔ (∀ p : UInt8, p ≠ 0 →
          (r.portAt p).isConnected = true → xhc.portConfigPhase p ≠ .kWaitingAddressed) ∨
          (i ≠ 0 ∧ (r.portAt i).isConnected = true) := by
        refine or_congr_right ⟨?_, ?_⟩
        · rintro ⟨j, hj, hconnected, hwaiting', hbefore'⟩
          have hfirst' := firstWaiting_eq_some_iff.mpr ⟨hwaiting', hbefore'⟩
          obtain rfl : i = j := Option.some.inj (hfirst.symm.trans hfirst')
          exact ⟨hj, hconnected⟩
        · rintro ⟨hi, hconnected⟩
          exact ⟨i, hi, hconnected, hwaiting, hbefore⟩
      rw [hunique, resetPort_of_waiting rfl hwaiting]
      by_cases hconnected : (r.portAt i).isConnected = true
      · rw [if_pos hconnected]
        by_cases hi : i = 0
        · -- entry 0 is no port: it takes the lock without holding it
          have hne : xhc.addressingPort ≠ i := by
            rintro heq
            rw [heq, hwaiting] at hphase
            cases hphase
          have hphase' : Function.update xhc.portConfigPhase i .kResettingPort xhc.addressingPort =
              .kAddressingDevice := by rw [Function.update_of_ne hne, hphase]
          rw [or_iff_left fun hand => hand.1 hi]
          refine noneForgotten_of_kept hi fun p hp => ?_
          have hpi : p ≠ i := hi ▸ hp
          refine (waiting_update_iff hphase' p).trans ?_
          rw [Function.update_of_ne hpi]
        · exact iff_of_true (fun hfree => absurd hfree hi) (Or.inr ⟨hi, hconnected⟩)
      · rw [if_neg hconnected, or_iff_left fun hand => hconnected hand.2]
        exact noneForgotten_of_kept rfl fun p _ => hkept p

end Controller

/-! ## Runs -/

/-- The driver, with the readings of the last event if this was a successful completion of an Address
Device command that was accepted. -/
structure AddressRun where
  xhc : Controller
  lastAddressed : Option Readings := none

/-- The event is the successful completion of an Address Device command. -/
def XhciEvent.addressed : XhciEvent → Option UInt8
  | .commandCompletion issuerType slotId completionCode =>
      if issuerType = Controller.addressDeviceCommandType ∧ completionCode = 1 then some slotId
      else none
  | _ => none

/-- One event. -/
def AddressRun.step (s : AddressRun) (op : XhciEvent × Readings) : Option AddressRun :=
  (s.xhc.handle op.2 op.1).map fun (err, xhc) =>
    { xhc := xhc
      lastAddressed := if op.1.addressed.isSome ∧ err = .kSuccess then some op.2 else none }

/-- Right after the completion no port is forgotten. -/
def AddressRun.NoneForgotten (s : AddressRun) : Prop :=
  ∀ r, s.lastAddressed = some r → s.xhc.NoneForgotten r

/-- When an address was assigned to the device of the port that holds the lock, either no connected
port waits or the first entry that waits is a connected port. -/
def AddressRun.Permitted (s : AddressRun) (op : XhciEvent × Readings) : Prop :=
  ∀ slotId, op.1.addressed = some slotId → s.xhc.AcceptsAddressed op.2 slotId →
    s.xhc.FirstWaitingConnected op.2

theorem XhciEvent.eq_of_addressed {event : XhciEvent} {slotId : UInt8}
    (h : event.addressed = some slotId) :
    event = .commandCompletion Controller.addressDeviceCommandType slotId 1 := by
  cases event with
  | commandCompletion issuerType slotId' completionCode =>
      simp only [addressed] at h
      split_ifs at h with hboth
      obtain ⟨rfl, rfl⟩ := hboth
      cases h
      rfl
  | configurePort _ => cases h
  | portStatusChange _ => cases h
  | transfer _ => cases h

namespace AddressRun

variable {s s' : AddressRun} {op : XhciEvent × Readings}

/-- **One event is exact.** -/
theorem noneForgotten_iff (hs : s.step op = some s') : s'.NoneForgotten ↔ s.Permitted op := by
  obtain ⟨⟨err, xhc⟩, hhandle, rfl⟩ := Option.map_eq_some_iff.mp hs
  obtain ⟨event, r⟩ := op
  cases haddressed : event.addressed with
  | none =>
      refine iff_of_true (fun r' hr' => ?_) fun slotId hslot => ?_
      · simp at hr'
      · simp [haddressed] at hslot
  | some slotId =>
      obtain rfl := XhciEvent.eq_of_addressed haddressed
      have hcompletion : s.xhc.onAddressDeviceCompletion r slotId = (err, xhc) :=
        Option.some.inj hhandle
      have herr : err = .kSuccess ↔ s.xhc.AcceptsAddressed r slotId := by
        rw [← Controller.onAddressDeviceCompletion_eq_success_iff, hcompletion]
      have hexact : s.xhc.AcceptsAddressed r slotId →
          (xhc.NoneForgotten r ↔ s.xhc.FirstWaitingConnected r) := by
        intro haccepts
        rw [← Controller.noneForgotten_iff haccepts, hcompletion]
      constructor
      · intro h slotId' hslot haccepts
        obtain rfl : slotId = slotId' := Option.some.inj (haddressed.symm.trans hslot)
        refine (hexact haccepts).mp (h r ?_)
        simp [herr.mpr haccepts]
      · intro h r' hr'
        simp only at hr'
        split_ifs at hr' with hboth
        cases hr'
        have haccepts := herr.mp hboth.2
        exact (hexact haccepts).mpr (h slotId haddressed haccepts)

end AddressRun

/-- **Exactly when no waiting port is forgotten.** In every run of calls and events, whatever the
handlers read: right after each successful completion of an Address Device command that was accepted,
the lock is only free when no connected port waits for it, iff at each of them no connected port
waited or the first entry that waited was a connected port. -/
theorem no_port_forgotten_iff {devmgr : DeviceManager} {ops : List (XhciEvent × Readings)}
    (hdefined : (run AddressRun.step { xhc := { devmgr := devmgr } } ops).isSome = true) :
    (∀ pre, pre <+: ops → ∀ s, run AddressRun.step { xhc := { devmgr := devmgr } } pre = some s →
      s.NoneForgotten) ↔
    Admits AddressRun.step AddressRun.Permitted { xhc := { devmgr := devmgr } } ops := by
  refine forall_defined_prefix_iff_admits (fun s op s' _ hok hs => ?_) (fun _ h => h)
    (fun s op s' _ hs h => ?_) (fun r hr => ?_) hdefined
  · exact (AddressRun.noneForgotten_iff hs).mpr hok
  · exact (AddressRun.noneForgotten_iff hs).mp h
  · cases hr

/-! ## A port that is unplugged while it waits -/

/-- Port 1 is addressed while ports 2 and 3 wait; a list of the ports that are connected when the
address was assigned. -/
def addressFirstPort (connected : List UInt8) : List (XhciEvent × Readings) :=
  [(.configurePort 1, readings [1, 2, 3]), (.configurePort 2, readings [1, 2, 3]),
    (.configurePort 3, readings [1, 2, 3]), (.portStatusChange 1, readings [1, 2, 3]),
    (.commandCompletion Controller.enableSlotCommandType 1 1, readings [1, 2, 3]),
    (.commandCompletion Controller.addressDeviceCommandType 1 1, readings connected)]

/-- A driver for eight slots. -/
def smallController : Controller := { devmgr := .initializeSlots 8 }

/-- The driver while port 1 is addressed. -/
def addressingState? : Option Controller :=
  runPermitted Controller.step (fun _ _ => True) smallController ((addressFirstPort []).take 4)

theorem addressingState?_isSome : addressingState?.isSome = true := by decide

/-- The driver while port 1 is addressed. -/
def addressingState : Controller := addressingState?.get addressingState?_isSome

/-- Port 2 is not addressed at the same time. -/
theorem one_port_addressing_addressingState :
    ¬(addressingState.portConfigPhase 2).IsAddressing := by
  have hreach : addressingState.Reachable (.initializeSlots 8) :=
    Transition.Reachable.of_runPermitted .init (Option.some_get addressingState?_isSome).symm
  exact ((Controller.one_port_addressing hreach).2 (by decide)).2 2 (by decide) (by decide)

theorem isSome_run_addressFirstPort :
    (run AddressRun.step { xhc := smallController } (addressFirstPort [1, 3])).isSome = true := by
  decide

/-- Port 2 is picked and is not there any more; port 3 is left behind. -/
theorem forgotten_addressFirstPort :
    ∃ s, run AddressRun.step { xhc := smallController } (addressFirstPort [1, 3]) = some s ∧
      ¬s.NoneForgotten := by
  obtain ⟨s, hrun⟩ := Option.isSome_iff_exists.mp isSome_run_addressFirstPort
  have hsome : ∀ s ∈ run AddressRun.step { xhc := smallController } (addressFirstPort [1, 3]),
      s.lastAddressed.isSome = true := by decide
  have hleft : ∀ s ∈ run AddressRun.step { xhc := smallController } (addressFirstPort [1, 3]),
      ∀ r ∈ s.lastAddressed, s.xhc.addressingPort = 0 ∧ (r.portAt 3).isConnected = true ∧
        s.xhc.portConfigPhase 3 = .kWaitingAddressed := by decide
  obtain ⟨r, hr⟩ := Option.isSome_iff_exists.mp (hsome s hrun)
  obtain ⟨hfree, hconnected, hwaiting⟩ := hleft s hrun r hr
  exact ⟨s, hrun, fun h => h r hr hfree 3 (by decide) hconnected hwaiting⟩

/-- The run does not meet the condition. -/
theorem no_port_forgotten_iff_addressFirstPort :
    ¬Admits AddressRun.step AddressRun.Permitted { xhc := smallController }
      (addressFirstPort [1, 3]) := by
  intro hadm
  obtain ⟨s, hrun, hforgotten⟩ := forgotten_addressFirstPort
  exact hforgotten ((no_port_forgotten_iff isSome_run_addressFirstPort).mpr hadm _
    List.prefix_rfl s hrun)

/-- **A waiting port is forgotten** when the port before it was unplugged. -/
theorem port_forgotten :
    ¬∀ (devmgr : DeviceManager) (ops : List (XhciEvent × Readings)) (s : AddressRun),
      run AddressRun.step { xhc := { devmgr := devmgr } } ops = some s → s.NoneForgotten := by
  intro hall
  obtain ⟨s, hrun, hforgotten⟩ := forgotten_addressFirstPort
  exact hforgotten (hall _ _ s hrun)

end UhyokOS
