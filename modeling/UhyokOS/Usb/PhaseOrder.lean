import UhyokOS.Lib.Trace
import UhyokOS.Usb.Ports

/-!
# The order of the phases

`port_config_phase` of a port only goes forward, one phase at a time.

* `PhaseNext` is the order, `phaseOrder` and `phaseOrderWaiting` are the two ways through it.
* `handle_phase`: an event leaves the phase of a port alone, or replaces it by a next one.
* `phases_in_order`: in every run, the phases of every port are an initial part of one of the two
  ways.
-/

namespace UhyokOS

open Transition

/-- The phase that follows. Only `kNotConnected` is followed by one of two. -/
inductive PhaseNext : ConfigPhase → ConfigPhase → Prop
  | wait : PhaseNext .kNotConnected .kWaitingAddressed
  | reset : PhaseNext .kNotConnected .kResettingPort
  | resetWaiting : PhaseNext .kWaitingAddressed .kResettingPort
  | enable : PhaseNext .kResettingPort .kEnablingSlot
  | address : PhaseNext .kEnablingSlot .kAddressingDevice
  | release : PhaseNext .kAddressingDevice .kInitializingDevice
  | configure : PhaseNext .kInitializingDevice .kConfiguringEndpoints
  | configured : PhaseNext .kConfiguringEndpoints .kConfigured

/-- The phases of a port that finds the lock free. -/
def phaseOrder : List ConfigPhase :=
  [.kNotConnected, .kResettingPort, .kEnablingSlot, .kAddressingDevice, .kInitializingDevice,
    .kConfiguringEndpoints, .kConfigured]

/-- The phases of a port that finds the lock taken. -/
def phaseOrderWaiting : List ConfigPhase :=
  [.kNotConnected, .kWaitingAddressed, .kResettingPort, .kEnablingSlot, .kAddressingDevice,
    .kInitializingDevice, .kConfiguringEndpoints, .kConfigured]

/-- The phases from one on. -/
def ConfigPhase.later (phase : ConfigPhase) : List ConfigPhase :=
  phaseOrderWaiting.dropWhile (· ≠ phase)

theorem ConfigPhase.singleton_prefix_later (phase : ConfigPhase) : [phase] <+: phase.later := by
  cases phase <;> decide

/-- A port that was connected never gets back to `kNotConnected`, and its phases are determined. -/
theorem PhaseNext.later_eq {a b : ConfigPhase} (ha : a ≠ .kNotConnected) (h : PhaseNext a b) :
    b ≠ .kNotConnected ∧ a.later = a :: b.later := by
  cases h with
  | wait => exact absurd rfl ha
  | reset => exact absurd rfl ha
  | resetWaiting => exact ⟨by decide, rfl⟩
  | enable => exact ⟨by decide, rfl⟩
  | address => exact ⟨by decide, rfl⟩
  | release => exact ⟨by decide, rfl⟩
  | configure => exact ⟨by decide, rfl⟩
  | configured => exact ⟨by decide, rfl⟩

/-- **The two ways.** The phases of a port that starts as `kNotConnected`. -/
theorem prefix_phaseOrder {phases : List ConfigPhase}
    (h : (.kNotConnected :: phases).IsChain PhaseNext) :
    .kNotConnected :: phases <+: phaseOrder ∨ .kNotConnected :: phases <+: phaseOrderWaiting := by
  cases phases with
  | nil => exact Or.inl ⟨phaseOrder.tail, rfl⟩
  | cons b phases =>
      obtain ⟨hnext, hrest⟩ := List.isChain_cons_cons.mp h
      have hlater : b ≠ .kNotConnected → b :: phases <+: b.later := fun hb =>
        prefix_of_isChain (fun a _ => a.singleton_prefix_later) (fun _ _ ha h => h.later_eq ha) hb
          hrest
      cases hnext with
      | wait => exact Or.inr (List.cons_prefix_cons.mpr ⟨rfl, hlater (by decide)⟩)
      | reset => exact Or.inl (List.cons_prefix_cons.mpr ⟨rfl, hlater (by decide)⟩)

namespace Controller

variable {xhc xhc' : Controller} {r : Readings} {err : Error}

/-- One entry of `port_config_phase` is written, with a next phase. -/
theorem phaseNext_update {phases : UInt8 → ConfigPhase} {q : UInt8} {phase : ConfigPhase}
    (h : PhaseNext (phases q) phase) (p : UInt8) :
    Function.update phases q phase p = phases p ∨
      PhaseNext (phases p) (Function.update phases q phase p) := by
  by_cases hpq : p = q
  · rw [hpq, Function.update_self]
    exact Or.inr h
  · rw [Function.update_of_ne hpq]
    exact Or.inl rfl

/-- What an event does to the phase of a port. -/
theorem PortStep.phase {phases : UInt8 → ConfigPhase} {a : UInt8} (h : PortStep r xhc phases a)
    (p : UInt8) :
    phases p = xhc.portConfigPhase p ∨ PhaseNext (xhc.portConfigPhase p) (phases p) := by
  cases h with
  | same => exact Or.inl rfl
  | wait _ _ hphase => exact phaseNext_update (hphase ▸ .wait) p
  | reset _ _ hphase => exact phaseNext_update (hphase ▸ .reset) p
  | enable hphase => exact phaseNext_update (hphase ▸ .enable) p
  | address hphase => exact phaseNext_update (hphase ▸ .address) p
  | release hphase => exact phaseNext_update (hphase ▸ .release) p
  | configure hphase => exact phaseNext_update (hphase ▸ .configure) p
  | configured hphase => exact phaseNext_update (hphase ▸ .configured) p
  | handOver hphase hwaiting _ =>
      -- two entries are written: the port that is done, and the one that waits
      by_cases hpa : p = xhc.addressingPort
      · rw [hpa, Function.update_self, hphase]
        exact Or.inr .release
      · rw [Function.update_of_ne hpa]
        exact phaseNext_update (hwaiting ▸ .resetWaiting) p

/-- **The step lemma.** -/
theorem step_phase {op : XhciEvent × Readings} (h : xhc.step op = some xhc') (p : UInt8) :
    xhc'.portConfigPhase p = xhc.portConfigPhase p ∨
      PhaseNext (xhc.portConfigPhase p) (xhc'.portConfigPhase p) := by
  obtain ⟨⟨err, _⟩, hhandle, rfl⟩ := Option.map_eq_some_iff.mp h
  exact (handle_portStep hhandle).phase p

/-- **The phases of a port are in order.** In every run of calls and events, whatever the handlers
read, the values that the phase of a port takes are an initial part of one of the two ways. -/
theorem phases_in_order (devmgr : DeviceManager) (ops : List (XhciEvent × Readings)) (p : UInt8) :
    trace step (fun xhc => xhc.portConfigPhase p) { devmgr := devmgr } ops <+: phaseOrder ∨
      trace step (fun xhc => xhc.portConfigPhase p) { devmgr := devmgr } ops <+:
        phaseOrderWaiting := by
  obtain ⟨rest, htrace, hchain⟩ := isChain_trace (fun xhc : Controller => xhc.portConfigPhase p)
    (fun _ _ _ h => step_phase h p) { devmgr := devmgr } ops
  rw [htrace]
  exact prefix_phaseOrder hchain

end Controller

end UhyokOS
