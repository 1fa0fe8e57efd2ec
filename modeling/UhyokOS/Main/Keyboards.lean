import UhyokOS.Main.Steps
import Mathlib.Data.List.GetD

/-!
# From reports to keys

The keyboards of a running kernel. A driver asks for one report at a time, and the controller writes
it over the report before; a short one leaves the end of that as it was. So between the transfer and
the calls of the observer a report must not be overwritten.

* `newKeys` is what should be reported: the key codes that were not in the report before.
* `onInterruptCompleted_dma`: what the driver makes of a report.
* `Keyboards.step`: every step of the kernel keeps the keyboards in step with their reports.
-/

set_option linter.unusedSectionVars false

namespace UhyokOS

open Transition

/-! ## Reports of any length -/

namespace HIDKeyboardDriver

/-- A report as the driver sees it, with the end of the one before if it is short. -/
def overlay (prev : Report) (bytes : List UInt8) : Report := fun j => bytes.getD j (prev j)

/-- The last report, as the driver sees it. -/
def lastReport (prev : Report) (reports : List (List UInt8)) : Report := reports.foldl overlay prev

theorem reportLength_pos : 0 < 8 := Nat.succ_pos 7

/-- The keys of a report that were not in the one before. -/
def reportKeys (prev r : Report) : List Key :=
  ((codes r).filter fun key => key ≠ 0 ∧ key ∉ codes prev).map fun key =>
    observedKey ⟨(), r ⟨0, reportLength_pos⟩, key⟩

/-- The new keys of all reports. -/
def newKeys : Report → List (List UInt8) → List Key
  | _, [] => []
  | prev, bytes :: reports => reportKeys prev (overlay prev bytes) ++ newKeys (overlay prev bytes) reports

theorem newKeys_concat (prev : Report) (reports : List (List UInt8)) (bytes : List UInt8) :
    newKeys prev (reports ++ [bytes]) = newKeys prev reports ++
      reportKeys (lastReport prev reports) (overlay (lastReport prev reports) bytes) := by
  induction reports generalizing prev with
  | nil => exact List.append_nil _
  | cons first reports ih =>
      rw [List.cons_append, newKeys, ih, newKeys, List.append_assoc]
      rfl

theorem lastReport_concat (prev : Report) (reports : List (List UInt8)) (bytes : List UInt8) :
    lastReport prev (reports ++ [bytes]) = overlay (lastReport prev reports) bytes :=
  List.foldl_concat ..

/-- A driver with the default observer that has dealt with its reports, the last being `r`. -/
structure Shows (d : HIDKeyboardDriver Unit) (r : Report) : Prop where
  buf : ∀ j, d.buf j = if h : (j : Nat) < 8 then r ⟨j, h⟩ else 0
  remembers : Remembers d r
  observers : d.observers = [()]
  packetSize : d.inPacketSize = 8

variable {d d' : HIDKeyboardDriver Unit} {prev r : Report} {bytes : List UInt8}

/-- A new driver. -/
theorem exists_newKeyboardDriver (epInterruptIn : EndpointID) :
    ∃ d, newKeyboardDriver epInterruptIn (some ()) = some d ∧ Shows d noReport :=
  ⟨_, rfl, fun _ => (dite_eq_right_iff.mpr fun _ => rfl).symm,
    fun _ => (dite_eq_right_iff.mpr fun _ => rfl).symm, rfl, rfl⟩

/-- The buffer behind a transfer. -/
theorem Shows.buf_dma (h : Shows d prev) (hlength : bytes.length ≤ 8) (j : Fin kHIDBufferSize) :
    (d.dma bytes).buf j = if h : (j : Nat) < 8 then overlay prev bytes ⟨j, h⟩ else 0 := by
  show bytes.getD j (d.buf j) = _
  rw [h.buf j]
  split
  · rfl
  · rw [List.getD_eq_default]
    omega

/-- The driver cannot tell a short report from a whole one. -/
theorem Shows.dma_eq (h : Shows d prev) (hlength : bytes.length ≤ 8) :
    d.dma bytes = d.received (overlay prev bytes) := by
  have hbuf : (d.dma bytes).buf = (d.received (overlay prev bytes)).buf := by
    funext j
    rw [h.buf_dma hlength]
    show _ = dite _ _ _
    split
    · rfl
    · next hj => rw [h.buf j, dif_neg hj]
  calc d.dma bytes = { d with buf := (d.dma bytes).buf } := rfl
    _ = { d with buf := (d.received (overlay prev bytes)).buf } := by rw [hbuf]
    _ = d.received (overlay prev bytes) := rfl

/-- **One report.** -/
theorem onInterruptCompleted_dma (h : Shows d prev) (hlength : bytes.length ≤ 8) (epNum : Nat) :
    ∃ pushes ret d', (d.dma bytes).onInterruptCompleted (.new epNum true) bytes.length =
        some (pushes, ret, d') ∧ pushes.map observedKey = reportKeys prev (overlay prev bytes) ∧
      Shows d' (overlay prev bytes) := by
  have hroom : ((bytes.length : Nat) : Int) ≤ kHIDBufferSize := by
    simp only [kHIDBufferSize]
    omega
  rw [onInterruptCompleted, if_pos (isIn_new epNum), copyToPrevious, if_pos hroom]
  refine ⟨_, _, _, rfl, ?_, h.buf_dma hlength, fun j => ?_, h.observers, h.packetSize⟩
  · rw [h.dma_eq hlength, onDataReceived_of_one h.remembers h.observers, List.map_map]
    rfl
  · -- the bytes behind the report have been kept before
    show (if (j : Int) < bytes.length then (d.dma bytes).buf j else d.previousBuf j) = _
    rw [h.buf_dma hlength]
    split
    · rfl
    · next hj =>
        rw [h.remembers j]
        split
        · have hle : bytes.length ≤ (j : Nat) := by omega
          exact (List.getD_eq_default _ _ hle).symm
        · rfl

end HIDKeyboardDriver

/-! ## The keyboards of a running kernel -/

open HIDKeyboardDriver

/-- The main task is handling the front event of the ring. -/
def MainStage.handling : MainStage → Bool
  | .notify _ _ _ => true
  | .pop => true
  | _ => false

/-- The driver of a keyboard behind the report that is being dealt with. -/
def MainStage.driver? (i : Nat) : MainStage → Option (HIDKeyboardDriver Unit)
  | .notify j _ driver => if j = i then some driver else none
  | _ => none

/-- `InitializeKeyboard` is over. -/
def MainStage.observing : MainStage → Bool
  | .addTaskTimer => false
  | .newTask => false
  | .wakeTask _ => false
  | .initializeKeyboard => false
  | _ => true

namespace Kernel

variable {Q : Type}

/-- The events that the main task has not come to. -/
def unhandled (k : Kernel Q) : List UsbEvent := if k.main.handling then k.ring.tail else k.ring

/-- Those about a keyboard. -/
def waiting (k : Kernel Q) (i : Nat) : List UsbEvent :=
  k.unhandled.filter fun event => event.keyboard? = some i

/-- The keys that the observer has been called for, or is about to, because of a keyboard. -/
def keysOf (k : Kernel Q) (i : Nat) : List Key :=
  (k.pressed.filter fun x => x.1 = i).map Prod.snd

end Kernel

/-- Where a keyboard is with its reports, given the events that wait for the main task, the driver
behind a report that is being dealt with, and the keys so far. -/
inductive KeyboardState (i : Nat) (keyboard : Keyboard) :
    List UsbEvent → Option (HIDKeyboardDriver Unit) → List Key → Prop
  /-- All reports have been dealt with. -/
  | idle (hshows : Shows keyboard.driver (lastReport noReport keyboard.reports)) :
      KeyboardState i keyboard [] none (newKeys noReport keyboard.reports)
  /-- The last report is in the buffer. -/
  | arrived (d : HIDKeyboardDriver Unit) (reports : List (List UInt8)) (bytes : List UInt8)
      (hreports : keyboard.reports = reports ++ [bytes]) (hlength : bytes.length ≤ 8)
      (hshows : Shows d (lastReport noReport reports)) (hdriver : keyboard.driver = d.dma bytes)
      (hrequested : keyboard.requested = false) :
      KeyboardState i keyboard [.transfer i bytes.length] none (newKeys noReport reports)
  /-- The observer is being called. -/
  | notifying (d : HIDKeyboardDriver Unit)
      (hshows : Shows d (lastReport noReport keyboard.reports))
      (hrequested : keyboard.requested = false) :
      KeyboardState i keyboard [] (some d) (newKeys noReport keyboard.reports)
  /-- The transfer has failed, and the main task does not know. -/
  | failed (hshows : Shows keyboard.driver (lastReport noReport keyboard.reports))
      (hrequested : keyboard.requested = false) :
      KeyboardState i keyboard [.failed i] none (newKeys noReport keyboard.reports)

variable {Q : Type}

/-- The keyboards are in step with their reports. -/
structure Keyboards (k : Kernel Q) : Prop where
  observer : k.main.observing = true → k.defaultObserver = some ()
  occupied : k.main.handling = true → k.ring ≠ []
  known : ∀ i keyboard, k.keyboards i = some keyboard →
    KeyboardState i keyboard (k.waiting i) (k.main.driver? i) (k.keysOf i)
  unknown : ∀ i, k.keyboards i = none → k.keysOf i = [] ∧ k.main.driver? i = none ∧
    (k.waiting i = [] ∨ ∃ epNum, k.waiting i = [.configured i epNum])

namespace Keyboards

variable {k k' : Kernel Q}

/-- Nothing changes for the keyboards and the events that wait. -/
theorem of_unhandled (h : Keyboards k) (hkeyboards : k'.keyboards = k.keyboards)
    (hpressed : k'.pressed = k.pressed) (hunhandled : k'.unhandled = k.unhandled)
    (hobserver : k'.main.observing = true → k'.defaultObserver = some ())
    (hfront : k'.main.handling = true → k'.ring ≠ [])
    (hdriver : ∀ i, k'.main.driver? i = k.main.driver? i) : Keyboards k' := by
  have hwaiting : ∀ i, k'.waiting i = k.waiting i := fun i => by
    unfold Kernel.waiting
    rw [hunhandled]
  have hkeys : ∀ i, k'.keysOf i = k.keysOf i := fun i => by
    unfold Kernel.keysOf
    rw [hpressed]
  refine ⟨hobserver, hfront, fun i keyboard hkeyboard => ?_, fun i hnone => ?_⟩
  · rw [hkeyboards] at hkeyboard
    rw [hwaiting, hkeys, hdriver]
    exact h.known i keyboard hkeyboard
  · rw [hkeyboards] at hnone
    rw [hwaiting, hkeys, hdriver]
    exact h.unknown i hnone

/-- A step that leaves the keyboards and the ring alone. -/
theorem stay (h : Keyboards k) (hkeyboards : k'.keyboards = k.keyboards)
    (hpressed : k'.pressed = k.pressed) (hring : k'.ring = k.ring)
    (hhandling : k'.main.handling = k.main.handling)
    (hobserver : k'.main.observing = true → k'.defaultObserver = some ())
    (hdriver : ∀ i, k'.main.driver? i = k.main.driver? i) : Keyboards k' := by
  have hunhandled : k'.unhandled = k.unhandled := by
    unfold Kernel.unhandled
    rw [hring, hhandling]
  refine h.of_unhandled hkeyboards hpressed hunhandled hobserver (fun hk' => ?_) hdriver
  rw [hring]
  exact h.occupied (hhandling ▸ hk')

/-! ### The controller -/

theorem unhandled_addEvent (h : Keyboards k) (event : UsbEvent) :
    (k.addEvent event).unhandled = k.unhandled ++ [event] := by
  unfold Kernel.unhandled Kernel.addEvent
  by_cases hmain : k.main.handling = true
  · simp only [hmain, if_true]
    exact List.tail_append_of_ne_nil (h.occupied hmain)
  · simp only [hmain]
    rfl

theorem waiting_addEvent (h : Keyboards k) (event : UsbEvent) (i : Nat) :
    (k.addEvent event).waiting i =
      k.waiting i ++ if event.keyboard? = some i then [event] else [] := by
  unfold Kernel.waiting
  rw [h.unhandled_addEvent, List.filter_append, List.filter_singleton]
  by_cases hevent : event.keyboard? = some i <;> simp [hevent]

/-- An event that is about no keyboard, or about one that is not configured yet. -/
theorem addEvent (h : Keyboards k) {event : UsbEvent}
    (hevent : event.keyboard? = none ∨ ∃ i epNum, event = .configured i epNum ∧
      k.keyboards i = none ∧ k.waiting i = []) : Keyboards (k.addEvent event) := by
  refine ⟨h.observer, fun _ => List.append_ne_nil_of_right_ne_nil _ (List.cons_ne_nil _ _),
    fun i keyboard hkeyboard => ?_, fun i hnone => ?_⟩
  · have hother : event.keyboard? ≠ some i := by
      rintro hi
      rcases hevent with hevent | ⟨j, epNum, rfl, hj, -⟩
      · rw [hevent] at hi
        cases hi
      · cases hi
        exact absurd (hj.symm.trans hkeyboard) nofun
    rw [h.waiting_addEvent, if_neg hother, List.append_nil]
    exact h.known i keyboard hkeyboard
  · obtain ⟨hkeys, hdriver, hwaiting⟩ := h.unknown i hnone
    refine ⟨hkeys, hdriver, ?_⟩
    rw [h.waiting_addEvent]
    split_ifs with hi
    · rcases hevent with hevent | ⟨j, epNum, rfl, -, hempty⟩
      · rw [hevent] at hi
        cases hi
      · cases hi
        rw [hempty]
        exact Or.inr ⟨epNum, rfl⟩
    · rw [List.append_nil]
      exact hwaiting

/-- A driver that has asked for a report has dealt with the reports before. -/
theorem idle_of_requested (h : Keyboards k) {i : Nat} {keyboard : Keyboard}
    (hkeyboard : k.keyboards i = some keyboard) (hrequested : keyboard.requested = true) :
    Shows keyboard.driver (lastReport noReport keyboard.reports) ∧ k.waiting i = [] ∧
      k.main.driver? i = none ∧ k.keysOf i = newKeys noReport keyboard.reports := by
  have hstate := h.known i keyboard hkeyboard
  generalize k.waiting i = waiting, k.main.driver? i = driver, k.keysOf i = keys at hstate ⊢
  cases hstate with
  | idle hshows => exact ⟨hshows, rfl, rfl, rfl⟩
  | arrived d reports bytes hreports hlength hshows hdriver hnot =>
      exact absurd (hnot.symm.trans hrequested) nofun
  | notifying d hshows hnot => exact absurd (hnot.symm.trans hrequested) nofun
  | failed hshows hnot => exact absurd (hnot.symm.trans hrequested) nofun

/-- A transfer of a keyboard completes, one way or the other. -/
theorem complete (h : Keyboards k) {i : Nat} {keyboard keyboard' : Keyboard}
    (hkeyboard : k.keyboards i = some keyboard) {event : UsbEvent}
    (hevent : event.keyboard? = some i)
    (hstate : k.waiting i = [] → k.main.driver? i = none →
      KeyboardState i { keyboard' with requested := false } [event] none (k.keysOf i))
    (hrequested : keyboard.requested = true) : Keyboards (k.complete i keyboard' event) := by
  obtain ⟨-, hwaiting, hdriver, -⟩ := h.idle_of_requested hkeyboard hrequested
  have hfirst : Keyboards (k.addEvent .other) := h.addEvent (Or.inl rfl)
  have hwait : ∀ j, (k.complete i keyboard' event).waiting j =
      k.waiting j ++ if event.keyboard? = some j then [event] else [] :=
    h.waiting_addEvent event
  refine ⟨hfirst.observer, fun _ => List.append_ne_nil_of_right_ne_nil _ (List.cons_ne_nil _ _),
    fun j keyboard₁ hj => ?_, fun j hj => ?_⟩
  · have hj' : Function.update k.keyboards i (some { keyboard' with requested := false }) j =
        some keyboard₁ := hj
    rw [hwait]
    by_cases hij : j = i
    · subst hij
      rw [Function.update_self] at hj'
      cases hj'
      rw [if_pos hevent, hwaiting]
      show KeyboardState j _ [event] (k.main.driver? j) (k.keysOf j)
      rw [hdriver]
      exact hstate hwaiting hdriver
    · rw [Function.update_of_ne hij] at hj'
      rw [if_neg fun heq => hij (Option.some.inj (hevent.symm.trans heq)).symm, List.append_nil]
      exact h.known j keyboard₁ hj'
  · have hj' : Function.update k.keyboards i (some { keyboard' with requested := false }) j =
        none := hj
    have hij : j ≠ i := by
      rintro rfl
      rw [Function.update_self] at hj'
      cases hj'
    rw [Function.update_of_ne hij] at hj'
    rw [hwait, if_neg fun heq => hij (Option.some.inj (hevent.symm.trans heq)).symm,
      List.append_nil]
    exact h.unknown j hj'

/-! ### The main task -/

/-- The main task takes up the front event: only the keyboard it is about is concerned. -/
theorem front (h : Keyboards k) (hmain : k.main = .events) {event : UsbEvent}
    {ring : List UsbEvent} (hring : k.ring = event :: ring) (hring' : k'.ring = k.ring)
    (hmain' : k'.main.handling = true) (hobserver : k'.defaultObserver = k.defaultObserver)
    (hothers : ∀ j, event.keyboard? ≠ some j → k'.keyboards j = k.keyboards j ∧
      k'.main.driver? j = none ∧ k'.keysOf j = k.keysOf j)
    (hself : ∀ i, event.keyboard? = some i → k.waiting i = event :: k'.waiting i →
      ∃ keyboard, k'.keyboards i = some keyboard ∧
        KeyboardState i keyboard (k'.waiting i) (k'.main.driver? i) (k'.keysOf i)) :
    Keyboards k' := by
  have hwaiting : ∀ i, k.waiting i =
      (if event.keyboard? = some i then [event] else []) ++ k'.waiting i := by
    intro i
    unfold Kernel.waiting Kernel.unhandled
    rw [hmain', hring', hmain, hring]
    show List.filter _ (event :: ring) = _ ++ List.filter _ ring
    rw [List.filter_cons]
    by_cases hevent : event.keyboard? = some i <;> simp [hevent]
  have hdriver : ∀ j, k.main.driver? j = none := fun j => by
    rw [hmain]
    rfl
  refine ⟨fun _ => ?_, fun _ => ?_, fun j keyboard hj => ?_, fun j hj => ?_⟩
  · exact hobserver.trans (h.observer (by rw [hmain]; rfl))
  · rw [hring', hring]
    exact List.cons_ne_nil _ _
  · have hwait := hwaiting j
    by_cases hevent : event.keyboard? = some j
    · rw [if_pos hevent] at hwait
      obtain ⟨keyboard', hkeyboard', hstate⟩ := hself j hevent hwait
      cases hj.symm.trans hkeyboard'
      exact hstate
    · obtain ⟨hkeyboards, hnone, hkeys⟩ := hothers j hevent
      rw [if_neg hevent, List.nil_append] at hwait
      rw [hkeyboards] at hj
      have hstate := h.known j keyboard hj
      rwa [hwait, hdriver j, ← hnone, ← hkeys] at hstate
  · have hwait := hwaiting j
    by_cases hevent : event.keyboard? = some j
    · rw [if_pos hevent] at hwait
      obtain ⟨keyboard', hkeyboard', -⟩ := hself j hevent hwait
      exact absurd (hj.symm.trans hkeyboard') nofun
    · obtain ⟨hkeyboards, hnone, hkeys⟩ := hothers j hevent
      rw [if_neg hevent, List.nil_append] at hwait
      rw [hkeyboards] at hj
      obtain ⟨hkeys', -, hstate⟩ := h.unknown j hj
      rw [hwait] at hstate
      exact ⟨hkeys.trans hkeys', hnone, hstate⟩

/-- Calls because of one keyboard add nothing to the keys of another. -/
theorem keysOf_append (hpressed : k'.pressed = k.pressed ++ keys) {i j : Nat}
    (hkeys : ∀ x ∈ keys, x.1 = i) :
    k'.keysOf j = k.keysOf j ++ if j = i then keys.map Prod.snd else [] := by
  unfold Kernel.keysOf
  rw [hpressed, List.filter_append, List.map_append]
  congr 1
  split_ifs with hij
  · rw [List.filter_eq_self.mpr fun x hx => decide_eq_true ((hkeys x hx).trans hij.symm)]
  · rw [List.filter_eq_nil_iff.mpr fun x hx => ?_]
    · rfl
    · rw [hkeys x hx, decide_eq_true_eq]
      exact fun heq => hij heq.symm

variable [PriorityQueue Q Timer]

theorem mainStep (h : Keyboards k) (hstep : MainStep k k') : Keyboards k' := by
  cases hstep with
  | configured hmain i epNum ring hring driver hdriver =>
      have hobserver := h.observer (by rw [hmain]; rfl)
      refine h.front hmain hring rfl rfl rfl (fun j hj => ⟨?_, rfl, rfl⟩) fun j hj hwaiting => ?_
      · exact Function.update_of_ne (fun heq => hj (congrArg some heq.symm)) _ _
      · cases hj
        refine ⟨_, Function.update_self i _ k.keyboards, ?_⟩
        have hnone : k.keyboards i = none := by
          cases hkeyboard : k.keyboards i with
          | none => rfl
          | some keyboard =>
              have hstate := h.known i keyboard hkeyboard
              rw [hwaiting] at hstate
              cases hstate
        obtain ⟨hkeys, -, hconfigured⟩ := h.unknown i hnone
        rw [hwaiting] at hconfigured
        obtain ⟨epNum', hconfigured⟩ := hconfigured.resolve_left (List.cons_ne_nil _ _)
        obtain ⟨-, hempty⟩ := List.cons_eq_cons.mp hconfigured
        rw [hempty]
        show KeyboardState i _ [] none (k.keysOf i)
        rw [hkeys]
        obtain ⟨d, hd, hshows⟩ := exists_newKeyboardDriver (.new epNum true)
        rw [hobserver, hd] at hdriver
        cases hdriver
        exact .idle hshows
  | transfer hmain i len ring hring keyboard hkeyboard pushes ret driver hdriver =>
      have hpushes : ∀ x ∈ pushes.map fun push => (i, observedKey push), x.1 = i := by
        intro x hx
        obtain ⟨push, -, rfl⟩ := List.mem_map.mp hx
        rfl
      have hkeys : ∀ j, Kernel.keysOf { k with
          pressed := k.pressed ++ pushes.map fun push => (i, observedKey push)
          main := .notify i pushes driver } j = _ := fun j => keysOf_append rfl hpushes
      refine h.front hmain hring rfl rfl rfl (fun j hj => ?_) fun j hj hwaiting => ?_
      · have hij : j ≠ i := fun heq => hj (congrArg some heq.symm)
        refine ⟨rfl, if_neg hij.symm, ?_⟩
        rw [hkeys j, if_neg hij, List.append_nil]
      · cases hj
        refine ⟨keyboard, hkeyboard, ?_⟩
        have hstate := h.known i keyboard hkeyboard
        rw [hwaiting] at hstate
        rw [hkeys i, if_pos rfl, List.map_map]
        generalize k.keysOf i = keys, k.main.driver? i = driver? at hstate ⊢
        revert hstate
        generalize Kernel.waiting _ i = waiting
        intro hstate
        cases hstate with
        | arrived d reports bytes hreports hlength hshows hbuf hrequested =>
            obtain ⟨pushes', ret', d', heq, hmap, hshows'⟩ :=
              onInterruptCompleted_dma hshows hlength keyboard.epNum
            rw [hbuf, heq] at hdriver
            cases hdriver
            show KeyboardState i keyboard [] (if i = i then some driver else none) _
            have hnew := newKeys_concat noReport reports bytes
            rw [← hreports] at hnew
            rw [if_pos rfl]
            show KeyboardState i keyboard [] (some driver)
              (newKeys noReport reports ++ pushes.map observedKey)
            rw [hmap, ← hnew]
            refine .notifying driver ?_ hrequested
            rw [hreports, lastReport_concat]
            exact hshows'
  | mouse hmain activate ring hring =>
      exact h.front hmain hring rfl rfl rfl (fun j _ => ⟨rfl, rfl, rfl⟩) fun j hj => nomatch hj
  | skip hmain event ring hring hevent =>
      refine h.front hmain hring rfl rfl rfl (fun j _ => ⟨rfl, rfl, rfl⟩) fun j hj hwaiting => ?_
      obtain ⟨i, rfl⟩ : ∃ i, event = .failed i := by
        rcases hevent with rfl | hevent
        · cases hj
        · exact hevent
      obtain rfl : i = j := Option.some.inj hj
      cases hkeyboard : k.keyboards i with
      | none =>
          obtain ⟨-, -, hconfigured⟩ := h.unknown i hkeyboard
          rw [hwaiting] at hconfigured
          rcases hconfigured with hconfigured | ⟨epNum, hconfigured⟩ <;> cases hconfigured
      | some keyboard =>
          refine ⟨keyboard, rfl, ?_⟩
          have hstate := h.known i keyboard hkeyboard
          rw [hwaiting] at hstate
          revert hstate
          generalize Kernel.waiting _ i = waiting
          show KeyboardState i keyboard (_ :: waiting) _ (k.keysOf i) →
            KeyboardState i keyboard waiting none (k.keysOf i)
          generalize k.keysOf i = keys, k.main.driver? i = driver?
          intro hstate
          cases hstate with
          | failed hshows hrequested => exact .idle hshows
  | nextReport i driver hmain keyboard hkeyboard =>
      have hdriver : k.main.driver? i = some driver := by
        rw [hmain]
        exact if_pos rfl
      have hothers : ∀ j, j ≠ i → k.main.driver? j = none := fun j hj => by
        rw [hmain]
        exact if_neg hj.symm
      have hwaiting : ∀ j, ({ k with
          keyboards := Function.update k.keyboards i
            (some { keyboard with driver := driver, requested := true })
          main := .pop } : Kernel Q).waiting j = k.waiting j := fun j => by
        unfold Kernel.waiting Kernel.unhandled
        rw [hmain]
        rfl
      refine ⟨fun _ => h.observer (by rw [hmain]; rfl), fun _ => h.occupied (by rw [hmain]; rfl),
        fun j keyboard₁ hj => ?_, fun j hj => ?_⟩
      · rw [hwaiting]
        by_cases hij : j = i
        · subst hij
          cases (Function.update_self j _ k.keyboards).symm.trans hj
          have hstate := h.known j keyboard hkeyboard
          show KeyboardState j _ (k.waiting j) none (k.keysOf j)
          rw [hdriver] at hstate
          generalize k.waiting j = waiting, k.keysOf j = keys at hstate ⊢
          cases hstate with
          | notifying d hshows hrequested => exact .idle hshows
        · have hstate := h.known j keyboard₁ ((Function.update_of_ne hij _ k.keyboards).symm.trans hj)
          rw [hothers j hij] at hstate
          exact hstate
      · have hij : j ≠ i := by
          rintro rfl
          exact absurd ((Function.update_self j _ k.keyboards).symm.trans hj) nofun
        rw [hwaiting]
        obtain ⟨hkeys, -, hstate⟩ :=
          h.unknown j ((Function.update_of_ne hij _ k.keyboards).symm.trans hj)
        exact ⟨hkeys, rfl, hstate⟩
  | pop hmain =>
      refine h.of_unhandled rfl rfl ?_ (fun _ => h.observer (by rw [hmain]; rfl)) nofun fun j => ?_
      · unfold Kernel.unhandled
        rw [hmain]
        rfl
      · rw [hmain]
        rfl
  | initializeKeyboard hmain =>
      exact h.stay rfl rfl rfl (by rw [hmain]; rfl) (fun _ => rfl) fun j => by rw [hmain]; rfl
  | addTaskTimer hmain =>
      exact h.stay rfl rfl rfl (by rw [hmain]; rfl) nofun fun j => by rw [hmain]; rfl
  | newTask hmain =>
      exact h.stay rfl rfl rfl (by rw [hmain]; rfl) nofun fun j => by rw [hmain]; rfl
  | wakeTask hmain =>
      exact h.stay rfl rfl rfl (by rw [hmain]; rfl) nofun fun j => by rw [hmain]; rfl
  | _ =>
      exact h.stay rfl rfl rfl (by rw [‹k.main = _›]; rfl)
        (fun _ => h.observer (by rw [‹k.main = _›]; rfl)) fun j => by rw [‹k.main = _›]; rfl

variable {m : Machine} {op : KernelOp}

/-- **Every step keeps the keyboards in step.** -/
theorem step (h : Keyboards k) (hstep : KernelStep m k op k') : Keyboards k' := by
  cases hstep with
  | report i bytes keyboard hkeyboard hrequested hlength =>
      obtain ⟨hshows, -, -, hkeys⟩ := h.idle_of_requested hkeyboard hrequested
      rw [hshows.packetSize] at hlength
      refine h.complete hkeyboard rfl (fun _ _ => ?_) hrequested
      rw [hkeys]
      exact .arrived keyboard.driver keyboard.reports bytes rfl hlength hshows rfl rfl
  | failed i keyboard hkeyboard hrequested =>
      obtain ⟨hshows, -, -, hkeys⟩ := h.idle_of_requested hkeyboard hrequested
      refine h.complete hkeyboard rfl (fun _ _ => ?_) hrequested
      rw [hkeys]
      exact .failed hshows rfl
  | configured i epNum hnew hring =>
      refine h.addEvent (Or.inr ⟨i, epNum, rfl, hnew, List.filter_eq_nil_iff.mpr fun event hevent => ?_⟩)
      rw [decide_eq_true_eq]
      refine hring event ?_
      unfold Kernel.unhandled at hevent
      split_ifs at hevent
      · exact List.mem_of_mem_tail hevent
      · exact hevent
  | event event hevent => exact h.addEvent (Or.inl hevent)
  | interruptXHCI hirq mail hcpu hhands =>
      exact h.stay rfl rfl rfl rfl h.observer fun _ => rfl
  | interruptTimer hrange k' reported result htimer =>
      rw [htimer.kernel]
      exact h.stay rfl rfl rfl rfl h.observer fun _ => rfl
  | main hexec k' hmain => exact h.mainStep hmain
  | terminal hexec hlate k' hterminal =>
      cases hterminal <;> exact h.stay rfl rfl rfl rfl h.observer fun _ => rfl

theorem init (tick : Nat) : Keyboards (.init tick : Kernel Q) :=
  ⟨nofun, nofun, nofun, fun _ _ => ⟨rfl, rfl, Or.inl rfl⟩⟩

end Keyboards

/-- The observer is called for all reports but the one that waits, if any. -/
theorem Keyboards.keysOf_eq {k : Kernel Q} (h : Keyboards k) {i : Nat} {keyboard : Keyboard}
    (hkeyboard : k.keyboards i = some keyboard) : ∃ handled waiting,
      keyboard.reports = handled ++ waiting ∧ waiting.length ≤ (k.waiting i).length ∧
        k.keysOf i = newKeys noReport handled := by
  have hstate := h.known i keyboard hkeyboard
  generalize k.waiting i = events, k.main.driver? i = driver, k.keysOf i = keys at hstate ⊢
  cases hstate with
  | arrived d reports bytes hreports hlength hshows hdriver hrequested =>
      exact ⟨reports, [bytes], hreports, Nat.le_refl 1, rfl⟩
  | _ => exact ⟨keyboard.reports, [], (List.append_nil _).symm, Nat.zero_le _, rfl⟩

/-- A report at the front of the ring is in the buffer of a driver that has dealt with the reports
before. -/
theorem Keyboards.exists_arrived {k : Kernel Q} (h : Keyboards k) (hmain : k.main = .events)
    {i len : Nat} {ring : List UsbEvent} (hring : k.ring = .transfer i len :: ring) :
    ∃ keyboard d bytes prev, k.keyboards i = some keyboard ∧ keyboard.driver = d.dma bytes ∧
      len = bytes.length ∧ bytes.length ≤ 8 ∧ Shows d prev := by
  obtain ⟨rest, hwaiting⟩ : ∃ rest, k.waiting i = .transfer i len :: rest := by
    unfold Kernel.waiting Kernel.unhandled
    rw [hmain, hring]
    exact ⟨_, List.filter_cons_of_pos (decide_eq_true rfl)⟩
  cases hkeyboard : k.keyboards i with
  | none =>
      obtain ⟨-, -, hconfigured⟩ := h.unknown i hkeyboard
      rw [hwaiting] at hconfigured
      rcases hconfigured with hconfigured | ⟨epNum, hconfigured⟩ <;> cases hconfigured
  | some keyboard =>
      have hstate := h.known i keyboard hkeyboard
      rw [hwaiting] at hstate
      generalize k.main.driver? i = driver?, k.keysOf i = keys at hstate
      cases hstate with
      | arrived d reports bytes hreports hlength hshows hdriver hrequested =>
          exact ⟨keyboard, d, bytes, _, rfl, hdriver, rfl, hlength, hshows⟩

/-- A report has at most six new keys. -/
theorem length_reportKeys_le (prev r : Report) : (reportKeys prev r).length ≤ 6 := by
  unfold reportKeys
  rw [List.length_map]
  exact List.length_filter_le _ (codes r)

/-- So the observer is called at most six times for a report. -/
theorem Keyboards.length_pushes_le {k : Kernel Q} (h : Keyboards k) (hmain : k.main = .events)
    {i len : Nat} {ring : List UsbEvent} (hring : k.ring = .transfer i len :: ring)
    {keyboard : Keyboard} (hkeyboard : k.keyboards i = some keyboard)
    {pushes : List (KeyPush Unit)} {ret : HIDReturn} {driver : HIDKeyboardDriver Unit}
    (hdriver : keyboard.driver.onInterruptCompleted (.new keyboard.epNum true) len =
      some (pushes, ret, driver)) : pushes.length ≤ 6 := by
  obtain ⟨keyboard', d, bytes, prev, hkeyboard', hbuf, rfl, hlength, hshows⟩ :=
    h.exists_arrived hmain hring
  cases hkeyboard.symm.trans hkeyboard'
  obtain ⟨pushes', ret', d', heq, hkeys, -⟩ := onInterruptCompleted_dma hshows hlength keyboard.epNum
  rw [hbuf, heq] at hdriver
  cases hdriver
  rw [← List.length_map (f := observedKey), hkeys]
  exact length_reportKeys_le _ _

/-- A keyboard has at most one event that waits. -/
theorem Keyboards.waiting_length_le {k : Kernel Q} (h : Keyboards k) {i : Nat}
    {keyboard : Keyboard} (hkeyboard : k.keyboards i = some keyboard) :
    (k.waiting i).length ≤ 1 := by
  have hstate := h.known i keyboard hkeyboard
  generalize k.waiting i = events, k.main.driver? i = driver, k.keysOf i = keys at hstate ⊢
  cases hstate with
  | idle hshows => exact Nat.zero_le 1
  | notifying d hshows hrequested => exact Nat.zero_le 1
  | _ => exact Nat.le_refl 1

/-- **Keyboards are in step in every state of the running kernel.** -/
theorem Kernel.Reachable.keyboards {m : Machine} {tick : Nat} [PriorityQueue Q Timer]
    {k : Kernel Q} (htick : tick < kTimer05Sec) (hr : k.Reachable m tick) : Keyboards k :=
  hr.invariant _ htick (.init tick) fun _ _ _ _ _ h hstep => h.step hstep

end UhyokOS
