import UhyokOS.Error
import UhyokOS.Usb.Endpoint
import Mathlib.Data.List.Count

/-!
# The keyboard

The model of the HID keyboard driver (`kernel/usb/classdriver/keyboard.cpp` and `hid.cpp`). The
controller writes a report to the buffer of the driver. The driver compares the key codes in it with
the buffer of the report before, and then keeps the new report as the previous one.

* `onDataReceived_eq`: which observers are called, and with what.
* `deliver_next`: the buffer that is compared with is the previous report.
* `keyPush_exactly_once_iff`: every key is reported once, at each report of any sequence, iff no new
  code is repeated in it.
-/

namespace UhyokOS

/-! ## The source -/

/-- Source: `kernel/usb/classdriver/hid.hpp`, `HIDBaseDriver::kBufferSize` -/
abbrev kHIDBufferSize : Nat := 1024

/-- The fields that the arrival of data uses.
Source: `kernel/usb/classdriver/hid.hpp`, `HIDBaseDriver` -/
structure HIDBaseDriver where
  epInterruptIn : EndpointID
  inPacketSize : Nat
  buf : Fin kHIDBufferSize → UInt8 := fun _ => 0
  previousBuf : Fin kHIDBufferSize → UInt8 := fun _ => 0

/-- Source: `kernel/usb/classdriver/keyboard.hpp`, `HIDKeyboardDriver` -/
structure HIDKeyboardDriver (Observer : Type) extends HIDBaseDriver where
  /-- The first `num_observers_` elements of `observers_`. -/
  observers : List Observer := []
  /-- `observers_` has 4 elements. -/
  room : observers.length ≤ 4

/-- A call of an observer. -/
structure KeyPush (Observer : Type) where
  observer : Observer
  modifier : UInt8
  keycode : UInt8
deriving DecidableEq

/-- What `OnInterruptCompleted` returns. -/
inductive HIDReturn
  /-- What `InterruptIn` returns for these arguments and the buffer of the driver. -/
  | interruptIn (epId : EndpointID) (len : Nat)
  /-- An error of its own. -/
  | error (e : Error)
deriving DecidableEq

namespace HIDKeyboardDriver

variable {Observer : Type}

/-- Source: `kernel/usb/classdriver/keyboard.cpp`, `HIDKeyboardDriver::HIDKeyboardDriver` -/
def new (epInterruptIn : EndpointID) : HIDKeyboardDriver Observer where
  epInterruptIn := epInterruptIn
  inPacketSize := 8
  observers := []
  room := Nat.zero_le 4

/-- Source: `kernel/usb/classdriver/keyboard.cpp`, `HIDKeyboardDriver::SubscribeKeyPush`; undefined
outside the array. -/
def subscribeKeyPush (d : HIDKeyboardDriver Observer) (observer : Observer) :
    Option (HIDKeyboardDriver Observer) :=
  if h : d.observers.length < 4 then
    some { d with
      observers := d.observers ++ [observer]
      room := by rw [List.length_append]; exact h }
  else none

/-- The branch for keyboards, with the endpoint that `SetEndpoint` sets later.
Source: `kernel/usb/device.cpp`, `NewClassDriver` -/
def newKeyboardDriver (epInterruptIn : EndpointID) (defaultObserver : Option Observer) :
    Option (HIDKeyboardDriver Observer) :=
  match defaultObserver with
  | some observer => (new epInterruptIn).subscribeKeyPush observer
  | none => some (new epInterruptIn)

/-- Source: `kernel/usb/classdriver/keyboard.cpp`, `HIDKeyboardDriver::NotifyKeyPush` -/
def notifyKeyPush (d : HIDKeyboardDriver Observer) (modifier keycode : UInt8) :
    List (KeyPush Observer) :=
  d.observers.map fun observer => { observer, modifier, keycode }

/-- Source: `kernel/usb/classdriver/keyboard.cpp`, `HIDKeyboardDriver::OnDataReceived` -/
def onDataReceived (d : HIDKeyboardDriver Observer) : List (KeyPush Observer) :=
  ([2, 3, 4, 5, 6, 7] : List (Fin kHIDBufferSize)).flatMap fun i =>
    let key := d.buf i
    if key = 0 then []
    else if ∃ j : Fin kHIDBufferSize, 2 ≤ j ∧ d.previousBuf j = key then []
    else d.notifyKeyPush (d.buf 0) key

/-- `std::copy_n(buf_.begin(), len, previous_buf_.begin())`, undefined outside the arrays. -/
def copyToPrevious (d : HIDKeyboardDriver Observer) (len : Int) :
    Option (HIDKeyboardDriver Observer) :=
  if len ≤ kHIDBufferSize then
    some { d with previousBuf := fun j => if (j : Int) < len then d.buf j else d.previousBuf j }
  else none

/-- The calls of the observers, the return value and the driver behind it.
Source: `kernel/usb/classdriver/hid.cpp`, `HIDBaseDriver::OnInterruptCompleted` -/
def onInterruptCompleted (d : HIDKeyboardDriver Observer) (epId : EndpointID) (len : Int) :
    Option (List (KeyPush Observer) × HIDReturn × HIDKeyboardDriver Observer) :=
  if epId.isIn then
    (d.copyToPrevious len).map fun d' =>
      (d.onDataReceived, .interruptIn d.epInterruptIn d.inPacketSize, d')
  else some ([], .error .kNotImplemented, d)

/-! ## Reports -/

/-- A report in the boot protocol: a modifier byte, a reserved byte and six key codes. -/
abbrev Report : Type := Fin 8 → UInt8

/-- The controller has written a report to the buffer. -/
def received (d : HIDKeyboardDriver Observer) (r : Report) : HIDKeyboardDriver Observer :=
  { d with buf := fun j => if h : (j : Nat) < 8 then r ⟨j, h⟩ else d.buf j }

/-- Reports arrive one after the other. The result is the calls of the observers for each. -/
def deliver (epId : EndpointID) : HIDKeyboardDriver Observer → List Report →
    Option (List (List (KeyPush Observer)))
  | _, [] => some []
  | d, r :: rs => do
    let (calls, _, d') ← (d.received r).onInterruptCompleted epId 8
    let rest ← deliver epId d' rs
    some (calls :: rest)

/-- The key codes of a report. -/
def codes (r : Report) : List UInt8 := ([2, 3, 4, 5, 6, 7] : List (Fin 8)).map r

/-- The code stands in a report and not in the one before. -/
def IsNew (prev r : Report) (key : UInt8) : Prop := key ≠ 0 ∧ key ∈ codes r ∧ key ∉ codes prev

instance (prev r : Report) (key : UInt8) : Decidable (IsNew prev r key) := by
  unfold IsNew
  infer_instance

/-- An observer has been called once for every new code, with the modifier byte, and nobody has been
called for anything else. -/
def ExactlyOnce [DecidableEq Observer] (observer : Observer) (prev r : Report)
    (calls : List (KeyPush Observer)) : Prop :=
  ∀ call : KeyPush Observer, calls.count call =
    if call.observer = observer ∧ call.modifier = r 0 ∧ IsNew prev r call.keycode then 1 else 0

/-- No new code is repeated in a report. -/
def NoRepeatedCode (prev r : Report) : Prop := ∀ key, IsNew prev r key → (codes r).count key ≤ 1

/-! ## One report -/

variable {d d' : HIDKeyboardDriver Observer} {prev r : Report} {key : UInt8} {observer : Observer}
  {epId : EndpointID}

/-- The driver remembers the report before. Behind it the buffer has always been 0. -/
def Remembers (d : HIDKeyboardDriver Observer) (prev : Report) : Prop :=
  ∀ j, d.previousBuf j = if h : (j : Nat) < 8 then prev ⟨j, h⟩ else 0

theorem mem_codes : key ∈ codes r ↔ ∃ i : Fin 8, 2 ≤ i ∧ r i = key := by
  have hbytes : ∀ i : Fin 8, i ∈ ([2, 3, 4, 5, 6, 7] : List (Fin 8)) ↔ 2 ≤ i := by decide
  simp only [codes, List.mem_map, hbytes]

/-- The search over the whole buffer finds the codes of the previous report. -/
theorem exists_previous_iff (h : Remembers d prev) (hkey : key ≠ 0) :
    (∃ j : Fin kHIDBufferSize, 2 ≤ j ∧ d.previousBuf j = key) ↔ key ∈ codes prev := by
  rw [mem_codes]
  constructor
  · rintro ⟨j, hj, hfound⟩
    rw [h j] at hfound
    split at hfound
    · next hlt => exact ⟨⟨j, hlt⟩, hj, hfound⟩
    · exact absurd hfound.symm hkey
  · rintro ⟨i, hi, hfound⟩
    have hlt : (i : Nat) < kHIDBufferSize := Nat.lt_of_lt_of_le i.isLt (by decide)
    refine ⟨⟨i, hlt⟩, hi, ?_⟩
    rw [h ⟨i, hlt⟩, dif_pos i.isLt]
    exact hfound

/-- The observers are called for the codes that are new, in their order. -/
theorem onDataReceived_eq (h : Remembers d prev) :
    (d.received r).onDataReceived =
      ((codes r).filter fun key => key ≠ 0 ∧ key ∉ codes prev).flatMap
        (d.notifyKeyPush (r 0)) := by
  have hloop : (d.received r).onDataReceived = (codes r).flatMap fun key =>
      if key = 0 then []
      else if ∃ j : Fin kHIDBufferSize, 2 ≤ j ∧ d.previousBuf j = key then []
      else d.notifyKeyPush (r 0) key := rfl
  rw [hloop]
  induction codes r with
  | nil => rfl
  | cons key keys ih =>
      rw [List.flatMap_cons, ih, List.filter_cons]
      by_cases hkey : key = 0
      · simp [hkey]
      · rw [if_neg hkey]
        simp only [exists_previous_iff h hkey]
        by_cases hheld : key ∈ codes prev
        · simp [hheld]
        · simp [hkey, hheld]

/-- With one observer, these are the calls. -/
theorem onDataReceived_of_one (h : Remembers d prev) (hone : d.observers = [observer]) :
    (d.received r).onDataReceived =
      ((codes r).filter fun key => key ≠ 0 ∧ key ∉ codes prev).map (KeyPush.mk observer (r 0)) := by
  have hnotify : d.notifyKeyPush (r 0) = fun key => [KeyPush.mk observer (r 0) key] := by
    funext key
    rw [notifyKeyPush, hone]
    rfl
  rw [onDataReceived_eq h, hnotify, List.map_eq_flatMap]

/-- A call is made as often as its code occurs in the report. -/
theorem count_onDataReceived [DecidableEq Observer] (h : Remembers d prev)
    (hone : d.observers = [observer]) (call : KeyPush Observer) :
    (d.received r).onDataReceived.count call =
      if call.observer = observer ∧ call.modifier = r 0 ∧ IsNew prev r call.keycode then
        (codes r).count call.keycode else 0 := by
  rw [onDataReceived_of_one h hone]
  obtain ⟨o, modifier, key⟩ := call
  split
  · next hcall =>
      obtain ⟨rfl, rfl, hkey, -, hheld⟩ := hcall
      have hinj : Function.Injective (KeyPush.mk o (r 0)) := fun _ _ heq => (KeyPush.mk.inj heq).2.2
      rw [List.count_map_of_injective _ _ hinj]
      exact List.count_filter (decide_eq_true ⟨hkey, hheld⟩)
  · next hcall =>
      refine List.count_eq_zero.mpr fun hmem => hcall ?_
      obtain ⟨key', hkey', heq⟩ := List.mem_map.mp hmem
      obtain ⟨rfl, rfl, rfl⟩ := KeyPush.mk.inj heq
      obtain ⟨hin, hnew⟩ := List.mem_filter.mp hkey'
      obtain ⟨hkey, hheld⟩ := of_decide_eq_true hnew
      exact ⟨rfl, rfl, hkey, hin, hheld⟩

/-- **One report**: the observer is called once for every new code iff none is repeated. -/
theorem exactlyOnce_iff [DecidableEq Observer] (h : Remembers d prev)
    (hone : d.observers = [observer]) :
    ExactlyOnce observer prev r (d.received r).onDataReceived ↔ NoRepeatedCode prev r := by
  simp only [ExactlyOnce, count_onDataReceived h hone]
  constructor
  · intro honce key hnew
    have hcount := honce ⟨observer, r 0, key⟩
    rw [if_pos ⟨rfl, rfl, hnew⟩, if_pos ⟨rfl, rfl, hnew⟩] at hcount
    exact Nat.le_of_eq hcount
  · intro hrepeat call
    split
    · next hcall =>
        have hnew := hcall.2.2
        exact Nat.le_antisymm (hrepeat _ hnew) (List.count_pos_iff.mpr hnew.2.1)
    · rfl

/-! ## All reports -/

/-- Behind a report the driver remembers it, and waits for the next one. -/
theorem onInterruptCompleted_received (hin : epId.isIn = true) (h : Remembers d prev) :
    ∃ d', (d.received r).onInterruptCompleted epId 8 =
        some ((d.received r).onDataReceived, .interruptIn d.epInterruptIn d.inPacketSize, d') ∧
      Remembers d' r ∧ d'.observers = d.observers := by
  have hlen : (8 : Int) ≤ kHIDBufferSize := by decide
  rw [onInterruptCompleted, if_pos hin, copyToPrevious, if_pos hlen]
  refine ⟨_, rfl, fun j => ?_, rfl⟩
  simp only [received]
  by_cases hj : (j : Nat) < 8
  · rw [if_pos (by omega), dif_pos hj, dif_pos hj]
  · rw [if_neg (by omega), dif_neg hj, h j, dif_neg hj]

/-- The calls for all reports, each with the report before. -/
theorem deliver_exactlyOnce_iff [DecidableEq Observer] (hin : epId.isIn = true)
    (h : Remembers d prev) (hone : d.observers = [observer]) (rs : List Report) :
    ∃ out, deliver epId d rs = some out ∧ out.length = rs.length ∧
      ∀ (n : Nat) (p r : Report) (calls : List (KeyPush Observer)),
        (prev :: rs)[n]? = some p → rs[n]? = some r → out[n]? = some calls →
        (ExactlyOnce observer p r calls ↔ NoRepeatedCode p r) := by
  induction rs generalizing d prev with
  | nil => exact ⟨[], rfl, rfl, fun n p r calls _ hr => nomatch hr⟩
  | cons r rs ih =>
      obtain ⟨d', hstep, hd', hobservers⟩ := onInterruptCompleted_received hin h
      obtain ⟨out, hout, hlength, hall⟩ := ih hd' (hobservers.trans hone)
      refine ⟨(d.received r).onDataReceived :: out, ?_, congrArg (· + 1) hlength, ?_⟩
      · rw [deliver, hstep]
        simp only [Option.bind_eq_bind, Option.bind_some, hout]
      · intro n p r' calls hp hr hcalls
        cases n with
        | zero =>
            cases hp
            cases hr
            cases hcalls
            exact exactlyOnce_iff h hone
        | succ n => exact hall n p r' calls hp hr hcalls

/-- There is no report before the first one. -/
def noReport : Report := fun _ => 0

/-- A new driver has the default observer and has seen no report. -/
theorem newKeyboardDriver_some (epInterruptIn : EndpointID) (observer : Observer) :
    ∃ d, newKeyboardDriver epInterruptIn (some observer) = some d ∧ Remembers d noReport ∧
      d.observers = [observer] :=
  ⟨_, rfl, fun _ => (dite_eq_right_iff.mpr fun _ => rfl).symm, rfl⟩

theorem isIn_new (epNum : Nat) : (EndpointID.new epNum true).isIn = true := by
  have haddress : (EndpointID.new epNum true).addr = 2 * epNum + 1 :=
    EndpointID.address_new epNum true
  rw [EndpointID.isIn, haddress, Nat.testBit_zero, decide_eq_true_eq]
  omega

/-- **Key presses are reported exactly once** at a report of any sequence iff no new code is repeated
in that report. -/
theorem keyPush_exactly_once_iff [DecidableEq Observer] (observer : Observer)
    (epInterruptIn : EndpointID) (epNum : Nat) (rs : List Report) :
    ∃ d out, newKeyboardDriver epInterruptIn (some observer) = some d ∧
      deliver (.new epNum true) d rs = some out ∧ out.length = rs.length ∧
      ∀ (n : Nat) (prev r : Report) (calls : List (KeyPush Observer)),
        (noReport :: rs)[n]? = some prev → rs[n]? = some r → out[n]? = some calls →
        (ExactlyOnce observer prev r calls ↔ NoRepeatedCode prev r) := by
  obtain ⟨d, hd, hremembers, hone⟩ := newKeyboardDriver_some epInterruptIn observer
  obtain ⟨out, hout, hlength, hall⟩ := deliver_exactlyOnce_iff (isIn_new epNum) hremembers hone rs
  exact ⟨d, out, hd, hout, hlength, hall⟩

/-- The report that a keyboard sends when too many keys are held. -/
def rollOver : Report := fun i => if i < 2 then 0 else 1

/-- A roll-over report: the observer is called six times for code 1. -/
theorem rollOver_repeated : ∃ d, newKeyboardDriver (.new 1 true) (some ()) = some d ∧
    deliver (.new 1 true) d [rollOver] = some [List.replicate 6 ⟨(), 0, 1⟩] ∧
    ¬ExactlyOnce () noReport rollOver (List.replicate 6 ⟨(), 0, 1⟩) := by
  obtain ⟨d, hd, hremembers, hone⟩ := newKeyboardDriver_some (.new 1 true) ()
  obtain ⟨d', hstep, -, -⟩ := onInterruptCompleted_received (r := rollOver) (isIn_new 1) hremembers
  have hcalls : (d.received rollOver).onDataReceived = List.replicate 6 ⟨(), 0, 1⟩ := by
    rw [onDataReceived_of_one hremembers hone]
    decide
  refine ⟨d, hd, ?_, fun h => ?_⟩
  · rw [deliver, hstep, hcalls]
    rfl
  · have hcount := h ⟨(), 0, 1⟩
    revert hcount
    decide

end HIDKeyboardDriver

end UhyokOS
