import UhyokOS.Error
import UhyokOS.Lib.CycleRing
import UhyokOS.Lib.Transition
import UhyokOS.Usb.Trb

/-!
# The event ring

The model of `EventRing` in `kernel/usb/xhci/ring.cpp` with the registers of its interrupter, and
the controller as the producer. The kernel keeps its position in the register `ERDP`, of which the
hardware may change the low four bits at any time. A function is undefined (`none`) where the source
reads a TRB outside the array.

* `eventInv_preserved`: the segment is a ring with a cycle mark in the sense of `CycleRing.Laps`.
* `event_ring_exact`: the kernel sees every event once, in order, and knows when there is none.
-/

namespace UhyokOS

open Transition CycleRing

/-! ## Registers -/

/-- The words of the registers that the event ring uses.
Source: `kernel/usb/xhci/registers.hpp`, `InterrupterRegisterSet` -/
structure InterrupterRegisterSet where
  /-- `ERSTSZ` -/
  erstsz : BitVec 32
  /-- `ERSTBA` -/
  erstba : BitVec 64
  /-- `ERDP` -/
  erdp : BitVec 64

/-- Source: `kernel/usb/xhci/registers.hpp`, `ERSTSZ_Bitmap::SetSize` -/
def setERSTSZSize (word : BitVec 32) (value : BitVec 16) : BitVec 32 :=
  word.extractLsb' 16 16 ++ value

/-- Source: `kernel/usb/xhci/registers.hpp`, `ERSTBA_Bitmap::SetPointer` -/
def setERSTBAPointer (word value : BitVec 64) : BitVec 64 :=
  value.extractLsb' 6 58 ++ word.extractLsb' 0 6

/-- Source: `kernel/usb/xhci/registers.hpp`, `ERDP_Bitmap::Pointer` -/
def erdpPointer (word : BitVec 64) : BitVec 64 := word.extractLsb' 4 60 ++ 0#4

/-- Source: `kernel/usb/xhci/registers.hpp`, `ERDP_Bitmap::SetPointer` -/
def setERDPPointer (word value : BitVec 64) : BitVec 64 :=
  value.extractLsb' 4 60 ++ word.extractLsb' 0 4

/-- `dequeue_erst_segment_index` and `event_handler_busy` are what the hardware made of them. -/
def setERDPLow (word : BitVec 64) (low : BitVec 4) : BitVec 64 := word.extractLsb' 4 60 ++ low

/-- The pointer field does not depend on the other fields. -/
theorem erdpPointer_append {value : BitVec 64} (h : value.extractLsb' 0 4 = 0#4) (low : BitVec 4) :
    erdpPointer (value.extractLsb' 4 60 ++ low) = value := by
  unfold erdpPointer
  rw [BitVec.extractLsb'_append_eq_left, ← h]
  exact BitVec.extractLsb'_append_extractLsb'

theorem erdpPointer_setERDPLow (word : BitVec 64) (low : BitVec 4) :
    erdpPointer (setERDPLow word low) = erdpPointer word := by
  unfold erdpPointer setERDPLow
  rw [BitVec.extractLsb'_append_eq_left]

/-! ## The ring -/

/-- Source: `kernel/usb/xhci/ring.hpp`, `EventRingSegmentTableEntry` -/
structure EventRingSegmentTableEntry where
  ringSegmentBaseAddress : BitVec 64
  ringSegmentSize : BitVec 16

/-- Source: `kernel/usb/xhci/ring.hpp`, `EventRing` -/
structure EventRing where
  /-- The address in `buf_`. -/
  bufPtr : BitVec 64
  /-- The array that `buf_` points to. -/
  buf : List TRB
  /-- `buf_size_` -/
  bufSize : Nat
  /-- `cycle_bit_` -/
  cycleBit : Bool
  /-- `erst_[0]` -/
  erst : EventRingSegmentTableEntry
  /-- `*interrupter_` -/
  interrupter : InterrupterRegisterSet

namespace EventRing

/-- Source: `kernel/usb/xhci/ring.hpp`, `EventRing::ReadDequeuePointer` -/
def readDequeuePointer (ring : EventRing) : BitVec 64 := erdpPointer ring.interrupter.erdp

/-- Source: `kernel/usb/xhci/ring.cpp`, `EventRing::WriteDequeuePointer` -/
def writeDequeuePointer (ring : EventRing) (p : BitVec 64) : EventRing :=
  { ring with interrupter := { ring.interrupter with
      erdp := setERDPPointer ring.interrupter.erdp p } }

/-- The arguments at the end are what `AllocArray` returned for the array and for the segment table,
`none` for the null pointer.
Source: `kernel/usb/xhci/ring.cpp`, `EventRing::Initialize` -/
def initializeEventRing (ring : EventRing) (bufSize : Nat) (interrupter : InterrupterRegisterSet)
    (allocated allocatedTable : Option (BitVec 64)) : Error × EventRing :=
  let ring := { ring with cycleBit := true, bufSize := bufSize, interrupter := interrupter }
  match allocated, allocatedTable with
  | none, _ => (.kNoEnoughMemory, { ring with bufPtr := 0 })
  | some bufPtr, none =>
      (.kNoEnoughMemory, { ring with bufPtr := bufPtr, buf := List.replicate bufSize .zero })
  | some bufPtr, some erst =>
      let ring := { ring with
        bufPtr := bufPtr
        buf := List.replicate bufSize .zero
        erst := ⟨bufPtr, BitVec.ofNat 16 bufSize⟩
        interrupter := { ring.interrupter with
          erstsz := setERSTSZSize ring.interrupter.erstsz 1 } }
      let ring := ring.writeDequeuePointer (trbAddress bufPtr 0)
      (.kSuccess, { ring with
        interrupter := { ring.interrupter with
          erstba := setERSTBAPointer ring.interrupter.erstba erst } })

/-- The TRB that a pointer into the array points to. -/
def deref (ring : EventRing) (p : BitVec 64) : Option TRB :=
  let offset := (p - ring.bufPtr).toNat
  if offset % sizeofTRB = 0 then ring.buf[offset / sizeofTRB]? else none

/-- What `Front` points to.
Source: `kernel/usb/xhci/ring.hpp`, `EventRing::Front` -/
def front (ring : EventRing) : Option TRB := ring.deref ring.readDequeuePointer

/-- Source: `kernel/usb/xhci/ring.hpp`, `EventRing::HasFront` -/
def hasFront (ring : EventRing) : Option Bool :=
  ring.front.map fun trb => trb.cycleBit == ring.cycleBit

/-- Source: `kernel/usb/xhci/ring.cpp`, `EventRing::Pop` -/
def pop (ring : EventRing) : EventRing :=
  let p := ring.readDequeuePointer + BitVec.ofNat 64 sizeofTRB
  let segmentBegin := ring.erst.ringSegmentBaseAddress
  let segmentEnd := trbAddress segmentBegin ring.erst.ringSegmentSize.toNat
  if p = segmentEnd then
    { ring with cycleBit := !ring.cycleBit }.writeDequeuePointer segmentBegin
  else ring.writeDequeuePointer p

end EventRing

/-! ## The controller and the kernel -/

/-- An event ring, the controller's position on it, and what was done so far. -/
structure EventRun where
  ring : EventRing
  /-- The slot that the controller writes next. -/
  enqueue : Nat := 0
  /-- The controller's cycle state. -/
  cycleState : Bool := true
  /-- The events the controller has written. -/
  produced : List TRB := []
  /-- The events at `Front` before each `Pop`. -/
  popped : List TRB := []
  /-- `HasFront` was true since the last `Pop`. -/
  checked : Bool := false

/-- The controller writes an event or changes low bits of `ERDP`; the kernel calls a function. -/
inductive EventOp
  | produce (event : TRB)
  | setLow (low : BitVec 4)
  | hasFront
  | pop

/-- The controller writes an event with its cycle state. -/
def EventRun.produce (s : EventRun) (event : TRB) : Option EventRun :=
  if s.enqueue < s.ring.buf.length then
    let event := event.withCycle s.cycleState
    let wraps := s.enqueue + 1 = s.ring.erst.ringSegmentSize.toNat
    some { s with
      ring := { s.ring with buf := s.ring.buf.set s.enqueue event }
      enqueue := if wraps then 0 else s.enqueue + 1
      cycleState := if wraps then !s.cycleState else s.cycleState
      produced := s.produced ++ [event] }
  else none

/-- One step. -/
def EventRun.step (s : EventRun) : EventOp → Option EventRun
  | .produce event => s.produce event
  | .setLow low => some { s with ring := { s.ring with interrupter := { s.ring.interrupter with
      erdp := setERDPLow s.ring.interrupter.erdp low } } }
  | .hasFront => s.ring.hasFront.map fun found => { s with checked := found }
  | .pop => s.ring.front.map fun event =>
      { s with ring := s.ring.pop, popped := s.popped ++ [event], checked := false }

/-- The controller writes no event for which the segment has no room; the kernel pops only after
`HasFront` was true. -/
def EventOp.Permitted (s : EventRun) : EventOp → Prop
  | .produce _ => s.produced.length + 1 ≤ s.popped.length + s.ring.erst.ringSegmentSize.toNat
  | .pop => s.checked = true
  | _ => True

/-- The states of an event ring that was initialized. -/
abbrev EventRun.Reachable (ring : EventRing) (s : EventRun) : Prop :=
  Transition.Reachable EventRun.step (fun s op => op.Permitted s) { ring := ring } s

/-! ## The invariant -/

/-- The segment of `n` slots at `bufPtr` is a ring with a cycle mark; the producer and the kernel are
where the numbers of events written and popped say. -/
structure EventInv (bufPtr : BitVec 64) (n : Nat) (s : EventRun) : Prop where
  ptr : s.ring.bufPtr = bufPtr
  base : s.ring.erst.ringSegmentBaseAddress = bufPtr
  size : s.ring.erst.ringSegmentSize.toNat = n
  length : s.ring.buf.length = n
  slots : Laps TRB.cycleBit n s.produced s.ring.buf
  enqueue : s.enqueue = s.produced.length % n
  cycleState : s.cycleState = turn n s.produced.length
  dequeue : s.ring.readDequeuePointer = trbAddress bufPtr (s.popped.length % n)
  cycleBit : s.ring.cycleBit = turn n s.popped.length
  inOrder : s.popped <+: s.produced
  room : s.produced.length ≤ s.popped.length + n
  checked : s.checked = true → s.popped.length < s.produced.length

/-- The sizes that the segment table can express. -/
structure SegmentSize (bufPtr : BitVec 64) (n : Nat) : Prop where
  pos : 0 < n
  lt : n < 2 ^ 16
  aligned : bufPtr.toNat % sizeofTRB = 0

namespace EventInv

variable {bufPtr : BitVec 64} {n : Nat} {s : EventRun}

theorem popped_le (h : EventInv bufPtr n s) : s.popped.length ≤ s.produced.length :=
  h.inOrder.length_le

/-- **What the kernel sees at `Front`.** -/
theorem front_eq (h : EventInv bufPtr n s) (hn : SegmentSize bufPtr n) :
    ∃ trb, s.ring.front = some trb ∧
      (trb.cycleBit = s.ring.cycleBit ↔ s.popped.length < s.produced.length) ∧
      (s.popped.length < s.produced.length → s.produced[s.popped.length]? = some trb) := by
  obtain ⟨trb, hslot, hmark, hproduced⟩ := h.slots.front hn.pos h.popped_le h.room
  have hlt : s.popped.length % n < n := Nat.mod_lt _ hn.pos
  have hoffset : (trbAddress bufPtr (s.popped.length % n) - bufPtr).toNat =
      sizeofTRB * (s.popped.length % n) := by
    refine trbAddress_sub bufPtr ?_
    have := hn.lt
    unfold sizeofTRB
    omega
  refine ⟨trb, ?_, by rw [h.cycleBit]; exact hmark, hproduced⟩
  unfold EventRing.front EventRing.deref
  simp only
  rw [h.dequeue, h.ptr, hoffset, Nat.mul_mod_right, if_pos rfl, Nat.mul_div_cancel_left _ (by decide)]
  exact hslot

theorem hasFront_eq (h : EventInv bufPtr n s) (hn : SegmentSize bufPtr n) :
    s.ring.hasFront = some (decide (s.popped.length < s.produced.length)) := by
  obtain ⟨trb, hfront, hmark, -⟩ := h.front_eq hn
  unfold EventRing.hasFront
  rw [hfront, Option.map_some]
  exact congrArg some (decide_eq_decide.mpr hmark)

theorem produce (h : EventInv bufPtr n s) (hn : SegmentSize bufPtr n) (event : TRB)
    (hroom : s.produced.length + 1 ≤ s.popped.length + n) :
    ∃ s', s.step (.produce event) = some s' ∧ EventInv bufPtr n s' := by
  have hlt : s.produced.length % n < n := Nat.mod_lt _ hn.pos
  have hlength : (s.produced ++ [event.withCycle s.cycleState]).length = s.produced.length + 1 :=
    List.length_append
  have hslots := h.slots.push hn.pos (x := event.withCycle s.cycleState) (by
    rw [TRB.cycleBit_withCycle, h.cycleState])
  rw [← h.enqueue] at hslots
  refine ⟨_, if_pos (by rw [h.enqueue, h.length]; exact hlt), { h with
    length := ?_
    slots := hslots
    enqueue := ?_
    cycleState := ?_
    inOrder := h.inOrder.trans (List.prefix_append _ _)
    room := ?_
    checked := ?_ }⟩
  · show (s.ring.buf.set _ _).length = n
    rw [List.length_set, h.length]
  · show (if s.enqueue + 1 = _ then 0 else s.enqueue + 1) = _
    rw [hlength, mod_succ hn.pos, h.size, h.enqueue]
  · show (if s.enqueue + 1 = _ then !s.cycleState else s.cycleState) = _
    rw [hlength, turn_succ hn.pos, h.size, h.enqueue, h.cycleState]
  · show (s.produced ++ _).length ≤ _
    rw [hlength]
    exact hroom
  · intro hchecked
    have := h.checked hchecked
    show s.popped.length < (s.produced ++ _).length
    rw [hlength]
    omega

/-- The pointer that `Pop` writes is the one to the next slot. -/
theorem pop_eq (h : EventInv bufPtr n s) (hn : SegmentSize bufPtr n) :
    s.ring.pop = { s.ring with cycleBit := turn n (s.popped.length + 1) }.writeDequeuePointer
      (trbAddress bufPtr ((s.popped.length + 1) % n)) := by
  have hlt : s.popped.length % n < n := Nat.mod_lt _ hn.pos
  have hsmall := hn.lt
  have hend : trbAddress bufPtr (s.popped.length % n + 1) = trbAddress bufPtr n ↔
      s.popped.length % n + 1 = n := by
    apply trbAddress_inj
    · unfold sizeofTRB
      omega
    · unfold sizeofTRB
      omega
  have hmod := mod_succ hn.pos s.popped.length
  have hturn := turn_succ hn.pos s.popped.length
  unfold EventRing.pop
  simp only
  rw [h.dequeue, ← trbAddress_succ, h.base, h.size]
  by_cases hwraps : s.popped.length % n + 1 = n
  · rw [if_pos hwraps] at hmod hturn
    rw [if_pos (hend.mpr hwraps), hmod, hturn, trbAddress_zero, h.cycleBit]
  · rw [if_neg hwraps] at hmod hturn
    rw [if_neg fun heq => hwraps (hend.mp heq), hmod, hturn, ← h.cycleBit]

theorem pop (h : EventInv bufPtr n s) (hn : SegmentSize bufPtr n) (hchecked : s.checked = true) :
    ∃ s', s.step .pop = some s' ∧ EventInv bufPtr n s' := by
  obtain ⟨trb, hfront, -, hproduced⟩ := h.front_eq hn
  have hlt := h.checked hchecked
  have hlength : (s.popped ++ [trb]).length = s.popped.length + 1 := List.length_append
  refine ⟨{ s with ring := s.ring.pop, popped := s.popped ++ [trb], checked := false },
    by simp only [EventRun.step, hfront, Option.map_some], ?_⟩
  rw [h.pop_eq hn]
  exact { h with
    dequeue := by
      rw [hlength]
      exact erdpPointer_append (extractLsb'_of_aligned (trbAddress_aligned hn.aligned _)) _
    cycleBit := by
      rw [hlength]
      rfl
    inOrder := prefix_concat h.inOrder (hproduced hlt)
    room := by
      have := h.room
      show s.produced.length ≤ (s.popped ++ [trb]).length + n
      omega
    checked := fun hfalse => absurd hfalse Bool.false_ne_true }

end EventInv

/-- After `Initialize`. -/
theorem eventInv_init {bufPtr : BitVec 64} {n : Nat} (hn : SegmentSize bufPtr n)
    {ring₀ ring : EventRing} {interrupter : InterrupterRegisterSet} {erst : BitVec 64}
    (hinit : ring₀.initializeEventRing n interrupter (some bufPtr) (some erst) =
      (.kSuccess, ring)) : EventInv bufPtr n { ring := ring } := by
  cases hinit
  exact {
    ptr := rfl
    base := rfl
    size := Nat.mod_eq_of_lt hn.lt
    length := List.length_replicate
    slots := Laps.nil List.length_replicate.ge fun trb hmem => by
      rw [List.eq_of_mem_replicate hmem]
      rfl
    enqueue := (Nat.zero_mod n).symm
    cycleState := (turn_of_lt hn.pos).symm
    dequeue := by
      show erdpPointer (setERDPPointer _ (trbAddress bufPtr 0)) = trbAddress bufPtr (0 % n)
      rw [Nat.zero_mod]
      exact erdpPointer_append (extractLsb'_of_aligned (trbAddress_aligned hn.aligned _)) _
    cycleBit := (turn_of_lt hn.pos).symm
    inOrder := List.nil_prefix
    room := Nat.zero_le _
    checked := fun hfalse => absurd hfalse Bool.false_ne_true }

/-- **The step lemma.** -/
theorem eventInv_preserved {bufPtr : BitVec 64} {n : Nat} (hn : SegmentSize bufPtr n) :
    Preserves EventRun.step (fun s op => op.Permitted s) (EventInv bufPtr n) := by
  intro s op h hop
  cases op with
  | produce event =>
      refine h.produce hn event ?_
      rw [← h.size]
      exact hop
  | setLow low => exact ⟨_, rfl, { h with dequeue := (erdpPointer_setERDPLow _ low).trans h.dequeue }⟩
  | hasFront =>
      refine ⟨{ s with checked := decide (s.popped.length < s.produced.length) }, ?_, { h with
        checked := fun hchecked => of_decide_eq_true hchecked }⟩
      simp only [EventRun.step, h.hasFront_eq hn, Option.map_some]
  | pop => exact h.pop hn hop

/-- **The event ring loses, repeats and invents no event.** `Initialize` got an array of the
alignment it asks for, and the controller never has more events that are not popped than the segment
has slots. Then, in any order of writes, checks and pops: `HasFront` is true iff an event is left,
`Front` is then the next event the controller wrote, the events popped are a beginning of those
written, and no function reads or writes outside the array. -/
theorem event_ring_exact {bufSize : Nat} (hpos : 1 ≤ bufSize) (hsize : bufSize ≤ 65535)
    {bufPtr erst : BitVec 64} (halign : bufPtr.toNat % 64 = 0) {ring₀ ring : EventRing}
    {interrupter : InterrupterRegisterSet}
    (hinit : ring₀.initializeEventRing bufSize interrupter (some bufPtr) (some erst) =
      (.kSuccess, ring)) {s : EventRun} (hs : s.Reachable ring) :
    s.ring.hasFront = some (decide (s.popped.length < s.produced.length)) ∧
      (∀ event, s.produced[s.popped.length]? = some event → s.ring.front = some event) ∧
      s.popped <+: s.produced ∧
      ∀ op : EventOp, op.Permitted s → ∃ s', s.step op = some s' := by
  have hn : SegmentSize bufPtr bufSize := by
    refine ⟨hpos, by omega, ?_⟩
    unfold sizeofTRB
    omega
  have hpreserved := eventInv_preserved hn
  have hinv : EventInv bufPtr bufSize s :=
    Transition.Reachable.invariant (eventInv_init hn hinit) hpreserved hs
  refine ⟨hinv.hasFront_eq hn, fun event hevent => ?_, hinv.inOrder, fun op hop => ?_⟩
  · obtain ⟨trb, hfront, -, hproduced⟩ := hinv.front_eq hn
    have hlt := (List.getElem?_eq_some_iff.mp hevent).1
    rw [hproduced hlt] at hevent
    rw [hfront, hevent]
  · obtain ⟨s', hs', -⟩ := hpreserved s op hinv hop
    exact ⟨s', hs'⟩

/-! ## A short run -/

instance EventOp.decidablePermitted (s : EventRun) (op : EventOp) : Decidable (op.Permitted s) := by
  unfold EventOp.Permitted
  split <;> infer_instance

/-- A ring of two slots that nothing was done with. -/
def unusedEventRing : EventRing := ⟨0, [], 0, false, ⟨0, 0⟩, ⟨0, 0, 0⟩⟩

/-- The ring after `Initialize`. -/
def smallEventRing : EventRing :=
  (unusedEventRing.initializeEventRing 2 ⟨0, 0, 0⟩ (some 0x40) (some 0x80)).2

/-- The TRB of a `PortStatusChangeEventTRB` for port 1. -/
def portEventTRB : TRB := ⟨1#8 ++ 0#24, 0, 0, 34#22 ++ 0#10⟩

/-- Three events, the last of which wraps around. -/
def wrapState? : Option EventRun :=
  Transition.runPermitted EventRun.step (fun s op => op.Permitted s) { ring := smallEventRing }
    [.produce portEventTRB, .produce portEventTRB, .setLow 8, .hasFront, .pop,
      .produce portEventTRB, .hasFront, .pop]

theorem wrapState?_isSome : wrapState?.isSome = true := by decide

/-- The state after these. -/
def wrapState : EventRun := wrapState?.get wrapState?_isSome

/-- One event is left. -/
theorem event_ring_exact_wrapState : wrapState.ring.hasFront = some true := by
  have hreach : wrapState.Reachable smallEventRing :=
    Transition.Reachable.of_runPermitted .init (Option.some_get wrapState?_isSome).symm
  have hexact := event_ring_exact (by decide : 1 ≤ 2) (by decide)
    (by decide : (0x40 : BitVec 64).toNat % 64 = 0) rfl hreach
  rw [hexact.1]
  decide

end UhyokOS
