import UhyokOS.Error
import UhyokOS.Lib.CycleRing
import UhyokOS.Lib.Transition
import UhyokOS.Usb.Trb

/-!
# Command and transfer rings

The model of `Ring` in `kernel/usb/xhci/ring.cpp`, with the controller as the consumer. The array
that `AllocArray` returns is a list of its own, as long as requested; `bufPtr` is its address.

* `ringInv_preserved`: the data slots are a ring with a cycle mark in the sense of
  `CycleRing.Laps`, and the Link TRB behind them carries the mark of the lap before.
* `ring_delivers`: the controller consumes what was pushed, in order, and can always go on.
* `ring_not_delivering`: this needs that nobody pushes a Link TRB.
-/

namespace UhyokOS

open Transition CycleRing

/-- Source: `kernel/usb/xhci/ring.hpp`, `Ring` -/
structure Ring where
  /-- The address in `buf_`, `0` for the null pointer. -/
  bufPtr : BitVec 64
  /-- The array that `buf_` points to. -/
  buf : List TRB
  /-- `buf_size_` -/
  bufSize : Nat
  /-- `cycle_bit_` -/
  cycleBit : Bool
  /-- `write_index_` -/
  writeIndex : Nat

namespace Ring

/-- What `AllocArray` returned is the argument, `none` for the null pointer.
Source: `kernel/usb/xhci/ring.cpp`, `Ring::Initialize` -/
def initializeRing (bufSize : Nat) (allocated : Option (BitVec 64)) : Error × Ring :=
  match allocated with
  | none => (.kNoEnoughMemory, ⟨0, [], bufSize, true, 0⟩)
  | some bufPtr => (.kSuccess, ⟨bufPtr, List.replicate bufSize .zero, bufSize, true, 0⟩)

/-- `&buf_[i]` -/
def trbPtr (ring : Ring) (i : Nat) : BitVec 64 := trbAddress ring.bufPtr i

/-- Source: `kernel/usb/xhci/ring.cpp`, `Ring::CopyToLast` -/
def copyToLast (ring : Ring) (data : TRB) : Option Ring :=
  if ring.writeIndex < ring.buf.length then
    some { ring with buf := ring.buf.set ring.writeIndex (data.withCycle ring.cycleBit) }
  else none

/-- Source: `kernel/usb/xhci/ring.cpp`, `Ring::Push` -/
def push (ring : Ring) (data : TRB) : Option (BitVec 64 × Ring) := do
  let trbPtr := ring.trbPtr ring.writeIndex
  let ring ← ring.copyToLast data
  let ring := { ring with writeIndex := ring.writeIndex + 1 }
  if ring.writeIndex = ring.bufSize - 1 then
    let link := { LinkTRB.new ring.bufPtr with toggleCycle := true }
    let ring ← ring.copyToLast link.data
    return (trbPtr, { ring with writeIndex := 0, cycleBit := !ring.cycleBit })
  return (trbPtr, ring)

/-- The Link TRB of a ring. -/
def link (ring : Ring) : LinkTRB := { LinkTRB.new ring.bufPtr with toggleCycle := true }

theorem copyToLast_eq {ring : Ring} (data : TRB) (hlt : ring.writeIndex < ring.buf.length) :
    ring.copyToLast data = some { ring with
      buf := ring.buf.set ring.writeIndex (data.withCycle ring.cycleBit) } := by
  unfold copyToLast
  rw [if_pos hlt]

/-- `Push` where no lap ends. -/
theorem push_inside {ring : Ring} (data : TRB) (hlt : ring.writeIndex < ring.buf.length)
    (hend : ring.writeIndex + 1 ≠ ring.bufSize - 1) :
    ring.push data = some (ring.trbPtr ring.writeIndex, { ring with
      buf := ring.buf.set ring.writeIndex (data.withCycle ring.cycleBit)
      writeIndex := ring.writeIndex + 1 }) := by
  unfold push
  rw [copyToLast_eq data hlt]
  simp only [Option.bind_eq_bind, Option.bind_some]
  rw [if_neg hend]
  rfl

/-- `Push` at the end of a lap. -/
theorem push_end {ring : Ring} (data : TRB) (hlt : ring.writeIndex + 1 < ring.buf.length)
    (hend : ring.writeIndex + 1 = ring.bufSize - 1) :
    ring.push data = some (ring.trbPtr ring.writeIndex, { ring with
      buf := (ring.buf.set ring.writeIndex (data.withCycle ring.cycleBit)).set
        (ring.writeIndex + 1) (ring.link.data.withCycle ring.cycleBit)
      writeIndex := 0
      cycleBit := !ring.cycleBit }) := by
  unfold push
  rw [copyToLast_eq data (by omega)]
  simp only [Option.bind_eq_bind, Option.bind_some]
  rw [if_pos hend, copyToLast_eq _ (by rw [List.length_set]; exact hlt)]
  rfl

end Ring

/-! ## The controller -/

/-- The controller's side of a ring. -/
structure Consumer where
  /-- The slot it looks at. -/
  index : Nat := 0
  /-- Its cycle state. -/
  cycleState : Bool := true

namespace Consumer

/-- The TRB it can consume: the one it looks at, if the cycle bit is its cycle state. -/
def front (c : Consumer) (ring : Ring) : Option TRB :=
  ring.buf[c.index]?.filter fun trb => trb.cycleBit == c.cycleState

/-- Where it goes from a TRB. -/
def advance (c : Consumer) (ring : Ring) (trb : TRB) : Consumer :=
  if trb.trbType = LinkTRB.Type' ∧ (LinkTRB.ofTRB trb).toggleCycle then
    { index := ((LinkTRB.ofTRB trb).pointer - ring.bufPtr).toNat / sizeofTRB
      cycleState := !c.cycleState }
  else { c with index := c.index + 1 }

theorem advance_of_ne {trb : TRB} (h : trb.trbType ≠ LinkTRB.Type') (c : Consumer) (ring : Ring) :
    c.advance ring trb = { c with index := c.index + 1 } := by
  unfold advance
  rw [if_neg fun hand => h hand.1]

end Consumer

/-- A ring, its consumer, and what was done so far. -/
structure RingRun where
  ring : Ring
  consumer : Consumer := {}
  /-- The TRBs given to `Push`. -/
  pushed : List TRB := []
  /-- The TRBs consumed that are not Link TRBs. -/
  consumed : List TRB := []
  /-- The number of Link TRBs consumed. -/
  links : Nat := 0

/-- A call of `Push`, or the consumer looking at its slot. -/
inductive RingOp
  | push (trb : TRB)
  | consume

/-- One step. A consumer that cannot consume waits. -/
def RingRun.step (s : RingRun) : RingOp → Option RingRun
  | .push trb => (s.ring.push trb).map fun (_, ring) =>
      { s with ring := ring, pushed := s.pushed ++ [trb] }
  | .consume =>
      match s.consumer.front s.ring with
      | none => some s
      | some trb =>
          let s := { s with consumer := s.consumer.advance s.ring trb }
          if trb.trbType = LinkTRB.Type' then some { s with links := s.links + 1 }
          else some { s with consumed := s.consumed ++ [trb] }

/-- TRBs of certain kinds are pushed, and so that at most `bufSize - 2` are not consumed. -/
def RingOp.Permitted (allowed : TRB → Prop) (s : RingRun) : RingOp → Prop
  | .push trb => allowed trb ∧ s.pushed.length + 1 ≤ s.consumed.length + (s.ring.bufSize - 2)
  | .consume => True

/-- The states of a ring that was initialized, while TRBs of certain kinds are pushed. -/
abbrev RingRun.Reachable (allowed : TRB → Prop) (ring : Ring) (s : RingRun) : Prop :=
  Transition.Reachable RingRun.step (fun s op => op.Permitted allowed s) { ring := ring } s

/-- The consumer can step. -/
def RingRun.CanStep (s : RingRun) : Prop := (s.consumer.front s.ring).isSome = true

/-- What a ring promises. The Link TRB has been written once for each lap of the producer. -/
structure RingRun.Delivering (s : RingRun) : Prop where
  inOrder : s.consumed.map (TRB.withCycle false) <+: s.pushed.map (TRB.withCycle false)
  inBounds : s.consumer.index < s.ring.bufSize
  fresh : s.CanStep → s.consumer.index < s.ring.bufSize - 1 →
    s.consumed.length < s.pushed.length
  freshLink : s.CanStep → s.consumer.index = s.ring.bufSize - 1 →
    s.links < s.pushed.length / (s.ring.bufSize - 1)
  progress : s.consumed.length < s.pushed.length → s.CanStep

/-! ## The invariant -/

/-- What was pushed, with the cycle bits of its laps. -/
def writtenTRBs (K : Nat) (pushed : List TRB) : List TRB :=
  pushed.mapIdx fun k trb => trb.withCycle (turn K k)

theorem writtenTRBs_append (K : Nat) (pushed : List TRB) (trb : TRB) :
    writtenTRBs K (pushed ++ [trb]) =
      writtenTRBs K pushed ++ [trb.withCycle (turn K pushed.length)] := by
  unfold writtenTRBs
  rw [List.mapIdx_concat]

@[simp] theorem length_writtenTRBs (K : Nat) (pushed : List TRB) :
    (writtenTRBs K pushed).length = pushed.length := List.length_mapIdx

theorem map_withCycle_writtenTRBs (K : Nat) (pushed : List TRB) :
    (writtenTRBs K pushed).map (TRB.withCycle false) = pushed.map (TRB.withCycle false) := by
  refine List.ext_getElem? fun k => ?_
  unfold writtenTRBs
  rw [List.getElem?_map, List.getElem?_mapIdx, List.getElem?_map]
  cases pushed[k]? with
  | none => rfl
  | some trb => exact congrArg some (TRB.withCycle_withCycle _ _ trb)

/-- Where the consumer is after `C` TRBs: at the next data slot, or at the Link TRB first. -/
inductive ConsumerAt (K C : Nat) : Consumer → Nat → Prop
  | data : ConsumerAt K C ⟨C % K, turn K C⟩ (C / K)
  | link {links : Nat} (hpos : 0 < C) (hend : C % K = 0) (hlinks : links + 1 = C / K) :
      ConsumerAt K C ⟨K, !turn K C⟩ links

/-- Past a data slot. -/
theorem ConsumerAt.next {K C : Nat} (hK : 0 < K) :
    ConsumerAt K (C + 1) ⟨C % K + 1, turn K C⟩ (C / K) := by
  have hmod := mod_succ hK C
  have hturn := turn_succ hK C
  have hdiv := div_succ hK C
  by_cases hend : C % K + 1 = K
  · rw [if_pos hend] at hmod hturn hdiv
    have hlink : ConsumerAt K (C + 1) ⟨K, !turn K (C + 1)⟩ (C / K) :=
      .link C.succ_pos hmod hdiv.symm
    rw [hturn, Bool.not_not] at hlink
    rwa [hend]
  · rw [if_neg hend] at hmod hturn hdiv
    have hdata : ConsumerAt K (C + 1) ⟨(C + 1) % K, turn K (C + 1)⟩ ((C + 1) / K) := .data
    rwa [hmod, hturn, hdiv] at hdata

/-- The data slots `0, …, K - 1` are a ring with a cycle mark, and slot `K` holds the Link TRB of
the last lap that was finished. -/
structure RingInv (bufPtr : BitVec 64) (K : Nat) (s : RingRun) : Prop where
  ptr : s.ring.bufPtr = bufPtr
  size : s.ring.bufSize = K + 1
  length : s.ring.buf.length = K + 1
  slots : Laps TRB.cycleBit K (writtenTRBs K s.pushed) s.ring.buf
  noLinks : ∀ trb ∈ s.pushed, trb.trbType ≠ LinkTRB.Type'
  writeIndex : s.ring.writeIndex = s.pushed.length % K
  cycleBit : s.ring.cycleBit = turn K s.pushed.length
  linkSlot : K ≤ s.pushed.length →
    s.ring.buf[K]? = some (s.ring.link.data.withCycle !turn K s.pushed.length)
  inOrder : s.consumed <+: writtenTRBs K s.pushed
  room : s.pushed.length + 1 ≤ s.consumed.length + K
  consumer : ConsumerAt K s.consumed.length s.consumer s.links

theorem trbType_of_mem_writtenTRBs {K : Nat} {pushed : List TRB} {trb : TRB}
    (h : ∀ trb ∈ pushed, trb.trbType ≠ LinkTRB.Type') (hmem : trb ∈ writtenTRBs K pushed) :
    trb.trbType ≠ LinkTRB.Type' := by
  obtain ⟨k, hk, rfl⟩ := List.mem_mapIdx.mp hmem
  rw [TRB.trbType_withCycle]
  exact h _ (List.getElem_mem hk)

theorem ringInv_init {bufPtr : BitVec 64} {K : Nat} (hK : 0 < K) :
    RingInv bufPtr K { ring := ⟨bufPtr, List.replicate (K + 1) .zero, K + 1, true, 0⟩ } where
  ptr := rfl
  size := rfl
  length := List.length_replicate
  slots := by
    refine Laps.nil ?_ fun trb hmem => ?_
    · rw [List.length_replicate]
      omega
    · rw [List.eq_of_mem_replicate hmem]
      rfl
  noLinks := fun _ hmem => absurd hmem List.not_mem_nil
  writeIndex := (Nat.zero_mod K).symm
  cycleBit := (turn_of_lt hK).symm
  linkSlot := fun hle => absurd hle (Nat.not_le_of_lt hK)
  inOrder := List.nil_prefix
  room := by
    show 0 + 1 ≤ 0 + K
    omega
  consumer := by
    have hdata : ConsumerAt K 0 ⟨0 % K, turn K 0⟩ (0 / K) := .data
    rwa [Nat.zero_mod, turn_of_lt hK, Nat.zero_div] at hdata

namespace RingInv

variable {bufPtr : BitVec 64} {K : Nat} {s : RingRun}

/-- The consumer is never ahead of the producer. -/
theorem consumed_le (h : RingInv bufPtr K s) : s.consumed.length ≤ s.pushed.length := by
  rw [← length_writtenTRBs K s.pushed]
  exact h.inOrder.length_le

/-- The data slots after a push. -/
theorem slots_push (h : RingInv bufPtr K s) (hK : 0 < K) (trb : TRB) :
    Laps TRB.cycleBit K (writtenTRBs K (s.pushed ++ [trb]))
      (s.ring.buf.set s.ring.writeIndex (trb.withCycle s.ring.cycleBit)) := by
  have hpush := h.slots.push hK (x := trb.withCycle (turn K s.pushed.length)) (by
    rw [TRB.cycleBit_withCycle, length_writtenTRBs])
  rw [length_writtenTRBs] at hpush
  rwa [writtenTRBs_append, h.writeIndex, h.cycleBit]

theorem noLinks_push (h : RingInv bufPtr K s) {trb : TRB} (hlink : trb.trbType ≠ LinkTRB.Type') :
    ∀ t ∈ s.pushed ++ [trb], t.trbType ≠ LinkTRB.Type' := by
  intro t hmem
  rcases List.mem_append.mp hmem with hmem | hmem
  · exact h.noLinks t hmem
  · rw [List.mem_singleton.mp hmem]
    exact hlink

theorem inOrder_push (h : RingInv bufPtr K s) (trb : TRB) :
    s.consumed <+: writtenTRBs K (s.pushed ++ [trb]) := by
  rw [writtenTRBs_append]
  exact h.inOrder.trans (List.prefix_append _ _)

/-- The Link TRB after a push inside a lap. -/
theorem linkSlot_push (h : RingInv bufPtr K s) (hK : 0 < K) (hend : s.pushed.length % K + 1 ≠ K)
    (hpushed : K ≤ s.pushed.length + 1) (data : TRB) :
    (s.ring.buf.set s.ring.writeIndex data)[K]? =
      some (s.ring.link.data.withCycle !turn K s.pushed.length) := by
  have hpast : K ≤ s.pushed.length := by
    rcases Nat.lt_or_ge s.pushed.length K with hlt | hge
    · rw [Nat.mod_eq_of_lt hlt] at hend
      omega
    · exact hge
  have hne : s.ring.writeIndex ≠ K := by
    rw [h.writeIndex]
    exact Nat.ne_of_lt (Nat.mod_lt _ hK)
  rw [List.getElem?_set_ne hne]
  exact h.linkSlot hpast

/-- A push into a ring that has room. -/
theorem push (h : RingInv bufPtr K s) (hK : 0 < K) {trb : TRB}
    (hlink : trb.trbType ≠ LinkTRB.Type') (hroom : s.pushed.length + 2 ≤ s.consumed.length + K) :
    ∃ s', s.step (.push trb) = some s' ∧ RingInv bufPtr K s' := by
  have hlt : s.pushed.length % K < K := Nat.mod_lt _ hK
  have hnext := mod_succ hK s.pushed.length
  have hturn := turn_succ hK s.pushed.length
  have hlength : (s.pushed ++ [trb]).length = s.pushed.length + 1 := List.length_append
  by_cases hend : s.pushed.length % K + 1 = K
  · -- the lap ends: the Link TRB gets the mark of this lap
    rw [if_pos hend] at hnext hturn
    have heq := s.ring.push_end trb (by rw [h.writeIndex, h.length]; omega)
      (by rw [h.writeIndex, h.size, hend]; rfl)
    have hbehind : s.ring.writeIndex + 1 = K := by rw [h.writeIndex, hend]
    simp only [RingRun.step, heq, Option.map_some]
    refine ⟨_, rfl, ?_⟩
    rw [hbehind]
    exact {
      ptr := h.ptr
      size := h.size
      length := by
        rw [List.length_set, List.length_set]
        exact h.length
      slots := (h.slots_push hK trb).set_behind le_rfl hK _
      noLinks := h.noLinks_push hlink
      writeIndex := by rw [hlength, hnext]
      cycleBit := by rw [hlength, hturn, h.cycleBit]
      linkSlot := by
        intro _
        rw [hlength, hturn, Bool.not_not, List.getElem?_set_self, h.cycleBit]
        · rfl
        · rw [List.length_set, h.length]
          omega
      inOrder := h.inOrder_push trb
      room := by rw [hlength]; exact hroom
      consumer := h.consumer }
  · rw [if_neg hend] at hnext hturn
    have heq := s.ring.push_inside trb (by rw [h.writeIndex, h.length]; omega)
      (by rw [h.writeIndex, h.size]; exact hend)
    simp only [RingRun.step, heq, Option.map_some]
    exact ⟨_, rfl, {
      ptr := h.ptr
      size := h.size
      length := by
        rw [List.length_set]
        exact h.length
      slots := h.slots_push hK trb
      noLinks := h.noLinks_push hlink
      writeIndex := by rw [hlength, hnext, h.writeIndex]
      cycleBit := by rw [hlength, hturn, h.cycleBit]
      linkSlot := by
        intro hle
        rw [hlength] at hle ⊢
        rw [hturn]
        exact h.linkSlot_push hK hend hle _
      inOrder := h.inOrder_push trb
      room := by rw [hlength]; exact hroom
      consumer := h.consumer }⟩

/-- What the consumer sees at a data slot. -/
theorem front_data (h : RingInv bufPtr K s) (hK : 0 < K) {c : Consumer}
    (hc : c = ⟨s.consumed.length % K, turn K s.consumed.length⟩) :
    (s.consumed.length = s.pushed.length ∧ c.front s.ring = none) ∨
      (s.consumed.length < s.pushed.length ∧
        ∃ trb, c.front s.ring = some trb ∧ s.consumed ++ [trb] <+: writtenTRBs K s.pushed) := by
  have hle := h.consumed_le
  have hroom : s.pushed.length ≤ s.consumed.length + K := by
    have := h.room
    omega
  obtain ⟨trb, hslot, hmark, hwritten⟩ := h.slots.front (k := s.consumed.length) hK
    (by rwa [length_writtenTRBs]) (by rwa [length_writtenTRBs])
  rw [length_writtenTRBs] at hmark hwritten
  have hfront : c.front s.ring =
      if s.consumed.length < s.pushed.length then some trb else none := by
    unfold Consumer.front
    rw [hc, hslot, Option.filter_some]
    simp only [beq_iff_eq, hmark]
  rcases Nat.lt_or_eq_of_le hle with hlt | heq
  · exact Or.inr ⟨hlt, trb, by rw [hfront, if_pos hlt], prefix_concat h.inOrder (hwritten hlt)⟩
  · exact Or.inl ⟨heq, by rw [hfront, if_neg (by omega)]⟩

/-- What the consumer sees when it comes to the Link TRB: it is the one of the lap that the
consumer has just finished. -/
theorem front_link (h : RingInv bufPtr K s) (hK : 0 < K) (hpos : 0 < s.consumed.length)
    (hend : s.consumed.length % K = 0) :
    Consumer.front ⟨K, !turn K s.consumed.length⟩ s.ring =
        some (s.ring.link.data.withCycle !turn K s.consumed.length) ∧
      s.pushed.length / K = s.consumed.length / K := by
  have hle := h.consumed_le
  have hroom := h.room
  have hpast : K ≤ s.consumed.length := Nat.le_of_dvd hpos (Nat.dvd_of_mod_eq_zero hend)
  obtain ⟨hdiv, hturn⟩ := turn_add (j := s.pushed.length - s.consumed.length) hK hend (by omega)
  rw [Nat.add_sub_cancel' hle] at hdiv hturn
  refine ⟨?_, hdiv⟩
  unfold Consumer.front
  rw [h.linkSlot (hpast.trans hle), hturn, Option.filter_some, TRB.cycleBit_withCycle,
    beq_self_eq_true, if_pos rfl]

/-- The Link TRB leads to the first slot. -/
theorem advance_link (h : RingInv bufPtr K s) (halign : bufPtr.extractLsb' 0 4 = 0#4)
    (c : Consumer) (cycle : Bool) :
    c.advance s.ring (s.ring.link.data.withCycle cycle) = ⟨0, !c.cycleState⟩ := by
  have hpointer : s.ring.link.pointer = s.ring.bufPtr :=
    LinkTRB.pointer_new (by rw [h.ptr]; exact halign)
  unfold Consumer.advance
  rw [LinkTRB.ofTRB_withCycle, LinkTRB.ofTRB_data, hpointer, TRB.trbType_withCycle,
    LinkTRB.trbType_data, if_pos ⟨rfl, rfl⟩, BitVec.sub_self]
  rfl

/-- The consumer is at a data slot, or at the Link TRB. -/
theorem consumer_cases (h : RingInv bufPtr K s) :
    (s.consumer = ⟨s.consumed.length % K, turn K s.consumed.length⟩ ∧
        s.links = s.consumed.length / K) ∨
      (s.consumer = ⟨K, !turn K s.consumed.length⟩ ∧ 0 < s.consumed.length ∧
        s.consumed.length % K = 0 ∧ s.links + 1 = s.consumed.length / K) := by
  generalize hc : s.consumer = c
  generalize hl : s.links = links
  have hat := h.consumer
  rw [hc, hl] at hat
  cases hat with
  | data => exact .inl ⟨rfl, rfl⟩
  | link hpos hend hlinks => exact .inr ⟨rfl, hpos, hend, hlinks⟩

/-- A step of the consumer. -/
theorem consume (h : RingInv bufPtr K s) (hK : 0 < K) (halign : bufPtr.extractLsb' 0 4 = 0#4) :
    ∃ s', s.step .consume = some s' ∧ RingInv bufPtr K s' := by
  rcases h.consumer_cases with ⟨hc, hl⟩ | ⟨hc, hpos, hend, hlinks⟩
  · rcases h.front_data hK hc with ⟨-, hfront⟩ | ⟨-, trb, hfront, htaken⟩
    · refine ⟨s, ?_, h⟩
      simp only [RingRun.step, hfront]
    · have htype : trb.trbType ≠ LinkTRB.Type' :=
        trbType_of_mem_writtenTRBs h.noLinks (htaken.subset (by simp))
      have hlength : (s.consumed ++ [trb]).length = s.consumed.length + 1 := List.length_append
      refine ⟨{ s with
        consumer := ⟨s.consumed.length % K + 1, turn K s.consumed.length⟩
        consumed := s.consumed ++ [trb] }, ?_, { h with
          inOrder := htaken
          room := ?_
          consumer := ?_ }⟩
      · simp only [RingRun.step, hfront, if_neg htype, Consumer.advance_of_ne htype]
        rw [hc]
      · have hroom := h.room
        show s.pushed.length + 1 ≤ (s.consumed ++ [trb]).length + K
        omega
      · show ConsumerAt K (s.consumed ++ [trb]).length _ s.links
        rw [hlength, hl]
        exact .next hK
  · obtain ⟨hfront, -⟩ := h.front_link hK hpos hend
    refine ⟨{ s with consumer := ⟨0, turn K s.consumed.length⟩, links := s.links + 1 }, ?_, ?_⟩
    · simp only [RingRun.step, hc, hfront, h.advance_link halign, TRB.trbType_withCycle,
        LinkTRB.trbType_data, if_true, Bool.not_not]
    · have hdata : ConsumerAt K s.consumed.length
          ⟨s.consumed.length % K, turn K s.consumed.length⟩ (s.consumed.length / K) := .data
      rw [hend, ← hlinks] at hdata
      exact { h with consumer := hdata }

/-- The invariant contains everything that a ring promises. -/
theorem delivering (h : RingInv bufPtr K s) (hK : 0 < K) : s.Delivering := by
  have hmap := h.inOrder.map (TRB.withCycle false)
  rw [map_withCycle_writtenTRBs] at hmap
  have hlt : s.consumed.length % K < K := Nat.mod_lt _ hK
  have hsize : s.ring.bufSize - 1 = K := by rw [h.size]; rfl
  rcases h.consumer_cases with ⟨hc, -⟩ | ⟨hc, hpos, hend, hlinks⟩
  · have hfront := h.front_data hK hc
    refine ⟨hmap, ?_, ?_, ?_, ?_⟩
    · rw [hc, h.size]
      exact Nat.lt_succ_of_lt hlt
    · intro hstep _
      rcases hfront with ⟨-, hnone⟩ | ⟨hlt', -⟩
      · rw [RingRun.CanStep, hnone] at hstep
        cases hstep
      · exact hlt'
    · intro _ hindex
      rw [hc, hsize] at hindex
      exact absurd hindex hlt.ne
    · intro hlt'
      rcases hfront with ⟨heq, -⟩ | ⟨-, trb, hsome, -⟩
      · omega
      · rw [RingRun.CanStep, hsome]
        rfl
  · obtain ⟨hfront, hdiv⟩ := h.front_link hK hpos hend
    refine ⟨hmap, ?_, ?_, ?_, ?_⟩
    · rw [hc, h.size]
      exact Nat.lt_succ_self K
    · intro _ hindex
      rw [hc, hsize] at hindex
      exact absurd hindex (lt_irrefl K)
    · intro _ _
      rw [hsize, hdiv]
      omega
    · intro _
      rw [RingRun.CanStep, hc, hfront]
      rfl

end RingInv

/-- **The step lemma.** -/
theorem ringInv_preserved {bufPtr : BitVec 64} {K : Nat} (hK : 0 < K)
    (halign : bufPtr.extractLsb' 0 4 = 0#4) :
    Preserves RingRun.step (fun s op => op.Permitted (·.trbType ≠ LinkTRB.Type') s)
      (RingInv bufPtr K) := by
  intro s op h hop
  cases op with
  | push trb =>
      obtain ⟨hlink, hroom⟩ := hop
      rw [h.size] at hroom
      exact h.push hK hlink (by omega)
  | consume => exact h.consume hK halign

/-- **A ring delivers every TRB once and in order.** `Initialize` got an array of the alignment it
asks for, nobody pushes a Link TRB, and at most `bufSize - 2` TRBs are not consumed. Then, in any
order of pushes and steps of the consumer: what was consumed is a beginning of what was pushed, up
to the cycle bits; the consumer never takes a TRB from a slot that was not written since it was
there before; it can step as long as anything is left; and `Push` stays in the array. -/
theorem ring_delivers {bufSize : Nat} (hsize : 3 ≤ bufSize) {bufPtr : BitVec 64}
    (halign : bufPtr.toNat % 64 = 0) {ring : Ring}
    (hinit : Ring.initializeRing bufSize (some bufPtr) = (.kSuccess, ring)) {s : RingRun}
    (hs : s.Reachable (·.trbType ≠ LinkTRB.Type') ring) :
    s.Delivering ∧ ∀ op : RingOp, op.Permitted (·.trbType ≠ LinkTRB.Type') s →
      ∃ s', s.step op = some s' := by
  obtain ⟨K, rfl⟩ : ∃ K, bufSize = K + 1 := ⟨bufSize - 1, by omega⟩
  have hK : 0 < K := by omega
  have halign' : bufPtr.toNat % sizeofTRB = 0 := by
    unfold sizeofTRB
    omega
  have hpreserved := ringInv_preserved hK (extractLsb'_of_aligned halign')
  cases hinit
  have hinv : RingInv bufPtr K s := Transition.Reachable.invariant (ringInv_init hK) hpreserved hs
  refine ⟨hinv.delivering hK, fun op hop => ?_⟩
  obtain ⟨s', hs', -⟩ := hpreserved s op hinv hop
  exact ⟨s', hs'⟩

/-! ## Short runs -/

instance RingOp.decidablePermitted (allowed : TRB → Prop) [DecidablePred allowed] (s : RingRun)
    (op : RingOp) : Decidable (op.Permitted allowed s) := by
  unfold RingOp.Permitted
  split <;> infer_instance

/-- A ring of four slots. -/
def smallRing : Ring := (Ring.initializeRing 4 (some 0x40)).2

/-- The TRB of a `NoOpCommandTRB`. -/
def noOpTRB : TRB := ⟨0, 0, 0, 23#22 ++ 0#10⟩

/-- A Link TRB back to the ring. -/
def linkToSmallRing (toggleCycle : Bool) : TRB :=
  { LinkTRB.new 0x40 with toggleCycle := toggleCycle }.data

/-- Four TRBs go through the small ring, around the Link TRB. -/
def lapOps : List RingOp :=
  [.push noOpTRB, .push noOpTRB, .consume, .consume, .push noOpTRB, .consume, .consume,
    .push noOpTRB]

/-- A run of the small ring, `none` if it is not permitted. -/
def smallRun? (allowed : TRB → Prop) [DecidablePred allowed] (ops : List RingOp) : Option RingRun :=
  Transition.runPermitted RingRun.step (fun s op => op.Permitted allowed s) { ring := smallRing } ops

theorem reachable_of_smallRun? {allowed : TRB → Prop} [DecidablePred allowed] {ops : List RingOp}
    {s : RingRun} (h : smallRun? allowed ops = some s) : s.Reachable allowed smallRing :=
  Transition.Reachable.of_runPermitted .init h

def lapState? : Option RingRun := smallRun? (·.trbType ≠ LinkTRB.Type') lapOps

theorem lapState?_isSome : lapState?.isSome = true := by decide

/-- The state after these. -/
def lapState : RingRun := lapState?.get lapState?_isSome

/-- The fourth TRB can be consumed. -/
theorem ring_delivers_lapState : lapState.CanStep := by
  have hreach : lapState.Reachable (·.trbType ≠ LinkTRB.Type') smallRing :=
    reachable_of_smallRun? (Option.some_get lapState?_isSome).symm
  have hdeliver := ring_delivers (by decide : 3 ≤ 4)
    (by decide : (0x40 : BitVec 64).toNat % 64 = 0) rfl hreach
  exact hdeliver.1.progress (by decide)

/-- A Link TRB that makes the consumer change its cycle state. -/
def TogglesCycle (trb : TRB) : Prop :=
  trb.trbType = LinkTRB.Type' ∧ (LinkTRB.ofTRB trb).toggleCycle = true

instance TogglesCycle.decidable (trb : TRB) : Decidable (TogglesCycle trb) := by
  unfold TogglesCycle
  infer_instance

/-- **A Link TRB that is pushed breaks the order.** If it toggles the cycle state, the consumer goes
back to slot 0, where it waits for ever. If it does not, the consumer passes over it, and what it
consumes is not a beginning of what was pushed. -/
theorem ring_not_delivering :
    (¬∀ s : RingRun, s.Reachable (fun _ => True) smallRing → s.Delivering) ∧
      ¬∀ s : RingRun, s.Reachable (fun trb => ¬TogglesCycle trb) smallRing → s.Delivering := by
  refine ⟨fun hall => ?_, fun hall => ?_⟩
  · let run := smallRun? (fun _ => True) [.push (linkToSmallRing true), .consume]
    have hdefined : run.isSome = true := by decide
    have hstuck : ∀ s ∈ run,
        s.consumed.length < s.pushed.length ∧ s.consumer.front s.ring = none := by decide
    obtain ⟨s, hrun⟩ := Option.isSome_iff_exists.mp hdefined
    obtain ⟨hleft, hfront⟩ := hstuck s hrun
    have hstep := (hall s (reachable_of_smallRun? hrun)).progress hleft
    rw [RingRun.CanStep, hfront] at hstep
    cases hstep
  · let run := smallRun? (fun trb => ¬TogglesCycle trb)
      [.push (linkToSmallRing false), .consume, .push noOpTRB, .consume]
    have hdefined : run.isSome = true := by decide
    have hskipped : ∀ s ∈ run,
        ¬s.consumed.map (TRB.withCycle false) <+: s.pushed.map (TRB.withCycle false) := by decide
    obtain ⟨s, hrun⟩ := Option.isSome_iff_exists.mp hdefined
    exact hskipped s hrun (hall s (reachable_of_smallRun? hrun)).inOrder

end UhyokOS
