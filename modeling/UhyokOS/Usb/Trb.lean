import Mathlib.Algebra.Group.Nat.Defs
import Mathlib.Data.BitVec
import Mathlib.Tactic.Common

/-!
# Transfer request blocks

The model of `kernel/usb/xhci/trb.hpp`. A TRB is the four words of its `data` array; the bit fields
of the unions are read with `extractLsb'` and packed with `++`, the field of the highest bits first.
`reinterpret_cast` from one union to another is the identity on the words, so a field of a certain
kind of TRB is a function of any TRB.

* `TRB.withCycle` writes a cycle bit and keeps all other bits (`getLsbD_withCycle`).
* `LinkTRB.ofTRB_data` and `LinkTRB.pointer_new`: the fields of a Link TRB are read back.
* `SetupStageTRB.request_ofTRB_data` and `DataStageTRB.buffer_ofTRB_data`: the same for the TRBs of
  transfers, as far as the code reads them.
-/

namespace UhyokOS

/-- Source: `kernel/usb/xhci/trb.hpp`, `TRB` -/
structure TRB where
  data0 : BitVec 32
  data1 : BitVec 32
  data2 : BitVec 32
  data3 : BitVec 32
deriving DecidableEq

namespace TRB

/-- The TRB of `memset(buf_, 0, …)`. -/
def zero : TRB := ⟨0, 0, 0, 0⟩

/-- `bits.parameter` -/
def parameter (trb : TRB) : BitVec 64 := trb.data1 ++ trb.data0

/-- `bits.cycle_bit` -/
def cycleBit (trb : TRB) : Bool := trb.data3.getLsbD 0

/-- `bits.trb_type` -/
def trbType (trb : TRB) : BitVec 6 := trb.data3.extractLsb' 10 6

/-- The words of a 64-bit field at the beginning of a TRB. -/
def ofParameter (parameter : BitVec 64) (data2 data3 : BitVec 32) : TRB :=
  ⟨parameter.extractLsb' 0 32, parameter.extractLsb' 32 32, data2, data3⟩

/-- The last word of a TRB on a ring. -/
def withCycleWord (cycle : Bool) (word : BitVec 32) : BitVec 32 :=
  (word &&& 0xfffffffe#32) ||| (BitVec.ofBool cycle).setWidth 32

/-- The TRB with another cycle bit. -/
def withCycle (cycle : Bool) (trb : TRB) : TRB :=
  { trb with data3 := withCycleWord cycle trb.data3 }

variable {trb : TRB} {cycle : Bool} {word : BitVec 32}

@[simp] theorem parameter_ofParameter (parameter : BitVec 64) (data2 data3 : BitVec 32) :
    (ofParameter parameter data2 data3).parameter = parameter :=
  BitVec.extractLsb'_append_extractLsb'

theorem getLsbD_withCycleWord (cycle : Bool) (word : BitVec 32) (i : Nat) :
    (withCycleWord cycle word).getLsbD i = if i = 0 then cycle else word.getLsbD i := by
  have hmask : ∀ i < 32, (0xfffffffe#32).getLsbD i = decide (i ≠ 0) := by decide
  unfold withCycleWord
  rw [BitVec.getLsbD_or, BitVec.getLsbD_and, BitVec.getLsbD_setWidth, BitVec.getLsbD_ofBool]
  rcases Nat.lt_or_ge i 32 with hi | hi
  · rw [hmask i hi]
    by_cases hzero : i = 0 <;> simp [hzero, hi]
  · have hne : i ≠ 0 := by omega
    simp [BitVec.getLsbD_of_ge word i hi, hne]

theorem extractLsb'_withCycleWord {start : Nat} (h : 0 < start) (len : Nat) :
    (withCycleWord cycle word).extractLsb' start len = word.extractLsb' start len := by
  ext i hi
  rw [BitVec.getElem_extractLsb', BitVec.getElem_extractLsb', getLsbD_withCycleWord,
    if_neg (by omega)]

@[simp] theorem cycleBit_withCycle (cycle : Bool) (trb : TRB) :
    (trb.withCycle cycle).cycleBit = cycle := by
  unfold cycleBit withCycle
  rw [getLsbD_withCycleWord, if_pos rfl]

@[simp] theorem trbType_withCycle (cycle : Bool) (trb : TRB) :
    (trb.withCycle cycle).trbType = trb.trbType :=
  extractLsb'_withCycleWord (by omega) 6

@[simp] theorem withCycle_withCycle (cycle cycle' : Bool) (trb : TRB) :
    (trb.withCycle cycle').withCycle cycle = trb.withCycle cycle := by
  unfold withCycle
  congr 1
  refine BitVec.eq_of_getLsbD_eq fun i _ => ?_
  rw [getLsbD_withCycleWord, getLsbD_withCycleWord, getLsbD_withCycleWord]
  split_ifs <;> rfl

end TRB

/-! ## Link TRBs -/

/-- The fields of a Link TRB that the code sets.
Source: `kernel/usb/xhci/trb.hpp`, `LinkTRB` -/
@[ext] structure LinkTRB where
  ringSegmentPointer : BitVec 60 := 0
  toggleCycle : Bool := false

namespace LinkTRB

/-- Source: `kernel/usb/xhci/trb.hpp`, `LinkTRB::Type` -/
abbrev Type' : BitVec 6 := 6

/-- Source: `kernel/usb/xhci/trb.hpp`, `LinkTRB::SetPointer` -/
def setPointer (link : LinkTRB) (p : BitVec 64) : LinkTRB :=
  { link with ringSegmentPointer := p.extractLsb' 4 60 }

/-- Source: `kernel/usb/xhci/trb.hpp`, `LinkTRB::Pointer` -/
def pointer (link : LinkTRB) : BitVec 64 := link.ringSegmentPointer ++ 0#4

/-- Source: `kernel/usb/xhci/trb.hpp`, `LinkTRB::LinkTRB` -/
def new (ringSegmentPointer : BitVec 64) : LinkTRB := setPointer {} ringSegmentPointer

/-- The words of a Link TRB. -/
def data (link : LinkTRB) : TRB :=
  .ofParameter (link.ringSegmentPointer ++ 0#4) 0
    (0#16 ++ Type' ++ 0#8 ++ BitVec.ofBool link.toggleCycle ++ 0#1)

/-- The words of a TRB read as a Link TRB. -/
def ofTRB (trb : TRB) : LinkTRB where
  ringSegmentPointer := trb.parameter.extractLsb' 4 60
  toggleCycle := trb.data3.getLsbD 1

variable (link : LinkTRB) (cycle : Bool)

@[simp] theorem trbType_data : link.data.trbType = Type' := by
  unfold data TRB.trbType TRB.ofParameter
  simp only [BitVec.extractLsb'_append_eq_of_le, Nat.reduceLeDiff, Nat.reduceSub,
    BitVec.extractLsb'_append_eq_right]

theorem toggleCycle_ofTRB_withCycle (trb : TRB) :
    (ofTRB (trb.withCycle cycle)).toggleCycle = (ofTRB trb).toggleCycle := by
  show (TRB.withCycleWord cycle trb.data3).getLsbD 1 = trb.data3.getLsbD 1
  rw [TRB.getLsbD_withCycleWord, if_neg Nat.one_ne_zero]

@[simp] theorem ofTRB_withCycle (trb : TRB) : ofTRB (trb.withCycle cycle) = ofTRB trb :=
  LinkTRB.ext rfl (toggleCycle_ofTRB_withCycle cycle trb)

@[simp] theorem ofTRB_data : ofTRB link.data = link := by
  apply LinkTRB.ext
  · unfold ofTRB data
    rw [TRB.parameter_ofParameter]
    exact BitVec.extractLsb'_append_eq_left
  · unfold ofTRB data TRB.ofParameter
    simp only
    cases link.toggleCycle <;> decide

theorem pointer_new {p : BitVec 64} (halign : p.extractLsb' 0 4 = 0#4) : (new p).pointer = p := by
  unfold new setPointer pointer
  rw [← halign]
  exact BitVec.extractLsb'_append_extractLsb'

end LinkTRB

/-! ## TRBs of transfers -/

namespace TRB

/-- The flags below `trb_type` in the TRBs of transfers, the cycle bit being the lowest. -/
def flags (immediateData interruptOnCompletion interruptOnShortPacket : Bool) : BitVec 10 :=
  0#3 ++ BitVec.ofBool immediateData ++ BitVec.ofBool interruptOnCompletion ++ 0#2 ++
    BitVec.ofBool interruptOnShortPacket ++ 0#2

/-- The last word of a TRB. -/
def controlWord (control : BitVec 16) (trbType : BitVec 6) (flags : BitVec 10) : BitVec 32 :=
  control ++ trbType ++ flags

/-- `interrupt_on_completion`, in the same bit in all TRBs of transfers. -/
def interruptOnCompletion (trb : TRB) : Bool := trb.data3.getLsbD 5

section fields

variable {data0 data1 data2 : BitVec 32} {control : BitVec 16} {type : BitVec 6}

@[simp] theorem trbType_controlWord {flags : BitVec 10} :
    (TRB.mk data0 data1 data2 (controlWord control type flags)).trbType = type :=
  (BitVec.extractLsb'_append_eq_of_le le_rfl).trans BitVec.extractLsb'_append_eq_right

@[simp] theorem interruptOnCompletion_controlWord (immediate completion short : Bool) :
    (TRB.mk data0 data1 data2
      (controlWord control type (flags immediate completion short))).interruptOnCompletion =
        completion := by
  show (control ++ type ++ flags immediate completion short).getLsbD 5 = completion
  rw [BitVec.getLsbD_append]
  cases immediate <;> cases completion <;> cases short <;> rfl

end fields

end TRB

/-- The fields of a Setup Stage TRB that the code uses.
Source: `kernel/usb/xhci/trb.hpp`, `SetupStageTRB` -/
structure SetupStageTRB where
  requestType : BitVec 8 := 0
  request : BitVec 8 := 0
  value : BitVec 16 := 0
  index : BitVec 16 := 0
  length : BitVec 16 := 0
  trbTransferLength : BitVec 17 := 8
  immediateData : Bool := true
  transferType : BitVec 2 := 0

namespace SetupStageTRB

/-- Source: `kernel/usb/xhci/trb.hpp`, `SetupStageTRB::Type` -/
abbrev Type' : BitVec 6 := 2

/-- Source: `kernel/usb/xhci/trb.hpp`, `SetupStageTRB::kNoDataStage` -/
abbrev kNoDataStage : BitVec 2 := 0

/-- Source: `kernel/usb/xhci/trb.hpp`, `SetupStageTRB::kOutDataStage` -/
abbrev kOutDataStage : BitVec 2 := 2

/-- Source: `kernel/usb/xhci/trb.hpp`, `SetupStageTRB::kInDataStage` -/
abbrev kInDataStage : BitVec 2 := 3

/-- The words of a Setup Stage TRB. -/
def data (setup : SetupStageTRB) : TRB where
  data0 := setup.value ++ setup.request ++ setup.requestType
  data1 := setup.length ++ setup.index
  data2 := 0#15 ++ setup.trbTransferLength
  data3 := TRB.controlWord (0#14 ++ setup.transferType) Type'
    (TRB.flags setup.immediateData false false)

/-- The words of a TRB read as a Setup Stage TRB. -/
def ofTRB (trb : TRB) : SetupStageTRB where
  requestType := trb.data0.extractLsb' 0 8
  request := trb.data0.extractLsb' 8 8
  value := trb.data0.extractLsb' 16 16
  index := trb.data1.extractLsb' 0 16
  length := trb.data1.extractLsb' 16 16
  trbTransferLength := trb.data2.extractLsb' 0 17
  immediateData := trb.data3.getLsbD 6
  transferType := trb.data3.extractLsb' 16 2

variable (setup : SetupStageTRB)

@[simp] theorem trbType_data : setup.data.trbType = Type' := TRB.trbType_controlWord

/-- The fields of the request are read back. -/
theorem request_ofTRB_data (cycle : Bool) :
    let read := ofTRB (setup.data.withCycle cycle)
    read.requestType = setup.requestType ∧ read.request = setup.request ∧
      read.value = setup.value ∧ read.index = setup.index ∧ read.length = setup.length := by
  unfold ofTRB data TRB.withCycle
  refine ⟨BitVec.extractLsb'_append_eq_right, ?_, ?_, BitVec.extractLsb'_append_eq_right,
    BitVec.extractLsb'_append_eq_left⟩
  · simp only [BitVec.extractLsb'_append_eq_of_le, Nat.reduceLeDiff, Nat.reduceSub,
      BitVec.extractLsb'_append_eq_right]
  · exact BitVec.extractLsb'_append_eq_of_le (by decide) |>.trans
      BitVec.extractLsb'_append_eq_left

end SetupStageTRB

/-- The fields of a Data Stage TRB that the code uses.
Source: `kernel/usb/xhci/trb.hpp`, `DataStageTRB` -/
structure DataStageTRB where
  dataBufferPointer : BitVec 64 := 0
  trbTransferLength : BitVec 17 := 0
  tdSize : BitVec 5 := 0
  interruptOnCompletion : Bool := false
  direction : Bool := false

namespace DataStageTRB

/-- Source: `kernel/usb/xhci/trb.hpp`, `DataStageTRB::Type` -/
abbrev Type' : BitVec 6 := 3

/-- The words of a Data Stage TRB. -/
def data (stage : DataStageTRB) : TRB :=
  .ofParameter stage.dataBufferPointer (0#10 ++ stage.tdSize ++ stage.trbTransferLength)
    (TRB.controlWord (0#15 ++ BitVec.ofBool stage.direction) Type'
      (TRB.flags false stage.interruptOnCompletion false))

/-- The words of a TRB read as a Data Stage TRB. -/
def ofTRB (trb : TRB) : DataStageTRB where
  dataBufferPointer := trb.parameter
  trbTransferLength := trb.data2.extractLsb' 0 17
  tdSize := trb.data2.extractLsb' 17 5
  interruptOnCompletion := trb.interruptOnCompletion
  direction := trb.data3.getLsbD 16

variable (stage : DataStageTRB)

@[simp] theorem trbType_data : stage.data.trbType = Type' := TRB.trbType_controlWord

/-- The buffer and its length are read back. -/
theorem buffer_ofTRB_data (cycle : Bool) :
    let read := ofTRB (stage.data.withCycle cycle)
    read.dataBufferPointer = stage.dataBufferPointer ∧
      read.trbTransferLength = stage.trbTransferLength := by
  unfold ofTRB data
  refine ⟨?_, BitVec.extractLsb'_append_eq_right⟩
  exact TRB.parameter_ofParameter _ _ _

end DataStageTRB

/-- The fields of a Status Stage TRB that the code uses.
Source: `kernel/usb/xhci/trb.hpp`, `StatusStageTRB` -/
structure StatusStageTRB where
  interruptOnCompletion : Bool := false
  direction : Bool := false

namespace StatusStageTRB

/-- Source: `kernel/usb/xhci/trb.hpp`, `StatusStageTRB::Type` -/
abbrev Type' : BitVec 6 := 4

/-- The words of a Status Stage TRB. -/
def data (stage : StatusStageTRB) : TRB :=
  ⟨0, 0, 0, TRB.controlWord (0#15 ++ BitVec.ofBool stage.direction) Type'
    (TRB.flags false stage.interruptOnCompletion false)⟩

@[simp] theorem trbType_data (stage : StatusStageTRB) : stage.data.trbType = Type' :=
  TRB.trbType_controlWord

end StatusStageTRB

/-- The fields of a Normal TRB that the code uses.
Source: `kernel/usb/xhci/trb.hpp`, `NormalTRB` -/
structure NormalTRB where
  dataBufferPointer : BitVec 64 := 0
  trbTransferLength : BitVec 17 := 0
  interruptOnShortPacket : Bool := false
  interruptOnCompletion : Bool := false

namespace NormalTRB

/-- Source: `kernel/usb/xhci/trb.hpp`, `NormalTRB::Type` -/
abbrev Type' : BitVec 6 := 1

/-- The words of a TRB read as a Normal TRB. -/
def ofTRB (trb : TRB) : NormalTRB where
  dataBufferPointer := trb.parameter
  trbTransferLength := trb.data2.extractLsb' 0 17
  interruptOnShortPacket := trb.data3.getLsbD 2
  interruptOnCompletion := trb.interruptOnCompletion

end NormalTRB

/-- The fields of a Transfer Event TRB that the code uses.
Source: `kernel/usb/xhci/trb.hpp`, `TransferEventTRB` -/
structure TransferEventTRB where
  trbPointer : BitVec 64
  trbTransferLength : BitVec 24
  completionCode : BitVec 8
  eventData : Bool
  endpointId : BitVec 5

/-! ## Addresses in an array of TRBs -/

/-- `sizeof(TRB)` -/
abbrev sizeofTRB : Nat := 16

/-- `&base[i]` -/
def trbAddress (base : BitVec 64) (i : Nat) : BitVec 64 := base + BitVec.ofNat 64 (sizeofTRB * i)

variable {base : BitVec 64} {i j : Nat}

@[simp] theorem trbAddress_zero (base : BitVec 64) : trbAddress base 0 = base := BitVec.add_zero base

theorem trbAddress_succ (base : BitVec 64) (i : Nat) :
    trbAddress base (i + 1) = trbAddress base i + BitVec.ofNat 64 sizeofTRB := by
  unfold trbAddress
  rw [Nat.mul_add, Nat.mul_one, BitVec.ofNat_add, BitVec.add_assoc]

/-- The offset of a TRB in an array that is not larger than the memory. -/
theorem trbAddress_sub (base : BitVec 64) (hi : sizeofTRB * i < 2 ^ 64) :
    (trbAddress base i - base).toNat = sizeofTRB * i := by
  unfold trbAddress
  rw [BitVec.add_comm, BitVec.add_sub_cancel, BitVec.toNat_ofNat, Nat.mod_eq_of_lt hi]

theorem trbAddress_inj (hi : sizeofTRB * i < 2 ^ 64) (hj : sizeofTRB * j < 2 ^ 64) :
    trbAddress base i = trbAddress base j ↔ i = j := by
  refine ⟨fun h => ?_, fun h => congrArg _ h⟩
  have hoffset := trbAddress_sub base hi
  rw [h, trbAddress_sub base hj] at hoffset
  exact (Nat.eq_of_mul_eq_mul_left (by decide) hoffset).symm

/-- The low bits of an aligned address. -/
theorem extractLsb'_of_aligned {p : BitVec 64} (h : p.toNat % sizeofTRB = 0) :
    p.extractLsb' 0 4 = 0#4 := by
  apply BitVec.eq_of_toNat_eq
  rw [BitVec.extractLsb'_toNat, Nat.shiftRight_zero]
  exact h

theorem trbAddress_aligned (h : base.toNat % sizeofTRB = 0) (i : Nat) :
    (trbAddress base i).toNat % sizeofTRB = 0 := by
  unfold trbAddress
  rw [BitVec.toNat_add, BitVec.toNat_ofNat]
  unfold sizeofTRB at *
  omega

end UhyokOS
