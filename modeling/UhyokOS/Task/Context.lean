import UhyokOS.Lib.X86
import UhyokOS.Lib.BumpAllocation

/-!
# Context blocks

The model of `TaskContext` in `kernel/task.hpp` and of `Task::InitContext` in `kernel/task.cpp`: the
block that holds the registers of a task that does not run. The structure is packed, so the order of
the fields gives their offsets.

* `readContext_congr`: a block that nothing writes to holds the same context.
* `readContext_initContext`: the context that a new task starts in.
-/

namespace UhyokOS

open X86 ByteMemory

/-! ## The block -/

namespace TaskContext

/-- The words of a block. -/
inductive Field where
  | cr3 | rip | rflags | reserved1
  | seg (r : SegReg)
  | gpr (r : Reg)
  deriving DecidableEq

/-- The words in the order of their declaration. Source: `kernel/task.hpp`, `TaskContext` -/
def fields : List Field :=
  [.cr3, .rip, .rflags, .reserved1,
   .seg .cs, .seg .ss, .seg .fs, .seg .gs,
   .gpr .rax, .gpr .rbx, .gpr .rcx, .gpr .rdx, .gpr .rdi, .gpr .rsi, .gpr .rsp, .gpr .rbp,
   .gpr .r8, .gpr .r9, .gpr .r10, .gpr .r11, .gpr .r12, .gpr .r13, .gpr .r14, .gpr .r15]

/-- Where a word is. -/
def Field.offset : Field → UInt64 := packedOffset fields

/-- Where `fxsave_area` is: behind the words. -/
def fxsaveArea : UInt64 := UInt64.ofNat (8 * fields.length)

/-- `sizeof(TaskContext)` -/
def size : ℕ := 8 * fields.length + 512

/-- The bytes of the block at an address. -/
def block (ctx : UInt64) : Span := ⟨ctx, size⟩

/-- A word of the block at an address. -/
def read (m : ByteMemory) (ctx : UInt64) (f : Field) : UInt64 := m.load64 (ctx + f.offset)

theorem mem_fields (f : Field) : f ∈ fields := by
  cases f with
  | seg r => cases r <;> decide
  | gpr r => cases r <;> decide
  | _ => decide

theorem Field.offset_add_le (f : Field) : f.offset.toNat + 8 ≤ fxsaveArea.toNat :=
  packedOffset_add_le (by decide) (mem_fields f)

theorem Field.add_le_size (f : Field) : f.offset.toNat + 8 ≤ size :=
  (Field.offset_add_le f).trans (by decide)

theorem Field.separate {f f' : Field} (h : f ≠ f') : Separate f.offset f'.offset :=
  separate_packedOffset (by decide) (mem_fields f) (mem_fields f') h

end TaskContext

open TaskContext

variable {m m' : ByteMemory} {ctx : UInt64} {f : Field} {value : Field → UInt64} {keys : List Field}

theorem word_within (ctx : UInt64) (f : Field) :
    (⟨ctx + f.offset, 8⟩ : Span).Within (block ctx) :=
  within_of_offset (Field.add_le_size f)

theorem fxsaveArea_within (ctx : UInt64) :
    (⟨ctx + fxsaveArea, fxsaveBytes⟩ : Span).Within (block ctx) :=
  within_of_offset (by decide)

/-- A word and the floating-point image do not overlap. -/
theorem word_apart_fxsaveArea {n : ℕ} (hn : n ≤ 512) :
    (⟨ctx + f.offset, 8⟩ : Span).Apart ⟨ctx + fxsaveArea, n⟩ := by
  have harea : fxsaveArea.toNat = 192 := rfl
  exact apart_of_offset (Field.offset_add_le f) (by omega)

/-- A word that is stored is read back. -/
theorem read_storeWords (hf : f ∈ keys) :
    read (m.storeWords ctx Field.offset value keys) ctx f = value f :=
  load64_storeWords (fun _ _ hne => Field.separate hne.symm) hf

theorem read_storeWords_of_notMem (hf : f ∉ keys) :
    read (m.storeWords ctx Field.offset value keys) ctx f = read m ctx f := by
  refine load64_storeWords_of_separate fun f' hf' => Field.separate ?_
  rintro rfl
  exact hf hf'

/-! ## Contexts -/

/-- The registers of a task that does not run. -/
@[ext]
structure Context where
  /-- The general-purpose registers. -/
  reg : Reg → UInt64
  /-- The selectors in the segment registers. -/
  seg : SegReg → UInt16
  /-- Where the task goes on. -/
  rip : UInt64
  rflags : UInt64
  cr3 : UInt64
  /-- The image of the floating-point state. -/
  fp : Fin fxsaveBytes → UInt8

/-- The context that a block holds. Of the segment words only the low halves count. -/
def readContext (m : ByteMemory) (ctx : UInt64) : Context where
  reg r := read m ctx (.gpr r)
  seg r := (read m ctx (.seg r)).toUInt16
  rip := read m ctx .rip
  rflags := read m ctx .rflags
  cr3 := read m ctx .cr3
  fp := m.loadBytes (ctx + fxsaveArea) fxsaveBytes

/-- A block that nothing writes to holds the same context. -/
theorem readContext_congr (h : ∀ a, (block ctx).Contains a → m' a = m a) :
    readContext m' ctx = readContext m ctx := by
  have hread : ∀ f, read m' ctx f = read m ctx f := fun f =>
    load64_congr fun a ha => h a (word_within ctx f a ha)
  have hfp : m'.loadBytes (ctx + fxsaveArea) fxsaveBytes =
      m.loadBytes (ctx + fxsaveArea) fxsaveBytes :=
    loadBytes_congr (by decide) fun a ha => h a (fxsaveArea_within ctx a ha)
  unfold readContext
  simp only [hread, hfp]

/-! ## A new task -/

/-- Source: `kernel/segment.hpp`, `kKernelCS` -/
abbrev kKernelCS : UInt16 := (1 : UInt16) <<< 3

/-- Source: `kernel/segment.hpp`, `kKernelSS` -/
abbrev kKernelSS : UInt16 := (2 : UInt16) <<< 3

/-- What a new task is started with. -/
structure TaskStart where
  /-- `f` -/
  f : UInt64
  /-- `id_` -/
  id : UInt64
  /-- `data` -/
  data : Int64
  /-- The end of `stack_`. -/
  stackEnd : UInt64
  /-- The page tables, `GetCR3()`. -/
  cr3 : UInt64

/-- The words that `InitContext` assigns. -/
def TaskStart.word (start : TaskStart) : Field → UInt64
  | .cr3 => start.cr3
  | .rflags => 0x202
  | .seg .cs => kKernelCS.toUInt64
  | .seg .ss => kKernelSS.toUInt64
  | .gpr .rsp => (start.stackEnd &&& ~~~0xf) - 8
  | .rip => start.f
  | .gpr .rdi => start.id
  | .gpr .rsi => start.data.toUInt64
  | _ => 0

/-- The words in the order in which they are assigned. -/
def assignedFields : List Field :=
  [.cr3, .rflags, .seg .cs, .seg .ss, .gpr .rsp, .rip, .gpr .rdi, .gpr .rsi]

/-- A `uint32_t` in memory. The value masks all exceptions of MXCSR. -/
def mxcsrBytes : Fin 4 → UInt8 := fun i => UInt8.ofNat (0x1f80 / 256 ^ i.val)

/-- Source: `kernel/task.cpp`, `Task::InitContext` -/
def initContext (m : ByteMemory) (ctx : UInt64) (start : TaskStart) : ByteMemory :=
  let m := m.fill ctx size 0
  let m := m.storeWords ctx Field.offset start.word assignedFields
  m.storeBytes (ctx + fxsaveArea + 24) mxcsrBytes

/-- The floating-point image of a new task. -/
def initialFp : Fin fxsaveBytes → UInt8 := fun i =>
  if i.val = 24 then 0x80 else if i.val = 25 then 0x1f else 0

/-- The context that a new task starts in. -/
def TaskStart.context (start : TaskStart) : Context where
  reg r := start.word (.gpr r)
  seg r := (start.word (.seg r)).toUInt16
  rip := start.f
  rflags := 0x202
  cr3 := start.cr3
  fp := initialFp

/-- Of the memory only the block is written. -/
theorem initContext_of_not_contains {start : TaskStart} {a : UInt64} (h : ¬(block ctx).Contains a) :
    initContext m ctx start a = m a := by
  have hmxcsr : (⟨ctx + fxsaveArea + 24, 4⟩ : Span).Within (block ctx) := by
    rw [UInt64.add_assoc]
    exact within_of_offset (by decide)
  unfold initContext
  rw [storeBytes_of_not_contains fun hin => h (hmxcsr a hin),
    storeWords_of_not_contains (fun f _ => Field.add_le_size f) h, fill_of_not_contains h]

theorem TaskStart.word_of_notMem (start : TaskStart) (hf : f ∉ assignedFields) :
    start.word f = 0 := by
  unfold TaskStart.word
  split
  iterate 8 exact absurd (by decide) hf
  rfl

theorem read_initContext {start : TaskStart} :
    read (initContext m ctx start) ctx f = start.word f := by
  have hfill : read (m.fill ctx size 0) ctx f = 0 :=
    load64_eq_zero fun a ha => fill_of_contains (word_within ctx f a ha)
  have hmxcsr : (⟨ctx + f.offset, 8⟩ : Span).Apart ⟨ctx + fxsaveArea + 24, 4⟩ := by
    have harea : (fxsaveArea + 24).toNat = 216 := rfl
    have hoffset := Field.offset_add_le f
    rw [UInt64.add_assoc]
    exact apart_of_offset (hoffset.trans (by decide)) (by omega)
  have hstore : read (initContext m ctx start) ctx f =
      read ((m.fill ctx size 0).storeWords ctx Field.offset start.word assignedFields) ctx f :=
    load64_congr fun a ha => storeBytes_of_not_contains (hmxcsr a ha)
  rw [hstore]
  by_cases hf : f ∈ assignedFields
  · exact read_storeWords hf
  · rw [read_storeWords_of_notMem hf, hfill, start.word_of_notMem hf]

theorem mxcsrBytes_eq : ∀ j : Fin 4, mxcsrBytes j = initialFp ⟨24 + j.val,
    Nat.lt_of_lt_of_le (Nat.add_lt_add_left j.isLt 24) (by decide : 28 ≤ fxsaveBytes)⟩ := by
  decide

/-- The floating-point image is clear but for MXCSR. -/
theorem initContext_fxsaveArea {start : TaskStart} (i : Fin fxsaveBytes) :
    initContext m ctx start (ctx + fxsaveArea + UInt64.ofNat i) = initialFp i := by
  have hi : i.val < 416 := i.isLt
  by_cases hmxcsr : 24 ≤ i.val ∧ i.val < 24 + 4
  · obtain ⟨j, hj⟩ : ∃ j : Fin 4, i.val = 24 + j.val :=
      ⟨⟨i.val - 24, by omega⟩, (Nat.add_sub_cancel' hmxcsr.1).symm⟩
    have haddr : ctx + fxsaveArea + UInt64.ofNat i =
        ctx + fxsaveArea + 24 + UInt64.ofNat j := by
      rw [show (24 : UInt64) = UInt64.ofNat 24 from rfl, Span.add_offset_add, hj]
    unfold initContext
    rw [haddr, storeBytes_at (by decide), mxcsrBytes_eq j]
    exact congrArg initialFp (Fin.ext hj.symm)
  · have hnot : ¬(⟨ctx + fxsaveArea + 24, 4⟩ : Span).Contains
        (ctx + fxsaveArea + UInt64.ofNat i) := by
      have hsub : ctx + fxsaveArea + UInt64.ofNat i - (ctx + fxsaveArea + 24) =
          UInt64.ofNat i - 24 := by grind
      have htwentyFour : (24 : UInt64).toNat = 24 := rfl
      show ¬(_ - _ : UInt64).toNat < 4
      rw [hsub, UInt64.toNat_sub, htwentyFour, UInt64.toNat_ofNat']
      omega
    have hwords : ¬(⟨ctx, 192⟩ : Span).Contains (ctx + fxsaveArea + UInt64.ofNat i) := by
      rw [show fxsaveArea = UInt64.ofNat 192 from rfl, Span.add_offset_add,
        Span.contains_add (s := ⟨ctx, 192⟩) (by omega)]
      exact Nat.not_lt.mpr (Nat.le_add_right 192 i)
    have hne : i.val ≠ 24 ∧ i.val ≠ 25 := by omega
    unfold initContext initialFp
    rw [storeBytes_of_not_contains hnot,
      storeWords_of_not_contains (fun f _ => Field.offset_add_le f) hwords,
      fill_of_contains (fxsaveArea_within ctx _ ((Span.contains_add (by omega)).mpr hi)),
      if_neg hne.1, if_neg hne.2]

/-- **The context that a new task starts in.** -/
theorem readContext_initContext {start : TaskStart} :
    readContext (initContext m ctx start) ctx = start.context := by
  ext1
  · funext r
    exact read_initContext
  · funext r
    exact congrArg UInt64.toUInt16 read_initContext
  · exact read_initContext
  · exact read_initContext
  · exact read_initContext
  · funext i
    exact initContext_fxsaveArea i

/-- A new task starts with a stack as a function finds it. -/
theorem TaskStart.rsp_mod (start : TaskStart) : (start.context.reg .rsp).toNat % 16 = 8 := by
  have hmask : (start.stackEnd &&& ~~~0xf).toNat = start.stackEnd.toNat / 2 ^ 4 * 2 ^ 4 :=
    BumpAllocation.toNat_and_not_sub_one start.stackEnd (a := 16) rfl
  show ((start.stackEnd &&& ~~~0xf) - 8).toNat % 16 = 8
  have hlt := UInt64.toNat_lt start.stackEnd
  have height : (8 : UInt64).toNat = 8 := rfl
  rw [UInt64.toNat_sub, hmask, height]
  omega

end UhyokOS
