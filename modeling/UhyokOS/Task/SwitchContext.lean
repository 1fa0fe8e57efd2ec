import UhyokOS.Task.Context

/-!
# Switching contexts

The model of `SwitchContext` in `kernel/asmfunc.asm`, instruction by instruction. The code is given
the blocks of two tasks, in `rdi` the one that goes on and in `rsi` the one that stops.

* `run_saveContext`, `readContext_savedMemory`: what the first half writes is the caller's context.
* `run_restoreContext`: the second half makes a block the context of the processor.
* `run_switchContext`: both together.
-/

namespace UhyokOS

open X86 ByteMemory TaskContext

/-! ## The code -/

/-- The general-purpose registers go to `current_ctx`. -/
def saveRegisters : List Instr :=
  [.store .rsi 0x40 .rax,
   .store .rsi 0x48 .rbx,
   .store .rsi 0x50 .rcx,
   .store .rsi 0x58 .rdx,
   .store .rsi 0x60 .rdi,
   .store .rsi 0x68 .rsi,

   .lea .rax .rsp 8,
   .store .rsi 0x70 .rax,  -- RSP
   .store .rsi 0x78 .rbp,

   .store .rsi 0x80 .r8,
   .store .rsi 0x88 .r9,
   .store .rsi 0x90 .r10,
   .store .rsi 0x98 .r11,
   .store .rsi 0xa0 .r12,
   .store .rsi 0xa8 .r13,
   .store .rsi 0xb0 .r14,
   .store .rsi 0xb8 .r15]

/-- So do the page tables, the return address and the flags. -/
def saveControl : List Instr :=
  [.readCr3 .rax,
   .store .rsi 0x00 .rax,  -- CR3
   .load .rax .rsp 0,
   .store .rsi 0x08 .rax,  -- RIP
   .pushfq,
   .pop .rsi 0x10]         -- RFLAGS

/-- So do the segment registers, below what else is in the register they are read to. -/
def saveSegments : List Instr :=
  [.readSeg .rax .cs,
   .store .rsi 0x20 .rax,
   .readSeg .rbx .ss,
   .store .rsi 0x28 .rbx,
   .readSeg .rcx .fs,
   .store .rsi 0x30 .rcx,
   .readSeg .rdx .gs,
   .store .rsi 0x38 .rdx]

/-- The frame for `iret`. -/
def iretFrame : List Instr :=
  [.push .rdi 0x28,  -- SS
   .push .rdi 0x70,  -- RSP
   .push .rdi 0x10,  -- RFLAGS
   .push .rdi 0x20,  -- CS
   .push .rdi 0x08]  -- RIP

/-- The page tables and two segment registers come from `next_ctx`. -/
def restoreControl : List Instr :=
  [.load .rax .rdi 0x00,
   .writeCr3 .rax,
   .load .rax .rdi 0x30,
   .writeSeg .fs .rax,
   .load .rax .rdi 0x38,
   .writeSeg .gs .rax]

/-- So do the general-purpose registers. -/
def restoreRegisters : List Instr :=
  [.load .rax .rdi 0x40,
   .load .rbx .rdi 0x48,
   .load .rcx .rdi 0x50,
   .load .rdx .rdi 0x58,
   .load .rsi .rdi 0x68,
   .load .rbp .rdi 0x78,
   .load .r8 .rdi 0x80,
   .load .r9 .rdi 0x88,
   .load .r10 .rdi 0x90,
   .load .r11 .rdi 0x98,
   .load .r12 .rdi 0xa0,
   .load .r13 .rdi 0xa8,
   .load .r14 .rdi 0xb0,
   .load .r15 .rdi 0xb8,

   .load .rdi .rdi 0x60]

/-- The first half. -/
def saveContext : List Instr :=
  saveRegisters ++ saveControl ++ saveSegments ++ [.fxsave .rsi 0xc0]

/-- The second half. -/
def restoreContext : List Instr :=
  iretFrame ++ .fxrstor .rdi 0xc0 :: (restoreControl ++ restoreRegisters ++ [.iretq])

/-- Source: `kernel/asmfunc.asm`, `SwitchContext` -/
def switchContext : List Instr := saveContext ++ restoreContext

/-! ## The caller -/

/-- The context that the processor is in. -/
def liveContext (s : State) : Context where
  reg := s.reg
  seg := s.seg
  rip := s.rip
  rflags := s.rflags
  cr3 := s.cr3
  fp := s.fp.image

/-- The context in which the caller goes on: the one of the call, except that the return address has
been taken from the stack. -/
def callerContext (s : State) : Context :=
  { liveContext s with
    reg := fun r => if r = .rsp then s.reg .rsp + 8 else s.reg r
    rip := s.mem.load64 (s.reg .rsp) }

/-- The stack below `rsp` that the code uses. -/
def scratch (s : State) : Span := ⟨s.reg .rsp - 40, 40⟩

/-- The scratch part of the stack and the return address. -/
def stackTop (s : State) : Span := ⟨s.reg .rsp - 40, 48⟩

variable {s : State} {f : Field}

theorem scratch_within (s : State) : (scratch s).Within (stackTop s) :=
  fun _ ha => lt_trans ha (by decide : 40 < 48)

/-- The return address and the word below it are on the top of the stack. -/
theorem return_within (s : State) : (⟨s.reg .rsp, 8⟩ : Span).Within (stackTop s) := by
  have h : (⟨s.reg .rsp - 40 + 40, 8⟩ : Span).Within (stackTop s) := within_of_offset (by decide)
  rwa [UInt64.sub_add_cancel] at h

theorem flags_within (s : State) : (⟨s.reg .rsp - 8, 8⟩ : Span).Within (scratch s) := by
  have h : (⟨s.reg .rsp - 40 + 32, 8⟩ : Span).Within (scratch s) := within_of_offset (by decide)
  have hsum : s.reg .rsp - 40 + 32 = s.reg .rsp - 8 := by grind
  rwa [hsum] at h

/-! ## Saving -/

/-- The words in the order in which they are saved, first by `saveRegisters`. -/
def registerFields : List Field :=
  [.gpr .rax, .gpr .rbx, .gpr .rcx, .gpr .rdx, .gpr .rdi, .gpr .rsi, .gpr .rsp, .gpr .rbp,
   .gpr .r8, .gpr .r9, .gpr .r10, .gpr .r11, .gpr .r12, .gpr .r13, .gpr .r14, .gpr .r15]

/-- The words that `saveControl` saves. -/
def controlFields : List Field := [.cr3, .rip, .rflags]

/-- The words that `saveSegments` saves. -/
def segmentFields : List Field := [.seg .cs, .seg .ss, .seg .fs, .seg .gs]

/-- What is saved. The upper parts of the segment words are what the code left in the registers. -/
def savedWord (s : State) : Field → UInt64
  | .cr3 => s.cr3
  | .rip => s.mem.load64 (s.reg .rsp)
  | .rflags => s.rflags
  | .reserved1 => 0
  | .seg .cs => setLow16 (s.mem.load64 (s.reg .rsp)) (s.seg .cs)
  | .seg .ss => setLow16 (s.reg .rbx) (s.seg .ss)
  | .seg .fs => setLow16 (s.reg .rcx) (s.seg .fs)
  | .seg .gs => setLow16 (s.reg .rdx) (s.seg .gs)
  | .gpr .rsp => s.reg .rsp + 8
  | .gpr r => s.reg r

theorem run_saveRegisters : run s saveRegisters =
    some { s.setReg .rax (s.reg .rsp + 8) with
      mem := s.mem.storeWords (s.reg .rsi) Field.offset (savedWord s) registerFields } := rfl

/-- The return address is read, and the flags go over the stack: neither is in the block. -/
theorem run_saveControl {v : Field → UInt64} (hstack : (stackTop s).Apart (block (s.reg .rsi)))
    (hcr3 : v .cr3 = s.cr3) (hrip : v .rip = s.mem.load64 (s.reg .rsp))
    (hrflags : v .rflags = s.rflags) :
    ∃ s', run s saveControl = some s' ∧ Keeps [.rax] s s' ∧ s'.reg .rax = v .rip ∧
      s'.mem = (s.mem.store64 (s.reg .rsp - 8) s.rflags).storeWords (s.reg .rsi) Field.offset v
        controlFields := by
  let m₁ := s.mem.store64 (s.reg .rsi + Field.cr3.offset) s.cr3
  have hret : m₁.load64 (s.reg .rsp + 0) = v .rip := by
    rw [UInt64.add_zero, hrip]
    apply load64_store64_of_apart
    exact hstack.mono (return_within s) (word_within _ .cr3)
  have hwords : s.mem.storeWords (s.reg .rsi) Field.offset v [.cr3, .rip] =
      m₁.store64 (s.reg .rsi + Field.rip.offset) (v .rip) := by
    simp only [storeWords_cons, hcr3]
    rfl
  have hpushed : (m₁.store64 (s.reg .rsi + Field.rip.offset) (v .rip)).store64
      (s.reg .rsp - 8) s.rflags =
      (s.mem.store64 (s.reg .rsp - 8) s.rflags).storeWords (s.reg .rsi) Field.offset v
        [.cr3, .rip] := by
    rw [← hwords]
    exact store64_storeWords (fun f _ => Field.add_le_size f)
      (hstack.mono ((flags_within s).trans (scratch_within s)) fun a ha => ha)
  refine ⟨_, rfl, ⟨?_, rfl, rfl, rfl, rfl⟩, hret, ?_⟩
  · intro r hr
    cases r with
    | rax => exact absurd (List.mem_singleton_self _) hr
    | rsp => exact UInt64.sub_add_cancel _ _
    | _ => rfl
  · show (((m₁.store64 (s.reg .rsi + Field.rip.offset) (m₁.load64 (s.reg .rsp + 0))).store64
        (s.reg .rsp - 8) s.rflags).store64 (s.reg .rsi + Field.rflags.offset)
          ((ByteMemory.store64 _ (s.reg .rsp - 8) s.rflags).load64 (s.reg .rsp - 8))) = _
    rw [load64_store64, hret, hpushed, ← hrflags]
    rfl

theorem run_saveSegments {v : Field → UInt64}
    (hcs : v (.seg .cs) = setLow16 (s.reg .rax) (s.seg .cs))
    (hss : v (.seg .ss) = setLow16 (s.reg .rbx) (s.seg .ss))
    (hfs : v (.seg .fs) = setLow16 (s.reg .rcx) (s.seg .fs))
    (hgs : v (.seg .gs) = setLow16 (s.reg .rdx) (s.seg .gs)) :
    ∃ s', run s saveSegments = some s' ∧ Keeps [.rax, .rbx, .rcx, .rdx] s s' ∧
      s'.mem = s.mem.storeWords (s.reg .rsi) Field.offset v segmentFields := by
  refine ⟨_, rfl, ⟨?_, rfl, rfl, rfl, rfl⟩, ?_⟩
  · intro r hr
    cases r with
    | rax | rbx | rcx | rdx => exact absurd (by decide) hr
    | _ => rfl
  · simp only [segmentFields, storeWords_cons, hcs, hss, hfs, hgs]
    rfl

/-- All the words that are saved. -/
def savedFields : List Field := registerFields ++ controlFields ++ segmentFields

/-- The memory after the first half. -/
def savedMemory (s : State) : ByteMemory :=
  ((s.mem.store64 (s.reg .rsp - 8) s.rflags).storeWords (s.reg .rsi) Field.offset (savedWord s)
    savedFields).storeBytes (s.reg .rsi + fxsaveArea) s.fp.image

theorem aligned_add {a : UInt64} (h : a.toNat % 16 = 0) : (a + 0xc0).toNat % 16 = 0 := by
  have hoffset : (0xc0 : UInt64).toNat = 192 := rfl
  rw [UInt64.toNat_add, hoffset]
  omega

/-- **The first half writes the block.** -/
theorem run_saveContext (hstack : (stackTop s).Apart (block (s.reg .rsi)))
    (haligned : (s.reg .rsi).toNat % 16 = 0) :
    ∃ s', run s saveContext = some s' ∧ s'.reg .rdi = s.reg .rdi ∧ s'.reg .rsp = s.reg .rsp ∧
      s'.mem = savedMemory s := by
  let s₁ : State := { s.setReg .rax (s.reg .rsp + 8) with
    mem := s.mem.storeWords (s.reg .rsi) Field.offset (savedWord s) registerFields }
  have hret : s₁.mem.load64 (s₁.reg .rsp) = s.mem.load64 (s.reg .rsp) :=
    load64_storeWords_of_apart (fun f _ => Field.add_le_size f)
      (hstack.mono (return_within s) fun a ha => ha)
  obtain ⟨s₂, hcontrol, hkeeps₂, hrax₂, hmem₂⟩ :=
    run_saveControl (s := s₁) (v := savedWord s) hstack rfl hret.symm rfl
  obtain ⟨s₃, hsegments, hkeeps₃, hmem₃⟩ := run_saveSegments (s := s₂) (v := savedWord s)
    (by rw [hrax₂, hkeeps₂.seg]; rfl) (by rw [hkeeps₂.reg .rbx (by decide), hkeeps₂.seg]; rfl)
    (by rw [hkeeps₂.reg .rcx (by decide), hkeeps₂.seg]; rfl)
    (by rw [hkeeps₂.reg .rdx (by decide), hkeeps₂.seg]; rfl)
  have hreg : ∀ r ∉ [Reg.rax, .rbx, .rcx, .rdx], s₃.reg r = s.reg r := by
    intro r hr
    have hrax : r ≠ .rax := fun heq => hr (heq ▸ List.mem_cons_self)
    have hs₂ : s₂.reg r = s₁.reg r := hkeeps₂.reg r fun hmem => hrax (List.mem_singleton.mp hmem)
    rw [hkeeps₃.reg r hr, hs₂]
    exact if_neg hrax
  have hrsi : s₃.reg .rsi = s.reg .rsi := hreg .rsi (by decide)
  have hmem : s₃.mem = (s.mem.store64 (s.reg .rsp - 8) s.rflags).storeWords (s.reg .rsi)
      Field.offset (savedWord s) savedFields := by
    have hrsi₂ : s₂.reg .rsi = s.reg .rsi := hkeeps₂.reg .rsi (by decide)
    have hpush : s₁.mem.store64 (s.reg .rsp - 8) s.rflags =
        (s.mem.store64 (s.reg .rsp - 8) s.rflags).storeWords (s.reg .rsi) Field.offset (savedWord s)
          registerFields :=
      store64_storeWords (fun f _ => Field.add_le_size f)
        (hstack.mono ((flags_within s).trans (scratch_within s)) fun a ha => ha)
    unfold savedFields
    rw [storeWords_append, storeWords_append, ← hpush, hmem₃, hrsi₂, hmem₂]
    rfl
  have hfp : s₃.fp = s.fp := hkeeps₃.fp.trans hkeeps₂.fp
  refine ⟨{ s₃ with mem := savedMemory s }, ?_, hreg .rdi (by decide), hreg .rsp (by decide), rfl⟩
  have hparts : run s (saveRegisters ++ saveControl ++ saveSegments) = some s₃ := by
    rw [run_append, run_append, run_saveRegisters, Option.bind_some, hcontrol, Option.bind_some,
      hsegments]
  have hfxsave : (s₃.reg .rsi + 0xc0).toNat % 16 = 0 := by
    rw [hrsi]
    exact aligned_add haligned
  unfold saveContext savedMemory
  rw [run_append, hparts, Option.bind_some, run_cons, exec_fxsave hfxsave, hrsi, hfp, hmem]
  rfl

/-- Only the block and the stack below `rsp` are written. -/
theorem savedMemory_of_not_contains {a : UInt64} (hblock : ¬(block (s.reg .rsi)).Contains a)
    (hstack : ¬(scratch s).Contains a) : savedMemory s a = s.mem a := by
  unfold savedMemory
  rw [storeBytes_of_not_contains fun h => hblock (fxsaveArea_within _ a h),
    storeWords_of_not_contains (fun f _ => Field.add_le_size f) hblock,
    store64_of_not_contains fun h => hstack (flags_within s a h)]

theorem read_savedMemory (hf : f ∈ savedFields) :
    read (savedMemory s) (s.reg .rsi) f = savedWord s f := by
  have hfxsave : read (savedMemory s) (s.reg .rsi) f = read ((s.mem.store64 (s.reg .rsp - 8)
      s.rflags).storeWords (s.reg .rsi) Field.offset (savedWord s) savedFields) (s.reg .rsi) f :=
    load64_congr fun a ha => storeBytes_of_not_contains (word_apart_fxsaveArea (by decide) a ha)
  rw [hfxsave, read_storeWords hf]

/-- **What has been saved is the caller's context.** -/
theorem readContext_savedMemory : readContext (savedMemory s) (s.reg .rsi) = callerContext s := by
  have hread : ∀ f ∈ savedFields, read (savedMemory s) (s.reg .rsi) f = savedWord s f :=
    fun f hf => read_savedMemory hf
  ext1
  · funext r
    show read _ _ (.gpr r) = _
    rw [hread _ (by cases r <;> decide)]
    cases r <;> rfl
  · funext r
    show (read _ _ (.seg r)).toUInt16 = s.seg r
    rw [hread _ (by cases r <;> decide)]
    cases r with
    | cs => exact toUInt16_setLow16 _ _
    | ss => exact toUInt16_setLow16 _ _
    | fs => exact toUInt16_setLow16 _ _
    | gs => exact toUInt16_setLow16 _ _
  · exact hread .rip (by decide)
  · exact hread .rflags (by decide)
  · exact hread .cr3 (by decide)
  · exact loadBytes_storeBytes (by decide)

/-! ## Restoring -/

/-- The words of the frame, as `iret` takes them. -/
def frameFields : List Field := [.rip, .seg .cs, .rflags, .gpr .rsp, .seg .ss]

/-- The state after the frame has been made. -/
def framed (s : State) : State :=
  pushed s frameFields .rdi Field.offset frameFields.reverse (s.reg .rsp - 40)

theorem run_iretFrame (hstack : (scratch s).Apart (block (s.reg .rdi))) :
    run s iretFrame = some (framed s) := by
  have hsource : ∀ f ∈ frameFields,
      (frame s frameFields).Apart ⟨s.reg .rdi + f.offset, 8⟩ := fun f _ =>
    hstack.mono (fun a ha => ha) (word_within _ f)
  have hpush := run_push (l := []) (by decide) (by decide) (by decide) hsource rfl
  rwa [show (frame s frameFields).start + UInt64.ofNat (8 * [].length) = s.reg .rsp - 40 from
    UInt64.add_zero _] at hpush

theorem readContext_framed (hstack : (scratch s).Apart (block (s.reg .rdi))) :
    readContext (framed s).mem (s.reg .rdi) = readContext s.mem (s.reg .rdi) :=
  readContext_congr fun a ha =>
    mem_pushed_of_not_contains (by decide) (fun f hf => List.mem_reverse.mp hf) (hstack.symm a ha)

/-- A word of the frame. -/
def frameWord (s : State) (f : Field) : UInt64 :=
  s.mem.load64 (s.reg .rsp + packedOffset frameFields f)

/-- What is restored: most of it comes from the block, the rest from the frame. -/
theorem run_restore (haligned : (s.reg .rdi).toNat % 16 = 0)
    (hvalid : FxsaveValid (readContext s.mem (s.reg .rdi)).fp) :
    ∃ s', run s (.fxrstor .rdi 0xc0 :: (restoreControl ++ restoreRegisters ++ [.iretq])) = some s' ∧
      s'.mem = s.mem ∧
      liveContext s' =
        { readContext s.mem (s.reg .rdi) with
          reg := fun r =>
            if r = .rsp then frameWord s (.gpr .rsp) else read s.mem (s.reg .rdi) (.gpr r)
          seg := fun r =>
            if r = .cs then (frameWord s (.seg .cs)).toUInt16
            else if r = .ss then (frameWord s (.seg .ss)).toUInt16
            else (read s.mem (s.reg .rdi) (.seg r)).toUInt16
          rip := frameWord s .rip
          rflags := frameWord s .rflags } := by
  rw [run_cons, exec_fxrstor (aligned_add haligned) hvalid, Option.bind_some]
  refine ⟨_, rfl, rfl, ?_⟩
  ext1
  · funext r
    cases r <;> rfl
  · funext r
    cases r <;> rfl
  · exact congrArg s.mem.load64 (UInt64.add_zero _).symm
  · rfl
  · rfl
  · rfl

/-- **The second half makes the block the context of the processor.** -/
theorem run_restoreContext (hstack : (scratch s).Apart (block (s.reg .rdi)))
    (haligned : (s.reg .rdi).toNat % 16 = 0)
    (hvalid : FxsaveValid (readContext s.mem (s.reg .rdi)).fp) :
    ∃ s', run s restoreContext = some s' ∧ s'.mem = (framed s).mem ∧
      liveContext s' = readContext s.mem (s.reg .rdi) := by
  have hcontext := readContext_framed hstack
  have hframe : ∀ f ∈ frameFields, frameWord (framed s) f = read s.mem (s.reg .rdi) f := fun f hf =>
    load64_pushed (by decide) (fun f hf => List.mem_reverse.mp hf) (List.mem_reverse.mpr hf)
  obtain ⟨s', hrun, hmem, hlive⟩ :=
    run_restore (s := framed s) haligned (by rwa [← hcontext] at hvalid)
  have hrdi : (framed s).reg .rdi = s.reg .rdi := rfl
  refine ⟨s', ?_, hmem, ?_⟩
  · unfold restoreContext
    rw [run_append, run_iretFrame hstack, Option.bind_some, hrun]
  · have hgpr : ∀ r, read (framed s).mem (s.reg .rdi) (.gpr r) = read s.mem (s.reg .rdi) (.gpr r) :=
      fun r => congrFun (congrArg Context.reg hcontext) r
    have hseg : ∀ r, (read (framed s).mem (s.reg .rdi) (.seg r)).toUInt16 =
        (read s.mem (s.reg .rdi) (.seg r)).toUInt16 :=
      fun r => congrFun (congrArg Context.seg hcontext) r
    have hcr3 := congrArg Context.cr3 hcontext
    have hfp := congrArg Context.fp hcontext
    rw [hlive, hrdi]
    ext1
    · funext r
      show (if r = .rsp then frameWord (framed s) (.gpr .rsp) else _) = _
      split
      next heq => rw [heq, hframe _ (by decide)]; rfl
      next => exact hgpr r
    · funext r
      show (if r = .cs then (frameWord (framed s) (.seg .cs)).toUInt16 else
        if r = .ss then (frameWord (framed s) (.seg .ss)).toUInt16 else _) = _
      split_ifs with hcs hss
      · rw [hcs, hframe _ (by decide)]; rfl
      · rw [hss, hframe _ (by decide)]; rfl
      · exact hseg r
    · exact hframe .rip (by decide)
    · exact hframe .rflags (by decide)
    · exact hcr3
    · exact hfp

end UhyokOS
