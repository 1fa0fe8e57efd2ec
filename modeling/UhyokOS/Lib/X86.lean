import UhyokOS.Lib.ByteMemory

/-!
# Straight-line machine code

The instructions of an x86-64 processor that move words between registers and memory, save and
restore the floating-point state and return from an interrupt. They are run one after the other, at
one privilege level and with addresses that mean the same in all address spaces, so that loading
`cr3` does not change what an address refers to. Selectors and flags are loaded as they are, without
the checks of a descriptor table. `rip` is where the processor goes on after the code.

* `run_append`: a program is run by running its parts.
* `run_push`, `load64_pushed`: a structure is pushed word by word and then lies on the stack.
-/

namespace X86

open ByteMemory

/-- The general-purpose registers. -/
inductive Reg where
  | rax | rbx | rcx | rdx | rdi | rsi | rsp | rbp | r8 | r9 | r10 | r11 | r12 | r13 | r14 | r15
  deriving DecidableEq, Repr

/-- The segment registers. -/
inductive SegReg where
  | cs | ss | fs | gs
  deriving DecidableEq, Repr

/-- The number of bytes that `fxsave` writes. -/
abbrev fxsaveBytes : ℕ := 416

/-- The image of a floating-point state has `0` in the reserved half of MXCSR. -/
def FxsaveValid (bytes : Fin fxsaveBytes → UInt8) : Prop := bytes 26 = 0 ∧ bytes 27 = 0

instance decidableFxsaveValid (bytes : Fin fxsaveBytes → UInt8) : Decidable (FxsaveValid bytes) := by
  unfold FxsaveValid
  infer_instance

/-- The floating-point state, as its image in memory; the mask of MXCSR counts as a part of it. -/
structure FpState where
  /-- The bytes of the image. -/
  image : Fin fxsaveBytes → UInt8
  /-- The image can be loaded. -/
  valid : FxsaveValid image

/-- The registers and the memory. -/
@[ext]
structure State where
  /-- The general-purpose registers. -/
  reg : Reg → UInt64
  /-- The selectors in the segment registers. -/
  seg : SegReg → UInt16
  /-- The next instruction. -/
  rip : UInt64
  /-- The flags, as `pushfq` writes them. -/
  rflags : UInt64
  /-- The page tables. -/
  cr3 : UInt64
  /-- The floating-point state. -/
  fp : FpState
  /-- The memory. -/
  mem : ByteMemory

/-- An instruction. Memory operands are a register and a displacement. -/
inductive Instr where
  /-- `mov [base + disp], src` -/
  | store (base : Reg) (disp : UInt64) (src : Reg)
  /-- `mov dst, [base + disp]` -/
  | load (dst base : Reg) (disp : UInt64)
  /-- `lea dst, [base + disp]` -/
  | lea (dst base : Reg) (disp : UInt64)
  /-- `mov dst, cr3` -/
  | readCr3 (dst : Reg)
  /-- `mov cr3, src` -/
  | writeCr3 (src : Reg)
  /-- `mov dst, src`, where `dst` is the low half-word of a register -/
  | readSeg (dst : Reg) (src : SegReg)
  /-- `mov dst, src`, where `src` is the low half-word of a register -/
  | writeSeg (dst : SegReg) (src : Reg)
  | pushfq
  /-- `push qword [base + disp]` -/
  | push (base : Reg) (disp : UInt64)
  /-- `pop qword [base + disp]` -/
  | pop (base : Reg) (disp : UInt64)
  /-- `fxsave [base + disp]` -/
  | fxsave (base : Reg) (disp : UInt64)
  /-- `fxrstor [base + disp]` -/
  | fxrstor (base : Reg) (disp : UInt64)
  | iretq

/-- A word with other low 16 bits. -/
def setLow16 (v : UInt64) (low : UInt16) : UInt64 := v >>> 16 <<< 16 ||| low.toUInt64

/-- Write a register. -/
def State.setReg (s : State) (r : Reg) (v : UInt64) : State :=
  { s with reg := fun q => if q = r then v else s.reg q }

/-- Run an instruction. There is no result if it faults: `fxsave` and `fxrstor` want an aligned
operand, `fxrstor` a valid image, and `cs` cannot be loaded by `mov`. -/
def exec (s : State) : Instr → Option State
  | .store base disp src => some { s with mem := s.mem.store64 (s.reg base + disp) (s.reg src) }
  | .load dst base disp => some (s.setReg dst (s.mem.load64 (s.reg base + disp)))
  | .lea dst base disp => some (s.setReg dst (s.reg base + disp))
  | .readCr3 dst => some (s.setReg dst s.cr3)
  | .writeCr3 src => some { s with cr3 := s.reg src }
  | .readSeg dst src => some (s.setReg dst (setLow16 (s.reg dst) (s.seg src)))
  | .writeSeg dst src =>
      if dst = .cs then none
      else some { s with seg := fun q => if q = dst then (s.reg src).toUInt16 else s.seg q }
  | .pushfq =>
      some { s.setReg .rsp (s.reg .rsp - 8) with mem := s.mem.store64 (s.reg .rsp - 8) s.rflags }
  | .push base disp =>
      some { s.setReg .rsp (s.reg .rsp - 8) with
        mem := s.mem.store64 (s.reg .rsp - 8) (s.mem.load64 (s.reg base + disp)) }
  -- An operand that is addressed by `rsp` is found after the pop.
  | .pop base disp =>
      let popped := s.setReg .rsp (s.reg .rsp + 8)
      some { popped with mem := s.mem.store64 (popped.reg base + disp) (s.mem.load64 (s.reg .rsp)) }
  | .fxsave base disp =>
      if (s.reg base + disp).toNat % 16 = 0 then
        some { s with mem := s.mem.storeBytes (s.reg base + disp) s.fp.image }
      else none
  | .fxrstor base disp =>
      if (s.reg base + disp).toNat % 16 = 0 then
        if h : FxsaveValid (s.mem.loadBytes (s.reg base + disp) fxsaveBytes) then
          some { s with fp := ⟨s.mem.loadBytes (s.reg base + disp) fxsaveBytes, h⟩ }
        else none
      else none
  | .iretq =>
      let frame := s.reg .rsp
      some { s.setReg .rsp (s.mem.load64 (frame + 24)) with
        rip := s.mem.load64 frame
        rflags := s.mem.load64 (frame + 16)
        seg := fun q =>
          if q = .cs then (s.mem.load64 (frame + 8)).toUInt16
          else if q = .ss then (s.mem.load64 (frame + 32)).toUInt16
          else s.seg q }

/-- Run instructions one after the other. -/
def run (s : State) : List Instr → Option State
  | [] => some s
  | i :: is => (exec s i).bind fun s' => run s' is

variable {s s' s'' : State} {i : Instr} {is is' : List Instr}

@[simp]
theorem toUInt16_setLow16 (v : UInt64) (low : UInt16) : (setLow16 v low).toUInt16 = low := by
  unfold setLow16
  apply UInt16.eq_of_toBitVec_eq
  ext i hi
  simp

theorem run_cons : run s (i :: is) = (exec s i).bind fun s' => run s' is := rfl

/-- A program is run by running its parts. -/
theorem run_append : run s (is ++ is') = (run s is).bind fun s' => run s' is' := by
  induction is generalizing s with
  | nil => rfl
  | cons i is ih =>
      rw [List.cons_append, run_cons, run_cons, Option.bind_assoc]
      exact congrArg _ (funext fun s' => ih)

theorem exec_fxsave {base : Reg} {disp : UInt64} (h : (s.reg base + disp).toNat % 16 = 0) :
    exec s (.fxsave base disp) =
      some { s with mem := s.mem.storeBytes (s.reg base + disp) s.fp.image } := if_pos h

theorem exec_fxrstor {base : Reg} {disp : UInt64} (h : (s.reg base + disp).toNat % 16 = 0)
    (hvalid : FxsaveValid (s.mem.loadBytes (s.reg base + disp) fxsaveBytes)) :
    exec s (.fxrstor base disp) =
      some { s with fp := ⟨s.mem.loadBytes (s.reg base + disp) fxsaveBytes, hvalid⟩ } :=
  (if_pos h).trans (dif_pos hvalid)

theorem exec_fxrstor_eq_none {base : Reg} {disp : UInt64}
    (hvalid : ¬FxsaveValid (s.mem.loadBytes (s.reg base + disp) fxsaveBytes)) :
    exec s (.fxrstor base disp) = none := by
  simp only [exec, dif_neg hvalid, ite_self]

/-- Only the general-purpose registers in the list and the memory may be different. -/
structure Keeps (written : List Reg) (s s' : State) : Prop where
  reg : ∀ r ∉ written, s'.reg r = s.reg r
  seg : s'.seg = s.seg
  rflags : s'.rflags = s.rflags
  cr3 : s'.cr3 = s.cr3
  fp : s'.fp = s.fp

/-! ## Frames -/

section frames

variable {ι : Type*} [DecidableEq ι] {layout l l' keys : List ι} {source : ι → UInt64} {base : Reg}
  {k : ι} {p : UInt64} {s : State}

/-- The bytes that a structure takes when it is pushed. -/
def frame (s : State) (layout : List ι) : Span :=
  ⟨s.reg .rsp - UInt64.ofNat (8 * layout.length), 8 * layout.length⟩

/-- The state after some words of a structure have been pushed; they come from memory. -/
def pushed (s : State) (layout : List ι) (base : Reg) (source : ι → UInt64) (keys : List ι)
    (p : UInt64) : State :=
  { s.setReg .rsp p with
    mem := s.mem.storeWords (frame s layout).start (packedOffset layout)
      (fun k => s.mem.load64 (s.reg base + source k)) keys }

theorem exec_push_pushed (hlen : 8 * layout.length < 2 ^ 64) (hbase : base ≠ .rsp)
    (hsource : (frame s layout).Apart ⟨s.reg base + source k, 8⟩)
    (hkeys : ∀ k ∈ keys, k ∈ layout) (hp : p - 8 = (frame s layout).start + packedOffset layout k) :
    exec (pushed s layout base source keys p) (.push base (source k)) =
      some (pushed s layout base source (keys ++ [k]) (p - 8)) := by
  have hbase' : (pushed s layout base source keys p).reg base = s.reg base := if_neg hbase
  have hsp : (pushed s layout base source keys p).reg .rsp = p := rfl
  have hread : (pushed s layout base source keys p).mem.load64 (s.reg base + source k) =
      s.mem.load64 (s.reg base + source k) :=
    load64_storeWords_of_apart (fun k hk => packedOffset_add_le hlen (hkeys k hk)) hsource.symm
  have hmem : (pushed s layout base source (keys ++ [k]) (p - 8)).mem =
      (pushed s layout base source keys p).mem.store64 (p - 8)
        (s.mem.load64 (s.reg base + source k)) := by
    unfold pushed
    rw [storeWords_append, hp]
    rfl
  unfold exec
  simp only [hsp, hbase', hread, ← hmem]
  refine congrArg some (State.ext ?_ rfl rfl rfl rfl rfl rfl)
  funext r
  unfold pushed State.setReg
  simp only
  split
  · rfl
  · rfl

/-- **A structure is pushed from its last word to its first one.** -/
theorem run_push (hnodup : layout.Nodup) (hlen : 8 * layout.length < 2 ^ 64) (hbase : base ≠ .rsp)
    (hsource : ∀ k ∈ layout, (frame s layout).Apart ⟨s.reg base + source k, 8⟩)
    (h : layout = l ++ l') :
    run s (l'.reverse.map fun k => .push base (source k)) =
      some (pushed s layout base source l'.reverse
        ((frame s layout).start + UInt64.ofNat (8 * l.length))) := by
  induction l' generalizing l with
  | nil =>
      have hrsp : (frame s layout).start + UInt64.ofNat (8 * l.length) = s.reg .rsp := by
        rw [List.append_nil] at h
        rw [← h]
        exact UInt64.sub_add_cancel _ _
      refine congrArg some (State.ext ?_ rfl rfl rfl rfl rfl rfl)
      funext r
      unfold pushed State.setReg
      simp only [hrsp]
      split
      next heq => rw [heq]
      next => rfl
  | cons k l' ih =>
      have hsplit : layout = (l ++ [k]) ++ l' := by rw [h, List.append_assoc, List.singleton_append]
      have hk : k ∉ l := by
        rw [hsplit] at hnodup
        have hne := (List.nodup_append.mp (List.nodup_append.mp hnodup).1).2.2
        exact fun hk => hne k hk k (List.mem_singleton_self k) rfl
      have hidx : layout.idxOf k = l.length := by
        rw [h, List.idxOf_append_of_notMem hk, List.idxOf_cons_self, Nat.add_zero]
      have hmem : ∀ k' ∈ k :: l', k' ∈ layout := by
        intro k' hk'
        rw [h]
        exact List.mem_append_right l hk'
      have hstep : (frame s layout).start + UInt64.ofNat (8 * (l ++ [k]).length) - 8 =
          (frame s layout).start + UInt64.ofNat (8 * l.length) := by
        have hlength : 8 * (l ++ [k]).length = 8 * l.length + 8 := by
          rw [List.length_append]
          rfl
        rw [hlength, UInt64.ofNat_add, ← UInt64.add_assoc]
        exact UInt64.add_sub_cancel _ _
      have hp : (frame s layout).start + UInt64.ofNat (8 * (l ++ [k]).length) - 8 =
          (frame s layout).start + packedOffset layout k := by
        unfold packedOffset
        rw [hstep, hidx]
      have hpush := exec_push_pushed hlen hbase (hsource k (hmem k List.mem_cons_self))
        (fun k' hk' => hmem k' (List.mem_cons_of_mem k (List.mem_reverse.mp hk'))) hp
      rw [List.reverse_cons, List.map_append, run_append, ih hsplit, Option.bind_some, ← hstep]
      show (exec _ (.push base (source k))).bind _ = _
      rw [hpush]
      rfl

theorem mem_pushed_of_not_contains {a : UInt64} (hlen : 8 * layout.length < 2 ^ 64)
    (hkeys : ∀ k ∈ keys, k ∈ layout) (ha : ¬(frame s layout).Contains a) :
    (pushed s layout base source keys p).mem a = s.mem a :=
  storeWords_of_not_contains (fun k hk => packedOffset_add_le hlen (hkeys k hk)) ha

/-- The words of a frame are the ones that were pushed. -/
theorem load64_pushed (hlen : 8 * layout.length < 2 ^ 64) (hkeys : ∀ k ∈ keys, k ∈ layout)
    (hk : k ∈ keys) :
    (pushed s layout base source keys p).mem.load64 ((frame s layout).start + packedOffset layout k) =
      s.mem.load64 (s.reg base + source k) :=
  load64_storeWords (fun k' hk' hne => separate_packedOffset hlen (hkeys k hk) (hkeys k' hk') hne.symm)
    hk

end frames

end X86
