import UhyokOS.Task.Manager
import UhyokOS.Task.SwitchContext
import Mathlib.Logic.Relation

/-!
# Round trips

A task that calls `SwitchContext` goes on when another task switches back to it. Between the two
calls anything may happen that leaves the block of the task alone; other tasks may call
`SwitchContext` as often as they want.

* `run_switchContext`: what a call does.
* `Elsewhere.keeps`: what happens in between leaves the block alone.
* `HoldsContexts.switch`: the code does to the blocks what `Cpu.switchContext` says.
* `context_switch_round_trip`: the caller goes on in its own context, a new task in the one that
  `InitContext` has made.
-/

namespace UhyokOS

open X86 ByteMemory TaskContext

variable {s s' t t' : State} {next cur other : UInt64}

/-- A call `SwitchContext(next, cur)`. The blocks are aligned, they are not on the top of the stack,
and two of them do not overlap. -/
structure CanSwitch (s : State) (next cur : UInt64) : Prop where
  rdi : s.reg .rdi = next
  rsi : s.reg .rsi = cur
  aligned_next : next.toNat % 16 = 0
  aligned_cur : cur.toNat % 16 = 0
  stack_next : (scratch s).Apart (block next)
  stack_cur : (stackTop s).Apart (block cur)
  blocks : next = cur ∨ (block next).Apart (block cur)

/-- The block to go on with can be loaded; the one that the call itself writes always can. -/
def Loadable (s : State) (next cur : UInt64) : Prop :=
  next = cur ∨ FxsaveValid (readContext s.mem next).fp

/-- What a call does: it saves the caller to `cur`, goes on with `next` and writes nothing else but
the stack below `rsp`. -/
structure Switched (s : State) (next cur : UInt64) (s' : State) : Prop where
  saved : readContext s'.mem cur = callerContext s
  live : liveContext s' = if next = cur then callerContext s else readContext s.mem next
  frame : ∀ a, ¬(block cur).Contains a → ¬(scratch s).Contains a → s'.mem a = s.mem a

/-- The context to go on with, after the first half. -/
theorem readContext_next (h : CanSwitch s next cur) : readContext (savedMemory s) next =
    if next = cur then callerContext s else readContext s.mem next := by
  have hsaved : readContext (savedMemory s) cur = callerContext s := by
    rw [← h.rsi]
    exact readContext_savedMemory
  split
  next heq => rw [heq, hsaved]
  next hne =>
    have hblocks := h.blocks.resolve_left hne
    refine readContext_congr fun a ha => savedMemory_of_not_contains ?_ (h.stack_next.symm a ha)
    rw [h.rsi]
    exact hblocks a ha

/-- The first half of a call. -/
theorem CanSwitch.saves (h : CanSwitch s next cur) : ∃ s₁, run s saveContext = some s₁ ∧
    s₁.reg .rdi = next ∧ scratch s₁ = scratch s ∧ s₁.mem = savedMemory s := by
  obtain ⟨rdi, rsi, -, haligned, -, hstack, -⟩ := h
  rw [← rsi] at haligned hstack
  obtain ⟨s₁, hrun, hrdi, hrsp, hmem⟩ := run_saveContext hstack haligned
  refine ⟨s₁, hrun, hrdi.trans rdi, ?_, hmem⟩
  unfold scratch
  rw [hrsp]

/-- **A call does what it should.** -/
theorem run_switchContext (h : CanSwitch s next cur) (hload : Loadable s next cur) :
    ∃ s', run s switchContext = some s' ∧ Switched s next cur s' := by
  obtain ⟨s₁, hsave, hrdi, hscratch, hmem⟩ := h.saves
  have hnext : readContext s₁.mem next =
      if next = cur then callerContext s else readContext s.mem next := by
    rw [hmem]
    exact readContext_next h
  have hvalid : FxsaveValid (readContext s₁.mem next).fp := by
    rw [hnext]
    split
    next => exact s.fp.valid
    next hne => exact hload.resolve_left hne
  obtain ⟨s', hrestore, hmem', hlive⟩ := run_restoreContext (s := s₁)
    (by rw [hscratch, hrdi]; exact h.stack_next) (by rw [hrdi]; exact h.aligned_next)
    (by rw [hrdi]; exact hvalid)
  have hframe : ∀ a, ¬(scratch s).Contains a → s'.mem a = savedMemory s a := by
    intro a ha
    rw [hmem', ← hmem]
    refine mem_pushed_of_not_contains (by decide) (fun f hf => List.mem_reverse.mp hf) ?_
    rw [← hscratch] at ha
    exact ha
  refine ⟨s', ?_, ?_, ?_, ?_⟩
  · unfold switchContext
    rw [run_append, hsave, Option.bind_some, hrestore]
  · have hblock : readContext s'.mem cur = readContext (savedMemory s) cur :=
      readContext_congr fun a ha =>
        hframe a fun hin => h.stack_cur a (scratch_within s a hin) ha
    rw [hblock, ← h.rsi]
    exact readContext_savedMemory
  · rw [hlive, hrdi, hnext]
  · intro a hblock hstack
    rw [← h.rsi] at hblock
    rw [hframe a hstack, savedMemory_of_not_contains hblock hstack]

/-- A call that does not fault has loaded the block. -/
theorem CanSwitch.loadable (h : CanSwitch s next cur) (hrun : run s switchContext = some s') :
    Loadable s next cur := by
  obtain ⟨s₁, hsave, hrdi, hscratch, hmem⟩ := h.saves
  by_contra hload
  have hstack : (scratch s₁).Apart (block (s₁.reg .rdi)) := by
    rw [hscratch, hrdi]
    exact h.stack_next
  have hnext : readContext (framed s₁).mem (s₁.reg .rdi) =
      if next = cur then callerContext s else readContext s.mem next := by
    rw [readContext_framed hstack, hrdi, hmem]
    exact readContext_next h
  have hvalid : ¬FxsaveValid (readContext (framed s₁).mem (s₁.reg .rdi)).fp := by
    rw [hnext, if_neg fun heq => hload (Or.inl heq)]
    exact fun hvalid => hload (Or.inr hvalid)
  have hfault : exec (framed s₁) (.fxrstor .rdi 0xc0) = none := exec_fxrstor_eq_none hvalid
  unfold switchContext restoreContext at hrun
  rw [run_append, hsave, Option.bind_some, run_append, run_iretFrame hstack, Option.bind_some,
    run_cons, hfault] at hrun
  cases hrun

/-- What happens between two calls: the block at `cur` is left alone. -/
inductive Elsewhere (cur : UInt64) : State → State → Prop
  /-- Some other code. -/
  | code {t t' : State} (h : ∀ a, (block cur).Contains a → t'.mem a = t.mem a) : Elsewhere cur t t'
  /-- A switch between two other blocks. -/
  | switch {t t' : State} {next other : UInt64} (h : CanSwitch t next other) (hnext : next ≠ cur)
      (hother : other ≠ cur) (hblocks : (block cur).Apart (block other))
      (hstack : (block cur).Apart (scratch t)) (hrun : run t switchContext = some t') :
      Elsewhere cur t t'

theorem Elsewhere.keeps (h : Elsewhere cur t t') :
    ∀ a, (block cur).Contains a → t'.mem a = t.mem a := by
  cases h with
  | code h => exact h
  | switch h hnext hother hblocks hstack hrun =>
      obtain ⟨t₁, hrun₁, hswitched⟩ := run_switchContext h (h.loadable hrun)
      obtain rfl : t₁ = t' := Option.some.inj (hrun₁.symm.trans hrun)
      intro a ha
      exact hswitched.frame a (hblocks a ha) (hstack a ha)

/-- However long the others run, the block holds the same context. -/
theorem readContext_elsewhere (h : Relation.ReflTransGen (Elsewhere cur) t t') :
    readContext t'.mem cur = readContext t.mem cur := by
  induction h with
  | refl => rfl
  | tail _ hstep ih => rw [readContext_congr hstep.keeps, ih]

/-- A switch back to a block that has been left alone. -/
theorem resumes (hbefore : Relation.ReflTransGen (Elsewhere cur) s t) (h : CanSwitch t cur other)
    (hother : cur ≠ other) (hvalid : FxsaveValid (readContext s.mem cur).fp) :
    ∃ t', run t switchContext = some t' ∧ liveContext t' = readContext s.mem cur := by
  have hkept := readContext_elsewhere hbefore
  have hload : Loadable t cur other := by
    right
    rw [hkept]
    exact hvalid
  obtain ⟨t', hrun, hswitched⟩ := run_switchContext h hload
  refine ⟨t', hrun, ?_⟩
  rw [hswitched.live, if_neg hother, hkept]

/-! ## The scheduler's view -/

/-- The blocks of the first `n` tasks hold the contexts of the tasks that the processor is said to
have saved there. The block of the task that executes is out of date. -/
def HoldsContexts (n : ℕ) (addr : TaskPtr → UInt64) (contexts : TaskPtr → Context) (cpu : Cpu)
    (s : State) : Prop :=
  ∀ p < n, p ≠ cpu.executing → readContext s.mem (addr p) = contexts (cpu.contextOwner p)

/-- A block overlaps itself. -/
theorem ne_of_apart {a b : UInt64} (h : (block a).Apart (block b)) : a ≠ b := by
  rintro rfl
  have hin : (block a).Contains a := by
    show (a - a).toNat < size
    rw [UInt64.sub_self]
    decide
  exact h a hin hin

/-- **The code refines the scheduler's processor**: the task that executes is saved to the block of
`call.current`, and the context that the processor gets is the one that the block of `call.next`
is said to hold. -/
theorem HoldsContexts.switch {n : ℕ} {addr : TaskPtr → UInt64} {contexts : TaskPtr → Context}
    {cpu : Cpu} {call : ContextSwitch} (h : HoldsContexts n addr contexts cpu s)
    (howner : ∀ p, cpu.contextOwner p = p) (hcurrent : call.current = cpu.executing)
    (hnext : call.next < n) (hcall : CanSwitch s (addr call.next) (addr call.current))
    (hblocks : ∀ p < n, p ≠ call.current → (block (addr p)).Apart (block (addr call.current)))
    (hstack : ∀ p < n, (block (addr p)).Apart (scratch s)) (hrun : run s switchContext = some s') :
    let contexts' := Function.update contexts cpu.executing (callerContext s)
    HoldsContexts n addr contexts' (cpu.switchContext call) s' ∧
      liveContext s' = contexts' ((cpu.switchContext call).contextOwner call.next) := by
  intro contexts'
  obtain ⟨s₁, hrun₁, hswitched⟩ := run_switchContext hcall (hcall.loadable hrun)
  obtain rfl : s₁ = s' := Option.some.inj (hrun₁.symm.trans hrun)
  have hself : contexts' ((cpu.switchContext call).contextOwner call.current) = callerContext s := by
    show Function.update contexts _ _ (Function.update cpu.contextOwner _ _ call.current) = _
    rw [Function.update_self, Function.update_self]
  have hother : ∀ p, p ≠ call.current →
      contexts' ((cpu.switchContext call).contextOwner p) = contexts (cpu.contextOwner p) := by
    intro p hp
    show Function.update contexts _ _ (Function.update cpu.contextOwner _ _ p) = _
    rw [Function.update_of_ne hp, howner, Function.update_of_ne (hcurrent ▸ hp)]
  constructor
  · intro p hpn _
    by_cases hp : p = call.current
    · subst hp
      rw [hself]
      exact hswitched.saved
    · have hkept : readContext s₁.mem (addr p) = readContext s.mem (addr p) :=
        readContext_congr fun a ha => hswitched.frame a (hblocks p hpn hp a ha) (hstack p hpn a ha)
      rw [hother p hp, hkept]
      exact h p hpn (hcurrent ▸ hp)
  · rw [hswitched.live]
    by_cases hp : call.next = call.current
    · rw [hp, if_pos rfl, hself]
    · rw [if_neg (ne_of_apart (hblocks _ hnext hp)), hother _ hp]
      exact h _ hnext (hcurrent ▸ hp)

/-! ## The round trip -/

/-- **The round trip.** A call saves its caller, goes on with the other block and writes nothing
else; the call with `next = cur` returns at once. Whatever happens elsewhere, the next switch to the
block goes on behind the call, with every register as it was there. The block of a new task is
switched to in the same way, and the task starts at its function. -/
theorem context_switch_round_trip :
    (∀ s next cur, CanSwitch s next cur → Loadable s next cur →
      ∃ s', run s switchContext = some s' ∧ Switched s next cur s') ∧
    (∀ s next cur s' t other, CanSwitch s next cur → run s switchContext = some s' →
      Relation.ReflTransGen (Elsewhere cur) s' t → CanSwitch t cur other → cur ≠ other →
      ∃ t', run t switchContext = some t' ∧ liveContext t' = callerContext s) ∧
    (∀ m ctx start s t other, s.mem = initContext m ctx start →
      Relation.ReflTransGen (Elsewhere ctx) s t → CanSwitch t ctx other → ctx ≠ other →
      ∃ t', run t switchContext = some t' ∧ liveContext t' = start.context ∧
        t'.rip = start.f ∧ t'.reg .rdi = start.id ∧ t'.reg .rsi = start.data.toUInt64 ∧
        (t'.reg .rsp).toNat % 16 = 8) := by
  refine ⟨fun s next cur => run_switchContext, ?_, ?_⟩
  · intro s next cur s' t other h hrun hbefore hback hother
    obtain ⟨s₁, hrun₁, hswitched⟩ := run_switchContext h (h.loadable hrun)
    obtain rfl : s₁ = s' := Option.some.inj (hrun₁.symm.trans hrun)
    have hsaved := hswitched.saved
    have hvalid : FxsaveValid (readContext s₁.mem cur).fp := by
      rw [hsaved]
      exact s.fp.valid
    obtain ⟨t', hrun', hlive⟩ := resumes hbefore hback hother hvalid
    exact ⟨t', hrun', hlive.trans hsaved⟩
  · intro m ctx start s t other hinit hbefore hback hother
    have hcontext : readContext s.mem ctx = start.context := by
      rw [hinit]
      exact readContext_initContext
    have hvalid : FxsaveValid (readContext s.mem ctx).fp := by
      rw [hcontext]
      exact ⟨rfl, rfl⟩
    obtain ⟨t', hrun', hlive⟩ := resumes hbefore hback hother hvalid
    rw [hcontext] at hlive
    have hreg := congrArg Context.reg hlive
    have hrsp : t'.reg .rsp = start.context.reg .rsp := congrFun hreg .rsp
    refine ⟨t', hrun', hlive, congrArg Context.rip hlive, congrFun hreg .rdi, congrFun hreg .rsi, ?_⟩
    rw [hrsp]
    exact start.rsp_mod

/-! Two tasks with their blocks at `0x1000` and `0x2000`, the second one new. -/

/-- A call on a stack at `0x8000`. -/
def callState (next cur : UInt64) (m : ByteMemory) : State where
  reg
    | .rdi => next
    | .rsi => cur
    | .rsp => 0x8000
    | .rbx => 0x55
    | _ => 0
  seg
    | .cs => kKernelCS
    | .ss => kKernelSS
    | _ => 0
  rip := 0x4000
  rflags := 0x246
  cr3 := 0x9000
  fp := ⟨initialFp, ⟨rfl, rfl⟩⟩
  mem := m

/-- The second task. -/
def newTaskStart : TaskStart where
  f := 0x5000
  id := 2
  data := -1
  stackEnd := 0x7008
  cr3 := 0x9000

theorem rsp_callState : (0x8000 : UInt64) - 40 = 0x7fd8 := by decide

theorem canSwitch_callState {m : ByteMemory} (hnext : next = 0x1000 ∨ next = 0x2000)
    (hcur : cur = 0x1000 ∨ cur = 0x2000) : CanSwitch (callState next cur m) next cur where
  rdi := rfl
  rsi := rfl
  aligned_next := by rcases hnext with rfl | rfl <;> rfl
  aligned_cur := by rcases hcur with rfl | rfl <;> rfl
  stack_next := by
    have hscratch : scratch (callState next cur m) = ⟨0x7fd8, 40⟩ :=
      congrArg (Span.mk · 40) rsp_callState
    rw [hscratch]
    refine (Span.apart_of_toNat_le ?_ (by decide)).symm
    rcases hnext with rfl | rfl <;> decide
  stack_cur := by
    have hstack : stackTop (callState next cur m) = ⟨0x7fd8, 48⟩ :=
      congrArg (Span.mk · 48) rsp_callState
    rw [hstack]
    refine (Span.apart_of_toNat_le ?_ (by decide)).symm
    rcases hcur with rfl | rfl <;> decide
  blocks := by
    have hapart : (block 0x1000).Apart (block 0x2000) :=
      Span.apart_of_toNat_le (by decide) (by decide)
    rcases hnext with rfl | rfl <;> rcases hcur with rfl | rfl
    · exact Or.inl rfl
    · exact Or.inr hapart
    · exact Or.inr hapart.symm
    · exact Or.inl rfl

/-- The first task switches to the second one and back. -/
theorem context_switch_round_trip_twoTasks :
    let m := initContext (fun _ => 0) 0x2000 newTaskStart
    let s := callState 0x2000 0x1000 m
    ∃ s' t', run s switchContext = some s' ∧ Switched s 0x2000 0x1000 s' ∧
      s'.rip = 0x5000 ∧ s'.reg .rdi = 2 ∧ (s'.reg .rsp).toNat % 16 = 8 ∧
      run (callState 0x1000 0x2000 s'.mem) switchContext = some t' ∧
      liveContext t' = callerContext s := by
  intro m s
  have hcall : CanSwitch s 0x2000 0x1000 := canSwitch_callState (Or.inr rfl) (Or.inl rfl)
  have hload : Loadable s 0x2000 0x1000 := by
    right
    have hcontext : readContext s.mem 0x2000 = newTaskStart.context := readContext_initContext
    rw [hcontext]
    exact ⟨rfl, rfl⟩
  obtain ⟨hswitches, hreturns, hstarts⟩ := context_switch_round_trip
  obtain ⟨s', hrun, hswitched⟩ := hswitches s 0x2000 0x1000 hcall hload
  obtain ⟨t', hback, hlive⟩ := hreturns s 0x2000 0x1000 s' (callState 0x1000 0x2000 s'.mem) 0x2000
    hcall hrun (Relation.ReflTransGen.single (Elsewhere.code fun _ _ => rfl))
    (canSwitch_callState (Or.inl rfl) (Or.inr rfl)) (by decide)
  obtain ⟨s₁, hrun₁, -, hrip, hrdi, -, hrsp⟩ := hstarts (fun _ => 0) 0x2000 newTaskStart s s 0x1000
    rfl Relation.ReflTransGen.refl hcall (by decide)
  obtain rfl : s₁ = s' := Option.some.inj (hrun₁.symm.trans hrun)
  exact ⟨s₁, t', hrun, hswitched, hrip, hrdi, hrsp, hback, hlive⟩

end UhyokOS
