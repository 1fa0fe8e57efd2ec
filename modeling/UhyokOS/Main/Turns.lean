import UhyokOS.Main.Clock

/-!
# Whose turn it is

The main task is alone on the highest level, so that no switch takes the processor from it while it
is running: the other tasks run only between two rounds of its loop. What the main task has set up
before its loop is therefore there when the terminal starts, although `InitializeTask` makes and wakes
the task of the terminal before there is a mouse.
-/

set_option linter.unusedSectionVars false

namespace UhyokOS

open Transition

/-- The main task has come to its loop. -/
def MainStage.looping : MainStage → Bool
  | .addTaskTimer => false
  | .newTask => false
  | .wakeTask _ => false
  | .initializeKeyboard => false
  | .initializeMouse => false
  | _ => true

variable {Q : Type} {k k' : Kernel Q}

/-- The other tasks run only between two rounds of the main task's loop, and the layers have been made
in their order. -/
structure InTurn (k : Kernel Q) : Prop where
  main : k.mail.sys.cpu.executing ≠ 0 → k.main = .loop
  before : k.main.looping = false → k.latestLayerId = 4 ∧ k.terminal = none
  mouse : k.main.looping = true → k.terminal = none → k.latestLayerId = 5 ∧ k.mouseLayer = 5
  terminal : ∀ t, k.terminal = some t → k.latestLayerId = 6 ∧ k.mouseLayer = 5 ∧ t.layerId = 6

namespace InTurn

/-- A step that makes no layer. -/
theorem stay (h : InTurn k) (hmain : k'.mail.sys.cpu.executing ≠ 0 → k'.main = .loop)
    (hlooping : k'.main.looping = k.main.looping) (hlatest : k'.latestLayerId = k.latestLayerId)
    (hmouse : k'.mouseLayer = k.mouseLayer) (hnone : k'.terminal = none ↔ k.terminal = none)
    (hid : ∀ t', k'.terminal = some t' → ∃ t, k.terminal = some t ∧ t'.layerId = t.layerId) :
    InTurn k' where
  main := hmain
  before hk' := by
    rw [hlatest, hnone]
    exact h.before (hlooping ▸ hk')
  mouse hk' hclosed := by
    rw [hlatest, hmouse]
    exact h.mouse (hlooping ▸ hk') (hnone.mp hclosed)
  terminal t' ht' := by
    obtain ⟨t, ht, hlayer⟩ := hid t' ht'
    rw [hlatest, hmouse, hlayer]
    exact h.terminal t ht

/-- A step that leaves the terminal alone. -/
theorem stay_closed (h : InTurn k) (hmain : k'.mail.sys.cpu.executing ≠ 0 → k'.main = .loop)
    (hlooping : k'.main.looping = k.main.looping) (hlatest : k'.latestLayerId = k.latestLayerId)
    (hmouse : k'.mouseLayer = k.mouseLayer) (hterminal : k'.terminal = k.terminal) : InTurn k' :=
  h.stay hmain hlooping hlatest hmouse (by rw [hterminal]) fun t ht => ⟨t, hterminal ▸ ht, rfl⟩

variable [PriorityQueue Q Timer] {m : Machine} {op : KernelOp}

/-- A section of the main task, by cases on the point that it has reached. Only `initializeMouse`
makes a layer, and only a section that ends at the head of the loop can put the main task to
sleep. -/
theorem mainStep (h : InTurn k) (hexec : k.mail.sys.cpu.executing = 0) (hstep : MainStep k k') :
    InTurn k' := by
  cases hstep with
  | newTask hmain mail hinv hmanager hcpu hsent hreceived =>
      refine h.stay_closed (fun hne => absurd ?_ hne) (by rw [hmain]; rfl) rfl rfl rfl
      exact (congrArg Cpu.executing hcpu).trans hexec
  | wakeTask hmain mail hcpu hhands hwakes =>
      refine h.stay_closed (fun hne => absurd ?_ hne) (by rw [hmain]; rfl) rfl rfl rfl
      exact (congrArg Cpu.executing hcpu).trans hexec
  | initializeMouse hmain =>
      obtain ⟨hlatest, hclosed⟩ := h.before (by rw [hmain]; rfl)
      refine ⟨fun _ => rfl, nofun, fun _ _ => ⟨?_, ?_⟩, fun t ht => ?_⟩
      · show k.latestLayerId + 1 = 5
        rw [hlatest]
      · show k.latestLayerId + 1 = 5
        rw [hlatest]
      · exact absurd (hclosed.symm.trans ht) (Option.some_ne_none t).symm
  | take hmain msg msgs mail hpending htakes =>
      refine h.stay_closed (fun hne => absurd ?_ hne) (by rw [hmain]; rfl) rfl rfl rfl
      exact (congrArg Cpu.executing htakes.cpu).trans hexec
  | rest hmain mail hpending hrests =>
      exact h.stay_closed (fun _ => rfl) (by rw [hmain]; rfl) rfl rfl rfl
  | notify i push pushes driver hmain mail hcpu hhands hwakes =>
      refine h.stay_closed (fun hne => absurd ?_ hne) (by rw [hmain]; rfl) rfl rfl rfl
      exact (congrArg Cpu.executing hcpu).trans hexec
  | send msg hmain mail hcpu hhands hwakes =>
      exact h.stay_closed (fun _ => rfl) (by rw [hmain]; rfl) rfl rfl rfl
  | _ =>
      exact h.stay_closed (fun hne => absurd hexec hne) (by rw [‹k.main = _›]; rfl) rfl rfl rfl

/-- A section of the terminal's task. It runs only while the main task is at the head of its loop,
so that the first one finds the layer of the mouse made and takes the next id. -/
theorem terminalStep (h : InTurn k) (hexec : k.mail.sys.cpu.executing = 2)
    (hstep : TerminalStep m k k') : InTurn k' := by
  have hmain : k.main = .loop := h.main (by rw [hexec]; exact Nat.succ_ne_zero 1)
  cases hstep with
  | start hterminal =>
      obtain ⟨hlatest, hmouse⟩ := h.mouse (by rw [hmain]; rfl) hterminal
      have hmade : k.latestLayerId + 1 = 6 := by rw [hlatest]
      refine ⟨fun _ => hmain, fun hk' => ?_, nofun, fun t ht => ?_⟩
      · exact absurd ((congrArg MainStage.looping hmain).symm.trans hk') (Bool.false_ne_true ·.symm)
      · cases ht
        exact ⟨hmade, hmouse, hmade⟩
  | rest t hterminal mail hpending hrests => exact h.stay_closed (fun _ => hmain) rfl rfl rfl rfl
  | ignore t hterminal msg msgs hpending t' hhandle mail htakes =>
      refine h.stay (fun _ => hmain) rfl rfl rfl ?_ fun t₁ ht₁ => ⟨t, hterminal, ?_⟩
      · rw [hterminal]
        exact iff_of_false (Option.some_ne_none _) (Option.some_ne_none _)
      · cases ht₁
        rfl
  | answer t hterminal msg msgs hpending t' area hhandle taken mail htakes hcpu hhands hwakes =>
      refine h.stay (fun _ => hmain) rfl rfl rfl ?_ fun t₁ ht₁ => ⟨t, hterminal, ?_⟩
      · rw [hterminal]
        exact iff_of_false (Option.some_ne_none _) (Option.some_ne_none _)
      · cases ht₁
        rfl

/-- **One step** of the kernel keeps the order of the layers and the turns. An interrupt of the
timer switches tasks only if the main task, which is alone on its level, sleeps; a message wakes it,
and then it is preferred. -/
theorem step (h : InTurn k) (hroles : Roles k) (hstep : KernelStep m k op k') : InTurn k' := by
  have hroles' := hroles.step hstep
  cases hstep with
  | interruptXHCI hirq mail hcpu hhands hwakes =>
      exact h.stay_closed (fun hne => h.main fun hexec => hne ((congrArg Cpu.executing hcpu).trans hexec))
        rfl rfl rfl rfl
  | interruptTimer hrange k' reported result htimer =>
      have hkernel := htimer.kernel
      refine h.stay_closed (fun hne => ?_) (by rw [hkernel]) (by rw [hkernel]) (by rw [hkernel])
        (by rw [hkernel])
      have hmain : k'.main = k.main := by rw [hkernel]
      rw [hmain]
      refine h.main fun hexec => hne ?_
      cases hflag : result.taskTimerTimeout with
      | false =>
          rw [htimer.same hflag]
          exact hexec
      | true =>
          -- the main task goes on, for there is no other on its level
          have hrun := Mail.isRunning_executing hroles.mail
          rw [hexec] at hrun
          exact hroles'.executing_main (htimer.hands.running 0 hrun) (htimer.highest hflag)
  | main hexec k' hmain => exact h.mainStep hexec hmain
  | terminal hexec hlate k' hterminal => exact h.terminalStep hexec hterminal
  | _ => exact h.stay_closed h.main rfl rfl rfl rfl

/-- At the start the main task executes, and there is neither a mouse nor a terminal. -/
theorem init (tick : Nat) : InTurn (.init tick : Kernel Q) :=
  ⟨fun hne => absurd rfl hne, fun _ => ⟨rfl, rfl⟩, nofun, nofun⟩

end InTurn

namespace Kernel.Reachable

variable [PriorityQueue Q Timer] {m : Machine} {tick : Nat}

/-- In every reachable state the turns and the ids of the layers are as they should be, by induction
on the run. -/
theorem inTurn (htick : tick < kTimer05Sec) (hr : k.Reachable m tick) : InTurn k :=
  hr.invariant _ htick (.init tick) fun _ _ _ hroles _ h hstep => h.step hroles hstep

/-- **The main task runs through.** Another task executes only while the main task is at the head of its
loop, so that nothing comes between the sections of a round but interrupts. When the terminal has
started, the mouse has its layer, the terminal has the one above, and keys for that layer go to the
terminal's task. -/
theorem main_runs_through (htick : tick < kTimer05Sec) (hr : k.Reachable m tick) :
    (k.mail.sys.cpu.executing ≠ 0 → k.main = .loop) ∧
    ∀ t, k.terminal = some t → k.mouseLayer = 5 ∧ t.layerId = 6 ∧ k.latestLayerId = 6 ∧
      k.layerTaskMap = [(6, 3)] := by
  have h := hr.inTurn htick
  refine ⟨h.main, fun t ht => ?_⟩
  obtain ⟨hlatest, hmouse, hid⟩ := h.terminal t ht
  refine ⟨hmouse, hid, hlatest, ?_⟩
  rw [(hr.roles htick).1.tasks, ht, ← hid]
  rfl

/-- The kernel after a key was typed: the mouse has layer 5 and the terminal layer 6, with the id of
its task in `layer_task_map`. -/
theorem main_runs_through_typed : (typed.mail.sys.cpu.executing ≠ 0 → typed.main = .loop) ∧
    ∀ t, typed.terminal = some t → typed.mouseLayer = 5 ∧ t.layerId = 6 ∧
      typed.latestLayerId = 6 ∧ typed.layerTaskMap = [(6, 3)] :=
  typed_reachable.main_runs_through (by decide)

end Kernel.Reachable

end UhyokOS
