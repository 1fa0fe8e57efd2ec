import Mathlib.Data.Option.Basic
import Mathlib.Data.List.Infix
import Mathlib.Tactic.Common

/-!
# Partial transition systems

A machine is a partial step function `step : σ → ι → Option σ`: an operation on a state either
yields the next state or is undefined (`none`). A side condition `ok : σ → ι → Prop` says which
operations the environment may issue in which state.

* `run step s ops` runs a whole list of operations, `Admits step ok s ops` says that every
  operation of the list is permitted when it is issued.
* `Reachable step ok s₀ s` is reachability by permitted operations.
* `Preserves step ok Inv` is the one proof obligation an invariant has: from a state in `Inv` a
  permitted operation is *defined* and stays in `Inv`. Both run rules (`Reachable.invariant`,
  `run_of_preserves`) follow from it, and so does the definedness of the next operation
  (`Reachable.defined`).
* `run_of_simulates` is the rule for a machine that represents an abstract one.
* `run_of_prefixes` and `run_history` are the rules for invariants that speak of the operations done
  so far. `Since` is one: an operation that starts something, and only operations since then that keep
  it going.
* `Keeps step ok Inv` is the weaker obligation for operations that may be undefined, with its rule
  `Reachable.invariant_of_keeps`.
* `forall_prefix_iff_admits` is the exact form used when a system misbehaves on some inputs: if
  the side condition is necessary at every good state, a run is good throughout iff it admits
  (`forall_defined_prefix_iff_admits` where operations may be undefined;
  `forall_prefix_defined_iff_admits` among the runs that a second side condition permits).
-/

namespace Transition

variable {σ ι : Type*} {step : σ → ι → Option σ} {ok : σ → ι → Prop}

/-- Run a list of operations; `none` as soon as one operation is undefined. -/
def run (step : σ → ι → Option σ) : σ → List ι → Option σ
  | s, [] => some s
  | s, op :: ops => (step s op).bind fun s' => run step s' ops

/-- Every operation of the list is permitted in the state it is issued in. -/
def Admits (step : σ → ι → Option σ) (ok : σ → ι → Prop) : σ → List ι → Prop
  | _, [] => True
  | s, op :: ops => ok s op ∧ ∀ s', step s op = some s' → Admits step ok s' ops

instance Admits.decidable [∀ s op, Decidable (ok s op)] :
    (s : σ) → (ops : List ι) → Decidable (Admits step ok s ops)
  | _, [] => isTrue trivial
  | s, op :: ops =>
      match hs : step s op with
      | none =>
          decidable_of_iff (ok s op) ⟨fun h => ⟨h, fun _ hs' => by simp [hs] at hs'⟩, And.left⟩
      | some s' =>
          have := Admits.decidable s' ops
          decidable_of_iff (ok s op ∧ Admits step ok s' ops)
            ⟨fun h => ⟨h.1, fun s'' hs' => by
              rw [hs] at hs'
              cases hs'
              exact h.2⟩, fun h => ⟨h.1, h.2 s' hs⟩⟩

/-- The states reached from `s₀` by permitted operations. -/
inductive Reachable (step : σ → ι → Option σ) (ok : σ → ι → Prop) (s₀ : σ) : σ → Prop
  | init : Reachable step ok s₀ s₀
  | step {s s' : σ} {op : ι} : Reachable step ok s₀ s → ok s op → step s op = some s' →
      Reachable step ok s₀ s'

/-- From a state in `Inv`, a permitted operation is defined and its result is in `Inv`. -/
def Preserves (step : σ → ι → Option σ) (ok : σ → ι → Prop) (Inv : σ → Prop) : Prop :=
  ∀ s op, Inv s → ok s op → ∃ s', step s op = some s' ∧ Inv s'

/-- A permitted operation that is defined stays in `Inv`. -/
def Keeps (step : σ → ι → Option σ) (ok : σ → ι → Prop) (Inv : σ → Prop) : Prop :=
  ∀ s op s', Inv s → ok s op → step s op = some s' → Inv s'

@[simp] theorem run_nil (s : σ) : run step s [] = some s := rfl

theorem run_cons (s : σ) (op : ι) (ops : List ι) :
    run step s (op :: ops) = (step s op).bind fun s' => run step s' ops := rfl

theorem Preserves.keeps {Inv : σ → Prop} (h : Preserves step ok Inv) : Keeps step ok Inv := by
  intro s op s' hinv hok hs
  obtain ⟨s'', hs'', hinv'⟩ := h s op hinv hok
  rw [hs] at hs''
  cases hs''
  exact hinv'

/-- The invariant rule of a system whose operations may be undefined. -/
theorem Reachable.invariant_of_keeps {Inv : σ → Prop} {s₀ s : σ} (h₀ : Inv s₀)
    (hstep : Keeps step ok Inv) (hr : Reachable step ok s₀ s) : Inv s := by
  induction hr with
  | init => exact h₀
  | step _ hok hs ih => exact hstep _ _ _ ih hok hs

/-- **The invariant rule.** -/
theorem Reachable.invariant {Inv : σ → Prop} {s₀ s : σ} (h₀ : Inv s₀)
    (hstep : Preserves step ok Inv) (hr : Reachable step ok s₀ s) : Inv s :=
  hr.invariant_of_keeps h₀ hstep.keeps

/-- A permitted operation is defined in every reachable state. -/
theorem Reachable.defined {Inv : σ → Prop} {s₀ s : σ} {op : ι} (h₀ : Inv s₀)
    (hstep : Preserves step ok Inv) (hr : Reachable step ok s₀ s) (hok : ok s op) :
    ∃ s', step s op = some s' ∧ Reachable step ok s₀ s' := by
  obtain ⟨s', hs', _⟩ := hstep s op (hr.invariant h₀ hstep) hok
  exact ⟨s', hs', hr.step hok hs'⟩

/-- Runs that admit are defined and end in the invariant. -/
theorem run_of_preserves {Inv : σ → Prop} (hstep : Preserves step ok Inv) {s : σ} (h : Inv s)
    {ops : List ι} (hadm : Admits step ok s ops) : ∃ s', run step s ops = some s' ∧ Inv s' := by
  induction ops generalizing s with
  | nil => exact ⟨s, rfl, h⟩
  | cons op ops ih =>
      obtain ⟨s₁, hs₁, hinv⟩ := hstep s op h hadm.1
      rw [run_cons, hs₁]
      exact ih hinv (hadm.2 s₁ hs₁)

/-- **The simulation rule.** If every operation is defined in a state that represents an abstract
one, and its result represents the result of the abstract operation, then so it is with runs. -/
theorem run_of_simulates {τ : Type*} {R : σ → τ → Prop} {f : τ → ι → τ}
    (hstep : ∀ s a op, R s a → ∃ s', step s op = some s' ∧ R s' (f a op)) {s : σ} {a : τ}
    (h : R s a) (ops : List ι) : ∃ s', run step s ops = some s' ∧ R s' (ops.foldl f a) := by
  induction ops generalizing s a with
  | nil => exact ⟨s, rfl, h⟩
  | cons op ops ih =>
      obtain ⟨s₁, hs₁, h₁⟩ := hstep s a op h
      rw [run_cons, hs₁]
      exact ih h₁

/-- A run that admits and is defined stays in what its steps keep. -/
theorem run_of_keeps {Inv : σ → Prop} (hstep : Keeps step ok Inv) {s s' : σ} (h : Inv s)
    {ops : List ι} (hadm : Admits step ok s ops) (hrun : run step s ops = some s') : Inv s' := by
  induction ops generalizing s with
  | nil =>
      cases hrun
      exact h
  | cons op ops ih =>
      obtain ⟨s₁, hs₁, hrest⟩ := Option.bind_eq_some_iff.mp hrun
      exact ih (hstep s op s₁ h hadm.1 hs₁) (hadm.2 s₁ hs₁) hrest

/-- A run is a monadic fold. -/
theorem run_eq_foldlM (s : σ) (ops : List ι) : run step s ops = ops.foldlM step s := by
  induction ops generalizing s with
  | nil => rfl
  | cons op ops ih =>
      rw [run_cons, List.foldlM_cons]
      exact congrArg _ (funext ih)

/-- **The history rule.** An invariant of the operations done so far, kept by every step of the
list, holds at its end. -/
theorem run_of_prefixes {P : List ι → σ → Prop} {s₀ : σ} (h₀ : P [] s₀) (ops : List ι)
    (hstep : ∀ pre op post s, pre ++ op :: post = ops → P pre s →
      ∃ s', step s op = some s' ∧ P (pre ++ [op]) s') :
    ∃ s', run step s₀ ops = some s' ∧ P ops s' := by
  have hall : ∀ post pre s, pre ++ post = ops → P pre s →
      ∃ s', run step s post = some s' ∧ P ops s' := by
    intro post
    induction post with
    | nil =>
        intro pre s hpre h
        rw [List.append_nil] at hpre
        exact ⟨s, rfl, hpre ▸ h⟩
    | cons op post ih =>
        intro pre s hpre h
        obtain ⟨s₁, hs₁, h₁⟩ := hstep pre op post s hpre h
        rw [run_cons, hs₁]
        exact ih (pre ++ [op]) s₁ (by simpa using hpre) h₁
  exact hall ops [] s₀ rfl h₀

/-- The history rule of a run that is defined. -/
theorem run_history {P : List ι → σ → Prop} {s₀ s : σ} (h₀ : P [] s₀) {ops : List ι}
    (hstep : ∀ pre op post s s', pre ++ op :: post = ops → P pre s → step s op = some s' →
      P (pre ++ [op]) s') (hrun : run step s₀ ops = some s) : P ops s := by
  have hall : ∀ post pre s', pre ++ post = ops → P pre s' → run step s' post = some s → P ops s := by
    intro post
    induction post with
    | nil =>
        intro pre s' hpre h hrun'
        cases hrun'
        rw [List.append_nil] at hpre
        exact hpre ▸ h
    | cons op post ih =>
        intro pre s' hpre h hrun'
        obtain ⟨s₁, hs₁, hrest⟩ := Option.bind_eq_some_iff.mp hrun'
        exact ih (pre ++ [op]) s₁ (by simpa using hpre) (hstep pre op post s' s₁ hpre h hs₁) hrest
  exact hall ops [] s₀ rfl h₀ hrun

/-- The last step of a run. -/
theorem run_concat {s₀ s s' : σ} {ops : List ι} {op : ι} (hrun : run step s₀ ops = some s)
    (hstep : step s op = some s') : run step s₀ (ops ++ [op]) = some s' := by
  rw [run_eq_foldlM] at hrun ⊢
  rw [List.foldlM_append, hrun]
  show List.foldlM step s [op] = some s'
  rw [List.foldlM_cons, hstep]
  rfl

/-- The history rule of a run that is defined and admits. -/
theorem run_history_of_admits {P : List ι → σ → Prop} {s₀ s : σ} (h₀ : P [] s₀) {ops : List ι}
    (hstep : ∀ pre op s s', run step s₀ pre = some s → P pre s → ok s op → step s op = some s' →
      P (pre ++ [op]) s') (hadm : Admits step ok s₀ ops) (hrun : run step s₀ ops = some s) :
    P ops s := by
  have hall : ∀ post pre s', run step s₀ pre = some s' → P pre s' → Admits step ok s' post →
      run step s' post = some s → P (pre ++ post) s := by
    intro post
    induction post with
    | nil =>
        intro pre s' _ h _ hrun'
        cases hrun'
        rwa [List.append_nil]
    | cons op post ih =>
        intro pre s' hpre h hadm' hrun'
        obtain ⟨s₁, hs₁, hrest⟩ := Option.bind_eq_some_iff.mp hrun'
        have h₁ := ih (pre ++ [op]) s₁ (run_concat hpre hs₁) (hstep pre op s' s₁ hpre h hadm'.1 hs₁)
          (hadm'.2 s₁ hs₁) hrest
        rwa [List.append_assoc] at h₁
  exact hall ops [] s₀ rfl h₀ hadm hrun

/-- One of the operations started something, in a step that is described by `starts` and led to a state
in `R`, and all operations since then keep it going. -/
def Since (step : σ → ι → Option σ) (s₀ : σ) (starts : σ → ι → σ → Prop) (lasts : ι → Prop)
    (ops : List ι) (R : σ → Prop) : Prop :=
  ∃ pre op post s s', ops = pre ++ op :: post ∧ run step s₀ pre = some s ∧ step s op = some s' ∧
    starts s op s' ∧ (∀ op' ∈ post, lasts op') ∧ R s'

section Since

variable {starts : σ → ι → σ → Prop} {lasts : ι → Prop} {R R' : σ → Prop} {s₀ s s' : σ}
  {ops : List ι} {op : ι}

/-- It is started now. -/
theorem Since.now (hrun : run step s₀ ops = some s) (hstep : step s op = some s')
    (hstarts : starts s op s') (hR : R s') : Since step s₀ starts lasts (ops ++ [op]) R :=
  ⟨ops, op, [], s, s', rfl, hrun, hstep, hstarts, fun _ hop => absurd hop List.not_mem_nil, hR⟩

/-- It is kept going. -/
theorem Since.snoc (h : Since step s₀ starts lasts ops R) (hlasts : lasts op)
    (hR : ∀ s, R s → R' s) : Since step s₀ starts lasts (ops ++ [op]) R' := by
  obtain ⟨pre, op₁, post, s, s', rfl, hrun, hstep, hstarts, hpost, hs'⟩ := h
  refine ⟨pre, op₁, post ++ [op], s, s', by simp, hrun, hstep, hstarts, fun op' hop' => ?_, hR s' hs'⟩
  rcases List.mem_append.mp hop' with hop' | hop'
  · exact hpost op' hop'
  · rw [List.mem_singleton.mp hop']
    exact hlasts

end Since

/-- Run a list of operations, checking each side condition on the way. -/
def runPermitted (step : σ → ι → Option σ) (ok : σ → ι → Prop) [∀ s op, Decidable (ok s op)] :
    σ → List ι → Option σ
  | s, [] => some s
  | s, op :: ops =>
      if ok s op then (step s op).bind fun s' => runPermitted step ok s' ops else none

/-- A checked run ends in a reachable state. -/
theorem Reachable.of_runPermitted [∀ s op, Decidable (ok s op)] {s₀ s s' : σ} {ops : List ι}
    (hr : Reachable step ok s₀ s) (hrun : runPermitted step ok s ops = some s') :
    Reachable step ok s₀ s' := by
  induction ops generalizing s with
  | nil =>
      cases hrun
      exact hr
  | cons op ops ih =>
      rw [runPermitted] at hrun
      split_ifs at hrun with hok
      obtain ⟨s₁, hs₁, hrest⟩ := Option.bind_eq_some_iff.mp hrun
      exact ih (hr.step hok hs₁) hrest

/-- A run that admits ends in a reachable state. -/
theorem Reachable.of_admits {s₀ s s' : σ} {ops : List ι} (hr : Reachable step ok s₀ s)
    (h : Admits step ok s ops) (hrun : run step s ops = some s') : Reachable step ok s₀ s' := by
  induction ops generalizing s with
  | nil =>
      cases hrun
      exact hr
  | cons op ops ih =>
      obtain ⟨s₁, hs₁, hrest⟩ := Option.bind_eq_some_iff.mp hrun
      exact ih (hr.step h.1 hs₁) (h.2 s₁ hs₁) hrest

/-- A weaker side condition admits more. -/
theorem Admits.mono {ok' : σ → ι → Prop} {s : σ} {ops : List ι} (h : Admits step ok s ops)
    (hok : ∀ s op, ok s op → ok' s op) : Admits step ok' s ops := by
  induction ops generalizing s with
  | nil => trivial
  | cons op ops ih => exact ⟨hok s op h.1, fun s' hs' => ih (h.2 s' hs')⟩

theorem admits_append {s : σ} {ops ops' : List ι} (h : Admits step ok s (ops ++ ops')) :
    Admits step ok s ops := by
  induction ops generalizing s with
  | nil => trivial
  | cons op ops ih => exact ⟨h.1, fun s' hs' => ih (h.2 s' hs')⟩

/-- A run that is defined admits what holds of every step that is defined. -/
theorem admits_of_run (hnec : ∀ s op s', step s op = some s' → ok s op) {s s' : σ} {ops : List ι}
    (hrun : run step s ops = some s') : Admits step ok s ops := by
  induction ops generalizing s with
  | nil => trivial
  | cons op ops ih =>
      rw [run_cons] at hrun
      obtain ⟨s₁, hs₁, hrun⟩ := Option.bind_eq_some_iff.mp hrun
      refine ⟨hnec s op s₁ hs₁, fun s₂ hs₂ => ?_⟩
      rw [hs₁] at hs₂
      cases hs₂
      exact ih hrun

/-- Every prefix of a run that admits admits. -/
theorem Admits.of_prefix {s : σ} {ops pre : List ι} (h : Admits step ok s ops)
    (hpre : pre <+: ops) : Admits step ok s pre := by
  obtain ⟨post, rfl⟩ := hpre
  exact admits_append h

/-- The common part of the exactness rules below: among runs that are defined and permitted, let a
step from a good state in `Inv` lead to a good state iff `ok` holds of it, and then to one in
`Inv`. -/
theorem forall_good_iff_admits {perm : σ → ι → Prop} {Inv Good : σ → Prop}
    (hiff : ∀ s op s', Inv s → perm s op → step s op = some s' → (Good s' ↔ ok s op))
    (hinv : ∀ s op s', Inv s → perm s op → step s op = some s' → Good s' → Inv s') {s : σ}
    (h : Inv s) (hgood : Good s) {ops : List ι} (hperm : Admits step perm s ops)
    (hdefined : (run step s ops).isSome = true) :
    (∀ pre, pre <+: ops → ∀ s', run step s pre = some s' → Good s') ↔ Admits step ok s ops := by
  induction ops generalizing s with
  | nil =>
      refine iff_of_true (fun pre hpre s' hrun => ?_) trivial
      rw [List.prefix_nil.mp hpre] at hrun
      cases hrun
      exact hgood
  | cons op ops ih =>
      obtain ⟨s₁, hs₁⟩ : ∃ s₁, step s op = some s₁ := by
        rw [run_cons] at hdefined
        cases hs : step s op with
        | none =>
            rw [hs] at hdefined
            cases hdefined
        | some s₁ => exact ⟨s₁, rfl⟩
      have hrun : ∀ pre, run step s (op :: pre) = run step s₁ pre := by
        intro pre
        rw [run_cons, hs₁, Option.bind_some]
      rw [hrun] at hdefined
      have hfirst := hiff s op s₁ h hperm.1 hs₁
      have hrest : Good s₁ → ((∀ pre, pre <+: ops → ∀ s', run step s₁ pre = some s' → Good s') ↔
          Admits step ok s₁ ops) := fun hgood₁ =>
        ih (hinv s op s₁ h hperm.1 hs₁ hgood₁) hgood₁ (hperm.2 s₁ hs₁) hdefined
      constructor
      · intro hall
        have hgood₁ : Good s₁ := hall [op] ⟨ops, rfl⟩ s₁ (hrun [])
        refine ⟨hfirst.mp hgood₁, fun s' hs' => ?_⟩
        rw [hs₁] at hs'
        cases hs'
        refine (hrest hgood₁).mp fun pre hpre s' hrun' => ?_
        exact hall (op :: pre) (List.cons_prefix_cons.mpr ⟨rfl, hpre⟩) s' ((hrun pre).trans hrun')
      · intro hadm pre hpre s' hrun'
        cases pre with
        | nil =>
            cases hrun'
            exact hgood
        | cons op' pre =>
            obtain ⟨rfl, hpre'⟩ := List.cons_prefix_cons.mp hpre
            rw [hrun] at hrun'
            exact (hrest (hfirst.mpr hadm.1)).mpr (hadm.2 s₁ hs₁) pre hpre' s' hrun'

theorem admits_true (s : σ) (ops : List ι) : Admits step (fun _ _ => True) s ops := by
  induction ops generalizing s with
  | nil => trivial
  | cons op ops ih => exact ⟨trivial, fun s' _ => ih s'⟩

/-- **Exactness of a side condition, on runs that are defined.** Let every state reached by a
permitted run be in `Inv` and let `Inv` imply `Good`. If, from a state in `Inv`, a step to a good
state is possible only by a permitted operation, then a run stays good after each of its prefixes iff
it admits. -/
theorem forall_defined_prefix_iff_admits {Inv Good : σ → Prop} (hstep : Keeps step ok Inv)
    (hgood : ∀ s, Inv s → Good s)
    (hnec : ∀ s op s', Inv s → step s op = some s' → Good s' → ok s op) {s : σ} (h : Inv s)
    {ops : List ι} (hdefined : (run step s ops).isSome = true) :
    (∀ pre, pre <+: ops → ∀ s', run step s pre = some s' → Good s') ↔ Admits step ok s ops := by
  refine forall_good_iff_admits (fun s op s' hs _ hstep' => ⟨hnec s op s' hs hstep', fun hok => ?_⟩)
    (fun s op s' hs _ hstep' hgood' => ?_) h (hgood s h) (admits_true s ops) hdefined
  · exact hgood s' (hstep s op s' hs hok hstep')
  · exact hstep s op s' hs (hnec s op s' hs hstep' hgood') hstep'

/-- **Exactness of a side condition**, when a permitted operation is always defined. -/
theorem forall_prefix_iff_admits {Inv Good : σ → Prop} (hstep : Preserves step ok Inv)
    (hgood : ∀ s, Inv s → Good s)
    (hnec : ∀ s op s', Inv s → step s op = some s' → Good s' → ok s op) {s : σ} (h : Inv s)
    (ops : List ι) :
    (∀ pre, pre <+: ops → ∃ s', run step s pre = some s' ∧ Good s') ↔ Admits step ok s ops := by
  constructor
  · intro hall
    obtain ⟨s', hs', -⟩ := hall ops List.prefix_rfl
    refine (forall_defined_prefix_iff_admits hstep.keeps hgood hnec h ?_).mp
      fun pre hpre s'' hrun => ?_
    · rw [hs']
      rfl
    · obtain ⟨s₁, hrun₁, hg⟩ := hall pre hpre
      rw [hrun₁] at hrun
      cases hrun
      exact hg
  · intro hadm pre hpre
    obtain ⟨s', hrun, hinv⟩ := run_of_preserves hstep h (hadm.of_prefix hpre)
    exact ⟨s', hrun, hgood s' hinv⟩

/-- Both side conditions of a run at once. -/
theorem Admits.and {perm : σ → ι → Prop} {s : σ} {ops : List ι} (h : Admits step perm s ops)
    (h' : Admits step ok s ops) : Admits step (fun s op => perm s op ∧ ok s op) s ops := by
  induction ops generalizing s with
  | nil => trivial
  | cons op ops ih => exact ⟨⟨h.1, h'.1⟩, fun s' hs' => ih (h.2 s' hs') (h'.2 s' hs')⟩

/-- **Exactness of a side condition**, when a permitted operation may be undefined. Among permitted
runs, let a step from a good state be defined and lead to a good state iff `ok` holds of it. Then a
run is defined and good throughout iff it admits `ok`. -/
theorem forall_prefix_defined_iff_admits {perm : σ → ι → Prop} {Good : σ → Prop}
    (hiff : ∀ s op, Good s → perm s op → ((∃ s', step s op = some s' ∧ Good s') ↔ ok s op)) {s : σ}
    (hgood : Good s) {ops : List ι} (hperm : Admits step perm s ops) :
    (∀ pre, pre <+: ops → ∃ s', run step s pre = some s' ∧ Good s') ↔ Admits step ok s ops := by
  constructor
  · intro hall
    obtain ⟨s', hrun, -⟩ := hall ops List.prefix_rfl
    have hstep : ∀ s op s', Good s → perm s op → step s op = some s' → (Good s' ↔ ok s op) := by
      intro s op s' hs hop hs'
      refine Iff.trans ?_ (hiff s op hs hop)
      constructor
      · intro hgood'
        exact ⟨s', hs', hgood'⟩
      · rintro ⟨s'', hs'', hgood'⟩
        rw [hs'] at hs''
        cases hs''
        exact hgood'
    refine (forall_good_iff_admits hstep (fun _ _ _ _ _ _ h => h) hgood hgood hperm
      (hrun ▸ rfl)).mp ?_
    intro pre hpre s'' hrun'
    obtain ⟨s₁, hrun₁, hgood₁⟩ := hall pre hpre
    rw [hrun₁] at hrun'
    cases hrun'
    exact hgood₁
  · intro hadm pre hpre
    have hstep : Preserves step (fun s op => perm s op ∧ ok s op) Good := by
      intro s op hs hop
      exact (hiff s op hs hop.1).mpr hop.2
    have hboth := hperm.and hadm
    exact run_of_preserves hstep hgood (hboth.of_prefix hpre)

end Transition
