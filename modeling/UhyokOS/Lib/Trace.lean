import UhyokOS.Lib.Transition
import Mathlib.Data.List.Chain
import Mathlib.Data.List.Destutter

/-!
# Traces

The values that a part of the state takes in a run of a partial transition system, repetitions left
out. If every operation leaves the value alone or replaces it by a next one, the trace is a chain of
next values (`isChain_trace`), and where the next value is determined, it is an initial part of the
values that are left (`prefix_of_isChain`).
-/

namespace Transition

variable {σ ι α : Type*}

/-- The states of a run, as far as its operations are defined. -/
def visited (step : σ → ι → Option σ) : σ → List ι → List σ
  | s, [] => [s]
  | s, op :: ops =>
      match step s op with
      | none => [s]
      | some s' => s :: visited step s' ops

/-- The values of a part of the state, without repetitions. -/
def trace [DecidableEq α] (step : σ → ι → Option σ) (part : σ → α) (s : σ) (ops : List ι) :
    List α :=
  ((visited step s ops).map part).destutter (· ≠ ·)

theorem visited_eq_cons (step : σ → ι → Option σ) (s : σ) (ops : List ι) :
    ∃ states, visited step s ops = s :: states := by
  cases ops with
  | nil => exact ⟨[], rfl⟩
  | cons op ops =>
      unfold visited
      cases step s op with
      | none => exact ⟨[], rfl⟩
      | some s' => exact ⟨visited step s' ops, rfl⟩

variable {step : σ → ι → Option σ}

/-- Two states in a row are before and after an operation, by induction on the operations. -/
theorem isChain_visited {R : σ → σ → Prop} (hstep : ∀ s op s', step s op = some s' → R s s')
    (s : σ) (ops : List ι) : (visited step s ops).IsChain R := by
  induction ops generalizing s with
  | nil => exact List.isChain_singleton s
  | cons op ops ih =>
      unfold visited
      cases hs : step s op with
      | none => exact List.isChain_singleton s
      | some s' =>
          obtain ⟨states, heq⟩ := visited_eq_cons step s' ops
          have hrest := ih s'
          simp only
          rw [heq] at hrest ⊢
          exact List.isChain_cons_cons.mpr ⟨hstep s op s' hs, hrest⟩

variable {next : α → α → Prop}

/-- **Determined next values.** If each value of `Good` has at most one next value, and `later` lists
what is left from it on, a chain is an initial part of this; by induction on the chain. -/
theorem prefix_of_isChain {Good : α → Prop} {later : α → List α}
    (hself : ∀ a, Good a → [a] <+: later a)
    (hlater : ∀ a b, Good a → next a b → Good b ∧ later a = a :: later b) {a : α} {rest : List α}
    (ha : Good a) (hchain : (a :: rest).IsChain next) : a :: rest <+: later a := by
  induction rest generalizing a with
  | nil => exact hself a ha
  | cons b rest ih =>
      obtain ⟨hnext, hrest⟩ := List.isChain_cons_cons.mp hchain
      obtain ⟨hb, heq⟩ := hlater a b ha hnext
      rw [heq]
      exact List.cons_prefix_cons.mpr ⟨rfl, ih hb hrest⟩

section Values

variable [DecidableEq α]

theorem destutter'_eq_cons (a : α) (values : List α) :
    ∃ rest, values.destutter' (· ≠ ·) a = a :: rest := by
  induction values with
  | nil => exact ⟨[], rfl⟩
  | cons b values ih =>
      rw [List.destutter'_cons]
      split_ifs
      · exact ⟨_, rfl⟩
      · exact ih

/-- Without repetitions only the changes are left, by induction on the list. -/
theorem isChain_destutter_of_stutter {a : α} {values : List α}
    (h : (a :: values).IsChain fun a b => b = a ∨ next a b) :
    ((a :: values).destutter (· ≠ ·)).IsChain next := by
  induction values generalizing a with
  | nil => exact List.isChain_singleton a
  | cons b values ih =>
      obtain ⟨hfirst, hrest⟩ := List.isChain_cons_cons.mp h
      rw [List.destutter_cons_cons]
      split_ifs with hne
      · have hnext : next a b := hfirst.resolve_left fun heq => hne heq.symm
        obtain ⟨rest, hcons⟩ := destutter'_eq_cons b values
        have hrest' : (values.destutter' (· ≠ ·) b).IsChain next := ih hrest
        rw [hcons] at hrest' ⊢
        exact List.isChain_cons_cons.mpr ⟨hnext, hrest'⟩
      · have heq : a = b := not_not.mp hne
        subst heq
        exact ih hrest

/-- **The trace of a run.** Every operation leaves the value alone or replaces it by a next one. -/
theorem isChain_trace (part : σ → α)
    (hstep : ∀ s op s', step s op = some s' → part s' = part s ∨ next (part s) (part s')) (s : σ)
    (ops : List ι) : ∃ rest, trace step part s ops = part s :: rest ∧
      (part s :: rest).IsChain next := by
  obtain ⟨states, heq⟩ := visited_eq_cons step s ops
  have hvisited : ((visited step s ops).map part).IsChain fun a b => b = a ∨ next a b :=
    List.isChain_map part |>.mpr (isChain_visited hstep s ops)
  obtain ⟨rest, hcons⟩ := destutter'_eq_cons (part s) (states.map part)
  have htrace : trace step part s ops = part s :: rest := by
    unfold trace
    rw [heq]
    exact hcons
  refine ⟨rest, htrace, ?_⟩
  rw [heq, List.map_cons] at hvisited
  have hchain := isChain_destutter_of_stutter hvisited
  rwa [List.destutter_cons', hcons] at hchain

end Values

end Transition
