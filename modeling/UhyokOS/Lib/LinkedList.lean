import Mathlib.Data.Fintype.Card
import Mathlib.Logic.Relation
import Mathlib.Order.WellFounded
import Mathlib.Tactic.Common

/-!
# Lists that are linked by pointers

Nodes of a finite memory, each with at most one successor. The links may run in a circle.

* `transGen_self_of_reflTransGen`: all that is reached from a circle is on it.
* `ends_iff_acyclic`: a list has an end iff no node on it is reached again.
-/

namespace LinkedList

open Relation

variable {α : Type*} {link : α → α → Prop} {a b : α}

/-- No node on the list from `a` on is reached again. -/
def Acyclic (link : α → α → Prop) (a : α) : Prop :=
  ∀ b, ReflTransGen link a b → ¬TransGen link b b

/-- The list from `a` on ends at `b`. -/
structure EndsAt (link : α → α → Prop) (a b : α) : Prop where
  path : ReflTransGen link a b
  last : ∀ c, ¬link b c

/-- All that is reached from a circle is on it. -/
theorem transGen_self_of_reflTransGen (hunique : Relator.RightUnique link)
    (hcycle : TransGen link a a) (hpath : ReflTransGen link a b) : TransGen link b b := by
  induction hpath with
  | refl => exact hcycle
  | @tail b c _ hlink ih =>
      -- the way around from `b` starts with the link to `c`
      obtain ⟨c', hfirst, hrest⟩ := TransGen.head'_iff.mp ih
      obtain rfl := hunique hlink hfirst
      exact TransGen.tail' hrest hlink

/-- A list that has an end is not on a circle anywhere. -/
theorem EndsAt.acyclic (hunique : Relator.RightUnique link) (h : EndsAt link a b) :
    Acyclic link a := by
  intro c hpath hcycle
  have hon : TransGen link b b := by
    rcases hpath.total_of_right_unique hunique h.path with hcb | hbc
    · exact transGen_self_of_reflTransGen hunique hcycle hcb
    · rcases ReflTransGen.cases_head hbc with rfl | ⟨d, hlink, -⟩
      · exact hcycle
      · exact absurd hlink (h.last d)
  obtain ⟨d, hlink, -⟩ := TransGen.head'_iff.mp hon
  exact h.last d hlink

/-- **A list in a finite memory has an end iff no node on it is reached again.** -/
theorem ends_iff_acyclic [Finite α] (hunique : Relator.RightUnique link) (a : α) :
    (∃ b, EndsAt link a b) ↔ Acyclic link a := by
  constructor
  · rintro ⟨b, h⟩
    exact h.acyclic hunique
  · intro hacyclic
    -- the nodes on the list, ordered by what is behind them
    let behind : α → α → Prop := fun c b => ReflTransGen link a b ∧ TransGen link b c
    have htrans : IsTrans α behind := ⟨fun d c b hdc hcb => ⟨hcb.1, hcb.2.trans hdc.2⟩⟩
    have hirrefl : Std.Irrefl behind := ⟨fun b hb => hacyclic b hb.1 hb.2⟩
    have hwf : WellFounded behind := Finite.wellFounded_of_trans_of_irrefl behind
    obtain ⟨b, hpath, hmin⟩ := hwf.has_min {b | ReflTransGen link a b} ⟨a, .refl⟩
    refine ⟨b, hpath, fun c hlink => ?_⟩
    exact hmin c (hpath.tail hlink) ⟨hpath, .single hlink⟩

end LinkedList
