import Mathlib.Data.List.Basic
import Mathlib.Data.Option.Basic
import Mathlib.Tactic.Common

/-!
# Painting sheets over each other

A sheet has ink of some colour at some points and lets what is below it show at the others. In a
stack of sheets, bottom first, `topmost` is the colour one sees: the ink of the topmost sheet that
has any.

A painter who redraws sheets onto a picture within an area skips the points outside of the area,
except for a sheet that does not `clips`, which is always painted whole.

* `topmost_repaint`: if all sheets but the topmost clip, then redrawing a sheet and those above it
  keeps every point right that was right, and makes every point of the area right where the lowest
  redrawn sheet has ink.
* `topmost_append_cons_of_ink_eq_none`: a sheet without ink at a point does not matter there.
-/

namespace Painter

variable {P C : Type*}

/-- What is drawn at each point, and whether a redraw of an area is limited to the area. -/
structure Sheet (P C : Type*) where
  ink : P → Option C
  clips : Prop

/-- The colour one sees at a point. -/
def topmost (p : P) : List (Sheet P C) → Option C
  | [] => none
  | s :: above => (topmost p above).or (s.ink p)

/-- The ink that a redraw of an area puts at a point. -/
noncomputable def Sheet.painted (s : Sheet P C) (area : P → Prop) (p : P) : Option C :=
  open Classical in if s.clips ∧ ¬area p then none else s.ink p

/-- The colour at a point of the picture after the sheets are redrawn within an area. -/
noncomputable def repaint (area : P → Prop) (p : P) (sheets : List (Sheet P C)) (c : C) : C :=
  sheets.foldl (fun c s => (s.painted area p).getD c) c

variable {area : P → Prop} {p : P} {s : Sheet P C} {above below sheets : List (Sheet P C)} {c : C}

theorem topmost_append (below above : List (Sheet P C)) :
    topmost p (below ++ above) = (topmost p above).or (topmost p below) := by
  induction below with
  | nil => simp [topmost]
  | cons s below ih => rw [List.cons_append, topmost, ih, topmost, Option.or_assoc]

/-- Sheets without ink at a point show what is below them. -/
theorem topmost_eq_none (h : ∀ s ∈ sheets, s.ink p = none) : topmost p sheets = none := by
  induction sheets with
  | nil => rfl
  | cons s above ih =>
      rw [topmost, h s List.mem_cons_self, Option.or_none]
      exact ih fun t ht => h t (List.mem_cons_of_mem _ ht)

/-- The topmost sheet that has ink. -/
theorem topmost_append_cons (hink : s.ink p = some c) (habove : ∀ t ∈ above, t.ink p = none) :
    topmost p (below ++ s :: above) = some c := by
  rw [topmost_append, topmost, topmost_eq_none habove, hink]
  rfl

/-- A sheet without ink at a point does not matter there. -/
theorem topmost_append_cons_of_ink_eq_none (h : s.ink p = none) :
    topmost p (below ++ s :: above) = topmost p (below ++ above) := by
  rw [topmost_append, topmost_append, topmost, h, Option.or_none]

/-- In the area everything is painted. -/
theorem repaint_of_mem (hp : area p) (sheets : List (Sheet P C)) (c : C) :
    repaint area p sheets c = (topmost p sheets).getD c := by
  induction sheets generalizing c with
  | nil => rfl
  | cons s above ih =>
      have hpainted : s.painted area p = s.ink p := if_neg fun h => h.2 hp
      show repaint area p above ((s.painted area p).getD c) = _
      rw [ih, hpainted, topmost]
      cases topmost p above <;> rfl

/-- Outside of the area nothing is painted, except the topmost sheet. -/
theorem repaint_of_notMem (hp : ¬area p) (hclips : ∀ s ∈ sheets.dropLast, s.clips) :
    repaint area p sheets c = c ∨ topmost p sheets = some (repaint area p sheets c) := by
  induction sheets with
  | nil => exact Or.inl rfl
  | cons s above ih =>
      cases above with
      | nil =>
          show (s.painted area p).getD c = c ∨ s.ink p = some ((s.painted area p).getD c)
          unfold Sheet.painted
          split_ifs
          · exact Or.inl rfl
          · cases s.ink p with
            | none => exact Or.inl rfl
            | some c' => exact Or.inr rfl
      | cons t above =>
          have hs : s.clips := hclips s (by simp)
          have hpainted : s.painted area p = none := if_pos ⟨hs, hp⟩
          have hstep : repaint area p (s :: t :: above) c = repaint area p (t :: above) c := by
            show repaint area p (t :: above) ((s.painted area p).getD c) = _
            rw [hpainted]
            rfl
          rw [hstep]
          rcases ih fun u hu => hclips u (List.mem_cons_of_mem _ hu) with hkeep | htop
          · exact Or.inl hkeep
          · refine Or.inr ?_
            rw [topmost, htop]
            rfl

/-- **A redraw of the upper part of a stack.** -/
theorem topmost_repaint (hclips : ∀ t ∈ (s :: above).dropLast, t.clips)
    (h : topmost p (below ++ s :: above) = some c ∨ (area p ∧ (s.ink p).isSome)) :
    topmost p (below ++ s :: above) = some (repaint area p (s :: above) c) := by
  by_cases hp : area p
  · rw [repaint_of_mem hp, topmost_append]
    cases htop : topmost p (s :: above) with
    | some c' => rfl
    | none =>
        -- then `s` has no ink, so the picture was right and is kept
        have hink : s.ink p = none := by
          rw [topmost] at htop
          exact (Option.or_eq_none_iff.mp htop).2
        have hright : topmost p (below ++ s :: above) = some c :=
          h.resolve_right fun hin => by simp [hink] at hin
        rw [topmost_append, htop] at hright
        exact hright
  · have hright : topmost p (below ++ s :: above) = some c := h.resolve_right fun hin => hp hin.1
    rcases repaint_of_notMem (c := c) hp hclips with hkeep | htop
    · rw [hkeep]
      exact hright
    · rw [topmost_append, htop]
      rfl

end Painter
