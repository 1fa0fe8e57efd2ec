import Mathlib.Data.List.Nodup
import Mathlib.Data.List.Sublists
import Mathlib.Tactic.Common

/-!
# Round robin

A queue whose front has its turn. While it has, others may leave the queue and new ones may be
appended (`Waits`); at the end of its turn the front leaves or goes to the back (`Turns`). Nobody is
overtaken, so the waiting time is bounded.

* `before_of_sublist`: what stays in a queue keeps its order.
* `exists_turn`: an element that stays has its turn after as many turns as there are elements before it.
* `count_between_turns`: between two turns of an element that stays, every other one that stays has
  one turn.
-/

namespace RoundRobin

variable {α : Type*} {l l' kept rest turns between : List α} {a b x y q : α}

/-! ## Order in a queue -/

/-- What is left of a queue keeps its order. -/
theorem before_of_sublist (h : kept.Sublist l) (hl : l.Nodup) (hx : x ∈ kept) (hy : y ∈ kept)
    (hbefore : [x, y].Sublist l) : [x, y].Sublist kept := by
  induction h with
  | slnil => exact hbefore
  | @cons kept l b hsub ih =>
      obtain ⟨hb, hl⟩ := List.nodup_cons.mp hl
      rcases List.sublist_cons_iff.mp hbefore with hbefore | ⟨r, heq, -⟩
      · exact ih hl hx hy hbefore
      · obtain ⟨rfl, -⟩ := List.cons.inj heq
        exact absurd (hsub.subset hx) hb
  | @cons_cons kept l b hsub ih =>
      obtain ⟨hb, hl⟩ := List.nodup_cons.mp hl
      have hrest : ∀ {z : α}, z ∈ l → z ∈ b :: kept → z ∈ kept := by
        intro z hz hmem
        rcases List.mem_cons.mp hmem with rfl | hmem
        · exact absurd hz hb
        · exact hmem
      rcases List.sublist_cons_iff.mp hbefore with hbefore | ⟨r, heq, hr⟩
      · have hxl : x ∈ l := hbefore.subset List.mem_cons_self
        have hyl : y ∈ l := hbefore.subset (List.mem_cons_of_mem _ List.mem_cons_self)
        exact (ih hl (hrest hxl hx) (hrest hyl hy) hbefore).trans (List.sublist_cons_self b kept)
      · obtain ⟨rfl, rfl⟩ := List.cons.inj heq
        have hyl : y ∈ l := hr.subset List.mem_cons_self
        exact (List.singleton_sublist.mpr (hrest hyl hy)).cons_cons x

/-- What is left of a queue is not further back than before. -/
theorem idxOf_le_of_sublist [DecidableEq α] (h : kept.Sublist l) (hl : l.Nodup) (hx : x ∈ kept) :
    kept.idxOf x ≤ l.idxOf x := by
  induction h with
  | slnil => exact Nat.le_refl _
  | @cons kept l b hsub ih =>
      obtain ⟨hb, hl⟩ := List.nodup_cons.mp hl
      have hne : b ≠ x := fun heq => hb (heq ▸ hsub.subset hx)
      rw [List.idxOf_cons_ne l hne]
      exact Nat.le_succ_of_le (ih hl hx)
  | @cons_cons kept l b hsub ih =>
      obtain ⟨hb, hl⟩ := List.nodup_cons.mp hl
      rcases List.mem_cons.mp hx with rfl | hx
      · rw [List.idxOf_cons_self]
        exact Nat.zero_le _
      · have hne : b ≠ x := fun heq => hb (heq ▸ hsub.subset hx)
        rw [List.idxOf_cons_ne l hne, List.idxOf_cons_ne kept hne]
        exact Nat.succ_le_succ (ih hl hx)

/-- The second of two elements is not at the front. -/
theorem head_ne_of_before (hl : (b :: l).Nodup) (hbefore : [x, y].Sublist (b :: l)) : b ≠ y := by
  rintro rfl
  obtain ⟨hb, -⟩ := List.nodup_cons.mp hl
  rcases List.sublist_cons_iff.mp hbefore with hbefore | ⟨r, heq, hr⟩
  · exact hb (hbefore.subset (List.mem_cons_of_mem _ List.mem_cons_self))
  · obtain ⟨-, rfl⟩ := List.cons.inj heq
    exact hb (hr.subset List.mem_cons_self)

/-- Without the front, which is another one. -/
theorem before_tail (hne : b ≠ x) (hbefore : [x, y].Sublist (b :: l)) : [x, y].Sublist l := by
  rcases List.sublist_cons_iff.mp hbefore with hbefore | ⟨r, heq, -⟩
  · exact hbefore
  · exact absurd (List.cons.inj heq).1.symm hne

/-! ## Steps -/

/-- The front stays, others may leave, and new ones may be appended. -/
inductive Waits : List α → List α → Prop
  | intro {a : α} {rest kept new : List α} (sub : kept.Sublist rest)
      (fresh : ∀ z ∈ new, z ∉ a :: rest) : Waits (a :: rest) (a :: (kept ++ new))

/-- The turn of the front ends; it leaves or goes to the back. -/
inductive Turns : List α → List α → Prop
  | intro {a : α} {rest new : List α} (back : ∀ z ∈ new, z = a) : Turns (a :: rest) (rest ++ new)

theorem Waits.leave (a : α) (h : kept.Sublist rest) : Waits (a :: rest) (a :: kept) := by
  have hwaits : Waits (a :: rest) (a :: (kept ++ [])) :=
    .intro h fun z hz => absurd hz List.not_mem_nil
  rwa [List.append_nil] at hwaits

theorem Waits.refl (a : α) (rest : List α) : Waits (a :: rest) (a :: rest) :=
  .leave a (List.Sublist.refl rest)

theorem Waits.join (h : x ∉ a :: rest) : Waits (a :: rest) (a :: rest ++ [x]) :=
  .intro (List.Sublist.refl rest) fun z hz => by rwa [List.mem_singleton.mp hz]

theorem Turns.rotate (a : α) (rest : List α) : Turns (a :: rest) (rest ++ [a]) :=
  .intro fun _ hz => List.mem_singleton.mp hz

theorem Turns.leave (a : α) (rest : List α) : Turns (a :: rest) rest := by
  have hturns : Turns (a :: rest) (rest ++ []) := .intro fun z hz => absurd hz List.not_mem_nil
  rwa [List.append_nil] at hturns

/-- A run of a queue of which `P` always holds, with those who got their turn in it. -/
inductive Run (P : List α → Prop) : List α → List α → Prop
  | nil {l : List α} : P l → Run P l []
  | wait {l l' turns : List α} : P l → Waits l l' → Run P l' turns → Run P l turns
  | turn {l l' turns : List α} {b : α} : P l → Turns l (b :: l') → Run P (b :: l') turns →
      Run P l (b :: turns)

theorem Run.start {P : List α → Prop} (h : Run P l turns) : P l := by
  cases h with
  | nil hl => exact hl
  | wait hl _ _ => exact hl
  | turn hl _ _ => exact hl

theorem Waits.head? (h : Waits l l') : l'.head? = l.head? := by
  cases h
  rfl

/-- Of two elements that are both there before and after a step, the first stays first. -/
theorem Waits.before (h : Waits l l') (hl : l.Nodup) (hx : x ∈ l) (hy : y ∈ l) (hx' : x ∈ l')
    (hy' : y ∈ l') (hbefore : [x, y].Sublist l) : [x, y].Sublist l' := by
  cases h with
  | @intro a rest kept new sub fresh =>
      have hkept : ∀ {z : α}, z ∈ a :: rest → z ∈ a :: (kept ++ new) → z ∈ a :: kept := by
        intro z hz hz'
        rw [← List.cons_append] at hz'
        rcases List.mem_append.mp hz' with hz' | hz'
        · exact hz'
        · exact absurd hz (fresh z hz')
      have hsub := before_of_sublist (sub.cons_cons a) hl (hkept hx hx') (hkept hy hy') hbefore
      exact hsub.trans (List.sublist_append_left (a :: kept) new)

/-- Those behind the front stay in order when its turn ends. -/
theorem Turns.before (h : Turns (a :: l) l') (hne : a ≠ x) (hbefore : [x, y].Sublist (a :: l)) :
    [x, y].Sublist l' := by
  cases h with
  | intro back => exact (before_tail hne hbefore).trans (List.sublist_append_left l _)

/-- If the front stays in the queue, it is behind all others after its turn. -/
theorem Turns.front_last (h : Turns (a :: l) l') (hl : (a :: l).Nodup) (hx : x ∈ l)
    (ha : a ∈ l') : [x, a].Sublist l' := by
  cases h with
  | @intro _ _ new back =>
      rcases List.mem_append.mp ha with ha | ha
      · exact absurd ha (List.nodup_cons.mp hl).1
      · exact (List.singleton_sublist.mpr hx).append (List.singleton_sublist.mpr ha)

/-! ## Bounded waiting -/

/-- **The waiting time is bounded**: an element that stays in the queue has its turn after at most as
many turns as there are elements before it. -/
theorem exists_turn [DecidableEq α] (h : Run (fun l => l.Nodup ∧ x ∈ l) l turns)
    (hlen : l.idxOf x ≤ turns.length) : l.head? = some x ∨ x ∈ turns.take (l.idxOf x) := by
  induction h with
  | @nil l hl =>
      left
      obtain ⟨a, rest, rfl⟩ := List.exists_cons_of_ne_nil (List.ne_nil_of_mem hl.2)
      by_cases hne : a = x
      · rw [hne]
        rfl
      · rw [List.idxOf_cons_ne rest hne] at hlen
        exact absurd hlen (Nat.not_succ_le_zero _)
  | @wait l l' turns hl hwait hrun ih =>
      have hle : l'.idxOf x ≤ l.idxOf x := by
        have hmem := hrun.start.2
        cases hwait with
        | @intro a rest kept new sub fresh =>
            rw [← List.cons_append] at hmem ⊢
            have hkept : x ∈ a :: kept := by
              rcases List.mem_append.mp hmem with hmem | hmem
              · exact hmem
              · exact absurd hl.2 (fresh x hmem)
            rw [List.idxOf_append_of_mem hkept]
            exact idxOf_le_of_sublist (sub.cons_cons a) hl.1 hkept
      rw [← hwait.head?]
      exact (ih (hle.trans hlen)).imp_right fun hmem => List.take_subset_take_left turns hle hmem
  | @turn l l' turns b hl hturn hrun ih =>
      obtain ⟨a, rest, rfl⟩ := List.exists_cons_of_ne_nil (List.ne_nil_of_mem hl.2)
      by_cases hne : a = x
      · left
        rw [hne]
        rfl
      · right
        rw [List.idxOf_cons_ne rest hne] at hlen ⊢
        have hmem : x ∈ rest := (List.mem_cons.mp hl.2).resolve_left fun heq => hne heq.symm
        have hidx : (b :: l').idxOf x = rest.idxOf x := by
          generalize b :: l' = after at hturn
          cases hturn with
          | intro back => exact List.idxOf_append_of_mem hmem
        rw [hidx] at ih
        rw [List.take_succ_cons, List.mem_cons]
        rcases ih (Nat.le_of_succ_le_succ hlen) with hhead | hin
        · exact Or.inl (Option.some.inj hhead).symm
        · exact Or.inr hin

section between

variable [DecidableEq α]

/-- Both elements stay in the queue. -/
abbrev Both (x q : α) (l : List α) : Prop := l.Nodup ∧ x ∈ l ∧ q ∈ l

/-- One that has its turn, or is behind `x`, has no further turn before `x`. -/
theorem count_eq_zero (h : Run (Both x q) l turns) (hx : l.head? ≠ some x)
    (hq : l.head? = some q ∨ [x, q].Sublist l) (hturns : turns = between ++ [x])
    (hbetween : x ∉ between) : between.count q = 0 := by
  induction h generalizing between with
  | nil _ =>
      exact absurd hturns.symm (List.append_ne_nil_of_right_ne_nil _ (List.cons_ne_nil _ _))
  | @wait l l' turns hl hwait hrun ih =>
      have hl' := hrun.start
      rw [← hwait.head?] at hx hq
      exact ih hx (hq.imp_right (hwait.before hl.1 hl.2.1 hl.2.2 hl'.2.1 hl'.2.2)) hturns hbetween
  | @turn l l' turns b hl hturn hrun ih =>
      cases between with
      | nil => rfl
      | cons c between =>
          obtain ⟨rfl, htail⟩ := List.cons.inj hturns
          rw [List.mem_cons, not_or] at hbetween
          obtain ⟨a, rest, rfl⟩ := List.exists_cons_of_ne_nil (List.ne_nil_of_mem hl.2.1)
          have hax : a ≠ x := fun heq => hx (congrArg some heq)
          have hlast : [x, q].Sublist (b :: l') := by
            rcases hq with hq | hq
            · obtain rfl : a = q := Option.some.inj hq
              have hmem : x ∈ rest := (List.mem_cons.mp hl.2.1).resolve_left hax.symm
              exact hturn.front_last hl.1 hmem hrun.start.2.2
            · exact hturn.before hax hq
          have hbq : b ≠ q := head_ne_of_before hrun.start.1 hlast
          rw [List.count_cons_of_ne hbq]
          exact ih (fun heq => hbetween.1 (Option.some.inj heq).symm) (Or.inr hlast) htail hbetween.2

/-- One that gets its turn before `x`, after one turn of another. -/
private theorem count_after_turn {l' : List α} (hrun : Run (Both x q) (b :: l') turns)
    (hbefore : [q, x].Sublist (b :: l')) (hturns : b :: turns = between ++ [x])
    (hbetween : x ∉ between)
    (hlater : b ≠ q → ∀ between, turns = between ++ [x] → x ∉ between → between.count q = 1) :
    between.count q = 1 := by
  have hbx : b ≠ x := head_ne_of_before hrun.start.1 hbefore
  cases between with
  | nil => exact absurd (List.cons.inj hturns).1 hbx
  | cons c between =>
      obtain ⟨rfl, htail⟩ := List.cons.inj hturns
      rw [List.mem_cons, not_or] at hbetween
      by_cases hbq : b = q
      · have hzero := count_eq_zero hrun (fun heq => hbx (Option.some.inj heq))
          (Or.inl (congrArg some hbq)) htail hbetween.2
        rw [hbq, List.count_cons_self, hzero]
      · rw [List.count_cons_of_ne hbq]
        exact hlater hbq between htail hbetween.2

/-- One that waits before `x` has one turn before `x`. -/
theorem count_eq_one (h : Run (Both x q) l turns) (hq : l.head? ≠ some q)
    (hbefore : [q, x].Sublist l) (hturns : turns = between ++ [x])
    (hbetween : x ∉ between) : between.count q = 1 := by
  induction h generalizing between with
  | nil _ =>
      exact absurd hturns.symm (List.append_ne_nil_of_right_ne_nil _ (List.cons_ne_nil _ _))
  | @wait l l' turns hl hwait hrun ih =>
      have hl' := hrun.start
      rw [← hwait.head?] at hq
      exact ih hq (hwait.before hl.1 hl.2.2 hl.2.1 hl'.2.2 hl'.2.1 hbefore) hturns hbetween
  | @turn l l' turns b hl hturn hrun ih =>
      obtain ⟨a, rest, rfl⟩ := List.exists_cons_of_ne_nil (List.ne_nil_of_mem hl.2.1)
      have haq : a ≠ q := fun heq => hq (congrArg some heq)
      have hbefore' := hturn.before haq hbefore
      refine count_after_turn hrun hbefore' hturns hbetween fun hbq between hturns' hbetween' => ?_
      exact ih (fun heq => hbq (Option.some.inj heq)) hbefore' hturns' hbetween'

/-- **Between two turns of an element, every other one that stays has one turn.** -/
theorem count_between_turns (h : Run (Both x q) l turns) (hne : q ≠ x) (hx : l.head? = some x)
    (hturns : turns = between ++ [x]) (hbetween : x ∉ between) : between.count q = 1 := by
  induction h generalizing between with
  | nil _ =>
      exact absurd hturns.symm (List.append_ne_nil_of_right_ne_nil _ (List.cons_ne_nil _ _))
  | @wait l l' turns hl hwait hrun ih =>
      rw [← hwait.head?] at hx
      exact ih hx hturns hbetween
  | @turn l l' turns b hl hturn hrun ih =>
      obtain ⟨a, rest, rfl⟩ := List.exists_cons_of_ne_nil (List.ne_nil_of_mem hl.2.1)
      obtain rfl : a = x := Option.some.inj hx
      have hmem : q ∈ rest := (List.mem_cons.mp hl.2.2).resolve_left hne
      have hbefore := hturn.front_last hl.1 hmem hrun.start.2.1
      refine count_after_turn hrun hbefore hturns hbetween fun hbq between hturns' hbetween' => ?_
      exact count_eq_one hrun (fun heq => hbq (Option.some.inj heq)) hbefore hturns' hbetween'

end between

end RoundRobin
