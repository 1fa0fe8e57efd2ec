import UhyokOS.Timer.Manager
import Mathlib.Data.Multiset.Filter
import Mathlib.Data.Multiset.Replicate
import Mathlib.Data.List.Pairwise

/-!
# One tick

What `Tick` does to the multiset of queued timers.

* `Ticked` describes it: the due timers are reported in order, each due task timer comes back one
  period later, and all other timers stay.
* `tickLoop_spec`: the loop is defined and does that, as soon as one timer in the queue is not due.
-/

namespace UhyokOS

open PriorityQueue

namespace TimerManager

variable {Q : Type} [PriorityQueue Q Timer]

/-! ## One `Tick` -/

/-- The timer's time has come. -/
abbrev Due (tick : Nat) (t : Timer) : Prop := t.timeout ≤ tick

/-- The timer that drives the scheduler. -/
abbrev IsTask (t : Timer) : Prop := t.value = kTaskTimerValue

/-- A timer that is reported by a message. -/
abbrev Reported (tick : Nat) (t : Timer) : Prop := Due tick t ∧ ¬IsTask t

/-- What `Tick` does with a queue. -/
structure Ticked (tick : Nat) (before : Multiset Timer) (result : TickResult)
    (after : Multiset Timer) (reported : List Timer) : Prop where
  /-- The due timers are reported, except task timers, -/
  reported_eq : (reported : Multiset Timer) = before.filter (Reported tick)
  /-- in the order of their timeouts, -/
  sorted : reported.Pairwise fun s t => s.timeout ≤ t.timeout
  /-- to task 1. -/
  sent : result.sent = reported.map fun t => (1, t.message)
  /-- The timers that are not due stay, and each due task timer comes back one period later. -/
  after_eq : after = before.filter (¬Due tick ·) +
    Multiset.replicate (Multiset.card (before.filter fun t => Due tick t ∧ IsTask t))
      { timeout := tick + kTaskTimerPeriod, value := kTaskTimerValue }

/-- What a due task timer is replaced by. -/
abbrev nextTaskTimer (tick : Nat) : Timer :=
  { timeout := tick + kTaskTimerPeriod, value := kTaskTimerValue }

theorem not_due_nextTaskTimer (tick : Nat) : ¬Due tick (nextTaskTimer tick) :=
  not_le.mpr (Nat.lt_add_of_pos_right (by decide))

variable {tick : Nat} {before after : Multiset Timer} {result : TickResult}
  {reported : List Timer} {t : Timer}

/-- No timer is due. -/
theorem Ticked.of_none_due (h : ∀ x ∈ before, ¬Due tick x) (flag : Bool) :
    Ticked tick before { sent := [], taskTimerTimeout := flag } before [] := by
  have hreported : before.filter (Reported tick) = 0 :=
    Multiset.filter_eq_nil.mpr fun x hx hr => h x hx hr.1
  have htask : before.filter (fun t => Due tick t ∧ IsTask t) = 0 :=
    Multiset.filter_eq_nil.mpr fun x hx hr => h x hx hr.1
  refine ⟨hreported.symm, .nil, rfl, ?_⟩
  rw [htask, Multiset.filter_eq_self.mpr h]
  simp

/-- One more due timer is reported, ahead of the others. -/
theorem Ticked.report (h : Ticked tick before result after reported) (hdue : Due tick t)
    (htask : ¬IsTask t) (hmin : ∀ x ∈ before, t.timeout ≤ x.timeout) :
    Ticked tick (t ::ₘ before) { result with sent := (1, t.message) :: result.sent } after
      (t :: reported) := by
  refine ⟨?_, ?_, ?_, ?_⟩
  · rw [Multiset.filter_cons_of_pos _ ⟨hdue, htask⟩, ← h.reported_eq]
    rfl
  · refine List.pairwise_cons.mpr ⟨fun x hx => hmin x ?_, h.sorted⟩
    have hx' : x ∈ (reported : Multiset Timer) := hx
    rw [h.reported_eq] at hx'
    exact Multiset.mem_of_mem_filter hx'
  · simp [h.sent]
  · rw [h.after_eq, Multiset.filter_cons_of_neg (p := fun x => ¬Due tick x) _ (not_not_intro hdue),
      Multiset.filter_cons_of_neg _ fun hx => htask hx.2]

/-- One more due task timer was put back. -/
theorem Ticked.reregister (h : Ticked tick (nextTaskTimer tick ::ₘ before) result after reported)
    (hdue : Due tick t) (htask : IsTask t) : Ticked tick (t ::ₘ before) result after reported := by
  have hlater := not_due_nextTaskTimer tick
  refine ⟨?_, h.sorted, h.sent, ?_⟩
  · rw [h.reported_eq, Multiset.filter_cons_of_neg _ fun hx => hlater hx.1,
      Multiset.filter_cons_of_neg _ fun hx => hx.2 htask]
  · rw [h.after_eq, Multiset.filter_cons_of_pos (p := fun x => ¬Due tick x) _ hlater,
      Multiset.filter_cons_of_neg _ fun hx => hlater hx.1,
      Multiset.filter_cons_of_neg (p := fun x => ¬Due tick x) _ (not_not_intro hdue),
      Multiset.filter_cons_of_pos _ ⟨hdue, htask⟩, Multiset.card_cons, Multiset.replicate_succ,
      Multiset.add_cons, Multiset.cons_add]

/-- The loop is defined as soon as one timer in the queue is not due: it makes one round for each
due timer. -/
theorem tickLoop_spec (hwrap : tick + kTaskTimerPeriod < 2 ^ 64) {rounds : Nat} {timers : Q}
    (flag : Bool) (hstop : ∃ t ∈ content timers, ¬Due tick t)
    (hrounds : Multiset.card ((content timers).filter (Due tick)) < rounds) :
    ∃ timers' result reported, tickLoop tick rounds timers flag = some (timers', result) ∧
      Ticked tick (content timers) result (content timers') reported ∧
      (result.taskTimerTimeout = true ↔
        flag = true ∨ ∃ t ∈ content timers, Due tick t ∧ IsTask t) := by
  induction rounds generalizing timers flag with
  | zero => exact absurd hrounds (Nat.not_lt_zero _)
  | succ rounds ih =>
      obtain ⟨s, hs, hsdue⟩ := hstop
      obtain ⟨t, popped, htop, hpop, hcontent, hmin⟩ := exists_pop hs
      have hle : ∀ x ∈ content timers, t.timeout ≤ x.timeout := fun x hx => not_lt.mp (hmin x hx)
      unfold tickLoop
      simp only [htop, hpop, Option.bind_eq_bind, Option.bind_some]
      by_cases hdue : Due tick t
      · rw [if_neg (not_lt.mpr hdue)]
        rw [hcontent] at hs hrounds hle ⊢
        rw [Multiset.filter_cons_of_pos _ hdue, Multiset.card_cons] at hrounds
        have hs' : s ∈ content popped :=
          (Multiset.mem_cons.mp hs).resolve_left fun h => hsdue (h ▸ hdue)
        by_cases htask : IsTask t
        · rw [if_pos htask, Nat.mod_eq_of_lt hwrap]
          have hpush : content (push popped (nextTaskTimer tick)) =
              nextTaskTimer tick ::ₘ content popped := content_push _ _
          have hstop' : ∃ x ∈ content (push popped (nextTaskTimer tick)), ¬Due tick x :=
            ⟨s, by rw [hpush]; exact Multiset.mem_cons_of_mem hs', hsdue⟩
          obtain ⟨timers', result, reported, heq, hticked, hflag⟩ := ih true hstop' (by
            rw [hpush, Multiset.filter_cons_of_neg _ (not_due_nextTaskTimer tick)]
            omega)
          rw [hpush] at hticked
          refine ⟨timers', result, reported, heq, hticked.reregister hdue htask, ?_⟩
          simp only [hflag, true_or, true_iff]
          exact Or.inr ⟨t, Multiset.mem_cons_self _ _, hdue, htask⟩
        · rw [if_neg htask]
          have hstop' : ∃ x ∈ content popped, ¬Due tick x := ⟨s, hs', hsdue⟩
          obtain ⟨timers', result, reported, heq, hticked, hflag⟩ := ih flag hstop' (by omega)
          simp only [heq, Option.bind_some]
          refine ⟨timers', _, t :: reported, rfl, hticked.report hdue htask
            fun x hx => hle x (Multiset.mem_cons_of_mem hx), ?_⟩
          refine hflag.trans (or_congr_right ?_)
          simp [htask]
      · rw [if_pos (not_le.mp hdue)]
        have hnone : ∀ x ∈ content timers, ¬Due tick x := fun x hx hx' =>
          hdue (le_trans (hle x hx) hx')
        refine ⟨timers, _, [], rfl, .of_none_due hnone flag, ?_⟩
        refine (or_iff_left ?_).symm
        rintro ⟨x, hx, hx', -⟩
        exact hnone x hx hx'

/-- `Tick` is defined as soon as one timer in the queue will not be due. -/
theorem tickOnce_spec {tm : TimerManager Q} (hwrap : tm.tick + 1 + kTaskTimerPeriod < 2 ^ 64)
    (hstop : ∃ t ∈ content tm.timers, ¬Due (tm.tick + 1) t) :
    ∃ (tm' : TimerManager Q) (result : TickResult) (reported : List Timer),
      tm.tickOnce = some (tm', result) ∧ tm'.tick = tm.tick + 1 ∧
      Ticked (tm.tick + 1) (content tm.timers) result (content tm'.timers) reported ∧
      (result.taskTimerTimeout = true ↔
        ∃ t ∈ content tm.timers, Due (tm.tick + 1) t ∧ IsTask t) := by
  have hrounds : Multiset.card ((content tm.timers).filter (Due (tm.tick + 1))) <
      size tm.timers + 1 := by
    rw [size_eq]
    exact Nat.lt_succ_of_le (Multiset.card_le_card (Multiset.filter_le _ _))
  obtain ⟨timers', result, reported, heq, hticked, hflag⟩ :=
    tickLoop_spec hwrap false hstop hrounds
  have hmod : (tm.tick + 1) % 2 ^ 64 = tm.tick + 1 :=
    Nat.mod_eq_of_lt (lt_of_le_of_lt (Nat.le_add_right _ _) hwrap)
  refine ⟨{ tick := tm.tick + 1, timers := timers' }, result, reported, ?_, rfl, hticked, ?_⟩
  · unfold tickOnce
    simp only [hmod, heq, Option.bind_eq_bind, Option.bind_some]
    rfl
  · simpa using hflag

/-- After `Tick` every timer in the queue is later than the current tick. -/
theorem Ticked.later (h : Ticked tick before result after reported) :
    ∀ t ∈ after, tick < t.timeout := by
  intro t ht
  rw [h.after_eq] at ht
  rcases Multiset.mem_add.mp ht with ht | ht
  · exact not_le.mp (Multiset.of_mem_filter (p := fun x => ¬Due tick x) ht)
  · rw [Multiset.eq_of_mem_replicate ht]
    exact not_le.mp (not_due_nextTaskTimer tick)

/-- The timers that are reported by messages: those that are not due stay. -/
theorem Ticked.filter_not_isTask (h : Ticked tick before result after reported) :
    after.filter (¬IsTask ·) = (before.filter (¬IsTask ·)).filter (¬Due tick ·) := by
  have hnext : (Multiset.replicate (Multiset.card (before.filter fun t => Due tick t ∧ IsTask t))
      (nextTaskTimer tick)).filter (¬IsTask ·) = 0 :=
    Multiset.filter_eq_nil.mpr fun x hx hx' => hx' (by rw [Multiset.eq_of_mem_replicate hx])
  rw [h.after_eq, Multiset.filter_add, hnext, Multiset.add_zero, Multiset.filter_comm]

theorem Ticked.reported_eq_filter (h : Ticked tick before result after reported) :
    (reported : Multiset Timer) = (before.filter (¬IsTask ·)).filter (Due tick) := by
  rw [h.reported_eq, Multiset.filter_filter]

/-- The task timers: those that are not due stay, the others move on. -/
theorem Ticked.filter_isTask (h : Ticked tick before result after reported) :
    after.filter IsTask = (before.filter IsTask).filter (¬Due tick ·) +
      Multiset.replicate (Multiset.card ((before.filter IsTask).filter (Due tick)))
        (nextTaskTimer tick) := by
  rw [h.after_eq, Multiset.filter_add, Multiset.filter_comm, Multiset.filter_filter (Due tick)]
  congr 1
  exact Multiset.filter_eq_self.mpr fun x hx => by rw [Multiset.eq_of_mem_replicate hx]

end TimerManager

end UhyokOS
