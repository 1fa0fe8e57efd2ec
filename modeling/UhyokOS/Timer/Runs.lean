import UhyokOS.Timer.Tick
import UhyokOS.Lib.Transition
import Mathlib.Data.List.Count
import Mathlib.Data.Nat.Find

/-!
# When timers fire

Runs of the timer manager: calls of `AddTimer` and `Tick` in any order, with a log of what each
`Tick` did.

* `FiresAt` says that the `Tick` at a position of a run is the first one after the insertion of a
  timer that has reached its timeout; `firing` collects the timers that fire at a position.
* `RunInv.tick_step` and `RunInv.addTimer` carry the queue along a run: it holds the timers that
  have not fired yet, the sentinel and the task timers.
* `timers_fire_once`: the messages of every `Tick` are exactly those of the timers that fire there,
  and a single task timer makes `Tick` return true exactly once in every period.
-/

namespace UhyokOS

open PriorityQueue Transition TimerManager

/-- The calls of the timer manager's users. -/
inductive TimerOp
  | addTimer (timer : Timer)
  | tick
  deriving DecidableEq

/-- The manager, with the result of each `Tick` so far and `none` for each `AddTimer`. -/
structure TimerRun (Q : Type) where
  /-- `*timer_manager` -/
  tm : TimerManager Q
  /-- One entry for each call. -/
  log : List (Option TickResult) := []

variable {Q : Type} [PriorityQueue Q Timer]

/-- One call. -/
def TimerRun.step (s : TimerRun Q) : TimerOp → Option (TimerRun Q)
  | .addTimer timer => some { tm := s.tm.addTimer timer, log := s.log ++ [none] }
  | .tick => do
      let (tm, result) ← s.tm.tickOnce
      return { tm := tm, log := s.log ++ [some result] }

/-! ## Firing -/

variable {ops : List TimerOp} {op : TimerOp} {i j : Nat} {t : Timer}

/-- The value of `tick_` after a run. -/
def ticks (ops : List TimerOp) : Nat := ops.count .tick

/-- The new value of `tick_` at a `Tick` of a run. -/
def tickAt (ops : List TimerOp) (j : Nat) : Nat := ticks (ops.take (j + 1))

/-- The call at `j` is the first `Tick` after `i` whose new `tick_` reaches the timeout. -/
def FiresAt (ops : List TimerOp) (i j : Nat) (t : Timer) : Prop :=
  i < j ∧ ops[j]? = some .tick ∧ t.timeout ≤ tickAt ops j ∧
    ∀ k < j, i < k → ops[k]? = some .tick → tickAt ops k < t.timeout

/-- No `Tick` after `i` has reached the timeout. -/
def Unfired (ops : List TimerOp) (i : Nat) (t : Timer) : Prop :=
  ∀ k < ops.length, i < k → ops[k]? = some .tick → tickAt ops k < t.timeout

/-- Whether a timer fires at a tick is read from the operations. -/
instance FiresAt.decidable : Decidable (FiresAt ops i j t) := by
  unfold FiresAt
  infer_instance

/-- Whether a timer has fired is read from the ticks of the operations. -/
instance Unfired.decidable : Decidable (Unfired ops i t) := by
  unfold Unfired
  infer_instance

/-- The reported timer that a call adds. -/
def TimerOp.reported? : TimerOp → Option Timer
  | .addTimer t => if IsTask t then none else some t
  | .tick => none

/-- The timers added by a run, task timers apart, each with the position of its insertion. -/
def insertions (ops : List TimerOp) : List (Nat × Timer) :=
  ops.zipIdx.filterMap fun x => x.1.reported?.map fun t => (x.2, t)

/-- The timers that fire at a position. -/
def firing (ops : List TimerOp) (j : Nat) : List Timer :=
  ((insertions ops).filter fun x => FiresAt ops x.1 j x.2).map Prod.snd

/-- The timers that have not fired. -/
def pending (ops : List TimerOp) : List Timer :=
  ((insertions ops).filter fun x => Unfired ops x.1 x.2).map Prod.snd

/-- The timers that are reported are those that were added, without the task timer. -/
theorem mem_insertions : (i, t) ∈ insertions ops ↔ ops[i]? = some (.addTimer t) ∧ ¬IsTask t := by
  unfold insertions
  simp only [List.mem_filterMap, Prod.exists, Option.map_eq_some_iff, Prod.mk.injEq,
    List.mk_mem_zipIdx_iff_getElem?]
  constructor
  · rintro ⟨op, k, hop, s, hs, rfl, rfl⟩
    cases op with
    | tick => cases hs
    | addTimer s' =>
        unfold TimerOp.reported? at hs
        simp only at hs
        split_ifs at hs with htask
        cases hs
        exact ⟨hop, htask⟩
  · rintro ⟨hop, htask⟩
    exact ⟨_, i, hop, t, if_neg htask, rfl, rfl⟩

/-- A timer was added by one of the operations. -/
theorem lt_of_mem_insertions {x : Nat × Timer} (h : x ∈ insertions ops) : x.1 < ops.length :=
  (List.getElem?_eq_some_iff.mp (mem_insertions.mp h).1).1

/-- The last operation may add one more timer. -/
theorem insertions_snoc (ops : List TimerOp) (op : TimerOp) :
    insertions (ops ++ [op]) =
      insertions ops ++ (op.reported?.map fun t => (ops.length, t)).toList := by
  unfold insertions
  rw [List.zipIdx_append, List.filterMap_append]
  cases h : op.reported? <;> simp [h]

/-- The last operation may be one more tick. -/
theorem ticks_snoc (ops : List TimerOp) (op : TimerOp) :
    ticks (ops ++ [op]) = ticks ops + if op = .tick then 1 else 0 := by
  simp [ticks, List.count_append, List.count_singleton]

/-- A longer run has no fewer ticks. -/
theorem ticks_mono {pre : List TimerOp} (h : pre <+: ops) : ticks pre ≤ ticks ops :=
  h.sublist.count_le _

/-- What happens later does not change when an operation was. -/
theorem tickAt_snoc_of_lt (h : j < ops.length) : tickAt (ops ++ [op]) j = tickAt ops j := by
  unfold tickAt
  rw [List.take_append_of_le_length h]

/-- The last operation comes after all ticks, its own included. -/
theorem tickAt_snoc_length : tickAt (ops ++ [op]) ops.length = ticks (ops ++ [op]) := by
  unfold tickAt
  rw [List.take_of_length_le (by simp)]

/-- What happens later does not change which timers a tick fires. -/
theorem firesAt_snoc_of_lt (h : j < ops.length) :
    FiresAt (ops ++ [op]) i j t ↔ FiresAt ops i j t := by
  unfold FiresAt
  rw [List.getElem?_append_left h, tickAt_snoc_of_lt h]
  refine and_congr_right fun _ => and_congr_right fun _ => and_congr_right fun _ => ?_
  refine forall₂_congr fun k hk => ?_
  have hk' : k < ops.length := lt_trans hk h
  rw [List.getElem?_append_left hk', tickAt_snoc_of_lt hk']

/-- A timer that has not fired fires at the next `Tick` iff that reaches its timeout. -/
theorem firesAt_snoc_tick (hi : i < ops.length) :
    FiresAt (ops ++ [.tick]) i ops.length t ↔ Unfired ops i t ∧ Due (ticks ops + 1) t := by
  unfold FiresAt Unfired
  rw [tickAt_snoc_length, ticks_snoc]
  have hlast : (ops ++ [TimerOp.tick])[ops.length]? = some .tick := by simp
  have hunfired : (∀ k < ops.length, i < k → (ops ++ [TimerOp.tick])[k]? = some .tick →
      tickAt (ops ++ [.tick]) k < t.timeout) ↔
      ∀ k < ops.length, i < k → ops[k]? = some .tick → tickAt ops k < t.timeout := by
    refine forall₂_congr fun k hk => ?_
    rw [List.getElem?_append_left hk, tickAt_snoc_of_lt hk]
  rw [hunfired]
  simp only [hi, hlast, true_and, if_true]
  exact and_comm

/-- A timer that was added before has not fired yet after one more operation if it had not before
and the operation is no tick that it is due at. -/
theorem unfired_snoc (hi : i < ops.length) :
    Unfired (ops ++ [op]) i t ↔
      Unfired ops i t ∧ (op = .tick → ¬Due (ticks ops + 1) t) := by
  unfold Unfired
  constructor
  · intro h
    refine ⟨fun k hk hik hop => ?_, fun htick => ?_⟩
    · have := h k (by simp; omega) hik (by rwa [List.getElem?_append_left hk])
      rwa [tickAt_snoc_of_lt hk] at this
    · subst htick
      have := h ops.length (by simp) hi (by simp)
      rw [tickAt_snoc_length, ticks_snoc, if_pos rfl] at this
      exact not_le.mpr this
  · rintro ⟨h, hnew⟩ k hk hik hop
    rcases Nat.lt_or_ge k ops.length with hlt | hge
    · rw [List.getElem?_append_left hlt] at hop
      rw [tickAt_snoc_of_lt hlt]
      exact h k hlt hik hop
    · have hkl : k = ops.length := by
        simp only [List.length_append, List.length_singleton] at hk
        omega
      subst hkl
      have htick : op = .tick := by simpa using hop
      subst htick
      rw [tickAt_snoc_length, ticks_snoc, if_pos rfl]
      exact not_le.mp (hnew rfl)

/-! ### The lists along a run -/

/-- What happens later does not change what a tick has reported. -/
theorem firing_snoc_of_lt (h : j < ops.length) : firing (ops ++ [op]) j = firing ops j := by
  unfold firing
  have hnew : (op.reported?.map fun t => (ops.length, t)).toList.filter
      (fun x => FiresAt (ops ++ [op]) x.1 j x.2) = [] := by
    rw [List.filter_eq_nil_iff]
    rintro x hx hfires
    obtain ⟨t, -, rfl⟩ := Option.map_eq_some_iff.mp (Option.mem_toList.mp hx)
    exact absurd (of_decide_eq_true hfires).1 (not_lt.mpr h.le)
  rw [insertions_snoc, List.filter_append, hnew, List.append_nil]
  congr 1
  exact List.filter_congr fun x _ => by simp only [firesAt_snoc_of_lt h]

/-- A tick reports the timers that wait and are due. -/
theorem firing_snoc_tick (ops : List TimerOp) :
    firing (ops ++ [.tick]) ops.length = (pending ops).filter (Due (ticks ops + 1) ·) := by
  unfold firing pending
  rw [insertions_snoc, List.filter_map, List.filter_filter]
  simp only [TimerOp.reported?, Option.map_none, Option.toList_none, List.append_nil]
  congr 1
  refine List.filter_congr fun x hx => ?_
  simp only [firesAt_snoc_tick (lt_of_mem_insertions hx), Function.comp_apply]
  rw [Bool.and_comm]
  exact Bool.decide_and _ _

/-- A tick leaves the timers that wait and are not due. -/
theorem pending_snoc_tick (ops : List TimerOp) :
    pending (ops ++ [.tick]) = (pending ops).filter (¬Due (ticks ops + 1) ·) := by
  unfold pending
  rw [insertions_snoc, List.filter_map, List.filter_filter]
  simp only [TimerOp.reported?, Option.map_none, Option.toList_none, List.append_nil]
  congr 1
  refine List.filter_congr fun x hx => ?_
  simp only [unfired_snoc (lt_of_mem_insertions hx), Function.comp_apply, forall_const]
  rw [Bool.and_comm]
  exact Bool.decide_and _ _

/-- A timer that is added waits behind the others. -/
theorem pending_snoc_addTimer (ops : List TimerOp) (t : Timer) :
    pending (ops ++ [.addTimer t]) = pending ops ++ (TimerOp.addTimer t).reported?.toList := by
  unfold pending
  rw [insertions_snoc, List.filter_append, List.map_append]
  congr 1
  · congr 1
    refine List.filter_congr fun x hx => ?_
    simp [unfired_snoc (lt_of_mem_insertions hx)]
  · cases h : (TimerOp.addTimer t).reported? with
    | none => rfl
    | some s =>
        have hun : Unfired (ops ++ [TimerOp.addTimer t]) ops.length s := by
          intro k hk hlt
          simp only [List.length_append, List.length_singleton] at hk
          omega
        simp [hun]

/-! ## The invariant -/

/-- The timer the constructor pushes; it keeps the queue from running empty. -/
abbrev sentinel : Timer := { timeout := kUnsignedLongMax, value := -1 }

/-- A run that stays below the largest `unsigned long`. -/
abbrev InRange (ops : List TimerOp) : Prop := ticks ops + kTaskTimerPeriod < kUnsignedLongMax

/-- The messages sent are those of these timers, in the order of their timeouts, to task 1. -/
def TickResult.Reports (result : TickResult) (timers : List Timer) : Prop :=
  ∃ reported : List Timer, reported.Perm timers ∧
    reported.Pairwise (fun s t => s.timeout ≤ t.timeout) ∧
    result.sent = reported.map fun t => (1, t.message)

/-- The state after a run. -/
structure RunInv (ops : List TimerOp) (s : TimerRun Q) : Prop where
  tick : s.tm.tick = ticks ops
  /-- Besides task timers the queue holds the sentinel and the timers that have not fired. -/
  queued : (content s.tm.timers).filter (¬IsTask ·) = sentinel ::ₘ (pending ops : Multiset Timer)
  /-- After a `Tick` nothing in the queue is due. -/
  later : ∀ pre, ops = pre ++ [.tick] → ∀ t ∈ content s.tm.timers, s.tm.tick < t.timeout
  length : s.log.length = ops.length
  /-- Each `Tick` has sent the messages of the timers that fire there, in order, to task 1. -/
  sent : ∀ j, ops[j]? = some TimerOp.tick → ∃ result : TickResult, s.log[j]? = some (some result) ∧
    result.Reports (firing ops j)

/-- The run before any call. -/
def TimerRun.init : TimerRun Q := { tm := .init }

/-- At the start the queue holds the sentinel, and nothing has been reported. -/
theorem runInv_init : RunInv [] (TimerRun.init : TimerRun Q) := by
  refine ⟨rfl, ?_, fun pre hpre => absurd hpre (by simp), rfl, fun j hj => absurd hj (by simp)⟩
  have hcontent : content (TimerRun.init : TimerRun Q).tm.timers = {sentinel} := by
    show content (push empty sentinel) = {sentinel}
    rw [content_push, content_empty]
    rfl
  rw [hcontent]
  rfl

variable {s : TimerRun Q}

/-- A call that appends to the log keeps what the log says about earlier calls. -/
private theorem RunInv.sent_snoc (h : RunInv ops s) (op : TimerOp) (entry : Option TickResult)
    (hj : j < ops.length) (hop : (ops ++ [op])[j]? = some .tick) :
    ∃ result : TickResult, (s.log ++ [entry])[j]? = some (some result) ∧
      result.Reports (firing (ops ++ [op]) j) := by
  rw [List.getElem?_append_left hj] at hop
  obtain ⟨result, hlog, hsent⟩ := h.sent j hop
  refine ⟨result, ?_, ?_⟩
  · rw [List.getElem?_append_left (h.length ▸ hj), hlog]
  · rw [firing_snoc_of_lt hj]
    exact hsent

/-- The sentinel stays in the queue, so that `Tick` may read its top without asking. -/
theorem RunInv.sentinel_mem (h : RunInv ops s) : sentinel ∈ content s.tm.timers := by
  have hmem : sentinel ∈ (content s.tm.timers).filter (¬IsTask ·) := by
    rw [h.queued]
    exact Multiset.mem_cons_self _ _
  exact Multiset.mem_of_mem_filter hmem

/-- **`AddTimer` keeps the invariant.** -/
theorem RunInv.addTimer (h : RunInv ops s) (t : Timer) :
    RunInv (ops ++ [.addTimer t]) { tm := s.tm.addTimer t, log := s.log ++ [none] } := by
  have hcontent : content (s.tm.addTimer t).timers = t ::ₘ content s.tm.timers := content_push _ _
  refine ⟨?_, ?_, fun pre hpre => ?_, by simp [h.length], fun j hj => ?_⟩
  · rw [ticks_snoc]
    exact h.tick
  · show (content (s.tm.addTimer t).timers).filter (¬IsTask ·) = _
    rw [hcontent, pending_snoc_addTimer]
    by_cases htask : IsTask t
    · have hnone : (TimerOp.addTimer t).reported? = none := if_pos htask
      rw [Multiset.filter_cons_of_neg (p := fun x => ¬IsTask x) _ (not_not_intro htask), h.queued,
        hnone, Option.toList_none, List.append_nil]
    · have hsome : (TimerOp.addTimer t).reported? = some t := if_neg htask
      rw [Multiset.filter_cons_of_pos (p := fun x => ¬IsTask x) _ htask, h.queued,
        Multiset.cons_swap, hsome, Option.toList_some, Multiset.cons_coe t]
      congr 1
      exact Multiset.coe_eq_coe.mpr (List.perm_append_singleton t _).symm
  · have hlast := congrArg List.getLast? hpre
    simp at hlast
  · refine h.sent_snoc _ _ ?_ hj
    by_contra hge
    have hlt : j < (ops ++ [TimerOp.addTimer t]).length := (List.getElem?_eq_some_iff.mp hj).1
    simp only [List.length_append, List.length_singleton] at hlt
    have hjl : j = ops.length := by omega
    subst hjl
    simp at hj

/-- What `Tick` does in a state of the invariant. -/
theorem RunInv.tickOnce (h : RunInv ops s) (hrange : InRange (ops ++ [.tick])) :
    ∃ tm' result reported, s.tm.tickOnce = some (tm', result) ∧ tm'.tick = ticks ops + 1 ∧
      Ticked (ticks ops + 1) (content s.tm.timers) result (content tm'.timers) reported ∧
      (result.taskTimerTimeout = true ↔
        ∃ t ∈ content s.tm.timers, Due (ticks ops + 1) t ∧ IsTask t) := by
  have hticks : ticks (ops ++ [.tick]) = ticks ops + 1 := by simp [ticks_snoc]
  simp only [InRange, hticks, kTaskTimerPeriod, kUnsignedLongMax] at hrange
  have hstop : ∃ t ∈ content s.tm.timers, ¬Due (ticks ops + 1) t := by
    refine ⟨sentinel, h.sentinel_mem, not_le.mpr ?_⟩
    show ticks ops + 1 < 2 ^ 64 - 1
    omega
  have hwrap : ticks ops + 1 + kTaskTimerPeriod < 2 ^ 64 := by
    simp only [kTaskTimerPeriod]
    omega
  have hrounds : Multiset.card ((content s.tm.timers).filter (Due (ticks ops + 1))) <
      size s.tm.timers + 1 := by
    rw [size_eq]
    exact Nat.lt_succ_of_le (Multiset.card_le_card (Multiset.filter_le _ _))
  obtain ⟨timers', result, reported, heq, hticked, hflag⟩ :=
    tickLoop_spec hwrap false hstop hrounds
  have hmod : (s.tm.tick + 1) % 2 ^ 64 = ticks ops + 1 := by
    rw [h.tick]
    exact Nat.mod_eq_of_lt (by omega)
  refine ⟨{ tick := ticks ops + 1, timers := timers' }, result, reported, ?_, rfl, hticked, ?_⟩
  · unfold TimerManager.tickOnce
    simp only [hmod, heq, Option.bind_eq_bind, Option.bind_some]
    rfl
  · simpa using hflag

/-- **`Tick` keeps the invariant.** -/
theorem RunInv.tick_step (h : RunInv ops s) (hrange : InRange (ops ++ [.tick]))
    {tm' : TimerManager Q} {result : TickResult} {reported : List Timer}
    (htick : tm'.tick = ticks ops + 1)
    (hticked : Ticked (ticks ops + 1) (content s.tm.timers) result (content tm'.timers) reported) :
    RunInv (ops ++ [.tick]) { tm := tm', log := s.log ++ [some result] } := by
  have hticks : ticks (ops ++ [.tick]) = ticks ops + 1 := by simp [ticks_snoc]
  simp only [InRange, hticks, kTaskTimerPeriod, kUnsignedLongMax] at hrange
  have hsentinel : ¬Due (ticks ops + 1) sentinel := by
    refine not_le.mpr ?_
    show ticks ops + 1 < 2 ^ 64 - 1
    omega
  refine ⟨htick.trans hticks.symm, ?_, fun pre _ => ?_, by simp [h.length], fun j hj => ?_⟩
  · show (content tm'.timers).filter (¬IsTask ·) = _
    rw [hticked.filter_not_isTask, h.queued,
      Multiset.filter_cons_of_pos (p := fun x => ¬Due (ticks ops + 1) x) _ hsentinel,
      pending_snoc_tick]
    rfl
  · show ∀ t ∈ content tm'.timers, tm'.tick < t.timeout
    rw [htick]
    exact hticked.later
  · rcases Nat.lt_or_ge j ops.length with hlt | hge
    · exact h.sent_snoc _ _ hlt hj
    · have hjl : j = ops.length := by
        have hlt := (List.getElem?_eq_some_iff.mp hj).1
        simp only [List.length_append, List.length_singleton] at hlt
        omega
      subst hjl
      refine ⟨result, ?_, reported, ?_, hticked.sorted, hticked.sent⟩
      · rw [List.getElem?_append_right (by rw [h.length]), h.length]
        simp
      · rw [← Multiset.coe_eq_coe, hticked.reported_eq_filter, h.queued,
          Multiset.filter_cons_of_neg _ hsentinel, firing_snoc_tick]
        rfl

/-! ## The task timer -/

/-- The call registers a task timer. -/
def TimerOp.isTask : TimerOp → Bool
  | .addTimer t => IsTask t
  | .tick => false

/-- The `n`th call of a run registers a task timer with timeout `t₀`, and no other call does. -/
structure SingleTaskTimer (ops : List TimerOp) (n t₀ : Nat) : Prop where
  registered : ops[n]? = some (.addTimer { timeout := t₀, value := kTaskTimerValue })
  single : ∀ j op, ops[j]? = some op → op.isTask = true → j = n
  ahead : ticks (ops.take n) < t₀

/-- The state of the one task timer in a run: `Tick` has returned true exactly at the ticks of its
period, and from its registration on it is queued for the next one. -/
structure TaskInv (n t₀ : Nat) (pre : List TimerOp) (s : TimerRun Q) : Prop where
  before : pre.length ≤ n → (content s.tm.timers).filter IsTask = 0 ∧ ticks pre < t₀
  next : n < pre.length → ∃ m, (content s.tm.timers).filter IsTask =
      {{ timeout := t₀ + m * kTaskTimerPeriod, value := kTaskTimerValue }} ∧
    ticks pre < t₀ + m * kTaskTimerPeriod ∧
    (0 < m → t₀ + m * kTaskTimerPeriod ≤ ticks pre + kTaskTimerPeriod)
  returned : ∀ (j : Nat) (result : TickResult), pre[j]? = some TimerOp.tick →
    s.log[j]? = some (some result) → (result.taskTimerTimeout = true ↔
      ∃ k, tickAt pre j = t₀ + k * kTaskTimerPeriod)

variable {n t₀ : Nat} {pre post : List TimerOp}

/-- Before the task timer is added there is none in the queue. -/
theorem taskInv_init (hops : SingleTaskTimer ops n t₀) :
    TaskInv n t₀ [] (TimerRun.init : TimerRun Q) := by
  refine ⟨fun _ => ⟨?_, Nat.zero_lt_of_lt hops.ahead⟩, fun h => absurd h (Nat.not_lt_zero _),
    fun j result hj => absurd hj (by simp)⟩
  show (content (push empty sentinel)).filter IsTask = 0
  rw [content_push, content_empty]
  rfl

/-- The call at the end of a prefix. -/
private theorem getElem?_of_split (hsplit : pre ++ op :: post = ops) :
    ops[pre.length]? = some op := by
  subst hsplit
  simp

/-- What the log says about earlier calls stays true. -/
private theorem TaskInv.returned_snoc (h : TaskInv n t₀ pre s) (hinv : RunInv pre s)
    {entry : Option TickResult} (hj : j < pre.length) {result : TickResult}
    (hop : (pre ++ [op])[j]? = some .tick) (hlog : (s.log ++ [entry])[j]? = some (some result)) :
    result.taskTimerTimeout = true ↔ ∃ k, tickAt (pre ++ [op]) j = t₀ + k * kTaskTimerPeriod := by
  rw [List.getElem?_append_left hj] at hop
  rw [List.getElem?_append_left (hinv.length ▸ hj)] at hlog
  rw [tickAt_snoc_of_lt hj]
  exact h.returned j result hop hlog

/-- The calls before the last one, and the last one. -/
private theorem lt_or_eq_of_snoc (hop : (pre ++ [op])[j]? = some .tick) :
    j < pre.length ∨ (j = pre.length ∧ op = .tick) := by
  rcases Nat.lt_or_ge j pre.length with hlt | hge
  · exact Or.inl hlt
  · have hlt := (List.getElem?_eq_some_iff.mp hop).1
    simp only [List.length_append, List.length_singleton] at hlt
    have hj : j = pre.length := by omega
    subst hj
    exact Or.inr ⟨rfl, by simpa using hop⟩

/-- **`AddTimer` keeps the invariant of the task timer.** -/
theorem TaskInv.addTimer (h : TaskInv n t₀ pre s) (hinv : RunInv pre s)
    (hops : SingleTaskTimer ops n t₀) (hsplit : pre ++ .addTimer t :: post = ops) :
    TaskInv n t₀ (pre ++ [.addTimer t]) { tm := s.tm.addTimer t, log := s.log ++ [none] } := by
  have hcontent : content (s.tm.addTimer t).timers = t ::ₘ content s.tm.timers := content_push _ _
  have hop := getElem?_of_split hsplit
  have hticks : ticks (pre ++ [.addTimer t]) = ticks pre := by simp [ticks_snoc]
  have hlen : (pre ++ [TimerOp.addTimer t]).length = pre.length + 1 := by simp
  refine ⟨fun hle => ?_, fun hlt => ?_, fun j result hj hlog => ?_⟩
  · rw [hlen] at hle
    have htask : ¬IsTask t := fun htask => by
      have := hops.single _ _ hop (decide_eq_true htask)
      omega
    obtain ⟨hnone, hahead⟩ := h.before (by omega)
    show (content (s.tm.addTimer t).timers).filter IsTask = 0 ∧ _
    rw [hcontent, Multiset.filter_cons_of_neg _ htask, hticks]
    exact ⟨hnone, hahead⟩
  · rw [hlen] at hlt
    show ∃ m, (content (s.tm.addTimer t).timers).filter IsTask = _ ∧ _
    rw [hcontent, hticks]
    by_cases htask : IsTask t
    · have hn : pre.length = n := hops.single _ _ hop (decide_eq_true htask)
      have ht : t = { timeout := t₀, value := kTaskTimerValue } := by
        rw [hn, hops.registered] at hop
        simpa using hop.symm
      obtain ⟨hnone, hahead⟩ := h.before hn.le
      refine ⟨0, ?_, by omega, fun h0 => absurd h0 (lt_irrefl 0)⟩
      rw [Multiset.filter_cons_of_pos _ htask, hnone, ht, Nat.zero_mul, Nat.add_zero]
      rfl
    · have hn : pre.length ≠ n := by
        rintro rfl
        rw [hops.registered] at hop
        cases hop
        exact htask rfl
      rw [Multiset.filter_cons_of_neg _ htask]
      exact h.next (by omega)
  · rcases lt_or_eq_of_snoc hj with hlt | ⟨-, hop⟩
    · exact h.returned_snoc hinv hlt hj hlog
    · cases hop

/-- Before the registration the ticks stay below the timeout. -/
private theorem ticks_lt_of_before (hops : SingleTaskTimer ops n t₀)
    (hsplit : pre ++ .tick :: post = ops) (hlt : pre.length < n) : ticks pre + 1 < t₀ := by
  have hlen : (pre ++ [TimerOp.tick]).length = pre.length + 1 := by simp
  have hticks : ticks (pre ++ [.tick]) = ticks pre + 1 := by simp [ticks_snoc]
  have hpre : pre ++ [.tick] <+: ops.take n :=
    List.prefix_take_iff.mpr ⟨⟨post, by simpa using hsplit⟩, by rw [hlen]; exact hlt⟩
  rw [← hticks]
  exact lt_of_le_of_lt (ticks_mono hpre) hops.ahead

/-- The task timer is due at a tick iff the tick is one of its expiries. -/
private theorem TaskInv.due_iff (h : TaskInv n t₀ pre s) (hn : pre.length ≠ n)
    (hahead : pre.length < n → ticks pre + 1 < t₀) :
    (∃ t ∈ (content s.tm.timers).filter IsTask, Due (ticks pre + 1) t) ↔
      ∃ k, ticks pre + 1 = t₀ + k * kTaskTimerPeriod := by
  rcases Nat.lt_or_ge pre.length n with hlt | hge
  · obtain ⟨hnone, -⟩ := h.before hlt.le
    have := hahead hlt
    rw [hnone]
    constructor
    · rintro ⟨t, ht, -⟩
      exact absurd ht (Multiset.notMem_zero t)
    · rintro ⟨k, hk⟩
      omega
  · obtain ⟨m, hm, hlow, hhigh⟩ := h.next (by omega)
    rw [hm]
    simp only [Multiset.mem_singleton, exists_eq_left]
    constructor
    · intro hdue
      exact ⟨m, by simp only [Due] at hdue; omega⟩
    · rintro ⟨k, hk⟩
      show t₀ + m * kTaskTimerPeriod ≤ ticks pre + 1
      simp only [kTaskTimerPeriod] at *
      omega

/-- **`Tick` keeps the invariant of the task timer.** -/
theorem TaskInv.tick_step (h : TaskInv n t₀ pre s) (hinv : RunInv pre s)
    (hops : SingleTaskTimer ops n t₀) (hsplit : pre ++ .tick :: post = ops)
    {tm' : TimerManager Q} {result : TickResult} {reported : List Timer}
    (hticked : Ticked (ticks pre + 1) (content s.tm.timers) result (content tm'.timers) reported)
    (hflag : result.taskTimerTimeout = true ↔
      ∃ t ∈ content s.tm.timers, Due (ticks pre + 1) t ∧ IsTask t) :
    TaskInv n t₀ (pre ++ [.tick]) { tm := tm', log := s.log ++ [some result] } := by
  have hop := getElem?_of_split hsplit
  have hticks : ticks (pre ++ [.tick]) = ticks pre + 1 := by simp [ticks_snoc]
  have hlen : (pre ++ [TimerOp.tick]).length = pre.length + 1 := by simp
  have hn : pre.length ≠ n := by
    rintro rfl
    rw [hops.registered] at hop
    cases hop
  have hahead : pre.length < n → ticks pre + 1 < t₀ := ticks_lt_of_before hops hsplit
  have hflag' : result.taskTimerTimeout = true ↔
      ∃ t ∈ (content s.tm.timers).filter IsTask, Due (ticks pre + 1) t := by
    rw [hflag]
    constructor
    · rintro ⟨t, ht, hdue, htask⟩
      exact ⟨t, Multiset.mem_filter.mpr ⟨ht, htask⟩, hdue⟩
    · rintro ⟨t, ht, hdue⟩
      obtain ⟨ht, htask⟩ := Multiset.mem_filter.mp ht
      exact ⟨t, ht, hdue, htask⟩
  refine ⟨fun hle => ?_, fun hlt => ?_, fun j result' hj hlog => ?_⟩
  · rw [hlen] at hle
    obtain ⟨hnone, -⟩ := h.before (by omega)
    refine ⟨?_, by rw [hticks]; exact hahead hle⟩
    show (content tm'.timers).filter IsTask = 0
    rw [hticked.filter_isTask, hnone]
    rfl
  · rw [hlen] at hlt
    obtain ⟨m, hm, hlow, hhigh⟩ := h.next (by omega)
    show ∃ m, (content tm'.timers).filter IsTask = _ ∧ _
    rw [hticked.filter_isTask, hm, hticks]
    by_cases hdue : t₀ + m * kTaskTimerPeriod ≤ ticks pre + 1
    · have heq : ticks pre + 1 + kTaskTimerPeriod = t₀ + (m + 1) * kTaskTimerPeriod := by
        rw [Nat.add_mul]
        omega
      refine ⟨m + 1, ?_, ?_, fun _ => heq.ge⟩
      · rw [← heq]
        simp [Multiset.filter_singleton, hdue, not_lt.mpr hdue]
      · rw [← heq]
        exact Nat.lt_add_of_pos_right (by decide)
    · refine ⟨m, ?_, not_le.mp hdue, fun h0 => le_trans (hhigh h0) (by omega)⟩
      simp [Multiset.filter_singleton, hdue]
  · rcases lt_or_eq_of_snoc hj with hlt | ⟨rfl, -⟩
    · exact h.returned_snoc hinv hlt hj hlog
    · have hresult : result' = result := by
        rw [List.getElem?_append_right (by rw [hinv.length]), hinv.length] at hlog
        simpa using hlog.symm
      rw [hresult, hflag', tickAt_snoc_length, hticks]
      exact h.due_iff hn hahead

/-! ## Whole runs -/

/-- A part of a run in range is in range. -/
theorem InRange.of_prefix (h : InRange ops) (hpre : pre <+: ops) : InRange pre :=
  lt_of_le_of_lt (Nat.add_le_add_right (ticks_mono hpre) _) h

/-- Every run in range is defined, and keeps both invariants. -/
theorem run_spec (hrange : InRange ops) :
    ∃ s : TimerRun Q, run TimerRun.step TimerRun.init ops = some s ∧ RunInv ops s ∧
      ∀ n t₀, SingleTaskTimer ops n t₀ → TaskInv n t₀ ops s := by
  refine run_of_prefixes (P := fun pre s => RunInv pre s ∧
    ∀ n t₀, SingleTaskTimer ops n t₀ → TaskInv n t₀ pre s)
    ⟨runInv_init, fun _ _ hops => taskInv_init hops⟩ ops ?_
  rintro pre op post s hsplit ⟨hinv, htask⟩
  cases op with
  | addTimer t =>
      exact ⟨_, rfl, hinv.addTimer t, fun n t₀ hops => (htask n t₀ hops).addTimer hinv hops hsplit⟩
  | tick =>
      have hpre : InRange (pre ++ [.tick]) := hrange.of_prefix ⟨post, by simpa using hsplit⟩
      obtain ⟨tm', result, reported, heq, htick, hticked, hflag⟩ := hinv.tickOnce hpre
      exact ⟨{ tm := tm', log := s.log ++ [some result] }, by simp [TimerRun.step, heq],
        hinv.tick_step hpre htick hticked,
        fun n t₀ hops => (htask n t₀ hops).tick_step hinv hops hsplit hticked hflag⟩

/-- A timer fires at most once. -/
theorem FiresAt.unique {j' : Nat} (h : FiresAt ops i j t) (h' : FiresAt ops i j' t) : j = j' := by
  obtain ⟨hij, hop, hdue, hfirst⟩ := h
  obtain ⟨hij', hop', hdue', hfirst'⟩ := h'
  rcases Nat.lt_trichotomy j j' with hlt | heq | hlt
  · exact absurd hdue (not_le.mpr (hfirst' j hlt hij hop))
  · exact heq
  · exact absurd hdue' (not_le.mpr (hfirst j' hlt hij' hop'))

/-- It fires as soon as a later `Tick` has reached its timeout. -/
theorem exists_firesAt (h : ∃ j, i < j ∧ ops[j]? = some .tick ∧ t.timeout ≤ tickAt ops j) :
    ∃ j, FiresAt ops i j t := by
  classical
  obtain ⟨hlt, hop, hdue⟩ := Nat.find_spec h
  refine ⟨Nat.find h, hlt, hop, hdue, fun k hk hik hopk => ?_⟩
  have hmin := Nat.find_min h hk
  simp only [not_and, not_le] at hmin
  exact hmin hik hopk

/-- **Timers fire exactly once, on time and in order.** As long as `tick_` stays a period below the
largest `unsigned long`, every run of `AddTimer` and `Tick` is defined. Each `Tick` sends to task 1,
in the order of their timeouts, the messages of exactly the timers that fire there, and a timer
that some later `Tick` reaches fires exactly once. After a `Tick` all queued timeouts are ahead,
and the queue never runs empty. If a single task timer is registered, with a timeout ahead of
`tick_`, then `Tick` returns true exactly when the new `tick_` is that timeout or a whole number of
periods later. -/
theorem timers_fire_once (hrange : InRange ops) :
    ∃ s : TimerRun Q, run TimerRun.step TimerRun.init ops = some s ∧ s.tm.tick = ticks ops ∧
      (∀ j, ops[j]? = some .tick → ∃ result : TickResult, s.log[j]? = some (some result) ∧
        result.Reports (firing ops j)) ∧
      (∀ i t, ops[i]? = some (.addTimer t) → ¬IsTask t →
        (∃ j, i < j ∧ ops[j]? = some .tick ∧ t.timeout ≤ tickAt ops j) →
        ∃! j, FiresAt ops i j t) ∧
      (∀ pre, ops = pre ++ [.tick] → ∀ t ∈ content s.tm.timers, s.tm.tick < t.timeout) ∧
      content s.tm.timers ≠ 0 ∧
      ∀ n t₀, SingleTaskTimer ops n t₀ → ∀ (j : Nat) (result : TickResult),
        ops[j]? = some .tick → s.log[j]? = some (some result) →
        (result.taskTimerTimeout = true ↔ ∃ k, tickAt ops j = t₀ + k * kTaskTimerPeriod) := by
  obtain ⟨s, heq, hinv, htask⟩ := run_spec (Q := Q) hrange
  refine ⟨s, heq, hinv.tick, hinv.sent, fun i t _ _ hreach => ?_, hinv.later, fun hempty => ?_,
    fun n t₀ hops => (htask n t₀ hops).returned⟩
  · obtain ⟨j, hj⟩ := exists_firesAt hreach
    exact ⟨j, hj, fun j' hj' => hj'.unique hj⟩
  · have hmem := hinv.sentinel_mem
    rw [hempty] at hmem
    exact absurd hmem (Multiset.notMem_zero _)

/-- Lists as queues of timers, to run the manager on. -/
instance listTimers : PriorityQueue (List Timer) Timer := keyedList Timer.timeout fun _ _ => Iff.rfl

/-- A timer for tick 2, a task timer for tick 1, three ticks, and a timer in the past. -/
def timerOps : List TimerOp :=
  [.addTimer { timeout := 2, value := 7 }, .addTimer { timeout := 1, value := kTaskTimerValue },
    .tick, .tick, .tick, .addTimer { timeout := 1, value := 8 }, .tick]

/-- In the example the timer for tick 2 fires at the second tick, and the one in the past at the
first tick after it was added. -/
theorem timers_fire_once_timerOps :
    ∃ s : TimerRun (List Timer), run TimerRun.step TimerRun.init timerOps = some s ∧
      (∀ j, timerOps[j]? = some .tick → ∃ result : TickResult, s.log[j]? = some (some result) ∧
        result.Reports (firing timerOps j)) ∧
      firing timerOps 3 = [{ timeout := 2, value := 7 }] ∧
      firing timerOps 6 = [{ timeout := 1, value := 8 }] := by
  have hrange : InRange timerOps := by decide
  obtain ⟨s, heq, -, hsent, -⟩ := timers_fire_once (Q := List Timer) hrange
  exact ⟨s, heq, hsent, by decide, by decide⟩

end UhyokOS
