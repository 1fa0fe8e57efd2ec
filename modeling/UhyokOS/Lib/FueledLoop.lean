import Mathlib.Logic.Relation
import Mathlib.Tactic.Common

/-!
# Loops with fuel

A program that may loop is a function of its fuel with values in `Except`. It returns a value if some
fuel is enough for it (`Returns`), and then with any fuel that is enough (`Enough`). A failure and a
run that never ends both return nothing.

* `returns_bind_iff`: the rule of a sequence.
* `returns_loop_iff`: a loop returns what the body returns at the end of a path of iterations. The
  body may itself contain loops, with the same fuel.
* `forM_eq_ok_iff` and `exists_foldlM_eq_ok_iff`: the rules of a loop over a list.
* `reflTransGen_or_iff`: the paths of nested loops, as paths of one relation.
-/

namespace FueledLoop

open Relation

universe u

variable {ε : Type*} {α β σ : Type u}

/-- With more fuel a program returns the same. -/
def Grows (f : Nat → Except ε α) : Prop :=
  ∀ ⦃n m : Nat⦄ ⦃a : α⦄, n ≤ m → f n = .ok a → f m = .ok a

/-- Some fuel is enough to return `a`. -/
def Returns (f : Nat → Except ε α) (a : α) : Prop := ∃ n, f n = .ok a

/-- The fuel is enough: more of it makes no difference. -/
def Enough (f : Nat → Except ε α) (n : Nat) : Prop := ∀ m, n ≤ m → f m = f n

/-- Repeat `body`, which yields the next state or leaves the loop. -/
def loop (timeout : ε) (body : σ → Except ε (σ ⊕ β)) : Nat → σ → Except ε β
  | 0, _ => .error timeout
  | fuel + 1, s =>
      body s >>= fun
        | .inl s' => loop timeout body fuel s'
        | .inr b => .ok b

/-! ## Sequences -/

theorem bind_eq_ok_iff {x : Except ε α} {f : α → Except ε β} {b : β} :
    x >>= f = .ok b ↔ ∃ a, x = .ok a ∧ f a = .ok b := by
  rcases x with e | a
  · exact iff_of_false (fun h => nomatch h) fun ⟨_, h, _⟩ => nomatch h
  · refine ⟨fun h => ⟨a, rfl, h⟩, ?_⟩
    rintro ⟨a', h, hf⟩
    cases h
    exact hf

theorem grows_const (x : Except ε α) : Grows fun _ => x := fun _ _ _ _ h => h

theorem returns_const_iff {x : Except ε α} {a : α} : Returns (fun _ => x) a ↔ x = .ok a :=
  ⟨fun ⟨_, h⟩ => h, fun h => ⟨0, h⟩⟩

variable {f : Nat → Except ε α}

/-- The fuel of a program that has returned is enough. -/
theorem Grows.enough (hf : Grows f) {n : Nat} {a : α} (h : f n = .ok a) : Enough f n :=
  fun _ hm => (hf hm h).trans h.symm

/-- With enough fuel a program returns what it returns. -/
theorem Enough.eq_ok {n : Nat} (h : Enough f n) (hf : Grows f) {a : α} (hreturns : Returns f a) :
    f n = .ok a := by
  obtain ⟨m, hm⟩ := hreturns
  rw [← h (max n m) (Nat.le_max_left n m)]
  exact hf (Nat.le_max_right n m) hm

theorem Grows.bind {g : α → Nat → Except ε β} (hf : Grows f) (hg : ∀ a, Grows (g a)) :
    Grows fun n => f n >>= fun a => g a n := by
  intro n m b hnm h
  obtain ⟨a, ha, hb⟩ := bind_eq_ok_iff.mp h
  exact bind_eq_ok_iff.mpr ⟨a, hf hnm ha, hg a hnm hb⟩

/-- A program that fails with much fuel returns nothing. -/
theorem Grows.not_returns (hf : Grows f) {e : ε} (k : Nat) (h : ∀ n, f (n + k) = .error e) {a : α} :
    ¬Returns f a := by
  rintro ⟨n, hn⟩
  have hok := hf (Nat.le_add_right n k) hn
  rw [h n] at hok
  cases hok

/-- **The rule of a sequence**: both parts return. -/
theorem returns_bind_iff {g : α → Nat → Except ε β} (hf : Grows f) (hg : ∀ a, Grows (g a))
    {b : β} : Returns (fun n => f n >>= fun a => g a n) b ↔
      ∃ a, Returns f a ∧ Returns (g a) b := by
  constructor
  · rintro ⟨n, h⟩
    obtain ⟨a, ha, hb⟩ := bind_eq_ok_iff.mp h
    exact ⟨a, ⟨n, ha⟩, ⟨n, hb⟩⟩
  · rintro ⟨a, ⟨n, ha⟩, ⟨m, hb⟩⟩
    exact ⟨max n m, bind_eq_ok_iff.mpr ⟨a, hf (Nat.le_max_left n m) ha, hg a (Nat.le_max_right n m) hb⟩⟩

/-! ## Loops -/

variable {timeout : ε} {body : Nat → σ → Except ε (σ ⊕ β)}

/-- A loop with more fuel, at both places, returns the same. -/
theorem loop_grows (hbody : ∀ s, Grows fun n => body n s) {n m fuel fuel' : Nat} {s : σ} {b : β}
    (hnm : n ≤ m) (hle : fuel ≤ fuel') (h : loop timeout (body n) fuel s = .ok b) :
    loop timeout (body m) fuel' s = .ok b := by
  induction fuel generalizing fuel' s with
  | zero => cases h
  | succ fuel ih =>
      obtain ⟨fuel', rfl⟩ := Nat.exists_eq_succ_of_ne_zero (Nat.ne_zero_of_lt hle)
      obtain ⟨next, hnext, h⟩ := bind_eq_ok_iff.mp h
      refine bind_eq_ok_iff.mpr ⟨next, hbody s hnm hnext, ?_⟩
      rcases next with s' | b'
      · exact ih (Nat.le_of_succ_le_succ hle) h
      · exact h

theorem Grows.loop (hbody : ∀ s, Grows fun n => body n s) (s : σ) :
    Grows fun n => loop timeout (body n) n s :=
  fun _ _ _ hnm h => loop_grows hbody hnm hnm h

/-- **The rule of a loop**: it returns what the body returns at the end of a path of iterations. -/
theorem returns_loop_iff (hbody : ∀ s, Grows fun n => body n s) {s : σ} {b : β} :
    Returns (fun n => loop timeout (body n) n s) b ↔
      ∃ s', ReflTransGen (fun s s' => Returns (fun n => body n s) (.inl s')) s s' ∧
        Returns (fun n => body n s') (.inr b) := by
  constructor
  · rintro ⟨n, h⟩
    have key : ∀ (fuel : Nat) (s : σ), loop timeout (body n) fuel s = .ok b →
        ∃ s', ReflTransGen (fun s s' => Returns (fun n => body n s) (.inl s')) s s' ∧
          Returns (fun n => body n s') (.inr b) := by
      intro fuel
      induction fuel with
      | zero => exact fun _ h => nomatch h
      | succ fuel ih =>
          intro s h
          obtain ⟨next, hnext, h⟩ := bind_eq_ok_iff.mp h
          rcases next with s₁ | b'
          · obtain ⟨s', hpath, hend⟩ := ih s₁ h
            exact ⟨s', hpath.head ⟨n, hnext⟩, hend⟩
          · cases h
            exact ⟨s, .refl, n, hnext⟩
    exact key n s h
  · rintro ⟨s', hpath, hend⟩
    induction hpath using ReflTransGen.head_induction_on with
    | refl =>
        obtain ⟨n, hn⟩ := hend
        exact ⟨n + 1, bind_eq_ok_iff.mpr ⟨_, hbody s' (Nat.le_succ n) hn, rfl⟩⟩
    | head hstep _ ih =>
        -- the iteration and the rest of the loop may need different fuel
        obtain ⟨n, hn⟩ := hstep
        obtain ⟨m, hm⟩ := ih
        exact ⟨max n m + 1, bind_eq_ok_iff.mpr
          ⟨_, hbody _ (by omega) hn, loop_grows hbody (by omega) (Nat.le_max_right n m) hm⟩⟩

/-- A loop whose body needs no fuel. -/
theorem returns_loop_const_iff {body : σ → Except ε (σ ⊕ β)} {s : σ} {b : β} :
    Returns (fun n => loop timeout body n s) b ↔
      ∃ s', ReflTransGen (fun s s' => body s = .ok (.inl s')) s s' ∧ body s' = .ok (.inr b) := by
  have hbody : ∀ s, Grows fun _ : Nat => body s := fun s => grows_const (body s)
  have h : Returns (fun n => loop timeout body n s) b ↔ _ := returns_loop_iff hbody
  simpa only [returns_const_iff] using h

/-! ## Loops over a list -/

/-- A loop over a list succeeds iff every step does. -/
theorem forM_eq_ok_iff {l : List α} {f : α → Except ε PUnit} :
    l.forM f = .ok ⟨⟩ ↔ ∀ a ∈ l, f a = .ok ⟨⟩ := by
  induction l with
  | nil => exact iff_of_true rfl fun a ha => absurd ha List.not_mem_nil
  | cons a l ih =>
      show (f a >>= fun _ => l.forM f) = _ ↔ _
      rw [bind_eq_ok_iff, List.forall_mem_cons, ← ih]
      exact ⟨fun ⟨_, ha, hl⟩ => ⟨ha, hl⟩, fun ⟨ha, hl⟩ => ⟨⟨⟩, ha, hl⟩⟩

/-- A fold whose steps succeed or fail whatever the state is. -/
theorem exists_foldlM_eq_ok_iff {f : σ → α → Except ε σ} {P : α → Prop}
    (hf : ∀ s a, (∃ s', f s a = .ok s') ↔ P a) {l : List α} {s : σ} :
    (∃ s', l.foldlM f s = .ok s') ↔ ∀ a ∈ l, P a := by
  induction l generalizing s with
  | nil => exact iff_of_true ⟨s, rfl⟩ fun a ha => absurd ha List.not_mem_nil
  | cons a l ih =>
      simp only [List.foldlM_cons, bind_eq_ok_iff, List.forall_mem_cons]
      constructor
      · rintro ⟨s'', s', hs', hl⟩
        exact ⟨(hf s a).mp ⟨s', hs'⟩, ih.mp ⟨s'', hl⟩⟩
      · rintro ⟨ha, hl⟩
        obtain ⟨s', hs'⟩ := (hf s a).mpr ha
        obtain ⟨s'', hs''⟩ := ih.mpr hl
        exact ⟨s'', s', hs', hs''⟩

/-! ## Nested paths -/

/-- A path of steps in `r` or `q` is a path of `r`-paths that each end in a step in `q`, and an
`r`-path behind it. -/
theorem reflTransGen_or_iff {r q : α → α → Prop} {a c : α} :
    ReflTransGen (fun a b => r a b ∨ q a b) a c ↔
      ∃ b, ReflTransGen (fun a b => ∃ m, ReflTransGen r a m ∧ q m b) a b ∧ ReflTransGen r b c := by
  constructor
  · intro h
    induction h with
    | refl => exact ⟨a, .refl, .refl⟩
    | tail _ hstep ih =>
        obtain ⟨b, houter, hinner⟩ := ih
        rcases hstep with hr | hq
        · exact ⟨b, houter, hinner.tail hr⟩
        · exact ⟨_, houter.tail ⟨_, hinner, hq⟩, .refl⟩
  · rintro ⟨b, houter, hinner⟩
    have hlift : ∀ {a b : α}, ReflTransGen r a b → ReflTransGen (fun a b => r a b ∨ q a b) a b :=
      fun h => ReflTransGen.mono (fun _ _ => Or.inl) _ _ h
    refine ReflTransGen.trans ?_ (hlift hinner)
    clear hinner
    induction houter with
    | refl => exact .refl
    | tail _ hstep ih =>
        obtain ⟨m, hm, hq⟩ := hstep
        exact (ih.trans (hlift hm)).tail (Or.inr hq)

end FueledLoop
