import Mathlib.Logic.Relation
import Mathlib.Data.List.Basic
import Mathlib.Data.List.Nodup
import Mathlib.Data.List.Infix
import Mathlib.Data.List.Perm.Subperm
import Mathlib.Tactic.Common

/-!
# Depth-first traversal of a forest

`next a` are the children of a node, in order. `Traversal next roots l` says that `l` is the
depth-first order of the nodes at or below `roots`: each node, then all that is below it, then the
nodes after it.

* `mem_traversal_iff`: a traversal visits what is reached from the roots.
* `IsPath.unique`: in a forest a node has one path from the roots.
* `nodup_of_traversal`: so it is visited once.
* `exists_traversal`: a finite forest has a traversal.
-/

namespace DepthFirst

open Relation

variable {α : Type*} {next : α → List α} {roots nodes below l p q : List α} {a b d : α}

/-- The depth-first order of the nodes at or below some nodes. -/
inductive Traversal (next : α → List α) : List α → List α → Prop
  | nil : Traversal next [] []
  | cons {a : α} {nodes below after : List α} : Traversal next (next a) below →
      Traversal next nodes after → Traversal next (a :: nodes) (a :: (below ++ after))

/-- The node is one of the roots or below one of them. -/
def Reached (next : α → List α) (roots : List α) (d : α) : Prop :=
  ∃ r ∈ roots, ReflTransGen (fun a b => b ∈ next a) r d

theorem reached_root (h : d ∈ roots) : Reached next roots d := ⟨d, h, .refl⟩

theorem Reached.child (h : Reached next roots a) (hd : d ∈ next a) : Reached next roots d := by
  obtain ⟨r, hr, hpath⟩ := h
  exact ⟨r, hr, hpath.tail hd⟩

/-- What is below a node is the node or below one of its children. -/
theorem reflTransGen_iff :
    ReflTransGen (fun a b => b ∈ next a) a d ↔ d = a ∨ Reached next (next a) d := by
  rw [ReflTransGen.cases_head_iff]
  constructor
  · rintro (rfl | ⟨c, hc, hpath⟩)
    · exact Or.inl rfl
    · exact Or.inr ⟨c, hc, hpath⟩
  · rintro (rfl | ⟨c, hc, hpath⟩)
    · exact Or.inl rfl
    · exact Or.inr ⟨c, hc, hpath⟩

/-- **A traversal visits what is reached.** -/
theorem mem_traversal_iff (h : Traversal next nodes l) : d ∈ l ↔ Reached next nodes d := by
  induction h with
  | nil =>
      refine iff_of_false List.not_mem_nil ?_
      rintro ⟨r, hr, -⟩
      exact List.not_mem_nil hr
  | @cons a nodes below after _ _ ihBelow ihAfter =>
      have hcons : Reached next (a :: nodes) d ↔
          ReflTransGen (fun a b => b ∈ next a) a d ∨ Reached next nodes d := by
        simp only [Reached, List.mem_cons, exists_eq_or_imp]
      rw [hcons, reflTransGen_iff, List.mem_cons, List.mem_append, ihBelow, ihAfter, or_assoc]

/-! ## Forests -/

/-- No two nodes that are reached have a child in common, none has a root as a child, and none has a
child twice. -/
structure IsForest (next : α → List α) (roots : List α) : Prop where
  roots_nodup : roots.Nodup
  next_nodup : ∀ a, Reached next roots a → (next a).Nodup
  root : ∀ a, Reached next roots a → ∀ r ∈ roots, r ∉ next a
  parent : ∀ a b d, Reached next roots a → Reached next roots b → d ∈ next a → d ∈ next b → a = b

/-- A path from a root, the last node first. -/
inductive IsPath (next : α → List α) (roots : List α) : List α → Prop
  | root {r : α} : r ∈ roots → IsPath next roots [r]
  | child {a d : α} {p : List α} : IsPath next roots (a :: p) → d ∈ next a →
      IsPath next roots (d :: a :: p)

theorem IsPath.reached (h : IsPath next roots (a :: p)) : Reached next roots a := by
  induction p generalizing a with
  | nil =>
      cases h with
      | root hr => exact reached_root hr
  | cons b p ih =>
      cases h with
      | child hpath hd => exact (ih hpath).child hd

/-- **A node has one path.** -/
theorem IsPath.unique (hf : IsForest next roots) (hp : IsPath next roots (d :: p))
    (hq : IsPath next roots (d :: q)) : p = q := by
  induction p generalizing d q with
  | nil =>
      cases hp with
      | root hr =>
          cases hq with
          | root _ => rfl
          | child hpath hd => exact absurd hd (hf.root _ hpath.reached _ hr)
  | cons a p ih =>
      cases hp with
      | child hpath hd =>
          cases hq with
          | root hr => exact absurd hd (hf.root _ hpath.reached _ hr)
          | @child b _ q hpath' hd' =>
              obtain rfl : a = b := hf.parent a b d hpath.reached hpath'.reached hd hd'
              rw [ih hpath hpath']

/-- What is left of a path is a path. -/
theorem IsPath.of_suffix (h : IsPath next roots p) (hsuffix : (a :: q) <:+ p) :
    IsPath next roots (a :: q) := by
  induction h with
  | root hr =>
      rcases List.suffix_cons_iff.mp hsuffix with heq | hnil
      · rw [heq]
        exact .root hr
      · exact absurd (List.suffix_nil.mp hnil) (List.cons_ne_nil _ _)
  | child hpath hd ih =>
      rcases List.suffix_cons_iff.mp hsuffix with heq | hrest
      · rw [heq]
        exact .child hpath hd
      · exact ih hrest

/-- A path in a forest visits no node twice. -/
theorem IsPath.nodup (hf : IsForest next roots) (h : IsPath next roots p) : p.Nodup := by
  induction h with
  | root _ => exact List.nodup_singleton _
  | @child a d p hpath hd ih =>
      refine List.nodup_cons.mpr ⟨fun hmem => ?_, ih⟩
      -- the second visit would have the same path as the first
      obtain ⟨p₁, p₂, hsplit⟩ := List.append_of_mem hmem
      have hpath' : IsPath next roots (d :: p₂) := hpath.of_suffix ⟨p₁, hsplit.symm⟩
      have hlen := congrArg List.length (IsPath.unique hf (hpath.child hd) hpath')
      have hlen' := congrArg List.length hsplit
      simp only [List.length_cons, List.length_append] at hlen hlen'
      omega

/-! ## Traversals of a forest -/

/-- A node that is visited has a path through one of the nodes at which the traversal began. -/
theorem exists_path_of_mem (h : Traversal next nodes l)
    (hnodes : ∀ a ∈ nodes, IsPath next roots (a :: p)) (hd : d ∈ l) :
    ∃ a ∈ nodes, ∃ q, IsPath next roots (d :: q) ∧ (a :: p) <:+ (d :: q) := by
  induction h generalizing p with
  | nil => exact absurd hd List.not_mem_nil
  | @cons a nodes below after _ _ ihBelow ihAfter =>
      have hpath := hnodes a List.mem_cons_self
      rcases List.mem_cons.mp hd with rfl | hd
      · exact ⟨d, List.mem_cons_self, p, hpath, List.suffix_rfl⟩
      · rcases List.mem_append.mp hd with hd | hd
        · obtain ⟨c, -, q, hq, hsuffix⟩ := ihBelow (fun c hc => hpath.child hc) hd
          exact ⟨a, List.mem_cons_self, q, hq, (List.suffix_cons c (a :: p)).trans hsuffix⟩
        · obtain ⟨b, hb, q, hq, hsuffix⟩ :=
            ihAfter (fun b hb => hnodes b (List.mem_cons_of_mem _ hb)) hd
          exact ⟨b, List.mem_cons_of_mem _ hb, q, hq, hsuffix⟩

/-- Two nodes after the same path are the same if both are on one path. -/
theorem eq_of_suffix (ha : (a :: p) <:+ q) (hb : (b :: p) <:+ q) : a = b := by
  have hsuffix := List.suffix_of_suffix_length_le ha hb (Nat.le_refl _)
  exact (List.cons.inj (hsuffix.eq_of_length rfl)).1

/-- **No node is visited twice.** -/
theorem nodup_of_traversal (hf : IsForest next roots) (h : Traversal next nodes l)
    (hnodup : nodes.Nodup) (hnodes : ∀ a ∈ nodes, IsPath next roots (a :: p)) : l.Nodup := by
  induction h generalizing p with
  | nil => exact List.nodup_nil
  | @cons a nodes below after hbelow hafter ihBelow ihAfter =>
      have hpath := hnodes a List.mem_cons_self
      obtain ⟨hnotMem, hnodup⟩ := List.nodup_cons.mp hnodup
      have hchildren : ∀ c ∈ next a, IsPath next roots (c :: a :: p) := fun c hc => hpath.child hc
      have hothers : ∀ b ∈ nodes, IsPath next roots (b :: p) := fun b hb =>
        hnodes b (List.mem_cons_of_mem _ hb)
      have hthrough : ∀ d ∈ below, ∃ q, IsPath next roots (d :: q) ∧ (a :: p) <:+ q := by
        intro d hd
        obtain ⟨c, -, q, hq, hsuffix⟩ := exists_path_of_mem hbelow hchildren hd
        rcases List.suffix_cons_iff.mp hsuffix with heq | hrest
        · exact ⟨q, hq, by rw [← (List.cons.inj heq).2]⟩
        · exact ⟨q, hq, (List.suffix_cons c (a :: p)).trans hrest⟩
      refine List.nodup_cons.mpr ⟨fun hmem => ?_, List.nodup_append.mpr
        ⟨ihBelow (hf.next_nodup a hpath.reached) hchildren, ihAfter hnodup hothers, ?_⟩⟩
      · rcases List.mem_append.mp hmem with hmem | hmem
        · obtain ⟨q, hq, hsuffix⟩ := hthrough a hmem
          rw [← IsPath.unique hf hpath hq] at hsuffix
          have hlen := hsuffix.length_le
          rw [List.length_cons] at hlen
          omega
        · obtain ⟨b, hb, q, hq, hsuffix⟩ := exists_path_of_mem hafter hothers hmem
          rw [← IsPath.unique hf hpath hq] at hsuffix
          rw [eq_of_suffix hsuffix List.suffix_rfl] at hb
          exact hnotMem hb
      · intro d hd d' hd' heq
        subst heq
        obtain ⟨q, hq, hsuffix⟩ := hthrough d hd
        obtain ⟨b, hb, q', hq', hsuffix'⟩ := exists_path_of_mem hafter hothers hd'
        rw [← IsPath.unique hf hq hq'] at hsuffix'
        rw [eq_of_suffix hsuffix' (hsuffix.trans (List.suffix_cons d q))] at hb
        exact hnotMem hb

theorem exists_traversal_of_forall (h : ∀ a ∈ nodes, ∃ below, Traversal next (next a) below) :
    ∃ l, Traversal next nodes l := by
  induction nodes with
  | nil => exact ⟨[], .nil⟩
  | cons a nodes ih =>
      obtain ⟨below, hbelow⟩ := h a List.mem_cons_self
      obtain ⟨after, hafter⟩ := ih fun b hb => h b (List.mem_cons_of_mem _ hb)
      exact ⟨a :: (below ++ after), .cons hbelow hafter⟩

/-- There is a traversal below every node, by induction on how much longer its path can get. -/
private theorem exists_below (hf : IsForest next roots) (hfinite : ∀ a, Reached next roots a → a ∈ l)
    (k : ℕ) : ∀ {a : α} {p : List α}, IsPath next roots (a :: p) → l.length ≤ p.length + k →
      ∃ below, Traversal next (next a) below := by
  induction k with
  | zero =>
      intro a p hpath hlen
      have hsubset : (a :: p) ⊆ l := by
        intro b hb
        obtain ⟨p₁, p₂, hsplit⟩ := List.append_of_mem hb
        exact hfinite b (hpath.of_suffix ⟨p₁, hsplit.symm⟩).reached
      have hle := (List.subperm_of_subset (hpath.nodup hf) hsubset).length_le
      rw [List.length_cons] at hle
      omega
  | succ k ih =>
      intro a p hpath hlen
      refine exists_traversal_of_forall fun c hc => ih (hpath.child hc) ?_
      rw [List.length_cons]
      omega

/-- **A finite forest has a traversal**, and it visits every node that is reached once. -/
theorem exists_traversal (hf : IsForest next roots) (hfinite : ∀ a, Reached next roots a → a ∈ l) :
    ∃ visited, Traversal next roots visited ∧ visited.Nodup ∧ visited.length ≤ l.length := by
  have hroots : ∀ a ∈ roots, IsPath next roots [a] := fun a ha => .root ha
  obtain ⟨visited, h⟩ := exists_traversal_of_forall fun a ha =>
    exists_below hf hfinite l.length (hroots a ha) (Nat.le_add_left _ _)
  have hnodup := nodup_of_traversal hf h hf.roots_nodup hroots
  have hsubset : visited ⊆ l := fun d hd => hfinite d ((mem_traversal_iff h).mp hd)
  exact ⟨visited, h, hnodup, (List.subperm_of_subset hnodup hsubset).length_le⟩

end DepthFirst
