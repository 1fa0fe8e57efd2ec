import Mathlib.Data.Set.Lattice
import Mathlib.Data.List.Perm.Basic
import Mathlib.Order.CompletePartialOrder

/-!
# Ownership of sets

An allocator hands out blocks of resources and takes them back. `Owned initial used blocks` is what
an allocator must maintain, whatever it allocates: the blocks handed out are pairwise disjoint and
disjoint from the resources that were taken from the start, and together with these they are
exactly what is in use.

* `Owned.take`: handing out a block of unused resources keeps this.
* `Owned.give`: so does taking back a block that is out.
-/

namespace Ownership

variable {α β : Type*}

/-- The books of an allocator. -/
structure Owned (extent : β → Set α) (initial used : Set α) (blocks : List β) : Prop where
  /-- What is in use was in use from the start or belongs to a block that is out. -/
  used_eq : used = initial ∪ {a | ∃ b ∈ blocks, a ∈ extent b}
  /-- No resource belongs to two blocks. -/
  disjoint : blocks.Pairwise fun b c => Disjoint (extent b) (extent c)
  /-- No block contains what was in use from the start. -/
  fresh : ∀ b ∈ blocks, Disjoint initial (extent b)

namespace Owned

variable {extent : β → Set α} {initial used : Set α} {blocks rest : List β} {b : β}

/-- At the start nothing has been handed out. -/
theorem nil : Owned extent initial initial [] := ⟨by simp, .nil, by simp⟩

/-- What was used at the start is used for good. -/
theorem initial_subset (h : Owned extent initial used blocks) : initial ⊆ used := by
  rw [h.used_eq]
  exact Set.subset_union_left

/-- What has been handed out is in use. -/
theorem extent_subset (h : Owned extent initial used blocks) (hb : b ∈ blocks) :
    extent b ⊆ used := by
  rw [h.used_eq]
  exact fun a ha => Or.inr ⟨b, hb, ha⟩

/-- The order of the blocks does not matter. -/
theorem perm {blocks' : List β} (h : Owned extent initial used blocks)
    (hperm : blocks.Perm blocks') : Owned extent initial used blocks' := by
  refine ⟨?_, ?_, fun b hb => h.fresh b (hperm.mem_iff.mpr hb)⟩
  · rw [h.used_eq]
    simp only [hperm.mem_iff]
  · exact (hperm.pairwise_iff fun hbc => hbc.symm).mp h.disjoint

/-- Handing out a block of unused resources. -/
theorem take (h : Owned extent initial used blocks) (hb : Disjoint used (extent b)) :
    Owned extent initial (used ∪ extent b) (b :: blocks) := by
  refine ⟨?_, ?_, ?_⟩
  · ext a
    rw [h.used_eq]
    simp only [Set.mem_union, Set.mem_ofPred_eq, List.mem_cons, exists_eq_or_imp]
    exact or_assoc.trans (or_congr_right or_comm)
  · exact List.pairwise_cons.mpr ⟨fun c hc => (hb.mono_left (h.extent_subset hc)).symm, h.disjoint⟩
  · rintro c hc
    rcases List.mem_cons.mp hc with rfl | hc
    · exact hb.mono_left h.initial_subset
    · exact h.fresh c hc

/-- Taking back the block at the head. -/
theorem give_head (h : Owned extent initial used (b :: rest)) :
    Owned extent initial (used \ extent b) rest := by
  obtain ⟨hhead, htail⟩ := List.pairwise_cons.mp h.disjoint
  refine ⟨?_, htail, fun c hc => h.fresh c (List.mem_cons_of_mem b hc)⟩
  ext a
  rw [h.used_eq]
  simp only [Set.mem_sdiff, Set.mem_union, Set.mem_ofPred_eq, List.mem_cons, exists_eq_or_imp]
  constructor
  · rintro ⟨hin | hin | hin, hout⟩
    · exact Or.inl hin
    · exact absurd hin hout
    · exact Or.inr hin
  · rintro (hin | ⟨c, hc, hin⟩)
    · exact ⟨Or.inl hin, Set.disjoint_left.mp (h.fresh b List.mem_cons_self) hin⟩
    · exact ⟨Or.inr (Or.inr ⟨c, hc, hin⟩), Set.disjoint_right.mp (hhead c hc) hin⟩

/-- Taking back any block that is out. -/
theorem give [BEq β] [LawfulBEq β] (h : Owned extent initial used blocks) (hb : b ∈ blocks) :
    Owned extent initial (used \ extent b) (blocks.erase b) :=
  (h.perm (List.perm_cons_erase hb)).give_head

end Owned

end Ownership
