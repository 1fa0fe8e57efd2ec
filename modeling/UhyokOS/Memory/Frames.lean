import UhyokOS.Memory.Bitmap
import UhyokOS.Lib.Ownership
import UhyokOS.Lib.Transition

/-!
# Runs of the frame allocator

`Allocate` and `Free` in any order, from any bitmap, with a ghost list of the blocks that are out.
A block is freed only while it is out.

* `framesInv_preserved`: the ghost list keeps the books of the bitmap in the sense of
  `Ownership.Owned`.
* `frames_never_shared`: no frame is ever handed out twice, and the bitmap says exactly which
  frames are taken.
-/

namespace UhyokOS

open Transition Ownership

/-- The allocator and the blocks `(start_frame, num_frames)` it has handed out. -/
structure FrameRun where
  /-- `*memory_manager` -/
  mm : BitmapMemoryManager
  /-- The blocks that are out. -/
  outstanding : List (Nat × Nat) := []

/-- The calls of the allocator's users. -/
inductive FrameOp
  | allocate (numFrames : Nat)
  | free (startFrame numFrames : Nat)

/-- The frames of a block. -/
def blockFrames (b : Nat × Nat) : Set Nat := BitmapMemoryManager.frames b.1 b.2

/-- One call. A block enters the list when `Allocate` succeeds and leaves it when it is freed. -/
def FrameRun.step (s : FrameRun) : FrameOp → Option FrameRun
  | .allocate numFrames => do
      let (mm, frame, error) ← s.mm.allocate numFrames
      if error = .kSuccess then
        return { mm := mm, outstanding := (frame, numFrames) :: s.outstanding }
      return { s with mm := mm }
  | .free startFrame numFrames => do
      let (mm, _) ← s.mm.free startFrame numFrames
      return { mm := mm, outstanding := s.outstanding.erase (startFrame, numFrames) }

/-- Only a block that is out is freed. -/
def FrameOp.Permitted (s : FrameRun) : FrameOp → Prop
  | .allocate _ => True
  | .free startFrame numFrames => (startFrame, numFrames) ∈ s.outstanding

instance FrameOp.decidablePermitted (s : FrameRun) (op : FrameOp) : Decidable (op.Permitted s) := by
  unfold FrameOp.Permitted
  split <;> infer_instance

/-- The states an allocator reaches from its state `mm₀`. -/
abbrev FrameRun.Reachable (mm₀ : BitmapMemoryManager) (s : FrameRun) : Prop :=
  Transition.Reachable FrameRun.step (fun s op => op.Permitted s) { mm := mm₀ } s

/-- The range is the one of the start, the list keeps the books, and every block is in the range. -/
structure FramesInv (mm₀ : BitmapMemoryManager) (s : FrameRun) : Prop where
  range : BitmapMemoryManager.SameRange mm₀ s.mm
  owned : Owned blockFrames mm₀.used s.mm.used s.outstanding
  within : ∀ b ∈ s.outstanding, blockFrames b ⊆ Set.Ico mm₀.rangeBegin mm₀.rangeEnd

theorem framesInv_init (mm₀ : BitmapMemoryManager) : FramesInv mm₀ { mm := mm₀ } :=
  ⟨⟨rfl, rfl⟩, .nil, fun _ hb => absurd hb List.not_mem_nil⟩

namespace FramesInv

variable {mm₀ : BitmapMemoryManager} {s : FrameRun}

/-- Allocation takes a block of unused frames of the range, or fails and changes nothing. -/
theorem allocate (h : FramesInv mm₀ s) (hend : mm₀.rangeEnd ≤ kFrameCount) (n : Nat) :
    ∃ s', s.step (.allocate n) = some s' ∧ FramesInv mm₀ s' := by
  have hend' : s.mm.rangeEnd ≤ kFrameCount := h.range.rangeEnd.symm ▸ hend
  obtain ⟨r, heq, halloc⟩ := BitmapMemoryManager.allocate_spec hend' n
  cases halloc with
  | @success mm' start ge fits first same used =>
      have hdisj : Disjoint s.mm.used (blockFrames (start, n)) := by
        rw [Set.disjoint_right]
        rintro f ⟨hge, hlt⟩
        have := (fits (f - start) (by simp only at hge hlt; omega)).2
        rwa [Nat.add_sub_cancel' hge] at this
      refine ⟨{ mm := mm', outstanding := (start, n) :: s.outstanding },
        by simp [FrameRun.step, heq], h.range.trans same, ?_, ?_⟩
      · show Owned blockFrames mm₀.used mm'.used ((start, n) :: s.outstanding)
        rw [used]
        exact h.owned.take hdisj
      · rintro b hb
        rcases List.mem_cons.mp hb with rfl | hb
        · rintro f ⟨hge, hlt⟩
          simp only at hge hlt
          have := (fits (f - start) (by omega)).1
          rw [Nat.add_sub_cancel' hge, h.range.rangeEnd] at this
          rw [h.range.rangeBegin] at ge
          exact ⟨le_trans ge hge, this⟩
        · exact h.within b hb
  | failure none =>
      exact ⟨s, by simp [FrameRun.step, heq], h⟩

/-- A block that is out can be freed. -/
theorem free (h : FramesInv mm₀ s) (hend : mm₀.rangeEnd ≤ kFrameCount) {start n : Nat}
    (hb : (start, n) ∈ s.outstanding) :
    ∃ s', s.step (.free start n) = some s' ∧ FramesInv mm₀ s' := by
  have hbound : ∀ k < n, start + k < kFrameCount := by
    intro k hk
    have hmem : start + k ∈ blockFrames (start, n) := ⟨Nat.le_add_right _ _, by simp only; omega⟩
    exact lt_of_lt_of_le (h.within _ hb hmem).2 hend
  obtain ⟨mm', heq, hsame, hused⟩ := s.mm.free_spec hbound
  refine ⟨{ mm := mm', outstanding := s.outstanding.erase (start, n) },
    by simp [FrameRun.step, heq], h.range.trans hsame, ?_,
    fun b hb' => h.within b (List.mem_of_mem_erase hb')⟩
  show Owned blockFrames mm₀.used mm'.used (s.outstanding.erase (start, n))
  rw [hused]
  exact h.owned.give hb

end FramesInv

/-- **The step lemma.** -/
theorem framesInv_preserved {mm₀ : BitmapMemoryManager} (hend : mm₀.rangeEnd ≤ kFrameCount) :
    Preserves FrameRun.step (fun s op => op.Permitted s) (FramesInv mm₀) := by
  intro s op h hop
  cases op with
  | allocate n => exact h.allocate hend n
  | free start n => exact h.free hend hop

/-- **Frames are never handed out twice.** From every bitmap whose range the bitmap covers, in
every state reached: the blocks that are out are pairwise disjoint, lie in the range and contain no
frame that was taken at the start; the set bits are exactly the frames taken at the start and the
frames of these blocks; every permitted call is defined; and a call of `Allocate` that does not
succeed changes no bit and returns `kNullFrame` with `kNoEnoughMemory`. -/
theorem frames_never_shared {mm₀ : BitmapMemoryManager} (hend : mm₀.rangeEnd ≤ kFrameCount)
    {s : FrameRun} (hr : s.Reachable mm₀) :
    (s.outstanding.Pairwise fun b c => Disjoint (blockFrames b) (blockFrames c)) ∧
      (∀ b ∈ s.outstanding, blockFrames b ⊆ Set.Ico mm₀.rangeBegin mm₀.rangeEnd ∧
        Disjoint mm₀.used (blockFrames b)) ∧
      s.mm.used = mm₀.used ∪ {f | ∃ b ∈ s.outstanding, f ∈ blockFrames b} ∧
      (∀ op : FrameOp, op.Permitted s → ∃ s', s.step op = some s') ∧
      ∀ n mm' frame error, s.mm.allocate n = some (mm', frame, error) → error ≠ .kSuccess →
        mm' = s.mm ∧ frame = kNullFrame ∧ error = .kNoEnoughMemory := by
  have h := hr.invariant (framesInv_init mm₀) (framesInv_preserved hend)
  refine ⟨h.owned.disjoint, fun b hb => ⟨h.within b hb, h.owned.fresh b hb⟩, h.owned.used_eq,
    fun op hop => ?_, fun n mm' frame error heq hne => ?_⟩
  · obtain ⟨s', heq, -⟩ := hr.defined (framesInv_init mm₀) (framesInv_preserved hend) hop
    exact ⟨s', heq⟩
  · have hend' : s.mm.rangeEnd ≤ kFrameCount := h.range.rangeEnd.symm ▸ hend
    obtain ⟨r, hr, halloc⟩ := BitmapMemoryManager.allocate_spec hend' n
    rw [heq] at hr
    cases hr
    cases halloc with
    | success => exact absurd rfl hne
    | failure => exact ⟨rfl, rfl, rfl⟩

/-- A range of five frames with the third taken: two frames, two more, one back, and one again. -/
def frameRun : List FrameOp := [.allocate 2, .allocate 2, .free 1 2, .allocate 1]

/-- The bitmap before `frameRun`: frame 3 is taken. -/
def frameStart : BitmapMemoryManager where
  allocMap := fun i => if i = 0 then 8#64 else 0#64
  rangeBegin := 1
  rangeEnd := 6

/-- The state after `frameRun`. -/
def frameEnd : FrameRun :=
  (runPermitted FrameRun.step (fun s op => op.Permitted s) { mm := frameStart } frameRun).get
    (by decide)

theorem frames_never_shared_frameEnd :
    frameEnd.outstanding = [(1, 1), (4, 2)] ∧
      (frameEnd.outstanding.Pairwise fun b c => Disjoint (blockFrames b) (blockFrames c)) := by
  have hr : frameEnd.Reachable frameStart :=
    Reachable.of_runPermitted .init (Option.some_get _).symm
  exact ⟨by decide, (frames_never_shared (by decide) hr).1⟩

end UhyokOS
