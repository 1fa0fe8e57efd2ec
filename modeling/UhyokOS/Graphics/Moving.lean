import UhyokOS.Graphics.Window
import UhyokOS.Lib.Transition

/-!
# Moving pixels

The model of `FrameBuffer::Move` and `Window::Move`, which scroll a part of a picture. The rows are
copied in the order that keeps a row from being overwritten before it is read, so the result is the
picture before the call, moved (`move_spec`). Within a row `memcpy` must not be given overlapping
memory; the functions are undefined (`none`) if it is.

A window keeps its pixels twice, and `Window::Move` moves those of the shadow buffer only.

* `move_spec`: what a move does to the pixels of a buffer.
* `move_exact_iff`: the one case where it does not do it.
* `synced_move_iff`: when the two copies of a window's pixels agree after a move.
* `stores_agree_iff`: hence when they agree throughout a run of writes and moves.
-/

namespace UhyokOS

open FrameBufferConfig Transition

namespace FrameBuffer

variable {config : FrameBufferConfig}

/-! ## The two loops -/

/-- `memcpy` from one place of a buffer to another. -/
def memcpyWithin (fb : FrameBuffer config) (dstBuf srcBuf n : Int) : Option (FrameBuffer config) :=
  if 0 < n ∧ dstBuf < srcBuf + n ∧ srcBuf < dstBuf + n then none else fb.memcpy dstBuf fb srcBuf n

/-- The loop over the rows that are left, `step` leading from an address to the next row.
Source: `kernel/frame_buffer.cpp`, `FrameBuffer::Move` -/
def moveRows (width step : Int) :
    Nat → Int → Int → FrameBuffer config → Option (FrameBuffer config)
  | 0, _, _, fb => some fb
  | rows + 1, dstBuf, srcBuf, fb =>
      (fb.memcpyWithin dstBuf srcBuf width).bind
        (moveRows width step rows (dstBuf + step) (srcBuf + step))

/-- Source: `kernel/frame_buffer.cpp`, `FrameBuffer::Move` -/
def move (fb : FrameBuffer config) (dstPos : Vector2D) (src : Rectangle) :
    Option (FrameBuffer config) :=
  if dstPos.y < src.pos.y then
    moveRows src.size.x config.pixelsPerScanLine src.size.y.toNat (frameAddrAt dstPos config)
      (frameAddrAt src.pos config) fb
  else
    moveRows src.size.x (-config.pixelsPerScanLine) src.size.y.toNat
      (frameAddrAt (dstPos + ⟨0, src.size.y - 1⟩) config)
      (frameAddrAt (src.pos + ⟨0, src.size.y - 1⟩) config) fb

/-! ## What a move does -/

/-- The pixels of a row are not moved onto pixels of the same row that are read in the same call of
`memcpy`. -/
def RowsApart (dstPos : Vector2D) (src : Rectangle) : Prop :=
  0 < src.size.x → 0 < src.size.y → dstPos.y = src.pos.y →
    dstPos.x + src.size.x ≤ src.pos.x ∨ src.pos.x + src.size.x ≤ dstPos.x

/-- The address of a pixel in the next row, upwards or downwards. -/
theorem frameAddrAt_add_rows (p : Vector2D) (dir : Int) :
    frameAddrAt p config + dir * config.pixelsPerScanLine = frameAddrAt (p + ⟨0, dir⟩) config := by
  unfold frameAddrAt
  simp only [Vector2D.add_x, Vector2D.add_y]
  ring

/-- One row of `Move`, the source and the destination being apart. -/
theorem memcpyWithin_spec (fb : FrameBuffer config) {d s : Vector2D} {n : Int} (hn : 0 ≤ n)
    (hdx : 0 ≤ d.x) (hdn : d.x + n ≤ config.horizontalResolution) (hdy : 0 ≤ d.y)
    (hdh : d.y < config.verticalResolution) (hsx : 0 ≤ s.x)
    (hsn : s.x + n ≤ config.horizontalResolution) (hsy : 0 ≤ s.y)
    (hsh : s.y < config.verticalResolution)
    (hapart : 0 < n → d.y = s.y → d.x + n ≤ s.x ∨ s.x + n ≤ d.x) :
    ∃ fb', fb.memcpyWithin (frameAddrAt d config) (frameAddrAt s config) n = some fb' ∧
      ∀ p, config.outline.Contains p → fb'.pixel p =
        if p.y = d.y ∧ d.x ≤ p.x ∧ p.x < d.x + n then fb.pixel (s + (p - d)) else fb.pixel p := by
  have hdisjoint : ¬(0 < n ∧ frameAddrAt d config < frameAddrAt s config + n ∧
      frameAddrAt s config < frameAddrAt d config + n) := by
    rintro ⟨hpos, hleft, hright⟩
    have hstride := config.stride
    -- the end of a stretch is still in its row, so stretches of two rows are apart
    rcases Int.lt_trichotomy d.y s.y with hy | hy | hy
    · have hlt : frameAddrAt (d + ⟨n - 1, 0⟩) config < frameAddrAt s config := by
        apply frameAddrAt_lt
        · simp only [Vector2D.add_x]
          omega
        · exact hsx
        · simp only [Vector2D.add_y]
          omega
      unfold frameAddrAt at hlt hright
      simp only [Vector2D.add_x, Vector2D.add_y, Int.add_zero] at hlt
      omega
    · have hrow := hapart hpos hy
      unfold frameAddrAt at hleft hright
      rw [hy] at hleft hright
      omega
    · have hlt : frameAddrAt (s + ⟨n - 1, 0⟩) config < frameAddrAt d config := by
        apply frameAddrAt_lt
        · simp only [Vector2D.add_x]
          omega
        · exact hdx
        · simp only [Vector2D.add_y]
          omega
      unfold frameAddrAt at hlt hleft
      simp only [Vector2D.add_x, Vector2D.add_y, Int.add_zero] at hlt
      omega
  unfold memcpyWithin
  rw [if_neg hdisjoint]
  exact memcpy_spec fb fb hn hdx hdn hdy hdh hsx hsn hsy hsh

/-- The pixel is in one of `rows` rows of `n` pixels, the first at `d`, the others in direction
`dir`. -/
def InRows (d : Vector2D) (n dir : Int) (rows : Nat) (p : Vector2D) : Prop :=
  d.x ≤ p.x ∧ p.x < d.x + n ∧ 0 ≤ dir * (p.y - d.y) ∧ dir * (p.y - d.y) < rows

/-- The first row of a loop and the rows after it. -/
theorem inRows_succ {d p : Vector2D} {n dir : Int} (hdir : dir = 1 ∨ dir = -1) {rows : Nat} :
    InRows d n dir (rows + 1) p ↔
      InRows (d + ⟨0, dir⟩) n dir rows p ∨ (p.y = d.y ∧ d.x ≤ p.x ∧ p.x < d.x + n) := by
  unfold InRows
  simp only [Vector2D.add_x, Vector2D.add_y]
  rcases hdir with rfl | rfl
  · omega
  · omega

/-- A pixel of a later row comes from a row of the source. -/
theorem contains_source_of_later {d s p : Vector2D} {n dir : Int} {rows : Nat}
    (hsign : dir = 1 ∨ dir = -1) (hsx : 0 ≤ s.x) (hsn : s.x + n ≤ config.horizontalResolution)
    (hs : ∀ k : Nat, k < rows + 1 →
      0 ≤ s.y + dir * k ∧ s.y + dir * k < config.verticalResolution)
    (hlater : InRows (d + ⟨0, dir⟩) n dir rows p) : config.outline.Contains (s + (p - d)) := by
  obtain ⟨hx₀, hx₁, hy₀, hy₁⟩ := hlater
  simp only [Vector2D.add_x, Vector2D.add_y] at hx₀ hx₁ hy₀ hy₁
  obtain ⟨k, hk⟩ : ∃ k : Nat, p.y - d.y = dir * k ∧ k < rows + 1 := by
    refine ⟨(dir * (p.y - d.y)).toNat, ?_⟩
    rcases hsign with rfl | rfl <;> omega
  have hsk := hs k hk.2
  refine ⟨?_, ?_, ?_, ?_⟩ <;>
    simp only [outline, frameBufferSize, Vector2D.add_x, Vector2D.add_y, Vector2D.sub_x,
      Vector2D.sub_y] <;>
    omega

/-- It is not in the row that is written before: the loop leads away from the source. -/
theorem not_written_of_later {d s p : Vector2D} {n dir : Int} {rows : Nat}
    (hdir : (dir = 1 ∧ d.y < s.y) ∨ (dir = -1 ∧ s.y ≤ d.y))
    (hlater : InRows (d + ⟨0, dir⟩) n dir rows p) :
    ¬((s + (p - d)).y = d.y ∧ d.x ≤ (s + (p - d)).x ∧ (s + (p - d)).x < d.x + n) := by
  obtain ⟨-, -, hy₀, -⟩ := hlater
  simp only [Vector2D.add_y] at hy₀
  simp only [Vector2D.add_y, Vector2D.sub_y]
  rcases hdir with ⟨rfl, hlt⟩ | ⟨rfl, hle⟩ <;> omega

/-- **The loops of `Move`**, by induction on the rows left. The loop leads away from the source, so a
row is read before it is overwritten. -/
theorem moveRows_spec {n : Int} (dir : Int) (hn : 0 ≤ n) (rows : Nat) {d s : Vector2D}
    (fb : FrameBuffer config) (hdx : 0 ≤ d.x) (hdn : d.x + n ≤ config.horizontalResolution)
    (hd : ∀ k : Nat, k < rows → 0 ≤ d.y + dir * k ∧ d.y + dir * k < config.verticalResolution)
    (hsx : 0 ≤ s.x) (hsn : s.x + n ≤ config.horizontalResolution)
    (hs : ∀ k : Nat, k < rows → 0 ≤ s.y + dir * k ∧ s.y + dir * k < config.verticalResolution)
    (hdir : (dir = 1 ∧ d.y < s.y) ∨ (dir = -1 ∧ s.y ≤ d.y))
    (hapart : 0 < n → 0 < rows → d.y = s.y → d.x + n ≤ s.x ∨ s.x + n ≤ d.x) :
    ∃ fb', moveRows n (dir * config.pixelsPerScanLine) rows (frameAddrAt d config)
        (frameAddrAt s config) fb = some fb' ∧
      ∀ p, config.outline.Contains p →
        (InRows d n dir rows p → fb'.pixel p = fb.pixel (s + (p - d))) ∧
          (¬InRows d n dir rows p → fb'.pixel p = fb.pixel p) := by
  have hsign : dir = 1 ∨ dir = -1 := hdir.imp And.left And.left
  induction rows generalizing d s fb with
  | zero =>
      refine ⟨fb, rfl, fun p _ => ⟨fun hin => ?_, fun _ => rfl⟩⟩
      unfold InRows at hin
      omega
  | succ rows ih =>
      obtain ⟨hdy, hdh⟩ := hd 0 rows.succ_pos
      obtain ⟨hsy, hsh⟩ := hs 0 rows.succ_pos
      simp only [Int.natCast_zero, Int.mul_zero, Int.add_zero] at hdy hdh hsy hsh
      obtain ⟨fb₁, hrow, hpixel₁⟩ := fb.memcpyWithin_spec hn hdx hdn hdy hdh hsx hsn hsy hsh
        fun hpos => hapart hpos rows.succ_pos
      have hnext : ∀ q : Vector2D,
          (∀ k : Nat, k < rows + 1 → 0 ≤ q.y + dir * k ∧ q.y + dir * k < config.verticalResolution) →
          ∀ k : Nat, k < rows → 0 ≤ (q + ⟨0, dir⟩).y + dir * k ∧
            (q + ⟨0, dir⟩).y + dir * k < config.verticalResolution := by
        intro q hq k hk
        have hk' := hq (k + 1) (by omega)
        rw [Int.natCast_succ, Int.mul_add, Int.mul_one] at hk'
        simp only [Vector2D.add_y]
        omega
      have hdx' : (d + ⟨0, dir⟩).x = d.x := by simp
      have hsx' : (s + ⟨0, dir⟩).x = s.x := by simp
      obtain ⟨fb', hrest, hpixel⟩ := ih (d := d + ⟨0, dir⟩) (s := s + ⟨0, dir⟩) fb₁
        (by omega) (by omega) (hnext d hd) (by omega) (by omega) (hnext s hs)
        (by simp only [Vector2D.add_y]; omega)
        (by simp only [Vector2D.add_y]; intro hpos _ heq; have := hapart hpos; omega)
      refine ⟨fb', ?_, fun p hp => ?_⟩
      · rw [moveRows, hrow, Option.bind_some, frameAddrAt_add_rows, frameAddrAt_add_rows]
        exact hrest
      · obtain ⟨hin, hout⟩ := hpixel p hp
        rw [Vector2D.add_add_sub_add] at hin
        rw [inRows_succ hsign]
        by_cases hlater : InRows (d + ⟨0, dir⟩) n dir rows p
        · refine ⟨fun _ => ?_, fun hnot => absurd (Or.inl hlater) hnot⟩
          -- the pixel that is read later is in none of the rows written so far
          have hsource := contains_source_of_later hsign hsx hsn hs hlater
          rw [hin hlater, hpixel₁ _ hsource, if_neg (not_written_of_later hdir hlater)]
        · rw [hout hlater, hpixel₁ p hp]
          refine ⟨fun h => if_pos (h.resolve_left hlater), fun h => if_neg fun hrow => ?_⟩
          exact h (Or.inr hrow)

/-- **`Move` moves the picture.** -/
theorem move_spec (fb : FrameBuffer config) {dstPos : Vector2D} {src : Rectangle}
    (hsrc : src.Proper) (hin : src.Within config.outline)
    (hdst : (⟨dstPos, src.size⟩ : Rectangle).Within config.outline)
    (hapart : RowsApart dstPos src) :
    ∃ fb', fb.move dstPos src = some fb' ∧ ∀ p, config.outline.Contains p → fb'.pixel p =
      if (⟨dstPos, src.size⟩ : Rectangle).Contains p then fb.pixel (src.pos + (p - dstPos))
      else fb.pixel p := by
  obtain ⟨hwidth, hheight⟩ := hsrc
  obtain ⟨hsx, hsn, hsy, hsh⟩ := hin
  obtain ⟨hdx, hdn, hdy, hdh⟩ := hdst
  simp only [outline, frameBufferSize, Int.zero_add] at hsx hsn hsy hsh hdx hdn hdy hdh
  have hrows : (src.size.y.toNat : Int) = src.size.y := Int.toNat_of_nonneg hheight
  have hresult : ∀ {fb' : FrameBuffer config} {p : Vector2D} {q : Prop},
      ((⟨dstPos, src.size⟩ : Rectangle).Contains p ↔ q) →
      (q → fb'.pixel p = fb.pixel (src.pos + (p - dstPos))) ∧ (¬q → fb'.pixel p = fb.pixel p) →
      fb'.pixel p = if (⟨dstPos, src.size⟩ : Rectangle).Contains p then
        fb.pixel (src.pos + (p - dstPos)) else fb.pixel p := by
    intro fb' p q hq hpixel
    obtain ⟨hyes, hno⟩ := hpixel
    by_cases hp : (⟨dstPos, src.size⟩ : Rectangle).Contains p
    · rw [if_pos hp, hyes (hq.mp hp)]
    · rw [if_neg hp, hno fun h => hp (hq.mpr h)]
  unfold move
  split_ifs with hup
  · -- the first row goes first
    obtain ⟨fb', hmove, hpixel⟩ := moveRows_spec 1 hwidth src.size.y.toNat (d := dstPos) (s := src.pos)
      fb hdx hdn (by omega) hsx hsn (by omega) (Or.inl ⟨rfl, hup⟩) (by omega)
    rw [Int.one_mul] at hmove
    refine ⟨fb', hmove, fun p hp => hresult ?_ (hpixel p hp)⟩
    unfold InRows Rectangle.Contains
    simp only
    omega
  · -- the last row goes first
    obtain ⟨fb', hmove, hpixel⟩ := moveRows_spec (-1) hwidth src.size.y.toNat
      (d := dstPos + ⟨0, src.size.y - 1⟩) (s := src.pos + ⟨0, src.size.y - 1⟩) fb
      (by simp only [Vector2D.add_x]; omega) (by simp only [Vector2D.add_x]; omega)
      (by simp only [Vector2D.add_y]; omega) (by simp only [Vector2D.add_x]; omega)
      (by simp only [Vector2D.add_x]; omega) (by simp only [Vector2D.add_y]; omega)
      (Or.inr ⟨rfl, by simp only [Vector2D.add_y]; omega⟩) (by
        intro hpos hpos' heq
        simp only [Vector2D.add_y] at heq
        have hsides := hapart hpos (by omega) (by omega)
        simp only [Vector2D.add_x]
        omega)
    rw [Int.neg_one_mul] at hmove
    refine ⟨fb', hmove, fun p hp => hresult ?_ (Vector2D.add_add_sub_add src.pos dstPos _ p ▸
      hpixel p hp)⟩
    unfold InRows Rectangle.Contains
    simp only [Vector2D.add_x, Vector2D.add_y]
    omega

/-- A row that is moved onto pixels of its own is undefined. -/
theorem move_eq_none (fb : FrameBuffer config) {dstPos : Vector2D} {src : Rectangle}
    (hapart : ¬RowsApart dstPos src) : fb.move dstPos src = none := by
  unfold RowsApart at hapart
  simp only [Classical.not_imp, not_or, not_le] at hapart
  obtain ⟨hwidth, hheight, hrow, hleft, hright⟩ := hapart
  obtain ⟨rows, hrows⟩ : ∃ rows, src.size.y.toNat = rows + 1 :=
    Nat.exists_eq_add_one.mpr (by omega)
  have hoverlap : 0 < src.size.x ∧
      frameAddrAt (dstPos + ⟨0, src.size.y - 1⟩) config <
        frameAddrAt (src.pos + ⟨0, src.size.y - 1⟩) config + src.size.x ∧
      frameAddrAt (src.pos + ⟨0, src.size.y - 1⟩) config <
        frameAddrAt (dstPos + ⟨0, src.size.y - 1⟩) config + src.size.x := by
    unfold frameAddrAt
    simp only [Vector2D.add_x, Vector2D.add_y, hrow]
    omega
  unfold move
  rw [if_neg (by omega), hrows, moveRows]
  unfold memcpyWithin
  rw [if_pos hoverlap, Option.bind_none]

/-- The call is defined, `memcpy` among the rest, and leaves what a copy by way of a temporary picture
would leave. -/
def MovesExactly (fb : FrameBuffer config) (dstPos : Vector2D) (src : Rectangle) : Prop :=
  ∃ fb', fb.move dstPos src = some fb' ∧
    (∀ p, (⟨dstPos, src.size⟩ : Rectangle).Contains p →
      fb'.pixel p = fb.pixel (src.pos + (p - dstPos))) ∧
    ∀ p, config.outline.Contains p → ¬(⟨dstPos, src.size⟩ : Rectangle).Contains p →
      fb'.pixel p = fb.pixel p

/-- **`Move` is a copy by way of a temporary picture, exactly** unless a row is moved onto pixels of
its own. -/
theorem move_exact_iff (fb : FrameBuffer config) {dstPos : Vector2D} {src : Rectangle}
    (hsrc : src.Proper) (hin : src.Within config.outline)
    (hdst : (⟨dstPos, src.size⟩ : Rectangle).Within config.outline) :
    fb.MovesExactly dstPos src ↔ RowsApart dstPos src := by
  constructor
  · rintro ⟨fb', hmove, -⟩
    by_contra hapart
    rw [move_eq_none fb hapart] at hmove
    cases hmove
  · intro hapart
    obtain ⟨fb', hmove, hpixel⟩ := fb.move_spec hsrc hin hdst hapart
    refine ⟨fb', hmove, fun p hp => ?_, fun p hp hnot => ?_⟩
    · rw [hpixel p (hdst.contains hp), if_pos hp]
    · rw [hpixel p hp, if_neg hnot]

/-- A row of three pixels. -/
def rowOfThree : FrameBuffer (ownMemory 3 1 .kPixelRGBResv8BitPerColor) := zeros _

/-- Its first two pixels go to the right by one. -/
theorem move_exact_iff_rowOfThree : ¬rowOfThree.MovesExactly ⟨1, 0⟩ ⟨⟨0, 0⟩, ⟨2, 1⟩⟩ := by
  intro hmoves
  have hapart := (move_exact_iff rowOfThree (by decide) (by decide) (by decide)).mp hmoves
  rcases hapart (by decide) (by decide) rfl with h | h
  · exact absurd h (by decide)
  · exact absurd h (by decide)

/-- **`memcpy` is given overlapping memory** when a rectangle is moved within its rows. -/
theorem move_overlaps : ¬∀ (config : FrameBufferConfig) (fb : FrameBuffer config)
    (dstPos : Vector2D) (src : Rectangle), src.Proper → src.Within config.outline →
      (⟨dstPos, src.size⟩ : Rectangle).Within config.outline → fb.MovesExactly dstPos src := by
  intro hall
  obtain ⟨fb', hmove, -⟩ := hall _ rowOfThree ⟨1, 0⟩ ⟨⟨0, 0⟩, ⟨2, 1⟩⟩ (by decide) (by decide)
    (by decide)
  rw [move_eq_none] at hmove
  · cases hmove
  · intro hapart
    have hsides := hapart (by decide) (by decide) rfl
    exact absurd hsides (by decide)

end FrameBuffer

/-! ## Windows -/

namespace Window

/-- Source: `kernel/window.cpp`, `Window::Move` -/
def move (w : Window) (dstPos : Vector2D) (src : Rectangle) : Option Window :=
  (w.shadowBuffer.move dstPos src).map fun shadow => { w with shadowBuffer := shadow }

variable {w w' : Window} {dstPos : Vector2D} {src : Rectangle}

/-- Both rectangles lie in the window. -/
structure MoveInBounds (w : Window) (dstPos : Vector2D) (src : Rectangle) : Prop where
  proper : src.Proper
  source : src.Within w.bounds
  destination : (⟨dstPos, src.size⟩ : Rectangle).Within w.bounds

/-- Every pixel is moved onto a pixel that has its colour already. -/
def MovesOntoEqual (w : Window) (dstPos : Vector2D) (src : Rectangle) : Prop :=
  ∀ p, (⟨dstPos, src.size⟩ : Rectangle).Contains p →
    w.atPos (src.pos + (p - dstPos)) = w.atPos p

/-- A pixel that is read lies in the source rectangle. -/
theorem contains_source {p : Vector2D} (hin : src.Within w.bounds)
    (hp : (⟨dstPos, src.size⟩ : Rectangle).Contains p) :
    w.bounds.Contains (src.pos + (p - dstPos)) := by
  apply hin.contains
  unfold Rectangle.Contains at hp ⊢
  simp only [Vector2D.add_x, Vector2D.add_y, Vector2D.sub_x, Vector2D.sub_y] at hp ⊢
  omega

theorem move_spec (hin : w.MoveInBounds dstPos src) (hapart : FrameBuffer.RowsApart dstPos src) :
    ∃ w', w.move dstPos src = some w' ∧ SameFrame w w' ∧ w'.data = w.data ∧
      ∀ d, w.bounds.Contains d → w'.shadowBuffer.pixel d =
        if (⟨dstPos, src.size⟩ : Rectangle).Contains d then
          w.shadowBuffer.pixel (src.pos + (d - dstPos))
        else w.shadowBuffer.pixel d := by
  obtain ⟨shadow, hshadow, hpixel⟩ :=
    w.shadowBuffer.move_spec hin.proper hin.source hin.destination hapart
  unfold move
  rw [hshadow]
  exact ⟨_, rfl, ⟨rfl, rfl, rfl, rfl, rfl⟩, rfl, hpixel⟩

/-- **When the two copies agree after a move.** -/
theorem synced_move_iff (hsynced : w.Synced) (hin : w.MoveInBounds dstPos src) :
    (∃ w', w.move dstPos src = some w' ∧ w'.Synced) ↔
      FrameBuffer.RowsApart dstPos src ∧ w.MovesOntoEqual dstPos src := by
  by_cases hapart : FrameBuffer.RowsApart dstPos src
  · obtain ⟨w', hmove, hframe, hdata, hpixel⟩ := move_spec hin hapart
    have hat : ∀ d, w'.atPos d = w.atPos d := fun d => congrFun hdata d
    constructor
    · rintro ⟨w'', hmove', hsynced'⟩
      rw [hmove] at hmove'
      cases hmove'
      refine ⟨hapart, fun p hp => ?_⟩
      have hbounds : w.bounds.Contains p := hin.destination.contains hp
      have hsame := hsynced' p (hframe.bounds ▸ hbounds)
      rw [hpixel p hbounds, if_pos hp, hsynced _ (contains_source hin.source hp), hat] at hsame
      exact hsame
    · rintro ⟨-, hequal⟩
      refine ⟨w', hmove, fun d hd => ?_⟩
      rw [hframe.bounds] at hd
      rw [hpixel d hd, hat]
      split_ifs with hp
      · rw [hsynced _ (contains_source hin.source hp)]
        exact hequal d hp
      · exact hsynced d hd
  · refine iff_of_false ?_ fun h => hapart h.1
    rintro ⟨w', hmove, -⟩
    unfold move at hmove
    rw [FrameBuffer.move_eq_none _ hapart] at hmove
    cases hmove

end Window

/-! ## Runs -/

/-- The calls that change a window's pixels. Every writer of a window calls `Window::Write`. -/
inductive WindowOp
  | write (pos : Vector2D) (c : PixelColor)
  | move (dstPos : Vector2D) (src : Rectangle)

/-- One call. -/
def Window.step (w : Window) : WindowOp → Option Window
  | .write pos c => w.write pos c
  | .move dstPos src => w.move dstPos src

/-- The call stays inside the window. -/
def WindowOp.InBounds (w : Window) : WindowOp → Prop
  | .write pos _ => w.bounds.Contains pos
  | .move dstPos src => w.MoveInBounds dstPos src

instance WindowOp.decidableInBounds (w : Window) : (op : WindowOp) → Decidable (op.InBounds w)
  | .write pos _ => inferInstanceAs (Decidable (w.bounds.Contains pos))
  | .move dstPos src =>
      decidable_of_iff
        (src.Proper ∧ src.Within w.bounds ∧ (⟨dstPos, src.size⟩ : Rectangle).Within w.bounds)
        ⟨fun ⟨hp, hs, hd⟩ => ⟨hp, hs, hd⟩, fun ⟨hp, hs, hd⟩ => ⟨hp, hs, hd⟩⟩

/-- Not a move that changes the picture, and none onto pixels of a row that it has yet to read. -/
def WindowOp.KeepsPicture (w : Window) : WindowOp → Prop
  | .write _ _ => True
  | .move dstPos src => FrameBuffer.RowsApart dstPos src ∧ w.MovesOntoEqual dstPos src

/-- **One call is exact.** -/
theorem Window.synced_step_iff {w : Window} {op : WindowOp} (hsynced : w.Synced)
    (hin : op.InBounds w) : (∃ w', w.step op = some w' ∧ w'.Synced) ↔ op.KeepsPicture w := by
  cases op with
  | write pos c =>
      refine iff_of_true ?_ trivial
      obtain ⟨w', hwrite, -, -⟩ := w.write_spec hin c
      refine ⟨w', hwrite, ?_⟩
      have hcalls : w.writeAll [(pos, c)] = some w' := by simp [Window.writeAll, hwrite]
      exact hsynced.writeAll hcalls
  | move dstPos src => exact Window.synced_move_iff hsynced hin

/-- **The two stores of a window, exactly.** In every run of writes and moves inside a new window,
each call is defined and leaves `data_` and the shadow buffer with the same colour at every position
iff each move of the run only moves pixels onto pixels of their own colour, and none within a row
onto pixels it has yet to read. -/
theorem stores_agree_iff {width height : Nat} {format : PixelFormat} {ops : List WindowOp}
    (hin : Admits Window.step (fun w op => op.InBounds w) (.new width height format) ops) :
    (∀ pre, pre <+: ops → ∃ w, run Window.step (.new width height format) pre = some w ∧ w.Synced) ↔
      Admits Window.step (fun w op => op.KeepsPicture w) (.new width height format) ops := by
  refine forall_prefix_defined_iff_admits ?_ (Window.synced_new width height format) hin
  intro w op hsynced hop
  exact Window.synced_step_iff hsynced hop

/-- A white pixel is scrolled up by a row. -/
def scrollPixel : List WindowOp :=
  [.write ⟨0, 1⟩ ⟨255, 255, 255⟩, .move ⟨0, 0⟩ ⟨⟨0, 1⟩, ⟨1, 1⟩⟩]

/-- A window of two pixels. -/
def twoPixels : Window := .new 1 2 .kPixelRGBResv8BitPerColor

theorem scrollPixel_inBounds :
    Admits Window.step (fun w op => op.InBounds w) twoPixels scrollPixel := by decide

/-- The upper pixel is white in the shadow buffer and black in `data_`. -/
theorem not_synced_scrollPixel : ¬∀ pre, pre <+: scrollPixel →
    ∃ w, run Window.step twoPixels pre = some w ∧ w.Synced := by
  intro hall
  obtain ⟨w, hrun, hsynced⟩ := hall scrollPixel List.prefix_rfl
  have hcolors : ∀ w ∈ run Window.step twoPixels scrollPixel, w.bounds.Contains ⟨0, 0⟩ ∧
      w.shadowBuffer.pixel ⟨0, 0⟩ ≠ w.atPos ⟨0, 0⟩ := by decide
  obtain ⟨hin, hne⟩ := hcolors w hrun
  exact hne (hsynced ⟨0, 0⟩ hin)

/-- The run does not meet the condition. -/
theorem stores_agree_iff_scrollPixel :
    ¬Admits Window.step (fun w op => op.KeepsPicture w) twoPixels scrollPixel := by
  intro hadm
  exact not_synced_scrollPixel ((stores_agree_iff scrollPixel_inBounds).mpr hadm)

/-- **`Window::Move` does not move `data_`.** -/
theorem stores_diverge :
    ¬∀ (width height : Nat) (format : PixelFormat) (ops : List WindowOp),
      Admits Window.step (fun w op => op.InBounds w) (.new width height format) ops →
        ∀ pre, pre <+: ops → ∃ w,
          run Window.step (.new width height format) pre = some w ∧ w.Synced := by
  intro hall
  exact not_synced_scrollPixel (hall 1 2 .kPixelRGBResv8BitPerColor scrollPixel scrollPixel_inBounds)

end UhyokOS
