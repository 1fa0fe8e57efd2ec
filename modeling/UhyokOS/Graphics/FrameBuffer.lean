import UhyokOS.Error
import UhyokOS.Graphics.Geometry
import Mathlib.Tactic.Ring

/-!
# Frame buffers

The model of class `FrameBuffer`. Both pixel formats take four bytes a pixel and `Copy` refuses two
different ones, so the memory is modelled in pixels: an address counts the pixels from
`frame_buffer`. An access outside the memory, a negative length of `memcpy` included, is undefined
(`none`).

* `copy_spec`: between buffers of one format, `Copy` of an area of non-negative size is defined and
  copies exactly the pixels of the area that both buffers have; `copy_exact` adds the rest of the
  memory and the buffers of different formats.
* `write_spec`: a pixel writer changes the pixel it is given and no other.
-/

namespace UhyokOS

/-- Source: `kernel/frame_buffer_config.hpp`, `PixelFormat` -/
inductive PixelFormat
  | kPixelRGBResv8BitPerColor
  | kPixelBGRResv8BitPerColor
  deriving DecidableEq

/-- Source: `kernel/frame_buffer_config.hpp`, `FrameBufferConfig` -/
structure FrameBufferConfig where
  pixelsPerScanLine : Nat
  horizontalResolution : Nat
  verticalResolution : Nat
  pixelFormat : PixelFormat
  /-- A scan line has room for a row of pixels. -/
  stride : horizontalResolution ≤ pixelsPerScanLine

/-- Source: `kernel/frame_buffer.cpp`, `BytesPerPixel` -/
def bytesPerPixel : PixelFormat → Int
  | .kPixelRGBResv8BitPerColor => 4
  | .kPixelBGRResv8BitPerColor => 4

namespace FrameBufferConfig

/-- Source: `kernel/frame_buffer.cpp`, `FrameBufferSize` -/
def frameBufferSize (config : FrameBufferConfig) : Vector2D :=
  ⟨config.horizontalResolution, config.verticalResolution⟩

/-- The address of a pixel.
Source: `kernel/frame_buffer.cpp`, `FrameAddrAt` -/
def frameAddrAt (pos : Vector2D) (config : FrameBufferConfig) : Int :=
  config.pixelsPerScanLine * pos.y + pos.x

/-- The number of pixels in the memory. -/
def memorySize (config : FrameBufferConfig) : Int :=
  config.pixelsPerScanLine * config.verticalResolution

/-- The rectangle of all pixels. -/
def outline (config : FrameBufferConfig) : Rectangle := ⟨⟨0, 0⟩, config.frameBufferSize⟩

/-- The configuration of a buffer that allocates its own memory.
Source: `kernel/frame_buffer.cpp`, `FrameBuffer::Initialize` -/
def ownMemory (width height : Nat) (format : PixelFormat) : FrameBufferConfig where
  pixelsPerScanLine := width
  horizontalResolution := width
  verticalResolution := height
  pixelFormat := format
  stride := Nat.le_refl width

theorem proper_outline (config : FrameBufferConfig) : config.outline.Proper :=
  ⟨Int.natCast_nonneg _, Int.natCast_nonneg _⟩

end FrameBufferConfig

open FrameBufferConfig

/-- A frame buffer of a configuration; `buffer` is the pixel at each address.
Source: `kernel/frame_buffer.hpp`, `FrameBuffer` -/
structure FrameBuffer (config : FrameBufferConfig) where
  buffer : Int → PixelColor

namespace FrameBuffer

variable {config srcConfig : FrameBufferConfig}

/-- A buffer with its own memory, which `resize` fills with zeros.
Source: `kernel/frame_buffer.cpp`, `FrameBuffer::Initialize` -/
def zeros (config : FrameBufferConfig) : FrameBuffer config := ⟨fun _ => ⟨0, 0, 0⟩⟩

/-- The pixel at a position. -/
def pixel (fb : FrameBuffer config) (p : Vector2D) : PixelColor :=
  fb.buffer (frameAddrAt p config)

/-- The writers of the two formats differ in the order of the bytes of a pixel.
Source: `kernel/graphics.cpp`, `RGBResv8BitPerColorPixelWriter::Write` and
`BGRResv8BitPerColorPixelWriter::Write` -/
def write (fb : FrameBuffer config) (pos : Vector2D) (c : PixelColor) :
    Option (FrameBuffer config) :=
  let p := frameAddrAt pos config
  if 0 ≤ p ∧ p < config.memorySize then some ⟨fun i => if i = p then c else fb.buffer i⟩
  else none

/-- `memcpy(dst_buf, src_buf, bytes_per_pixel * n)`, inside both memories. -/
def memcpy (dst : FrameBuffer config) (dstBuf : Int) (src : FrameBuffer srcConfig)
    (srcBuf n : Int) : Option (FrameBuffer config) :=
  if 0 ≤ n ∧ 0 ≤ dstBuf ∧ dstBuf + n ≤ config.memorySize ∧ 0 ≤ srcBuf ∧
      srcBuf + n ≤ srcConfig.memorySize then
    some ⟨fun i =>
      if dstBuf ≤ i ∧ i < dstBuf + n then src.buffer (srcBuf + (i - dstBuf)) else dst.buffer i⟩
  else none

/-- The loop of `Copy` over the rows that are left.
Source: `kernel/frame_buffer.cpp`, `FrameBuffer::Copy` -/
def copyRows (src : FrameBuffer srcConfig) (width : Int) :
    Nat → Int → Int → FrameBuffer config → Option (FrameBuffer config)
  | 0, _, _, dst => some dst
  | rows + 1, dstBuf, srcBuf, dst =>
      (dst.memcpy dstBuf src srcBuf width).bind
        (copyRows src width rows (dstBuf + config.pixelsPerScanLine)
          (srcBuf + srcConfig.pixelsPerScanLine))

/-- The part of the destination that is overwritten, `copy_area`.
Source: `kernel/frame_buffer.cpp`, `FrameBuffer::Copy` -/
def copyArea (config srcConfig : FrameBufferConfig) (dstPos : Vector2D) (srcArea : Rectangle) :
    Rectangle :=
  let srcAreaShifted : Rectangle := ⟨dstPos, srcArea.size⟩
  let srcOutline : Rectangle := ⟨dstPos - srcArea.pos, srcConfig.frameBufferSize⟩
  let dstOutline : Rectangle := ⟨⟨0, 0⟩, config.frameBufferSize⟩
  (dstOutline.inter srcOutline).inter srcAreaShifted

/-- Source: `kernel/frame_buffer.cpp`, `FrameBuffer::Copy` -/
def copy (dst : FrameBuffer config) (dstPos : Vector2D) (src : FrameBuffer srcConfig)
    (srcArea : Rectangle) : Option (Error × FrameBuffer config) :=
  if config.pixelFormat ≠ srcConfig.pixelFormat then some (.kUnknownPixelFormat, dst)
  else if bytesPerPixel config.pixelFormat ≤ 0 then some (.kUnknownPixelFormat, dst)
  else
    let area := copyArea config srcConfig dstPos srcArea
    let srcStartPos := area.pos - (dstPos - srcArea.pos)
    (copyRows src area.size.x area.size.y.toNat (frameAddrAt area.pos config)
      (frameAddrAt srcStartPos srcConfig) dst).map fun dst' => (.kSuccess, dst')

/-! ## Addresses -/

/-- Every pixel of a row is before every pixel of a later row. -/
theorem frameAddrAt_lt {p q : Vector2D} (hx : p.x < config.pixelsPerScanLine) (hq : 0 ≤ q.x)
    (hy : p.y < q.y) : frameAddrAt p config < frameAddrAt q config := by
  have hrow : (config.pixelsPerScanLine : Int) * (p.y + 1) ≤ config.pixelsPerScanLine * q.y :=
    Int.mul_le_mul_of_nonneg_left (by omega) (Int.natCast_nonneg _)
  rw [Int.mul_add, Int.mul_one] at hrow
  unfold frameAddrAt
  omega

/-- The address of the pixel below. -/
theorem frameAddrAt_add_row (p : Vector2D) :
    frameAddrAt p config + config.pixelsPerScanLine = frameAddrAt (p + ⟨0, 1⟩) config := by
  unfold frameAddrAt
  simp only [Vector2D.add_x, Vector2D.add_y]
  ring

/-- A stretch of a row of the buffer, possibly empty, lies in its memory. -/
theorem frameAddrAt_mem {p : Vector2D} {n : Int} (hx : 0 ≤ p.x)
    (hxn : p.x + n ≤ config.horizontalResolution) (hy : 0 ≤ p.y)
    (hyh : p.y < config.verticalResolution) :
    0 ≤ frameAddrAt p config ∧ frameAddrAt p config + n ≤ config.memorySize := by
  have hstride := config.stride
  have hfirst : 0 ≤ (config.pixelsPerScanLine : Int) * p.y :=
    Int.mul_nonneg (Int.natCast_nonneg _) hy
  have hlast : (config.pixelsPerScanLine : Int) * (p.y + 1) ≤
      config.pixelsPerScanLine * config.verticalResolution :=
    Int.mul_le_mul_of_nonneg_left (by omega) (Int.natCast_nonneg _)
  rw [Int.mul_add, Int.mul_one] at hlast
  unfold frameAddrAt memorySize
  omega

/-- The addresses of a stretch of a row, seen as pixels. -/
theorem frameAddrAt_mem_row {p q : Vector2D} {n : Int} (hp : config.outline.Contains p)
    (hx : 0 ≤ q.x) (hxn : q.x + n ≤ config.horizontalResolution) :
    (frameAddrAt q config ≤ frameAddrAt p config ∧
        frameAddrAt p config < frameAddrAt q config + n) ↔
      p.y = q.y ∧ q.x ≤ p.x ∧ p.x < q.x + n := by
  obtain ⟨hpx, hpw, -, -⟩ := hp
  simp only [outline, frameBufferSize, Int.zero_add] at hpx hpw
  have hstride := config.stride
  rcases Int.lt_trichotomy p.y q.y with hy | hy | hy
  · have hlt : frameAddrAt p config < frameAddrAt q config := frameAddrAt_lt (by omega) hx hy
    omega
  · unfold frameAddrAt
    rw [hy]
    omega
  · -- the end of the stretch is still in the row of `q`
    have hlt : frameAddrAt (q + ⟨n - 1, 0⟩) config < frameAddrAt p config := by
      apply frameAddrAt_lt
      · simp only [Vector2D.add_x]
        omega
      · exact hpx
      · simp only [Vector2D.add_y]
        omega
    unfold frameAddrAt at hlt ⊢
    simp only [Vector2D.add_x, Vector2D.add_y, Int.add_zero] at hlt
    omega

/-! ## What an access does to the pixels -/

/-- **A writer changes one pixel.** -/
theorem write_spec (fb : FrameBuffer config) {pos : Vector2D} (hpos : config.outline.Contains pos)
    (c : PixelColor) :
    ∃ fb', fb.write pos c = some fb' ∧
      ∀ p, config.outline.Contains p → fb'.pixel p = if p = pos then c else fb.pixel p := by
  obtain ⟨hx, hw, hy, hh⟩ := hpos
  simp only [outline, frameBufferSize, Int.zero_add] at hx hw hy hh
  obtain ⟨hfirst, hlast⟩ : 0 ≤ frameAddrAt pos config ∧
      frameAddrAt pos config + 1 ≤ config.memorySize :=
    frameAddrAt_mem hx (by omega) hy hh
  unfold write
  simp only
  rw [if_pos ⟨hfirst, by omega⟩]
  refine ⟨_, rfl, fun p hp => ?_⟩
  unfold pixel
  simp only
  have hsame : frameAddrAt p config = frameAddrAt pos config ↔ p = pos := by
    constructor
    · intro heq
      obtain ⟨hrow, hleft, hright⟩ := (frameAddrAt_mem_row (n := 1) hp hx (by omega)).mp
        ⟨by omega, by omega⟩
      exact Vector2D.ext (by omega) hrow
    · intro heq
      rw [heq]
  simp only [hsame]

/-- One row of `Copy`. -/
theorem memcpy_spec (dst : FrameBuffer config) (src : FrameBuffer srcConfig) {d s : Vector2D}
    {n : Int} (hn : 0 ≤ n) (hdx : 0 ≤ d.x) (hdn : d.x + n ≤ config.horizontalResolution)
    (hdy : 0 ≤ d.y) (hdh : d.y < config.verticalResolution) (hsx : 0 ≤ s.x)
    (hsn : s.x + n ≤ srcConfig.horizontalResolution) (hsy : 0 ≤ s.y)
    (hsh : s.y < srcConfig.verticalResolution) :
    ∃ dst', dst.memcpy (frameAddrAt d config) src (frameAddrAt s srcConfig) n = some dst' ∧
      ∀ p, config.outline.Contains p → dst'.pixel p =
        if p.y = d.y ∧ d.x ≤ p.x ∧ p.x < d.x + n then src.pixel (s + (p - d)) else dst.pixel p := by
  obtain ⟨hd₀, hd₁⟩ := frameAddrAt_mem hdx hdn hdy hdh
  obtain ⟨hs₀, hs₁⟩ := frameAddrAt_mem hsx hsn hsy hsh
  unfold memcpy
  rw [if_pos ⟨hn, hd₀, hd₁, hs₀, hs₁⟩]
  refine ⟨_, rfl, fun p hp => ?_⟩
  unfold pixel
  simp only [frameAddrAt_mem_row hp hdx hdn]
  split_ifs with hrow
  · congr 1
    unfold frameAddrAt
    simp only [Vector2D.add_x, Vector2D.add_y, Vector2D.sub_x, Vector2D.sub_y, hrow.1, Int.sub_self,
      Int.add_zero]
    ring
  · rfl

/-- The loop of `Copy`, by induction on the rows left. -/
theorem copyRows_spec (src : FrameBuffer srcConfig) {n : Int} (hn : 0 ≤ n) (rows : Nat)
    {d s : Vector2D} (dst : FrameBuffer config) (hdx : 0 ≤ d.x)
    (hdn : d.x + n ≤ config.horizontalResolution) (hdy : 0 ≤ d.y)
    (hdh : d.y + rows ≤ config.verticalResolution) (hsx : 0 ≤ s.x)
    (hsn : s.x + n ≤ srcConfig.horizontalResolution) (hsy : 0 ≤ s.y)
    (hsh : s.y + rows ≤ srcConfig.verticalResolution) :
    ∃ dst', copyRows src n rows (frameAddrAt d config) (frameAddrAt s srcConfig) dst = some dst' ∧
      ∀ p, config.outline.Contains p → dst'.pixel p =
        if (⟨d, ⟨n, rows⟩⟩ : Rectangle).Contains p then src.pixel (s + (p - d))
        else dst.pixel p := by
  induction rows generalizing d s dst with
  | zero =>
      refine ⟨dst, rfl, fun p _ => ?_⟩
      rw [if_neg]
      rintro ⟨-, -, hy₀, hy₁⟩
      simp only [Int.natCast_zero, Int.add_zero] at hy₀ hy₁
      omega
  | succ rows ih =>
      obtain ⟨dst₁, hrow, hpixel₁⟩ := memcpy_spec dst src hn hdx hdn hdy (by omega) hsx hsn hsy
        (by omega)
      rw [copyRows, hrow, Option.bind_some, frameAddrAt_add_row, frameAddrAt_add_row]
      obtain ⟨dst', hrest, hpixel⟩ := ih (d := d + ⟨0, 1⟩) (s := s + ⟨0, 1⟩) dst₁
        (by simp only [Vector2D.add_x]; omega) (by simp only [Vector2D.add_x]; omega)
        (by simp only [Vector2D.add_y]; omega) (by simp only [Vector2D.add_y]; omega)
        (by simp only [Vector2D.add_x]; omega) (by simp only [Vector2D.add_x]; omega)
        (by simp only [Vector2D.add_y]; omega) (by simp only [Vector2D.add_y]; omega)
      refine ⟨dst', hrest, fun p hp => ?_⟩
      rw [hpixel p hp, hpixel₁ p hp, Vector2D.add_add_sub_add]
      -- the rectangle is its first row and the rest
      have hsplit : (⟨d, ⟨n, ↑(rows + 1)⟩⟩ : Rectangle).Contains p ↔
          (⟨d + ⟨0, 1⟩, ⟨n, rows⟩⟩ : Rectangle).Contains p ∨
            (p.y = d.y ∧ d.x ≤ p.x ∧ p.x < d.x + n) := by
        unfold Rectangle.Contains
        simp only [Vector2D.add_x, Vector2D.add_y]
        omega
      by_cases hrest : (⟨d + ⟨0, 1⟩, ⟨n, rows⟩⟩ : Rectangle).Contains p
      · rw [if_pos hrest, if_pos (hsplit.mpr (Or.inl hrest))]
      · rw [if_neg hrest]
        simp only [hsplit, hrest, false_or]

/-! ## The copied area -/

section CopyArea

variable {dstPos : Vector2D} {srcArea : Rectangle}

/-- The outline of the source, where `Copy` moves it. -/
private theorem proper_srcOutline : (⟨dstPos - srcArea.pos, srcConfig.frameBufferSize⟩ :
    Rectangle).Proper :=
  ⟨Int.natCast_nonneg _, Int.natCast_nonneg _⟩

private theorem copyArea_eq : copyArea config srcConfig dstPos srcArea =
    (config.outline.inter ⟨dstPos - srcArea.pos, srcConfig.frameBufferSize⟩).inter
      ⟨dstPos, srcArea.size⟩ := rfl

theorem proper_copyArea (harea : srcArea.Proper) :
    (copyArea config srcConfig dstPos srcArea).Proper :=
  Rectangle.proper_inter (Rectangle.proper_inter config.proper_outline proper_srcOutline)
    ⟨harea.width, harea.height⟩

/-- The pixels that both buffers have and the area asks for. -/
theorem contains_copyArea (harea : srcArea.Proper) {p : Vector2D} :
    (copyArea config srcConfig dstPos srcArea).Contains p ↔ config.outline.Contains p ∧
      (⟨dstPos, srcArea.size⟩ : Rectangle).Contains p ∧
        srcConfig.outline.Contains (srcArea.pos + (p - dstPos)) := by
  have hshift : (⟨dstPos - srcArea.pos, srcConfig.frameBufferSize⟩ : Rectangle).Contains p ↔
      srcConfig.outline.Contains (srcArea.pos + (p - dstPos)) := by
    unfold Rectangle.Contains outline
    simp only [Vector2D.sub_x, Vector2D.sub_y, Vector2D.add_x, Vector2D.add_y]
    omega
  have hproper : (config.outline.inter
      ⟨dstPos - srcArea.pos, srcConfig.frameBufferSize⟩).Proper :=
    Rectangle.proper_inter config.proper_outline proper_srcOutline
  have hshifted : (⟨dstPos, srcArea.size⟩ : Rectangle).Proper := ⟨harea.width, harea.height⟩
  rw [copyArea_eq, Rectangle.contains_inter hproper hshifted,
    Rectangle.contains_inter config.proper_outline proper_srcOutline, hshift]
  constructor
  · rintro ⟨⟨hdst, hsrc⟩, harea⟩
    exact ⟨hdst, harea, hsrc⟩
  · rintro ⟨hdst, harea, hsrc⟩
    exact ⟨⟨hdst, hsrc⟩, harea⟩

/-- If the area has rows, it sticks out of neither buffer. -/
theorem within_copyArea (hrows : 0 < (copyArea config srcConfig dstPos srcArea).size.y) :
    (copyArea config srcConfig dstPos srcArea).Within config.outline ∧
      (copyArea config srcConfig dstPos srcArea).Within
        ⟨dstPos - srcArea.pos, srcConfig.frameBufferSize⟩ := by
  rw [copyArea_eq] at hrows ⊢
  obtain ⟨houtlines, -⟩ := Rectangle.within_inter hrows
  have hrows' : 0 < (config.outline.inter
      ⟨dstPos - srcArea.pos, srcConfig.frameBufferSize⟩).size.y := by
    have htop := houtlines.top
    have hbottom := houtlines.bottom
    omega
  obtain ⟨hdst, hsrc⟩ := Rectangle.within_inter hrows'
  exact ⟨houtlines.trans hdst, houtlines.trans hsrc⟩

end CopyArea

/-- What `Copy` does in terms of the copied area, which may have no width or no rows. -/
theorem copy_area_spec (dst : FrameBuffer config) (dstPos : Vector2D) (src : FrameBuffer srcConfig)
    {srcArea : Rectangle} (hformat : config.pixelFormat = srcConfig.pixelFormat)
    (hwidth : 0 < (copyArea config srcConfig dstPos srcArea).size.y →
      0 ≤ (copyArea config srcConfig dstPos srcArea).size.x) :
    ∃ dst', dst.copy dstPos src srcArea = some (.kSuccess, dst') ∧
      ∀ p, config.outline.Contains p → dst'.pixel p =
        if (copyArea config srcConfig dstPos srcArea).Contains p then
          src.pixel (srcArea.pos + (p - dstPos))
        else dst.pixel p := by
  have hbytes : ¬bytesPerPixel config.pixelFormat ≤ 0 := by
    cases config.pixelFormat <;> decide
  have hwithin : 0 < (copyArea config srcConfig dstPos srcArea).size.y → _ := within_copyArea
  unfold copy
  rw [if_neg (not_not.mpr hformat), if_neg hbytes]
  simp only
  generalize copyArea config srcConfig dstPos srcArea = area at hwidth hwithin
  by_cases hrows : 0 < area.size.y
  · obtain ⟨hdst, hsrc⟩ := hwithin hrows
    obtain ⟨hdx, hdn, hdy, hdh⟩ := hdst
    obtain ⟨hsx, hsn, hsy, hsh⟩ := hsrc
    simp only [outline, frameBufferSize, Int.zero_add, Vector2D.sub_x, Vector2D.sub_y] at *
    have hcast : (area.size.y.toNat : Int) = area.size.y := Int.toNat_of_nonneg hrows.le
    obtain ⟨dst', hcopy, hpixel⟩ := copyRows_spec src (hwidth hrows) area.size.y.toNat
      (d := area.pos) (s := area.pos - (dstPos - srcArea.pos)) dst hdx hdn hdy (by omega)
      (by simp only [Vector2D.sub_x]; omega) (by simp only [Vector2D.sub_x]; omega)
      (by simp only [Vector2D.sub_y]; omega) (by simp only [Vector2D.sub_y]; omega)
    refine ⟨dst', by rw [hcopy, Option.map_some], fun p hp => ?_⟩
    rw [hpixel p hp, hcast, Vector2D.sub_sub_add_sub]
  · have hnone : area.size.y.toNat = 0 := by omega
    rw [hnone]
    refine ⟨dst, rfl, fun p _ => ?_⟩
    rw [if_neg]
    rintro ⟨-, -, htop, hbottom⟩
    omega

/-- **`Copy` is clipped copying.** -/
theorem copy_spec (dst : FrameBuffer config) (dstPos : Vector2D) (src : FrameBuffer srcConfig)
    {srcArea : Rectangle} (hformat : config.pixelFormat = srcConfig.pixelFormat)
    (harea : srcArea.Proper) :
    ∃ dst', dst.copy dstPos src srcArea = some (.kSuccess, dst') ∧
      ∀ p, config.outline.Contains p → dst'.pixel p =
        if (⟨dstPos, srcArea.size⟩ : Rectangle).Contains p ∧
            srcConfig.outline.Contains (srcArea.pos + (p - dstPos)) then
          src.pixel (srcArea.pos + (p - dstPos))
        else dst.pixel p := by
  obtain ⟨dst', hcopy, hpixel⟩ := dst.copy_area_spec dstPos src hformat
    fun _ => (proper_copyArea harea).width
  refine ⟨dst', hcopy, fun p hp => ?_⟩
  have hcontains : (copyArea config srcConfig dstPos srcArea).Contains p ↔
      (⟨dstPos, srcArea.size⟩ : Rectangle).Contains p ∧
        srcConfig.outline.Contains (srcArea.pos + (p - dstPos)) := by
    rw [contains_copyArea harea]
    exact and_iff_right hp
  rw [hpixel p hp]
  simp only [hcontains]

/-! ## The rest of the memory -/

section CopyExact

variable {dstPos : Vector2D} {srcArea : Rectangle}

/-- The pixels that `Copy` is to overwrite: the area asks for them, and both buffers have them. -/
def Copied (config srcConfig : FrameBufferConfig) (dstPos : Vector2D) (srcArea : Rectangle)
    (p : Vector2D) : Prop :=
  config.outline.Contains p ∧ (⟨dstPos, srcArea.size⟩ : Rectangle).Contains p ∧
    srcConfig.outline.Contains (srcArea.pos + (p - dstPos))

/-- The loop of `Copy` leaves the addresses outside its rows alone. -/
theorem copyRows_untouched (src : FrameBuffer srcConfig) {n i : Int} (rows : Nat) {d s : Int}
    {dst dst' : FrameBuffer config} (h : copyRows src n rows d s dst = some dst')
    (hi : ∀ k : Nat, k < rows → ¬(d + k * config.pixelsPerScanLine ≤ i ∧
      i < d + k * config.pixelsPerScanLine + n)) : dst'.buffer i = dst.buffer i := by
  induction rows generalizing d s dst with
  | zero =>
      cases h
      rfl
  | succ rows ih =>
      rw [copyRows] at h
      obtain ⟨dst₁, hrow, hrest⟩ := Option.bind_eq_some_iff.mp h
      have hlater : dst'.buffer i = dst₁.buffer i := by
        apply ih hrest
        intro k hk
        have hnext := hi (k + 1) (Nat.succ_lt_succ hk)
        rw [Int.natCast_succ, Int.add_mul, Int.one_mul] at hnext
        omega
      have hfirst := hi 0 rows.succ_pos
      rw [Int.natCast_zero, Int.zero_mul, Int.add_zero] at hfirst
      unfold memcpy at hrow
      split_ifs at hrow
      cases hrow
      rw [hlater]
      exact if_neg hfirst

/-- `Copy` leaves the addresses outside the rows of the copied area alone. -/
theorem copy_untouched {src : FrameBuffer srcConfig} {error : Error} {dst dst' : FrameBuffer config}
    {i : Int} (h : dst.copy dstPos src srcArea = some (error, dst'))
    (hi : ∀ k : Nat, k < (copyArea config srcConfig dstPos srcArea).size.y.toNat →
      ¬(frameAddrAt (copyArea config srcConfig dstPos srcArea).pos config +
          k * config.pixelsPerScanLine ≤ i ∧
        i < frameAddrAt (copyArea config srcConfig dstPos srcArea).pos config +
          k * config.pixelsPerScanLine + (copyArea config srcConfig dstPos srcArea).size.x)) :
    dst'.buffer i = dst.buffer i := by
  unfold copy at h
  split_ifs at h
  · cases h
    rfl
  · cases h
    rfl
  · obtain ⟨dst₁, hrows, heq⟩ := Option.map_eq_some_iff.mp h
    cases heq
    exact copyRows_untouched src _ hrows hi

/-- An address in a row of the copied area is the address of a copied pixel. -/
theorem exists_copied (harea : srcArea.Proper) {k : Nat} {i : Int}
    (hk : k < (copyArea config srcConfig dstPos srcArea).size.y.toNat)
    (hi : frameAddrAt (copyArea config srcConfig dstPos srcArea).pos config +
        k * config.pixelsPerScanLine ≤ i ∧
      i < frameAddrAt (copyArea config srcConfig dstPos srcArea).pos config +
        k * config.pixelsPerScanLine + (copyArea config srcConfig dstPos srcArea).size.x) :
    ∃ p, Copied config srcConfig dstPos srcArea p ∧ frameAddrAt p config = i := by
  have hcontains : ∀ p, (copyArea config srcConfig dstPos srcArea).Contains p ↔
      Copied config srcConfig dstPos srcArea p := fun _ => contains_copyArea harea
  generalize copyArea config srcConfig dstPos srcArea = area at hk hi hcontains
  obtain ⟨j, hj⟩ : ∃ j, i = frameAddrAt area.pos config + k * config.pixelsPerScanLine + j :=
    ⟨i - (frameAddrAt area.pos config + k * config.pixelsPerScanLine), by omega⟩
  refine ⟨area.pos + ⟨j, k⟩, (hcontains _).mp ?_, ?_⟩
  · unfold Rectangle.Contains
    simp only [Vector2D.add_x, Vector2D.add_y]
    omega
  · rw [hj]
    unfold frameAddrAt
    simp only [Vector2D.add_x, Vector2D.add_y]
    ring

/-- **`Copy` is clipped, pixel-exact copying.** Between any two buffers of one format it is defined, so
it reads and writes inside their memories only. It overwrites the pixels that the area asks for and both
buffers have, each with the pixel of the source in its place, and changes nothing else in the memory of
the destination. Between buffers of different formats it does nothing. -/
theorem copy_exact (dst : FrameBuffer config) (dstPos : Vector2D) (src : FrameBuffer srcConfig)
    {srcArea : Rectangle} (harea : srcArea.Proper) :
    (config.pixelFormat = srcConfig.pixelFormat →
      ∃ dst', dst.copy dstPos src srcArea = some (.kSuccess, dst') ∧
        (∀ p, Copied config srcConfig dstPos srcArea p →
          dst'.pixel p = src.pixel (srcArea.pos + (p - dstPos))) ∧
        (∀ p, config.outline.Contains p → ¬Copied config srcConfig dstPos srcArea p →
          dst'.pixel p = dst.pixel p) ∧
        ∀ i, (∀ p, Copied config srcConfig dstPos srcArea p → frameAddrAt p config ≠ i) →
          dst'.buffer i = dst.buffer i) ∧
      (config.pixelFormat ≠ srcConfig.pixelFormat →
        dst.copy dstPos src srcArea = some (.kUnknownPixelFormat, dst)) := by
  constructor
  · intro hformat
    obtain ⟨dst', hcopy, hpixel⟩ := dst.copy_spec dstPos src hformat harea
    refine ⟨dst', hcopy, fun p hp => ?_, fun p hp hnot => ?_, fun i hi => ?_⟩
    · rw [hpixel p hp.1, if_pos hp.2]
    · rw [hpixel p hp, if_neg fun hasked => hnot ⟨hp, hasked⟩]
    · refine copy_untouched hcopy fun k hk hin => ?_
      obtain ⟨p, hp, haddr⟩ := exists_copied harea hk hin
      exact hi p hp haddr
  · intro hformat
    exact if_pos hformat

/-- A buffer of two by two pixels with a longer scan line. -/
def wideBuffer : FrameBufferConfig := ⟨3, 2, 2, .kPixelRGBResv8BitPerColor, by decide⟩

/-- A picture of four pixels, each of its own colour. -/
def fourColors : FrameBuffer (ownMemory 2 2 .kPixelRGBResv8BitPerColor) :=
  ⟨fun i => ⟨i.toNat.toUInt8, 0, 0⟩⟩

/-- The picture is moved to the upper left by a pixel, so that only its last pixel is copied. -/
theorem copy_exact_fourColors :
    ∃ dst', (zeros wideBuffer).copy ⟨-1, -1⟩ fourColors ⟨⟨0, 0⟩, ⟨2, 2⟩⟩ = some (.kSuccess, dst') ∧
      dst'.pixel ⟨0, 0⟩ = ⟨3, 0, 0⟩ ∧ dst'.pixel ⟨1, 1⟩ = ⟨0, 0, 0⟩ := by
  have harea : (⟨⟨0, 0⟩, ⟨2, 2⟩⟩ : Rectangle).Proper := by decide
  obtain ⟨dst', hcopy, hcopied, hkept, -⟩ :=
    (copy_exact (zeros wideBuffer) ⟨-1, -1⟩ fourColors harea).1 rfl
  refine ⟨dst', hcopy, ?_, ?_⟩
  · rw [hcopied ⟨0, 0⟩ ⟨by decide, by decide, by decide⟩]
    rfl
  · rw [hkept ⟨1, 1⟩ (by decide) fun h => absurd h.2.1 (by decide)]
    rfl

end CopyExact

end FrameBuffer

end UhyokOS
