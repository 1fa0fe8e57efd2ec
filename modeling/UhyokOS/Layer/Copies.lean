import UhyokOS.Layer.Compositor

/-!
# The copies of a redraw

The calls of `memcpy` that `Draw` of a part of a layer makes. `operator&` does not check its
operands: a rectangle of negative width can survive it, and its rows are copied with a negative
length.

* `drawLayerArea_isSome_iff`: a call of `Draw` is defined if each of its copies stays in memory.
* `copyMemcpys_inRows`: the copies of one call of `Copy` stay inside rows unless the clipped area
  has a negative width.
* `drawLayerArea_defined_iff`: the messages that leave the memory are those with an area of
  negative width that reaches the screen.
-/

namespace UhyokOS

open LayerManager FrameBufferConfig

variable {config srcConfig : FrameBufferConfig}

/-! ## Rectangles of negative width -/

namespace Rectangle

variable {r s t : Rectangle}

/-- The rectangle has rows, and their width is negative. -/
structure Reversed (r : Rectangle) : Prop where
  width : r.size.x < 0
  rows : 0 < r.size.y

theorem inter_self (h : r.Proper) : r.inter r = r := by
  obtain ⟨hx, hy⟩ := h
  unfold inter
  simp only [Vector2D.add_x, Vector2D.add_y]
  rw [if_neg (by omega)]
  apply Rectangle.ext
  · apply Vector2D.ext
    · exact Int.max_self _
    · exact Int.max_self _
  · apply Vector2D.ext
    · simp only [Vector2D.sub_x, Vector2D.elementMin_x, Vector2D.elementMax_x, Vector2D.add_x]
      omega
    · simp only [Vector2D.sub_y, Vector2D.elementMin_y, Vector2D.elementMax_y, Vector2D.add_y]
      omega

theorem inter_comm (r s : Rectangle) : r.inter s = s.inter r := by
  unfold inter
  simp only
  split_ifs with h h' h'
  · rfl
  · omega
  · omega
  · apply Rectangle.ext
    · apply Vector2D.ext
      · exact Int.max_comm _ _
      · exact Int.max_comm _ _
    · apply Vector2D.ext
      · simp only [Vector2D.sub_x, Vector2D.elementMin_x, Vector2D.elementMax_x, Int.min_comm,
          Int.max_comm]
      · simp only [Vector2D.sub_y, Vector2D.elementMin_y, Vector2D.elementMax_y, Int.min_comm,
          Int.max_comm]

/-- **When a rectangle of negative width survives `operator&`**: both its edges are level with the
other operand, and so is one of its rows. It keeps its edges. -/
theorem reversed_inter (hr : r.Proper) :
    (r.inter s).Reversed ↔ s.size.x < 0 ∧ s.pos.x ≤ r.pos.x + r.size.x ∧
      r.pos.x ≤ s.pos.x + s.size.x ∧
        max r.pos.y s.pos.y < min (r.pos.y + r.size.y) (s.pos.y + s.size.y) := by
  obtain ⟨hrx, hry⟩ := hr
  unfold inter
  simp only [Vector2D.add_x, Vector2D.add_y]
  split_ifs with h
  · constructor
    · intro hreversed
      exact absurd hreversed.rows (Int.lt_irrefl 0)
    · omega
  · constructor
    · rintro ⟨hwidth, hrows⟩
      simp only [Vector2D.sub_x, Vector2D.sub_y, Vector2D.elementMin_x, Vector2D.elementMin_y,
        Vector2D.elementMax_x, Vector2D.elementMax_y, Vector2D.add_x, Vector2D.add_y]
        at hwidth hrows
      omega
    · intro hsurvives
      constructor
      · simp only [Vector2D.sub_x, Vector2D.elementMin_x, Vector2D.elementMax_x, Vector2D.add_x]
        omega
      · simp only [Vector2D.sub_y, Vector2D.elementMin_y, Vector2D.elementMax_y, Vector2D.add_y]
        omega

/-- A surviving rectangle keeps its edges. -/
theorem Reversed.inter_x (hr : r.Proper) (h : (r.inter s).Reversed) :
    (r.inter s).pos.x = s.pos.x ∧ (r.inter s).size.x = s.size.x := by
  obtain ⟨hwidth, hleft, hright, hrows⟩ := (reversed_inter hr).mp h
  obtain ⟨hrx, hry⟩ := hr
  unfold inter
  simp only [Vector2D.add_x, Vector2D.add_y]
  rw [if_neg (by omega)]
  simp only [Vector2D.sub_x, Vector2D.elementMin_x, Vector2D.elementMax_x, Vector2D.add_x]
  omega

/-- What survives two clippings survives a wider one. -/
theorem Reversed.of_inter_inter {a : Rectangle} (hr : r.Proper) (hs : s.Proper) (ht : t.Proper)
    (hwithin : 0 < r.size.y → r.Within t) (h : (r.inter (a.inter s)).Reversed) :
    (t.inter a).Reversed := by
  obtain ⟨hwidth, hleft, hright, hrows⟩ := (reversed_inter hr).mp h
  have hmiddle : (s.inter a).Reversed := by
    rw [inter_comm s a]
    exact ⟨hwidth, by omega⟩
  obtain ⟨hpos, hsize⟩ := hmiddle.inter_x hs
  obtain ⟨-, -, htop, hbottom⟩ := (within_inter hmiddle.rows).2
  obtain ⟨hleft', hright', htop', hbottom'⟩ := hwithin (by omega)
  rw [inter_comm a s] at hwidth hleft hright hrows
  apply (reversed_inter ht).mpr
  omega

end Rectangle

/-! ## The calls of `memcpy` -/

/-- A call `memcpy(dst_buf, src_buf, bytes_per_pixel * n)` between the memories of two frame
buffers. -/
structure Memcpy where
  dst : FrameBufferConfig
  src : FrameBufferConfig
  dstBuf : Int
  srcBuf : Int
  n : Int

namespace Memcpy

/-- The call is defined. -/
def InMemory (m : Memcpy) : Prop :=
  0 ≤ m.n ∧ 0 ≤ m.dstBuf ∧ m.dstBuf + m.n ≤ m.dst.memorySize ∧ 0 ≤ m.srcBuf ∧
    m.srcBuf + m.n ≤ m.src.memorySize

/-- `n` pixels from an address are pixels of one row. -/
def InRow (config : FrameBufferConfig) (buf n : Int) : Prop :=
  ∃ y : Int, 0 ≤ y ∧ y < config.verticalResolution ∧ config.pixelsPerScanLine * y ≤ buf ∧
    buf + n ≤ config.pixelsPerScanLine * y + config.horizontalResolution

/-- The length is not negative, and the call stays inside a row of either buffer. -/
structure InRows (m : Memcpy) : Prop where
  length : 0 ≤ m.n
  dst : InRow m.dst m.dstBuf m.n
  src : InRow m.src m.srcBuf m.n

theorem inRow_frameAddrAt {p : Vector2D} {n : Int} (hx : 0 ≤ p.x)
    (hxn : p.x + n ≤ config.horizontalResolution) (hy : 0 ≤ p.y)
    (hyh : p.y < config.verticalResolution) : InRow config (frameAddrAt p config) n := by
  refine ⟨p.y, hy, hyh, ?_, ?_⟩
  · unfold frameAddrAt
    omega
  · unfold frameAddrAt
    omega

/-- A stretch of a row is in memory. -/
theorem InRow.inMemory {buf n : Int} (h : InRow config buf n) :
    0 ≤ buf ∧ buf + n ≤ config.memorySize := by
  obtain ⟨y, hy, hyh, hfirst, hlast⟩ := h
  obtain ⟨hrow, hend⟩ : 0 ≤ frameAddrAt ⟨0, y⟩ config ∧
      frameAddrAt ⟨0, y⟩ config + config.horizontalResolution ≤ config.memorySize :=
    FrameBuffer.frameAddrAt_mem (Int.le_refl 0) (by simp) hy hyh
  unfold frameAddrAt at hrow hend
  simp only [Int.add_zero] at hrow hend
  omega

theorem InRows.inMemory {m : Memcpy} (h : m.InRows) : m.InMemory :=
  ⟨h.length, h.dst.inMemory.1, h.dst.inMemory.2, h.src.inMemory.1, h.src.inMemory.2⟩

end Memcpy

namespace FrameBuffer

/-- The calls of the loop of `Copy`. -/
def rowMemcpys (config srcConfig : FrameBufferConfig) (width : Int) :
    Nat → Int → Int → List Memcpy
  | 0, _, _ => []
  | rows + 1, dstBuf, srcBuf =>
      ⟨config, srcConfig, dstBuf, srcBuf, width⟩ ::
        rowMemcpys config srcConfig width rows (dstBuf + config.pixelsPerScanLine)
          (srcBuf + srcConfig.pixelsPerScanLine)

/-- The calls of `Copy`. -/
def copyMemcpys (config srcConfig : FrameBufferConfig) (dstPos : Vector2D)
    (srcArea : Rectangle) : List Memcpy :=
  if config.pixelFormat ≠ srcConfig.pixelFormat then []
  else if bytesPerPixel config.pixelFormat ≤ 0 then []
  else
    let area := copyArea config srcConfig dstPos srcArea
    let srcStartPos := area.pos - (dstPos - srcArea.pos)
    rowMemcpys config srcConfig area.size.x area.size.y.toNat (frameAddrAt area.pos config)
      (frameAddrAt srcStartPos srcConfig)

/-- The loop is defined if its calls are, by induction on the rows left. -/
theorem copyRows_isSome_iff (src : FrameBuffer srcConfig) (width : Int) (rows : Nat)
    (dstBuf srcBuf : Int) (dst : FrameBuffer config) :
    (copyRows src width rows dstBuf srcBuf dst).isSome ↔
      ∀ m ∈ rowMemcpys config srcConfig width rows dstBuf srcBuf, m.InMemory := by
  induction rows generalizing dstBuf srcBuf dst with
  | zero => simp [copyRows, rowMemcpys]
  | succ rows ih =>
      rw [copyRows, rowMemcpys, List.forall_mem_cons]
      unfold memcpy
      split_ifs with hdefined
      · rw [Option.bind_some, ih]
        exact (and_iff_right hdefined).symm
      · rw [Option.bind_none]
        constructor
        · intro hsome
          exact absurd hsome (by simp)
        · rintro ⟨hfirst, -⟩
          exact absurd hfirst hdefined

theorem copy_isSome_iff (dst : FrameBuffer config) (dstPos : Vector2D)
    (src : FrameBuffer srcConfig) (srcArea : Rectangle) :
    (dst.copy dstPos src srcArea).isSome ↔
      ∀ m ∈ copyMemcpys config srcConfig dstPos srcArea, m.InMemory := by
  unfold copy copyMemcpys
  split_ifs with hformat hbytes
  · simp
  · simp
  · simp only
    rw [Option.isSome_map, copyRows_isSome_iff]

/-- The calls of the loop between two stretches of rows, by induction on the rows left. -/
theorem rowMemcpys_inRows {n : Int} (hn : 0 ≤ n) (rows : Nat) {d s : Vector2D} (hdx : 0 ≤ d.x)
    (hdn : d.x + n ≤ config.horizontalResolution) (hdy : 0 ≤ d.y)
    (hdh : d.y + rows ≤ config.verticalResolution) (hsx : 0 ≤ s.x)
    (hsn : s.x + n ≤ srcConfig.horizontalResolution) (hsy : 0 ≤ s.y)
    (hsh : s.y + rows ≤ srcConfig.verticalResolution) :
    ∀ m ∈ rowMemcpys config srcConfig n rows (frameAddrAt d config) (frameAddrAt s srcConfig),
      m.InRows := by
  induction rows generalizing d s with
  | zero =>
      intro m hm
      exact absurd hm List.not_mem_nil
  | succ rows ih =>
      have hdrow : d.y < config.verticalResolution := by omega
      have hsrow : s.y < srcConfig.verticalResolution := by omega
      rw [rowMemcpys, List.forall_mem_cons, frameAddrAt_add_row, frameAddrAt_add_row]
      constructor
      · exact ⟨hn, Memcpy.inRow_frameAddrAt hdx hdn hdy hdrow,
          Memcpy.inRow_frameAddrAt hsx hsn hsy hsrow⟩
      · apply ih
        all_goals
          simp only [Vector2D.add_x, Vector2D.add_y]
          omega

/-- **The copies of `Copy`** stay inside rows unless the clipped area is reversed. -/
theorem copyMemcpys_inRows {dstPos : Vector2D} {srcArea : Rectangle}
    (h : ¬(copyArea config srcConfig dstPos srcArea).Reversed) :
    ∀ m ∈ copyMemcpys config srcConfig dstPos srcArea, m.InRows := by
  intro m hm
  unfold copyMemcpys at hm
  split_ifs at hm with hformat hbytes
  · exact absurd hm List.not_mem_nil
  · exact absurd hm List.not_mem_nil
  · have hwithin : 0 < (copyArea config srcConfig dstPos srcArea).size.y → _ := within_copyArea
    simp only at hm
    generalize copyArea config srcConfig dstPos srcArea = area at h hm hwithin
    by_cases hrows : 0 < area.size.y
    · obtain ⟨hdst, hsrc⟩ := hwithin hrows
      obtain ⟨hdx, hdn, hdy, hdh⟩ := hdst
      obtain ⟨hsx, hsn, hsy, hsh⟩ := hsrc
      simp only [outline, frameBufferSize, Int.zero_add, Vector2D.sub_x, Vector2D.sub_y] at *
      have hwidth : 0 ≤ area.size.x := by
        by_contra hneg
        exact h ⟨by omega, hrows⟩
      have hcast : (area.size.y.toNat : Int) = area.size.y := Int.toNat_of_nonneg (by omega)
      refine rowMemcpys_inRows hwidth area.size.y.toNat hdx hdn hdy (by omega) ?_ ?_ ?_ ?_ m hm
      all_goals
        simp only [Vector2D.sub_x, Vector2D.sub_y]
        omega
    · have hnone : area.size.y.toNat = 0 := by omega
      rw [hnone] at hm
      exact absurd hm List.not_mem_nil

/-- Between buffers of one format, a reversed area is copied, with a negative length. -/
theorem not_reversed_of_copyMemcpys {dstPos : Vector2D} {srcArea : Rectangle}
    (hformat : config.pixelFormat = srcConfig.pixelFormat)
    (hall : ∀ m ∈ copyMemcpys config srcConfig dstPos srcArea, 0 ≤ m.n) :
    ¬(copyArea config srcConfig dstPos srcArea).Reversed := by
  intro hreversed
  have hbytes : ¬bytesPerPixel config.pixelFormat ≤ 0 := by
    cases config.pixelFormat <;> decide
  unfold copyMemcpys at hall
  rw [if_neg (not_not.mpr hformat), if_neg hbytes] at hall
  simp only at hall
  generalize copyArea config srcConfig dstPos srcArea = area at hall hreversed
  obtain ⟨hwidth, hrows⟩ := hreversed
  obtain ⟨rows, hsucc⟩ : ∃ rows, area.size.y.toNat = rows + 1 :=
    ⟨area.size.y.toNat - 1, by omega⟩
  rw [hsucc, rowMemcpys, List.forall_mem_cons] at hall
  have hlength : 0 ≤ area.size.x := hall.1
  omega

end FrameBuffer

/-! ## The copies of a window and of a layer -/

/-- The calls of `DrawTo`; a window with a transparent colour writes its pixels one by one. -/
def Window.drawToMemcpys (w : Window) (config : FrameBufferConfig) (pos : Vector2D)
    (area : Rectangle) : List Memcpy :=
  match w.transparentColor with
  | none =>
      let windowArea : Rectangle := ⟨pos, w.size⟩
      let intersection := area.inter windowArea
      FrameBuffer.copyMemcpys config (ownMemory w.width w.height w.shadowFormat) intersection.pos
        ⟨intersection.pos - pos, intersection.size⟩
  | some _ => []

/-- The calls of `Layer::DrawTo`. -/
def Layer.drawToMemcpys (layer : Layer) (config : FrameBufferConfig) (area : Rectangle) :
    List Memcpy :=
  match layer.window with
  | some window => window.drawToMemcpys config layer.pos area
  | none => []

theorem Window.drawTo_isSome_iff (w : Window) (dst : FrameBuffer config) (pos : Vector2D)
    (area : Rectangle) :
    (w.drawTo dst pos area).isSome ↔ ∀ m ∈ w.drawToMemcpys config pos area, m.InMemory := by
  unfold Window.drawTo Window.drawToMemcpys
  cases htc : w.transparentColor with
  | none =>
      simp only
      rw [Option.isSome_map, FrameBuffer.copy_isSome_iff]
  | some tc =>
      obtain ⟨dst', hwrite, -⟩ := dst.writeAll_spec
        (f := fun p => w.atPos (p - pos)) (w.transparentWrites config pos tc)
        (fun call hmem => (mem_transparentWrites.mp hmem).1)
        (fun call hmem => (mem_transparentWrites.mp hmem).2.2.2)
      simp only
      rw [hwrite]
      simp

theorem Layer.drawTo_isSome_iff (layer : Layer) (dst : FrameBuffer config) (area : Rectangle) :
    (layer.drawTo dst area).isSome ↔ ∀ m ∈ layer.drawToMemcpys config area, m.InMemory := by
  unfold Layer.drawTo Layer.drawToMemcpys
  cases layer.window with
  | none => simp
  | some window => exact window.drawTo_isSome_iff dst layer.pos area

/-- If the part of the area on the screen is not reversed, no layer's part of it is. -/
theorem Layer.drawToMemcpys_inRows (layer : Layer) {area : Rectangle}
    (h : ¬(config.outline.inter area).Reversed) :
    ∀ m ∈ layer.drawToMemcpys config area, m.InRows := by
  intro m hm
  unfold Layer.drawToMemcpys Window.drawToMemcpys at hm
  cases hwindow : layer.window with
  | none =>
      rw [hwindow] at hm
      exact absurd hm List.not_mem_nil
  | some window =>
      rw [hwindow] at hm
      cases htc : window.transparentColor with
      | some tc =>
          simp only [htc] at hm
          exact absurd hm List.not_mem_nil
      | none =>
          simp only [htc] at hm
          refine FrameBuffer.copyMemcpys_inRows (fun hreversed => h ?_) m hm
          have hwindowArea : (⟨layer.pos, window.size⟩ : Rectangle).Proper :=
            ⟨Int.natCast_nonneg _, Int.natCast_nonneg _⟩
          have hshadow : (⟨(area.inter ⟨layer.pos, window.size⟩).pos -
              ((area.inter ⟨layer.pos, window.size⟩).pos - layer.pos), window.size⟩ :
                Rectangle).Proper :=
            ⟨Int.natCast_nonneg _, Int.natCast_nonneg _⟩
          exact hreversed.of_inter_inter (Rectangle.proper_inter config.proper_outline hshadow)
            hwindowArea config.proper_outline fun hrows => (Rectangle.within_inter hrows).1

namespace LayerManager

variable {font : Font} {lm : LayerManager config} {id : Nat} {layer : Layer} {area : Rectangle}

/-! ## The copies of a redraw -/

/-- The calls of one `DrawTo` before those of the layers above. -/
def prependMemcpys (config : FrameBufferConfig) (layer : Layer) (windowArea : Rectangle)
    (above : Rectangle × List Memcpy) : Rectangle × List Memcpy :=
  (above.1, layer.drawToMemcpys (backConfig config) windowArea ++ above.2)

/-- The calls of the loop of `Draw`, as `drawFrom` makes them. -/
def drawFromMemcpys (lm : LayerManager config) (id : Nat) :
    List LayerPtr → Rectangle → Rectangle → Bool → Option (Rectangle × List Memcpy)
  | [], _, windowArea, _ => some (windowArea, [])
  | p :: stack, area, windowArea, draw =>
      (lm.deref p).bind fun layer =>
        if layer.id = id then
          layer.window.bind fun window =>
            let windowArea : Rectangle := ⟨layer.pos, window.size⟩
            if area.size.x ≥ 0 ∨ area.size.y ≥ 0 then
              let area : Rectangle := ⟨area.pos + windowArea.pos, area.size⟩
              let windowArea := windowArea.inter area
              (lm.drawFromMemcpys id stack area windowArea true).map
                (prependMemcpys config layer windowArea)
            else
              (lm.drawFromMemcpys id stack area windowArea true).map
                (prependMemcpys config layer windowArea)
        else if draw then
          (lm.drawFromMemcpys id stack area windowArea true).map
            (prependMemcpys config layer windowArea)
        else lm.drawFromMemcpys id stack area windowArea false

/-- The calls of `Draw` of a part of a layer. -/
def drawLayerAreaMemcpys (lm : LayerManager config) (id : Nat) (area junk : Rectangle) :
    Option (List Memcpy) :=
  (lm.drawFromMemcpys id lm.layerStack area junk false).map fun (windowArea, calls) =>
    calls ++ FrameBuffer.copyMemcpys config (backConfig config) windowArea.pos windowArea

/-- One `DrawTo` and the rest of the loop. -/
private theorem defined_prepend_iff {windowArea last : Rectangle}
    {back : FrameBuffer (backConfig config)}
    {rest : FrameBuffer (backConfig config) →
      Option (Rectangle × FrameBuffer (backConfig config))}
    {calls : Option (Rectangle × List Memcpy)}
    (hrest : ∀ back, (∃ back', rest back = some (last, back')) ↔
      ∃ ms, calls = some (last, ms) ∧ ∀ m ∈ ms, m.InMemory) :
    (∃ back', (layer.drawTo back windowArea).bind rest = some (last, back')) ↔
      ∃ ms, calls.map (prependMemcpys config layer windowArea) = some (last, ms) ∧
        ∀ m ∈ ms, m.InMemory := by
  have hdraw := layer.drawTo_isSome_iff back windowArea
  constructor
  · rintro ⟨back', hback'⟩
    obtain ⟨back₁, hback₁, hlater⟩ := Option.bind_eq_some_iff.mp hback'
    obtain ⟨ms, hcalls, hmem⟩ := (hrest back₁).mp ⟨back', hlater⟩
    refine ⟨layer.drawToMemcpys (backConfig config) windowArea ++ ms, ?_, ?_⟩
    · rw [hcalls]
      rfl
    · rw [List.forall_mem_append]
      exact ⟨hdraw.mp (Option.isSome_iff_exists.mpr ⟨back₁, hback₁⟩), hmem⟩
  · rintro ⟨ms, hcalls, hmem⟩
    obtain ⟨⟨last', ms'⟩, hcalls', heq⟩ := Option.map_eq_some_iff.mp hcalls
    unfold prependMemcpys at heq
    obtain ⟨rfl, rfl⟩ := Prod.mk.inj heq
    rw [List.forall_mem_append] at hmem
    obtain ⟨back₁, hback₁⟩ := Option.isSome_iff_exists.mp (hdraw.mpr hmem.1)
    obtain ⟨back', hlater⟩ := (hrest back₁).mpr ⟨ms', hcalls', hmem.2⟩
    refine ⟨back', ?_⟩
    rw [hback₁]
    exact hlater

/-- The loop is defined if its calls are, by induction on the layers left. -/
theorem drawFrom_defined_iff (stack : List LayerPtr) (windowArea last : Rectangle) (draw : Bool)
    (back : FrameBuffer (backConfig config)) :
    (∃ back', lm.drawFrom id stack area windowArea draw back = some (last, back')) ↔
      ∃ ms, lm.drawFromMemcpys id stack area windowArea draw = some (last, ms) ∧
        ∀ m ∈ ms, m.InMemory := by
  induction stack generalizing area windowArea draw back with
  | nil => simp [drawFrom, drawFromMemcpys]
  | cons p stack ih =>
      unfold drawFrom drawFromMemcpys
      cases lm.deref p with
      | none => simp
      | some layer =>
          simp only [Option.bind_some]
          by_cases hid : layer.id = id
          · rw [if_pos hid, if_pos hid]
            cases layer.window with
            | none => simp
            | some window =>
                simp only [Option.bind_some]
                by_cases hsized : area.size.x ≥ 0 ∨ area.size.y ≥ 0
                · rw [if_pos hsized, if_pos hsized]
                  exact defined_prepend_iff fun back => ih _ _ back
                · rw [if_neg hsized, if_neg hsized]
                  exact defined_prepend_iff fun back => ih _ _ back
          · rw [if_neg hid, if_neg hid]
            cases draw with
            | true => exact defined_prepend_iff fun back => ih _ _ back
            | false => exact ih _ _ back

/-- **A call of `Draw` is defined if its copies are.** -/
theorem drawLayerArea_isSome_iff (lm : LayerManager config) (id : Nat) (area junk : Rectangle) :
    (lm.drawLayerArea id area junk).isSome ↔
      ∃ ms, lm.drawLayerAreaMemcpys id area junk = some ms ∧ ∀ m ∈ ms, m.InMemory := by
  unfold drawLayerArea drawLayerAreaMemcpys copyToScreen
  constructor
  · intro hsome
    obtain ⟨lm', hlm'⟩ := Option.isSome_iff_exists.mp hsome
    obtain ⟨⟨last, back⟩, hback, hcopy⟩ := Option.bind_eq_some_iff.mp hlm'
    obtain ⟨ms, hcalls, hmem⟩ := (drawFrom_defined_iff _ _ _ _ _).mp ⟨back, hback⟩
    refine ⟨_, Option.map_eq_some_iff.mpr ⟨(last, ms), hcalls, rfl⟩, ?_⟩
    rw [List.forall_mem_append, ← FrameBuffer.copy_isSome_iff lm.screen last.pos back last,
      ← Option.isSome_map]
    exact ⟨hmem, Option.isSome_iff_exists.mpr ⟨lm', hcopy⟩⟩
  · rintro ⟨ms, hcalls, hmem⟩
    obtain ⟨⟨last, ms'⟩, hcalls', rfl⟩ := Option.map_eq_some_iff.mp hcalls
    rw [List.forall_mem_append] at hmem
    obtain ⟨back, hback⟩ := (drawFrom_defined_iff _ _ _ _ lm.backBuffer).mpr
      ⟨ms', hcalls', hmem.1⟩
    rw [hback, Option.bind_some, Option.isSome_map, FrameBuffer.copy_isSome_iff]
    exact hmem.2

/-- The loop over other layers keeps the area. -/
private theorem drawFromMemcpys_above {above : List LayerPtr}
    (habove : ∀ q ∈ above, ∃ layer, lm.deref q = some layer ∧ layer.id ≠ id)
    (area windowArea : Rectangle) :
    ∃ ms, lm.drawFromMemcpys id above area windowArea true = some (windowArea, ms) ∧
      ∀ m ∈ ms, ∃ layer : Layer, m ∈ layer.drawToMemcpys (backConfig config) windowArea := by
  induction above with
  | nil => exact ⟨[], rfl, fun m hm => absurd hm List.not_mem_nil⟩
  | cons q above ih =>
      obtain ⟨layer, hderef, hne⟩ := habove q List.mem_cons_self
      obtain ⟨ms, hcalls, hmem⟩ := ih fun q' hq' => habove q' (List.mem_cons_of_mem _ hq')
      rw [drawFromMemcpys, hderef, Option.bind_some, if_neg hne, if_pos rfl, hcalls]
      refine ⟨_, rfl, fun m hm => ?_⟩
      rcases List.mem_append.mp hm with hm | hm
      · exact ⟨layer, hm⟩
      · exact hmem m hm

/-- Below the layer nothing is copied. -/
private theorem drawFromMemcpys_below {below rest : List LayerPtr} {windowArea : Rectangle}
    (hbelow : ∀ q ∈ below, ∃ layer, lm.deref q = some layer ∧ layer.id ≠ id) :
    lm.drawFromMemcpys id (below ++ rest) area windowArea false =
      lm.drawFromMemcpys id rest area windowArea false := by
  induction below with
  | nil => rfl
  | cons q below ih =>
      obtain ⟨layer, hderef, hne⟩ := hbelow q List.mem_cons_self
      rw [List.cons_append, drawFromMemcpys, hderef, Option.bind_some, if_neg hne,
        if_neg (by decide)]
      exact ih fun q' hq' => hbelow q' (List.mem_cons_of_mem _ hq')

/-- **The copies of `Draw`**: each is one of a `DrawTo` of the redrawn area, or one of the last
copy to the screen. -/
theorem drawLayerAreaMemcpys_eq {window : Window} (hin : StackInv font lm)
    (hdisplayed : lm.Displayed id) (hderef : lm.deref (lm.findLayer id) = some layer)
    (hwindow : layer.window = some window) (area junk : Rectangle) :
    ∃ ms, lm.drawLayerAreaMemcpys id area junk = some (ms ++ FrameBuffer.copyMemcpys config
        (backConfig config) (redrawnArea layer window area).pos (redrawnArea layer window area)) ∧
      ∀ m ∈ ms, ∃ layer' : Layer,
        m ∈ layer'.drawToMemcpys (backConfig config) (redrawnArea layer window area) := by
  obtain ⟨below, above, hstack, hbelow, habove⟩ := hin.split_of_displayed hdisplayed
  have hcalls : ∃ ms, lm.drawFromMemcpys id lm.layerStack area junk false =
      some (redrawnArea layer window area, ms) ∧ ∀ m ∈ ms, ∃ layer' : Layer,
        m ∈ layer'.drawToMemcpys (backConfig config) (redrawnArea layer window area) := by
    rw [hstack, drawFromMemcpys_below hbelow, drawFromMemcpys, hderef, Option.bind_some,
      if_pos (hin.id_of_deref hderef), hwindow, Option.bind_some]
    have hprepend : ∀ area', ∃ ms, (lm.drawFromMemcpys id above area'
        (redrawnArea layer window area) true).map (prependMemcpys config layer
          (redrawnArea layer window area)) = some (redrawnArea layer window area, ms) ∧
        ∀ m ∈ ms, ∃ layer' : Layer,
          m ∈ layer'.drawToMemcpys (backConfig config) (redrawnArea layer window area) := by
      intro area'
      obtain ⟨ms, hcalls, hmem⟩ := drawFromMemcpys_above habove area'
        (redrawnArea layer window area)
      rw [hcalls]
      refine ⟨_, rfl, fun m hm => ?_⟩
      rcases List.mem_append.mp hm with hm | hm
      · exact ⟨layer, hm⟩
      · exact hmem m hm
    by_cases hsized : area.size.x ≥ 0 ∨ area.size.y ≥ 0
    · simp only
      rw [if_pos hsized, ← redrawnArea_of_sized hsized]
      exact hprepend _
    · simp only
      rw [if_neg hsized, ← redrawnArea_of_not_sized hsized]
      exact hprepend _
  obtain ⟨ms, hcalls, hmem⟩ := hcalls
  refine ⟨ms, ?_, hmem⟩
  unfold drawLayerAreaMemcpys
  rw [hcalls]
  rfl

/-- The area of the message has a negative width, both its edges are level with the window and
with the screen, and one of its rows lies in both. -/
structure ReversedOnScreen (config : FrameBufferConfig) (layer : Layer) (window : Window)
    (area : Rectangle) : Prop where
  width : area.size.x < 0
  inWindow : 0 ≤ area.pos.x + area.size.x ∧ area.pos.x ≤ window.size.x
  onScreen : 0 ≤ layer.pos.x + area.pos.x + area.size.x ∧
    layer.pos.x + area.pos.x ≤ config.horizontalResolution
  row : ∃ y : Int, (0 ≤ area.pos.y + y ∧ area.pos.y + y < window.size.y) ∧
    (0 ≤ layer.pos.y + area.pos.y + y ∧ layer.pos.y + area.pos.y + y < config.verticalResolution) ∧
      0 ≤ y ∧ y < area.size.y

/-- When the redrawn area reaches the screen reversed. -/
theorem reversed_redrawnArea_iff (layer : Layer) (window : Window) (area : Rectangle) :
    (config.outline.inter (redrawnArea layer window area)).Reversed ↔
      ReversedOnScreen config layer window area := by
  have hwindow : (⟨layer.pos, window.size⟩ : Rectangle).Proper :=
    ⟨Int.natCast_nonneg _, Int.natCast_nonneg _⟩
  obtain ⟨hx, hy⟩ := hwindow
  rw [Rectangle.reversed_inter config.proper_outline]
  unfold redrawnArea outline frameBufferSize
  simp only at hx hy ⊢
  split_ifs with hsized
  · unfold Rectangle.inter
    simp only [Vector2D.add_x, Vector2D.add_y]
    split_ifs with hdisjoint
    · simp only
      constructor
      · omega
      · rintro ⟨hwidth, hwindow, hscreen, y, hrow⟩
        omega
    · simp only [Vector2D.sub_x, Vector2D.sub_y, Vector2D.elementMin_x, Vector2D.elementMin_y,
        Vector2D.elementMax_x, Vector2D.elementMax_y, Vector2D.add_x, Vector2D.add_y]
      constructor
      · intro hreversed
        refine ⟨by omega, by omega, by omega, max 0 (max (-area.pos.y)
          (-layer.pos.y - area.pos.y)), by omega, by omega, by omega⟩
      · rintro ⟨hwidth, hwindow, hscreen, y, hrow⟩
        omega
  · simp only
    constructor
    · omega
    · rintro ⟨hwidth, hwindow, hscreen, y, hrow⟩
      omega

/-- The copy to the screen copies the part of the redrawn area that is on the screen. -/
theorem copyArea_screen (config : FrameBufferConfig) (area : Rectangle) :
    FrameBuffer.copyArea config (backConfig config) area.pos area = config.outline.inter area := by
  have hsame : config.outline.inter ⟨area.pos - area.pos, (backConfig config).frameBufferSize⟩ =
      config.outline := by
    have hzero : area.pos - area.pos = ⟨0, 0⟩ := Vector2D.ext (Int.sub_self _) (Int.sub_self _)
    rw [hzero]
    exact Rectangle.inter_self config.proper_outline
  show (config.outline.inter _).inter area = _
  rw [hsame]

/-- A property between a non-negative length and staying inside rows holds of all copies exactly
if the area does not reach the screen reversed: the copy to the screen decides for the others. -/
private theorem forall_copies_iff {P : Memcpy → Prop} (hrows : ∀ m : Memcpy, m.InRows → P m)
    (hlength : ∀ m, P m → 0 ≤ m.n) {window : Window} (hin : StackInv font lm)
    (hdisplayed : lm.Displayed id) (hderef : lm.deref (lm.findLayer id) = some layer)
    (hwindow : layer.window = some window) (area junk : Rectangle) :
    (∃ ms, lm.drawLayerAreaMemcpys id area junk = some ms ∧ ∀ m ∈ ms, P m) ↔
      ¬ReversedOnScreen config layer window area := by
  obtain ⟨ms, hcalls, hmem⟩ := drawLayerAreaMemcpys_eq hin hdisplayed hderef hwindow area
    junk
  rw [← reversed_redrawnArea_iff, ← copyArea_screen]
  constructor
  · rintro ⟨ms', hcalls', hall⟩
    rw [hcalls, Option.some.injEq] at hcalls'
    rw [← hcalls', List.forall_mem_append] at hall
    exact FrameBuffer.not_reversed_of_copyMemcpys rfl fun m hm => hlength m (hall.2 m hm)
  · intro hnot
    refine ⟨_, hcalls, ?_⟩
    rw [List.forall_mem_append]
    constructor
    · intro m hm
      obtain ⟨layer', hm'⟩ := hmem m hm
      rw [copyArea_screen] at hnot
      have hnot' : ¬((backConfig config).outline.inter
        (redrawnArea layer window area)).Reversed := hnot
      exact hrows m (layer'.drawToMemcpys_inRows hnot' m hm')
    · intro m hm
      exact hrows m (FrameBuffer.copyMemcpys_inRows hnot m hm)

/-- **A message makes a copy leave its row exactly if its area reaches the screen reversed.** -/
theorem drawLayerArea_inRows_iff {window : Window} (hin : StackInv font lm)
    (hdisplayed : lm.Displayed id) (hderef : lm.deref (lm.findLayer id) = some layer)
    (hwindow : layer.window = some window) (area junk : Rectangle) :
    (∃ ms, lm.drawLayerAreaMemcpys id area junk = some ms ∧ ∀ m ∈ ms, m.InRows) ↔
      ¬ReversedOnScreen config layer window area :=
  forall_copies_iff (fun _ h => h) (fun _ h => h.length) hin hdisplayed hderef hwindow area junk

/-- A copy that leaves its row also leaves the memory: the other messages are the ones that `Draw`
is defined for. -/
theorem drawLayerArea_defined_iff {window : Window} (hin : StackInv font lm)
    (hdisplayed : lm.Displayed id) (hderef : lm.deref (lm.findLayer id) = some layer)
    (hwindow : layer.window = some window) (area junk : Rectangle) :
    (lm.drawLayerArea id area junk).isSome ↔ ¬ReversedOnScreen config layer window area := by
  rw [drawLayerArea_isSome_iff]
  exact forall_copies_iff (fun _ h => h.inMemory) (fun _ h => h.1) hin hdisplayed hderef hwindow
    area junk

/-- The area of a message: negative width, at the right edge of a window of one pixel. -/
def backwardArea : Rectangle := ⟨⟨1, 0⟩, ⟨-1, 1⟩⟩

theorem desktop_window : ∃ layer window,
    LayerSystem.desktop.manager.deref (LayerSystem.desktop.manager.findLayer 2) = some layer ∧
      layer.window = some window ∧ layer.pos = ⟨0, 0⟩ ∧ window.size = ⟨1, 1⟩ := by
  have hlayer : ∃ layer, LayerSystem.desktop.manager.deref
      (LayerSystem.desktop.manager.findLayer 2) = some layer :=
    Option.isSome_iff_exists.mp (by decide)
  have hall : ∀ layer ∈ LayerSystem.desktop.manager.deref
      (LayerSystem.desktop.manager.findLayer 2), layer.pos = ⟨0, 0⟩ ∧
        layer.window.isSome = true ∧ ∀ window ∈ layer.window, window.size = ⟨1, 1⟩ := by decide
  obtain ⟨layer, hderef⟩ := hlayer
  obtain ⟨hpos, hsome, hsize⟩ := hall layer hderef
  obtain ⟨window, hwindow⟩ := Option.isSome_iff_exists.mp hsome
  exact ⟨layer, window, hderef, hwindow, hpos, hsize window hwindow⟩

/-- A terminal's message for the whole of its window, and the message of negative width. -/
theorem drawLayerArea_inRows_iff_desktop :
    (∃ ms, LayerSystem.desktop.manager.drawLayerAreaMemcpys 2 ⟨⟨0, 0⟩, ⟨1, 1⟩⟩ LayerSystem.noArea =
      some ms ∧ ∀ m ∈ ms, m.InRows) ∧
    ¬∃ ms, LayerSystem.desktop.manager.drawLayerAreaMemcpys 2 backwardArea LayerSystem.noArea =
      some ms ∧ ∀ m ∈ ms, m.InRows := by
  obtain ⟨layer, window, hderef, hwindow, hpos, hsize⟩ := desktop_window
  have hin : StackInv LayerSystem.noFont LayerSystem.desktop.manager :=
    LayerSystem.Reachable.inOrder LayerSystem.desktop_reachable
  have hdisplayed : LayerSystem.desktop.manager.Displayed 2 := by decide
  constructor
  · apply (drawLayerArea_inRows_iff hin hdisplayed hderef hwindow _ _).mpr
    intro hreversed
    exact absurd hreversed.width (by decide)
  · intro hinRows
    apply (drawLayerArea_inRows_iff hin hdisplayed hderef hwindow _ _).mp hinRows
    unfold backwardArea
    refine ⟨by decide, ?_, ?_, 0, ?_⟩
    · rw [hsize]
      decide
    · rw [hpos]
      decide
    · rw [hpos, hsize]
      decide

/-- **A message with a negative width makes the compositor copy a negative number of bytes.** -/
theorem drawLayerArea_leaves_row :
    ¬∀ (config : FrameBufferConfig) (font : Font) (screen : FrameBuffer config)
      (s : LayerSystem config) (id : Nat) (area junk : Rectangle),
      s.Reachable font screen → s.manager.Displayed id →
        ∃ ms, s.manager.drawLayerAreaMemcpys id area junk = some ms ∧ ∀ m ∈ ms, m.InRows := by
  intro hall
  obtain ⟨ms, hcalls, hinRows⟩ := hall LayerSystem.tinyConfig LayerSystem.noFont (.zeros _)
    LayerSystem.desktop 2 backwardArea LayerSystem.noArea LayerSystem.desktop_reachable (by decide)
  have hlength : ∃ m ∈ ((LayerSystem.desktop.manager.drawLayerAreaMemcpys 2 backwardArea
      LayerSystem.noArea).getD []), m.n = -1 := by decide
  rw [hcalls] at hlength
  obtain ⟨m, hm, hn⟩ := hlength
  have hlength' := (hinRows m hm).length
  omega

end LayerManager

end UhyokOS
