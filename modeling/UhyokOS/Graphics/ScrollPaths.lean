import UhyokOS.Graphics.Scrolling

/-!
# The two ways of scrolling

A console scrolls by moving the pixels of its window or, without a window, by shifting `buffer_` and
drawing the text again. Both show the same text, but moving the pixels leaves `buffer_` behind, so
that `Refresh` draws old text.

* `twin_putChar`: a console with a window and one without, given the same character.
* `scroll_paths_agree_iff`: exactly which texts leave `buffer_` with the text on display.
-/

namespace UhyokOS

open Transition

namespace Console

variable {config : FrameBufferConfig} {font : Font} {w writer : Console config} {s : Screen}
  {grid : Buffer}

/-- Given another writer or window, the console draws this text. -/
structure RefreshShows (font : Font) (c : Console config) (grid : Buffer) : Prop where
  setWriter : ∀ fb : FrameBuffer config, (ConsoleTarget.screen fb).HasRoom →
    ∃ c', c.setWriter font (some fb) = some c' ∧ c'.Shows font grid
  setWindow : ∀ window : Window, (ConsoleTarget.window window : ConsoleTarget config).HasRoom →
    ∃ c', c.setWindow font (some window) = some c' ∧ c'.Shows font grid

/-- A console with a window and one without show the same text, and both have it in `buffer_`. -/
structure Agree (font : Font) (w writer : Console config) (grid : Buffer) : Prop where
  windowShows : w.Shows font grid
  writerShows : writer.Shows font grid
  windowBuffer : w.buffer = grid
  writerBuffer : writer.buffer = grid
  windowRefresh : w.RefreshShows font grid
  writerRefresh : writer.RefreshShows font grid

/-- A console with a window and one without that have been given the same text. -/
structure Twin (font : Font) (w writer : Console config) (s : Screen) : Prop where
  windowHolds : w.Holds font s
  writerHolds : writer.Holds font s
  windowMode : w.target.isWindow = true
  writerMode : writer.target.isWindow = false
  windowBuffer : w.buffer = gridOf s
  writerBuffer : writer.buffer = gridOf s

theorem refreshShows {c : Console config} (hbuffer : c.buffer = gridOf s) :
    c.RefreshShows font (gridOf s) := by
  constructor
  · intro fb hroom
    obtain ⟨target, hrefresh, -, -, hshows⟩ :=
      refresh_spec font { c with target := .screen fb } hroom hbuffer
    exact ⟨_, hrefresh, hshows⟩
  · intro window hroom
    obtain ⟨target, hrefresh, -, -, hshows⟩ :=
      refresh_spec font { c with target := .window window } hroom hbuffer
    exact ⟨_, hrefresh, hshows⟩

theorem Twin.agree (h : Twin font w writer s) : Agree font w writer (gridOf s) :=
  ⟨h.windowHolds.shows, h.writerHolds.shows, h.windowBuffer, h.writerBuffer, refreshShows h.windowBuffer,
    refreshShows h.writerBuffer⟩

/-- **One character**: both consoles write it, and they agree afterwards iff it scrolls no text. -/
theorem twin_putChar (h : Twin font w writer s) (a : TextChar) :
    ∃ w' writer', w.putChar font a = some w' ∧ writer.putChar font a = some writer' ∧
      ((∃ grid, Agree font w' writer' grid) → w.ScrollsNoText a) ∧
      (w.ScrollsNoText a → Twin font w' writer' (s.write TextChar.eol a)) := by
  have hnot : w.target.isWindow = false → w.buffer = gridOf s := fun _ => h.windowBuffer
  obtain ⟨w', hw, hholds, hmode, hbuffer⟩ := putChar_spec h.windowHolds a hnot
  obtain ⟨writer', hwriter, hholds', hmode', hbuffer'⟩ := putChar_spec h.writerHolds a
    fun _ => h.writerBuffer
  rw [nextBuffer_writer h.writerHolds h.writerMode h.writerBuffer] at hbuffer'
  have hiff := nextBuffer_window_iff h.windowHolds h.windowMode h.windowBuffer a
  rw [← hbuffer] at hiff
  refine ⟨w', writer', hw, hwriter, ?_, ?_⟩
  · rintro ⟨grid, hagree⟩
    apply hiff.mp
    rw [hagree.windowBuffer, ← hagree.writerBuffer, hbuffer']
  · intro hkeeps
    exact ⟨hholds, hholds', hmode.isWindow.trans h.windowMode, hmode'.isWindow.trans h.writerMode,
      hiff.mpr hkeeps, hbuffer'⟩

/-- Character by character. -/
theorem agree_chars_iff (h : Twin font w writer s) (text : List TextChar) :
    (∀ pre, pre <+: text → ∃ w' writer', run (putChar font) w pre = some w' ∧
        run (putChar font) writer pre = some writer' ∧ ∃ grid, Agree font w' writer' grid) ↔
      Admits (putChar font) ScrollsNoText w text := by
  induction text generalizing w writer s with
  | nil =>
      refine iff_of_true (fun pre hpre => ?_) trivial
      rw [List.prefix_nil.mp hpre]
      exact ⟨w, writer, rfl, rfl, _, h.agree⟩
  | cons a text ih =>
      obtain ⟨w₁, writer₁, hw, hwriter, hnec, hsuf⟩ := twin_putChar h a
      constructor
      · intro hall
        obtain ⟨w', writer', hrun, hrun', hagree⟩ := hall [a] ⟨text, rfl⟩
        rw [run_cons, hw] at hrun
        rw [run_cons, hwriter] at hrun'
        cases hrun
        cases hrun'
        have hkeeps := hnec hagree
        refine ⟨hkeeps, fun w₂ hw₂ => ?_⟩
        rw [hw] at hw₂
        cases hw₂
        refine (ih (hsuf hkeeps)).mp fun pre hpre => ?_
        obtain ⟨w', writer', hrun, hrun', hagree⟩ :=
          hall (a :: pre) (List.cons_prefix_cons.mpr ⟨rfl, hpre⟩)
        rw [run_cons, hw] at hrun
        rw [run_cons, hwriter] at hrun'
        exact ⟨w', writer', hrun, hrun', hagree⟩
      · rintro ⟨hkeeps, hrest⟩ pre hpre
        cases pre with
        | nil => exact ⟨w, writer, rfl, rfl, _, h.agree⟩
        | cons a' pre =>
            obtain ⟨rfl, hpre'⟩ := List.cons_prefix_cons.mp hpre
            rw [run_cons, hw, run_cons, hwriter]
            exact (ih (hsuf hkeeps)).mpr (hrest w₁ hw) pre hpre'

/-- Calls of `PutString` write the characters of their strings. -/
theorem run_putString (c : Console config) (calls : List (List TextChar)) :
    run (putString font) c calls = run (putChar font) c calls.flatten := by
  induction calls generalizing c with
  | nil => rfl
  | cons s calls ih =>
      rw [run_cons, List.flatten_cons, run_eq_foldlM, List.foldlM_append]
      unfold putString
      exact congrArg _ (funext fun c' => (ih c').trans (run_eq_foldlM c' _))

/-- However the text is divided into calls of `PutString`. -/
theorem agree_calls_iff (h : Twin font w writer s) (text : List TextChar) :
    (∀ calls : List (List TextChar), calls.flatten = text → ∀ pre, pre <+: calls →
        ∃ w' writer', run (putString font) w pre = some w' ∧
          run (putString font) writer pre = some writer' ∧ ∃ grid, Agree font w' writer' grid) ↔
      Admits (putChar font) ScrollsNoText w text := by
  rw [← agree_chars_iff h text]
  have hchars : ∀ text : List TextChar, (text.map fun a => [a]).flatten = text := by
    intro text
    rw [← List.flatMap_def, List.flatMap_singleton']
  constructor
  · intro hall pre hpre
    obtain ⟨w', writer', hrun, hrun', hagree⟩ :=
      hall (text.map fun a => [a]) (hchars text) (pre.map fun a => [a]) (hpre.map _)
    rw [run_putString, hchars] at hrun hrun'
    exact ⟨w', writer', hrun, hrun', hagree⟩
  · rintro hall calls rfl pre ⟨post, rfl⟩
    rw [run_putString, run_putString]
    exact hall pre.flatten ⟨post.flatten, List.flatten_append.symm⟩

/-! ## From an empty buffer -/

/-- A console with an empty `buffer_`, as it is constructed or after lines without text. -/
def empty (fgColor bgColor : PixelColor) (row : Fin kRows) : Console config :=
  { new fgColor bgColor with cursorRow := row }

/-- Given a window or a writer, it shows a blank screen. -/
theorem holds_blank (font : Font) {target : ConsoleTarget config} (hroom : target.HasRoom)
    (fg bg : PixelColor) (row : Fin kRows) :
    ∃ c, { (empty fg bg row : Console config) with target := target }.refresh font = some c ∧
      c.Holds font (.blank row) ∧ c.target.isWindow = target.isWindow ∧
      c.buffer = gridOf (.blank row) := by
  obtain ⟨target', hrefresh, hroom', hkind, hshows⟩ := refresh_spec font
    { (empty fg bg row : Console config) with target := target } (s := .blank row) hroom rfl
  exact ⟨_, hrefresh, ⟨hroom', rfl, rfl, hshows⟩, hkind, rfl⟩

theorem twin_empty (font : Font) {window : Window} {fb : FrameBuffer config}
    (hwindow : (ConsoleTarget.window window : ConsoleTarget config).HasRoom)
    (hfb : (ConsoleTarget.screen fb).HasRoom) (fg bg : PixelColor) (row : Fin kRows) :
    ∃ w writer, (empty fg bg row : Console config).setWindow font (some window) = some w ∧
      (empty fg bg row).setWriter font (some fb) = some writer ∧ Twin font w writer (.blank row) := by
  obtain ⟨w, hw, hholds, hmode, hbuffer⟩ := holds_blank font hwindow fg bg row
  obtain ⟨writer, hwriter, hholds', hmode', hbuffer'⟩ := holds_blank font hfb fg bg row
  exact ⟨w, writer, hw, hwriter, hholds, hholds', hmode, hmode', hbuffer, hbuffer'⟩

end Console

open Console

/-- **The fast and the slow way of scrolling, exactly.** Give the same text to a console with a
window and to one without, each with an empty `buffer_` at first. However the text is divided into
calls of `PutString`, both show the same characters after each call, have them in `buffer_` and draw
them when they are given another writer or window, iff the console with the window never starts a
new line in the bottom row with text in its `buffer_`. -/
theorem scroll_paths_agree_iff {config : FrameBufferConfig} (font : Font) (fg bg : PixelColor)
    (row : Fin kRows) {window : Window} {fb : FrameBuffer config}
    (hwindow : (ConsoleTarget.window window : ConsoleTarget config).HasRoom)
    (hfb : (ConsoleTarget.screen fb).HasRoom) (text : List TextChar) :
    ∃ w writer, (empty fg bg row : Console config).setWindow font (some window) = some w ∧
      (empty fg bg row).setWriter font (some fb) = some writer ∧
      ((∀ calls : List (List TextChar), calls.flatten = text → ∀ pre, pre <+: calls →
          ∃ w' writer', run (putString font) w pre = some w' ∧
            run (putString font) writer pre = some writer' ∧ ∃ grid, Agree font w' writer' grid) ↔
        Admits (putChar font) ScrollsNoText w text) := by
  obtain ⟨w, writer, hw, hwriter, htwin⟩ := twin_empty font hwindow hfb fg bg row
  exact ⟨w, writer, hw, hwriter, agree_calls_iff htwin text⟩

/-- A letter and a new line. -/
def letterThenLine : List TextChar := [⟨0x61, by decide⟩, TextChar.eol]

/-- Written in the bottom row, the new line scrolls the letter. -/
theorem not_admits_letterThenLine {config : FrameBufferConfig} {font : Font}
    {w writer : Console config} (h : Twin font w writer (.blank (Fin.last 24))) :
    ¬Admits (putChar font) ScrollsNoText w letterThenLine := by
  rintro ⟨hletter, hrest⟩
  obtain ⟨w₁, writer₁, hw, -, -, htwin⟩ := twin_putChar h ⟨0x61, by decide⟩
  have hafter := htwin hletter
  have hzero := (hrest w₁ hw).1 rfl (by
    rw [hafter.windowHolds.row]
    decide) (Fin.last 24) 0
  rw [hafter.windowBuffer] at hzero
  have hchar : gridOf ((TextScreen.blank (Fin.last 24) : Screen).write TextChar.eol
      ⟨0x61, by decide⟩) (Fin.last 24) 0 = 0x61 := by decide
  rw [hchar] at hzero
  exact absurd hzero (by decide)

/-- The screen of a console and no more. -/
abbrev consoleConfig : FrameBufferConfig :=
  FrameBufferConfig.ownMemory 640 400 .kPixelRGBResv8BitPerColor

/-- Text in the bottom row is scrolled by a new line. -/
theorem scroll_paths_agree_iff_letterThenLine :
    ∃ w writer, (empty ⟨255, 255, 255⟩ ⟨0, 0, 0⟩ (Fin.last 24) : Console consoleConfig).setWindow
        ⟨[], by decide⟩ (some (.new 640 400 .kPixelRGBResv8BitPerColor)) = some w ∧
      (empty ⟨255, 255, 255⟩ ⟨0, 0, 0⟩ (Fin.last 24)).setWriter ⟨[], by decide⟩
        (some (.zeros consoleConfig)) = some writer ∧
      ¬∀ calls : List (List TextChar), calls.flatten = letterThenLine → ∀ pre, pre <+: calls →
        ∃ w' writer', run (putString ⟨[], by decide⟩) w pre = some w' ∧
          run (putString ⟨[], by decide⟩) writer pre = some writer' ∧
          ∃ grid, Agree ⟨[], by decide⟩ w' writer' grid := by
  have hwindow : (ConsoleTarget.window (.new 640 400 .kPixelRGBResv8BitPerColor) :
      ConsoleTarget consoleConfig).HasRoom := by decide
  have hfb : (ConsoleTarget.screen (.zeros consoleConfig)).HasRoom := by decide
  obtain ⟨w, writer, hw, hwriter, hiff⟩ := scroll_paths_agree_iff ⟨[], by decide⟩ ⟨255, 255, 255⟩
    ⟨0, 0, 0⟩ (Fin.last 24) hwindow hfb letterThenLine
  refine ⟨w, writer, hw, hwriter, fun hall => ?_⟩
  obtain ⟨w', writer', hw', hwriter', htwin⟩ := twin_empty ⟨[], by decide⟩ hwindow hfb
    ⟨255, 255, 255⟩ ⟨0, 0, 0⟩ (Fin.last 24)
  rw [hw] at hw'
  cases hw'
  exact not_admits_letterThenLine htwin (hiff.mp hall)

/-- **Moving the pixels leaves `buffer_` behind.** -/
theorem buffer_left_behind :
    ¬∀ (config : FrameBufferConfig) (font : Font) (fg bg : PixelColor) (row : Fin kRows)
      (window : Window) (fb : FrameBuffer config),
      (ConsoleTarget.window window : ConsoleTarget config).HasRoom →
      (ConsoleTarget.screen fb).HasRoom → ∀ w writer,
      (empty fg bg row : Console config).setWindow font (some window) = some w →
      (empty fg bg row).setWriter font (some fb) = some writer →
      ∀ calls : List (List TextChar), ∀ pre, pre <+: calls →
        ∃ w' writer', run (putString font) w pre = some w' ∧
          run (putString font) writer pre = some writer' ∧
          ∃ grid, Agree font w' writer' grid := by
  intro hall
  have hwindow : (ConsoleTarget.window (.new 640 400 .kPixelRGBResv8BitPerColor) :
      ConsoleTarget consoleConfig).HasRoom := by decide
  have hfb : (ConsoleTarget.screen (.zeros consoleConfig)).HasRoom := by decide
  obtain ⟨w, writer, hw, hwriter, htwin⟩ := twin_empty ⟨[], by decide⟩ hwindow hfb
    ⟨255, 255, 255⟩ ⟨0, 0, 0⟩ (Fin.last 24)
  apply not_admits_letterThenLine htwin
  refine (agree_calls_iff htwin letterThenLine).mp fun calls _ => ?_
  exact hall consoleConfig ⟨[], by decide⟩ ⟨255, 255, 255⟩ ⟨0, 0, 0⟩ (Fin.last 24) _ _ hwindow hfb
    w writer hw hwriter calls

end UhyokOS
