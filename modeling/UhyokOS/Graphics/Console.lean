import UhyokOS.Graphics.Text
import UhyokOS.Graphics.Moving
import UhyokOS.Lib.TextScreen
import Mathlib.Data.List.FinRange

/-!
# The console

The model of class `Console`, which draws into a window or, without one, through a writer of the
screen. Both are kept with their pixels. `LayerManager::Draw`, which `PutString` calls at its end,
only reads the windows and is left out.
-/

namespace UhyokOS

open FrameBufferConfig Transition

variable {config : FrameBufferConfig}

/-- A character of a C string; the terminator is none. -/
abbrev TextChar := { c : UInt8 // c ≠ 0 }

/-- `'\n'` -/
abbrev TextChar.eol : TextChar := ⟨0x0a, by decide⟩

/-- Source: `kernel/console.hpp`, `Console::kRows` -/
abbrev Console.kRows : Nat := 25

/-- Source: `kernel/console.hpp`, `Console::kColumns` -/
abbrev Console.kColumns : Nat := 80

/-- Source: `kernel/console.hpp`, `Console::buffer_` -/
abbrev Console.Buffer := Fin kRows → Fin (kColumns + 1) → UInt8

/-- What `writer_` and `window_` refer to: nothing yet, the screen, or a window and its writer. -/
inductive ConsoleTarget (config : FrameBufferConfig)
  | null
  | screen (fb : FrameBuffer config)
  | window (w : Window)

namespace ConsoleTarget

/-- Drawing with `writer_`. -/
def writeAll : ConsoleTarget config → Writes → Option (ConsoleTarget config)
  | null, calls => if calls.isEmpty then some null else none
  | screen fb, calls => (fb.writeAll calls).map screen
  | window w, calls => (w.writeAll calls).map window

theorem writeAll_screen (fb : FrameBuffer config) (calls : Writes) :
    (screen fb).writeAll calls = (fb.writeAll calls).map screen := rfl

theorem writeAll_window (w : Window) (calls : Writes) :
    (window w : ConsoleTarget config).writeAll calls = (w.writeAll calls).map window := rfl

/-- `window_` is set. -/
def isWindow : ConsoleTarget config → Bool
  | window _ => true
  | _ => false

/-- What is on display; an opaque window is drawn from its shadow buffer. -/
def pixel : ConsoleTarget config → Vector2D → PixelColor
  | null, _ => ⟨0, 0, 0⟩
  | screen fb, p => fb.pixel p
  | window w, p => w.shadowBuffer.pixel p

end ConsoleTarget

/-- Source: `kernel/console.hpp`, `Console` -/
structure Console (config : FrameBufferConfig) where
  /-- `writer_` and `window_` -/
  target : ConsoleTarget config
  fgColor : PixelColor
  bgColor : PixelColor
  buffer : Console.Buffer
  cursorRow : Fin Console.kRows
  cursorColumn : Fin Console.kColumns

namespace Console

variable {font : Font}

/-- Source: `kernel/console.cpp`, `Console::Console` -/
def new (fgColor bgColor : PixelColor) : Console config where
  target := .null
  fgColor := fgColor
  bgColor := bgColor
  buffer := fun _ _ => 0
  cursorRow := 0
  cursorColumn := 0

/-- Source: `kernel/console.cpp`, `Console::Refresh` -/
def refresh (font : Font) (c : Console config) : Option (Console config) :=
  (c.target.writeAll
    (fillRectangle ⟨0, 0⟩ ⟨8 * kColumns, 16 * kRows⟩ c.bgColor ++
      (List.finRange kRows).flatMap fun row =>
        writeString font ⟨0, 16 * row.val⟩ (List.ofFn (c.buffer row)) c.fgColor)).map
    fun target => { c with target := target }

/-- `none` stands for the writer that the console has.
Source: `kernel/console.cpp`, `Console::SetWriter` -/
def setWriter (font : Font) (c : Console config) :
    Option (FrameBuffer config) → Option (Console config)
  | none => some c
  | some writer => { c with target := .screen writer }.refresh font

/-- `none` stands for the window that the console has.
Source: `kernel/console.cpp`, `Console::SetWindow` -/
def setWindow (font : Font) (c : Console config) : Option Window → Option (Console config)
  | none => some c
  | some window => { c with target := .window window }.refresh font

/-- The loop of `Newline` without a window after `k` rows: `buffer_` and the calls on the writer.
Source: `kernel/console.cpp`, `Console::Newline` -/
def scrollRows (font : Font) (fgColor : PixelColor) (buffer : Buffer) :
    (k : Nat) → k < kRows → Buffer × Writes
  | 0, _ => (buffer, [])
  | row + 1, h =>
      let (buffer, calls) := scrollRows font fgColor buffer row (Nat.lt_of_succ_lt h)
      let buffer := Function.update buffer ⟨row, Nat.lt_of_succ_lt h⟩ (buffer ⟨row + 1, h⟩)
      (buffer, calls ++
        writeString font ⟨0, 16 * row⟩ (List.ofFn (buffer ⟨row, Nat.lt_of_succ_lt h⟩)) fgColor)

/-- Source: `kernel/console.cpp`, `Console::Newline` -/
def newline (font : Font) (c : Console config) : Option (Console config) :=
  let c := { c with cursorColumn := 0 }
  if h : c.cursorRow.val < kRows - 1 then
    some { c with cursorRow := ⟨c.cursorRow.val + 1, by omega⟩ }
  else
    match c.target with
    | .window window =>
        let moveSrc : Rectangle := ⟨⟨0, 16⟩, ⟨8 * kColumns, 16 * (kRows - 1)⟩⟩
        (window.move ⟨0, 0⟩ moveSrc).bind fun window =>
          (window.writeAll
            (fillRectangle ⟨0, 16 * (kRows - 1)⟩ ⟨8 * kColumns, 16⟩ c.bgColor)).map
            fun window => { c with target := .window window }
    | target =>
        let scrolled := scrollRows font c.fgColor c.buffer (kRows - 1) (by decide)
        (target.writeAll
          (fillRectangle ⟨0, 0⟩ ⟨8 * kColumns, 16 * kRows⟩ c.bgColor ++ scrolled.2)).map
          fun target =>
            { c with
              target := target
              buffer := Function.update scrolled.1 (Fin.last (kRows - 1)) fun _ => 0 }

/-- The body of the loop of `PutString`.
Source: `kernel/console.cpp`, `Console::PutString` -/
def putChar (font : Font) (c : Console config) (s : TextChar) : Option (Console config) :=
  if s = TextChar.eol then c.newline font
  else if h : c.cursorColumn.val < kColumns - 1 then
    (c.target.writeAll (writeAscii font ⟨8 * c.cursorColumn.val, 16 * c.cursorRow.val⟩ s
      c.fgColor)).map fun target =>
      { c with
        target := target
        buffer := Function.update c.buffer c.cursorRow
          (Function.update (c.buffer c.cursorRow) c.cursorColumn.castSucc s)
        cursorColumn := ⟨c.cursorColumn.val + 1, by omega⟩ }
  else some c

/-- Source: `kernel/console.cpp`, `Console::PutString` -/
def putString (font : Font) (c : Console config) (s : List TextChar) : Option (Console config) :=
  s.foldlM (putChar font) c

end Console

end UhyokOS
