import UhyokOS.Graphics.Geometry
import UhyokOS.Terminal.Commands

/-!
# The terminal

The model of class `Terminal`. The calls it makes on its window are recorded in order (`drawn`);
nothing the terminal decides depends on them. A function is undefined (`none`) exactly where the
source would index an array out of bounds, call `pop_back` on an empty deque or read a string
without a terminator.
-/

namespace UhyokOS

/-- Source: `kernel/terminal.hpp`, `Terminal::kRows` -/
abbrev kRows : Int := 15

/-- Source: `kernel/terminal.hpp`, `Terminal::kColumns` -/
abbrev kColumns : Int := 60

/-- Source: `kernel/terminal.hpp`, `Terminal::kLineMax` -/
abbrev kLineMax : Nat := 128

/-- Source: `kernel/window.hpp`, `ToplevelWindow::kTopLeftMargin` -/
def kTopLeftMargin : Vector2D := ⟨4, 24⟩

/-- `window_->InnerSize()` of the window the constructor makes. -/
def innerSize : Vector2D := ⟨kColumns * 8 + 8, kRows * 16 + 8⟩

/-- A call on the terminal's window. -/
inductive DrawCall
  /-- `FillRectangle` with the window's writer, or the writer of its inner area. -/
  | fillRectangle (inner : Bool) (pos size : Vector2D) (c : PixelColor)
  /-- `WriteAscii` -/
  | writeAscii (pos : Vector2D) (c : UInt8) (color : PixelColor)
  /-- `WriteString` -/
  | writeString (pos : Vector2D) (s : List UInt8) (color : PixelColor)
  /-- `Window::Move` -/
  | move (dstPos : Vector2D) (src : Rectangle)
  deriving DecidableEq

/-- The colour of the terminal's background. -/
abbrev kTerminalColor : PixelColor := ⟨200, 178, 255⟩

/-- The colour of its text. -/
abbrev kTextColor : PixelColor := ⟨255, 255, 255⟩

/-- A line buffer, `std::array<char, kLineMax>`. -/
abbrev LineBuf := CharArray UInt8 kLineMax

/-- Source: `kernel/terminal.hpp`, `Terminal` -/
structure Terminal where
  /-- `cursor_` -/
  cursor : Vector2D := ⟨0, 0⟩
  /-- `cursor_visible_` -/
  cursorVisible : Bool := false
  /-- `linebuf_index_` -/
  linebufIndex : Nat := 0
  /-- `linebuf_` -/
  linebuf : LineBuf := .zeros kLineMax
  /-- `cmd_history_`, front first -/
  cmdHistory : List LineBuf := []
  /-- `cmd_history_index_` -/
  cmdHistoryIndex : Int := -1
  /-- The calls made on `*window_`, oldest first. -/
  drawn : List DrawCall := []
  deriving DecidableEq

/-- A keyboard message. -/
structure Key where
  modifier : UInt8
  keycode : UInt8
  ascii : UInt8
  deriving DecidableEq

/-- The conversion of an `int` to `size_t`. -/
def toSizeT (i : Int) : Nat := (i % 2 ^ 64).toNat

namespace Terminal

/-- A call on the window. -/
def draw (t : Terminal) (call : DrawCall) : Terminal := { t with drawn := t.drawn ++ [call] }

/-- Source: `kernel/terminal.cpp`, `Terminal::CalcCursorPos` -/
def calcCursorPos (t : Terminal) : Vector2D :=
  kTopLeftMargin + ⟨4 + 8 * t.cursor.x, 4 + 16 * t.cursor.y⟩

/-- Source: `kernel/terminal.cpp`, `Terminal::DrawCursor` -/
def drawCursor (t : Terminal) (visible : Bool) : Terminal :=
  let color := if visible then toColor 0xa47fff else toColor 0xC8B2FF
  t.draw (.fillRectangle false t.calcCursorPos ⟨7, 15⟩ color)

/-- Source: `kernel/terminal.cpp`, `Terminal::BlinkCursor` -/
def blinkCursor (t : Terminal) : Terminal × Rectangle :=
  let t := { t with cursorVisible := !t.cursorVisible }
  let t := t.drawCursor t.cursorVisible
  (t, ⟨t.calcCursorPos, ⟨7, 15⟩⟩)

/-- Source: `kernel/terminal.cpp`, `Terminal::Scroll1` -/
def scroll1 (t : Terminal) : Terminal :=
  let moveSrc : Rectangle := ⟨kTopLeftMargin + ⟨4, 4 + 16⟩, ⟨8 * kColumns, 16 * (kRows - 1)⟩⟩
  let t := t.draw (.move (kTopLeftMargin + ⟨4, 4⟩) moveSrc)
  t.draw (.fillRectangle true ⟨4, 4 + 16 * t.cursor.y⟩ ⟨8 * kColumns, 16⟩ kTerminalColor)

/-- The start of the next line; the same statements are in `Print` and `InputKey`.
Source: `kernel/terminal.cpp`, `Terminal::Print` -/
def newline (t : Terminal) : Terminal :=
  let t := { t with cursor := ⟨0, t.cursor.y⟩ }
  if t.cursor.y < kRows - 1 then { t with cursor := ⟨t.cursor.x, t.cursor.y + 1⟩ } else t.scroll1

/-- The body of the loop of `Print`.
Source: `kernel/terminal.cpp`, `Terminal::Print` -/
def printChar (t : Terminal) (c : UInt8) : Terminal :=
  if c = 0x0a then t.newline
  else
    let t := t.draw (.writeAscii t.calcCursorPos c kTextColor)
    if t.cursor.x = kColumns - 1 then t.newline
    else { t with cursor := ⟨t.cursor.x + 1, t.cursor.y⟩ }

/-- Source: `kernel/terminal.cpp`, `Terminal::Print` -/
def print (t : Terminal) (s : List UInt8) : Terminal :=
  let t := t.drawCursor false
  let t := s.foldl printChar t
  t.drawCursor true

/-- The terminal after its constructor; `layer_id_` is not used by the functions below.
Source: `kernel/terminal.cpp`, `Terminal::Terminal` -/
def init : Terminal :=
  let t : Terminal := {}
  let t := t.draw (.fillRectangle true ⟨0, 0⟩ innerSize (toColor 0xC8B2FF))
  t.print (text ">")

/-- The command part of `ExecuteLine`, `command` being the first word of the line.
Source: `kernel/terminal.cpp`, `Terminal::ExecuteLine` -/
def runCommand (t : Terminal) (m : Machine) (command : List UInt8)
    (firstArg : Option (List UInt8)) : Terminal :=
  if command = text "echo" then
    let t := match firstArg with
      | some arg => t.print arg
      | none => t
    t.print (text "\n")
  else if command = text "clear" then
    let t := t.draw (.fillRectangle true ⟨4, 4⟩ ⟨8 * kColumns, 16 * kRows⟩ kTerminalColor)
    { t with cursor := ⟨t.cursor.x, 0⟩ }
  else if command = text "lspci" then
    (m.devices.map (lspciLine m)).foldl print t
  else if command = text "ls" then
    (lsLines m 0 m.entriesPerCluster).foldl print t
  else if command ≠ [] then
    let t := t.print (text "no such command: ")
    let t := t.print command
    t.print (text "\n")
  else t

/-- The line is cut at its first space.
Source: `kernel/terminal.cpp`, `Terminal::ExecuteLine` -/
def executeLine (t : Terminal) (m : Machine) : Option Terminal := do
  let line ← t.linebuf.text?
  match line.idxOf? 0x20 with
  | none => return t.runCommand m line none
  | some i =>
      let linebuf ← t.linebuf.write? i 0
      let t := { t with linebuf := linebuf }
      return t.runCommand m (line.take i) (some (line.drop (i + 1)))

/-- Source: `kernel/terminal.cpp`, `Terminal::HistoryUpDown` -/
def historyUpDown (t : Terminal) (direction : Int) : Option (Terminal × Rectangle) := do
  let index :=
    if direction = -1 ∧ t.cmdHistoryIndex ≥ 0 then t.cmdHistoryIndex - 1
    else if direction = 1 ∧ toSizeT (t.cmdHistoryIndex + 1) < t.cmdHistory.length then
      t.cmdHistoryIndex + 1
    else t.cmdHistoryIndex
  let t := { t with cmdHistoryIndex := index, cursor := ⟨1, t.cursor.y⟩ }
  let firstPos := t.calcCursorPos
  let drawArea : Rectangle := ⟨firstPos, ⟨8 * (kColumns - 1), 16⟩⟩
  let t := t.draw (.fillRectangle false drawArea.pos drawArea.size kTerminalColor)
  let entry :=
    if index ≥ 0 then (t.cmdHistory[toSizeT index]?).bind CharArray.text? else some []
  let history ← entry
  let linebuf ← t.linebuf.copy? history
  let t := { t with linebuf := linebuf, linebufIndex := history.length }
  let t := t.draw (.writeString firstPos history kTextColor)
  let t := { t with cursor := ⟨(t.linebufIndex : Int) + 1, t.cursor.y⟩ }
  return (t, drawArea)

/-- `cmd_history_.pop_back(); cmd_history_.push_front(linebuf_);` -/
def pushHistory (t : Terminal) : Option Terminal :=
  if t.cmdHistory = [] then none
  else some { t with cmdHistory := t.linebuf :: t.cmdHistory.dropLast }

/-- `std::deque::resize`, new elements being zero. -/
def resizeHistory (history : List LineBuf) (n : Nat) : List LineBuf :=
  history.take n ++ List.replicate (n - history.length) (.zeros kLineMax)

/-- The branch of `InputKey` for the enter key.
Source: `kernel/terminal.cpp`, `Terminal::InputKey` -/
def enter (t : Terminal) (m : Machine) : Option (Terminal × Rectangle) := do
  let linebuf ← t.linebuf.write? t.linebufIndex 0
  let t := { t with linebuf := linebuf }
  let pushed := if t.linebufIndex > 0 then t.pushHistory else some t
  let t ← pushed
  let t := { t with linebufIndex := 0, cmdHistoryIndex := -1 }
  let t := t.newline
  let t ← t.executeLine m
  let t := t.print (text ">")
  let t := { t with cmdHistory := resizeHistory t.cmdHistory 8 }
  return (t, ⟨kTopLeftMargin, innerSize⟩)

/-- The branch for the backspace key.
Source: `kernel/terminal.cpp`, `Terminal::InputKey` -/
def backspace (t : Terminal) (drawArea : Rectangle) : Terminal × Rectangle :=
  if t.cursor.x > 0 then
    let t := { t with cursor := ⟨t.cursor.x - 1, t.cursor.y⟩ }
    let t := t.draw (.fillRectangle false t.calcCursorPos ⟨8, 16⟩ kTerminalColor)
    let drawArea := { drawArea with pos := t.calcCursorPos }
    let t := if t.linebufIndex > 0 then { t with linebufIndex := t.linebufIndex - 1 } else t
    (t, drawArea)
  else (t, drawArea)

/-- The branch for any other character.
Source: `kernel/terminal.cpp`, `Terminal::InputKey` -/
def typeChar (t : Terminal) (ascii : UInt8) : Option Terminal :=
  if t.cursor.x < kColumns - 1 ∧ t.linebufIndex < kLineMax - 1 then do
    let linebuf ← t.linebuf.write? t.linebufIndex ascii
    let t := { t with linebuf := linebuf, linebufIndex := t.linebufIndex + 1 }
    let t := t.draw (.writeAscii t.calcCursorPos ascii kTextColor)
    return { t with cursor := ⟨t.cursor.x + 1, t.cursor.y⟩ }
  else some t

/-- The branches of `InputKey`.
Source: `kernel/terminal.cpp`, `Terminal::InputKey` -/
def handleKey (t : Terminal) (m : Machine) (key : Key) (drawArea : Rectangle) :
    Option (Terminal × Rectangle) :=
  if key.ascii = 0x0a then t.enter m
  else if key.ascii = 0x08 then some (t.backspace drawArea)
  else if key.ascii ≠ 0 then (t.typeChar key.ascii).map fun t => (t, drawArea)
  else if key.keycode = 0x51 then t.historyUpDown (-1)
  else if key.keycode = 0x52 then t.historyUpDown 1
  else some (t, drawArea)

/-- Source: `kernel/terminal.cpp`, `Terminal::InputKey` -/
def inputKey (t : Terminal) (m : Machine) (key : Key) : Option (Terminal × Rectangle) := do
  let t := t.drawCursor false
  let drawArea : Rectangle := ⟨t.calcCursorPos, ⟨8 * 2, 16⟩⟩
  let (t, drawArea) ← t.handleKey m key drawArea
  return (t.drawCursor true, drawArea)

end Terminal

end UhyokOS
