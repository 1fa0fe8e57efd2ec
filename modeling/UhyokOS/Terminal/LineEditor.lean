import UhyokOS.Terminal.Lines
import UhyokOS.Lib.Transition

/-!
# The terminal as a line editor

`InputKey` edits a line in a fixed array without a terminator, and the history in arrays that it
copies to and from. The reference is an editor on lists, which has no arrays to overflow.

* `inputKey_edits`: a key does to the terminal what its edit does to the reference editor.
* `line_editor_exact`: so it is for every sequence of keys, and Enter passes the line of the
  reference editor to `ExecuteLine`.
* `lineInv_of_run`: the terminal meets the conditions for that in every run from its constructor.
-/

namespace UhyokOS

open Transition

/-! ## The reference editor -/

/-- A line editor. -/
structure LineEditor (α : Type) where
  /-- The line. -/
  line : List α
  /-- The column in which the next character appears. -/
  column : Int
  /-- The lines entered before, newest first. -/
  history : List (List α)
  /-- How many lines back the line was recalled from, 0 if it was not. -/
  back : Nat
  deriving DecidableEq

/-- What a key asks for. -/
inductive Edit (α : Type)
  /-- Append a character. -/
  | append (c : α)
  /-- Delete the last character. -/
  | delete
  /-- Enter the line. -/
  | enter
  /-- Recall the line before the one on display. -/
  | older
  /-- Recall the line after the one on display. -/
  | newer
  /-- None of these. -/
  | ignore

namespace LineEditor

variable {α : Type} [DecidableEq α]

/-- Replace the line by the one that was entered `back` lines ago, by the empty line if that is 0. -/
def recallLine (e : LineEditor α) (back : Nat) : LineEditor α :=
  let line := ([] :: e.history).getD back []
  { e with line := line, column := line.length + 1, back := back }

/-- A character is accepted left of column `width`, in a line shorter than `bound`. -/
def edit (width : Int) (bound : Nat) (e : LineEditor α) : Edit α → LineEditor α
  | .append c =>
      if e.column < width ∧ e.line.length < bound then
        { e with line := e.line ++ [c], column := e.column + 1 }
      else e
  | .delete =>
      { e with line := e.line.dropLast, column := if 0 < e.column then e.column - 1 else e.column }
  | .enter =>
      { line := []
        column := 1
        history := if e.line = [] then e.history else e.line :: e.history.dropLast
        back := 0 }
  | .older => e.recallLine (if e.back < e.history.length then e.back + 1 else e.back)
  | .newer => e.recallLine (e.back - 1)
  | .ignore => e

end LineEditor

/-- What a key asks the terminal for. -/
def Key.edit (key : Key) : Edit UInt8 :=
  if key.ascii = 0x0a then .enter
  else if key.ascii = 0x08 then .delete
  else if key.ascii ≠ 0 then .append key.ascii
  else if key.keycode = 0x51 then .newer
  else if key.keycode = 0x52 then .older
  else .ignore

namespace Terminal

/-- The line editor that a terminal implements. -/
def editor (t : Terminal) : LineEditor UInt8 where
  line := t.typed
  column := t.cursor.x
  history := t.cmdHistory.map fun entry => entry.chars.takeWhile (· ≠ 0)
  back := (t.cmdHistoryIndex + 1).toNat

/-- What a key does to it. -/
def referenceEdit (e : LineEditor UInt8) (input : Machine × Key) : LineEditor UInt8 :=
  e.edit (kColumns - 1) (kLineMax - 1) input.2.edit

/-- A call of `InputKey`, on a machine in any state. -/
def keyStep (t : Terminal) (input : Machine × Key) : Option Terminal :=
  (t.inputKey input.1 input.2).map Prod.fst

/-- The part of the branch for the enter key before `ExecuteLine`.
Source: `kernel/terminal.cpp`, `Terminal::InputKey` -/
def lineEntered (t : Terminal) : Option Terminal := do
  let linebuf ← t.linebuf.write? t.linebufIndex 0
  let t := { t with linebuf := linebuf }
  let pushed := if t.linebufIndex > 0 then t.pushHistory else some t
  let t ← pushed
  let t := { t with linebufIndex := 0, cmdHistoryIndex := -1 }
  return t.newline

/-- The line that `InputKey` passes to `ExecuteLine` if the enter key is pressed. -/
def executedLine (t : Terminal) : Option (List UInt8) :=
  (t.drawCursor false).lineEntered.bind fun t => t.linebuf.text?

/-- What the constructor and the keys keep of the members, whatever the history holds. -/
structure LineInv (t : Terminal) : Prop where
  y_nonneg : 0 ≤ t.cursor.y
  y_lt : t.cursor.y < kRows
  index_le : t.linebufIndex ≤ kLineMax - 1
  /-- The prompt and the typed text are left of the cursor, but for a prompt that was erased. -/
  column : (t.linebufIndex : Int) ≤ t.cursor.x
  /-- Only characters other than the terminator are typed. -/
  typed_text : 0 ∉ t.typed
  history_ge : -1 ≤ t.cmdHistoryIndex
  history_lt : t.cmdHistoryIndex < t.cmdHistory.length

variable {t t' : Terminal} {m : Machine} {key : Key} {area : Rectangle}

/-! ## The line and the history -/

/-- The characters up to the index are the line. -/
theorem length_typed (h : t.linebufIndex ≤ kLineMax) : t.typed.length = t.linebufIndex := by
  unfold typed
  rw [List.length_take, t.linebuf.length_eq, Nat.min_eq_left h]

theorem EditorInv.length_typed (h : EditorInv (kLineMax - 1) t) :
    t.typed.length = t.linebufIndex :=
  Terminal.length_typed (h.typed_le.trans (Nat.sub_le _ _))

theorem drawCursor_editor (t : Terminal) (visible : Bool) :
    (t.drawCursor visible).editor = t.editor := rfl

/-! ## Keys -/

/-- **A character** is appended if there is room. -/
theorem typeChar_editor (h : EditorInv (kLineMax - 1) t) {c : UInt8}
    (heq : t.typeChar c = some t') :
    t'.editor = t.editor.edit (kColumns - 1) (kLineMax - 1) (.append c) := by
  have hlen : t.editor.line.length = t.linebufIndex := h.length_typed
  unfold typeChar at heq
  unfold LineEditor.edit
  simp only [hlen]
  have hcolumn : t.editor.column = t.cursor.x := rfl
  rw [hcolumn]
  split_ifs at heq ⊢ with hroom
  · obtain ⟨linebuf, hwrite, heq⟩ := Option.bind_eq_some_iff.mp heq
    cases heq
    have hi : t.linebufIndex < kLineMax := lt_of_lt_of_le hroom.2 (Nat.sub_le _ _)
    have htyped : linebuf.chars.take (t.linebufIndex + 1) = t.typed ++ [c] :=
      CharArray.take_write hi hwrite
    unfold editor typed
    simp only [draw, htyped]
    rfl
  · cases heq
    rfl

theorem backspace_linebuf (t : Terminal) (area : Rectangle) :
    (t.backspace area).1.linebuf = t.linebuf := by
  unfold backspace
  simp only
  split_ifs <;> rfl

/-- **Backspace** deletes the last character: with the cursor in column 0 there is none. -/
theorem backspace_editor (h : EditorInv (kLineMax - 1) t)
    (hcolumn : (t.linebufIndex : Int) ≤ t.cursor.x) (area : Rectangle) :
    (t.backspace area).1.editor = t.editor.edit (kColumns - 1) (kLineMax - 1) .delete := by
  obtain ⟨-, hx, hindex, hhist, hhidx⟩ := backspace_spec h area
  have hle : t.linebufIndex < t.linebuf.chars.length := by
    rw [t.linebuf.length_eq]
    exact lt_of_le_of_lt h.typed_le (by decide)
  have htyped : (t.backspace area).1.typed = t.typed.dropLast := by
    have hstay : (t.backspace area).1.linebufIndex = t.linebufIndex - 1 := by
      rw [hindex]
      split_ifs <;> omega
    unfold typed
    rw [backspace_linebuf, hstay, List.dropLast_take hle]
  unfold LineEditor.edit editor
  simp only [htyped, hx, hhist, hhidx]

/-- `cmd_history_index_` after an arrow key. -/
theorem historyUpDown_index {direction : Int} (heq : t.historyUpDown direction = some (t', area)) :
    t'.cmdHistoryIndex = t.nextIndex direction := by
  unfold historyUpDown at heq
  simp only [Option.bind_eq_bind] at heq
  obtain ⟨line, -, heq⟩ := Option.bind_eq_some_iff.mp heq
  obtain ⟨linebuf, -, heq⟩ := Option.bind_eq_some_iff.mp heq
  cases heq
  rfl

/-- The entry at the index is the line recalled from there. -/
theorem getD_history {line : List UInt8} (h : EditorInv (kLineMax - 1) t)
    (hline : t.recalled = some line) :
    ([] :: t.editor.history).getD t.editor.back [] = line := by
  have hge := h.index_ge
  have hlt := h.index_lt
  have hle := h.history_le
  unfold recalled at hline
  split_ifs at hline with hpos
  · have hback : t.editor.back = t.cmdHistoryIndex.toNat + 1 := by
      show (t.cmdHistoryIndex + 1).toNat = _
      omega
    rw [toSizeT_of_lt hpos (by omega)] at hline
    obtain ⟨entry, hentry, htext⟩ := Option.bind_eq_some_iff.mp hline
    have hcut := CharArray.text?_eq_some_of_mem (CharArray.mem_of_text? htext)
    rw [hcut] at htext
    rw [hback, List.getD_cons_succ, List.getD_eq_getElem?_getD]
    show ((t.cmdHistory.map _)[t.cmdHistoryIndex.toNat]?).getD [] = line
    rw [List.getElem?_map, hentry]
    exact Option.some.inj htext
  · have hback : t.editor.back = 0 := by
      show (t.cmdHistoryIndex + 1).toNat = 0
      omega
    rw [hback]
    exact Option.some.inj hline

/-- **An arrow key** recalls the line at the next index. -/
theorem historyUpDown_editor (h : EditorInv (kLineMax - 1) t) {direction : Int}
    (heq : t.historyUpDown direction = some (t', area)) :
    t'.editor = t.editor.recallLine (t.nextIndex direction + 1).toNat := by
  obtain ⟨t'', area', line, heq', hinv, hhist, hrec, htext, hindex, hx⟩ :=
    historyUpDown_spec h (by decide) direction
  rw [heq'] at heq
  cases heq
  have hhidx := historyUpDown_index heq'
  have htyped : t'.typed = line := by
    unfold typed
    rw [hindex]
    exact CharArray.take_of_text? htext
  have hshown := getD_history hinv hrec
  have hhistory : t'.editor.history = t.editor.history := by
    show t'.cmdHistory.map _ = t.cmdHistory.map _
    rw [hhist]
  have hback : t'.editor.back = (t.nextIndex direction + 1).toNat := by
    show (t'.cmdHistoryIndex + 1).toNat = _
    rw [hhidx]
  rw [hback, hhistory] at hshown
  unfold LineEditor.recallLine
  simp only [hshown]
  unfold editor at hhistory ⊢
  simp only [htyped, hx, hhist, hhidx]

/-- The index that the down arrow goes to. -/
theorem nextIndex_newer (h : EditorInv (kLineMax - 1) t) :
    (t.nextIndex (-1) + 1).toNat = t.editor.back - 1 := by
  have hge := h.index_ge
  show _ = (t.cmdHistoryIndex + 1).toNat - 1
  unfold nextIndex
  by_cases hpos : t.cmdHistoryIndex ≥ 0
  · rw [if_pos ⟨rfl, hpos⟩]
    omega
  · rw [if_neg fun hdown => hpos hdown.2, if_neg fun hup => absurd hup.1 (by decide)]
    omega

/-- The index that the up arrow goes to. -/
theorem nextIndex_older (h : EditorInv (kLineMax - 1) t) :
    (t.nextIndex 1 + 1).toNat =
      if t.editor.back < t.editor.history.length then t.editor.back + 1 else t.editor.back := by
  have hge := h.index_ge
  have hlt := h.index_lt
  have hle := h.history_le
  have hlen : t.editor.history.length = t.cmdHistory.length := List.length_map _
  have hback : t.editor.back = (t.cmdHistoryIndex + 1).toNat := rfl
  rw [hlen, hback]
  unfold nextIndex
  rw [if_neg fun hdown => absurd hdown.1 (by decide), toSizeT_of_lt (by omega) (by omega)]
  by_cases hroom : (t.cmdHistoryIndex + 1).toNat < t.cmdHistory.length
  · rw [if_pos ⟨rfl, hroom⟩, if_pos hroom]
    omega
  · rw [if_neg fun hup => hroom hup.2, if_neg hroom]

/-- The branch for the enter key passes the terminal to `ExecuteLine` and starts over. -/
theorem enter_eq (t : Terminal) (m : Machine) :
    t.enter m = t.lineEntered.bind fun t => (t.executeLine m).map fun t =>
      ({ t.print (text ">") with
          cmdHistory := resizeHistory (t.print (text ">")).cmdHistory 8 },
        ⟨kTopLeftMargin, innerSize⟩) := by
  unfold enter lineEntered
  simp only [Option.bind_eq_bind, Option.bind_assoc, Option.map_eq_bind]
  rfl

/-- `ExecuteLine` finds the line in `linebuf_`, ended by a terminator. -/
theorem text_lineEntered (h : EditorInv (kLineMax - 1) t) (heq : t.lineEntered = some t') :
    t'.linebuf.text? = some t.typed := by
  unfold lineEntered at heq
  simp only [Option.bind_eq_bind] at heq
  obtain ⟨linebuf, hwrite, heq⟩ := Option.bind_eq_some_iff.mp heq
  obtain ⟨t₁, hpush, heq⟩ := Option.bind_eq_some_iff.mp heq
  cases heq
  have hkept : t₁.linebuf = linebuf := by
    unfold pushHistory at hpush
    split_ifs at hpush <;> cases hpush <;> rfl
  rw [(newline_editor _).linebuf]
  show t₁.linebuf.text? = some t.typed
  rw [hkept]
  exact CharArray.text?_write_nul (lt_of_le_of_lt h.typed_le (by decide)) h.typed_text hwrite

/-- **Enter** records the line and starts a new one. -/
theorem enter_editor (h : EditorInv (kLineMax - 1) t) (hsized : t.cmdHistory.length = 8)
    (heq : t.enter m = some (t', area)) :
    t'.editor = t.editor.edit (kColumns - 1) (kLineMax - 1) .enter := by
  have hsome : t.cmdHistory ≠ [] := fun hempty => by simp [hempty] at hsized
  obtain ⟨t'', area', entry, heq', -, hx, hindex, hhidx, htext, hhist, -⟩ :=
    enter_spec h (by decide) (fun _ => hsome) m
  rw [heq'] at heq
  cases heq
  have htyped : t'.typed = [] := by
    unfold typed
    rw [hindex, List.take_zero]
  have hempty : t.typed = [] ↔ ¬0 < t.linebufIndex := by
    rw [← List.length_eq_zero_iff, h.length_typed, Nat.pos_iff_ne_zero, not_not]
  have hentry : entry.chars.takeWhile (· ≠ 0) = t.typed := by
    have hcut := CharArray.text?_eq_some_of_mem (CharArray.mem_of_text? htext)
    rw [htext] at hcut
    exact (Option.some.inj hcut).symm
  have hrecord : t'.editor.history =
      if t.typed = [] then t.editor.history else t.typed :: t.editor.history.dropLast := by
    show t'.cmdHistory.map _ = _
    rw [hhist]
    unfold entered
    by_cases hpos : 0 < t.linebufIndex
    · have hpushed : (entry :: t.cmdHistory.dropLast).length = 8 := by
        rw [List.length_cons, List.length_dropLast, hsized]
      rw [if_pos hpos, resizeHistory_of_length hpushed, if_neg fun hnil => hempty.mp hnil hpos,
        List.map_cons, hentry, List.map_dropLast]
      rfl
    · rw [if_neg hpos, resizeHistory_of_length hsized, if_pos (hempty.mpr hpos)]
      rfl
  unfold LineEditor.edit
  unfold editor at hrecord ⊢
  simp only [htyped, hx, hhidx] at hrecord ⊢
  simp only [hrecord]
  rfl

/-- **What a key does.** -/
theorem handleKey_editor {area' : Rectangle} (h : EditorInv (kLineMax - 1) t)
    (hcolumn : (t.linebufIndex : Int) ≤ t.cursor.x) (hsized : t.cmdHistory.length = 8)
    (heq : t.handleKey m key area = some (t', area')) :
    t'.editor = t.editor.edit (kColumns - 1) (kLineMax - 1) key.edit := by
  unfold handleKey at heq
  unfold Key.edit
  split_ifs at heq ⊢ with hnl hbs hchar hdown hup
  · exact enter_editor h hsized heq
  · have hpair : t.backspace area = (t', area') := Option.some.inj heq
    have hbackspace := backspace_editor h hcolumn area
    rwa [hpair] at hbackspace
  · obtain ⟨t'', hadd, heq⟩ := Option.map_eq_some_iff.mp heq
    cases heq
    exact typeChar_editor h hadd
  · rw [historyUpDown_editor h heq, nextIndex_newer h]
    rfl
  · rw [historyUpDown_editor h heq, nextIndex_older h]
    rfl
  · cases heq
    rfl

/-! ## Runs -/

/-- The terminal implements a line editor with a history of eight lines. -/
structure Represents (t : Terminal) (e : LineEditor UInt8) : Prop where
  inv : EditorInv (kLineMax - 1) t
  column : (t.linebufIndex : Int) ≤ t.cursor.x
  sized : t.cmdHistory.length = 8
  editor_eq : t.editor = e

/-- The column is right of the text after every key. -/
theorem KeyEffect.column (h : KeyEffect t key t')
    (hcolumn : (t.linebufIndex : Int) ≤ t.cursor.x) : (t'.linebufIndex : Int) ≤ t'.cursor.x := by
  cases h with
  | enter entry isEnter x index text history =>
      rw [x, index]
      decide
  | backspace isBackspace x index history =>
      rw [x, index]
      split_ifs <;> omega
  | append notArrow notEnter notBackspace room x index history =>
      rw [x, index]
      omega
  | arrow line notEnter notBackspace recalled text x index history =>
      rw [x, index]
      omega
  | ignore notArrow notEnter notBackspace x index history =>
      rw [x, index]
      exact hcolumn

/-- The history keeps its eight entries. -/
theorem KeyEffect.sized (h : KeyEffect t key t') (hsized : t.cmdHistory.length = 8) :
    t'.cmdHistory.length = 8 := by
  cases h with
  | enter entry isEnter x index text history =>
      rw [history, entered, length_resizeHistory]
  | backspace isBackspace x index history => rw [history, hsized]
  | append notArrow notEnter notBackspace room x index history => rw [history, hsized]
  | arrow line notEnter notBackspace recalled text x index history => rw [history, hsized]
  | ignore notArrow notEnter notBackspace x index history => rw [history, hsized]

/-- Left of the last column there is room in the array. -/
theorem room_of_column (hcolumn : (t.linebufIndex : Int) ≤ t.cursor.x)
    (hlt : t.cursor.x < kColumns - 1) : t.linebufIndex < kLineMax - 1 := by
  simp only [kColumns, kLineMax] at *
  omega

/-- **The step lemma.** -/
theorem inputKey_edits {e : LineEditor UInt8} (h : t.Represents e) (input : Machine × Key) :
    ∃ t', t.keyStep input = some t' ∧ t'.Represents (referenceEdit e input) := by
  obtain ⟨m, key⟩ := input
  have hsome : t.cmdHistory ≠ [] := fun hempty => by simpa [hempty] using h.sized
  obtain ⟨t', area, heq, hinv, heffect, -⟩ :=
    inputKey_spec h.inv (by decide) (room_of_column h.column)
      (fun (_ : key.ascii = 0x0a) _ => hsome) m
  have hkey : t'.editor = t.editor.edit (kColumns - 1) (kLineMax - 1) key.edit := by
    unfold inputKey at heq
    simp only [Option.bind_eq_bind] at heq
    obtain ⟨⟨t₁, area₁⟩, hhandle, heq⟩ := Option.bind_eq_some_iff.mp heq
    cases heq
    have hhandled := handleKey_editor (t := t.drawCursor false) (h.inv.drawCursor false) h.column
      h.sized hhandle
    rwa [drawCursor_editor] at hhandled
  refine ⟨t', by simp [keyStep, heq], hinv, heffect.column h.column, heffect.sized h.sized, ?_⟩
  rw [hkey, h.editor_eq]
  rfl

/-- `ExecuteLine` gets the line of the editor. -/
theorem Represents.executedLine {e : LineEditor UInt8} (h : t.Represents e) :
    t.executedLine = some e.line := by
  have hsome : t.cmdHistory ≠ [] := fun hempty => by simpa [hempty] using h.sized
  have hinv := h.inv.drawCursor false
  obtain ⟨t', area, entry, heq, -⟩ := enter_spec hinv (by decide) (fun _ => hsome) emptyMachine
  rw [enter_eq] at heq
  obtain ⟨t₁, hentered, -⟩ := Option.bind_eq_some_iff.mp heq
  unfold Terminal.executedLine
  rw [hentered, Option.bind_some, text_lineEntered hinv hentered, ← h.editor_eq]
  rfl

/-- An array with a terminator holds a line. -/
theorem exists_line {history : List LineBuf} (hnul : ∀ entry ∈ history, 0 ∈ entry.chars) :
    ∀ entry ∈ history, ∃ s, entry.text? = some s ∧ s.length ≤ kLineMax - 1 := by
  intro entry hentry
  have htext := CharArray.text?_eq_some_of_mem (hnul entry hentry)
  exact ⟨_, htext, Nat.le_sub_one_of_lt (CharArray.length_lt_of_text? htext)⟩

/-- The conditions of the invariant. -/
theorem LineInv.represents (h : t.LineInv) (hsized : t.cmdHistory.length = 8)
    (hnul : ∀ entry ∈ t.cmdHistory, 0 ∈ entry.chars) : t.Represents t.editor := by
  exact ⟨⟨h.y_nonneg, h.y_lt, h.index_le, h.typed_text, exists_line hnul, hsized.le,
    h.history_ge, h.history_lt⟩, h.column, hsized, rfl⟩

/-- **The terminal is a line editor.** Let `cmd_history_` have its eight entries, each with a
terminator. Then every sequence of keys is defined: no write to `linebuf_` and no copy of a recalled
line leaves the array. After it the index is in the array, every entry of the history has a
terminator, and the line, the history and what Enter passes to `ExecuteLine` are those of the
reference editor. -/
theorem line_editor_exact (hline : t.LineInv) (hsized : t.cmdHistory.length = 8)
    (hnul : ∀ entry ∈ t.cmdHistory, 0 ∈ entry.chars) (inputs : List (Machine × Key)) :
    ∃ t', run keyStep t inputs = some t' ∧ t'.linebufIndex ≤ kLineMax - 1 ∧
      (∀ entry ∈ t'.cmdHistory, 0 ∈ entry.chars) ∧
      t'.editor = inputs.foldl referenceEdit t.editor ∧
      t'.executedLine = some (inputs.foldl referenceEdit t.editor).line := by
  obtain ⟨t', hrun, h⟩ := run_of_simulates (R := Represents) (fun _ _ input hr => inputKey_edits hr input)
    (hline.represents hsized hnul) inputs
  refine ⟨t', hrun, h.inv.typed_le, fun entry hentry => ?_, h.editor_eq, h.executedLine⟩
  obtain ⟨line, htext, -⟩ := h.inv.entries entry hentry
  exact CharArray.mem_of_text? htext

/-- The constructor's terminal, once its history has eight empty lines. -/
theorem line_editor_exact_init :
    ∃ t', run keyStep { init with cmdHistory := List.replicate 8 (.zeros kLineMax) }
        [(emptyMachine, { modifier := 0, keycode := 0x04, ascii := 0x61 })] = some t' ∧
      t'.executedLine = some [0x61] := by
  obtain ⟨t', hrun, -, -, -, hexec⟩ := line_editor_exact
    (t := { init with cmdHistory := List.replicate 8 (.zeros kLineMax) })
    ⟨by decide, by decide, by decide, by decide, by decide, by decide, by decide⟩
    (List.length_replicate ..)
    (fun entry hentry => by
      rw [List.eq_of_mem_replicate hentry]
      decide)
    [(emptyMachine, { modifier := 0, keycode := 0x04, ascii := 0x61 })]
  exact ⟨t', hrun, hexec.trans (by decide)⟩

/-! ## From the constructor -/

/-- Any key that is defined keeps the invariant, also while the history is still empty. -/
theorem lineInv_keeps : Keeps keyStep (fun _ _ => True) fun t =>
    EditorInv (kLineMax - 1) t ∧ (t.linebufIndex : Int) ≤ t.cursor.x := by
  rintro t ⟨m, key⟩ t' h - heq
  obtain ⟨hinv, hcolumn⟩ := h
  by_cases hok : key.ascii = 0x0a → 0 < t.linebufIndex → t.cmdHistory ≠ []
  · obtain ⟨t'', area, hinput, hinv', heffect, -⟩ :=
      inputKey_spec hinv (by decide) (room_of_column hcolumn) hok m
    have hsame : t'' = t' := by simpa [keyStep, hinput] using heq
    rw [← hsame]
    exact ⟨hinv', heffect.column hcolumn⟩
  · obtain ⟨hnl, hpos, hempty⟩ : key.ascii = 0x0a ∧ 0 < t.linebufIndex ∧ t.cmdHistory = [] := by
      simpa only [Classical.not_imp, not_not] using hok
    have hnone := t.inputKey_of_empty hnl hpos hempty (m := m)
    simp [keyStep, hnone] at heq

/-- **Every run from the constructor** keeps the conditions, whatever lines the history is given. -/
theorem lineInv_of_run {history : List LineBuf} (hlen : history.length ≤ 8)
    (hnul : ∀ entry ∈ history, 0 ∈ entry.chars) {inputs : List (Machine × Key)}
    (hrun : run keyStep { init with cmdHistory := history } inputs = some t) : t.LineInv := by
  have hempty := editorInv_init (kLineMax - 1)
    (fun entry (hentry : entry ∈ ([] : List LineBuf)) => absurd hentry List.not_mem_nil)
    (Nat.zero_le _)
  have hindex : ({ init with cmdHistory := history } : Terminal).cmdHistoryIndex = -1 :=
    init_editor.cmdHistoryIndex
  have hstart : EditorInv (kLineMax - 1) { init with cmdHistory := history } :=
    ⟨hempty.y_nonneg, hempty.y_lt, hempty.typed_le, hempty.typed_text, exists_line hnul, hlen,
      hindex.ge, by rw [hindex]; omega⟩
  have hcolumn : (init.linebufIndex : Int) ≤ init.cursor.x := by
    rw [init_editor.linebufIndex, init_cursor]
    decide
  obtain ⟨h, hcol⟩ := run_of_keeps lineInv_keeps ⟨hstart, hcolumn⟩ (admits_true _ _) hrun
  exact ⟨h.y_nonneg, h.y_lt, h.typed_le, hcol, h.typed_text, h.index_ge, h.index_lt⟩

end Terminal

end UhyokOS
