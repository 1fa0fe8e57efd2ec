import UhyokOS.Terminal.Lines
import UhyokOS.Lib.Recent
import UhyokOS.Lib.Transition

/-!
# The command history

Runs of `InputKey` on a freshly constructed terminal, with the lines submitted so far as a ghost
list. `cmd_history_` starts as an empty deque and gets its eight entries at the end of the first
Enter, but a non-empty line is recorded by `pop_back` and `push_front` before that.

* `historyInv_preserved`: any key but an Enter on a non-empty line before the first Enter keeps the
  history correct.
* `history_correct_iff`: so the history is correct throughout a run exactly if the run has no such
  key.
* `history_not_correct`: typing one character and Enter into a new terminal is such a run.
-/

namespace UhyokOS

open Transition Recent Terminal

/-- A terminal with its submitted lines. -/
structure HistoryRun where
  /-- `*terminal` -/
  terminal : Terminal := Terminal.init
  /-- The non-empty lines submitted so far, newest first. -/
  submitted : List (List UInt8) := []
  /-- The last key was the up or the down arrow. -/
  afterArrow : Bool := false

/-- The key submits a line. -/
def Key.submits (key : Key) (t : Terminal) : Prop := key.ascii = 0x0a ∧ 0 < t.linebufIndex

instance Key.decidableSubmits (key : Key) (t : Terminal) : Decidable (key.submits t) := by
  unfold Key.submits
  infer_instance

/-- The submitted lines after a key. -/
def HistoryRun.record (s : HistoryRun) (key : Key) : List (List UInt8) :=
  if key.submits s.terminal then s.terminal.typed :: s.submitted else s.submitted

/-- A call of `InputKey`, on a machine in any state. -/
def HistoryRun.step (s : HistoryRun) (input : Machine × Key) : Option HistoryRun := do
  let (terminal, _) ← s.terminal.inputKey input.1 input.2
  return {
    terminal := terminal
    submitted := s.record input.2
    afterArrow := input.2.isArrow }

/-- What the history promises. -/
structure HistoryRun.Correct (s : HistoryRun) : Prop where
  /-- The eight most recent lines, newest first, then only empty entries. -/
  recent : ∃ k, s.terminal.cmdHistory.map CharArray.text? =
    (s.submitted.take 8).map some ++ List.replicate k (some [])
  /-- The index is -1 or names an entry. -/
  index : s.terminal.cmdHistoryIndex = -1 ∨
    0 ≤ s.terminal.cmdHistoryIndex ∧ s.terminal.cmdHistoryIndex < s.terminal.cmdHistory.length
  /-- After an arrow key the line is the entry at the index. -/
  recalled : s.afterArrow = true → ∃ line, s.terminal.recalled = some line ∧
    s.terminal.linebuf.text? = some line ∧ s.terminal.linebufIndex = line.length

/-- Not an Enter that submits a line while `cmd_history_` is still empty. -/
def HistoryRun.Recordable (s : HistoryRun) (input : Machine × Key) : Prop :=
  ¬(input.2.submits s.terminal ∧ s.terminal.cmdHistory = [])

/-- The invariant of recordable runs. A backspace in an empty line can put the cursor one column to
the left of where the text ends, so lines have up to 59 characters. -/
structure HistoryInv (s : HistoryRun) : Prop where
  editor : EditorInv 59 s.terminal
  column : (s.terminal.linebufIndex : Int) ≤ s.terminal.cursor.x
  history : (s.terminal.cmdHistory = [] ∧ s.submitted = []) ∨
    s.terminal.cmdHistory.map CharArray.text? = recent 8 (some []) (s.submitted.map some)
  recalled : s.afterArrow = true → ∃ line, s.terminal.recalled = some line ∧
    s.terminal.linebuf.text? = some line ∧ s.terminal.linebufIndex = line.length

theorem HistoryInv.correct {s : HistoryRun} (h : HistoryInv s) : s.Correct := by
  have hge := h.editor.index_ge
  have hlt := h.editor.index_lt
  refine ⟨?_, by omega, h.recalled⟩
  rcases h.history with ⟨hempty, hnone⟩ | hrecent
  · exact ⟨0, by simp [hempty, hnone]⟩
  · exact ⟨8 - s.submitted.length, by rw [hrecent, recent, List.map_take, List.length_map]⟩

theorem historyInv_init : HistoryInv {} := by
  have hsame := init_editor
  have hempty : EditorInv 59 { Terminal.init with cmdHistory := [] } :=
    editorInv_init 59 (fun e he => absurd he List.not_mem_nil) (Nat.zero_le _)
  have heditor : EditorInv 59 Terminal.init :=
    hempty.congr ⟨rfl, rfl, hsame.cmdHistory, rfl⟩ hempty.y_nonneg hempty.y_lt
  refine ⟨heditor, ?_, Or.inl ⟨hsame.cmdHistory, rfl⟩, fun h => by cases h⟩
  show (Terminal.init.linebufIndex : Int) ≤ Terminal.init.cursor.x
  rw [hsame.linebufIndex, init_cursor]
  decide

/-! ## The keys -/

variable {s : HistoryRun} {m : Machine} {key : Key}

/-- **Enter records the line.** -/
private theorem map_text_entered {t : Terminal} {submitted : List (List UInt8)} {entry : LineBuf}
    (hhist : (t.cmdHistory = [] ∧ submitted = []) ∨
      t.cmdHistory.map CharArray.text? = recent 8 (some []) (submitted.map some))
    (hok : 0 < t.linebufIndex → t.cmdHistory ≠ []) (hentry : entry.text? = some t.typed) :
    (t.entered entry).map CharArray.text? = recent 8 (some [])
      ((if 0 < t.linebufIndex then t.typed :: submitted else submitted).map some) := by
  unfold entered
  rcases hhist with ⟨hempty, rfl⟩ | hrecent
  · have hidle : ¬0 < t.linebufIndex := fun hpos => hok hpos hempty
    have hzero : (CharArray.zeros kLineMax : LineBuf).text? = some [] :=
      CharArray.text?_zeros (by decide)
    rw [if_neg hidle, if_neg hidle, hempty]
    simp [resizeHistory, recent, hzero]
  · have hlen : t.cmdHistory.length = 8 := by
      have := congrArg List.length hrecent
      rwa [List.length_map, length_recent] at this
    by_cases hpos : 0 < t.linebufIndex
    · have hpushed : (entry :: t.cmdHistory.dropLast).length = 8 := by
        rw [List.length_cons, List.length_dropLast, hlen]
      rw [if_pos hpos, if_pos hpos, resizeHistory_of_length hpushed, List.map_cons, hentry,
        List.map_dropLast, hrecent, cons_dropLast_recent]
      rfl
    · rw [if_neg hpos, if_neg hpos, resizeHistory_of_length hlen, hrecent]

/-- **The step lemma.** -/
theorem historyInv_preserved : Preserves HistoryRun.step HistoryRun.Recordable HistoryInv := by
  rintro s ⟨m, key⟩ h hok
  have hcolumn := h.column
  have hroom : s.terminal.cursor.x < kColumns - 1 → s.terminal.linebufIndex < 59 := by
    intro hlt
    simp only [kColumns] at hlt
    omega
  have hrec : key.ascii = 0x0a → 0 < s.terminal.linebufIndex → s.terminal.cmdHistory ≠ [] :=
    fun hnl hpos hempty => hok ⟨⟨hnl, hpos⟩, hempty⟩
  obtain ⟨t', area, heq, hinv, heffect, -⟩ := inputKey_spec h.editor (by decide) hroom hrec m
  refine ⟨_, by simp only [HistoryRun.step, heq, Option.bind_eq_bind, Option.bind_some]; rfl, ?_⟩
  -- a key that submits nothing and leaves the history alone
  have hkeep : t'.cmdHistory = s.terminal.cmdHistory → key.ascii ≠ 0x0a →
      (t'.cmdHistory = [] ∧ s.record key = []) ∨
        t'.cmdHistory.map CharArray.text? = recent 8 (some []) ((s.record key).map some) := by
    intro hhist hnl
    rw [hhist, HistoryRun.record, if_neg fun hsubmits => hnl hsubmits.1]
    exact h.history
  cases heffect with
  | enter entry isEnter x index text history =>
      refine ⟨hinv, by simp only [index, x]; decide, Or.inr ?_, fun harrow => ?_⟩
      · show t'.cmdHistory.map CharArray.text? = recent 8 (some []) ((s.record key).map some)
        rw [history, map_text_entered h.history (hrec isEnter) text]
        simp only [HistoryRun.record, Key.submits, isEnter, true_and]
      · simp [Key.isArrow, isEnter] at harrow
  | backspace isBackspace x index history =>
      refine ⟨hinv, ?_, hkeep history (by rw [isBackspace]; decide), fun harrow => ?_⟩
      · simp only [x, index]
        split_ifs <;> omega
      · simp [Key.isArrow, isBackspace] at harrow
  | append notArrow notEnter notBackspace room x index history =>
      refine ⟨hinv, ?_, hkeep history notEnter, fun harrow => ?_⟩
      · simp only [x, index]
        omega
      · exact absurd (notArrow.symm.trans harrow) (by decide)
  | arrow line notEnter notBackspace recalled text x index history =>
      refine ⟨hinv, ?_, hkeep history notEnter, fun _ => ⟨line, recalled, text, index⟩⟩
      simp only [x, index]
      omega
  | ignore notArrow notEnter notBackspace x index history =>
      refine ⟨hinv, ?_, hkeep history notEnter, fun harrow => ?_⟩
      · simp only [x, index]
        exact hcolumn
      · exact absurd (notArrow.symm.trans harrow) (by decide)

/-- An Enter that is not recordable runs into `pop_back` on the empty deque. -/
theorem step_eq_none_of_not_recordable {input : Machine × Key}
    (hok : ¬s.Recordable input) : s.step input = none := by
  obtain ⟨m, key⟩ := input
  obtain ⟨⟨hnl, hpos⟩, hempty⟩ := not_not.mp hok
  have hinput : s.terminal.inputKey m key = none := s.terminal.inputKey_of_empty hnl hpos hempty
  simp [HistoryRun.step, hinput]

/-- **The command history, exactly.** On a freshly constructed terminal, the history is correct and
`InputKey` defined throughout a run of keys if and only if no Enter of the run submits a non-empty
line while `cmd_history_` is still the empty deque of the constructor. -/
theorem history_correct_iff (inputs : List (Machine × Key)) :
    (∀ pre, pre <+: inputs → ∃ s, run HistoryRun.step {} pre = some s ∧ s.Correct) ↔
      Admits HistoryRun.step HistoryRun.Recordable {} inputs := by
  refine forall_prefix_iff_admits historyInv_preserved (fun s h => h.correct) ?_ historyInv_init
    inputs
  intro s input s' _ hs' _
  by_contra hok
  rw [step_eq_none_of_not_recordable hok] at hs'
  cases hs'

/-- The keys of the character `a` and of Enter. -/
def typeAndEnter : List (Machine × Key) :=
  [(emptyMachine, { modifier := 0, keycode := 0x04, ascii := 0x61 }),
    (emptyMachine, { modifier := 0, keycode := 0x28, ascii := 0x0a })]

/-- **The first command on a new terminal is not recorded**: `pop_back` is called on the empty
deque. -/
theorem history_not_correct :
    ¬∀ inputs : List (Machine × Key), ∀ pre, pre <+: inputs →
      ∃ s, run HistoryRun.step {} pre = some s ∧ s.Correct := by
  intro hall
  obtain ⟨s, hrun, -⟩ := hall typeAndEnter typeAndEnter (List.prefix_refl _)
  have hnone : (run HistoryRun.step {} typeAndEnter).isNone = true := by decide
  rw [hrun] at hnone
  cases hnone

end UhyokOS
