import UhyokOS.Terminal.Lines
import UhyokOS.Lib.Transition

/-!
# The cursor

Runs of `InputKey` and `BlinkCursor` on a constructed terminal whose history has its eight entries.
The cursor belongs in the column right after the prompt character and the typed text. The guard of
the backspace branch looks at the column and not at the text, so in an empty line a backspace
erases the prompt and leaves the cursor one column too far left.

* `cursorInv_preserved`: every other call keeps the cursor in step with the text and the prompt on
  the window.
* `cursor_in_step_iff`: so it is in step throughout a run exactly if no backspace of the run is
  pressed in an empty line.
* `cursor_not_in_step`: the very first key can be such a backspace.
-/

namespace UhyokOS

open Transition Terminal

/-- The terminal's public functions. -/
inductive TerminalOp
  | inputKey (m : Machine) (key : Key)
  | blinkCursor

/-- One call. -/
def Terminal.step (t : Terminal) : TerminalOp → Option Terminal
  | .inputKey m key => (t.inputKey m key).map Prod.fst
  | .blinkCursor => some t.blinkCursor.1

/-- A constructed terminal whose history has its eight entries. -/
def sizedTerminal : Terminal :=
  { Terminal.init with cmdHistory := List.replicate 8 (.zeros kLineMax) }

/-- The cursor is in the column after the prompt and the text, and on the grid, and the prompt is on
the window. -/
structure Terminal.InStep (t : Terminal) : Prop where
  column : t.cursor.x = t.linebufIndex + 1
  x_lt : t.cursor.x < kColumns
  y_nonneg : 0 ≤ t.cursor.y
  y_lt : t.cursor.y < kRows
  prompt : t.PromptShown

/-- Not a backspace in an empty line. -/
def TerminalOp.Keeps (t : Terminal) : TerminalOp → Prop
  | .inputKey _ key => ¬(key.ascii = 0x08 ∧ t.linebufIndex = 0)
  | .blinkCursor => True

/-- The invariant of such runs: a line in step with its cursor ends before the last column. -/
structure CursorInv (t : Terminal) : Prop where
  editor : EditorInv 58 t
  column : t.cursor.x = t.linebufIndex + 1
  sized : t.cmdHistory ≠ []
  prompt : t.PromptShown

theorem CursorInv.inStep {t : Terminal} (h : CursorInv t) : t.InStep := by
  have hle := h.editor.typed_le
  have hcolumn := h.column
  refine ⟨hcolumn, ?_, h.editor.y_nonneg, h.editor.y_lt, h.prompt⟩
  simp only [kColumns]
  omega

theorem cursorInv_init : CursorInv sizedTerminal := by
  refine ⟨editorInv_init 58 (fun e he => List.eq_of_mem_replicate he) (by simp), ?_, by
    simp [sizedTerminal], ?_⟩
  · show Terminal.init.cursor.x = Terminal.init.linebufIndex + 1
    rw [init_cursor, init_editor.linebufIndex]
    rfl
  · have hprompt : Terminal.init.PromptShown := promptShown_print rfl
    exact hprompt.congr rfl rfl

variable {t t' : Terminal} {m : Machine} {key : Key}

/-- **The step lemma.** -/
theorem cursorInv_preserved : Preserves Terminal.step TerminalOp.Keeps CursorInv := by
  rintro t (⟨m, key⟩ | _) h hok
  · have hcolumn := h.column
    have hroom : t.cursor.x < kColumns - 1 → t.linebufIndex < 58 := by
      intro hlt
      simp only [kColumns] at hlt
      omega
    have hok' : key.ascii = 0x0a → 0 < t.linebufIndex → t.cmdHistory ≠ [] := fun _ _ => h.sized
    obtain ⟨t', area, heq, hinv, heffect, hprompt⟩ :=
      inputKey_spec h.editor (by decide) hroom hok' m
    have hline : t'.cursor.x = t'.linebufIndex + 1 ∧ t'.cmdHistory ≠ [] := by
      cases heffect with
      | enter entry isEnter x index text history =>
          refine ⟨by rw [x, index]; rfl, fun hempty => ?_⟩
          rw [history] at hempty
          have := congrArg List.length hempty
          simp [entered, length_resizeHistory] at this
      | backspace isBackspace x index history =>
          have hpos : 0 < t.linebufIndex := Nat.pos_of_ne_zero fun h0 => hok ⟨isBackspace, h0⟩
          refine ⟨?_, history ▸ h.sized⟩
          rw [x, index]
          split_ifs <;> omega
      | append notArrow notEnter notBackspace room x index history =>
          refine ⟨?_, history ▸ h.sized⟩
          rw [x, index]
          omega
      | arrow line notEnter notBackspace recalled text x index history =>
          exact ⟨by rw [x, index], history ▸ h.sized⟩
      | ignore notArrow notEnter notBackspace x index history =>
          exact ⟨by rw [x, index, hcolumn], history ▸ h.sized⟩
    obtain ⟨hcolumn', hsized⟩ := hline
    refine ⟨t', by simp [Terminal.step, heq], hinv, hcolumn', hsized, ?_⟩
    exact hprompt (by omega) (by omega) h.prompt
  · have hcolumn := h.column
    refine ⟨t.blinkCursor.1, rfl, ?_, h.column, h.sized, ?_⟩
    · exact h.editor.congr ⟨rfl, rfl, rfl, rfl⟩ h.editor.y_nonneg h.editor.y_lt
    · have hblink : ({ t with cursorVisible := !t.cursorVisible } : Terminal).PromptShown :=
        h.prompt.congr rfl rfl
      exact hblink.drawCursor (by simp only; omega) _

/-- A backspace in an empty line puts the cursor on the prompt. -/
theorem not_inStep_of_backspace (h : CursorInv t) (hbs : key.ascii = 0x08)
    (hzero : t.linebufIndex = 0) (hs : t.step (.inputKey m key) = some t') : ¬t'.InStep := by
  have hcolumn := h.column
  have hok : key.ascii = 0x0a → 0 < t.linebufIndex → t.cmdHistory ≠ [] := fun _ _ => h.sized
  obtain ⟨t'', area, heq, hinv, heffect, -⟩ := inputKey_spec h.editor (by decide)
    (fun hlt => by simp only [kColumns] at hlt; omega) hok m
  have ht : t'' = t' := by simpa [Terminal.step, heq] using hs
  subst ht
  intro hstep
  have hstep' := hstep.column
  cases heffect with
  | enter entry isEnter x index text history =>
      rw [hbs] at isEnter
      exact absurd isEnter (by decide)
  | backspace isBackspace x index history =>
      rw [x, index] at hstep'
      split_ifs at hstep' <;> omega
  | append notArrow notEnter notBackspace room x index history => exact notBackspace hbs
  | arrow line notEnter notBackspace recalled text x index history => exact notBackspace hbs
  | ignore notArrow notEnter notBackspace x index history => exact notBackspace hbs

/-- **The cursor, exactly.** On a constructed terminal with its eight history entries, every call is
defined, the cursor is in step with the text and the grid and the prompt stays on the window
throughout a run if and only if no backspace of the run is pressed in an empty line. -/
theorem cursor_in_step_iff (ops : List TerminalOp) :
    (∀ pre, pre <+: ops → ∃ t, run Terminal.step sizedTerminal pre = some t ∧ t.InStep) ↔
      Admits Terminal.step TerminalOp.Keeps sizedTerminal ops := by
  refine forall_prefix_iff_admits cursorInv_preserved (fun t h => h.inStep) ?_ cursorInv_init ops
  rintro t (⟨m, key⟩ | _) t' h hs hstep
  · rintro ⟨hbs, hzero⟩
    exact not_inStep_of_backspace h hbs hzero hs hstep
  · trivial

/-- A backspace. -/
def backspaceKey : List TerminalOp :=
  [.inputKey emptyMachine { modifier := 0, keycode := 0x2a, ascii := 0x08 }]

/-- **A backspace on a new terminal erases the prompt.** -/
theorem cursor_not_in_step :
    ¬∀ ops : List TerminalOp, ∀ pre, pre <+: ops →
      ∃ t, run Terminal.step sizedTerminal pre = some t ∧ t.InStep := by
  intro hall
  obtain ⟨t, hrun, hstep⟩ := hall backspaceKey backspaceKey (List.prefix_refl _)
  have hcursor : (run Terminal.step sizedTerminal backspaceKey).map (fun t => t.cursor.x) =
      some 0 := by decide
  have hindex : (run Terminal.step sizedTerminal backspaceKey).map (fun t => t.linebufIndex) =
      some 0 := by decide
  rw [hrun] at hcursor hindex
  have hcolumn := hstep.column
  have hx : t.cursor.x = 0 := Option.some.inj hcursor
  have hzero : t.linebufIndex = 0 := Option.some.inj hindex
  rw [hx, hzero] at hcolumn
  exact absurd hcolumn (by decide)

end UhyokOS
