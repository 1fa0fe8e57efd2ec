import UhyokOS.Terminal.Terminal

/-!
# The prompt

The prompt is the character in column 0 of the cursor's row. It stays on the window as long as
every call since it was printed writes to the right of it.

* `promptShown_print`: printing the prompt in column 0 shows it.
* `PromptShown.append`: calls to the right of the prompt leave it alone; the branches of `InputKey`
  other than the one for the enter key make no others, provided the cursor is right of the prompt.
-/

namespace UhyokOS

/-- The rectangle of the window that a call writes in. -/
def DrawCall.area : DrawCall → Rectangle
  | .fillRectangle inner pos size _ => ⟨if inner then kTopLeftMargin + pos else pos, size⟩
  | .writeAscii pos _ _ => ⟨pos, ⟨8, 16⟩⟩
  | .writeString pos s _ => ⟨pos, ⟨8 * s.length, 16⟩⟩
  | .move dstPos src => ⟨dstPos, src.size⟩

namespace Terminal

variable {t t' : Terminal}

/-- The cell of the prompt, column 0 of the cursor's row. -/
def promptCell (t : Terminal) : Rectangle :=
  ⟨({ t with cursor := ⟨0, t.cursor.y⟩ } : Terminal).calcCursorPos, ⟨8, 16⟩⟩

/-- The prompt is on the window: it was written to its cell, and no later call writes there. -/
def PromptShown (t : Terminal) : Prop :=
  ∃ before after, t.drawn = before ++ .writeAscii t.promptCell.pos 0x3e kTextColor :: after ∧
    ∀ call ∈ after, ∀ p, call.area.Contains p → ¬t.promptCell.Contains p

/-- The call writes to the right of the prompt. -/
def RightOfPrompt (t : Terminal) (call : DrawCall) : Prop :=
  t.promptCell.pos.x + 8 ≤ call.area.pos.x

/-- The cursor's cell is to the right of the prompt. -/
theorem promptCell_le (hx : 1 ≤ t.cursor.x) : t.promptCell.pos.x + 8 ≤ t.calcCursorPos.x := by
  unfold promptCell calcCursorPos
  simp only [Vector2D.add_x]
  omega

/-- Calls to the right of the prompt leave it alone. -/
theorem PromptShown.append (h : t.PromptShown) {calls : List DrawCall}
    (hdrawn : t'.drawn = t.drawn ++ calls) (hy : t'.cursor.y = t.cursor.y)
    (hright : ∀ call ∈ calls, t.RightOfPrompt call) : t'.PromptShown := by
  have hcell : t'.promptCell = t.promptCell := by
    unfold promptCell calcCursorPos
    simp only [hy]
  obtain ⟨before, after, hbefore, hclear⟩ := h
  refine ⟨before, after ++ calls, ?_, fun call hcall p hp hin => ?_⟩
  · rw [hdrawn, hbefore, hcell, List.append_assoc, List.cons_append]
  · rw [hcell] at hin
    rcases List.mem_append.mp hcall with hcall | hcall
    · exact hclear call hcall p hp hin
    · have hge : call.area.pos.x ≤ p.x := hp.1
      have hlt : p.x < t.promptCell.pos.x + 8 := hin.2.1
      have hle : t.promptCell.pos.x + 8 ≤ call.area.pos.x := hright call hcall
      omega

/-- One call to the right of the prompt. -/
theorem PromptShown.append_one (h : t.PromptShown) {call : DrawCall}
    (hdrawn : t'.drawn = t.drawn ++ [call]) (hy : t'.cursor.y = t.cursor.y)
    (hright : t.RightOfPrompt call) : t'.PromptShown :=
  h.append hdrawn hy fun _ hc => List.mem_singleton.mp hc ▸ hright

/-- The prompt depends on what has been drawn and on the line of the cursor only. -/
theorem PromptShown.congr (h : t.PromptShown) (hdrawn : t'.drawn = t.drawn)
    (hy : t'.cursor.y = t.cursor.y) : t'.PromptShown :=
  h.append (hdrawn.trans (List.append_nil _).symm) hy fun _ hc => absurd hc List.not_mem_nil

/-- The cursor is drawn behind the prompt. -/
theorem PromptShown.drawCursor (h : t.PromptShown) (hx : 1 ≤ t.cursor.x) (visible : Bool) :
    (t.drawCursor visible).PromptShown := h.append_one rfl rfl (promptCell_le hx)

/-- The prompt is printed in column 0. -/
theorem print_prompt (hx : t.cursor.x = 0) : (t.print (text ">")).cursor = ⟨1, t.cursor.y⟩ := by
  have hprompt : text ">" = [0x3e] := by decide
  rw [hprompt]
  show ((t.drawCursor false).printChar 0x3e).cursor = _
  unfold printChar drawCursor draw
  simp only [hx]
  rfl

/-- Printing the prompt shows it. -/
theorem promptShown_print (hx : t.cursor.x = 0) : (t.print (text ">")).PromptShown := by
  have hprompt : text ">" = [0x3e] := by decide
  have hcursor := print_prompt hx
  rw [hprompt] at hcursor ⊢
  set t₁ := (t.drawCursor false).printChar 0x3e with ht₁
  have hcursor₁ : t₁.cursor = ⟨1, t.cursor.y⟩ := hcursor
  have hdrawn : t₁.drawn =
      (t.drawCursor false).drawn ++ [.writeAscii t.calcCursorPos 0x3e kTextColor] := by
    rw [ht₁]
    unfold printChar drawCursor Terminal.draw
    simp only [hx]
    rfl
  have hpos : t₁.promptCell.pos = t.calcCursorPos := by
    unfold promptCell calcCursorPos
    simp only [hcursor₁, hx]
  have hshown : t₁.PromptShown :=
    ⟨_, [], by rw [hdrawn, hpos], fun call hcall => absurd hcall List.not_mem_nil⟩
  exact hshown.drawCursor (by rw [hcursor₁]) true

/-! ## The branches of `InputKey` -/

/-- A backspace that stays behind the prompt does not erase it. -/
theorem backspace_promptShown {area : Rectangle} (h : t.PromptShown)
    (hx : 1 ≤ (t.backspace area).1.cursor.x) : (t.backspace area).1.PromptShown := by
  unfold backspace at hx ⊢
  by_cases hpos : t.cursor.x > 0
  · simp only [hpos, if_true] at hx ⊢
    split_ifs at hx ⊢ <;> exact h.append_one rfl rfl (promptCell_le hx)
  · simp only [if_neg hpos]
    exact h

/-- A character is drawn behind the prompt. -/
theorem typeChar_promptShown {c : UInt8} (h : t.PromptShown) (hx : 1 ≤ t.cursor.x)
    (heq : t.typeChar c = some t') : t'.PromptShown := by
  unfold typeChar at heq
  split_ifs at heq with hroom
  · obtain ⟨linebuf, -, heq⟩ := Option.bind_eq_some_iff.mp heq
    cases heq
    exact h.append_one rfl rfl (promptCell_le hx)
  · cases heq
    exact h

/-- An arrow key fills the line behind the prompt only. -/
theorem historyUpDown_promptShown {direction : Int} {area : Rectangle} (h : t.PromptShown)
    (heq : t.historyUpDown direction = some (t', area)) : t'.PromptShown := by
  unfold historyUpDown at heq
  simp only [Option.bind_eq_bind] at heq
  obtain ⟨line, -, heq⟩ := Option.bind_eq_some_iff.mp heq
  obtain ⟨linebuf, -, heq⟩ := Option.bind_eq_some_iff.mp heq
  cases heq
  refine h.append (List.append_assoc _ _ _) rfl fun call hcall => ?_
  -- the line is erased and written from column 1 on
  simp only [List.mem_append, List.mem_singleton] at hcall
  rcases hcall with rfl | rfl <;> exact le_rfl

end Terminal

end UhyokOS
