import Mathlib.Data.List.Basic
import Mathlib.Tactic.Common

/-!
# The lines of a text

White space and lines as Python's `str` has them.

* `splitLines_unlines`: a text that is put together from lines has these lines.
* `splitLines_lstrip`: what `lstrip` does to the lines of a text. The first line with a character
  in it loses the white space in front, and so it may begin with any character.
-/

namespace TextLines

/-- `str.isspace` of one character. -/
def isSpace (c : Char) : Bool :=
  let n := c.toNat
  decide ((9 ≤ n ∧ n ≤ 13) ∨ (28 ≤ n ∧ n ≤ 32) ∨ n = 0x85 ∨ n = 0xa0 ∨ n = 0x1680 ∨
    (0x2000 ≤ n ∧ n ≤ 0x200a) ∨ n = 0x2028 ∨ n = 0x2029 ∨ n = 0x202f ∨ n = 0x205f ∨ n = 0x3000)

/-- The characters at which `str.splitlines` splits. -/
def isLineBreak (c : Char) : Bool :=
  let n := c.toNat
  decide ((10 ≤ n ∧ n ≤ 13) ∨ (28 ≤ n ∧ n ≤ 30) ∨ n = 0x85 ∨ n = 0x2028 ∨ n = 0x2029)

/-- A character in front of the first line. -/
def consLine (c : Char) : List (List Char) → List (List Char)
  | [] => [[c]]
  | line :: lines => (c :: line) :: lines

/-- `str.splitlines`; a line feed behind a carriage return belongs to it. -/
def splitLines : List Char → List (List Char)
  | [] => []
  | '\r' :: '\n' :: cs => [] :: splitLines cs
  | c :: cs => if isLineBreak c then [] :: splitLines cs else consLine c (splitLines cs)

/-- `str.lstrip` -/
def lstrip (cs : List Char) : List Char := cs.dropWhile isSpace

/-- A line of white space. -/
def isBlank (line : List Char) : Bool := line.all isSpace

/-- What is left of some lines if the text is stripped in front. -/
def lstripLines : List (List Char) → List (List Char)
  | [] => []
  | line :: lines => if isBlank line then lstripLines lines else lstrip line :: lines

/-- The text of some lines. -/
def unlines (lines : List (List Char)) : List Char := lines.flatMap (· ++ ['\n'])

variable {c : Char} {cs line : List Char} {lines : List (List Char)}

theorem isSpace_of_isLineBreak (h : isLineBreak c = true) : isSpace c = true := by
  simp only [isLineBreak, isSpace, decide_eq_true_eq] at h ⊢
  omega

/-! ## Splitting -/

theorem splitLines_cons (h : isLineBreak c = false) :
    splitLines (c :: cs) = consLine c (splitLines cs) := by
  rw [splitLines, if_neg (Bool.eq_false_iff.mp h)]
  rintro cs' rfl -
  exact absurd h (by decide)

theorem splitLines_newline : splitLines ('\n' :: cs) = [] :: splitLines cs := by
  rw [splitLines, if_pos (by decide)]
  intro cs' h
  exact absurd h (by decide)

/-- The first line of a text. -/
theorem splitLines_append (h : ∀ c ∈ line, isLineBreak c = false) :
    splitLines (line ++ '\n' :: cs) = line :: splitLines cs := by
  induction line with
  | nil => exact splitLines_newline
  | cons c line ih =>
      obtain ⟨hc, hline⟩ := List.forall_mem_cons.mp h
      rw [List.cons_append, splitLines_cons hc, ih hline]
      rfl

/-- **A text has the lines that it is made of.** -/
theorem splitLines_unlines (h : ∀ line ∈ lines, ∀ c ∈ line, isLineBreak c = false) :
    splitLines (unlines lines) = lines := by
  induction lines with
  | nil => rfl
  | cons line lines ih =>
      obtain ⟨hline, hlines⟩ := List.forall_mem_cons.mp h
      have htext : unlines (line :: lines) = line ++ '\n' :: unlines lines := by
        rw [unlines, List.flatMap_cons, List.append_assoc]
        rfl
      rw [htext, splitLines_append hline, ih hlines]

/-! ## Stripping -/

theorem lstrip_cons_of_isSpace (h : isSpace c = true) : lstrip (c :: cs) = lstrip cs :=
  List.dropWhile_cons_of_pos h

theorem lstrip_cons_of_not (h : isSpace c = false) : lstrip (c :: cs) = c :: cs :=
  List.dropWhile_cons_of_neg (Bool.eq_false_iff.mp h)

theorem lstripLines_nil_cons : lstripLines ([] :: lines) = lstripLines lines := rfl

/-- A character of white space in front makes no difference. -/
theorem lstripLines_consLine (h : isSpace c = true) :
    lstripLines (consLine c lines) = lstripLines lines := by
  have hblank : ∀ line, isBlank (c :: line) = isBlank line := fun line => by
    rw [isBlank, List.all_cons, h, Bool.true_and]
    rfl
  rcases lines with _ | ⟨line, lines⟩
  · exact if_pos (hblank [])
  · rw [consLine, lstripLines, lstripLines, hblank, lstrip_cons_of_isSpace h]

/-- Another character is where stripping stops. -/
theorem lstripLines_consLine_of_not (h : isSpace c = false) :
    lstripLines (consLine c lines) = consLine c lines := by
  have hblank : ∀ line, isBlank (c :: line) = false := fun line => by
    rw [isBlank, List.all_cons, h, Bool.false_and]
  rcases lines with _ | ⟨line, lines⟩
  · rw [consLine, lstripLines, hblank, lstrip_cons_of_not h]
    rfl
  · rw [consLine, lstripLines, hblank, lstrip_cons_of_not h]
    rfl

/-- **The lines of a stripped text.** -/
theorem splitLines_lstrip (cs : List Char) :
    splitLines (lstrip cs) = lstripLines (splitLines cs) := by
  induction cs using splitLines.induct with
  | case1 => rfl
  | case2 cs ih =>
      rw [lstrip_cons_of_isSpace (by decide), lstrip_cons_of_isSpace (by decide), ih]
      rfl
  | case3 c cs hcrlf hbreak ih =>
      rw [lstrip_cons_of_isSpace (isSpace_of_isLineBreak hbreak), ih, splitLines, if_pos hbreak,
        lstripLines_nil_cons]
      exact hcrlf
  | case4 c cs hcrlf hbreak ih =>
      have hbreak := Bool.eq_false_iff.mpr hbreak
      rw [splitLines_cons hbreak]
      cases hspace : isSpace c
      · rw [lstrip_cons_of_not hspace, splitLines_cons hbreak, lstripLines_consLine_of_not hspace]
      · rw [lstrip_cons_of_isSpace hspace, ih, lstripLines_consLine hspace]

end TextLines
