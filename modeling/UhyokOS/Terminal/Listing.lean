import Mathlib.Data.List.DropRight
import UhyokOS.Terminal.Terminal

/-!
# What `ls` lists

The loop of `ls` with its arrays `base`, `ext` and `s`, which a write past the end or a missing
terminator would make undefined, and the list of the valid entries of the directory.

* `lsLoop_eq`: the arrays are never overrun, and the lines are those of `lsLines`.
* `lsLines_eq_iff`: the lines are those of the valid entries iff there is none at or behind an entry
  whose base name is blank.
-/

namespace UhyokOS

/-! ## The loop with its arrays -/

/-- The loop that replaces trailing spaces, from the character before `i` on. -/
def stripSpaces {n : ℕ} (a : CharArray UInt8 n) : ℕ → Option (CharArray UInt8 n)
  | 0 => some a
  | i + 1 => do
      let c ← a.chars[i]?
      if c = 0x20 then
        let a ← a.write? i 0
        stripSpaces a i
      else some a

/-- With the arrays that it writes to.
Source: `kernel/fat.cpp`, `ReadName` -/
def readNameArrays (entry : DirectoryEntry) (base : CharArray UInt8 9) (ext : CharArray UInt8 4) :
    Option (CharArray UInt8 9 × CharArray UInt8 4) := do
  let base ← base.blit? (entry.name.chars.take 8)
  let base ← base.write? 8 0
  let base ← stripSpaces base 8
  let ext ← ext.blit? ((entry.name.chars.drop 8).take 3)
  let ext ← ext.write? 3 0
  let ext ← stripSpaces ext 3
  return (base, ext)

/-- The lines that the loop of `ls` prints from entry `i` on. The arrays are not initialized.
Source: `kernel/terminal.cpp`, `Terminal::ExecuteLine` -/
def lsLoop (m : Machine) (i : ℕ) :
    ℕ → CharArray UInt8 9 → CharArray UInt8 4 → CharArray UInt8 64 → Option (List (List UInt8))
  | 0, _, _, _ => some []
  | remaining + 1, base, ext, s => do
      let entry := m.rootDirEntries i
      let (base, ext) ← readNameArrays entry base ext
      let base₀ ← base.chars[0]?
      if base₀ = 0x00 then some []
      else if base₀ = 0xe5 then lsLoop m (i + 1) remaining base ext s
      else if entry.attr = kLongName then lsLoop m (i + 1) remaining base ext s
      else
        let ext₀ ← ext.chars[0]?
        let baseText ← base.text?
        let extText ← ext.text?
        let s ←
          if ext₀ ≠ 0 then s.copy? (baseText ++ text "." ++ extText ++ text "\n")
          else s.copy? (baseText ++ text "\n")
        let line ← s.text?
        let rest ← lsLoop m (i + 1) remaining base ext s
        return line :: rest

/-! ## Trimming -/

section trim

variable {n : ℕ} {a : CharArray UInt8 n} {f : List UInt8}

/-- A field without its trailing spaces. -/
def rtrim (f : List UInt8) : List UInt8 := f.rdropWhile (· == 0x20)

theorem trimName_eq (f : List UInt8) :
    trimName f = rtrim f ++ List.replicate (f.length + 1 - (rtrim f).length) 0 := rfl

theorem length_rtrim_le (f : List UInt8) : (rtrim f).length ≤ f.length :=
  (List.rdropWhile_prefix _ f).length_le

theorem length_trimName (f : List UInt8) : (trimName f).length = f.length + 1 := by
  have hle := length_rtrim_le f
  rw [trimName_eq, List.length_append, List.length_replicate]
  omega

/-- **The loop that strips the spaces.** By induction on the characters that are left. -/
theorem stripSpaces_eq {i : ℕ} (hi : i ≤ f.length) (hn : n = f.length + 1)
    (ha : a.chars = f.take i ++ List.replicate (n - i) 0) :
    ∃ b, stripSpaces a i = some b ∧
      b.chars = rtrim (f.take i) ++ List.replicate (n - (rtrim (f.take i)).length) 0 := by
  induction i generalizing a with
  | zero => exact ⟨a, rfl, by simpa [rtrim] using ha⟩
  | succ i ih =>
      have hlt : i < f.length := hi
      have htake : f.take (i + 1) = f.take i ++ [f[i]] := List.take_succ_eq_append_getElem hlt
      have hread : a.chars[i]? = some f[i] := by
        rw [ha, htake, List.append_assoc, List.getElem?_append_right (by simp [hlt.le])]
        simp [hlt.le]
      unfold stripSpaces
      rw [hread]
      by_cases hspace : f[i] = 0x20
      · have htrim : rtrim (f.take (i + 1)) = rtrim (f.take i) := by
          unfold rtrim
          rw [htake, List.rdropWhile_concat_pos _ _ _ (by simp [hspace])]
        obtain ⟨a', hwrite, hset⟩ : ∃ a', a.write? i 0 = some a' ∧ a'.chars = a.chars.set i 0 :=
          ⟨_, CharArray.write?_eq (by omega) 0, rfl⟩
        have hzeros : a'.chars = f.take i ++ List.replicate (n - i) 0 := by
          rw [hset, ha, htake, List.append_assoc, List.set_append_right _ _ (by simp [hlt.le])]
          have hcount : n - i = n - (i + 1) + 1 := by omega
          simp [hlt.le, hcount, List.replicate_succ]
        obtain ⟨b, hb, hchars⟩ := ih hlt.le hzeros
        refine ⟨b, ?_, htrim.symm ▸ hchars⟩
        simp only [Option.bind_eq_bind, Option.bind_some, if_pos hspace, hwrite]
        exact hb
      · have htrim : rtrim (f.take (i + 1)) = f.take (i + 1) := by
          unfold rtrim
          rw [htake, List.rdropWhile_concat_neg _ _ _ (by simp [hspace])]
        refine ⟨a, ?_, ?_⟩
        · simp only [Option.bind_eq_bind, Option.bind_some, if_neg hspace]
        · rw [htrim, List.length_take, Nat.min_eq_left hi, ha]

/-- A field that is copied into an array, ended and stripped. -/
theorem strip_field (a : CharArray UInt8 n) (hn : n = f.length + 1) :
    ∃ b c d, a.blit? f = some b ∧ b.write? f.length 0 = some c ∧
      stripSpaces c f.length = some d ∧ d.chars = trimName f := by
  obtain ⟨b, hb, hchars⟩ := CharArray.blit?_eq (a := a) (s := f) (by omega)
  obtain ⟨c, hc, hset⟩ : ∃ c, b.write? f.length 0 = some c ∧ c.chars = b.chars.set f.length 0 :=
    ⟨_, CharArray.write?_eq (by omega) 0, rfl⟩
  have hlen := a.length_eq
  have hends : c.chars = f.take f.length ++ List.replicate (n - f.length) 0 := by
    have hdrop : (a.chars.drop f.length).length = 1 := by
      rw [List.length_drop, hlen]
      omega
    obtain ⟨x, hx⟩ := List.length_eq_one_iff.mp hdrop
    have hone : n - f.length = 1 := by omega
    rw [hset, hchars, hx, List.set_append_right _ _ le_rfl, Nat.sub_self, List.take_length, hone]
    rfl
  obtain ⟨d, hd, hstripped⟩ := stripSpaces_eq le_rfl hn hends
  refine ⟨b, c, d, hb, hc, hd, ?_⟩
  rw [hstripped, List.take_length, trimName_eq, hn]

/-- **`ReadName` stays inside its arrays.** -/
theorem readNameArrays_eq (entry : DirectoryEntry) (base : CharArray UInt8 9)
    (ext : CharArray UInt8 4) : ∃ base' ext', readNameArrays entry base ext = some (base', ext') ∧
      base'.chars = (readName entry).1 ∧ ext'.chars = (readName entry).2 := by
  have hname := entry.name.length_eq
  have hbase : (entry.name.chars.take 8).length = 8 := by
    rw [List.length_take]
    omega
  have hext : ((entry.name.chars.drop 8).take 3).length = 3 := by
    rw [List.length_take, List.length_drop]
    omega
  obtain ⟨b, c, base', hb, hc, hd, hchars⟩ :=
    strip_field (f := entry.name.chars.take 8) base (by rw [hbase])
  obtain ⟨b', c', ext', hb', hc', hd', hchars'⟩ :=
    strip_field (f := (entry.name.chars.drop 8).take 3) ext (by rw [hext])
  rw [hbase] at hc hd
  rw [hext] at hc' hd'
  refine ⟨base', ext', ?_, hchars, hchars'⟩
  unfold readNameArrays
  simp only [Option.bind_eq_bind, hb, hc, hd, hb', hc', hd', Option.bind_some]
  rfl

end trim

/-! ## The lines -/

section lines

variable {m : Machine}

theorem stringOf_eq (array : List UInt8) :
    stringOf array = array.takeWhile fun c => decide (c ≠ 0) := by
  unfold stringOf
  congr 1
  funext c
  exact decide_not.symm

/-- A stripped field is a string. -/
theorem text?_of_trimName {n : ℕ} {a : CharArray UInt8 n} {f : List UInt8}
    (ha : a.chars = trimName f) : a.text? = some (stringOf a.chars) := by
  have hmem : 0 ∈ a.chars := by
    have hle := length_rtrim_le f
    rw [ha, trimName_eq, List.mem_append, List.mem_replicate]
    exact Or.inr ⟨by omega, rfl⟩
  unfold CharArray.text?
  rw [if_pos hmem, stringOf_eq]

/-- A stripped field has a first character, and its string is shorter than the array. -/
theorem strip_spec {n : ℕ} {a : CharArray UInt8 n} {f : List UInt8} (ha : a.chars = trimName f) :
    ∃ c, a.chars.head? = some c ∧ a.chars[0]? = some c ∧ a.text? = some (stringOf a.chars) ∧
      (stringOf a.chars).length < n ∧ 0 ∉ stringOf a.chars := by
  have hne : a.chars ≠ [] := by
    intro h
    have hlen := length_trimName f
    rw [← ha, h, List.length_nil] at hlen
    omega
  have hhead := List.head?_eq_some_head hne
  have htext := text?_of_trimName ha
  exact ⟨_, hhead, List.head?_eq_getElem?.symm.trans hhead, htext,
    CharArray.length_lt_of_text? htext, CharArray.not_mem_of_text? htext⟩

/-- A line with its terminator fits into `s`, from which `Print` reads it. -/
theorem copy_line (s : CharArray UInt8 64) {line : List UInt8} (hnul : 0 ∉ line)
    (hlen : line.length < 64) : ∃ s', s.copy? line = some s' ∧ s'.text? = some line := by
  obtain ⟨s', hs', -⟩ := CharArray.copy?_eq (a := s) hlen
  exact ⟨s', hs', (CharArray.text?_copy hnul hs').1⟩

/-- **No array is overrun**, whatever the entries hold and whatever was in the arrays before. -/
theorem lsLoop_eq (m : Machine) (i remaining : ℕ) (base : CharArray UInt8 9)
    (ext : CharArray UInt8 4) (s : CharArray UInt8 64) :
    lsLoop m i remaining base ext s = some (lsLines m i remaining) := by
  induction remaining generalizing i base ext s with
  | zero => rfl
  | succ remaining ih =>
      obtain ⟨base', ext', hread, hbase, hext⟩ := readNameArrays_eq (m.rootDirEntries i) base ext
      obtain ⟨b, hb, hb₀, hbaseText, hbaseLen, hbaseNul⟩ := strip_spec hbase
      obtain ⟨e, he, he₀, hextText, hextLen, hextNul⟩ := strip_spec hext
      have hread' : readName (m.rootDirEntries i) = (base'.chars, ext'.chars) := by
        rw [hbase, hext]
      have hprint : ∀ line : List UInt8, 0 ∉ line → line.length < 64 →
          ((s.copy? line).bind fun s => s.text?.bind fun line =>
            (lsLoop m (i + 1) remaining base' ext' s).bind fun rest => pure (line :: rest)) =
              some (line :: lsLines m (i + 1) remaining) := by
        intro line hnul hlen
        obtain ⟨s', hcopy, htext⟩ := copy_line s hnul hlen
        rw [hcopy, Option.bind_some, htext, Option.bind_some, ih]
        rfl
      have hdot : 0 ∉ text "." := by decide
      have hnewline : 0 ∉ text "\n" := by decide
      have hdotLen : (text ".").length = 1 := rfl
      have hnewlineLen : (text "\n").length = 1 := rfl
      unfold lsLoop lsLines
      simp only [hread, hread', hb, he, hb₀, he₀, hbaseText, hextText, Option.bind_eq_bind,
        Option.bind_some, Option.some.injEq, ne_eq]
      split_ifs
      · rfl
      · exact ih _ _ _ _
      · exact ih _ _ _ _
      · apply hprint
        · simp only [List.mem_append, not_or]
          exact ⟨hbaseNul, hnewline⟩
        · simp only [List.length_append]
          omega
      · apply hprint
        · simp only [List.mem_append, not_or]
          exact ⟨⟨⟨hbaseNul, hdot⟩, hextNul⟩, hnewline⟩
        · simp only [List.length_append]
          omega

end lines

/-! ## The valid entries -/

namespace DirectoryEntry

variable (entry : DirectoryEntry)

/-- The first 8 characters of the name. -/
def baseField : List UInt8 := entry.name.chars.take 8

/-- The last 3. -/
def extField : List UInt8 := (entry.name.chars.drop 8).take 3

/-- The mark behind the last entry. -/
def IsEnd : Prop := entry.name.chars.head? = some 0x00

/-- All 8 characters are spaces. -/
def Blank : Prop := rtrim entry.baseField = []

/-- The line of an entry: the name, and a dot and the extension if there is one. -/
def line : List UInt8 :=
  rtrim entry.baseField ++
    (if rtrim entry.extField = [] then [] else text "." ++ rtrim entry.extField) ++ text "\n"

instance decidableIsEnd : Decidable entry.IsEnd := by
  unfold IsEnd
  infer_instance

end DirectoryEntry

namespace Machine

variable (m : Machine)

/-- The entry is before the end of the directory, not deleted, and not a part of a long name. -/
def Listed (i : ℕ) : Prop :=
  (∀ j ≤ i, ¬(m.rootDirEntries j).IsEnd) ∧
    (m.rootDirEntries i).name.chars.head? ≠ some 0xe5 ∧ (m.rootDirEntries i).attr ≠ kLongName

instance decidableListed (i : ℕ) : Decidable (m.Listed i) := by
  unfold Listed
  infer_instance

/-- The lines of the valid entries among `n` of them from entry `i` on. -/
def validLines (i n : ℕ) : List (List UInt8) :=
  ((List.range' i n).filter (m.Listed ·)).map fun j => (m.rootDirEntries j).line

/-- Before the end of the directory no name contains a zero. -/
def NamesWithoutNul : Prop :=
  ∀ i < m.entriesPerCluster, (∀ j ≤ i, ¬(m.rootDirEntries j).IsEnd) →
    0 ∉ (m.rootDirEntries i).name.chars

end Machine

section valid

variable {m : Machine} {entry : DirectoryEntry} {f : List UInt8} {i n : ℕ}

/-- The first character of a stripped field. -/
theorem head?_trimName (f : List UInt8) :
    (trimName f).head? = if rtrim f = [] then some 0 else f.head? := by
  rw [trimName_eq]
  split_ifs with hblank
  · rw [hblank]
    rfl
  · obtain ⟨rest, hrest⟩ := List.rdropWhile_prefix (· == 0x20) f
    have hsplit : f = rtrim f ++ rest := hrest.symm
    obtain ⟨c, kept, hkept⟩ := List.exists_cons_of_ne_nil hblank
    rw [hkept] at hsplit ⊢
    rw [hsplit]
    rfl

/-- The string of a stripped field. -/
theorem stringOf_trimName (hnul : 0 ∉ f) : stringOf (trimName f) = rtrim f := by
  have hnul' : 0 ∉ rtrim f := fun h => hnul ((List.rdropWhile_prefix _ f).subset h)
  have hle := length_rtrim_le f
  obtain ⟨k, hk⟩ : ∃ k, f.length + 1 - (rtrim f).length = k + 1 :=
    ⟨f.length - (rtrim f).length, by omega⟩
  rw [trimName_eq, hk, List.replicate_succ, stringOf_eq]
  exact CharArray.takeWhile_text hnul' _

theorem head?_baseField (entry : DirectoryEntry) :
    entry.baseField.head? = entry.name.chars.head? := by
  have hlen := entry.name.length_eq
  unfold DirectoryEntry.baseField
  cases hchars : entry.name.chars with
  | nil =>
      rw [hchars] at hlen
      cases hlen
  | cons c chars => rfl

/-- The test of the first character sees the end of the directory, and blank names as well. -/
theorem head?_base_iff : (readName entry).1.head? = some 0x00 ↔ entry.IsEnd ∨ entry.Blank := by
  show (trimName entry.baseField).head? = some 0x00 ↔ entry.IsEnd ∨ entry.Blank
  unfold DirectoryEntry.IsEnd DirectoryEntry.Blank
  rw [head?_trimName, head?_baseField]
  split_ifs with hblank
  · exact iff_of_true rfl (Or.inr hblank)
  · rw [or_iff_left hblank]

theorem head?_base_of_not_blank (h : ¬entry.Blank) :
    (readName entry).1.head? = entry.name.chars.head? := by
  show (trimName entry.baseField).head? = _
  rw [head?_trimName, head?_baseField]
  exact if_neg h

/-- The line that is printed for an entry is its name. -/
theorem printed_line (hnul : 0 ∉ entry.name.chars) :
    (if (readName entry).2.head? ≠ some 0 then
        stringOf (readName entry).1 ++ text "." ++ stringOf (readName entry).2 ++ text "\n"
      else stringOf (readName entry).1 ++ text "\n") = entry.line := by
  have hbase : 0 ∉ entry.baseField := fun h => hnul (List.mem_of_mem_take h)
  have hext : 0 ∉ entry.extField := fun h =>
    hnul (List.mem_of_mem_drop (List.mem_of_mem_take h))
  show (if (trimName entry.extField).head? ≠ some 0 then
      stringOf (trimName entry.baseField) ++ text "." ++ stringOf (trimName entry.extField) ++
        text "\n"
    else stringOf (trimName entry.baseField) ++ text "\n") = entry.line
  rw [head?_trimName, stringOf_trimName hbase, stringOf_trimName hext]
  unfold DirectoryEntry.line
  by_cases hnone : rtrim entry.extField = []
  · rw [if_pos hnone, if_pos hnone, if_neg (not_not.mpr rfl), List.append_nil]
  · have hhead : entry.extField.head? ≠ some 0 := fun h => hext (List.mem_of_mem_head? h)
    rw [if_neg hnone, if_neg hnone, if_pos hhead, List.append_assoc (rtrim entry.baseField)]

/-- Behind the end of the directory nothing is valid. -/
theorem validLines_of_isEnd (hend : (m.rootDirEntries i).IsEnd) (n : ℕ) : m.validLines i n = [] := by
  unfold Machine.validLines
  rw [List.map_eq_nil_iff, List.filter_eq_nil_iff]
  intro j hj hlisted
  exact (of_decide_eq_true hlisted).1 i (List.mem_range'_1.mp hj).1 hend

theorem validLines_succ (m : Machine) (i n : ℕ) : m.validLines i (n + 1) =
    if m.Listed i then (m.rootDirEntries i).line :: m.validLines (i + 1) n
    else m.validLines (i + 1) n := by
  unfold Machine.validLines
  rw [List.range'_succ, List.filter_cons]
  simp only [decide_eq_true_eq]
  split_ifs
  · rfl
  · rfl

theorem validLines_eq_nil_iff : m.validLines i n = [] ↔ ∀ j, i ≤ j → j < i + n → ¬m.Listed j := by
  unfold Machine.validLines
  rw [List.map_eq_nil_iff, List.filter_eq_nil_iff]
  simp only [List.mem_range'_1, decide_eq_true_eq, and_imp]

/-- An iteration of the loop that neither ends the directory nor finds a blank name. -/
theorem lsLines_succ (hend : ¬(m.rootDirEntries i).IsEnd) (hblank : ¬(m.rootDirEntries i).Blank)
    (hnul : 0 ∉ (m.rootDirEntries i).name.chars) (n : ℕ) :
    lsLines m i (n + 1) =
      if (m.rootDirEntries i).name.chars.head? = some 0xe5 then lsLines m (i + 1) n
      else if (m.rootDirEntries i).attr = kLongName then lsLines m (i + 1) n
      else (m.rootDirEntries i).line :: lsLines m (i + 1) n := by
  have hstart : (m.rootDirEntries i).name.chars.head? ≠ some 0x00 := hend
  rw [lsLines]
  simp only [head?_base_of_not_blank hblank, if_neg hstart, printed_line hnul]

/-- Such an iteration is right, so the listing is right if the rest of it is. -/
theorem lsLines_succ_eq_iff (hbefore : ∀ j ≤ i, ¬(m.rootDirEntries j).IsEnd)
    (hblank : ¬(m.rootDirEntries i).Blank) (hnul : 0 ∉ (m.rootDirEntries i).name.chars) (n : ℕ) :
    lsLines m i (n + 1) = m.validLines i (n + 1) ↔
      lsLines m (i + 1) n = m.validLines (i + 1) n := by
  rw [validLines_succ, lsLines_succ (hbefore i le_rfl) hblank hnul]
  by_cases hdeleted : (m.rootDirEntries i).name.chars.head? = some 0xe5
  · rw [if_pos hdeleted, if_neg fun hlisted : m.Listed i => hlisted.2.1 hdeleted]
  by_cases hlong : (m.rootDirEntries i).attr = kLongName
  · rw [if_neg hdeleted, if_pos hlong, if_neg fun hlisted : m.Listed i => hlisted.2.2 hlong]
  · have hlisted : m.Listed i := ⟨hbefore, hdeleted, hlong⟩
    rw [if_neg hdeleted, if_neg hlong, if_pos hlisted, List.cons_inj_right]

/-- **The listing is right up to the first blank name.** By induction on the entries. -/
theorem lsLines_eq_iff (hbefore : ∀ j < i, ¬(m.rootDirEntries j).IsEnd)
    (hnul : ∀ j, i ≤ j → j < i + n → (∀ k ≤ j, ¬(m.rootDirEntries k).IsEnd) →
      0 ∉ (m.rootDirEntries j).name.chars) :
    lsLines m i n = m.validLines i n ↔
      ∀ a b, i ≤ a → a ≤ b → b < i + n → (m.rootDirEntries a).Blank → ¬m.Listed b := by
  induction n generalizing i with
  | zero => exact iff_of_true rfl fun a b hia hab hb => absurd hb (by omega)
  | succ n ih =>
      by_cases hend : (m.rootDirEntries i).IsEnd
      · have hstop : lsLines m i (n + 1) = [] := if_pos (head?_base_iff.mpr (Or.inl hend))
        rw [hstop, validLines_of_isEnd hend]
        refine iff_of_true rfl fun a b hia hab _ _ hlisted => ?_
        exact hlisted.1 i (hia.trans hab) hend
      by_cases hblank : (m.rootDirEntries i).Blank
      · have hstop : lsLines m i (n + 1) = [] := if_pos (head?_base_iff.mpr (Or.inr hblank))
        rw [hstop, eq_comm, validLines_eq_nil_iff]
        constructor
        · intro hnone a b hia hab hb _
          exact hnone b (hia.trans hab) hb
        · intro hnone b hib hb
          exact hnone i b le_rfl hib hb hblank
      have hbefore' : ∀ j < i + 1, ¬(m.rootDirEntries j).IsEnd := by
        intro j hj
        rcases Nat.lt_succ_iff_lt_or_eq.mp hj with hlt | rfl
        · exact hbefore j hlt
        · exact hend
      have hrest := ih hbefore' fun j hij hj => hnul j (by omega) (by omega)
      have hlater : (∀ a b, i ≤ a → a ≤ b → b < i + (n + 1) → (m.rootDirEntries a).Blank →
          ¬m.Listed b) ↔
          ∀ a b, i + 1 ≤ a → a ≤ b → b < i + 1 + n → (m.rootDirEntries a).Blank → ¬m.Listed b := by
        constructor
        · intro h a b hia hab hb
          exact h a b (by omega) hab (by omega)
        · intro h a b hia hab hb hblank'
          rcases Nat.eq_or_lt_of_le hia with rfl | hlt
          · exact absurd hblank' hblank
          · exact h a b hlt hab (by omega) hblank'
      have hupTo : ∀ j ≤ i, ¬(m.rootDirEntries j).IsEnd := fun j hj =>
        hbefore' j (Nat.lt_succ_of_le hj)
      rw [hlater, ← hrest]
      exact lsLines_succ_eq_iff hupTo hblank (hnul i le_rfl (by omega) hupTo) n

end valid

/-! ## The command -/

/-- `ls` overruns none of its arrays and prints the lines of the valid entries, in order, and nothing
else. -/
structure Machine.LsExact (m : Machine) : Prop where
  arrays : ∀ base ext s, lsLoop m 0 m.entriesPerCluster base ext s =
    some (m.validLines 0 m.entriesPerCluster)
  prints : ∀ (t : Terminal) firstArg, t.runCommand m (text "ls") firstArg =
    (m.validLines 0 m.entriesPerCluster).foldl Terminal.print t

/-- **`ls` lists exactly the valid entries iff none is at or behind an entry with a blank base name**,
for any contents of the directory in which only the end of the directory is marked by a zero. -/
theorem ls_exact_iff {m : Machine} (hnul : m.NamesWithoutNul) :
    m.LsExact ↔ ∀ a b, a ≤ b → b < m.entriesPerCluster → (m.rootDirEntries a).Blank →
      ¬m.Listed b := by
  have hlines : lsLines m 0 m.entriesPerCluster = m.validLines 0 m.entriesPerCluster ↔
      ∀ a b, a ≤ b → b < m.entriesPerCluster → (m.rootDirEntries a).Blank → ¬m.Listed b := by
    have hbefore : ∀ j < 0, ¬(m.rootDirEntries j).IsEnd := fun j hj => absurd hj (Nat.not_lt_zero j)
    rw [lsLines_eq_iff hbefore fun j _ hj => hnul j (by omega)]
    constructor
    · intro h a b hab hb
      exact h a b (Nat.zero_le a) hab (by omega)
    · intro h a b _ hab hb
      exact h a b hab (by omega)
  rw [← hlines]
  constructor
  · intro h
    have harrays := h.arrays (.zeros 9) (.zeros 4) (.zeros 64)
    rw [lsLoop_eq] at harrays
    exact Option.some.inj harrays
  · intro h
    refine ⟨fun base ext s => ?_, fun t firstArg => ?_⟩
    · rw [lsLoop_eq, h]
    · rw [← h]
      rfl

/-- A volume whose root directory has one entry, an archive. -/
def oneFile (name : CharArray UInt8 11) : Machine :=
  { emptyMachine with
    bytesPerSector := 512
    sectorsPerCluster := 1
    rootDirEntries := fun i => if i = 0 then ⟨name, 0x20⟩ else ⟨.zeros 11, 0⟩ }

theorem oneFile_namesWithoutNul {name : CharArray UInt8 11} (hnul : 0 ∉ name.chars) :
    (oneFile name).NamesWithoutNul := by
  intro i _ hbefore
  cases i with
  | zero => exact hnul
  | succ i => exact absurd rfl (hbefore (i + 1) le_rfl)

/-- The file `KERNEL.ELF` is listed. -/
theorem ls_exact_iff_kernel : (oneFile ⟨text "KERNEL  ELF", rfl⟩).LsExact := by
  refine (ls_exact_iff (oneFile_namesWithoutNul (by decide))).mpr ?_
  intro a b hab _ hblank hlisted
  cases a with
  | zero => exact absurd hblank (by unfold DirectoryEntry.Blank; decide)
  | succ a => exact hlisted.1 (a + 1) hab rfl

/-- A file without a base name is taken for the end of the directory. -/
theorem ls_not_exact : ¬∀ m : Machine, m.NamesWithoutNul → m.LsExact := by
  intro hall
  have h := hall (oneFile ⟨text "        TXT", rfl⟩) (oneFile_namesWithoutNul (by decide))
  have harrays := h.arrays (.zeros 9) (.zeros 4) (.zeros 64)
  rw [lsLoop_eq] at harrays
  have hnone := Option.some.inj harrays
  rw [show lsLines _ 0 _ = [] from rfl, eq_comm, validLines_eq_nil_iff] at hnone
  refine hnone 0 le_rfl (by decide) ⟨fun j hj => ?_, by decide, by decide⟩
  rw [Nat.le_zero.mp hj]
  decide

end UhyokOS
