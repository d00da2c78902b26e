import Mathlib.Data.Nat.Log
import LoxScan.Proofs.Diagnostic.Snippet

/-!
# Carets under their columns

What a snippet marks need not be on its line: columns may be zero, in the
wrong order, or past the end. What stands under a column depends on nothing
but that column (`padding_eq`).

> `format_aligned`: two lines behind gutters of one width, and under each
> column before the range the mark of that column.

The one thing that can go wrong is the size of these lines, and it goes
wrong for columns far enough out (`format_far`).
-/

namespace LoxScan.Snippet

open Text

/-! ## Line numbers -/

/-- In decimal a number has one digit more than its logarithm. -/
theorem length_toDigits (n : Nat) : (Nat.toDigits 10 n).length = Nat.log 10 n + 1 := by
  have hpos : 0 < (Nat.toDigits 10 n).length := Nat.length_toDigits_pos
  have hten : 1 < 10 := by decide
  refine le_antisymm ?_ ?_
  · rw [Nat.length_toDigits_le_iff hten (Nat.succ_pos _)]
    exact Nat.lt_pow_succ_log_self hten n
  · have hlt : n < 10 ^ (Nat.toDigits 10 n).length :=
      (Nat.length_toDigits_le_iff hten hpos).mp (Nat.le_refl _)
    exact Nat.log_lt_of_lt_pow' (Nat.ne_of_gt hpos) hlt

theorem gutterWidth_eq (s : Snippet) : s.gutterWidth = max 3 (Nat.log 10 s.lineNumber + 1) := by
  rw [gutterWidth, ← String.length_toList, toList_toString, length_toDigits]

/-! ## The columns before the range -/

/-- What stands under the column with index `i` of a line: its own tab or
carriage return, and a space under anything else and past the end. -/
def markUnder (cs : List Char) (i : Nat) : Char :=
  match cs[i]? with
  | some '\t' => '\t'
  | some '\r' => '\r'
  | _ => ' '

theorem markUnder_of_lt {cs : List Char} {i : Nat} (h : i < cs.length) :
    markUnder cs i = under cs[i] := by
  rw [markUnder, List.getElem?_eq_getElem h, under]
  grind

theorem markUnder_of_le {cs : List Char} {i : Nat} (h : cs.length ≤ i) : markUnder cs i = ' ' := by
  rw [markUnder, List.getElem?_eq_none h]

/-- Every column before the range has its mark, on the line and behind. -/
theorem padding_eq (s : Snippet) :
    s.padding = (List.range (s.startColumn - 1)).map (markUnder s.line.toList) := by
  refine List.ext_getElem ?_ fun i hi hi' => ?_
  · rw [length_padding, List.length_map, List.length_range]
  rw [length_padding] at hi
  rw [List.getElem_map, List.getElem_range]
  have hmarks := s.length_marksOnLine
  simp only [padding]
  -- on the line a column has a mark of its own, behind it there is filling
  by_cases hline : i < s.line.toList.length
  · rw [List.getElem_append_left (by omega), markUnder_of_lt hline]
    simp only [marksOnLine, List.getElem_map, List.getElem_take]
  · rw [List.getElem_append_right (by omega), List.getElem_replicate,
      markUnder_of_le (Nat.le_of_not_lt hline)]

/-! ## Both lines -/

/-- A snippet of one line is drawn as two lines behind gutters of one
width: the line as it is, and under it the marks of all columns before the
range, the carets of the range, and the label. There are columns enough for
all marks, and nothing is drawn exactly if no text can hold both lines. -/
theorem format_aligned {s : Snippet} (hline : '\n' ∉ s.line.toList)
    (hlabel : ∀ text ∈ s.label, '\n' ∉ text.toList) :
    let number := (toString s.lineNumber).toList
    let width := max 3 (Nat.log 10 s.lineNumber + 1)
    let numbered := List.replicate (width - number.length) ' ' ++ number ++ " | ".toList
    let blank := List.replicate width ' ' ++ " | ".toList
    let columns := (List.range (max s.startColumn 1 - 1)).map (markUnder s.line.toList)
    let count := if s.startColumn < s.endColumn then s.endColumn - s.startColumn else 1
    let first := numbered ++ s.line.toList
    let second := blank ++ columns ++ List.replicate count '^' ++ s.labelText
    let text := String.ofList (first ++ '\n' :: second)
    s.format = (if text.utf8ByteSize ≤ capacity then some text else none)
      ∧ text.toList.splitOn '\n' = [first, second]
      ∧ numbered.length = width + 3 ∧ blank.length = width + 3
      ∧ s.missing? = some (columns.length - s.line.toList.length) := by
  intro number width numbered blank columns count first second text
  have hwidth : s.gutterWidth = width := s.gutterWidth_eq
  have hnumbered : numbered = s.gutter number := by
    rw [gutter, padLeft, hwidth]
  have hblank : blank = s.gutter [] := by
    rw [gutter, padLeft, hwidth, List.append_nil]
    rfl
  have hcolumns : columns = s.padding := by
    have hfirst : max s.startColumn 1 - 1 = s.startColumn - 1 := by omega
    rw [padding_eq, ← hfirst]
  have hcount : count = s.caretCount := by
    rw [caretCount]
    simp only [count]
    split <;> omega
  have hfirst : first = s.numberedLine := congrArg (· ++ s.line.toList) hnumbered
  have hsecond : second = s.caretLine := by
    rw [caretLine, marks, ← List.append_assoc (s.gutter []), ← hblank, ← hcolumns, ← hcount]
  have htext : text = String.ofList s.drawn := by
    rw [drawn, ← hfirst, ← hsecond]
  refine ⟨?_, ?_, ?_, ?_, ?_⟩
  · rw [htext, format_eq, ← byteLength_toList, String.toList_ofList]
  · rw [htext, String.toList_ofList, drawn,
      List.splitOn_append_cons_self_of_not_mem (newline_notMem_numberedLine hline),
      List.splitOn_eq_singleton (newline_notMem_caretLine_of_label hlabel), hfirst, hsecond]
  · rw [hnumbered, ← hwidth]
    exact length_gutter s.length_number_le
  · rw [hblank, ← hwidth]
    exact length_gutter (Nat.zero_le _)
  · rw [hcolumns, length_padding, missing?_eq]

/-- A reversed range past the end of a line with a tab, a longer character
and a carriage return. -/
theorem format_aligned_reversed :
    let s : Snippet :=
      { line := "\té\r", lineNumber := 12345, startColumn := 6, endColumn := 2,
        label := some "here" }
    '\n' ∉ s.line.toList ∧ (∀ text ∈ s.label, '\n' ∉ text.toList)
      ∧ s.format = some "12345 | \té\r\n      | \t \r  ^ here"
      ∧ s.missing? = some 2 := by
  intro s
  have hline : '\n' ∉ s.line.toList := by decide
  have hlabel : ∀ text ∈ s.label, '\n' ∉ text.toList := by decide
  obtain ⟨hformat, -, -, -, hmissing⟩ := format_aligned hline hlabel
  exact ⟨hline, hlabel, hformat.trans (by decide), hmissing.trans (by decide)⟩

/-- A range in the last column that a 64-bit word can count. -/
theorem format_far :
    let s : Snippet :=
      { line := "x", lineNumber := 1, startColumn := 2 ^ 64 - 1, endColumn := 2 ^ 64 - 1,
        label := none }
    '\n' ∉ s.line.toList ∧ (∀ text ∈ s.label, '\n' ∉ text.toList)
      ∧ s.startColumn < 2 ^ 64 ∧ s.endColumn < 2 ^ 64 ∧ s.format = none := by
  intro s
  refine ⟨by decide, by decide, by decide, by decide, ?_⟩
  decide +kernel

end LoxScan.Snippet
