import LoxScan.Source.Position
import LoxScan.Source.Span
import LoxScan.Text.Offset

/-!
# Positions as counts

A position is moved one character at a time, but what it says can be
counted in the text passed: bytes, line feeds, and characters since the
last line feed. `passing_origin` is that equation. It has no bound in it,
since both sides wrap at the width of a word; `Position.Counts` is the
form without words, and `counts_after` the bound under which the two
agree.

A line feed hides the column of what came before it, so behind a text at
which a line starts (`StartsLine`) spans only move (`covering_append`).
-/

namespace LoxScan

namespace Text

/-- The line reached after a text: one, and one for each line feed. -/
def lineAfter (before : List Char) : Nat := 1 + before.count '\n'

/-- The column reached after a text: one, and one for each character
after the last line feed. -/
def columnAfter (before : List Char) : Nat :=
  1 + (before.reverse.takeWhile (· ≠ '\n')).length

theorem lineAfter_append (before cs : List Char) :
    lineAfter (before ++ cs) = lineAfter before + cs.count '\n' := by
  simp only [lineAfter, List.count_append, Nat.add_assoc]

theorem columnAfter_concat (before : List Char) (c : Char) :
    columnAfter (before ++ [c]) = if c = '\n' then 1 else columnAfter before + 1 := by
  by_cases hc : c = '\n'
  · simp [columnAfter, hc]
  · simp [columnAfter, hc, Nat.add_assoc]

/-- The same text leads from one column to one column. -/
theorem columnAfter_append_right {before before' : List Char}
    (h : columnAfter before = columnAfter before') (text : List Char) :
    columnAfter (before ++ text) = columnAfter (before' ++ text) := by
  induction text generalizing before before' with
  | nil => rwa [List.append_nil, List.append_nil]
  | cons c text ih =>
      rw [List.append_cons, List.append_cons before']
      refine ih ?_
      rw [columnAfter_concat, columnAfter_concat, h]

/-- A line feed hides what stands before it. -/
theorem columnAfter_line_append (line before : List Char) :
    columnAfter (line ++ '\n' :: before) = columnAfter before := by
  simp only [columnAfter, List.reverse_append, List.reverse_cons, List.append_assoc]
  rw [List.takeWhile_append]
  split
  · rename_i h
    rw [List.singleton_append, List.takeWhile_cons_of_neg (by simp), List.append_nil, h]
  · rfl

/-- A line starts behind the text. -/
def StartsLine (before : List Char) : Prop :=
  before = [] ∨ ∃ line, before = line ++ ['\n']

theorem columnAfter_append {start : List Char} (h : StartsLine start)
    (before : List Char) : columnAfter (start ++ before) = columnAfter before := by
  rcases h with rfl | ⟨line, rfl⟩
  · rfl
  · rw [List.append_assoc]
    exact columnAfter_line_append line before

theorem ofNat_lineAfter_append (start before : List Char) :
    UInt32.ofNat (lineAfter (start ++ before))
      = UInt32.ofNat (lineAfter before) + UInt32.ofNat (start.count '\n') := by
  rw [← UInt32.ofNat_add, lineAfter, lineAfter, List.count_append]
  congr 1
  omega

theorem byteLength_pos {cs : List Char} (h : cs ≠ []) : 0 < byteLength cs := by
  obtain ⟨c, cs, rfl⟩ := List.exists_cons_of_ne_nil h
  exact Nat.lt_of_lt_of_le c.utf8Size_pos (Nat.le_add_right ..)

theorem byteLength_toList (s : String) : byteLength s.toList = s.utf8ByteSize := by
  have hlist :
      ∀ cs : List Char, byteLength cs = (String.ofList cs).utf8ByteSize := by
    intro cs
    induction cs with
    | nil => rfl
    | cons c cs ih =>
        rw [byteLength_cons, ih, ← List.singleton_append, String.ofList_append,
          String.utf8ByteSize_append, ← String.singleton_eq_ofList,
          String.utf8ByteSize_singleton]
  rw [hlist, String.ofList_toList]

theorem lineAfter_le_length (before : List Char) :
    lineAfter before ≤ before.length + 1 := by
  have := List.count_le_length (a := '\n') (l := before)
  rw [lineAfter]
  omega

theorem columnAfter_le_length (before : List Char) :
    columnAfter before ≤ before.length + 1 := by
  have := (List.takeWhile_prefix (l := before.reverse) (· ≠ '\n')).length_le
  rw [List.length_reverse] at this
  rw [columnAfter]
  omega

end Text

open Text

namespace Position

/-- The position after a text, by counting. -/
def after (before : List Char) : Position :=
  { offset := byteLength before
    line := UInt32.ofNat (lineAfter before)
    column := UInt32.ofNat (columnAfter before) }

theorem after_concat (before : List Char) (c : Char) :
    after (before ++ [c]) = (after before).next c := by
  by_cases hc : c = '\n'
  · subst hc
    simp [after, next, columnAfter_concat, lineAfter_append, UInt32.ofNat_add]
  · simp [after, next, hc, columnAfter_concat, lineAfter_append, UInt32.ofNat_add]

theorem after_append (before cs : List Char) :
    after (before ++ cs) = (after before).passing cs := by
  induction cs generalizing before with
  | nil => rw [List.append_nil, passing_nil]
  | cons c cs ih =>
      rw [passing_cons, ← after_concat, ← ih, List.append_assoc, List.singleton_append]

/-- The position after a text, moved character by character, is the one
that is counted. -/
theorem passing_origin (before : List Char) :
    origin.passing before = after before :=
  (after_append [] before).symm

/-- A position says in plain numbers what can be counted in the text
before it. -/
structure Counts (p : Position) (before : List Char) : Prop where
  offset : p.offset = byteLength before
  line : p.line.toNat = 1 + before.count '\n'
  column : p.column.toNat = 1 + (before.reverse.takeWhile (· ≠ '\n')).length

theorem counts_after {before : List Char} (h : before.length + 1 < UInt32.size) :
    (after before).Counts before := by
  have hl := Nat.lt_of_le_of_lt (lineAfter_le_length before) h
  have hc := Nat.lt_of_le_of_lt (columnAfter_le_length before) h
  exact ⟨rfl, UInt32.toNat_ofNat_of_lt' hl, UInt32.toNat_ofNat_of_lt' hc⟩

end Position

namespace Span

/-- The span of `text`, read behind `before`. -/
def covering (before text : List Char) : Span :=
  { start := byteLength before
    stop := byteLength (before ++ text)
    line := UInt32.ofNat (lineAfter before)
    column := UInt32.ofNat (columnAfter before) }

/-- The span behind `bytes` more bytes, on `lines` more lines. -/
def moved (sp : Span) (bytes lines : Nat) : Span :=
  { start := sp.start + bytes
    stop := sp.stop + bytes
    line := sp.line + UInt32.ofNat lines
    column := sp.column }

theorem covering_append {start : List Char} (h : StartsLine start)
    (before text : List Char) :
    covering (start ++ before) text
      = (covering before text).moved (byteLength start) (start.count '\n') := by
  simp only [covering, moved, columnAfter_append h, ofNat_lineAfter_append,
    List.append_assoc, byteLength_append, Nat.add_comm]

end Span

end LoxScan
