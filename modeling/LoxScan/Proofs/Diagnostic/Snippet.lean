import LoxScan.Diagnostic.Render
import LoxScan.Proofs.Binary64.Digits
import LoxScan.Proofs.Source.Lines

/-!
# Drawn snippets

A snippet is drawn as two lines. Both begin with gutters of one width,
so what stands behind them is aligned: the carets are under the columns
that are marked (`Snippet.getElem?_marks`).

> `Snippet.format_eq`: these two lines are what `format` gives, if a text
> can hold them.

Neither filling up the padding nor repeating the caret asks for more than
that, as both are parts of the second line. And the padding is never
longer than the columns it fills (`Snippet.missing?_eq`).
-/

namespace LoxScan

namespace Text

theorem byteLength_replicate (n : Nat) (c : Char) :
    byteLength (List.replicate n c) = n * c.utf8Size := by
  induction n with
  | zero => rw [List.replicate_zero, byteLength_nil, Nat.zero_mul]
  | succ n ih => rw [List.replicate_succ, byteLength_cons, ih, Nat.succ_mul, Nat.add_comm]

theorem byteLength_le (cs : List Char) : byteLength cs ≤ 4 * cs.length := by
  induction cs with
  | nil => exact Nat.zero_le _
  | cons c cs ih =>
      have hc := c.utf8Size_le_four
      rw [byteLength_cons, List.length_cons]
      omega

theorem length_le_of_slice? {cs covered : List Char} {start stop : Nat}
    (h : slice? cs start stop = some covered) : covered.length ≤ cs.length := by
  rw [slice?] at h
  split at h
  case isFalse => cases h
  obtain ⟨rest, hrest, hcut⟩ := Option.bind_eq_some_iff.mp h
  obtain ⟨after, -, htake⟩ := Option.bind_eq_some_iff.mp hcut
  obtain ⟨front, rfl, -⟩ := dropBytes?_eq_some_iff.mp hrest
  obtain rfl := Option.some.inj htake
  rw [List.length_append, List.length_take]
  omega

end Text

namespace Snippet

open Text

/-! ## Both lines, however long -/

def padding (s : Snippet) : List Char :=
  s.marksOnLine ++ List.replicate (s.startColumn - 1 - s.line.toList.length) ' '

/-- What stands behind the gutter under the line. -/
def marks (s : Snippet) : List Char := s.padding ++ List.replicate s.caretCount '^'

def caretLine (s : Snippet) : List Char := s.gutter [] ++ s.marks ++ s.labelText

def drawn (s : Snippet) : List Char := s.numberedLine ++ '\n' :: s.caretLine

theorem length_marksOnLine (s : Snippet) :
    s.marksOnLine.length = min (s.startColumn - 1) s.line.toList.length := by
  rw [marksOnLine, List.length_map, List.length_take]

/-- Never are more columns marked than there are. -/
theorem missing?_eq (s : Snippet) :
    s.missing? = some (s.startColumn - 1 - s.line.toList.length) := by
  have hle : s.marksOnLine.length ≤ s.startColumn - 1 := by
    rw [length_marksOnLine]
    exact Nat.min_le_left ..
  have hcount : s.startColumn - 1 - s.marksOnLine.length
      = s.startColumn - 1 - s.line.toList.length := by
    rw [length_marksOnLine]
    omega
  simp only [missing?, if_pos hle, hcount]

/-- What is repeated is part of what is drawn. -/
theorem repeated_le (s : Snippet) :
    s.startColumn - 1 - s.line.toList.length ≤ byteLength s.drawn
      ∧ s.caretCount ≤ byteLength s.drawn := by
  have hspace : ' '.utf8Size = 1 := by decide
  have hcaret : '^'.utf8Size = 1 := by decide
  simp only [drawn, caretLine, marks, padding, byteLength_append, byteLength_cons,
    byteLength_replicate, hspace, hcaret]
  omega

theorem padding?_eq (s : Snippet) :
    s.padding? =
      if s.startColumn - 1 - s.line.toList.length ≤ capacity then some s.padding else none := by
  have hspace : ' '.utf8Size = 1 := by decide
  rw [padding?, missing?_eq]
  show (replicate? _ ' ').bind _ = _
  rw [replicate?, hspace, Nat.mul_one]
  split <;> rfl

/-- Both lines are drawn exactly if a text can hold them. -/
theorem format_eq (s : Snippet) :
    s.format =
      if byteLength s.drawn ≤ capacity then some (String.ofList s.drawn) else none := by
  obtain ⟨hmissing, hcount⟩ := s.repeated_le
  have hcaret : '^'.utf8Size = 1 := by decide
  have hdrawn : s.numberedLine ++ '\n' :: (s.gutter [] ++ s.padding
      ++ List.replicate s.caretCount '^' ++ s.labelText) = s.drawn := by
    simp only [drawn, caretLine, marks, List.append_assoc]
  have hsize : (String.ofList s.drawn).utf8ByteSize = byteLength s.drawn := by
    rw [← byteLength_toList, String.toList_ofList]
  rw [format, padding?_eq, replicate?, hcaret, Nat.mul_one]
  -- what cannot hold a part of both lines cannot hold both lines
  by_cases hpadding : s.startColumn - 1 - s.line.toList.length ≤ capacity
  case neg =>
    rw [if_neg hpadding, if_neg fun h => hpadding (hmissing.trans h)]
    rfl
  by_cases hcarets : s.caretCount ≤ capacity
  case neg =>
    rw [if_pos hpadding, if_neg hcarets, if_neg fun h => hcarets (hcount.trans h)]
    rfl
  rw [if_pos hpadding, if_pos hcarets, ← hsize, ← hdrawn]
  simp only [Option.bind_eq_bind, Option.bind_some, Option.pure_def]

/-! ## Gutters -/

theorem numberedLine_eq (s : Snippet) :
    s.numberedLine = s.gutter (toString s.lineNumber).toList ++ s.line.toList := rfl

theorem caretLine_eq {s : Snippet} (h : s.label = none) :
    s.caretLine = s.gutter [] ++ s.marks := by
  rw [caretLine, labelText, h, List.append_nil]

theorem length_gutter {s : Snippet} {text : List Char} (h : text.length ≤ s.gutterWidth) :
    (s.gutter text).length = s.gutterWidth + 3 := by
  rw [gutter, padLeft, List.length_append, List.length_append, List.length_replicate]
  show s.gutterWidth - text.length + text.length + 3 = _
  omega

theorem length_number_le (s : Snippet) :
    (toString s.lineNumber).toList.length ≤ s.gutterWidth := by
  rw [String.length_toList]
  exact Nat.le_max_right ..

theorem length_gutter_eq (s : Snippet) :
    (s.gutter (toString s.lineNumber).toList).length = (s.gutter []).length := by
  rw [length_gutter s.length_number_le, length_gutter (Nat.zero_le _)]

theorem newline_notMem_toDigits (n : Nat) : '\n' ∉ Nat.toDigits 10 n :=
  fun hmem => absurd ((digits_toDigits n).isDigit _ hmem) (by decide)

theorem newline_notMem_gutter {s : Snippet} {text : List Char} (h : '\n' ∉ text) :
    '\n' ∉ s.gutter text := by
  rw [gutter, padLeft, List.mem_append, List.mem_append, List.mem_replicate]
  rintro ((⟨-, h'⟩ | h') | h')
  · exact absurd h' (by decide)
  · exact h h'
  · exact absurd h' (by decide)

theorem under_mem (c : Char) : under c ∈ ['\t', '\r', ' '] := by
  unfold under
  split
  case isTrue h => rcases h with rfl | rfl <;> decide
  case isFalse => decide

theorem length_padding (s : Snippet) : s.padding.length = s.startColumn - 1 := by
  rw [padding, List.length_append, length_marksOnLine, List.length_replicate]
  omega

/-- On the line, each column before the range has its own character. -/
theorem padding_of_le {s : Snippet} (h : s.startColumn - 1 ≤ s.line.toList.length) :
    s.padding = (s.line.toList.take (s.startColumn - 1)).map under := by
  rw [padding, Nat.sub_eq_zero_of_le h, List.replicate_zero, List.append_nil, marksOnLine]

theorem mem_padding {s : Snippet} {c : Char} (h : c ∈ s.padding) : c ∈ ['\t', '\r', ' '] := by
  rcases List.mem_append.mp h with h | h
  · obtain ⟨d, -, rfl⟩ := List.mem_map.mp h
    exact under_mem d
  · rw [List.eq_of_mem_replicate h]
    decide

/-- The carets are under the marked columns and nowhere else. -/
theorem getElem?_marks {s : Snippet} (hstart : 1 ≤ s.startColumn)
    (hwide : s.startColumn < s.endColumn) (i : Nat) :
    s.marks[i]? = some '^' ↔ s.startColumn ≤ i + 1 ∧ i + 1 < s.endColumn := by
  have hlength := s.length_padding
  have hcount : s.caretCount = s.endColumn - s.startColumn := by
    rw [caretCount]
    omega
  rw [marks]
  -- before the range there is no caret, and behind it there is nothing
  by_cases hi : i < s.padding.length
  · rw [List.getElem?_append_left hi]
    refine iff_of_false (fun h => ?_) (by omega)
    exact absurd (mem_padding (List.mem_of_getElem? h)) (by decide)
  · rw [List.getElem?_append_right (by omega), List.getElem?_replicate, hcount]
    simp only [ite_eq_left_iff, reduceCtorEq, imp_false, not_not]
    omega

theorem mem_marks {s : Snippet} {c : Char} (h : c ∈ s.marks) : c ∈ ['\t', '\r', ' ', '^'] := by
  rcases List.mem_append.mp h with h | h
  · exact List.mem_append_left ['^'] (mem_padding h)
  · rw [List.eq_of_mem_replicate h]
    decide

theorem newline_notMem_numberedLine {s : Snippet} (h : '\n' ∉ s.line.toList) :
    '\n' ∉ s.numberedLine := by
  have hdigits : '\n' ∉ (toString s.lineNumber).toList := by
    rw [toList_toString]
    exact newline_notMem_toDigits _
  rw [numberedLine_eq, List.mem_append, not_or]
  exact ⟨newline_notMem_gutter hdigits, h⟩

theorem newline_notMem_labelText {s : Snippet} (h : ∀ text ∈ s.label, '\n' ∉ text.toList) :
    '\n' ∉ s.labelText := by
  unfold labelText
  split
  case h_1 text htext => exact List.not_mem_cons_of_ne_of_not_mem (by decide) (h text htext)
  case h_2 => exact List.not_mem_nil

theorem newline_notMem_caretLine_of_label {s : Snippet}
    (h : ∀ text ∈ s.label, '\n' ∉ text.toList) : '\n' ∉ s.caretLine := by
  rw [caretLine, List.mem_append, List.mem_append, not_or, not_or]
  refine ⟨⟨newline_notMem_gutter List.not_mem_nil, fun hmem => ?_⟩, newline_notMem_labelText h⟩
  exact absurd (mem_marks hmem) (by decide)

theorem newline_notMem_caretLine {s : Snippet} (h : s.label = none) : '\n' ∉ s.caretLine :=
  newline_notMem_caretLine_of_label (by simp [h])

end Snippet

/-! ## Snippets of a source -/

namespace Diagnostic

open Text

theorem firstLineWidth_le (covered : List Char) : firstLineWidth covered ≤ covered.length := by
  rw [firstLineWidth]
  refine (List.dropWhile_suffix _).length_le.trans ?_
  rw [List.length_reverse]
  exact (List.takeWhile_prefix _).length_le

theorem length_le_of_lineText {cs line : List Char} {n : UInt32} (h : lineText cs n = .ok line) :
    line.length ≤ cs.length := by
  simp only [lineText] at h
  split at h
  case isTrue => cases h
  split at h
  case h_1 text htext =>
    obtain rfl := Except.ok.inj h
    exact (length_stripReturn_le _).trans (length_le_of_mem_lines (List.mem_of_getElem? htext))
  case h_2 => cases h

/-- What is looked up in a source is no longer than the source. -/
theorem bounds_of_snippet {d : Diagnostic} {source : String} {s : Snippet}
    (h : d.snippet source = .ok s) :
    s.line.toList.length ≤ source.length ∧ s.lineNumber < UInt32.size
      ∧ s.startColumn < UInt32.size ∧ s.endColumn ≤ s.startColumn + source.length
      ∧ s.label = none := by
  have hlineNumber := d.span.line.toNat_lt
  have hcolumn := d.span.column.toNat_lt
  simp only [snippet] at h
  cases hline : lineText source.toList d.span.line with
  | error e => rw [hline] at h; cases h
  | ok line =>
      cases hcovered : slice? source.toList d.span.start d.span.stop with
      | none => rw [hline, hcovered] at h; cases h
      | some covered =>
          rw [hline, hcovered] at h
          obtain rfl := Except.ok.inj h
          have hlength := length_le_of_lineText hline
          have hwidth := (firstLineWidth_le covered).trans (length_le_of_slice? hcovered)
          rw [String.length_toList] at hlength hwidth
          refine ⟨?_, hlineNumber, ?_, Nat.add_le_add_left hwidth _, rfl⟩
          · rwa [String.toList_ofList]
          · simp only [UInt32.size]
            omega

/-- No snippet of a source is too long to be drawn. -/
theorem format_of_snippet {d : Diagnostic} {source : String} {s : Snippet}
    (hsize : source.length ≤ 2 ^ 59) (h : d.snippet source = .ok s) :
    s.format = some (String.ofList s.drawn) := by
  obtain ⟨hline, hnumber, hstart, hend, hlabel⟩ := bounds_of_snippet h
  have hdigits : (Nat.toDigits 10 s.lineNumber).length ≤ 10 := by
    rw [Nat.length_toDigits_le_iff (by decide) (by decide)]
    exact hnumber.trans (by decide)
  have hgutter : s.gutterWidth ≤ 10 := by
    rw [Snippet.gutterWidth, ← String.length_toList, toList_toString]
    omega
  have hblank : (s.gutter []).length = s.gutterWidth + 3 := Snippet.length_gutter (Nat.zero_le _)
  have hlength : s.drawn.length ≤ 2 * source.length + 2 ^ 33 := by
    rw [Snippet.drawn, Snippet.caretLine_eq hlabel, Snippet.numberedLine_eq, Snippet.marks]
    simp only [List.length_append, List.length_cons, Snippet.length_padding, hblank,
      Snippet.length_gutter s.length_number_le, List.length_replicate, Snippet.caretCount]
    simp only [UInt32.size] at hstart
    omega
  rw [Snippet.format_eq, if_pos]
  have hbytes := byteLength_le s.drawn
  simp only [capacity]
  omega

end Diagnostic

end LoxScan
