import Mathlib.Data.List.DropRight
import LoxScan.Proofs.Diagnostic.Snippet
import LoxScan.Proofs.Output.Reports
import LoxScan.Proofs.Scan.Whole
import LoxScan.Proofs.Source.Lines

/-!
# Errors under their own text

Looking up the place of a diagnostic can fail, and then nothing is shown
and nothing is said. For what a scan reports it never fails
(`Diagnostic.exists_shown`): the position at which the reported text
starts is on the line that is found under its number, and as that text
starts with a character that ends no line, what is underlined is on the
line too, however many carriage returns the line has lost.

So every rendering is three lines, and what a report writes to the error
stream is these (`errors_shown`).
-/

namespace LoxScan

open Text

/-- What is underlined of a text: its first line, carriage returns at the
end left out. -/
def underlined (covered : List Char) : List Char :=
  (covered.takeWhile (· ≠ '\n')).rdropWhile (· = '\r')

theorem length_underlined (covered : List Char) :
    (underlined covered).length = Diagnostic.firstLineWidth covered := by
  rw [underlined, List.rdropWhile, List.length_reverse]
  rfl

/-- What starts with a character that ends no line is underlined there,
up to a character that is no carriage return. -/
theorem underlined_cons {c : Char} (hline : c ≠ '\n') (hreturn : c ≠ '\r') (cs : List Char) :
    underlined (c :: cs) ≠ [] ∧ (underlined (c :: cs)).getLast? ≠ some '\r' := by
  have hne : underlined (c :: cs) ≠ [] := by
    rw [underlined, Ne, List.rdropWhile_eq_nil_iff,
      List.takeWhile_cons_of_pos (by simpa using hline)]
    exact fun h => hreturn (by simpa using h c (List.mem_cons_self ..))
  refine ⟨hne, fun hlast => ?_⟩
  rw [List.getLast?_eq_some_getLast hne, Option.some.injEq] at hlast
  exact List.rdropWhile_last_not (· = '\r') _ hne (by simpa [underlined] using hlast)

/-- A diagnostic is about the text `c :: cs` of a source, which starts
with a character that ends no line, and has nothing to show but its
header and that text. -/
structure Diagnostic.About (d : Diagnostic) (source : String) (before : List Char) (c : Char)
    (cs : List Char) : Prop where
  inSource : ∃ rest, source.toList = before ++ (c :: cs ++ rest)
  span : d.span = Span.covering before (c :: cs)
  ne_line : c ≠ '\n'
  ne_return : c ≠ '\r'
  header : '\n' ∉ d.header.toList
  notes : d.notes = []
  helps : d.helps = []

theorem newline_notMem_header {before text : List Char} {code : Code} {message : String}
    (hcode : '\n' ∉ code.series.toList) (hmessage : '\n' ∉ message.toList) :
    '\n' ∉ (Segment.errorAt before text code message).header.toList := by
  have hdigits := Snippet.newline_notMem_toDigits
  simp [Diagnostic.header, Segment.errorAt, Code.text, Level.title, hcode, hmessage, hdigits]

theorem exists_about_of_mem_scan {source : String} {d : Diagnostic}
    (hd : d ∈ (scan source).diagnostics) : ∃ before c cs, d.About source before c cs := by
  obtain ⟨gs, hseg⟩ := exists_segmented source.toList
  rw [(scan_of_segmented hseg).2] at hd
  obtain ⟨front, g, back, rfl, hg⟩ := Segment.mem_yields hd
  have hform := hseg.wellFormed g (List.mem_append_right _ (List.mem_cons_self ..))
  have hsource : source.toList = Segment.textOf front ++ (g.text ++ Segment.textOf back) := by
    rw [← hseg.textOf_eq, Segment.textOf_append, Segment.textOf_cons]
  rw [List.nil_append] at hg
  cases g with
  | openString text =>
      obtain ⟨body, rfl, -⟩ := hform
      obtain rfl := Option.some.inj hg
      exact ⟨_, '"', body, ⟨_, hsource⟩, rfl, by decide, by decide,
        newline_notMem_header (by decide) (by decide), rfl, rfl⟩
  | stray c =>
      obtain rfl := Option.some.inj hg
      have hspace : ¬ (c = ' ' ∨ c = '\t' ∨ c = '\r' ∨ c = '\n') := by
        rw [← isSpace_iff, hform.1]
        decide
      simp only [not_or] at hspace
      refine ⟨_, c, [], ⟨_, hsource⟩, rfl, hspace.2.2.2, hspace.2.2.1,
        newline_notMem_header (by decide) ?_, rfl, rfl⟩
      simpa using Ne.symm hspace.2.2.2
  | _ => cases hg

/-! ## Its snippet -/

/-- A snippet shows the text that a diagnostic is about, in its line. -/
structure Diagnostic.Shown (d : Diagnostic) (source : String) (s : Snippet) : Prop where
  snippet : d.snippet source = .ok s
  oneLine : '\n' ∉ s.line.toList
  lineNumber : s.lineNumber = d.span.line.toNat
  startColumn : s.startColumn = d.span.column.toNat
  startColumn_pos : 1 ≤ s.startColumn
  wide : s.startColumn < s.endColumn
  fits : s.endColumn ≤ s.line.toList.length + 1
  label : s.label = none
  /-- The marked columns are the text, up to the end of its first line. -/
  marked : ∃ covered, slice? source.toList d.span.start d.span.stop = some covered
    ∧ (s.line.toList.take (s.endColumn - 1)).drop (s.startColumn - 1) = underlined covered
  /-- The line is the one in the source on which the text starts. -/
  place : ∃ front returns rest,
    LineAt source.toList front (s.line.toList ++ returns) rest ∧ Returns returns
      ∧ d.span.line.toNat = lineAfter front
      ∧ d.span.start = byteLength (front ++ s.line.toList.take (s.startColumn - 1))

/-- The underlined text stands on the line as it is shown. -/
theorem exists_append_underlined {indent shown returns rest : List Char} {c : Char}
    {cs : List Char} (hline : c ≠ '\n') (hreturn : c ≠ '\r') (hreturns : Returns returns)
    (h : indent ++ (c :: cs ++ rest).takeWhile (· ≠ '\n') = shown ++ returns) :
    ∃ more, shown = indent ++ (underlined (c :: cs) ++ more) := by
  obtain ⟨hne, hlast⟩ := underlined_cons hline hreturn cs
  have hfirst : underlined (c :: cs) <+: (c :: cs ++ rest).takeWhile (· ≠ '\n') :=
    (List.rdropWhile_prefix _ _).trans (takeWhile_isPrefix_append ..)
  have hfront : indent ++ underlined (c :: cs) <+: shown ++ returns := by
    rw [← h]
    exact (List.prefix_append_right_inj indent).mpr hfirst
  obtain ⟨more, rfl⟩ : indent ++ underlined (c :: cs) <+: shown := by
    refine isPrefix_of_returns hfront hreturns ?_
    rwa [List.getLast?_append_of_ne_nil _ hne]
  exact ⟨more, List.append_assoc ..⟩

namespace Diagnostic.About

variable {d : Diagnostic} {source : String} {before : List Char} {c : Char} {cs : List Char}
  (h : d.About source before c cs) (hsize : source.length < UInt32.size - 1)

include h hsize

/-- The line of the text, as it is in the source and as it is found. -/
theorem exists_line :
    ∃ front indent more returns rest, before = front ++ indent ∧ '\n' ∉ indent
      ∧ LineAt source.toList front (indent ++ (underlined (c :: cs) ++ more) ++ returns) rest
      ∧ Returns returns
      ∧ lineText source.toList (UInt32.ofNat (lineAfter front)) =
        .ok (indent ++ (underlined (c :: cs) ++ more)) := by
  obtain ⟨rest, hsource⟩ := h.inSource
  have hne : c :: cs ++ rest ≠ [] := List.cons_ne_nil _ _
  obtain ⟨front, indent, hbefore, hindent, hat⟩ := exists_lineAt before hne
  rw [← hsource] at hat
  -- what is found has lost carriage returns, and none of them is underlined
  obtain ⟨shown, returns, hfound, hline, hreturns⟩ :=
    exists_lineText hat (by rw [String.length_toList]; omega)
  obtain ⟨more, rfl⟩ := exists_append_underlined h.ne_line h.ne_return hreturns hline
  rw [hline] at hat
  exact ⟨front, indent, more, returns, _, hbefore, hindent, hat, hreturns, hfound⟩

/-- The place of the diagnostic in numbers, none of which has wrapped. -/
theorem counts : (Position.after before).Counts before := by
  obtain ⟨rest, hsource⟩ := h.inSource
  refine Position.counts_after ?_
  have hlength := congrArg List.length hsource
  rw [String.length_toList, List.length_append] at hlength
  omega

omit hsize in
theorem slice?_eq : slice? source.toList d.span.start d.span.stop = some (c :: cs) := by
  obtain ⟨rest, hsource⟩ := h.inSource
  rw [h.span, hsource, ← List.append_assoc]
  exact slice?_append before (c :: cs) rest

theorem exists_shown : ∃ s, d.Shown source s := by
  obtain ⟨front, indent, more, returns, rest, hbefore, hindent, hat, hreturns, hfound⟩ :=
    h.exists_line hsize
  obtain ⟨hne, -⟩ := underlined_cons h.ne_line h.ne_return cs
  have hpos := List.length_pos_iff.mpr hne
  have hline : d.span.line = UInt32.ofNat (lineAfter front) := by
    rw [h.span, Span.covering, hbefore, lineAfter_indent hindent]
  have hcolumn : d.span.column.toNat = 1 + indent.length := by
    rw [← columnAfter_indent hat.starts hindent, ← hbefore, h.span]
    exact (h.counts hsize).column
  have hnumber : d.span.line.toNat = lineAfter front := by
    rw [← lineAfter_indent hindent, ← hbefore, h.span]
    exact (h.counts hsize).line
  have hbefore_column : d.span.column.toNat - 1 = indent.length := by omega
  -- the line is `indent`, the underlined text and `more`, in this order
  refine ⟨⟨String.ofList (indent ++ (underlined (c :: cs) ++ more)), d.span.line.toNat,
    d.span.column.toNat, d.span.column.toNat + (underlined (c :: cs)).length, none⟩, ?_⟩
  exact {
    snippet := by
      have hmax : max 1 d.span.column.toNat = d.span.column.toNat := by omega
      simp only [Diagnostic.snippet, hline, hfound, h.slice?_eq, hmax, length_underlined]
      rfl
    oneLine := by
      rw [String.toList_ofList]
      exact fun hmem => hat.oneLine (List.mem_append_left _ hmem)
    lineNumber := rfl
    startColumn := rfl
    startColumn_pos := by
      show 1 ≤ d.span.column.toNat
      omega
    wide := Nat.lt_add_of_pos_right hpos
    fits := by
      simp only [String.toList_ofList, List.length_append]
      omega
    label := rfl
    marked := by
      refine ⟨c :: cs, h.slice?_eq, ?_⟩
      have hend : d.span.column.toNat + (underlined (c :: cs)).length - 1 =
          (indent ++ underlined (c :: cs)).length := by
        rw [List.length_append]
        omega
      rw [String.toList_ofList, hbefore_column, hend, ← List.append_assoc, List.take_left,
        List.drop_left]
    place := by
      refine ⟨front, returns, rest, ?_, hreturns, hnumber, ?_⟩
      · rwa [String.toList_ofList]
      · rw [String.toList_ofList, hbefore_column, List.take_left, ← hbefore, h.span]
        rfl }

end Diagnostic.About

/-! ## Its rendering -/

/-- A rendering is a header and the two lines of a snippet, of which the
second has carets under the marked columns of the first. -/
structure Diagnostic.Rendered (d : Diagnostic) (source : String) (s : Snippet) : Prop where
  plain : d.render source false =
    d.header ++ "\n" ++ String.ofList s.numberedLine ++ "\n" ++ String.ofList s.caretLine
  /-- Only the header is colored. -/
  colored : d.render source true =
    "\x1b[1;" ++ d.level.colorCode ++ "m" ++ d.header ++ "\x1b[0m" ++ "\n"
      ++ String.ofList s.numberedLine ++ "\n" ++ String.ofList s.caretLine
  threeLines : '\n' ∉ d.header.toList ∧ '\n' ∉ s.numberedLine ∧ '\n' ∉ s.caretLine
  numbered : s.numberedLine = s.gutter (toString s.lineNumber).toList ++ s.line.toList
  marked : s.caretLine = s.gutter [] ++ s.marks
  aligned : (s.gutter (toString s.lineNumber).toList).length = (s.gutter []).length
  /-- Before the carets there is a blank for every character of the line,
  a tab or a carriage return for itself. -/
  marks : s.marks = (s.line.toList.take (s.startColumn - 1)).map Snippet.under
    ++ List.replicate (s.endColumn - s.startColumn) '^'
  carets : ∀ i, s.marks[i]? = some '^' ↔ s.startColumn ≤ i + 1 ∧ i + 1 < s.endColumn

namespace Diagnostic

variable {d : Diagnostic} {source : String} {s : Snippet}

theorem Shown.isDummy_eq (h : d.Shown source s) : d.span.isDummy = false := by
  obtain ⟨front, returns, rest, -, -, hline, -⟩ := h.place
  rw [Span.isDummy, beq_eq_false_iff_ne]
  intro hzero
  rw [hzero, lineAfter] at hline
  simp at hline
  omega

/-- What can be looked up is shown. -/
theorem render_of_shown (hsize : source.length < UInt32.size - 1) (h : d.Shown source s)
    (hnotes : d.notes = []) (hhelps : d.helps = []) (color : Bool) :
    d.render source color =
      d.coloredHeader color ++ "\n" ++ String.ofList s.numberedLine ++ "\n"
        ++ String.ofList s.caretLine := by
  have hformat := format_of_snippet (hsize.le.trans (by decide)) h.snippet
  refine String.toList_injective ?_
  simp [render, h.isDummy_eq, h.snippet, hformat, hnotes, hhelps, Snippet.drawn]

theorem rendered_of_shown (hsize : source.length < UInt32.size - 1) (h : d.Shown source s)
    (hnotes : d.notes = []) (hhelps : d.helps = []) (hheader : '\n' ∉ d.header.toList) :
    d.Rendered source s where
  plain := render_of_shown hsize h hnotes hhelps false
  colored := render_of_shown hsize h hnotes hhelps true
  threeLines :=
    ⟨hheader, Snippet.newline_notMem_numberedLine h.oneLine,
      Snippet.newline_notMem_caretLine h.label⟩
  numbered := s.numberedLine_eq
  marked := Snippet.caretLine_eq h.label
  aligned := s.length_gutter_eq
  marks := by
    have hfits := h.fits
    have hwide := h.wide
    have hcount : s.caretCount = s.endColumn - s.startColumn := by
      rw [Snippet.caretCount]
      omega
    rw [Snippet.marks, Snippet.padding_of_le (by omega), hcount]
  carets := Snippet.getElem?_marks h.startColumn_pos h.wide

end Diagnostic

/-! ## All renderings -/

theorem newline_notMem_coloredHeader {d : Diagnostic} (h : '\n' ∉ d.header.toList)
    (color : Bool) : '\n' ∉ (d.coloredHeader color).toList := by
  cases color with
  | false => exact h
  | true =>
      simp [Diagnostic.coloredHeader, Level.colorCode, h]

theorem exists_shown_rendered {source : String} (hsize : source.length < UInt32.size - 1)
    {d : Diagnostic} (hd : d ∈ (scan source).diagnostics) :
    ∃ s, d.Shown source s ∧ d.Rendered source s := by
  obtain ⟨before, c, cs, habout⟩ := exists_about_of_mem_scan hd
  obtain ⟨s, hs⟩ := habout.exists_shown hsize
  exact ⟨s, hs, Diagnostic.rendered_of_shown hsize hs habout.notes habout.helps habout.header⟩

/-- Colored or not, a rendering is three lines. -/
theorem exists_lines_of_rendered {d : Diagnostic} {source : String} {s : Snippet}
    (h : d.Rendered source s) (color : Bool) :
    ∃ texts : List (List Char), texts.length = 3 ∧ (∀ t ∈ texts, '\n' ∉ t)
      ∧ (d.render source color ++ "\n").toList = texts.flatMap (· ++ ['\n']) := by
  obtain ⟨hheader, hnumbered, hcaret⟩ := h.threeLines
  refine ⟨[(d.coloredHeader color).toList, s.numberedLine, s.caretLine], rfl, ?_, ?_⟩
  · simp [newline_notMem_coloredHeader hheader color, hnumbered, hcaret]
  · cases color with
    | false => simp [h.plain, Diagnostic.coloredHeader]
    | true => simp [h.colored, Diagnostic.coloredHeader]

/-- In a source of fewer than `2 ^ 32 - 1` characters every error is shown
under the text it is about, in three lines, and what a report says on the
error stream is these, in the order of the source. -/
theorem errors_shown (source : String) (hsize : source.length < UInt32.size - 1) :
    (∀ d ∈ (scan source).diagnostics, ∃ s, d.Shown source s ∧ d.Rendered source s)
      ∧ (scan source).diagnostics.Pairwise (fun d e => d.span.start < e.span.start)
      ∧ ∀ format color,
        let shown := String.join
          ((scan source).diagnostics.map fun d => d.render source color ++ "\n")
        (Streams.unlimited.report format color source).err = shown.toUTF8
          ∧ ∃ counts, (Streams.unlimited.report format color source).result = .ok counts
            ∧ counts.errors = (scan source).diagnostics.length
            ∧ (lines shown.toList).length = 3 * counts.errors := by
  refine ⟨fun d hd => exists_shown_rendered hsize hd, ?_, fun format color => ?_⟩
  · obtain ⟨gs, hseg⟩ := exists_segmented source.toList
    rw [(scan_of_segmented hseg).2]
    exact Segment.pairwise_start hseg.wellFormed []
  rw [Streams.report_unlimited]
  refine ⟨?_, _, rfl, by rw [Report.ofScan_eq], ?_⟩
  · rw [errBytes, Sink.bytesOf, complaints, List.map_map]
    rfl
  · rw [Report.ofScan_eq]
    refine length_lines_join fun d hd => ?_
    obtain ⟨s, -, hrendered⟩ := exists_shown_rendered hsize hd
    exact exists_lines_of_rendered hrendered color

/-- A tab and a lone carriage return before an error, and a string left
open over lines that end in two carriage returns. -/
theorem errors_shown_returns :
    let source := "\tx\r#\r\r\n \"é\r\r\nb"
    source.length < UInt32.size - 1
      ∧ (scan source).diagnostics.length = 2
      ∧ ∀ d ∈ (scan source).diagnostics, ∃ s, d.Shown source s ∧ d.Rendered source s :=
  ⟨by decide, by decide +kernel, (errors_shown _ (by decide)).1⟩

end LoxScan
