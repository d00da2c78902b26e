import LoxScan.Proofs.Scan.Calls

/-!
# Places are exact

Whatever is asked of a scanner, its two positions are counts in the
source: `Scanner.Holds` names the text before the current lexeme and the
lexeme itself. One pull keeps that (`Scanner.gives_nextToken`), so every
run does (`kept_placed`), and with it the places of tokens and
diagnostics are right.

Counts are unbounded and words are not. Up to the last section places are
compared as words, which is always right; `places_exact` reads them as
numbers, for sources in which no count can wrap.
-/

namespace LoxScan

open Segment (textOf)

/-! ## Where a scanner stands -/

namespace Scanner

/-- `read` lies before the current lexeme, and the cursor has passed
both. -/
structure Holds (s : Scanner) (source : String) (read lexeme : List Char) : Prop where
  source : s.cursor.source = source
  start : s.start = Position.after read
  place : s.cursor.At (read ++ lexeme)

theorem holds_ofSource (source : String) : (ofSource source).Holds source [] [] :=
  ⟨rfl, rfl, Cursor.at_ofSource source⟩

end Scanner

/-- The span is that of a text in the source. -/
def Span.InSource (source : String) (sp : Span) : Prop :=
  ∃ before text rest, source.toList = before ++ text ++ rest
    ∧ sp = Span.covering before text

/-- The token's text is in the source, at its line; the end mark is at
the end. -/
def Token.InSource (source : String) (t : Token) : Prop :=
  ∃ before rest, source.toList = before ++ t.lexeme.toList ++ rest
    ∧ t.line = UInt32.ofNat (Text.lineAfter before)
    ∧ (t.isEof = true → t.lexeme = "" ∧ rest = [])

namespace Scanner

variable {s : Scanner} {source : String} {read lexeme : List Char}

theorem Holds.split (h : s.Holds source read lexeme) :
    source.toList = read ++ lexeme ++ s.cursor.rest := by
  rw [← h.source]
  exact h.place.source

theorem Holds.span_eq (h : s.Holds source read lexeme) :
    s.span = Span.covering read lexeme := by
  rw [span, Span.covering, h.start, h.place.position]
  rfl

/-- The start of the lexeme is a stop on the way to the cursor. -/
theorem Holds.exists_stop (h : s.Holds source read lexeme) :
    ∃ c, (Cursor.ofSource source).Reaches c ∧ c.position = s.start
      ∧ c.Reaches s.cursor := by
  have hstop :
      Cursor.At ⟨source, lexeme ++ s.cursor.rest, Position.after read⟩ ([] ++ read) :=
    ⟨h.split.trans (List.append_assoc ..), rfl⟩
  exact ⟨_, Cursor.reaches_of_at (Cursor.at_ofSource source) hstop rfl, h.start.symm,
    Cursor.reaches_of_at hstop h.place h.source⟩

/-- What the caller reports is about the current lexeme. -/
theorem Holds.inSource_diagnostic (h : s.Holds source read lexeme) (code : Code)
    (message : String) : (s.diagnostic code message).span.InSource source :=
  ⟨read, lexeme, s.cursor.rest, h.split, h.span_eq⟩

theorem Holds.marked (h : s.Holds source read lexeme) (b : Bool) :
    (s.marked b).Holds source read lexeme :=
  ⟨h.source, h.start, h.place⟩

/-! ## One pull -/

/-- A pull ends behind its token: the scanner holds the token's text,
which is of the grammar, and the end mark is given at the end. -/
structure Gives (source : String) (p : Pull) (read : List Char) : Prop where
  holds : p.scanner.Holds source read p.token.lexeme.toList
  line : p.token.line = p.scanner.start.line
  token :
    (p.token.isEof = true ∧ p.token.lexeme = "" ∧ p.token.literal = none
        ∧ p.scanner.cursor.rest = [])
      ∨ (p.token.isEof = false
        ∧ IsLexeme p.token.kind p.token.lexeme.toList p.token.literal)

theorem Holds.behind (h : s.Holds source read lexeme) {between text after : List Char}
    (hrest : s.cursor.rest = between ++ (text ++ after)) :
    (s.behind (read ++ lexeme ++ between) text after).Holds source
      (read ++ lexeme ++ between) text := by
  refine ⟨h.source, rfl, at_behind ?_⟩
  rw [h.place.source, hrest]
  simp only [List.append_assoc]

theorem Holds.reaches_behind (h : s.Holds source read lexeme)
    {between text after : List Char}
    (hrest : s.cursor.rest = between ++ (text ++ after)) :
    s.cursor.Reaches (s.behind (read ++ lexeme ++ between) text after).cursor := by
  have hplace := (h.behind hrest).place
  rw [List.append_assoc _ between text] at hplace
  exact Cursor.reaches_of_at h.place hplace rfl

/-- The diagnostics of segments passed over are about their texts. -/
theorem Holds.inSource_diagnostics (h : s.Holds source read lexeme) {gs : List Segment}
    {after : List Char} (hrest : s.cursor.rest = textOf gs ++ after) :
    ∀ d ∈ Segment.diagnostics (read ++ lexeme) gs, d.span.InSource source := by
  intro d hd
  obtain ⟨front, g, back, rfl, hg⟩ := Segment.mem_yields hd
  refine ⟨_, g.text, textOf back ++ after, ?_, Segment.span_of_diagnostic? hg⟩
  rw [h.split, hrest]
  simp only [Segment.textOf_append, Segment.textOf_cons, List.append_assoc]

/-- The step: from wherever a scanner stands, one pull. -/
theorem gives_nextToken (h : s.Holds source read lexeme) :
    ∃ read', Gives source s.nextToken read' ∧ s.cursor.Reaches s.nextToken.scanner.cursor
      ∧ ∀ d ∈ s.nextToken.reported, d.span.InSource source := by
  have hp := pulled_nextToken s h.place
  generalize s.nextToken = p at hp ⊢
  cases hp with
  | @lexeme skipped kind text after hseg hs =>
      have hrest : s.cursor.rest = textOf skipped ++ (text ++ after) := by
        rw [hseg.eq_append, Segment.textOf_append, Segment.textOf_cons, Segment.textOf_nil,
          List.append_nil, List.append_assoc]
        rfl
      have hform := hseg.wellFormed (.lexeme kind text) (by simp)
      have hkind := Segment.kind_ne_eof hform
      obtain ⟨value, hform⟩ := hform
      have hvalue := Segment.literal_of_isLexeme hform
      refine ⟨read ++ lexeme ++ textOf skipped, ⟨?_, rfl, Or.inr ⟨?_, ?_⟩⟩,
        h.reaches_behind hrest, h.inSource_diagnostics hrest⟩
      · simpa only [Token.ofLexeme, String.toList_ofList] using h.behind hrest
      · simpa only [Token.isEof, Token.ofLexeme, beq_eq_false_iff_ne] using hkind
      · simpa only [Token.ofLexeme, String.toList_ofList, ← hvalue] using hform
  | @atEnd skipped hseg hs =>
      have hrest : s.cursor.rest = textOf skipped ++ ([] ++ []) := hseg.eq_append
      exact ⟨_, ⟨h.behind hrest, rfl, Or.inl ⟨rfl, rfl, rfl, rfl⟩⟩,
        h.reaches_behind hrest, h.inSource_diagnostics hrest⟩

theorem Gives.marked {p : Pull} (h : Gives source p read) (b : Bool) :
    Gives source { p with scanner := p.scanner.marked b } read :=
  ⟨h.holds.marked b, h.line, h.token⟩

/-- Between the quotes of a string lies its value. -/
theorem Gives.content {p : Pull} (h : Gives source p read) {text : String}
    (hform : IsLexeme p.token.kind p.token.lexeme.toList p.token.literal)
    (htext : p.token.literal = some (.text text))
    (hstart : p.scanner.start.offset = Text.byteLength read)
    (hstop : p.scanner.cursor.position.offset
      = Text.byteLength (read ++ p.token.lexeme.toList)) :
    p.scanner.cursor.slice? (p.scanner.start.offset + 1)
      (p.scanner.cursor.position.offset - 1) = some text := by
  have hsplit := h.holds.place.source
  rw [htext] at hform
  generalize p.token.kind = kind, p.token.lexeme.toList = lexeme at hform hstop hsplit
  cases hform with
  | @string body hq =>
      have hquote : Text.byteLength ['"'] = 1 := rfl
      have hslice :=
        Text.slice?_append (read ++ ['"']) body ('"' :: p.scanner.cursor.rest)
      have hsource : read ++ '"' :: (body ++ ['"']) ++ p.scanner.cursor.rest
          = read ++ ['"'] ++ body ++ '"' :: p.scanner.cursor.rest := by
        simp only [List.append_assoc, List.cons_append, List.nil_append]
      have hbegin :
          p.scanner.start.offset + 1 = Text.byteLength (read ++ ['"']) := by
        rw [Text.byteLength_append, hquote, hstart]
      have hend : p.scanner.cursor.position.offset - 1
          = Text.byteLength (read ++ ['"'] ++ body) := by
        rw [hstop, ← List.cons_append, ← List.append_assoc, Text.byteLength_append, hquote,
          Nat.add_sub_cancel, List.append_cons]
      rw [Cursor.slice?, hsplit, hsource, hbegin, hend, hslice]
      rfl

theorem Gives.inSource {p : Pull} (h : Gives source p read) :
    p.token.InSource source := by
  refine ⟨read, p.scanner.cursor.rest, h.holds.split, ?_, ?_⟩
  · rw [h.line, h.holds.start]
    rfl
  · intro heof
    rcases h.token with ⟨-, hlexeme, -, hrest⟩ | ⟨hno, -⟩
    · exact ⟨hlexeme, hrest⟩
    · rw [hno] at heof
      cases heof

end Scanner

/-! ## Every run -/

/-- The scanner, which has moved on from `c`, and all that has happened
are in their places. -/
structure Placed (source : String) (c : Cursor) (es : List Event) (s : Scanner) :
    Prop where
  holds : ∃ read lexeme, s.Holds source read lexeme
  reaches : c.Reaches s.cursor
  tokens : ∀ t ∈ obtained es, t.InSource source
  diagnostics : ∀ d ∈ es.filterMap Event.diagnostic?, d.span.InSource source

namespace Placed

variable {source : String} {c : Cursor} {es : List Event} {s : Scanner}

theorem pull (h : Placed source c es s) {answer : Token → Event}
    (hans : answer = .pulled ∨ answer = .yielded) :
    Placed source c (es ++ (s.nextToken.run answer).events) s.nextToken.scanner := by
  obtain ⟨read, lexeme, hs⟩ := h.holds
  obtain ⟨read', hgives, hreaches, hreported⟩ := Scanner.gives_nextToken hs
  refine ⟨⟨read', _, hgives.holds⟩, h.reaches.trans hreaches, ?_, ?_⟩
  · intro t ht
    rw [obtained_append, Pull.obtained_run hans] at ht
    rcases List.mem_append.mp ht with ht | ht
    · exact h.tokens t ht
    · rw [List.mem_singleton.mp ht]
      exact hgives.inSource
  · intro d hd
    rw [List.filterMap_append] at hd
    rcases List.mem_append.mp hd with hd | hd
    · exact h.diagnostics d hd
    · obtain ⟨e, he, hed⟩ := List.mem_filterMap.mp hd
      rcases List.mem_append.mp he with he | he
      · obtain ⟨d', hd', rfl⟩ := List.mem_map.mp he
        cases hed
        exact hreported d hd'
      · rw [List.mem_singleton.mp he] at hed
        rcases hans with rfl | rfl <;> cases hed

theorem marked (h : Placed source c es s) (b : Bool) :
    Placed source c es (s.marked b) := by
  obtain ⟨read, lexeme, hs⟩ := h.holds
  exact ⟨⟨read, lexeme, hs.marked b⟩, h.reaches, h.tokens, h.diagnostics⟩

end Placed

theorem kept_placed (source : String) (c : Cursor) : Kept (Placed source c) where
  pulled h := h.pull (Or.inl rfl)
  yielded _ h := (h.pull (Or.inr rfl)).marked _
  exhausted := by
    intro es s h
    refine ⟨h.holds, h.reaches, ?_, ?_⟩
    · rw [obtained_concat rfl]
      exact h.tokens
    · simpa only [List.filterMap_append, List.filterMap_cons, Event.diagnostic?,
        List.filterMap_nil, List.append_nil] using h.diagnostics
  remarked := by
    intro es s code message h
    obtain ⟨read, lexeme, hs⟩ := h.holds
    refine ⟨h.holds, h.reaches, ?_, ?_⟩
    · rw [obtained_concat rfl]
      exact h.tokens
    · intro d hd
      rw [List.filterMap_append] at hd
      rcases List.mem_append.mp hd with hd | hd
      · exact h.diagnostics d hd
      · obtain rfl : d = s.diagnostic code message := by
          simpa [Event.diagnostic?] using hd
        exact hs.inSource_diagnostic code message

theorem placed_run (source : String) (calls : List Call) :
    Placed source (.ofSource source) (Scanner.run calls (.ofSource source)).events
      (Scanner.run calls (.ofSource source)).scanner := by
  have h : Placed source (.ofSource source) [] (.ofSource source) :=
    ⟨⟨[], [], Scanner.holds_ofSource source⟩, .refl, by simp [obtained], by simp⟩
  exact (kept_placed source _).run calls h

/-! ## In plain numbers -/

/-- The place of the cursor is a count, and from it on every slice that
can be asked for is there. -/
structure Cursor.Exact (source : String) (c : Cursor) : Prop where
  reads : c.source = source
  counts : ∃ before, source.toList = before ++ c.rest ∧ c.position.Counts before
  inside : c.position.offset ≤ source.utf8ByteSize
  remaining : c.slice? c.position.offset source.utf8ByteSize = some c.remaining
  later : ∀ c', c.Reaches c' →
    c.position.line ≤ c'.position.line
      ∧ ∃ text, c.rest = text ++ c'.rest
        ∧ c'.slice? c.position.offset c'.position.offset = some (String.ofList text)

/-- Both positions of the scanner are counts, in order, and stops of one
reading. -/
structure Scanner.Exact (source : String) (s : Scanner) : Prop where
  reads : s.cursor.source = source
  counts : ∃ read lexeme, source.toList = read ++ lexeme ++ s.cursor.rest
    ∧ s.start.Counts read ∧ s.cursor.position.Counts (read ++ lexeme)
    ∧ s.cursor.sliceFrom? s.start.offset = some (String.ofList lexeme)
  ordered : s.start.offset ≤ s.cursor.position.offset
    ∧ s.cursor.position.offset ≤ source.utf8ByteSize
  stops : ∃ c, (Cursor.ofSource source).Reaches c ∧ c.position = s.start
    ∧ c.Reaches s.cursor

/-- The token of a pull is the text between the two positions of the
scanner, and its line is that of its first character. -/
structure Pull.Exact (source : String) (p : Pull) : Prop where
  reads : p.scanner.cursor.source = source
  placed : ∃ read, source.toList = read ++ p.token.lexeme.toList ++ p.scanner.cursor.rest
    ∧ p.scanner.start.Counts read
    ∧ p.scanner.cursor.position.Counts (read ++ p.token.lexeme.toList)
    ∧ p.token.line.toNat = 1 + read.count '\n'
  eof : p.token.isEof = true → p.token.line.toNat = 1 + source.toList.count '\n'
  lexeme : p.scanner.cursor.sliceFrom? p.scanner.start.offset = some p.token.lexeme
  /-- The value of a string is the slice between its quotes. -/
  content : ∀ text, p.token.literal = some (.text text) →
    p.scanner.cursor.slice? (p.scanner.start.offset + 1)
      (p.scanner.cursor.position.offset - 1) = some text
  /-- What the caller reports now is about the token. -/
  remark : ∀ code message,
    (p.scanner.diagnostic code message).line = p.token.line
      ∧ p.scanner.cursor.slice? (p.scanner.diagnostic code message).span.start
          (p.scanner.diagnostic code message).span.stop = some p.token.lexeme

/-- The token's text is in the source, and its line is that of the text's
first character; the end mark is at the end. -/
def Token.Exact (source : String) (t : Token) : Prop :=
  ∃ before rest, source.toList = before ++ t.lexeme.toList ++ rest
    ∧ t.line.toNat = 1 + before.count '\n'
    ∧ (t.isEof = true → t.lexeme = "" ∧ rest = [])

/-- The span is that of a text of the source, its line and column those
of the text's first character. -/
def Diagnostic.Exact (source : String) (d : Diagnostic) : Prop :=
  ∃ before text rest, source.toList = before ++ text ++ rest
    ∧ d.span.start = Text.byteLength before
    ∧ d.span.stop = Text.byteLength (before ++ text)
    ∧ d.span.line.toNat = 1 + before.count '\n'
    ∧ d.span.column.toNat = 1 + (before.reverse.takeWhile (· ≠ '\n')).length

/-- Every place that can be had while reading the source is right. -/
structure PlacesExact (source : String) : Prop where
  cursor : ∀ c, (Cursor.ofSource source).Reaches c → c.Exact source
  scanner : ∀ calls, (Scanner.run calls (.ofSource source)).scanner.Exact source
  pull : ∀ calls p,
    p = (Scanner.run calls (.ofSource source)).scanner.nextToken
        ∨ (Scanner.run calls (.ofSource source)).scanner.next = some p →
      p.Exact source
  tokens : ∀ calls,
    ∀ t ∈ obtained (Scanner.run calls (.ofSource source)).events, t.Exact source
  diagnostics : ∀ calls,
    ∀ d ∈ (Scanner.run calls (.ofSource source)).events.filterMap Event.diagnostic?,
      d.Exact source
  /-- Asking on only moves on, so lines never decrease. -/
  forward : ∀ calls more,
    (Scanner.run calls (.ofSource source)).scanner.cursor.Reaches
        (Scanner.run (calls ++ more) (.ofSource source)).scanner.cursor
      ∧ (Scanner.run calls (.ofSource source)).scanner.cursor.position.line
          ≤ (Scanner.run (calls ++ more) (.ofSource source)).scanner.cursor.position.line

section Exact

variable {source : String} (hsize : source.length < UInt32.size - 1)

include hsize

theorem counts_of_prefix {before rest : List Char} (h : source.toList = before ++ rest) :
    (Position.after before).Counts before := by
  refine Position.counts_after ?_
  have := congrArg List.length h
  rw [String.length_toList, List.length_append] at this
  omega

theorem Cursor.exact_of_reaches {c : Cursor} (h : (Cursor.ofSource source).Reaches c) :
    c.Exact source := by
  obtain ⟨before, hsource, hat⟩ := h.exists_at (Cursor.at_ofSource source)
  rw [List.nil_append] at hat
  have hsource : c.source = source := hsource
  have hsplit : source.toList = before ++ c.rest := hsource ▸ hat.source
  have hcounts : c.position.Counts before := hat.position ▸ counts_of_prefix hsize hsplit
  refine ⟨hsource, ⟨before, hsplit, hcounts⟩, hsource ▸ Cursor.offset_le hat,
    hsource ▸ Cursor.slice?_remaining hat, ?_⟩
  intro c' hreach
  obtain ⟨text, hsource', hat'⟩ := hreach.exists_at hat
  have hsplit' : source.toList = before ++ text ++ c'.rest :=
    hsource ▸ hsource' ▸ hat'.source
  have hcounts' : c'.position.Counts (before ++ text) :=
    hat'.position ▸ counts_of_prefix hsize hsplit'
  refine ⟨?_, text, ?_, ?_⟩
  · rw [UInt32.le_iff_toNat_le, hcounts.line, hcounts'.line, List.count_append]
    omega
  · rwa [hsplit, List.append_assoc, List.append_cancel_left_eq] at hsplit'
  · rw [hcounts.offset]
    exact Cursor.slice?_of_at hat'

theorem Scanner.Holds.exact {s : Scanner} {read lexeme : List Char}
    (h : s.Holds source read lexeme) : s.Exact source := by
  have hstart : s.start.Counts read := by
    rw [h.start]
    exact counts_of_prefix hsize (h.split.trans (List.append_assoc ..))
  have hposition : s.cursor.position.Counts (read ++ lexeme) := by
    rw [h.place.position]
    exact counts_of_prefix hsize h.split
  refine ⟨h.source, ⟨read, lexeme, h.split, hstart, hposition, ?_⟩, ⟨?_, ?_⟩,
    h.exists_stop⟩
  · rw [Cursor.sliceFrom?, hstart.offset]
    exact Cursor.slice?_of_at h.place
  · rw [hstart.offset, hposition.offset, Text.byteLength_append]
    exact Nat.le_add_right ..
  · rw [← h.source]
    exact Cursor.offset_le h.place

theorem Scanner.Gives.exact {p : Pull} {read : List Char} (h : Gives source p read) :
    p.Exact source := by
  have hstart : p.scanner.start.Counts read := by
    rw [h.holds.start]
    exact counts_of_prefix hsize (h.holds.split.trans (List.append_assoc ..))
  have hposition := counts_of_prefix hsize h.holds.split
  rw [← h.holds.place.position] at hposition
  have hline : p.token.line.toNat = 1 + read.count '\n' := by
    rw [h.line, hstart.line]
  have hlexeme :
      p.scanner.cursor.sliceFrom? p.scanner.start.offset = some p.token.lexeme := by
    rw [Cursor.sliceFrom?, hstart.offset, Cursor.slice?_of_at h.holds.place,
      String.ofList_toList]
  refine ⟨h.holds.source, ⟨read, h.holds.split, hstart, hposition, hline⟩, fun heof => ?_,
    hlexeme, ?_, fun code message => ⟨h.line.symm, hlexeme⟩⟩
  · rcases h.token with ⟨-, hnone, -, hrest⟩ | ⟨hno, -⟩
    · rw [hline, h.holds.split, hnone, hrest]
      simp
    · rw [hno] at heof
      cases heof
  · intro text htext
    rcases h.token with ⟨-, -, hnone, -⟩ | ⟨-, hform⟩
    · rw [hnone] at htext
      cases htext
    · exact h.content hform htext hstart.offset hposition.offset

theorem Token.exact_of_inSource {t : Token} (h : t.InSource source) :
    t.Exact source := by
  obtain ⟨before, rest, hsource, hline, heof⟩ := h
  have hcounts := counts_of_prefix hsize (hsource.trans (List.append_assoc ..))
  exact ⟨before, rest, hsource, by rw [hline]; exact hcounts.line, heof⟩

theorem Diagnostic.exact_of_inSource {d : Diagnostic} (h : d.span.InSource source) :
    d.Exact source := by
  obtain ⟨before, text, rest, hsource, hspan⟩ := h
  have hcounts := counts_of_prefix hsize (hsource.trans (List.append_assoc ..))
  refine ⟨before, text, rest, hsource, ?_⟩
  rw [hspan]
  exact ⟨rfl, rfl, hcounts.line, hcounts.column⟩

/-- In a source of fewer than `2 ^ 32 - 1` characters no count can wrap,
and every place is right. -/
theorem places_exact : PlacesExact source where
  cursor c h := Cursor.exact_of_reaches hsize h
  scanner calls := by
    obtain ⟨read, lexeme, h⟩ := (placed_run source calls).holds
    exact h.exact hsize
  pull calls p hp := by
    obtain ⟨read, lexeme, h⟩ := (placed_run source calls).holds
    obtain ⟨read', hgives, -⟩ := Scanner.gives_nextToken h
    rcases hp with rfl | hp
    · exact hgives.exact hsize
    · cases hf : (Scanner.run calls (.ofSource source)).scanner.finished with
      | true =>
          rw [Scanner.next_of_finished hf] at hp
          cases hp
      | false =>
          rw [Scanner.next_of_unfinished hf] at hp
          cases hp
          exact (hgives.marked _).exact hsize
  tokens calls t ht :=
    Token.exact_of_inSource hsize ((placed_run source calls).tokens t ht)
  diagnostics calls d hd :=
    Diagnostic.exact_of_inSource hsize ((placed_run source calls).diagnostics d hd)
  forward calls more := by
    have h := placed_run source calls
    have hreach : (Scanner.run calls (.ofSource source)).scanner.cursor.Reaches
        (Scanner.run (calls ++ more) (.ofSource source)).scanner.cursor := by
      have hfrom : Placed source (Scanner.run calls (.ofSource source)).scanner.cursor []
          (Scanner.run calls (.ofSource source)).scanner :=
        ⟨h.holds, .refl, by simp [obtained], by simp⟩
      rw [Scanner.run_append]
      exact ((kept_placed source _).run more hfrom).reaches
    exact ⟨hreach, ((Cursor.exact_of_reaches hsize h.reaches).later _ hreach).1⟩

end Exact

/-- A longer character in a comment, and behind it a string over two lines
that is left open. -/
theorem places_exact_open_string :
    let source := "x // é\n\"a\nb"
    let events := (Scanner.run [.nextToken, .nextToken] (.ofSource source)).events
    source.length < UInt32.size - 1 ∧ PlacesExact source
      ∧ obtained events =
        [{ kind := .identifier, lexeme := "x", literal := none, line := 1 }, Token.eof 3]
      ∧ (events.filterMap Event.diagnostic?).map (·.span) =
        [{ start := 8, stop := 12, line := 2, column := 1 }] :=
  ⟨by decide, places_exact (by decide), by decide +kernel, by decide +kernel⟩

end LoxScan
