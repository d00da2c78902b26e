import LoxScan.Proofs.Scan.Pull
import LoxScan.Proofs.Source.Ahead

/-!
# Segments read character by character

`Segment.first` cuts a text. Who has only a cursor asks for the character
it stands at and for the one behind that, moves on, and slices the source
for what was passed. That is `Cursor.readSegment?`, and it finds the same
segments (`readSegment?_eq`): a run is as long as its characters are of
its class, whether or not the end is asked for (`skipWhile_eq`), and no
slice is out of bounds.

> `nextToken_eq_read`: a scanner pulls its tokens by such readings.
-/

namespace LoxScan

namespace Cursor

/-! ## Reading -/

/-- Past the characters of a class, up to the end. -/
def skipWhile (p : Char → Bool) (c : Cursor) : Cursor :=
  if _h : c.isAtEnd = true then c
  else if p c.current then skipWhile p c.advance else c
termination_by c.rest.length
decreasing_by
  have hpos := List.length_pos_iff.mpr (by simpa [isAtEnd] using _h)
  rw [rest_advance, List.length_drop]
  omega

/-- The segment made of what was passed from one cursor to another. -/
def cut? (c c' : Cursor) (segment : List Char → Segment) : Option (Segment × Cursor) := do
  let text ← c'.sliceFrom? c.position.offset
  return (segment text.toList, c')

/-- The segment ahead and the cursor behind it. There is none at the
end. -/
def readSegment? (c : Cursor) : Option (Segment × Cursor) :=
  let ch := c.current
  if c.isAtEnd then none
  else if isSpace ch then c.cut? c.advance fun _ => .space ch
  else if ch = '/' ∧ c.peek 1 = '/' then c.cut? (c.skipWhile (· ≠ '\n')) .comment
  else match Symbol.single? ch, Symbol.withEqual? ch with
    | some alone, some long =>
      let (longer, after) := c.advance.accept '='
      c.cut? after (.lexeme (.symbol (if longer then long else alone)))
    | some alone, none => c.cut? c.advance (.lexeme (.symbol alone))
    | none, _ =>
      if ch = '"' then
        let close := c.advance.skipWhile (· ≠ '"')
        if close.isAtEnd then c.cut? close .openString
        else c.cut? close.advance (.lexeme .string)
      else if isDigit ch then
        let whole := c.skipWhile isDigit
        let fraction := whole.current = '.' ∧ isDigit (whole.peek 1)
        c.cut? (if fraction then whole.advance.skipWhile isDigit else whole) (.lexeme .number)
      else if isWordStart ch then
        c.cut? (c.skipWhile isWordPart) fun text =>
          .lexeme (Kind.ofWord (String.ofList text)) text
      else c.cut? c.advance fun _ => .stray ch

/-! ## What was passed -/

/-- From behind `before` one cursor comes to the other by passing
`text`. -/
structure Passes (c c' : Cursor) (before text : List Char) : Prop where
  source : c'.source = c.source
  place : c'.At (before ++ text)

theorem Passes.trans {c c' c'' : Cursor} {before text more : List Char}
    (h : c.Passes c' before text) (h' : c'.Passes c'' (before ++ text) more) :
    c.Passes c'' before (text ++ more) where
  source := h'.source.trans h.source
  place := by
    rw [← List.append_assoc]
    exact h'.place

section Passes

variable {c : Cursor} {before : List Char} (h : c.At before)

include h

theorem Passes.rest_eq {c' : Cursor} {text : List Char} (hp : c.Passes c' before text) :
    c.rest = text ++ c'.rest :=
  rest_eq_append h hp.place hp.source

/-- What was passed can be sliced, and is the text of the segment made of
it. -/
theorem Passes.cut?_eq {c' : Cursor} {text : List Char} (hp : c.Passes c' before text)
    {segment : List Char → Segment} {g : Segment} (hg : segment text = g) (htext : g.text = text) :
    c.cut? c' segment = some (g, c.advanceBy g.text.length) := by
  have hslice : c'.sliceFrom? c.position.offset = some (String.ofList text) := by
    rw [sliceFrom?, h.position]
    exact slice?_of_at hp.place
  rw [htext, advanceBy_of_at h hp.place hp.source, cut?, hslice, ← hg]
  simp only [Option.bind_eq_bind, Option.bind_some, String.toList_ofList, Option.pure_def]

theorem current_of_at : c.current = c.rest.head?.getD '\x00' := by
  rw [current, peek_of_at h, List.head?_eq_getElem?]

theorem passes_refl : c.Passes c before [] :=
  ⟨rfl, by rwa [List.append_nil]⟩

theorem passes_advance {ch : Char} {cs : List Char} (hr : c.rest = ch :: cs) :
    c.Passes c.advance before [ch] :=
  ⟨(at_advance_of_cons h hr).1, (at_advance_of_cons h hr).2⟩

/-- A loop need not ask for the end if NUL is not of its class. -/
theorem skipWhile_eq {p : Char → Bool} (hp : p '\x00' = false) :
    c.skipWhile p = if p c.current then c.advance.skipWhile p else c := by
  rw [skipWhile]
  split
  case isTrue hend =>
    have hrest : c.rest = [] := List.isEmpty_iff.mp hend
    have hcurrent : c.current = '\x00' := by rw [current_of_at h, hrest]; rfl
    rw [hcurrent, hp]
    rfl
  case isFalse => rfl

theorem passes_skipWhile (p : Char → Bool) :
    c.Passes (c.skipWhile p) before (c.rest.takeWhile p) := by
  -- along the characters ahead
  induction hr : c.rest generalizing c before with
  | nil =>
      have hend : c.isAtEnd = true := by rw [isAtEnd, hr]; rfl
      rw [skipWhile, dif_pos hend]
      exact passes_refl h
  | cons ch cs ih =>
      have hend : ¬ c.isAtEnd = true := by rw [isAtEnd, hr]; exact Bool.false_ne_true
      have hcurrent : c.current = ch := by rw [current_of_at h, hr]; rfl
      have hadvance := passes_advance h hr
      have hrest : c.advance.rest = cs := by rw [rest_advance, hr]; rfl
      rw [skipWhile, dif_neg hend, hcurrent]
      cases hch : p ch with
      | true =>
          rw [if_pos rfl, List.takeWhile_cons_of_pos hch]
          exact hadvance.trans (ih hadvance.place hrest)
      | false =>
          rw [if_neg Bool.false_ne_true, List.takeWhile_cons_of_neg (by simp [hch])]
          exact passes_refl h

theorem rest_skipWhile (p : Char → Bool) : (c.skipWhile p).rest = c.rest.dropWhile p := by
  have hrest := (passes_skipWhile h p).rest_eq h
  exact List.append_cancel_left (hrest.symm.trans List.takeWhile_append_dropWhile.symm)

end Passes

/-! ## Segment by segment -/

section Ahead

variable {c : Cursor} {before : List Char} (h : c.At before) {ch : Char} {cs : List Char}
  (hr : c.rest = ch :: cs)

include h hr

theorem current_of_cons : c.current = ch := by
  rw [current_of_at h, hr]
  rfl

omit h in
theorem rest_advance_of_cons : c.advance.rest = cs := by
  rw [rest_advance, hr]
  rfl

/-- A quote is followed by its string, or by the end. -/
theorem cut?_string (hch : ch = '"') :
    (let close := c.advance.skipWhile (· ≠ '"')
      if close.isAtEnd then c.cut? close .openString
      else c.cut? close.advance (.lexeme .string)) =
        some (Segment.string cs, c.advanceBy (Segment.string cs).text.length) := by
  subst hch
  have hadvance := passes_advance h hr
  have hbody := hadvance.trans (passes_skipWhile hadvance.place (· ≠ '"'))
  have hrest := rest_skipWhile hadvance.place (· ≠ '"')
  rw [rest_advance_of_cons hr] at hbody hrest
  simp only [isAtEnd, hrest, Segment.string]
  cases hclose : cs.dropWhile (· ≠ '"') with
  | nil => exact hbody.cut?_eq h rfl rfl
  | cons q after =>
      obtain rfl : q = '"' := by
        simpa using head_dropWhile (p := (· ≠ '"')) q (by rw [hclose]; rfl)
      rw [hclose] at hrest
      exact (hbody.trans (passes_advance hbody.place hrest)).cut?_eq h rfl rfl

/-- Digits are followed by a fraction if there is a point with a digit
behind it. -/
theorem cut?_number (hch : isDigit ch = true) :
    (let whole := c.skipWhile isDigit
      let fraction := whole.current = '.' ∧ isDigit (whole.peek 1)
      c.cut? (if fraction then whole.advance.skipWhile isDigit else whole) (.lexeme .number)) =
        some (.lexeme .number (Segment.numeral ch cs),
          c.advanceBy (Segment.numeral ch cs).length) := by
  have hwhole := passes_skipWhile h isDigit
  have hrest := rest_skipWhile h isDigit
  rw [hr, List.takeWhile_cons_of_pos hch] at hwhole
  rw [hr, List.dropWhile_cons_of_pos hch] at hrest
  simp only [current_of_at hwhole.place, peek_of_at hwhole.place, hrest]
  by_cases hfraction : ∃ d part, cs.dropWhile isDigit = '.' :: d :: part ∧ isDigit d = true
  case pos =>
    obtain ⟨d, part, hdrop, hd⟩ := hfraction
    have hnumeral : Segment.numeral ch cs =
        ch :: cs.takeWhile isDigit ++ '.' :: d :: part.takeWhile isDigit := by
      simp only [Segment.numeral, hdrop, if_pos hd]
    rw [hdrop] at hrest
    have hpoint := hwhole.trans (passes_advance hwhole.place hrest)
    have hpart := hpoint.trans (passes_skipWhile hpoint.place isDigit)
    rw [rest_advance_of_cons hrest, List.takeWhile_cons_of_pos hd, List.append_assoc] at hpart
    rw [hdrop, if_pos ⟨rfl, hd⟩, hnumeral]
    exact hpart.cut?_eq h rfl rfl
  case neg =>
    have hnumeral : Segment.numeral ch cs = ch :: cs.takeWhile isDigit := by
      rw [Segment.numeral]
      split
      case h_1 d part hdrop => exact if_neg fun hd => hfraction ⟨d, part, hdrop, hd⟩
      case h_2 => rfl
    rw [if_neg, hnumeral]
    · exact hwhole.cut?_eq h rfl rfl
    · rintro ⟨hpoint, hd⟩
      rcases hdrop : cs.dropWhile isDigit with _ | ⟨e, _ | ⟨d, part⟩⟩
      · rw [hdrop] at hpoint
        exact absurd hpoint (by decide)
      · rw [hdrop] at hd
        exact Bool.false_ne_true hd
      · rw [hdrop] at hpoint hd
        obtain rfl : e = '.' := hpoint
        exact hfraction ⟨d, part, hdrop, hd⟩

omit h hr in
/-- Each symbol starts with one that is spelled with one character. -/
theorem symbol_eq_stray (hnone : Symbol.single? ch = none) : Segment.symbol ch cs = .stray ch := by
  have hno (s : Symbol) : s.spelling ≠ [ch] := fun hs => by
    rw [Symbol.single?_eq_some_iff.mpr hs] at hnone
    cases hnone
  rcases Segment.symbol_cases ch cs with ⟨s, hs, -⟩ | ⟨s, hs, -⟩ | ⟨-, heq⟩
  · obtain ⟨t, ht⟩ := Symbol.exists_single hs
    exact absurd ht (hno t)
  · exact absurd hs (hno s)
  · exact heq

/-- The longer of two symbols is read if an equals sign follows. -/
theorem cut?_symbol {alone : Symbol} (halone : Symbol.single? ch = some alone) :
    (match Symbol.withEqual? ch with
      | some long =>
        c.cut? (c.advance.accept '=').2
          (.lexeme (.symbol (if (c.advance.accept '=').1 then long else alone)))
      | none => c.cut? c.advance (.lexeme (.symbol alone))) =
        some (Segment.symbol ch cs, c.advanceBy (Segment.symbol ch cs).text.length) := by
  have hadvance := passes_advance h hr
  have hrest := rest_advance_of_cons hr
  simp only [Segment.symbol, halone]
  cases hlong : Symbol.withEqual? ch with
  | none =>
    simp only [ite_self]
    exact hadvance.cut?_eq h rfl rfl
  | some long =>
    simp only [accept, hrest]
    cases cs with
    | nil => exact hadvance.cut?_eq h rfl rfl
    | cons d cs =>
      by_cases hd : d = '='
      · subst hd
        exact (hadvance.trans (passes_advance hadvance.place hrest)).cut?_eq h rfl rfl
      · simp only [if_neg hd, List.head?_cons, Option.some.injEq]
        exact hadvance.cut?_eq h rfl rfl

/-- The segment read is the first one of what lies ahead, and the cursor
is right behind it. -/
theorem readSegment?_eq :
    c.readSegment? =
      some (Segment.first ch cs, c.advanceBy (Segment.first ch cs).text.length) := by
  have hend : ¬ c.isAtEnd = true := by rw [isAtEnd, hr]; exact Bool.false_ne_true
  have hadvance := passes_advance h hr
  have hpeek : c.peek 1 = cs.head?.getD '\x00' := by
    rw [peek_of_at h, hr, List.head?_eq_getElem?]
    rfl
  simp only [readSegment?, current_of_cons h hr, if_neg hend, hpeek]
  by_cases hspace : isSpace ch = true
  case pos =>
    rw [if_pos hspace, Segment.first_of_isSpace cs hspace]
    exact hadvance.cut?_eq h rfl rfl
  rw [if_neg hspace]
  have hspace : isSpace ch = false := Bool.eq_false_iff.mpr hspace
  by_cases hslashes : ch = '/' ∧ cs.head? = some '/'
  case pos =>
    obtain ⟨rfl, hcs⟩ := hslashes
    obtain ⟨cs, rfl⟩ := List.head?_eq_some_iff.mp hcs
    have hline := passes_skipWhile h (· ≠ '\n')
    rw [hr] at hline
    rw [if_pos ⟨rfl, rfl⟩, Segment.first_slashes]
    exact hline.cut?_eq h rfl rfl
  have hslashes' : ¬(ch = '/' ∧ cs.head?.getD '\x00' = '/') := by
    rintro ⟨rfl, hcs⟩
    cases cs with
    | nil => exact absurd hcs (by decide)
    | cons d cs => exact hslashes ⟨rfl, congrArg some hcs⟩
  rw [if_neg hslashes']
  cases halone : Symbol.single? ch with
  | some alone =>
      obtain ⟨-, hquote, hdigit, hword⟩ :=
        Symbol.head_spelling (Symbol.single?_eq_some_iff.mp halone)
      rw [Segment.first_of_other hspace hslashes hquote hdigit hword, ← cut?_symbol h hr halone]
      cases Symbol.withEqual? ch <;> rfl
  | none =>
      by_cases hquote : ch = '"'
      case pos =>
        subst hquote
        rw [Segment.first_quote, ← cut?_string h hr rfl]
        rfl
      show (if ch = '"' then _ else if isDigit ch = true then _ else _) = _
      rw [if_neg hquote]
      cases hdigit : isDigit ch with
      | true =>
          rw [if_pos rfl, Segment.first_of_isDigit cs hdigit]
          exact cut?_number h hr hdigit
      | false =>
          rw [if_neg Bool.false_ne_true]
          cases hword : isWordStart ch with
          | true =>
              have hrun := passes_skipWhile h isWordPart
              have hpart : isWordPart ch = true := by rw [isWordPart, hword]; rfl
              rw [hr, List.takeWhile_cons_of_pos hpart] at hrun
              rw [if_pos rfl, Segment.first_of_isWordStart cs hword]
              exact hrun.cut?_eq h rfl rfl
          | false =>
              rw [if_neg Bool.false_ne_true,
                Segment.first_of_other hspace hslashes hquote hdigit hword, symbol_eq_stray halone]
              exact hadvance.cut?_eq h rfl rfl

end Ahead

theorem readSegment?_of_isAtEnd {c : Cursor} (h : c.isAtEnd = true) : c.readSegment? = none := by
  simp only [readSegment?, if_pos h]

end Cursor

namespace Scanner

/-- What is pulled at a segment that was read as the current lexeme. -/
def pullAt (s : Scanner) : Segment → Pull
  | .space _ | .comment _ => s.nextToken
  | .lexeme kind text =>
    { token := Token.ofLexeme kind text s.start.line, reported := [], scanner := s }
  | .openString _ =>
    { s.nextToken with
      reported := s.diagnostic .unterminatedString openStringMessage :: s.nextToken.reported }
  | .stray c =>
    { s.nextToken with
      reported := s.diagnostic .unexpectedChar (strayMessage c) :: s.nextToken.reported }

/-- A pull reads one segment after the other up to the first lexeme. -/
theorem nextToken_eq_read {s : Scanner} {before : List Char} (h : s.cursor.At before) :
    s.nextToken =
      match s.cursor.readSegment? with
      | none =>
        { token := Token.eof s.cursor.position.line
          reported := []
          scanner := { s with start := s.cursor.position } }
      | some (segment, cursor) =>
        { s with start := s.cursor.position, cursor : Scanner }.pullAt segment := by
  cases hr : s.cursor.rest with
  | nil =>
      have hend : s.cursor.isAtEnd = true := by rw [Cursor.isAtEnd, hr]; rfl
      rw [Cursor.readSegment?_of_isAtEnd hend, nextToken]
      split
      case h_1 => rfl
      case h_2 hcons => cases hr.symm.trans hcons
  | cons ch cs =>
      rw [Cursor.readSegment?_eq h hr, nextToken]
      split
      case h_1 hnil => cases hr.symm.trans hnil
      case h_2 ch' cs' hcons =>
        obtain ⟨rfl, rfl⟩ := List.cons.inj (hr.symm.trans hcons)
        show _ = (s.enter (Segment.first ch cs).text).pullAt (Segment.first ch cs)
        dsimp only
        split <;> (rename_i heq; rw [heq]; rfl)

end Scanner

end LoxScan
