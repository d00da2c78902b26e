import LoxScan.Proofs.Scan.Behind
import LoxScan.Proofs.Scan.Calls
import LoxScan.Proofs.Text.Bytes

/-!
# Two characters of look-ahead

What a scanner has done so far is settled by what it has read and the two
characters ahead of it. `Nearsighted` says so of anything that can be
asked of a scanner: with another text ahead that starts with the same two
characters, the same happens, and the scanner stops at the same place.

A pull is nearsighted because each of its segments is
(`Segmented.onto`): behind a segment that is not the last one the two
characters it sees may reach into the other text, but never past the two
that are known there. Doing one thing after the other is nearsighted if
both are (`Nearsighted.andThen`), hence so is every run.

> `run_eq_of_sameUpTo`: sources that are the same up to two characters
> behind the place where a run stops have the same run.
-/

namespace LoxScan

open Segment (textOf)

theorem take_two_append (text : List Char) {rest rest' : List Char}
    (h : rest.take 2 = rest'.take 2) : (text ++ rest).take 2 = (text ++ rest').take 2 := by
  have hless := congrArg (List.take (2 - text.length)) h
  rw [List.take_take, List.take_take, Nat.min_eq_left (Nat.sub_le ..)] at hless
  rw [List.take_append, List.take_append, hless]

/-- The same segments, with another text behind them. -/
theorem Segmented.onto {cs rest rest' : List Char} {gs : List Segment}
    (h : Segmented cs gs rest) (ht : rest.take 2 = rest'.take 2) :
    Segmented (textOf gs ++ rest') gs rest' := by
  induction gs generalizing cs with
  | nil => exact .done rest'
  | cons g gs ih =>
      obtain ⟨after, rfl, hform, hends, hgs⟩ := h.of_cons
      have hahead : after.take 2 = (textOf gs ++ rest').take 2 := by
        rw [hgs.eq_append]
        exact take_two_append (textOf gs) ht
      rw [Segment.textOf_cons, List.append_assoc]
      exact .cons hform (Segment.ends_of_take hahead hends) (ih hgs)

namespace Scanner

/-- The scanner with another source, of which `rest` is ahead. -/
def onto (s : Scanner) (source : String) (rest : List Char) : Scanner :=
  { s with cursor := { s.cursor with source, rest } }

@[simp] theorem finished_onto (s : Scanner) (source : String) (rest : List Char) :
    (s.onto source rest).finished = s.finished := rfl

theorem at_onto {s : Scanner} {before : List Char} (h : s.cursor.At before) {source : String}
    {rest : List Char} (hsource : source.toList = before ++ rest) :
    (s.onto source rest).cursor.At before :=
  ⟨hsource, h.position⟩

theorem Pulled.onto {s : Scanner} {before between : List Char} {p : Pull}
    (h : Pulled s before p) (hrest : s.cursor.rest = between ++ p.scanner.cursor.rest)
    {rest' : List Char} (ht : p.scanner.cursor.rest.take 2 = rest'.take 2) (source : String) :
    Pulled (s.onto source (between ++ rest')) before
      { p with scanner := p.scanner.onto source rest' } := by
  cases h with
  | @lexeme skipped kind text after hcut hs =>
      have hbetween : between = textOf (skipped ++ [.lexeme kind text]) :=
        List.append_cancel_right (hrest.symm.trans hcut.eq_append)
      rw [hbetween]
      exact .lexeme (hcut.onto ht) hs
  | @atEnd skipped hcut hs =>
      obtain rfl : rest' = [] := List.take_eq_nil_iff.mp ht.symm |>.resolve_left (by decide)
      have hbetween : between = textOf skipped :=
        List.append_cancel_right (hrest.symm.trans hcut.eq_append)
      rw [hbetween]
      exact .atEnd (hcut.onto ht) hs

/-- A pull reads the text `between`, and gives the same where the two
characters behind it are the same. -/
theorem exists_nextToken_onto {s : Scanner} {before : List Char} (hat : s.cursor.At before) :
    ∃ between, s.cursor.rest = between ++ s.nextToken.scanner.cursor.rest
      ∧ s.nextToken.scanner.cursor.At (before ++ between)
      ∧ ∀ {source rest'}, source.toList = before ++ between ++ rest' →
        s.nextToken.scanner.cursor.rest.take 2 = rest'.take 2 →
        (s.onto source (between ++ rest')).nextToken =
          { s.nextToken with scanner := s.nextToken.scanner.onto source rest' } := by
  obtain ⟨gs, hseg⟩ := exists_segmented s.cursor.rest
  obtain ⟨passed, left, h⟩ := exists_passes hat hseg
  have hrest : s.cursor.rest = textOf passed ++ s.nextToken.scanner.cursor.rest := by
    rw [hseg.eq_append, h.ahead.eq_append, h.split, Segment.textOf_append, List.append_nil,
      List.append_nil]
  refine ⟨textOf passed, hrest, h.place, ?_⟩
  intro source rest' hsource ht
  have hother := at_onto hat (hsource.trans (List.append_assoc ..))
  exact (pulled_nextToken _ hother).unique ((pulled_nextToken s hat).onto hrest ht source)

end Scanner

/-! ## What can be asked -/

/-- `f` reads the text `between`. It does the same wherever that text
stands, as long as the two characters behind it are the same. -/
structure Near (f : Scanner → Run) (s : Scanner) (before between : List Char) : Prop where
  rest : s.cursor.rest = between ++ (f s).scanner.cursor.rest
  place : (f s).scanner.cursor.At (before ++ between)
  same : ∀ {source rest'}, source.toList = before ++ between ++ rest' →
    (f s).scanner.cursor.rest.take 2 = rest'.take 2 →
    f (s.onto source (between ++ rest')) =
      { events := (f s).events, scanner := (f s).scanner.onto source rest' }

def Nearsighted (f : Scanner → Run) : Prop :=
  ∀ {s before}, s.cursor.At before → ∃ between, Near f s before between

namespace Nearsighted

variable {f g : Scanner → Run}

theorem andThen (hf : Nearsighted f) (hg : Nearsighted g) :
    Nearsighted fun s => (f s).andThen g := by
  intro s before hat
  obtain ⟨first, hfirst⟩ := hf hat
  obtain ⟨second, hsecond⟩ := hg hfirst.place
  refine ⟨first ++ second, ?_, ?_, ?_⟩
  · rw [hfirst.rest, hsecond.rest, List.append_assoc]
    rfl
  · rw [← List.append_assoc]
    exact hsecond.place
  · intro source rest' hsource ht
    rw [← List.append_assoc] at hsource
    have hahead : (f s).scanner.cursor.rest.take 2 = (second ++ rest').take 2 := by
      rw [hsecond.rest]
      exact take_two_append second ht
    have hf := hfirst.same (hsource.trans (List.append_assoc ..)) hahead
    have hg := hsecond.same hsource ht
    rw [List.append_assoc first]
    simp only [Run.andThen, hf, hg]

/-- What does not read leaves the scanner as it is. -/
theorem of_stay {es : Scanner → List Event} (h : ∀ s source rest, es (s.onto source rest) = es s) :
    Nearsighted fun s => { events := es s, scanner := s } := by
  intro s before hat
  refine ⟨[], rfl, ?_, ?_⟩
  · rwa [List.append_nil]
  · intro source rest' _ _
    rw [List.nil_append, h]

theorem nextToken (answer : Token → Event) :
    Nearsighted fun s => s.nextToken.run answer := by
  intro s before hat
  obtain ⟨between, hrest, hplace, hsame⟩ := Scanner.exists_nextToken_onto hat
  refine ⟨between, hrest, hplace, ?_⟩
  intro source rest' hsource ht
  rw [hsame hsource ht]
  rfl

/-- Whether the iterator is done may be asked first. -/
theorem of_finished {f : Scanner → Run}
    (h : ∀ b, ∃ g, Nearsighted g ∧ ∀ s : Scanner, s.finished = b → f s = g s) :
    Nearsighted f := by
  intro s before hat
  obtain ⟨g, hg, heq⟩ := h s.finished
  obtain ⟨between, hnear⟩ := hg hat
  have hs := heq s rfl
  refine ⟨between, ?_, ?_, ?_⟩
  · rw [hs]
    exact hnear.rest
  · rw [hs]
    exact hnear.place
  · intro source rest' hsource ht
    rw [hs] at ht ⊢
    rw [heq _ (s.finished_onto ..)]
    exact hnear.same hsource ht

theorem iterate : Nearsighted Scanner.iterate := by
  refine of_finished fun b => ?_
  cases b with
  | true => exact ⟨_, of_stay fun _ _ _ => rfl, fun s => Scanner.iterate_of_finished⟩
  | false =>
      refine ⟨_, ?_, fun s => Scanner.iterate_of_unfinished⟩
      intro s before hat
      obtain ⟨between, hrest, hplace, hsame⟩ := Scanner.exists_nextToken_onto hat
      refine ⟨between, hrest, ⟨hplace.source, hplace.position⟩, ?_⟩
      intro source rest' hsource ht
      rw [hsame hsource ht]
      rfl

theorem iterateTimes (n : Nat) : Nearsighted (Scanner.iterateTimes n) := by
  induction n with
  | zero => exact of_stay fun _ _ _ => rfl
  | succ n ih =>
      refine of_finished fun b => ?_
      cases b with
      | true => exact ⟨_, iterate, fun s hf => Scanner.iterateTimes_of_finished hf n⟩
      | false =>
          exact ⟨_, iterate.andThen ih, fun s hf => Scanner.iterateTimes_of_unfinished hf n⟩

theorem perform (c : Call) : Nearsighted (Scanner.perform · c) := by
  cases c with
  | nextToken => exact nextToken .pulled
  | next => exact iterate
  | take n => exact iterateTimes n
  | reportError code message => exact of_stay fun _ _ _ => rfl

theorem run (calls : List Call) : Nearsighted (Scanner.run calls) := by
  induction calls with
  | nil => exact of_stay fun _ _ _ => rfl
  | cons c calls ih => exact andThen (perform c) ih

end Nearsighted

/-! ## Sources -/

/-- The sources have the same first `n` bytes, and behind them the same
two characters, or end there alike. -/
structure SameUpTo (n : Nat) (source other : String) : Prop where
  bytes : source.toUTF8.extract 0 n = other.toUTF8.extract 0 n
  ahead : ∀ i < 2, (Text.dropBytes? n source.toList).bind (·[i]?)
    = (Text.dropBytes? n other.toList).bind (·[i]?)

theorem SameUpTo.exists_rest {before rest : List Char} {source other : String}
    (hsource : source.toList = before ++ rest)
    (h : SameUpTo (Text.byteLength before) source other) :
    ∃ rest', other.toList = before ++ rest' ∧ rest.take 2 = rest'.take 2 := by
  obtain ⟨rest', hother⟩ := Text.prefix_of_extract hsource h.bytes.symm
  have hahead := h.ahead
  rw [hsource, ← hother, Text.dropBytes?_byteLength_append, Text.dropBytes?_byteLength_append]
    at hahead
  refine ⟨rest', hother.symm, List.ext_getElem? fun i => ?_⟩
  rw [List.getElem?_take, List.getElem?_take]
  split
  · rename_i hi
    exact hahead i hi
  · rfl

/-- Whatever is asked of two scanners over sources that are the same up to
two characters behind the place where the first one stops, the same
happens, and both stop at the same place. -/
theorem run_eq_of_sameUpTo (source other : String) (calls : List Call)
    (h : SameUpTo (Scanner.run calls (.ofSource source)).scanner.cursor.position.offset
      source other) :
    (Scanner.run calls (.ofSource other)).events
        = (Scanner.run calls (.ofSource source)).events
      ∧ (Scanner.run calls (.ofSource other)).scanner.cursor.position
        = (Scanner.run calls (.ofSource source)).scanner.cursor.position
      ∧ (Scanner.run calls (.ofSource other)).scanner.start
        = (Scanner.run calls (.ofSource source)).scanner.start := by
  have hat : (Scanner.ofSource source).cursor.At [] := Cursor.at_ofSource source
  obtain ⟨between, hnear⟩ := Nearsighted.run calls hat
  have hsource : source.toList = between ++ _ := hnear.rest
  have hposition := hnear.place.position
  rw [List.nil_append] at hposition
  rw [hposition] at h
  obtain ⟨rest', hother, ht⟩ := h.exists_rest hsource
  have hsame := hnear.same hother ht
  have htwin : (Scanner.ofSource source).onto other (between ++ rest') = .ofSource other := by
    rw [← hother]
    rfl
  rw [htwin] at hsame
  rw [hsame]
  exact ⟨rfl, rfl, rfl⟩

/-- A point behind a number is seen with what follows it, and nothing
else. -/
theorem run_eq_of_sameUpTo_point :
    SameUpTo (Scanner.run [.nextToken] (.ofSource "1.x;")).scanner.cursor.position.offset
        "1.x;" "1.x\"é"
      ∧ (Scanner.run [.nextToken] (.ofSource "1.x\"é")).events
        = (Scanner.run [.nextToken] (.ofSource "1.x;")).events
      ∧ (obtained (Scanner.run [.nextToken] (.ofSource "1.x\"é")).events).map
        (fun t => (t.kind, t.lexeme)) = [(.number, "1")] := by
  have hsame : SameUpTo (Scanner.run [.nextToken] (.ofSource "1.x;")).scanner.cursor.position.offset
      "1.x;" "1.x\"é" := by
    have hrest : (Scanner.ofSource "1.x;").cursor.rest = '1' :: ['.', 'x', ';'] := by decide
    have hfirst : Segment.first '1' ['.', 'x', ';'] = .lexeme .number ['1'] := by decide
    have hstop : (Scanner.ofSource "1.x;").nextToken.scanner.cursor.position.offset = 1 := by
      rw [Scanner.nextToken_of_lexeme hrest hfirst]
      decide
    show SameUpTo (Scanner.ofSource "1.x;").nextToken.scanner.cursor.position.offset _ _
    rw [hstop]
    exact ⟨by decide, by decide⟩
  exact ⟨hsame, (run_eq_of_sameUpTo _ _ _ hsame).1, by decide +kernel⟩

end LoxScan
