import LoxScan.Scan.Scanner
import LoxScan.Proofs.Scan.Segmentation
import LoxScan.Proofs.Source.Reading

/-!
# What a pull does

`Scanner.Pulled` says everything one pull can do: it passes segments that
make no token, gives their diagnostics in order, and stops behind the
first lexeme or at the end. `pulled_nextToken` is the inversion lemma;
what follows about scanners is derived from it, and none of it opens
`nextToken` again.

A place in a source is named by the text before it, and
`Scanner.behind` is the scanner that has read one more lexeme.
-/

namespace LoxScan

namespace Scanner

open Segment (textOf)

/-- The scanner with `text` as its current lexeme, read behind `before`
and with `after` ahead. -/
def behind (s : Scanner) (before text after : List Char) : Scanner :=
  { s with
    start := Position.after before
    cursor :=
      { s.cursor with rest := after, position := Position.after (before ++ text) } }

variable {s : Scanner} {before : List Char}

theorem enter_eq_behind (h : s.cursor.At before) {text after : List Char}
    (hr : s.cursor.rest = text ++ after) : s.enter text = s.behind before text after := by
  rw [enter, behind, Cursor.advanceBy_of_append hr, h.position, ← Position.after_append]

theorem at_behind {text after : List Char}
    (h : s.cursor.source.toList = before ++ text ++ after) :
    (s.behind before text after).cursor.At (before ++ text) :=
  ⟨h, rfl⟩

/-- What one pull from behind `before` gives. -/
inductive Pulled (s : Scanner) (before : List Char) : Pull → Prop
  /-- A lexeme, behind segments that are none. -/
  | lexeme {skipped : List Segment} {kind : Kind} {text after : List Char} :
      Segmented s.cursor.rest (skipped ++ [.lexeme kind text]) after →
      (∀ g ∈ skipped, g.isLexeme = false) →
      Pulled s before
        { token :=
            Token.ofLexeme kind text
              (UInt32.ofNat (Text.lineAfter (before ++ textOf skipped)))
          reported := Segment.diagnostics before skipped
          scanner := s.behind (before ++ textOf skipped) text after }
  /-- The end mark, where no lexeme is left. -/
  | atEnd {skipped : List Segment} :
      Segmented s.cursor.rest skipped [] →
      (∀ g ∈ skipped, g.isLexeme = false) →
      Pulled s before
        { token := Token.eof (UInt32.ofNat (Text.lineAfter (before ++ textOf skipped)))
          reported := Segment.diagnostics before skipped
          scanner := s.behind (before ++ textOf skipped) [] [] }

/-- One more segment to pass puts its diagnostic in front. -/
theorem Pulled.skip {g : Segment} {after : List Char} {p : Pull}
    (hr : s.cursor.rest = g.text ++ after) (hg : g.IsNext (g.text ++ after))
    (hl : g.isLexeme = false)
    (h : Pulled (s.behind before g.text after) (before ++ g.text) p) :
    Pulled s before
      { p with reported := (g.diagnostic? before).toList ++ p.reported } := by
  have hmem : ∀ {skipped : List Segment}, (∀ g ∈ skipped, g.isLexeme = false) →
      ∀ g' ∈ g :: skipped, g'.isLexeme = false := by
    intro skipped hs g' hg'
    rcases List.mem_cons.mp hg' with rfl | hg'
    · exact hl
    · exact hs g' hg'
  cases h with
  | @lexeme skipped kind text after' hseg hs =>
      have hcut :
          Segmented s.cursor.rest ((g :: skipped) ++ [.lexeme kind text]) after' := by
        rw [hr]
        exact .cut hg hseg
      have hp : Pulled s before _ := .lexeme hcut (hmem hs)
      simpa [behind, Segment.diagnostics, Segment.yields, List.append_assoc] using hp
  | @atEnd skipped hseg hs =>
      have hcut : Segmented s.cursor.rest (g :: skipped) [] := by
        rw [hr]
        exact .cut hg hseg
      have hp : Pulled s before _ := .atEnd hcut (hmem hs)
      simpa [behind, Segment.diagnostics, Segment.yields, List.append_assoc] using hp

/-- At the end every pull gives the end mark, and stays there. -/
theorem nextToken_of_nil (hat : s.cursor.At before) (h : s.cursor.rest = []) :
    s.nextToken =
      { token := Token.eof (UInt32.ofNat (Text.lineAfter before))
        reported := []
        scanner := s.behind before [] [] } := by
  rw [nextToken]
  split
  · have hline : s.cursor.position.line = UInt32.ofNat (Text.lineAfter before) := by
      rw [hat.position]
      rfl
    rw [behind, List.append_nil, ← hat.position, ← h, hline]
  · rename_i hc
    rw [h] at hc
    cases hc

theorem strayMessage_eq (c : Char) :
    strayMessage c = "Unexpected character: '" ++ String.singleton c ++ "'." := by
  refine String.toList_injective ?_
  unfold strayMessage
  simp only [String.toList_ofList, String.toList_append, String.toList_singleton,
    List.append_assoc, List.singleton_append]

/-- A lexeme ahead is the token. -/
theorem nextToken_of_lexeme {c : Char} {cs : List Char} (h : s.cursor.rest = c :: cs)
    {kind : Kind} {text : List Char} (hg : Segment.first c cs = .lexeme kind text) :
    s.nextToken =
      { token := Token.ofLexeme kind text (s.enter text).start.line
        reported := []
        scanner := s.enter text } := by
  rw [nextToken]
  split
  · rename_i hc
    rw [h] at hc
    cases hc
  · rename_i c' cs' hc
    obtain ⟨rfl, rfl⟩ : c = c' ∧ cs = cs' := by simpa [h] using hc
    dsimp only
    split <;> rename_i heq <;> rw [hg] at heq <;> cases heq
    rw [hg]
    rfl

/-- Any other segment ahead is passed, with its diagnostic if it has one. -/
theorem nextToken_of_skip (hat : s.cursor.At before) {c : Char} {cs after : List Char}
    (h : s.cursor.rest = c :: cs) {g : Segment} (hg : Segment.first c cs = g)
    (hl : g.isLexeme = false) (hr : s.cursor.rest = g.text ++ after) :
    s.nextToken =
      { (s.behind before g.text after).nextToken with
        reported := (g.diagnostic? before).toList
          ++ (s.behind before g.text after).nextToken.reported } := by
  subst hg
  rw [nextToken]
  split
  · rename_i hc
    rw [h] at hc
    cases hc
  · rename_i c' cs' hc
    obtain ⟨rfl, rfl⟩ : c = c' ∧ cs = cs' := by simpa [h] using hc
    dsimp only
    rw [enter_eq_behind hat hr]
    split <;> rename_i heq
    · rw [heq]
      rfl
    · rw [heq]
      rfl
    · rw [heq] at hl
      cases hl
    · rw [heq]
      rfl
    · rw [heq, strayMessage_eq]
      rfl

/-- Everything a pull can do. -/
theorem pulled_nextToken (s : Scanner) {before : List Char} (hat : s.cursor.At before) :
    Pulled s before s.nextToken := by
  cases hr : s.cursor.rest with
  | nil =>
      have hseg : Segmented s.cursor.rest [] [] := by
        rw [hr]
        exact .done []
      have hp : Pulled s before _ := .atEnd hseg (by simp)
      rw [nextToken_of_nil hat hr]
      simp only [Segment.textOf_nil, List.append_nil] at hp
      exact hp
  | cons c cs =>
      obtain ⟨after, hcs, hform, hend⟩ := Segment.cuts_first c cs
      have hnext := Segment.isNext_append_iff.mpr ⟨hform, hend⟩
      have hcut : s.cursor.rest = (Segment.first c cs).text ++ after := hr.trans hcs
      cases hl : (Segment.first c cs).isLexeme with
      | true =>
          cases hg : Segment.first c cs with
          | lexeme kind text =>
              rw [hg] at hnext
              have hcut : s.cursor.rest = text ++ after := by rw [hcut, hg]; rfl
              have hseg :
                  Segmented s.cursor.rest ([] ++ [.lexeme kind text]) after := by
                rw [hcut]
                exact .cut hnext (.done after)
              have hp : Pulled s before _ := .lexeme hseg (by simp)
              rw [nextToken_of_lexeme hr hg, enter_eq_behind hat hcut]
              simp only [Segment.textOf_nil, List.append_nil] at hp
              exact hp
          | _ => rw [hg] at hl; cases hl
      | false =>
          rw [nextToken_of_skip hat hr rfl hl hcut]
          refine Pulled.skip hcut hnext hl (pulled_nextToken _ (at_behind ?_))
          rw [hat.source, hcut, List.append_assoc]
termination_by s.cursor.rest.length
decreasing_by
  have := Segment.length_text_first_pos c cs
  rw [hcut, List.length_append]
  simp only [behind]
  omega

/-- What is passed over before a lexeme ends with the lexeme. -/
theorem takeWhile_skipped {skipped : List Segment} (hs : ∀ g ∈ skipped, g.isLexeme = false)
    (kind : Kind) (text : List Char) (left : List Segment) :
    (skipped ++ .lexeme kind text :: left).takeWhile (!·.isLexeme) = skipped := by
  rw [List.takeWhile_append_of_pos fun g hg => by rw [hs g hg]; rfl,
    List.takeWhile_cons_of_neg (by simp [Segment.isLexeme]), List.append_nil]

theorem Pulled.unique {p q : Pull} (h : Pulled s before p) (h' : Pulled s before q) :
    p = q := by
  -- both are read off the one segmentation of the text ahead
  cases h with
  | @lexeme skipped kind text after hcut hs =>
      obtain ⟨left, hleft⟩ := exists_segmented after
      cases h' with
      | @lexeme skipped' kind' text' after' hcut' hs' =>
          obtain ⟨left', hleft'⟩ := exists_segmented after'
          have heq := segmented_unique (hcut.append hleft) (hcut'.append hleft')
          rw [List.append_assoc, List.append_assoc] at heq
          obtain rfl : skipped = skipped' := by
            rw [← takeWhile_skipped hs kind text left, ← takeWhile_skipped hs' kind' text' left']
            exact congrArg _ heq
          obtain ⟨rfl, rfl⟩ : kind = kind' ∧ text = text' := by
            simpa using (List.cons.inj (List.append_cancel_left heq)).1
          obtain rfl : after = after' :=
            List.append_cancel_left (hcut.eq_append.symm.trans hcut'.eq_append)
          rfl
      | @atEnd skipped' hcut' hs' =>
          have heq := segmented_unique (hcut.append hleft) hcut'
          have hmem : Segment.lexeme kind text ∈ skipped' := by simp [← heq]
          exact absurd (hs' _ hmem) (by simp [Segment.isLexeme])
  | @atEnd skipped hcut hs =>
      cases h' with
      | @lexeme skipped' kind text after hcut' hs' =>
          obtain ⟨left, hleft⟩ := exists_segmented after
          have heq := segmented_unique (hcut'.append hleft) hcut
          have hmem : Segment.lexeme kind text ∈ skipped := by simp [← heq]
          exact absurd (hs _ hmem) (by simp [Segment.isLexeme])
      | @atEnd skipped' hcut' hs' =>
          obtain rfl := segmented_unique hcut hcut'
          rfl

/-- Whether the iterator is done is no matter of a pull. -/
theorem finished_nextToken (hat : s.cursor.At before) :
    s.nextToken.scanner.finished = s.finished := by
  have hp := pulled_nextToken s hat
  generalize s.nextToken = p at hp ⊢
  cases hp with
  | lexeme hseg hs => rfl
  | atEnd hseg hs => rfl

end Scanner

end LoxScan
