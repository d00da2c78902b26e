import LoxScan.Proofs.Scan.Pull

/-!
# What a scan gives

Pulling to the end reads a segmentation off from left to right
(`take_of_segmented`, by induction on the number of pulls allowed: each
takes the segments up to the next lexeme, and the uniqueness of the
segmentation says that these are its first ones). A scan is that from the
start of the source, so `scan_eq_segments` pins it to the grammar.
-/

namespace LoxScan

open Segment (textOf)

namespace Segment

theorem tokens_append (before : List Char) (gs hs : List Segment) :
    tokens before (gs ++ hs) = tokens before gs ++ tokens (before ++ textOf gs) hs :=
  yields_append token? before gs hs

theorem diagnostics_append (before : List Char) (gs hs : List Segment) :
    diagnostics before (gs ++ hs)
      = diagnostics before gs ++ diagnostics (before ++ textOf gs) hs :=
  yields_append diagnostic? before gs hs

theorem tokens_of_skipped {gs : List Segment} (h : ∀ g ∈ gs, g.isLexeme = false)
    (before : List Char) : tokens before gs = [] := by
  refine yields_eq_nil ?_ before
  intro g hg before
  have := h g hg
  cases g with
  | lexeme => cases this
  | _ => rfl

theorem tokens_lexeme (before : List Char) (kind : Kind) (text : List Char) :
    tokens before [.lexeme kind text]
      = [Token.ofLexeme kind text (UInt32.ofNat (Text.lineAfter before))] := rfl

theorem diagnostics_lexeme (before : List Char) (kind : Kind) (text : List Char) :
    diagnostics before [.lexeme kind text] = [] := rfl

theorem kind_ne_eof {kind : Kind} {text : List Char} (h : (lexeme kind text).WellFormed) :
    kind ≠ .eof := by
  rintro rfl
  obtain ⟨value, h⟩ := h
  cases h

/-- The tokens of segments are entries of the grammar. -/
theorem isLexeme_of_mem_tokens {gs : List Segment} (h : ∀ g ∈ gs, g.WellFormed)
    {before : List Char} {t : Token} (ht : t ∈ tokens before gs) :
    IsLexeme t.kind t.lexeme.toList t.literal := by
  induction gs generalizing before with
  | nil => cases ht
  | cons g gs ih =>
      have ht : t ∈ (g.token? before).toList ++ tokens (before ++ g.text) gs := ht
      rcases List.mem_append.mp ht with ht | ht
      · have hg := h g (List.mem_cons_self ..)
        cases g with
        | lexeme kind text =>
            obtain ⟨value, hg⟩ := hg
            obtain rfl :
                t = Token.ofLexeme kind text (UInt32.ofNat (Text.lineAfter before)) := by
              simpa [token?, Token.ofLexeme] using ht
            rw [literal_of_isLexeme hg] at hg
            simpa [Token.ofLexeme] using hg
        | _ => cases ht
      · exact ih (fun g' hg' => h g' (List.mem_cons_of_mem _ hg')) ht

end Segment

namespace Scanner

variable {s : Scanner} {before : List Char}

def marked (s : Scanner) (finished : Bool) : Scanner := { s with finished }

@[simp] theorem marked_cursor (s : Scanner) (b : Bool) :
    (s.marked b).cursor = s.cursor := rfl

/-- What the iterator adds to a pull: it marks the end. -/
theorem next_of_unfinished (hf : s.finished = false) :
    s.next =
      some
        { s.nextToken with
          scanner := s.nextToken.scanner.marked s.nextToken.token.isEof } := by
  rw [next, hf]
  rfl

theorem next_of_finished (hf : s.finished = true) : s.next = none := by
  rw [next, hf]
  rfl

theorem take_succ_of_unfinished (hf : s.finished = false) (n : Nat) :
    s.take (n + 1) =
      { tokens :=
          s.nextToken.token
            :: ((s.nextToken.scanner.marked s.nextToken.token.isEof).take n).tokens
        reported :=
          s.nextToken.reported
            ++ ((s.nextToken.scanner.marked s.nextToken.token.isEof).take n).reported
        scanner :=
          ((s.nextToken.scanner.marked s.nextToken.token.isEof).take n).scanner } := by
  rw [take, next_of_unfinished hf]

theorem take_of_finished (hf : s.finished = true) (n : Nat) :
    s.take n = ⟨[], [], s⟩ := by
  cases n with
  | zero => rfl
  | succ n => rw [take, next_of_finished hf]

/-- A pull read off a segmentation of the text ahead: it has passed the
segments `passed`, and `left` is the segmentation of what is ahead now. -/
structure Passes (before : List Char) (gs : List Segment) (p : Pull)
    (passed left : List Segment) : Prop where
  split : gs = passed ++ left
  place : p.scanner.cursor.At (before ++ textOf passed)
  ahead : Segmented p.scanner.cursor.rest left []
  reported : p.reported = Segment.diagnostics before passed
  token :
    (p.token.isEof = false ∧ Segment.tokens before passed = [p.token])
      ∨ (p.token = Token.eof (UInt32.ofNat (Text.lineAfter (before ++ textOf passed)))
        ∧ Segment.tokens before passed = [] ∧ left = [])

/-- Every pull reads off what the segmentation begins with. -/
theorem exists_passes {gs : List Segment} (hat : s.cursor.At before)
    (hseg : Segmented s.cursor.rest gs []) :
    ∃ passed left, Passes before gs s.nextToken passed left := by
  have hp := pulled_nextToken s hat
  generalize s.nextToken = p at hp ⊢
  cases hp with
  | @lexeme skipped kind text after hcut hs =>
      obtain ⟨left, hleft⟩ := exists_segmented after
      obtain rfl := segmented_unique hseg (hcut.append hleft)
      have htext :
          textOf (skipped ++ [.lexeme kind text]) = textOf skipped ++ text := by
        simp [Segment.text]
      have hform := hcut.wellFormed (.lexeme kind text) (by simp)
      refine ⟨_, left, rfl, ?_, hleft, ?_, Or.inl ⟨?_, ?_⟩⟩
      · rw [htext, ← List.append_assoc]
        refine at_behind ?_
        rw [hat.source, hcut.eq_append, htext]
        simp only [List.append_assoc]
      · rw [Segment.diagnostics_append, Segment.diagnostics_lexeme, List.append_nil]
      · simpa [Token.isEof, Token.ofLexeme] using Segment.kind_ne_eof hform
      · rw [Segment.tokens_append, Segment.tokens_of_skipped hs, Segment.tokens_lexeme,
          List.nil_append]
  | @atEnd skipped hcut hs =>
      obtain rfl := segmented_unique hseg hcut
      refine ⟨gs, [], (List.append_nil gs).symm, ?_, .done [], rfl,
        Or.inr ⟨rfl, Segment.tokens_of_skipped hs before, rfl⟩⟩
      have h :
          (s.behind (before ++ textOf gs) [] []).cursor.At (before ++ textOf gs ++ []) := by
        refine at_behind ?_
        rw [hat.source, hcut.eq_append]
        simp only [List.append_nil]
      rwa [List.append_nil] at h

theorem Passes.length_lt {gs passed left : List Segment} {p : Pull}
    (h : Passes before gs p passed left) (hseg : Segmented s.cursor.rest gs [])
    (ht : p.token.isEof = false) : p.scanner.cursor.rest.length < s.cursor.rest.length := by
  have hrest : s.cursor.rest = textOf passed ++ p.scanner.cursor.rest := by
    rw [hseg.eq_append, h.ahead.eq_append, h.split]
    simp only [Segment.textOf_append, List.append_nil]
  have hne : passed ≠ [] := by
    rintro rfl
    rcases h.token with ⟨-, h⟩ | ⟨h, -, -⟩
    · cases h
    · rw [h] at ht
      cases ht
  obtain ⟨g, passed, rfl⟩ := List.exists_cons_of_ne_nil hne
  have hg : g.WellFormed := hseg.wellFormed g (by rw [h.split]; simp)
  have := List.length_pos_iff.mpr (Segment.ne_nil_of_wellFormed hg)
  rw [hrest, Segment.textOf_cons, List.length_append, List.length_append]
  omega

/-- Enough pulls read the whole segmentation off, and the end mark. -/
theorem take_of_segmented {n : Nat} {gs : List Segment} (hat : s.cursor.At before)
    (hf : s.finished = false) (hseg : Segmented s.cursor.rest gs [])
    (hn : s.cursor.rest.length < n) :
    (s.take n).tokens =
        Segment.tokens before gs
          ++ [Token.eof (UInt32.ofNat (Text.lineAfter (before ++ textOf gs)))]
      ∧ (s.take n).reported = Segment.diagnostics before gs
      ∧ (s.take n).scanner.cursor.At (before ++ textOf gs) := by
  induction n generalizing s before gs with
  | zero => exact absurd hn (Nat.not_lt_zero _)
  | succ n ih =>
      obtain ⟨passed, left, h⟩ := exists_passes hat hseg
      have hlt := h.length_lt hseg
      rw [take_succ_of_unfinished hf]
      generalize s.nextToken = p at h hlt ⊢
      rcases h.token with ⟨ht, htokens⟩ | ⟨ht, htokens, hleft⟩
      · obtain ⟨ih1, ih2, ih3⟩ := ih (s := p.scanner.marked false) h.place rfl h.ahead
          (by have := hlt ht; rw [marked_cursor]; omega)
        rw [h.split, Segment.tokens_append, Segment.diagnostics_append, htokens,
          Segment.textOf_append, ← List.append_assoc before, ← h.reported, ht]
        exact ⟨by rw [ih1]; rfl, by rw [ih2], ih3⟩
      · have heof : p.token.isEof = true := by rw [ht]; rfl
        rw [h.split, hleft, List.append_nil, htokens, heof, take_of_finished rfl, ht,
          h.reported]
        exact ⟨rfl, List.append_nil _, h.place⟩

end Scanner

/-- A scan, read off the segmentation of its source. -/
theorem scan_of_segmented {source : String} {gs : List Segment}
    (hseg : Segmented source.toList gs []) :
    (scan source).tokens =
        Segment.tokens [] gs
          ++ [Token.eof (UInt32.ofNat (Text.lineAfter source.toList))]
      ∧ (scan source).diagnostics = Segment.diagnostics [] gs := by
  obtain ⟨htokens, hreported, -⟩ := Scanner.take_of_segmented (s := .ofSource source)
    (Cursor.at_ofSource source) rfl hseg (Nat.lt_succ_self _)
  rw [List.nil_append, hseg.textOf_eq] at htokens
  exact ⟨htokens, hreported⟩

/-- The lexical specification. A source has one segmentation by the
grammar, and its texts make up the source; the tokens of the scan are its
lexemes in order and the end mark, each with its kind, text, value and
line, and the diagnostics are its errors in order, and nothing else. -/
theorem scan_eq_segments (source : String) :
    ∃ gs, Segmented source.toList gs []
      ∧ (∀ hs, Segmented source.toList hs [] → hs = gs)
      ∧ textOf gs = source.toList
      ∧ (scan source).tokens =
          Segment.tokens [] gs
            ++ [Token.eof (UInt32.ofNat (Text.lineAfter source.toList))]
      ∧ (∀ t ∈ Segment.tokens [] gs, IsLexeme t.kind t.lexeme.toList t.literal)
      ∧ (scan source).diagnostics = Segment.diagnostics [] gs := by
  obtain ⟨gs, hseg⟩ := exists_segmented source.toList
  obtain ⟨htokens, hdiagnostics⟩ := scan_of_segmented hseg
  refine ⟨gs, hseg, fun hs h => segmented_unique h hseg, hseg.textOf_eq, htokens, ?_,
    hdiagnostics⟩
  intro t ht
  exact Segment.isLexeme_of_mem_tokens hseg.wellFormed ht

end LoxScan
