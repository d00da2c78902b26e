import LoxScan.Proofs.Scan.Behind
import LoxScan.Proofs.Scan.Whole

/-!
# Lexemes with gaps

Any lexemes can be printed one behind the other, in any order, if there is
a gap behind each: a white space character, and behind it as much white
space and as many comments as one likes. The white space ends the lexeme
whatever it is (`Segment.ends_of_isSpace`), and a gap yields nothing, so
the printed text scans back to its lexemes.

> `scan_printed`: one token for each lexeme and no diagnostics.
-/

namespace LoxScan

open Segment (textOf)

/-! ## Gaps -/

/-- White space, and comments closed by a line feed. -/
inductive IsFiller : List Char → Prop
  | none : IsFiller []
  | blank {c : Char} {cs : List Char} :
      isSpace c = true → IsFiller cs → IsFiller (c :: cs)
  | comment {line cs : List Char} :
      '\n' ∉ line → IsFiller cs → IsFiller ('/' :: '/' :: (line ++ '\n' :: cs))

def Segment.isTrivia : Segment → Bool
  | .space _ | .comment _ => true
  | _ => false

theorem tokens_of_isTrivia {gs : List Segment} (h : ∀ g ∈ gs, g.isTrivia = true)
    (before : List Char) : Segment.tokens before gs = [] := by
  refine Segment.yields_eq_nil ?_ before
  intro g hg before
  have := h g hg
  cases g with
  | lexeme => cases this
  | _ => rfl

theorem diagnostics_of_isTrivia {gs : List Segment} (h : ∀ g ∈ gs, g.isTrivia = true)
    (before : List Char) : Segment.diagnostics before gs = [] := by
  refine Segment.yields_eq_nil ?_ before
  intro g hg before
  have := h g hg
  cases g with
  | openString => cases this
  | stray => cases this
  | _ => rfl

/-- Whatever stands behind a filler, the filler is cut on its own. -/
theorem IsFiller.exists_segmented {cs : List Char} (h : IsFiller cs) :
    ∃ gs, (∀ g ∈ gs, g.isTrivia = true) ∧ ∀ rest, Segmented (cs ++ rest) gs rest := by
  induction h with
  | none => exact ⟨[], by simp, fun rest => .done rest⟩
  | @blank c cs hc _ ih =>
      obtain ⟨gs, htrivia, hcut⟩ := ih
      refine ⟨.space c :: gs, ?_, fun rest => .cons (g := .space c) hc trivial (hcut rest)⟩
      intro g hg
      rcases List.mem_cons.mp hg with rfl | hg
      · rfl
      · exact htrivia g hg
  | @comment line cs hline _ ih =>
      obtain ⟨gs, htrivia, hcut⟩ := ih
      refine ⟨.comment ('/' :: '/' :: line) :: .space '\n' :: gs, ?_, fun rest => ?_⟩
      · intro g hg
        rcases List.mem_cons.mp hg with rfl | hg
        · rfl
        · rcases List.mem_cons.mp hg with rfl | hg
          · rfl
          · exact htrivia g hg
      · have hspace : Segmented ('\n' :: (cs ++ rest)) (.space '\n' :: gs) rest :=
          .cons (g := .space '\n') rfl trivial (hcut rest)
        have hcomment := Segmented.cons (g := .comment ('/' :: '/' :: line))
          ⟨line, rfl, hline⟩ (by simp [Segment.Ends]) hspace
        simpa [Segment.text] using hcomment

/-! ## Printed lexemes -/

/-- A lexeme of the grammar, and the gap that is printed behind it. -/
structure Printed where
  kind : Kind
  lexeme : List Char
  literal : Option Literal
  isLexeme : IsLexeme kind lexeme literal
  space : Char
  isSpace : isSpace space = true
  filler : List Char
  isFiller : IsFiller filler

namespace Printed

def text (p : Printed) : List Char := p.lexeme ++ p.space :: p.filler

def token (p : Printed) (before : List Char) : Token :=
  { kind := p.kind
    lexeme := String.ofList p.lexeme
    literal := p.literal
    line := UInt32.ofNat (Text.lineAfter before) }

/-- The tokens of several lexemes behind the text `before`, one each. -/
def tokens : List Char → List Printed → List Token
  | _, [] => []
  | before, p :: ps => p.token before :: tokens (before ++ p.text) ps

variable (p : Printed)

theorem tokens_lexeme (before : List Char) :
    Segment.tokens before [.lexeme p.kind p.lexeme] = [p.token before] := by
  rw [Segment.tokens_lexeme, Token.ofLexeme, ← Segment.literal_of_isLexeme p.isLexeme]
  rfl

theorem scan_lexeme :
    (scan (String.ofList p.lexeme)).tokens =
        [p.token [], Token.eof (UInt32.ofNat (Text.lineAfter p.lexeme))]
      ∧ (scan (String.ofList p.lexeme)).diagnostics = [] := by
  have hseg := Segmented.cons (g := .lexeme p.kind p.lexeme) ⟨_, p.isLexeme⟩
    (Segment.ends_nil ..) (.done [])
  have hsource : Segmented (String.ofList p.lexeme).toList [.lexeme p.kind p.lexeme] [] := by
    rw [String.toList_ofList]
    simpa [Segment.text] using hseg
  obtain ⟨htokens, hdiagnostics⟩ := scan_of_segmented hsource
  rw [p.tokens_lexeme, String.toList_ofList] at htokens
  exact ⟨htokens, hdiagnostics⟩

/-- A printed lexeme is cut on its own: the gap starts with white space,
which ends the lexeme. -/
theorem exists_segments :
    ∃ gs, (∀ rest, Segmented (p.text ++ rest) gs rest)
      ∧ ∀ before, Segment.tokens before gs = [p.token before]
        ∧ Segment.diagnostics before gs = [] := by
  obtain ⟨gap, htrivia, hcut⟩ := (IsFiller.blank p.isSpace p.isFiller).exists_segmented
  refine ⟨[.lexeme p.kind p.lexeme] ++ gap, fun rest => ?_, fun before => ?_⟩
  · have hlexeme := Segmented.cons (g := .lexeme p.kind p.lexeme) ⟨_, p.isLexeme⟩
      (Segment.ends_of_isSpace p.isSpace ..) (hcut rest)
    simpa [text, Segment.text] using hlexeme
  · rw [Segment.tokens_append, Segment.diagnostics_append, p.tokens_lexeme,
      tokens_of_isTrivia htrivia, diagnostics_of_isTrivia htrivia]
    exact ⟨rfl, rfl⟩

theorem exists_segmented (ps : List Printed) :
    ∃ gs, Segmented (ps.flatMap text) gs []
      ∧ ∀ before, Segment.tokens before gs = tokens before ps
        ∧ Segment.diagnostics before gs = [] := by
  induction ps with
  | nil => exact ⟨[], .done [], fun _ => ⟨rfl, rfl⟩⟩
  | cons p ps ih =>
      obtain ⟨hs, hrest, hyields'⟩ := ih
      obtain ⟨gs, hcut, hyields⟩ := p.exists_segments
      have htext : textOf gs = p.text := by
        have hall := hcut []
        rw [List.append_nil] at hall
        exact hall.textOf_eq
      refine ⟨gs ++ hs, (hcut _).append hrest, fun before => ?_⟩
      obtain ⟨htokens, hdiagnostics⟩ := hyields before
      obtain ⟨htokens', hdiagnostics'⟩ := hyields' (before ++ p.text)
      rw [Segment.tokens_append, Segment.diagnostics_append, htext, htokens, hdiagnostics,
        htokens', hdiagnostics']
      exact ⟨rfl, rfl⟩

end Printed

/-- Lexemes that are printed with gaps scan back: without diagnostics, and
to one token each, with the kind and the value that the lexeme has when it
is scanned alone, on the line it starts on. The tokens of any source can
be printed so. In a text of fewer than `2 ^ 32 - 1` characters lines are
plain counts. -/
theorem scan_printed (ps : List Printed) :
    let source := String.ofList (ps.flatMap Printed.text)
    (scan source).diagnostics = []
      ∧ (scan source).tokens = Printed.tokens [] ps
          ++ [Token.eof (UInt32.ofNat (Text.lineAfter source.toList))]
      ∧ (∀ p ∈ ps, (scan (String.ofList p.lexeme)).diagnostics = []
          ∧ (scan (String.ofList p.lexeme)).tokens =
            [p.token [], Token.eof (UInt32.ofNat (Text.lineAfter p.lexeme))])
      ∧ (source.length < UInt32.size - 1 → ∀ before, before <+: source.toList →
          (UInt32.ofNat (Text.lineAfter before)).toNat = 1 + before.count '\n')
      ∧ ∀ s, ∀ t ∈ (scan s).tokens, t.isEof = false →
          IsLexeme t.kind t.lexeme.toList t.literal := by
  intro source
  obtain ⟨gs, hseg, hyields⟩ := Printed.exists_segmented ps
  have hsource : Segmented source.toList gs [] := by rwa [String.toList_ofList]
  obtain ⟨htokens, hdiagnostics⟩ := scan_of_segmented hsource
  obtain ⟨htokens', hdiagnostics'⟩ := hyields []
  refine ⟨by rw [hdiagnostics, hdiagnostics'], by rw [htokens, htokens'], ?_, ?_, ?_⟩
  · intro p _
    exact ⟨p.scan_lexeme.2, p.scan_lexeme.1⟩
  · intro hsize before hbefore
    have hlength := hbefore.length_le
    rw [String.length_toList] at hlength
    exact (Position.counts_after (by omega)).line
  · intro s t ht heof
    obtain ⟨hs, hseg⟩ := LoxScan.exists_segmented s.toList
    rw [(scan_of_segmented hseg).1] at ht
    rcases List.mem_append.mp ht with ht | ht
    · exact Segment.isLexeme_of_mem_tokens hseg.wellFormed ht
    · rw [List.mem_singleton.mp ht] at heof
      cases heof

/-- A string over two lines, a keyword and a fraction; the comment between
the first two holds a quote and a stray character. -/
theorem scan_printed_comment :
    let source := "\"a\n\"\t// \"é\nif 1.5\r"
    ∃ ps : List Printed, String.ofList (ps.flatMap Printed.text) = source
      ∧ (scan source).diagnostics = []
      ∧ (scan source).tokens = Printed.tokens [] ps ++ [Token.eof 3]
      ∧ (scan source).tokens.map (fun t => (t.kind, t.lexeme, t.line)) =
        [(.string, "\"a\n\"", 1), (.keyword .ifWord, "if", 3), (.number, "1.5", 3),
          (.eof, "", 3)] := by
  intro source
  let ps : List Printed := [
    { kind := .string, lexeme := '"' :: (['a', '\n'] ++ ['"']), literal := _
      isLexeme := .string (by decide), space := '\t', isSpace := rfl
      filler := '/' :: '/' :: ([' ', '"', 'é'] ++ ['\n'])
      isFiller := .comment (by decide) .none },
    { kind := .keyword .ifWord, lexeme := _, literal := _
      isLexeme := .keyword .ifWord, space := ' ', isSpace := rfl
      filler := [], isFiller := .none },
    { kind := .number, lexeme := ['1'] ++ '.' :: ['5'], literal := _
      isLexeme := .fraction (List.cons_ne_nil _ _) (List.forall_mem_singleton.mpr rfl)
        (List.cons_ne_nil _ _) (List.forall_mem_singleton.mpr rfl)
      space := '\r', isSpace := rfl, filler := [], isFiller := .none }]
  have htext : String.ofList (ps.flatMap Printed.text) = source := by decide +kernel
  have hend : Text.lineAfter source.toList = 3 := by decide
  obtain ⟨hdiagnostics, htokens, -⟩ := scan_printed ps
  rw [htext] at hdiagnostics htokens
  rw [hend] at htokens
  exact ⟨ps, htext, hdiagnostics, htokens, by decide +kernel⟩

end LoxScan
