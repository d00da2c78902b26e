import LoxScan.Proofs.Scan.Behind
import LoxScan.Proofs.Scan.Whole

/-!
# Line by line

A text that leaves no string open can be scanned on its own. Nothing that
a segment looks at behind itself goes on past a line feed, so a line feed
and more text behind it leave its segments as they are
(`Segmented.append_line`), and behind a line feed columns start over, so
what is said of the following text only moves (`tokens_behind_line`,
`diagnostics_behind_line`).

> `scan_intercalate`: the scan of texts joined by line feeds is the scan
> of each, moved to where the text stands.

Moving is addition of words; the last part of that theorem says when no
word wraps.
-/

namespace LoxScan

open Segment (textOf)

/-! ## A line feed ends every segment -/

/-- A segment that ends before a text ends there too if a line feed comes
behind the text, unless it is open to the end. -/
theorem Segment.ends_append_line {g : Segment} {after : List Char} (h : g.Ends after)
    (hg : ∀ text, g ≠ .openString text) (b : List Char) :
    g.Ends (after ++ '\n' :: b) := by
  have hfades : Fades after (after ++ '\n' :: b) := by
    have hline : Fades [] ('\n' :: b) := .stop (by simp [isSpace])
    simpa using hline.append after
  cases g with
  | space c => trivial
  | stray c => trivial
  | openString text => exact absurd rfl (hg text)
  | lexeme kind text => exact hfades.ends h
  | comment text =>
      intro c hc
      cases after with
      | nil => simpa using hc.symm
      | cons d after => exact h c hc

theorem Segmented.append_line {cs rest : List Char} {gs : List Segment}
    (h : Segmented cs gs rest) (hopen : ∀ text, Segment.openString text ∉ gs)
    (b : List Char) : Segmented (cs ++ '\n' :: b) gs (rest ++ '\n' :: b) := by
  induction h with
  | done cs => exact .done _
  | @cut after rest g gs hg hgs ih =>
      obtain ⟨hform, hends⟩ := Segment.isNext_append_iff.mp hg
      have hnot : ∀ text, g ≠ .openString text := by
        rintro text rfl
        exact hopen text (List.mem_cons_self ..)
      rw [List.append_assoc]
      have hends := Segment.ends_append_line hends hnot b
      exact .cons hform hends (ih fun text ht => hopen text (List.mem_cons_of_mem _ ht))

/-- Two texts with a line feed between them. -/
theorem Segmented.join {a b : List Char} {gs hs : List Segment} (ha : Segmented a gs [])
    (hopen : ∀ text, Segment.openString text ∉ gs) (hb : Segmented b hs []) :
    Segmented (a ++ '\n' :: b) (gs ++ .space '\n' :: hs) [] := by
  have hline : Segmented ('\n' :: b) (.space '\n' :: hs) [] :=
    .cons (g := .space '\n') rfl trivial hb
  exact (ha.append_line hopen b).append hline

/-- A string left open is reported. -/
theorem openString_notMem {before : List Char} {gs : List Segment}
    (h : ∀ d ∈ Segment.diagnostics before gs, d.code ≠ some .unterminatedString)
    (text : List Char) : Segment.openString text ∉ gs := by
  induction gs generalizing before with
  | nil => exact List.not_mem_nil
  | cons g gs ih =>
      intro hmem
      rcases List.mem_cons.mp hmem with rfl | hmem
      · have hreported : Segment.errorAt before text .unterminatedString
            "Unterminated string." ∈ Segment.diagnostics before (.openString text :: gs) :=
          List.mem_append_left _ (List.mem_singleton.mpr rfl)
        exact h _ hreported rfl
      · exact ih (fun d hd => h d (List.mem_append_right _ hd)) hmem

/-- A text without quotes leaves no string open. -/
theorem code_ne_of_quote_notMem {source : String} (h : '"' ∉ source.toList) :
    ∀ d ∈ (scan source).diagnostics, d.code ≠ some .unterminatedString := by
  intro d hd
  obtain ⟨gs, hseg⟩ := exists_segmented source.toList
  rw [(scan_of_segmented hseg).2] at hd
  obtain ⟨front, g, back, rfl, hg⟩ := Segment.mem_yields hd
  cases g with
  | openString text =>
      obtain ⟨body, rfl, -⟩ := hseg.wellFormed (.openString text) (by simp)
      rw [hseg.eq_append] at h
      exact absurd (by simp [Segment.text]) h
  | stray c =>
      cases hg
      exact fun hcode => absurd (Option.some.inj hcode) (by decide)
  | _ => cases hg

/-! ## Moving -/

/-- The token `lines` lines further down. -/
def Token.moved (t : Token) (lines : Nat) : Token :=
  { t with line := t.line + UInt32.ofNat lines }

def Diagnostic.moved (d : Diagnostic) (bytes lines : Nat) : Diagnostic :=
  { d with span := d.span.moved bytes lines }

namespace Segment

/-- What is yielded behind more text is moved, if it is for each
segment. -/
theorem yields_moved {α : Type} {f : List Char → Segment → Option α} {m : α → α}
    {start : List Char} (hf : ∀ before g, f (start ++ before) g = (f before g).map m)
    (before : List Char) (gs : List Segment) :
    yields f (start ++ before) gs = (yields f before gs).map m := by
  induction gs generalizing before with
  | nil => rfl
  | cons g gs ih =>
      have hg : (f (start ++ before) g).toList = (f before g).toList.map m := by
        rw [hf]
        cases f before g <;> rfl
      rw [yields, hg, List.append_assoc, ih, ← List.map_append]
      rfl

theorem tokens_behind_line (start : List Char) (gs : List Segment) :
    tokens start gs = (tokens [] gs).map (·.moved (start.count '\n')) := by
  have hf : ∀ before g, token? (start ++ before) g
      = (token? before g).map (·.moved (start.count '\n')) := by
    intro before g
    cases g with
    | lexeme kind text =>
        simp only [token?, Option.map, Text.ofNat_lineAfter_append, Token.moved]
    | _ => rfl
  have h := yields_moved hf [] gs
  rwa [List.append_nil] at h

theorem diagnostics_behind_line {start : List Char} (h : Text.StartsLine start)
    (gs : List Segment) :
    diagnostics start gs
      = (diagnostics [] gs).map
          (·.moved (Text.byteLength start) (start.count '\n')) := by
  have hf : ∀ before g, diagnostic? (start ++ before) g
      = (diagnostic? before g).map
          (·.moved (Text.byteLength start) (start.count '\n')) := by
    intro before g
    cases g with
    | openString text =>
        simp only [diagnostic?, errorAt, Option.map, Span.covering_append h, Diagnostic.moved]
    | stray c =>
        simp only [diagnostic?, errorAt, Option.map, Span.covering_append h, Diagnostic.moved]
    | _ => rfl
  have h := yields_moved hf [] gs
  rwa [List.append_nil] at h

end Segment

/-! ## Joined texts -/

/-- A text of several, and what stands before it when they are joined. -/
structure Piece where
  before : List Char
  text : String

/-- The texts as they stand when joined by line feeds behind `before`. -/
def pieces (before : List Char) : List String → List Piece
  | [] => []
  | a :: texts => ⟨before, a⟩ :: pieces (before ++ a.toList ++ ['\n']) texts

namespace Piece

/-- The tokens of the text, scanned on its own and moved into place. -/
def tokens (p : Piece) : List Token :=
  (scan p.text).tokens.map (·.moved (p.before.count '\n'))

/-- The diagnostics of the text, scanned on its own and moved into
place. -/
def diagnostics (p : Piece) : List Diagnostic :=
  (scan p.text).diagnostics.map
    (·.moved (Text.byteLength p.before) (p.before.count '\n'))

/-- No word wraps where the text is moved. -/
structure Exact (p : Piece) : Prop where
  tokens : ∀ t ∈ (scan p.text).tokens,
    (t.moved (p.before.count '\n')).line.toNat = t.line.toNat + p.before.count '\n'
  diagnostics : ∀ d ∈ (scan p.text).diagnostics,
    (d.moved (Text.byteLength p.before) (p.before.count '\n')).line.toNat
      = d.line.toNat + p.before.count '\n'

theorem tokens_of_segmented {p : Piece} {gs : List Segment}
    (h : Segmented p.text.toList gs []) :
    p.tokens = Segment.tokens p.before gs
      ++ [Token.eof (UInt32.ofNat (Text.lineAfter (p.before ++ p.text.toList)))] := by
  rw [tokens, (scan_of_segmented h).1, List.map_append, ← Segment.tokens_behind_line,
    Text.ofNat_lineAfter_append]
  rfl

theorem diagnostics_of_segmented {p : Piece} (hp : Text.StartsLine p.before)
    {gs : List Segment} (h : Segmented p.text.toList gs []) :
    p.diagnostics = Segment.diagnostics p.before gs := by
  rw [diagnostics, (scan_of_segmented h).2, ← Segment.diagnostics_behind_line hp]

end Piece

theorem map_text_pieces (before : List Char) (texts : List String) :
    (pieces before texts).map Piece.text = texts := by
  induction texts generalizing before with
  | nil => rfl
  | cons a texts ih => rw [pieces, List.map_cons, ih]

/-- Two texts or more, joined: the first one, a line feed, and the
others. -/
theorem toList_join_cons (a : String) {texts : List String} (h : texts ≠ []) :
    ("\n".intercalate (a :: texts)).toList
      = a.toList ++ '\n' :: ("\n".intercalate texts).toList := by
  rw [String.intercalate_cons_of_ne_nil h, String.toList_append, String.toList_append,
    List.append_assoc]
  rfl

theorem prefix_of_mem_pieces {before : List Char} {texts : List String} {p : Piece}
    (hp : p ∈ pieces before texts) :
    p.before ++ p.text.toList <+: before ++ ("\n".intercalate texts).toList := by
  induction texts generalizing before with
  | nil => cases hp
  | cons a texts ih =>
      rcases List.mem_cons.mp hp with rfl | hp
      · cases texts with
        | nil => simp only [String.intercalate_singleton, List.prefix_rfl]
        | cons b texts =>
            rw [toList_join_cons a (List.cons_ne_nil b texts), ← List.append_assoc]
            exact List.prefix_append ..
      · have hne : texts ≠ [] := by
          rintro rfl
          cases hp
        rw [toList_join_cons a hne, List.append_cons, ← List.append_assoc,
          ← List.append_assoc]
        exact ih hp

/-- The last piece ends where the joined text does. -/
theorem getLast?_pieces (before : List Char) {texts : List String} (hne : texts ≠ []) :
    ∃ p, (pieces before texts).getLast? = some p
      ∧ p.before ++ p.text.toList = before ++ ("\n".intercalate texts).toList := by
  induction texts generalizing before with
  | nil => exact absurd rfl hne
  | cons a texts ih =>
      cases texts with
      | nil => exact ⟨⟨before, a⟩, rfl, by rw [String.intercalate_singleton]⟩
      | cons b texts =>
          obtain ⟨p, hp, hend⟩ :=
            ih (before ++ a.toList ++ ['\n']) (List.cons_ne_nil b texts)
          refine ⟨p, ?_, ?_⟩
          · rw [pieces, List.getLast?_cons, hp]
            rfl
          · rw [hend, toList_join_cons a (List.cons_ne_nil b texts)]
            simp only [List.append_assoc, List.singleton_append]

/-- The segmentation of the joined text is that of the texts, each behind
the line feed before it. -/
theorem exists_segmented_join {texts : List String} (hne : texts ≠ [])
    (hclosed : ∀ a ∈ texts.dropLast, ∀ d ∈ (scan a).diagnostics,
      d.code ≠ some .unterminatedString) :
    ∃ gs, Segmented ("\n".intercalate texts).toList gs []
      ∧ ∀ before, Text.StartsLine before →
        Segment.tokens before gs = (pieces before texts).flatMap (·.tokens.dropLast)
          ∧ Segment.diagnostics before gs
            = (pieces before texts).flatMap Piece.diagnostics := by
  induction texts with
  | nil => exact absurd rfl hne
  | cons a texts ih =>
      obtain ⟨gs, ha⟩ := exists_segmented a.toList
      -- the first text, wherever it stands
      have hfirst : ∀ before, Text.StartsLine before →
          Segment.tokens before gs = (Piece.mk before a).tokens.dropLast
            ∧ Segment.diagnostics before gs = (Piece.mk before a).diagnostics := by
        intro before hbefore
        have htokens := Piece.tokens_of_segmented (p := ⟨before, a⟩) ha
        have hdiagnostics := Piece.diagnostics_of_segmented (p := ⟨before, a⟩) hbefore ha
        exact ⟨by rw [htokens, List.dropLast_concat], hdiagnostics.symm⟩
      cases texts with
      | nil =>
          refine ⟨gs, by rwa [String.intercalate_singleton], fun before hbefore => ?_⟩
          obtain ⟨htokens, hdiagnostics⟩ := hfirst before hbefore
          simp only [pieces, List.flatMap_cons, List.flatMap_nil, List.append_nil]
          exact ⟨htokens, hdiagnostics⟩
      | cons b texts =>
          have hopen : ∀ text, Segment.openString text ∉ gs := by
            refine @openString_notMem [] gs ?_
            rw [← (scan_of_segmented ha).2]
            exact hclosed a (List.mem_cons_self ..)
          obtain ⟨hs, hrest, hyields⟩ := ih (List.cons_ne_nil b texts)
            fun c hc => hclosed c (List.mem_cons_of_mem _ hc)
          refine ⟨gs ++ .space '\n' :: hs, ?_, fun before hbefore => ?_⟩
          · rw [toList_join_cons a (List.cons_ne_nil b texts)]
            exact ha.join hopen hrest
          · obtain ⟨htokens, hdiagnostics⟩ := hfirst before hbefore
            obtain ⟨htokens', hdiagnostics'⟩ :=
              hyields (before ++ a.toList ++ ['\n']) (Or.inr ⟨_, rfl⟩)
            rw [Segment.tokens_append, Segment.diagnostics_append, pieces,
              List.flatMap_cons, List.flatMap_cons, ← htokens, ← hdiagnostics, ← htokens',
              ← hdiagnostics', ha.textOf_eq]
            exact ⟨rfl, rfl⟩

/-! ## No word wraps -/

theorem toNat_ofNat_add {m n : Nat} (h : m + n < UInt32.size) :
    (UInt32.ofNat m + UInt32.ofNat n).toNat = (UInt32.ofNat m).toNat + n := by
  have hm : m < UInt32.size := Nat.lt_of_le_of_lt (Nat.le_add_right ..) h
  rw [← UInt32.ofNat_add, UInt32.toNat_ofNat_of_lt' h, UInt32.toNat_ofNat_of_lt' hm]

/-- The line of a token is counted in some leading text of the source. -/
theorem line_of_mem_tokens {source : String} {t : Token} (ht : t ∈ (scan source).tokens) :
    ∃ before, before <+: source.toList
      ∧ t.line = UInt32.ofNat (Text.lineAfter before) := by
  obtain ⟨gs, hseg⟩ := exists_segmented source.toList
  rw [(scan_of_segmented hseg).1] at ht
  rcases List.mem_append.mp ht with ht | ht
  · obtain ⟨front, g, back, rfl, hg⟩ := Segment.mem_yields ht
    refine ⟨textOf front, ?_, ?_⟩
    · rw [← hseg.textOf_eq, Segment.textOf_append]
      exact List.prefix_append ..
    · cases g with
      | lexeme kind text => cases hg; rfl
      | _ => cases hg
  · rw [List.mem_singleton.mp ht]
    exact ⟨source.toList, List.prefix_rfl, rfl⟩

theorem line_of_mem_diagnostics {source : String} {d : Diagnostic}
    (hd : d ∈ (scan source).diagnostics) :
    ∃ before, before <+: source.toList
      ∧ d.line = UInt32.ofNat (Text.lineAfter before) := by
  obtain ⟨gs, hseg⟩ := exists_segmented source.toList
  rw [(scan_of_segmented hseg).2] at hd
  obtain ⟨front, g, back, rfl, hg⟩ := Segment.mem_yields hd
  refine ⟨textOf front, ?_, ?_⟩
  · rw [← hseg.textOf_eq, Segment.textOf_append]
    exact List.prefix_append ..
  · rw [Diagnostic.line, Segment.span_of_diagnostic? hg]
    rfl

/-- Lines that can be counted in a short enough text do not wrap when
they move. -/
theorem Piece.exact_of_prefix {p : Piece} {cs : List Char}
    (hsize : cs.length < UInt32.size - 1)
    (h : p.before ++ p.text.toList <+: cs) : p.Exact := by
  have hlines : ∀ before, before <+: p.text.toList →
      Text.lineAfter before + p.before.count '\n' < UInt32.size := by
    intro before hbefore
    have hcount := hbefore.sublist.count_le '\n'
    have hall := List.count_le_length (a := '\n') (l := p.before ++ p.text.toList)
    have hlength := h.length_le
    rw [List.count_append] at hall
    rw [Text.lineAfter]
    omega
  refine ⟨fun t ht => ?_, fun d hd => ?_⟩
  · obtain ⟨before, hbefore, hline⟩ := line_of_mem_tokens ht
    rw [Token.moved, hline]
    exact toNat_ofNat_add (hlines before hbefore)
  · obtain ⟨before, hbefore, hline⟩ := line_of_mem_diagnostics hd
    rw [hline, ← toNat_ofNat_add (hlines before hbefore), ← hline]
    rfl

/-- Texts of which only the last one may leave a string open can be
scanned one by one. The joined text has their tokens, each moved to where
its text stands and without the end marks but the last, and their
diagnostics, moved likewise; if it has fewer than `2 ^ 32 - 1` characters,
moving is plain addition. -/
theorem scan_intercalate {texts : List String} (hne : texts ≠ [])
    (hclosed : ∀ a ∈ texts.dropLast, ∀ d ∈ (scan a).diagnostics,
      d.code ≠ some .unterminatedString) :
    (scan ("\n".intercalate texts)).tokens =
        (pieces [] texts).flatMap (·.tokens.dropLast)
          ++ ((pieces [] texts).getLast?.bind (·.tokens.getLast?)).toList
      ∧ (scan ("\n".intercalate texts)).diagnostics
          = (pieces [] texts).flatMap Piece.diagnostics
      ∧ (pieces [] texts).map Piece.text = texts
      ∧ (∀ p ∈ pieces [] texts,
          p.before ++ p.text.toList <+: ("\n".intercalate texts).toList)
      ∧ (("\n".intercalate texts).length < UInt32.size - 1 →
          ∀ p ∈ pieces [] texts, p.Exact) := by
  obtain ⟨gs, hseg, hyields⟩ := exists_segmented_join hne hclosed
  obtain ⟨htokens, hdiagnostics⟩ := hyields [] (Or.inl rfl)
  have hfront : ∀ p ∈ pieces [] texts,
      p.before ++ p.text.toList <+: ("\n".intercalate texts).toList :=
    fun p hp => prefix_of_mem_pieces hp
  refine ⟨?_, ?_, map_text_pieces [] texts, hfront, fun hsize p hp => ?_⟩
  · obtain ⟨p, hp, hend⟩ := getLast?_pieces [] hne
    obtain ⟨hs, hlast⟩ := exists_segmented p.text.toList
    rw [List.nil_append] at hend
    rw [(scan_of_segmented hseg).1, htokens, hp, Option.bind_some,
      Piece.tokens_of_segmented hlast, List.getLast?_concat, hend]
    rfl
  · rw [(scan_of_segmented hseg).2, hdiagnostics]
  · refine Piece.exact_of_prefix ?_ (hfront p hp)
    rwa [String.length_toList]

theorem scan_intercalate_point_slash_quote :
    let joined := scan ("\n".intercalate ["1.", "/ é", "\"a"])
    ["1.", "/ é", "\"a"] ≠ []
      ∧ (∀ a ∈ ["1.", "/ é", "\"a"].dropLast, ∀ d ∈ (scan a).diagnostics,
          d.code ≠ some .unterminatedString)
      ∧ joined.diagnostics = (pieces [] ["1.", "/ é", "\"a"]).flatMap Piece.diagnostics
      ∧ joined.diagnostics.map (fun d => (d.code, d.line)) =
        [(some .unexpectedChar, 2), (some .unterminatedString, 3)]
      ∧ joined.tokens.map (fun t => (t.lexeme, t.line)) =
        [("1", 1), (".", 1), ("/", 2), ("", 3)] := by
  have hclosed : ∀ a ∈ ["1.", "/ é", "\"a"].dropLast, ∀ d ∈ (scan a).diagnostics,
      d.code ≠ some .unterminatedString := by
    intro a ha
    refine code_ne_of_quote_notMem ?_
    have : a = "1." ∨ a = "/ é" := by simpa using ha
    rcases this with rfl | rfl <;> decide
  exact ⟨by decide, hclosed, (scan_intercalate (by decide) hclosed).2.1, by decide +kernel,
    by decide +kernel⟩

end LoxScan
