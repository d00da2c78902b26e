import LoxScan.Proofs.Scan.Behind
import LoxScan.Proofs.Scan.Whole

/-!
# What stands between tokens does not disturb them

`clean` takes the comments out of a source and puts a space for each stray
character. The segments that are left are cut as before, since behind
each of them the text has changed only where white space now stands or the
text now ends (`fades_cleaned`).

> `scan_clean`: tokens and open strings stay what they are and where they
> are, no stray character is reported any more, and there is nothing left
> to clean.

Lines are kept because neither a comment nor a stray character holds a
line feed. Columns are not kept behind a comment, but a line feed comes
next there; `Abreast` is what is kept.
-/

namespace LoxScan

open Segment (textOf)

/-! ## Cleaning -/

/-- What is left of a segment. -/
def Segment.cleaned : Segment → Option Segment
  | .comment _ => none
  | .stray _ => some (.space ' ')
  | g => some g

/-- The segments that are left of some. -/
def cleaned (gs : List Segment) : List Segment := gs.filterMap Segment.cleaned

/-- The source without its comments, and with a space for each stray
character. -/
def clean (source : String) : String :=
  String.ofList (textOf (cleaned (segments source.toList)))

theorem toList_clean {source : String} {gs : List Segment}
    (h : Segmented source.toList gs []) : (clean source).toList = textOf (cleaned gs) := by
  rw [clean, String.toList_ofList, segmented_unique (segmented_segments _) h]

/-- Where something was taken out or replaced, there is white space or the
end. -/
theorem fades_cleaned {cs : List Char} {gs : List Segment} (h : Segmented cs gs []) :
    Fades cs (textOf (cleaned gs)) := by
  induction gs generalizing cs with
  | nil => exact .stop (by simp [cleaned])
  | cons g gs ih =>
      obtain ⟨after, rfl, -, hends, hgs⟩ := h.of_cons
      have ih := ih hgs
      cases g with
      | comment text =>
          refine .stop fun c hc => ?_
          rcases ih.head hc with hs | hc
          · exact hs
          · rw [hends c hc]
            rfl
      | stray c => exact .stop (by simp [cleaned, Segment.cleaned, Segment.text, isSpace])
      | space c => exact ih.append [c]
      | lexeme kind text => exact ih.append text
      | openString text => exact ih.append text

/-- What is left is cut as before. -/
theorem segmented_cleaned {cs : List Char} {gs : List Segment} (h : Segmented cs gs []) :
    Segmented (textOf (cleaned gs)) (cleaned gs) [] := by
  induction gs generalizing cs with
  | nil => exact .done []
  | cons g gs ih =>
      obtain ⟨after, rfl, hform, hends, hgs⟩ := h.of_cons
      have ih := ih hgs
      cases g with
      | comment text => exact ih
      | stray c => exact .cons (g := .space ' ') rfl trivial ih
      | space c => exact .cons (g := .space c) hform trivial ih
      | lexeme kind text =>
          exact .cons (g := .lexeme kind text) hform ((fades_cleaned hgs).ends hends) ih
      | openString text =>
          obtain rfl : after = [] := hends
          obtain rfl := hgs.eq_nil
          exact .cons (g := .openString text) hform rfl ih

theorem cleaned_cleaned (gs : List Segment) : cleaned (cleaned gs) = cleaned gs := by
  unfold cleaned
  rw [List.filterMap_filterMap]
  congr 1
  funext g
  cases g <;> rfl

/-! ## Places -/

/-- Neither a comment nor a stray character holds a line feed. -/
theorem Segment.count_text_cleaned {g : Segment} (h : g.WellFormed) :
    (textOf g.cleaned.toList).count '\n' = g.text.count '\n' := by
  cases g with
  | comment text =>
      obtain ⟨line, rfl, hline⟩ := h
      have hno : '\n' ∉ '/' :: '/' :: line := by simpa using hline
      rw [text, List.count_eq_zero.mpr hno]
      rfl
  | stray c =>
      have hc : c ≠ '\n' := by
        rintro rfl
        exact absurd h.1 (by decide)
      simp [cleaned, text, hc]
  | _ => simp [cleaned, text]

theorem cleaned_cons (g : Segment) (gs : List Segment) :
    cleaned (g :: gs) = g.cleaned.toList ++ cleaned gs := by
  cases g <;> rfl

theorem count_cleaned {gs : List Segment} (h : ∀ g ∈ gs, g.WellFormed) :
    (textOf (cleaned gs)).count '\n' = (textOf gs).count '\n' := by
  induction gs with
  | nil => rfl
  | cons g gs ih =>
      have ih := ih fun g' hg' => h g' (List.mem_cons_of_mem _ hg')
      rw [cleaned_cons, Segment.textOf_append, Segment.textOf_cons, List.count_append,
        List.count_append, ih, Segment.count_text_cleaned (h g (List.mem_cons_self ..))]

/-- Two texts with the same number of line feeds behind which the same
column is reached, unless a line ends there anyway. -/
structure Abreast (before before' ahead : List Char) : Prop where
  lines : before'.count '\n' = before.count '\n'
  columns : Text.columnAfter before' = Text.columnAfter before
    ∨ ∀ c ∈ ahead.head?, c = '\n'

theorem Abreast.refl (before ahead : List Char) : Abreast before before ahead :=
  ⟨rfl, Or.inl rfl⟩

theorem Abreast.line {before before' ahead : List Char} (h : Abreast before before' ahead) :
    Text.lineAfter before' = Text.lineAfter before := by
  rw [Text.lineAfter, Text.lineAfter, h.lines]

theorem Abreast.column {before before' ahead : List Char} (h : Abreast before before' ahead)
    {c : Char} (hc : ahead.head? = some c) (hne : c ≠ '\n') :
    Text.columnAfter before' = Text.columnAfter before := by
  rcases h.columns with hcol | hline
  · exact hcol
  · exact absurd (hline c hc) hne

namespace Segment

/-- A segment that starts with a line feed is white space. -/
theorem head_text_ne {g : Segment} (h : g.WellFormed) (hg : g ≠ .space '\n') :
    ∃ c, g.text.head? = some c ∧ c ≠ '\n' := by
  obtain ⟨c, cs, htext⟩ := List.exists_cons_of_ne_nil (ne_nil_of_wellFormed h)
  refine ⟨c, by rw [htext]; rfl, ?_⟩
  rintro rfl
  cases g with
  | lexeme kind text =>
      obtain ⟨value, h⟩ := h
      have htext : '\n' :: cs = text ++ [] := by rw [List.append_nil]; exact htext.symm
      have hspace := first_of_cuts_lexeme h htext (ends_nil kind text)
      rw [first_of_isSpace cs rfl] at hspace
      cases hspace
  | space c =>
      obtain rfl : c = '\n' := (List.cons.inj htext).1
      exact hg rfl
  | comment text =>
      obtain ⟨line, rfl, -⟩ := h
      cases htext
  | openString text =>
      obtain ⟨body, rfl, -⟩ := h
      cases htext
  | stray c =>
      obtain rfl : c = '\n' := (List.cons.inj htext).1
      exact absurd h.1 (by decide)

/-- One segment further, and what is left of it. -/
theorem abreast_cleaned {g : Segment} {before before' after : List Char}
    (hform : g.WellFormed) (hends : g.Ends after)
    (h : Abreast before before' (g.text ++ after)) :
    Abreast (before ++ g.text) (before' ++ textOf g.cleaned.toList) after := by
  refine ⟨?_, ?_⟩
  · rw [List.count_append, List.count_append, h.lines, count_text_cleaned hform]
  by_cases hline : g = .space '\n'
  · subst hline
    exact Or.inl (by simp [cleaned, text, Text.columnAfter_concat])
  obtain ⟨c, hhead, hne⟩ := head_text_ne hform hline
  have hcolumn := h.column (by rw [List.head?_append, hhead]; rfl) hne
  cases g with
  | comment text => exact Or.inr hends
  | stray c =>
      obtain rfl : c = _ := Option.some.inj hhead
      exact Or.inl (by simp [cleaned, text, Text.columnAfter_concat, hne, hcolumn])
  | _ =>
      refine Or.inl ?_
      simp only [cleaned, Option.toList, textOf_cons, textOf_nil, List.append_nil]
      exact Text.columnAfter_append_right hcolumn _

end Segment

/-! ## What is yielded -/

section

variable {α β : Type} {f : List Char → Segment → Option α} {told : α → β}
  {keep : α → Bool}

/-- If each segment yields, wherever it stands, what it yielded before,
all do. `keep` tells what goes on being yielded, and `told` how much of it
stays the same. -/
theorem yields_cleaned
    (hf : ∀ g before before' after, g.WellFormed → Abreast before before' (g.text ++ after) →
      (Segment.yields f before' g.cleaned.toList).map told
        = ((f before g).toList.filter keep).map told)
    {cs : List Char} {gs : List Segment} (hseg : Segmented cs gs []) {before before' : List Char}
    (h : Abreast before before' cs) :
    (Segment.yields f before' (cleaned gs)).map told
      = ((Segment.yields f before gs).filter keep).map told := by
  induction gs generalizing cs before before' with
  | nil => rfl
  | cons g gs ih =>
      obtain ⟨after, rfl, hform, hends, hgs⟩ := hseg.of_cons
      have ih := ih hgs (Segment.abreast_cleaned hform hends h)
      rw [cleaned_cons, Segment.yields_append, List.map_append, ih, hf _ _ _ _ hform h,
        Segment.yields, List.filter_append, List.map_append]

end

theorem tokens_cleaned {cs : List Char} {gs : List Segment} (h : Segmented cs gs []) :
    Segment.tokens [] (cleaned gs) = Segment.tokens [] gs := by
  have hsame : (Segment.tokens [] (cleaned gs)).map id
      = ((Segment.tokens [] gs).filter fun _ => true).map id := by
    refine yields_cleaned ?_ h (.refl [] cs)
    intro g before before' after _ hab
    cases g with
    | lexeme kind text =>
        simp only [Segment.cleaned, Option.toList, Segment.yields, Segment.token?, hab.line]
        rfl
    | _ => rfl
  rwa [List.map_id, List.map_id, List.filter_eq_self.mpr fun _ _ => rfl] at hsame

/-- A diagnostic without the offsets of its span. -/
def Diagnostic.inLine (d : Diagnostic) : Diagnostic :=
  { d with span := { d.span with start := 0, stop := 0 } }

@[simp] theorem Diagnostic.code_inLine (d : Diagnostic) : d.inLine.code = d.code := rfl

theorem diagnostics_cleaned {cs : List Char} {gs : List Segment} (h : Segmented cs gs []) :
    (Segment.diagnostics [] (cleaned gs)).map Diagnostic.inLine
      = ((Segment.diagnostics [] gs).filter (·.code = some .unterminatedString)).map
          Diagnostic.inLine := by
  refine yields_cleaned ?_ h (.refl [] cs)
  intro g before before' after hform hab
  cases g with
  | openString text =>
      obtain ⟨body, rfl, -⟩ := hform
      have hcolumn := hab.column rfl (by decide)
      simp [Segment.cleaned, Segment.yields, Segment.diagnostic?, Segment.errorAt,
        Diagnostic.inLine, Span.covering, hab.line, hcolumn, Code.unterminatedString]
  | _ => rfl

/-- Cleaning a source, which is said of its segmentation, changes no
token. Of its diagnostics those of open strings stay, with all that is
said of them but the offsets, and those of stray characters go. A clean
source is clean. -/
theorem scan_clean (source : String) :
    (∃ gs, Segmented source.toList gs []
        ∧ (scan source).diagnostics = Segment.diagnostics [] gs
        ∧ (clean source).toList = textOf (gs.filterMap Segment.cleaned))
      ∧ (scan (clean source)).tokens = (scan source).tokens
      ∧ (∀ d ∈ (scan (clean source)).diagnostics, d.code ≠ some .unexpectedChar)
      ∧ (scan (clean source)).diagnostics.map Diagnostic.inLine
          = ((scan source).diagnostics.filter (·.code = some .unterminatedString)).map
              Diagnostic.inLine
      ∧ clean (clean source) = clean source := by
  have hseg := segmented_segments source.toList
  generalize segments source.toList = gs at hseg
  have hclean := toList_clean hseg
  have hseg' : Segmented (clean source).toList (cleaned gs) [] := by
    rw [hclean]
    exact segmented_cleaned hseg
  obtain ⟨htokens, hdiagnostics⟩ := scan_of_segmented hseg
  obtain ⟨htokens', hdiagnostics'⟩ := scan_of_segmented hseg'
  have hsaid := diagnostics_cleaned hseg
  rw [← hdiagnostics, ← hdiagnostics'] at hsaid
  refine ⟨⟨gs, hseg, hdiagnostics, hclean⟩, ?_, fun d hd hcode => ?_, hsaid, ?_⟩
  · have hlines : Text.lineAfter (clean source).toList = Text.lineAfter source.toList := by
      rw [Text.lineAfter, Text.lineAfter, hclean, count_cleaned hseg.wellFormed,
        hseg.textOf_eq]
    rw [htokens, htokens', tokens_cleaned hseg, hlines]
  · have hmem : d.inLine ∈ ((scan source).diagnostics.filter
        (·.code = some .unterminatedString)).map Diagnostic.inLine := by
      rw [← hsaid]
      exact List.mem_map_of_mem hd
    obtain ⟨e, he, heq⟩ := List.mem_map.mp hmem
    have hopen : e.code = some .unterminatedString := by simpa using (List.mem_filter.mp he).2
    rw [← e.code_inLine, heq, d.code_inLine, hcode] at hopen
    exact absurd hopen (by decide)
  · refine String.toList_injective ?_
    rw [toList_clean hseg', cleaned_cleaned, hclean]

end LoxScan
