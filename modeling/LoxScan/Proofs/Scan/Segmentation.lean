import LoxScan.Diagnostic.Basic
import LoxScan.Proofs.Scan.Longest
import LoxScan.Proofs.Source.Place

/-!
# Segmentations and what they yield

Every text has exactly one complete segmentation (`exists_segmented`,
`segmented_unique`), and its segments make up the text
(`Segmented.eq_append`). A segmentation yields tokens and diagnostics,
each segment by itself: all it takes from its surroundings is the text
before it, to count a place in. `yields` gathers either of them from left
to right.
-/

namespace LoxScan

namespace Segmented

theorem eq_append {cs rest : List Char} {gs : List Segment} (h : Segmented cs gs rest) :
    cs = Segment.textOf gs ++ rest := by
  induction h with
  | done cs => rfl
  | cut hg hgs ih => rw [Segment.textOf_cons, List.append_assoc, ← ih]

theorem textOf_eq {cs : List Char} {gs : List Segment} (h : Segmented cs gs []) :
    Segment.textOf gs = cs := by
  rw [h.eq_append, List.append_nil]

theorem append {cs mid rest : List Char} {gs hs : List Segment}
    (h : Segmented cs gs mid) (h' : Segmented mid hs rest) :
    Segmented cs (gs ++ hs) rest := by
  induction h with
  | done cs => exact h'
  | cut hg hgs ih => exact .cut hg (ih h')

theorem wellFormed {cs rest : List Char} {gs : List Segment} (h : Segmented cs gs rest) :
    ∀ g ∈ gs, g.WellFormed := by
  induction h with
  | done cs => intro g hg; cases hg
  | cut hg hgs ih =>
      intro g' hg'
      rcases List.mem_cons.mp hg' with rfl | hg'
      · exact (Segment.isNext_append_iff.mp hg).1
      · exact ih g' hg'

theorem of_cons {cs rest : List Char} {g : Segment} {gs : List Segment}
    (h : Segmented cs (g :: gs) rest) :
    ∃ after, cs = g.text ++ after ∧ g.WellFormed ∧ g.Ends after
      ∧ Segmented after gs rest := by
  cases h with
  | @cut after _ _ _ hg hgs =>
      obtain ⟨hform, hends⟩ := Segment.isNext_append_iff.mp hg
      exact ⟨after, rfl, hform, hends, hgs⟩

theorem cons {after rest : List Char} {g : Segment} {gs : List Segment}
    (hform : g.WellFormed) (hends : g.Ends after) (h : Segmented after gs rest) :
    Segmented (g.text ++ after) (g :: gs) rest :=
  .cut (Segment.isNext_append_iff.mpr ⟨hform, hends⟩) h

/-- A nonempty text starts with its next segment. -/
theorem exists_cut (c : Char) (cs : List Char) :
    ∃ after, c :: cs = (Segment.first c cs).text ++ after
      ∧ after.length < (c :: cs).length ∧ ∀ {gs rest}, Segmented after gs rest →
        Segmented (c :: cs) (Segment.first c cs :: gs) rest := by
  obtain ⟨after, hcs, hform, hend⟩ := Segment.cuts_first c cs
  refine ⟨after, hcs, ?_, fun {gs rest} h => ?_⟩
  · have := Segment.length_text_first_pos c cs
    rw [hcs, List.length_append]
    omega
  · rw [hcs]
    exact .cons hform hend h

end Segmented

def segments (cs : List Char) : List Segment :=
  match _h : cs with
  | [] => []
  | c :: rest => Segment.first c rest :: segments (cs.drop (Segment.first c rest).text.length)
termination_by cs.length
decreasing_by
  have := Segment.length_text_first_pos c rest
  rw [_h, List.length_drop, List.length_cons]
  omega

theorem segmented_segments (cs : List Char) : Segmented cs (segments cs) [] := by
  match cs with
  | [] =>
      rw [segments]
      exact .done []
  | c :: cs =>
      obtain ⟨after, hcs, hlt, hcut⟩ := Segmented.exists_cut c cs
      have hdrop : (c :: cs).drop (Segment.first c cs).text.length = after := by
        rw [hcs, List.drop_left]
      rw [segments, hdrop]
      exact hcut (segmented_segments after)
termination_by cs.length
decreasing_by exact hlt

theorem exists_segmented (cs : List Char) : ∃ gs, Segmented cs gs [] :=
  ⟨segments cs, segmented_segments cs⟩

theorem segmented_unique {cs : List Char} {gs hs : List Segment} (h : Segmented cs gs [])
    (h' : Segmented cs hs []) : gs = hs := by
  generalize hrest : ([] : List Char) = rest at h
  induction h generalizing hs with
  | done cs =>
      subst hrest
      generalize hcs : ([] : List Char) = cs at h'
      cases h' with
      | done => rfl
      | cut hg hgs =>
          rw [← hcs] at hg
          exact absurd rfl (Segment.ne_nil_of_fits hg.1)
  | @cut after rest g gs hg hgs ih =>
      subst hrest
      generalize hcs : g.text ++ after = cs at h'
      cases h' with
      | done =>
          rw [hcs] at hg
          exact absurd rfl (Segment.ne_nil_of_fits hg.1)
      | @cut after' _ g' hs hg' hgs' =>
          obtain rfl : g = g' := Segment.isNext_unique (hcs ▸ hg) hg'
          obtain rfl : after = after' := List.append_cancel_left hcs
          rw [ih hgs' rfl]

theorem Segmented.eq_nil {gs : List Segment} (h : Segmented [] gs []) : gs = [] :=
  segmented_unique h (.done [])

namespace Segment

/-- The token a segment makes behind the text `before`. -/
def token? (before : List Char) : Segment → Option Token
  | .lexeme kind text =>
      some
        { kind
          lexeme := String.ofList text
          literal := Literal.ofLexeme? kind text
          line := UInt32.ofNat (Text.lineAfter before) }
  | _ => none

/-- The error at a text that stands behind `before`. -/
def errorAt (before text : List Char) (code : Code) (message : String) : Diagnostic :=
  { level := .error
    message
    span := Span.covering before text
    code := some code
    notes := []
    helps := [] }

/-- The diagnostic a segment makes behind the text `before`. -/
def diagnostic? (before : List Char) : Segment → Option Diagnostic
  | .openString text =>
      some (errorAt before text { series := "E", number := 2 } "Unterminated string.")
  | .stray c =>
      some (errorAt before [c] { series := "E", number := 1 }
        ("Unexpected character: '" ++ String.singleton c ++ "'."))
  | _ => none

/-- What segments behind the text `before` yield, from left to right. -/
def yields {α : Type} (f : List Char → Segment → Option α) :
    List Char → List Segment → List α
  | _, [] => []
  | before, g :: gs => (f before g).toList ++ yields f (before ++ g.text) gs

theorem yields_append {α : Type} (f : List Char → Segment → Option α)
    (before : List Char) (gs hs : List Segment) :
    yields f before (gs ++ hs)
      = yields f before gs ++ yields f (before ++ textOf gs) hs := by
  induction gs generalizing before with
  | nil => simp [yields]
  | cons g gs ih => simp [yields, ih, List.append_assoc]

theorem yields_eq_nil {α : Type} {f : List Char → Segment → Option α} {gs : List Segment}
    (h : ∀ g ∈ gs, ∀ before, f before g = none) (before : List Char) :
    yields f before gs = [] := by
  induction gs generalizing before with
  | nil => rfl
  | cons g gs ih =>
      rw [yields, h g (List.mem_cons_self ..) before,
        ih fun g' hg' => h g' (List.mem_cons_of_mem _ hg')]
      rfl

def tokens (before : List Char) (gs : List Segment) : List Token :=
  yields token? before gs

def diagnostics (before : List Char) (gs : List Segment) : List Diagnostic :=
  yields diagnostic? before gs

/-- What is yielded comes from one of the segments, in its place. -/
theorem mem_yields {α : Type} {f : List Char → Segment → Option α} {before : List Char}
    {gs : List Segment} {a : α} (h : a ∈ yields f before gs) :
    ∃ front g back, gs = front ++ g :: back ∧ f (before ++ textOf front) g = some a := by
  induction gs generalizing before with
  | nil => cases h
  | cons g gs ih =>
      rcases List.mem_append.mp h with h | h
      · exact ⟨[], g, gs, rfl, by simpa using h⟩
      · obtain ⟨front, g', back, rfl, hf⟩ := ih h
        refine ⟨g :: front, g', back, rfl, ?_⟩
        rwa [textOf_cons, ← List.append_assoc]

/-- The diagnostic of a segment is about that segment's text. -/
theorem span_of_diagnostic? {before : List Char} {g : Segment} {d : Diagnostic}
    (h : g.diagnostic? before = some d) : d.span = Span.covering before g.text := by
  cases g with
  | openString text => cases h; rfl
  | stray c => cases h; rfl
  | _ => cases h

theorem byteLength_le_start {before : List Char} {gs : List Segment} {d : Diagnostic}
    (h : d ∈ diagnostics before gs) : Text.byteLength before ≤ d.span.start := by
  obtain ⟨front, g, back, -, hd⟩ := mem_yields h
  rw [span_of_diagnostic? hd, Span.covering, Text.byteLength_append]
  exact Nat.le_add_right ..

/-- No two diagnostics start at the same place. -/
theorem pairwise_start {gs : List Segment} (h : ∀ g ∈ gs, g.WellFormed)
    (before : List Char) :
    (diagnostics before gs).Pairwise fun d e => d.span.start < e.span.start := by
  induction gs generalizing before with
  | nil => exact List.Pairwise.nil
  | cons g gs ih =>
      refine List.pairwise_append.mpr
        ⟨?_, ih (fun g' hg' => h g' (List.mem_cons_of_mem _ hg')) _, ?_⟩
      · cases g.diagnostic? before with
        | none => exact List.Pairwise.nil
        | some d => exact List.pairwise_singleton ..
      · intro d hd e he
        have hne := ne_nil_of_wellFormed (h g (List.mem_cons_self ..))
        have hpos := Text.byteLength_pos hne
        have hstart := byteLength_le_start he
        rw [Text.byteLength_append] at hstart
        rw [span_of_diagnostic? (by simpa using hd : g.diagnostic? before = some d)]
        show Text.byteLength before < _
        omega

/-- Whether the segment makes a token. -/
def isLexeme : Segment → Bool
  | .lexeme _ _ => true
  | _ => false

/-- The value of a lexeme is the one its token carries. -/
theorem literal_of_isLexeme {kind : Kind} {text : List Char} {value : Option Literal}
    (h : IsLexeme kind text value) : value = Literal.ofLexeme? kind text := by
  cases h with
  | string hq => simp [Literal.ofLexeme?]
  | _ => rfl

end Segment

end LoxScan
