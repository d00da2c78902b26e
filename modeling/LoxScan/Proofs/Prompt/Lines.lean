import Mathlib.Data.List.DropRight
import LoxScan.Proofs.Output.Reports
import LoxScan.Proofs.Scan.Spacing
import LoxScan.Prompt.Line

/-!
# Source at the prompt

A line that is no command is scanned like a file, and the prompt writes
what a report of the same text writes. Only a line that the prompt takes
for blank is not scanned.

The prompt and the scanner do not call the same characters blank. Only
four of the prompt's are blank to the scanner; any other is a stray
character to it, and a file that holds one has an error. So the errors of
prompt and file part exactly where a line of blanks has one that is not
the scanner's.

> `answer_asFile_iff`: prompt and file agree if and only if the line is not
> such a line.
-/

namespace LoxScan

/-! ## Two notions of a blank -/

theorem isBlank_of_isDigit {c : Char} (h : isDigit c = true) : Text.isBlank c = false := by
  rw [Bool.eq_false_iff]
  intro hb
  simp only [isDigit, Text.isBlank, Bool.and_eq_true, Bool.or_eq_true, decide_eq_true_eq,
    beq_iff_eq, Char.le_def, UInt32.le_iff_toNat_le] at h hb
  simp at h
  omega

theorem isBlank_of_isWordStart {c : Char} (h : isWordStart c = true) :
    Text.isBlank c = false := by
  rw [Bool.eq_false_iff]
  intro hb
  simp only [isWordStart, Text.isBlank, Bool.and_eq_true, Bool.or_eq_true, decide_eq_true_eq,
    beq_iff_eq, Char.le_def, UInt32.le_iff_toNat_le] at h hb
  rcases h with (h | h) | rfl
  · simp at h
    omega
  · simp at h
    omega
  · simp at hb

theorem Text.isEmpty_trim_iff {cs : List Char} :
    (trim cs).isEmpty = true ↔ ∀ c ∈ cs, isBlank c = true := by
  have hright : (trim cs).isEmpty = true ↔ ∀ c ∈ cs.dropWhile isBlank, isBlank c = true := by
    rw [List.isEmpty_iff]
    exact List.rdropWhile_eq_nil_iff
  rw [hright]
  constructor
  · intro h c hc
    rw [← List.takeWhile_append_dropWhile (p := isBlank) (l := cs)] at hc
    rcases List.mem_append.mp hc with hc | hc
    · exact List.mem_takeWhile_imp hc
    · exact h c hc
  · intro h c hc
    exact h c ((List.dropWhile_suffix _).subset hc)

/-! ## Blanks in a file -/

namespace Segment

/-- The first character of a lexeme is not blank. -/
theorem exists_not_blank {kind : Kind} {text : List Char} {value : Option Literal}
    (h : IsLexeme kind text value) : ∃ c ∈ text, Text.isBlank c = false := by
  cases h with
  | symbol s => cases s <;> exact ⟨_, List.mem_cons_self .., by decide⟩
  | whole hne hdigits =>
      obtain ⟨d, ds, rfl⟩ := List.exists_cons_of_ne_nil hne
      exact ⟨d, List.mem_cons_self .., isBlank_of_isDigit (hdigits d (List.mem_cons_self ..))⟩
  | fraction hne hdigits =>
      obtain ⟨d, ds, rfl⟩ := List.exists_cons_of_ne_nil hne
      exact ⟨d, List.mem_cons_self .., isBlank_of_isDigit (hdigits d (List.mem_cons_self ..))⟩
  | string _ => exact ⟨'"', List.mem_cons_self .., by decide⟩
  | keyword k =>
      obtain ⟨c, cs, hk, hc, -⟩ := k.spelling_shape
      exact ⟨c, hk ▸ List.mem_cons_self .., isBlank_of_isWordStart hc⟩
  | identifier hc _ _ => exact ⟨_, List.mem_cons_self .., isBlank_of_isWordStart hc⟩

/-- Blanks that make no error are white space. -/
theorem isSpace_of_diagnostic? {g : Segment} {before : List Char} (hg : g.WellFormed)
    (hd : g.diagnostic? before = none) (hb : ∀ c ∈ g.text, Text.isBlank c = true) :
    ∀ c ∈ g.text, isSpace c = true := by
  cases g with
  | space c =>
      intro d hd
      obtain rfl := List.mem_singleton.mp hd
      exact hg
  | comment text =>
      obtain ⟨line, rfl, -⟩ := hg
      exact absurd (hb '/' (List.mem_cons_self ..)) (by decide)
  | lexeme kind text =>
      obtain ⟨value, hg⟩ := hg
      obtain ⟨c, hc, hblank⟩ := exists_not_blank hg
      exact absurd (hb c hc) (by rw [hblank]; exact Bool.false_ne_true)
  | openString text => cases hd
  | stray c => cases hd

theorem diagnostic?_of_mem {before : List Char} {gs : List Segment}
    (h : diagnostics before gs = []) :
    ∀ g ∈ gs, ∃ before, g.diagnostic? before = none := by
  induction gs generalizing before with
  | nil => simp
  | cons g gs ih =>
      obtain ⟨hg, hgs⟩ := List.append_eq_nil_iff.mp h
      refine List.forall_mem_cons.mpr ⟨⟨before, ?_⟩, ih hgs⟩
      simpa using hg

end Segment

/-- A file of blanks has no error if and only if all are white space. -/
theorem diagnostics_eq_nil_iff_of_blank {source : String}
    (hb : ∀ c ∈ source.toList, Text.isBlank c = true) :
    (scan source).diagnostics = [] ↔ ∀ c ∈ source.toList, isSpace c = true := by
  obtain ⟨gs, hseg⟩ := exists_segmented source.toList
  rw [(scan_of_segmented hseg).2]
  constructor
  · intro h c hc
    rw [← hseg.textOf_eq] at hc hb
    obtain ⟨g, hg, hc⟩ := List.mem_flatMap.mp hc
    obtain ⟨before, hd⟩ := Segment.diagnostic?_of_mem h g hg
    have htext : ∀ d ∈ g.text, Text.isBlank d = true :=
      fun d hd => hb d (List.mem_flatMap.mpr ⟨g, hg, hd⟩)
    exact Segment.isSpace_of_diagnostic? (hseg.wellFormed g hg) hd htext c hc
  · intro h
    have hfiller : IsFiller source.toList := by
      generalize source.toList = cs at h
      induction cs with
      | nil => exact .none
      | cons c cs ih =>
          exact .blank (h c (List.mem_cons_self ..))
            (ih fun d hd => h d (List.mem_cons_of_mem _ hd))
    obtain ⟨hs, htrivia, hcut⟩ := hfiller.exists_segmented
    have hseg' := hcut []
    rw [List.append_nil] at hseg'
    obtain rfl := segmented_unique hseg hseg'
    exact diagnostics_of_isTrivia htrivia []

/-! ## A line at the prompt -/

/-- What a line at the prompt comes to: how it ended and what the two
streams hold. -/
structure Answered where
  result : Except Failure LineOutcome
  out : ByteArray
  err : ByteArray

def Streams.answer {σ : Type} [Disk σ] (s : Streams) (format : Format) (color : Bool)
    (line : String) (disk : σ) : Answered :=
  let (effects, outcome) := ((evalLine { format, color } line : OnDisk σ _) disk).1
  let (failure, after) := s.performAll effects
  { result := match failure with
      | some failure => .error failure
      | none => .ok outcome
    out := after.out.taken
    err := after.err.taken }

/-- The prompt writes what a file of this text does. Of a line of white
space the output may be missing. -/
structure Answered.AsFile (a : Answered) (line : String) (r : Reported) : Prop where
  err : a.err = r.err
  out : a.out = r.out ∨ (∀ c ∈ line.toList, isSpace c = true) ∧ a.out = .empty

section

variable {σ : Type} [Disk σ] {line : String} (o : Options) (disk : σ)

theorem evalLine_blank (h : ∀ c ∈ line.toList, Text.isBlank c = true) :
    (evalLine o line : OnDisk σ (List Effect × LineOutcome)) disk = (([], .goOn), disk) := by
  rw [evalLine, if_pos (Text.isEmpty_trim_iff.mpr h)]
  rfl

theorem evalLine_source (h : ¬ ∀ c ∈ line.toList, Text.isBlank c = true)
    (hparse : PromptCommand.parse line.toList = none) :
    (evalLine o line : OnDisk σ (List Effect × LineOutcome)) disk =
      (((reportSource o line).1, .goOn), disk) := by
  rw [evalLine, if_neg fun htrim => h (Text.isEmpty_trim_iff.mp htrim), hparse]
  rfl

end

/-- A line that is no command goes on. If it is blank nothing is written,
else what a report on it writes. So prompt and file agree unless the line
is made of blanks one of which is not white space to the scanner. -/
theorem answer_asFile_iff {σ : Type} [Disk σ] (format : Format) (color : Bool) (line : String)
    (disk : σ) (hparse : PromptCommand.parse line.toList = none) :
    let a := Streams.unlimited.answer format color line disk
    let r := Streams.unlimited.report format color line
    let blank := ∀ c ∈ line.toList, Text.isBlank c = true
    a.result = .ok .goOn
      ∧ (blank → a.out = .empty ∧ a.err = .empty)
      ∧ (¬ blank → a.out = r.out ∧ a.err = r.err)
      ∧ (a.AsFile line r ↔ (blank → ∀ c ∈ line.toList, isSpace c = true)) := by
  intro a r blank
  by_cases hb : blank
  · have ha : a = { result := .ok .goOn, out := .empty, err := .empty } := by
      simp only [a, Streams.answer, evalLine_blank _ disk hb]
      rfl
    have hr : r.err = .empty ↔ ∀ c ∈ line.toList, isSpace c = true := by
      simp only [r, Streams.report_unlimited, errBytes_eq_empty_iff]
      exact diagnostics_eq_nil_iff_of_blank hb
    rw [ha]
    refine ⟨rfl, fun _ => ⟨rfl, rfl⟩, fun h => absurd hb h, ?_⟩
    constructor
    · intro h _
      exact hr.mp h.err.symm
    · intro h
      exact ⟨(hr.mpr (h hb)).symm, Or.inr ⟨h hb, rfl⟩⟩
  · have ha : a = { result := .ok .goOn, out := r.out, err := r.err } := by
      simp only [a, r, Streams.answer, Streams.report, evalLine_source _ disk hb hparse,
        Streams.performAll_unlimited]
    rw [ha]
    exact ⟨rfl, fun h => absurd h hb, fun _ => ⟨rfl, rfl⟩,
      iff_of_true ⟨rfl, Or.inl rfl⟩ fun h => absurd h hb⟩

/-- White space around a stray character: a line that is not blank. -/
theorem answer_asFile_stray :
    let tree : FileTree := { entries := [], workingDirectory := [] }
    PromptCommand.parse "\t@ ".toList = none
      ∧ (Streams.unlimited.answer .json true "\t@ " tree).AsFile "\t@ "
          (Streams.unlimited.report .json true "\t@ ") := by
  intro tree
  have hparse : PromptCommand.parse "\t@ ".toList = none := by decide
  obtain ⟨-, -, -, hfile⟩ := answer_asFile_iff .json true "\t@ " tree hparse
  exact ⟨hparse, hfile.mpr fun h => absurd (h '@' (by decide)) (by decide)⟩

/-- A no-break space alone is an error in a file, and the prompt says
nothing. -/
theorem not_asFile_noBreakSpace :
    let tree : FileTree := { entries := [], workingDirectory := [] }
    let a := Streams.unlimited.answer .text false "\u00A0" tree
    let r := Streams.unlimited.report .text false "\u00A0"
    PromptCommand.parse "\u00A0".toList = none
      ∧ a.err = .empty
      ∧ r.err =
          "[line 1] Error[E0001]: Unexpected character: '\u00A0'.\n  1 | \u00A0\n    | ^\n".toUTF8
      ∧ ¬ a.AsFile "\u00A0" r := by
  intro tree a r
  have hr : r.err =
      "[line 1] Error[E0001]: Unexpected character: '\u00A0'.\n  1 | \u00A0\n    | ^\n".toUTF8 := by
    simp only [r, Streams.report_unlimited]
    decide +kernel
  refine ⟨by decide, rfl, hr, fun h => ?_⟩
  have herr : r.err = .empty := h.err.symm
  rw [hr] at herr
  exact absurd herr (by decide +kernel)

end LoxScan
