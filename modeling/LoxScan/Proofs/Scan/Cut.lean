import LoxScan.Proofs.Scan.Grammar
import LoxScan.Proofs.Text.Runs

/-!
# Where a segment ends

`Segment.first` against the grammar. A segment is cut off at the right
place when two things hold that know nothing of each other: its text is
of its form (`Segment.WellFormed`), and what follows does not go on with
it (`Segment.Ends`). Together they are `Segment.Cuts`, and

> `cuts_first`: `first` cuts, and
> `first_of_cuts`: nothing else does.

`Ends` looks at no more than two characters, and only at what follows;
this is how later modules move a segment from one text into another.
`isNext_iff_cuts` ties it to the grammar, where the longest lexeme is
found by comparison with all others.
-/

namespace LoxScan

/-! ## Characters and symbols -/

theorem isSpace_iff {c : Char} :
    isSpace c = true ↔ c = ' ' ∨ c = '\t' ∨ c = '\r' ∨ c = '\n' := by
  simp only [isSpace, Bool.or_eq_true, beq_iff_eq]
  constructor
  · rintro (((h | h) | h) | h) <;> simp [h]
  · rintro (h | h | h | h) <;> simp [h]

/-- Digits and letters are no white space, and neither class has a
character of the other. -/
theorem isWordStart_of_isDigit {c : Char} (h : isDigit c = true) :
    isWordStart c = false := by
  rw [Bool.eq_false_iff]
  intro hw
  simp only [isDigit, isWordStart, Bool.and_eq_true, Bool.or_eq_true,
    decide_eq_true_eq, beq_iff_eq, Char.le_def, UInt32.le_iff_toNat_le] at h hw
  rcases hw with (hw | hw) | rfl
  · simp at h hw; omega
  · simp at h hw; omega
  · simp at h

theorem isSpace_of_isDigit {c : Char} (h : isDigit c = true) :
    isSpace c = false := by
  rw [Bool.eq_false_iff, Ne, isSpace_iff]
  rintro (rfl | rfl | rfl | rfl) <;> simp [isDigit] at h

theorem isSpace_of_isWordStart {c : Char} (h : isWordStart c = true) :
    isSpace c = false := by
  rw [Bool.eq_false_iff, Ne, isSpace_iff]
  rintro (rfl | rfl | rfl | rfl) <;> simp [isWordStart] at h

namespace Symbol

theorem spelling_shape (s : Symbol) :
    (∃ c, s.spelling = [c]) ∨ ∃ c, s.spelling = [c, '='] := by
  cases s <;> simp [spelling]

theorem single?_eq_some_iff {c : Char} {s : Symbol} :
    single? c = some s ↔ s.spelling = [c] := by
  constructor
  · intro h
    simpa using List.find?_some h
  · intro h
    cases s <;> simp [spelling] at h <;> subst h <;> rfl

theorem withEqual?_eq_some_iff {c : Char} {s : Symbol} :
    withEqual? c = some s ↔ s.spelling = [c, '='] := by
  constructor
  · intro h
    simpa using List.find?_some h
  · intro h
    cases s <;> simp [spelling] at h <;> subst h <;> rfl

/-- No symbol starts like another form of segment. -/
theorem head_spelling {s : Symbol} {c : Char} {cs : List Char}
    (h : s.spelling = c :: cs) :
    isSpace c = false ∧ c ≠ '"' ∧ isDigit c = false ∧ isWordStart c = false := by
  cases s <;> simp only [spelling, List.cons.injEq] at h <;> obtain ⟨rfl, -⟩ := h <;>
    decide

/-- With an equals sign there is a shorter symbol too. -/
theorem exists_single {s : Symbol} {c : Char} (h : s.spelling = [c, '=']) :
    ∃ t : Symbol, t.spelling = [c] := by
  cases s <;>
    simp only [spelling, List.cons.injEq, reduceCtorEq, and_true, and_false] at h
  case bangEqual => exact ⟨.bang, by rw [← h]; rfl⟩
  case equalEqual => exact ⟨.equal, by rw [← h]; rfl⟩
  case greaterOrEqual => exact ⟨.greater, by rw [← h]; rfl⟩
  case lessOrEqual => exact ⟨.less, by rw [← h]; rfl⟩

end Symbol

namespace Keyword

/-- Every reserved word has the form of a word. -/
theorem spelling_shape (k : Keyword) :
    ∃ c cs, k.spelling.toList = c :: cs ∧ isWordStart c = true
      ∧ ∀ d ∈ cs, isWordPart d = true := by
  cases k <;> exact ⟨_, _, rfl, by decide, List.all_eq_true.mp (by decide)⟩

theorem ofSpelling?_eq_some_iff {word : String} {k : Keyword} :
    ofSpelling? word = some k ↔ k.spelling = word := by
  constructor
  · intro h
    simpa using List.find?_some h
  · rintro rfl
    cases k <;> rfl

end Keyword

namespace Segment

/-! ## The branches of `first` -/

theorem first_of_isSpace {c : Char} (cs : List Char) (h : isSpace c = true) :
    first c cs = space c := by
  rw [first, if_pos h]

theorem first_slashes (cs : List Char) :
    first '/' ('/' :: cs) = comment ('/' :: '/' :: cs.takeWhile (· ≠ '\n')) := by
  rfl

theorem first_quote (cs : List Char) : first '"' cs = string cs := by
  simp [first, isSpace]

theorem first_of_isDigit {c : Char} (cs : List Char) (h : isDigit c = true) :
    first c cs = lexeme .number (numeral c cs) := by
  have hs : c ≠ '/' := by rintro rfl; simp [isDigit] at h
  have hq : c ≠ '"' := by rintro rfl; simp [isDigit] at h
  simp [first, isSpace_of_isDigit h, hs, hq, h]

theorem first_of_isWordStart {c : Char} (cs : List Char) (h : isWordStart c = true) :
    first c cs = lexeme (Kind.ofWord (String.ofList (c :: cs.takeWhile isWordPart)))
      (c :: cs.takeWhile isWordPart) := by
  have hs : c ≠ '/' := by rintro rfl; simp [isWordStart] at h
  have hq : c ≠ '"' := by rintro rfl; simp [isWordStart] at h
  have hd : isDigit c = false := by
    rw [Bool.eq_false_iff]
    intro hd
    rw [isWordStart_of_isDigit hd] at h
    cases h
  simp [first, isSpace_of_isWordStart h, hs, hq, hd, h]

theorem first_of_other {c : Char} {cs : List Char} (hs : isSpace c = false)
    (hc : ¬(c = '/' ∧ cs.head? = some '/')) (hq : c ≠ '"') (hd : isDigit c = false)
    (hw : isWordStart c = false) : first c cs = symbol c cs := by
  simp [first, hs, hc, hq, hd, hw]

/-! ## Form and end of a segment -/

/-- The text of the segment is of its form. -/
def WellFormed : Segment → Prop
  | space c => isSpace c = true
  | comment text => ∃ line, text = '/' :: '/' :: line ∧ '\n' ∉ line
  | lexeme kind text => ∃ value, IsLexeme kind text value
  | openString text => ∃ body, text = '"' :: body ∧ '"' ∉ body
  | stray c =>
      isSpace c = false ∧ c ≠ '"' ∧ isDigit c = false ∧ isWordStart c = false
        ∧ Symbol.single? c = none

/-- What follows does not go on with the segment. -/
def Ends : Segment → List Char → Prop
  | space _, _ => True
  | comment _, after => ∀ c ∈ after.head?, c = '\n'
  | lexeme (.symbol s) _, after =>
      (s = .slash → after.head? ≠ some '/')
        ∧ ∀ t : Symbol, t.spelling = s.spelling ++ ['='] → after.head? ≠ some '='
  | lexeme .number text, after =>
      (∀ c ∈ after.head?, isDigit c = false)
        ∧ ('.' ∉ text → ∀ d rest, after = '.' :: d :: rest → isDigit d = false)
  | lexeme .identifier _, after => ∀ c ∈ after.head?, isWordPart c = false
  | lexeme (.keyword _) _, after => ∀ c ∈ after.head?, isWordPart c = false
  | lexeme .string _, _ => True
  | lexeme .eof _, _ => True
  | openString _, after => after = []
  | stray _, _ => True

theorem ends_nil (kind : Kind) (text : List Char) : (lexeme kind text).Ends [] := by
  cases kind <;> simp [Ends]

/-- `cs` is the text of the segment and `after`, and cut where the
segment ends. -/
def Cuts (g : Segment) (cs after : List Char) : Prop :=
  cs = g.text ++ after ∧ g.WellFormed ∧ g.Ends after

/-! ## `first` cuts -/

theorem cuts_comment (cs : List Char) :
    (comment ('/' :: '/' :: cs.takeWhile (· ≠ '\n'))).Cuts ('/' :: '/' :: cs)
      (cs.dropWhile (· ≠ '\n')) := by
  refine ⟨?_, ⟨_, rfl, notMem_takeWhile_ne⟩, ?_⟩
  · simp only [text, List.cons_append, List.takeWhile_append_dropWhile]
  · intro c hc
    simpa using head_dropWhile c hc

theorem cuts_string (cs : List Char) :
    ∃ after, (string cs).Cuts ('"' :: cs) after := by
  have hq : '"' ∉ cs.takeWhile (· ≠ '"') := notMem_takeWhile_ne
  have hcs : cs.takeWhile (· ≠ '"') ++ cs.dropWhile (· ≠ '"') = cs :=
    List.takeWhile_append_dropWhile
  simp only [string]
  split
  · rename_i hd
    refine ⟨[], ?_, ⟨_, rfl, hq⟩, rfl⟩
    rw [hd, List.append_nil] at hcs
    simp only [text, hcs, List.append_nil]
  · rename_i q after hd
    obtain rfl : q = '"' := by
      simpa using head_dropWhile (p := (· ≠ '"')) q (by rw [hd]; rfl)
    refine ⟨after, ?_, ⟨_, .string hq⟩, trivial⟩
    rw [hd] at hcs
    simp only [text, List.cons_append, List.append_assoc, List.nil_append, hcs]

theorem cuts_number {c : Char} (cs : List Char) (hc : isDigit c = true) :
    ∃ after, (lexeme .number (numeral c cs)).Cuts (c :: cs) after := by
  have hw : ∀ d ∈ c :: cs.takeWhile isDigit, isDigit d = true := by
    intro d hd
    rcases List.mem_cons.mp hd with rfl | hd
    · exact hc
    · exact List.mem_takeWhile_imp hd
  have hcs := run_append_dropWhile isDigit c cs
  have hpoint : '.' ∉ c :: cs.takeWhile isDigit := fun h => by
    have := hw '.' h
    simp [isDigit] at this
  -- digits alone, with a rest that does not go on with a fraction
  have alone
      (hrest : ∀ d rest, cs.dropWhile isDigit = '.' :: d :: rest → isDigit d = false) :
      (lexeme .number (c :: cs.takeWhile isDigit)).Cuts (c :: cs)
        (cs.dropWhile isDigit) :=
    ⟨hcs, ⟨_, .whole (by simp) hw⟩, head_dropWhile, fun _ => hrest⟩
  simp only [numeral]
  split
  · rename_i d rest hd
    split
    · rename_i hdd
      refine ⟨rest.dropWhile isDigit, ?_, ⟨_, .fraction (by simp) hw (by simp) ?_⟩,
        head_dropWhile, fun h => absurd (by simp) h⟩
      · rw [hcs, hd]
        simp [text]
      · intro e he
        rcases List.mem_cons.mp he with rfl | he
        · exact hdd
        · exact List.mem_takeWhile_imp he
    · rename_i hdd
      refine ⟨_, alone ?_⟩
      intro e rest' he
      rw [hd] at he
      obtain ⟨rfl, -⟩ : d = e ∧ rest = rest' := by simpa using he
      simpa using hdd
  · rename_i hno
    exact ⟨_, alone fun d rest hd => absurd hd (hno d rest)⟩

/-- A word is reserved or not, by its spelling alone. -/
theorem isLexeme_ofWord {c : Char} {cs : List Char} (hc : isWordStart c = true)
    (hcs : ∀ d ∈ cs, isWordPart d = true) :
    IsLexeme (Kind.ofWord (String.ofList (c :: cs))) (c :: cs) none := by
  unfold Kind.ofWord
  cases hk : Keyword.ofSpelling? (String.ofList (c :: cs)) with
  | some k =>
      have hs : k.spelling.toList = c :: cs := by
        rw [Keyword.ofSpelling?_eq_some_iff.mp hk, String.toList_ofList]
      rw [← hs]
      exact .keyword k
  | none =>
      refine .identifier hc hcs fun k hs => ?_
      rw [← hs, String.ofList_toList, Keyword.ofSpelling?_eq_some_iff.mpr rfl] at hk
      cases hk

theorem cuts_word {c : Char} (cs : List Char) (hc : isWordStart c = true) :
    (lexeme (Kind.ofWord (String.ofList (c :: cs.takeWhile isWordPart)))
      (c :: cs.takeWhile isWordPart)).Cuts (c :: cs) (cs.dropWhile isWordPart) := by
  refine ⟨run_append_dropWhile isWordPart c cs,
    ⟨_, isLexeme_ofWord hc fun d hd => List.mem_takeWhile_imp hd⟩, ?_⟩
  unfold Kind.ofWord
  cases Keyword.ofSpelling? (String.ofList (c :: cs.takeWhile isWordPart)) with
  | some k => exact head_dropWhile
  | none => exact head_dropWhile

/-- Of two symbols that fit the longer one is taken, and what is no
symbol is stray. -/
theorem symbol_cases (c : Char) (cs : List Char) :
    (∃ s : Symbol, s.spelling = [c, '='] ∧ cs.head? = some '='
        ∧ symbol c cs = lexeme (.symbol s) [c, '='])
      ∨ (∃ s : Symbol, s.spelling = [c]
        ∧ (∀ t : Symbol, t.spelling = [c, '='] → cs.head? ≠ some '=')
        ∧ symbol c cs = lexeme (.symbol s) [c])
      ∨ (Symbol.single? c = none ∧ symbol c cs = stray c) := by
  by_cases hcs : cs.head? = some '='
  · cases hl : Symbol.withEqual? c with
    | some s =>
        exact Or.inl ⟨s, Symbol.withEqual?_eq_some_iff.mp hl, hcs,
          by simp [symbol, hcs, hl]⟩
    | none =>
        have hno : ∀ t : Symbol, t.spelling = [c, '='] → cs.head? ≠ some '=' := by
          intro t ht
          rw [Symbol.withEqual?_eq_some_iff.mpr ht] at hl
          cases hl
        cases hs : Symbol.single? c with
        | some s =>
            exact Or.inr (Or.inl ⟨s, Symbol.single?_eq_some_iff.mp hs, hno,
              by simp [symbol, hl, hs]⟩)
        | none => exact Or.inr (Or.inr ⟨rfl, by simp [symbol, hl, hs]⟩)
  · cases hs : Symbol.single? c with
    | some s =>
        exact Or.inr (Or.inl ⟨s, Symbol.single?_eq_some_iff.mp hs, fun _ _ => hcs,
          by simp [symbol, hcs, hs]⟩)
    | none => exact Or.inr (Or.inr ⟨rfl, by simp [symbol, hcs, hs]⟩)

theorem cuts_symbol {c : Char} {cs : List Char} (hs : isSpace c = false)
    (hc : ¬(c = '/' ∧ cs.head? = some '/')) (hq : c ≠ '"') (hd : isDigit c = false)
    (hw : isWordStart c = false) : ∃ after, (symbol c cs).Cuts (c :: cs) after := by
  rcases symbol_cases c cs with ⟨s, hsp, hcs, heq⟩ | ⟨s, hsp, hno, heq⟩ | ⟨hno, heq⟩
  · cases cs with
    | nil => cases hcs
    | cons d after =>
        obtain rfl : d = '=' := by simpa using hcs
        rw [heq]
        refine ⟨after, rfl, ⟨none, hsp ▸ .symbol s⟩, ?_, ?_⟩
        · rintro rfl
          simp [Symbol.spelling] at hsp
        · intro t ht
          rcases t.spelling_shape with ⟨_, h⟩ | ⟨_, h⟩ <;> simp [h, hsp] at ht
  · rw [heq]
    refine ⟨cs, rfl, ⟨none, hsp ▸ .symbol s⟩, ?_, ?_⟩
    · rintro rfl hcs
      exact hc ⟨by simpa [Symbol.spelling] using hsp.symm, hcs⟩
    · intro t ht
      exact hno t (by rw [ht, hsp]; rfl)
  · rw [heq]
    exact ⟨cs, rfl, ⟨hs, hq, hd, hw, hno⟩, trivial⟩

/-- The first segment is cut off where it ends. -/
theorem cuts_first (c : Char) (cs : List Char) :
    ∃ after, (first c cs).Cuts (c :: cs) after := by
  by_cases hs : isSpace c = true
  · rw [first_of_isSpace cs hs]
    exact ⟨cs, rfl, hs, trivial⟩
  · by_cases hc : c = '/' ∧ cs.head? = some '/'
    · obtain ⟨rfl, hcs⟩ := hc
      cases cs with
      | nil => cases hcs
      | cons d cs =>
          obtain rfl : d = '/' := by simpa using hcs
          exact ⟨_, cuts_comment cs⟩
    · by_cases hq : c = '"'
      · subst hq
        rw [first_quote]
        exact cuts_string cs
      · by_cases hd : isDigit c = true
        · rw [first_of_isDigit cs hd]
          exact cuts_number cs hd
        · by_cases hw : isWordStart c = true
          · rw [first_of_isWordStart cs hw]
            exact ⟨_, cuts_word cs hw⟩
          · rw [Bool.not_eq_true] at hs hd hw
            rw [first_of_other hs hc hq hd hw]
            exact cuts_symbol hs hc hq hd hw

/-! ## Only `first` cuts -/

theorem first_of_cuts_symbol {s : Symbol} {c : Char} {cs after : List Char}
    (hcs : c :: cs = s.spelling ++ after)
    (he : (lexeme (.symbol s) s.spelling).Ends after) :
    first c cs = lexeme (.symbol s) s.spelling := by
  obtain ⟨hslash, hequal⟩ := he
  rcases s.spelling_shape with ⟨d, hsp⟩ | ⟨d, hsp⟩
  · rw [hsp] at hcs
    obtain ⟨rfl, rfl⟩ : c = d ∧ cs = after := by simpa using hcs
    obtain ⟨hs, hq, hd, hw⟩ := Symbol.head_spelling hsp
    have hc : ¬(c = '/' ∧ cs.head? = some '/') := by
      rintro ⟨rfl, hhead⟩
      have h := Symbol.single?_eq_some_iff.mpr hsp
      rw [show Symbol.single? '/' = some .slash from rfl] at h
      exact hslash (Option.some.inj h).symm hhead
    rw [first_of_other hs hc hq hd hw, hsp]
    rcases symbol_cases c cs with ⟨t, ht, hcs, -⟩ | ⟨t, ht, -, heq⟩ | ⟨hno, -⟩
    · exact absurd hcs (hequal t (by rw [ht, hsp]; rfl))
    · rw [heq]
      rw [← Symbol.single?_eq_some_iff] at ht hsp
      rw [Option.some.inj (ht.symm.trans hsp)]
    · rw [Symbol.single?_eq_some_iff.mpr hsp] at hno
      cases hno
  · rw [hsp] at hcs
    obtain ⟨rfl, rfl⟩ : c = d ∧ cs = '=' :: after := by simpa using hcs
    obtain ⟨hs, hq, hd, hw⟩ := Symbol.head_spelling hsp
    rw [first_of_other hs (by simp) hq hd hw, hsp]
    simp [symbol, Symbol.withEqual?_eq_some_iff.mpr hsp]

theorem first_of_cuts_whole {c : Char} {cs digits after : List Char}
    (hcs : c :: cs = digits ++ after) (hne : digits ≠ [])
    (hd : ∀ d ∈ digits, isDigit d = true)
    (he : (lexeme .number digits).Ends after) :
    first c cs = lexeme .number digits := by
  cases digits with
  | nil => exact absurd rfl hne
  | cons d digits =>
      obtain ⟨rfl, rfl⟩ : c = d ∧ cs = digits ++ after := by simpa using hcs
      have hds : ∀ e ∈ digits, isDigit e = true :=
        fun e h => hd e (List.mem_cons_of_mem _ h)
      have hpoint : '.' ∉ c :: digits := fun h => by
        have := hd '.' h
        simp [isDigit] at this
      obtain ⟨hstop, hfrac⟩ := he
      rw [first_of_isDigit _ (hd c (List.mem_cons_self ..))]
      simp only [numeral, takeWhile_run hds hstop, dropWhile_run hds hstop]
      split
      · rename_i e rest
        rw [if_neg (by simp [hfrac hpoint e rest rfl])]
      · rfl

theorem first_of_cuts_fraction {c : Char} {cs whole part after : List Char}
    (hcs : c :: cs = whole ++ '.' :: part ++ after) (hwne : whole ≠ [])
    (hw : ∀ d ∈ whole, isDigit d = true) (hpne : part ≠ [])
    (hp : ∀ d ∈ part, isDigit d = true)
    (he : (lexeme .number (whole ++ '.' :: part)).Ends after) :
    first c cs = lexeme .number (whole ++ '.' :: part) := by
  cases whole with
  | nil => exact absurd rfl hwne
  | cons d whole =>
      cases part with
      | nil => exact absurd rfl hpne
      | cons e part =>
          obtain ⟨rfl, rfl⟩ : c = d ∧ cs = whole ++ '.' :: e :: (part ++ after) := by
            simpa using hcs
          have hws : ∀ x ∈ whole, isDigit x = true :=
            fun x h => hw x (List.mem_cons_of_mem _ h)
          have hps : ∀ x ∈ part, isDigit x = true :=
            fun x h => hp x (List.mem_cons_of_mem _ h)
          have hpoint :
              ∀ x ∈ ('.' :: e :: (part ++ after)).head?, isDigit x = false := by
            simp [isDigit]
          rw [first_of_isDigit _ (hw c (List.mem_cons_self ..))]
          simp only [numeral, takeWhile_run hws hpoint, dropWhile_run hws hpoint,
            hp e (List.mem_cons_self ..), if_true, takeWhile_run hps he.1, List.cons_append]

theorem first_of_cuts_string {c : Char} {cs body after : List Char}
    (hcs : c :: cs = '"' :: (body ++ ['"']) ++ after) (hq : '"' ∉ body) :
    first c cs = lexeme .string ('"' :: (body ++ ['"'])) := by
  obtain ⟨rfl, rfl⟩ : c = '"' ∧ cs = body ++ '"' :: after := by simpa using hcs
  have hb : ∀ d ∈ body, decide (d ≠ '"') = true := by
    intro d hd
    rw [decide_eq_true_eq]
    rintro rfl
    exact hq hd
  rw [first_quote]
  simp only [string]
  rw [takeWhile_run hb (by simp), dropWhile_run hb (by simp)]

theorem first_of_cuts_word {c : Char} {cs run after : List Char}
    (hcs : cs = run ++ after) (hc : isWordStart c = true)
    (hr : ∀ d ∈ run, isWordPart d = true) (he : ∀ d ∈ after.head?, isWordPart d = false) :
    first c cs = lexeme (Kind.ofWord (String.ofList (c :: run))) (c :: run) := by
  subst hcs
  rw [first_of_isWordStart _ hc, takeWhile_run hr he]

theorem first_of_cuts_lexeme {kind : Kind} {text : List Char} {value : Option Literal}
    (h : IsLexeme kind text value) {c : Char} {cs after : List Char}
    (hcs : c :: cs = text ++ after) (he : (lexeme kind text).Ends after) :
    first c cs = lexeme kind text := by
  cases h with
  | symbol s => exact first_of_cuts_symbol hcs he
  | whole hne hd => exact first_of_cuts_whole hcs hne hd he
  | fraction hwne hw hpne hp => exact first_of_cuts_fraction hcs hwne hw hpne hp he
  | string hq => exact first_of_cuts_string hcs hq
  | keyword k =>
      obtain ⟨d, run, hsp, hd, hr⟩ := k.spelling_shape
      rw [hsp] at hcs ⊢
      obtain ⟨rfl, htail⟩ : c = d ∧ cs = run ++ after := by simpa using hcs
      rw [first_of_cuts_word htail hd hr he, ← hsp, String.ofList_toList, Kind.ofWord,
        Keyword.ofSpelling?_eq_some_iff.mpr rfl]
  | @identifier d run hd hr hno =>
      obtain ⟨rfl, htail⟩ : c = d ∧ cs = run ++ after := by simpa using hcs
      have hk : Keyword.ofSpelling? (String.ofList (c :: run)) = none := by
        rw [Option.eq_none_iff_forall_ne_some]
        intro k hk
        exact hno k (by rw [Keyword.ofSpelling?_eq_some_iff.mp hk, String.toList_ofList])
      rw [first_of_cuts_word htail hd hr he, Kind.ofWord, hk]

/-- A segment that ends where it is cut off is the first one. -/
theorem first_of_cuts {g : Segment} {c : Char} {cs after : List Char}
    (h : g.Cuts (c :: cs) after) : first c cs = g := by
  obtain ⟨hcs, hform, hend⟩ := h
  cases g with
  | space d =>
      obtain ⟨rfl, -⟩ : c = d ∧ cs = after := by simpa [text] using hcs
      exact first_of_isSpace cs hform
  | comment text =>
      obtain ⟨line, rfl, hline⟩ := hform
      obtain ⟨rfl, rfl⟩ : c = '/' ∧ cs = '/' :: (line ++ after) := by
        simpa [Segment.text] using hcs
      have hl : ∀ d ∈ line, decide (d ≠ '\n') = true := by
        intro d hd
        rw [decide_eq_true_eq]
        rintro rfl
        exact hline hd
      have hstop : ∀ d ∈ after.head?, decide (d ≠ '\n') = false := by
        intro d hd
        simp [hend d hd]
      rw [first_slashes, takeWhile_run hl hstop]
  | lexeme kind text =>
      obtain ⟨value, hform⟩ := hform
      exact first_of_cuts_lexeme hform hcs hend
  | openString text =>
      obtain ⟨body, rfl, hq⟩ := hform
      obtain rfl : after = [] := hend
      obtain ⟨rfl, rfl⟩ : c = '"' ∧ cs = body := by simpa [Segment.text] using hcs
      have hb : ∀ d ∈ cs, decide (d ≠ '"') = true := by
        intro d hd
        rw [decide_eq_true_eq]
        rintro rfl
        exact hq hd
      rw [first_quote, string, List.dropWhile_eq_nil_iff.mpr hb,
        List.takeWhile_eq_self_iff.mpr hb]
  | stray d =>
      obtain ⟨rfl, -⟩ : c = d ∧ cs = after := by simpa [text] using hcs
      obtain ⟨hs, hq, hd, hw, hno⟩ := hform
      have hc : ¬(c = '/' ∧ cs.head? = some '/') := by
        rintro ⟨rfl, -⟩
        cases hno
      rw [first_of_other hs hc hq hd hw]
      rcases symbol_cases c cs with ⟨s, hsp, -, -⟩ | ⟨s, hsp, -, -⟩ | ⟨-, heq⟩
      · obtain ⟨t, ht⟩ := Symbol.exists_single hsp
        rw [Symbol.single?_eq_some_iff.mpr ht] at hno
        cases hno
      · rw [Symbol.single?_eq_some_iff.mpr hsp] at hno
        cases hno
      · exact heq

end Segment

end LoxScan
