import LoxScan.Proofs.Scan.Cut

/-!
# The next segment

`Segment.first` is the grammar: it gives the one segment that is
`Segment.IsNext`. Two facts about the grammar are behind it. A lexeme at
the front of a text is never longer than what `first` cuts off
(`first_of_isLexeme_append`), so `first` is longest among all kinds and
not only among its own. And of one form there is at most one segment
that fits (`fits_unique`), so the order of forms decides the rest.

`isNext_iff_cuts` restates the choice as a local condition, the form in
which it is used from here on.
-/

namespace LoxScan

namespace Segment

/-! ## No lexeme is longer -/

theorem le_length_takeWhile {p : Char → Bool} {run : List Char}
    (hr : ∀ c ∈ run, p c = true) (after : List Char) :
    run.length ≤ ((run ++ after).takeWhile p).length := by
  rw [List.takeWhile_append_of_pos hr, List.length_append]
  exact Nat.le_add_right ..

theorem length_numeral_whole {c : Char} {run : List Char}
    (hr : ∀ d ∈ run, isDigit d = true) (after : List Char) :
    (c :: run).length ≤ (numeral c (run ++ after)).length := by
  have h := le_length_takeWhile hr after
  simp only [numeral]
  split
  · split
    · simp only [List.length_cons, List.length_append]
      omega
    · simpa using h
  · simpa using h

theorem length_numeral_fraction {c d : Char} {run part : List Char}
    (hr : ∀ x ∈ run, isDigit x = true) (hd : isDigit d = true)
    (hp : ∀ x ∈ part, isDigit x = true) (after : List Char) :
    (c :: run ++ '.' :: d :: part).length
      ≤ (numeral c (run ++ '.' :: d :: part ++ after)).length := by
  have hpoint : ∀ x ∈ ('.' :: d :: (part ++ after)).head?, isDigit x = false := by
    simp [isDigit]
  have h := le_length_takeWhile hp after
  simp only [numeral, List.append_assoc, List.cons_append, takeWhile_run hr hpoint,
    dropWhile_run hr hpoint, hd, if_true]
  simp only [List.length_cons, List.length_append]
  omega

/-- Where a text starts with a lexeme, a lexeme at least as long is cut
off, or it is a comment. -/
theorem first_of_isLexeme_append {kind : Kind} {c : Char} {cs : List Char}
    {value : Option Literal} (h : IsLexeme kind (c :: cs) value) (after : List Char) :
    (c = '/' ∧ (cs ++ after).head? = some '/')
      ∨ ∃ kind' text, first c (cs ++ after) = lexeme kind' text
          ∧ (c :: cs).length ≤ text.length := by
  generalize ht : c :: cs = text' at h
  cases h with
  | symbol s =>
      obtain ⟨hs, hq, hd, hw⟩ := Symbol.head_spelling ht.symm
      by_cases hc : c = '/' ∧ (cs ++ after).head? = some '/'
      · exact Or.inl hc
      · right
        rw [first_of_other hs hc hq hd hw]
        rcases symbol_cases c (cs ++ after) with
          ⟨t, -, -, heq⟩ | ⟨t, hsp, hno, heq⟩ | ⟨hno, -⟩
        · refine ⟨_, _, heq, ?_⟩
          rcases s.spelling_shape with ⟨d, h⟩ | ⟨d, h⟩ <;> simp [h]
        · refine ⟨_, _, heq, ?_⟩
          rcases s.spelling_shape with ⟨d, h⟩ | ⟨d, h⟩
          · simp [h]
          · obtain ⟨rfl, rfl⟩ : c = d ∧ cs = ['='] := by simpa [h] using ht
            exact absurd rfl (hno s h)
        · rcases s.spelling_shape with ⟨d, h⟩ | ⟨d, h⟩
          · obtain ⟨rfl, rfl⟩ : c = d ∧ cs = [] := by simpa [h] using ht
            rw [Symbol.single?_eq_some_iff.mpr h] at hno
            cases hno
          · obtain ⟨rfl, rfl⟩ : c = d ∧ cs = ['='] := by simpa [h] using ht
            obtain ⟨t, ht⟩ := Symbol.exists_single h
            rw [Symbol.single?_eq_some_iff.mpr ht] at hno
            cases hno
  | whole hne hd =>
      subst ht
      rw [first_of_isDigit _ (hd c (List.mem_cons_self ..))]
      exact Or.inr ⟨_, _, rfl,
        length_numeral_whole (fun d h => hd d (List.mem_cons_of_mem _ h)) after⟩
  | @fraction whole part hwne hw hpne hp =>
      cases whole with
      | nil => exact absurd rfl hwne
      | cons d whole =>
          cases part with
          | nil => exact absurd rfl hpne
          | cons e part =>
              obtain ⟨rfl, rfl⟩ : c = d ∧ cs = whole ++ '.' :: e :: part := by
                simpa using ht
              rw [first_of_isDigit _ (hw c (List.mem_cons_self ..))]
              exact Or.inr ⟨_, _, rfl,
                length_numeral_fraction (fun x h => hw x (List.mem_cons_of_mem _ h))
                  (hp e (List.mem_cons_self ..))
                  (fun x h => hp x (List.mem_cons_of_mem _ h)) after⟩
  | string hq =>
      have hcs := congrArg (· ++ after) ht
      exact Or.inr ⟨_, _, first_of_cuts_string hcs hq, Nat.le_refl _⟩
  | keyword k =>
      obtain ⟨d, run, hsp, hd, hr⟩ := k.spelling_shape
      obtain ⟨rfl, rfl⟩ : c = d ∧ cs = run := by simpa [hsp] using ht
      rw [first_of_isWordStart _ hd]
      exact Or.inr ⟨_, _, rfl, by simpa [hsp] using le_length_takeWhile hr after⟩
  | @identifier d run hd hr hno =>
      obtain ⟨rfl, rfl⟩ : c = d ∧ cs = run := by simpa using ht
      rw [first_of_isWordStart _ hd]
      exact Or.inr ⟨_, _, rfl, by simpa using le_length_takeWhile hr after⟩

theorem ne_nil_of_isLexeme {kind : Kind} {text : List Char} {value : Option Literal}
    (h : IsLexeme kind text value) : text ≠ [] := by
  cases h with
  | symbol s => rcases s.spelling_shape with ⟨d, h⟩ | ⟨d, h⟩ <;> simp [h]
  | whole hne hd => exact hne
  | fraction hwne hw hpne hp => simp
  | string hq => simp
  | keyword k =>
      obtain ⟨d, run, hsp, -, -⟩ := k.spelling_shape
      simp [hsp]
  | identifier hd hr hno => simp

/-! ## `first` fits -/

/-- What the two conditions of a comment say of the text ahead. -/
theorem first_of_slashes {c : Char} {cs : List Char}
    (hc : c = '/' ∧ cs.head? = some '/') : ∃ line, first c cs = comment line := by
  obtain ⟨rfl, hcs⟩ := hc
  cases cs with
  | nil => cases hcs
  | cons d cs =>
      obtain rfl : d = '/' := by simpa using hcs
      exact ⟨_, first_slashes cs⟩

/-- A lexeme that is cut off is the longest at the front of the text. -/
theorem isLongest_first {c : Char} {cs : List Char} {kind : Kind} {text : List Char}
    (h : first c cs = lexeme kind text) : IsLongest (c :: cs) kind text := by
  obtain ⟨after, hcs, hform, -⟩ := cuts_first c cs
  rw [h] at hcs hform
  refine ⟨hform, ⟨after, hcs.symm⟩, ?_⟩
  rintro kind' text' value' hl ⟨after', hpre⟩
  cases text' with
  | nil => exact Nat.zero_le _
  | cons d text' =>
      obtain ⟨rfl, rfl⟩ : d = c ∧ text' ++ after' = cs := by simpa using hpre
      rcases first_of_isLexeme_append hl after' with hc | ⟨k, t, heq, hlen⟩
      · obtain ⟨line, heq⟩ := first_of_slashes hc
        rw [h] at heq
        cases heq
      · rw [h] at heq
        cases heq
        exact hlen

theorem fits_first (c : Char) (cs : List Char) : Fits (c :: cs) (first c cs) := by
  obtain ⟨after, hcs, hform, hend⟩ := cuts_first c cs
  cases hg : first c cs with
  | space d =>
      rw [hg] at hcs hform
      obtain ⟨rfl, -⟩ : c = d ∧ cs = after := by simpa [text] using hcs
      exact .space (by simpa using isSpace_iff.mp hform)
  | comment text =>
      rw [hg] at hcs hform hend
      obtain ⟨line, rfl, hline⟩ := hform
      rw [hcs]
      exact .comment hline hend
  | lexeme kind text => exact .lexeme (isLongest_first hg)
  | openString text =>
      rw [hg] at hcs hform hend
      obtain ⟨body, rfl, hq⟩ := hform
      obtain rfl : after = [] := hend
      rw [hcs, List.append_nil]
      exact .openString hq
  | stray d =>
      rw [hg] at hcs
      obtain ⟨rfl, -⟩ : c = d ∧ cs = after := by simpa [text] using hcs
      exact .stray

/-- No form that fits comes before that of `first`. -/
theorem rank_first_le {c : Char} {cs : List Char} {g : Segment} (h : Fits (c :: cs) g) :
    (first c cs).rank ≤ g.rank := by
  cases h with
  | space hc =>
      rw [first_of_isSpace cs (isSpace_iff.mpr (by simpa using hc))]
  | comment hline hend => exact Nat.le_refl _
  | @lexeme _ kind text hl =>
      obtain ⟨⟨value, hform⟩, ⟨after, hpre⟩, -⟩ := hl
      cases text with
      | nil => exact absurd rfl (ne_nil_of_isLexeme hform)
      | cons d text =>
          obtain ⟨rfl, rfl⟩ : d = c ∧ text ++ after = cs := by simpa using hpre
          rcases first_of_isLexeme_append hform after with hc | ⟨k, t, heq, -⟩
          · obtain ⟨line, heq⟩ := first_of_slashes hc
            rw [heq]
            exact Nat.le_succ _
          · rw [heq]
            exact Nat.le_refl _
  | openString hq =>
      have hcut : (openString ('"' :: cs)).Cuts ('"' :: cs) [] :=
        ⟨(List.append_nil _).symm, ⟨cs, rfl, hq⟩, rfl⟩
      rw [first_of_cuts hcut]
  | stray =>
      cases first c cs <;> simp [rank]

theorem isNext_first (c : Char) (cs : List Char) : (first c cs).IsNext (c :: cs) :=
  ⟨fits_first c cs, fun _ h => rank_first_le h⟩

/-! ## Nothing else is next -/

/-- The kind of a lexeme is that of its text cut off alone. -/
theorem kind_unique {kind kind' : Kind} {text : List Char} {value value' : Option Literal}
    (h : IsLexeme kind text value) (h' : IsLexeme kind' text value') : kind = kind' := by
  cases text with
  | nil => exact absurd rfl (ne_nil_of_isLexeme h)
  | cons c cs =>
      have hcs : c :: cs = c :: cs ++ [] := (List.append_nil _).symm
      have h1 := first_of_cuts_lexeme h hcs (ends_nil ..)
      have h2 := first_of_cuts_lexeme h' hcs (ends_nil ..)
      rw [h1] at h2
      exact (Segment.lexeme.inj h2).1

theorem isLongest_unique {cs text text' : List Char} {kind kind' : Kind}
    (h : IsLongest cs kind text) (h' : IsLongest cs kind' text') :
    kind = kind' ∧ text = text' := by
  obtain ⟨⟨value, hform⟩, hpre, hmax⟩ := h
  obtain ⟨⟨value', hform'⟩, hpre', hmax'⟩ := h'
  have hlen : text.length = text'.length :=
    Nat.le_antisymm (hmax' _ _ _ hform hpre) (hmax _ _ _ hform' hpre')
  have htext : text = text' :=
    (List.prefix_of_prefix_length_le hpre hpre' hlen.le).eq_of_length hlen
  subst htext
  exact ⟨kind_unique hform hform', rfl⟩

/-- A comment that fits runs to the end of its line. -/
theorem comment_of_fits {cs text : List Char} (h : Fits cs (.comment text)) :
    text = cs.takeWhile (· ≠ '\n') := by
  generalize hg : comment text = g at h
  cases h with
  | @comment line after hline hend =>
      have hl : ∀ d ∈ '/' :: '/' :: line, decide (d ≠ '\n') = true := by
        intro d hd
        rw [decide_eq_true_eq]
        rintro rfl
        simp [hline] at hd
      have hstop : ∀ d ∈ after.head?, decide (d ≠ '\n') = false := by
        intro d hd
        simp [hend d hd]
      have := takeWhile_run hl hstop
      rw [Segment.comment.inj hg]
      exact this.symm
  | space => cases hg
  | lexeme => cases hg
  | openString => cases hg
  | stray => cases hg

/-- Of one form no two segments fit. -/
theorem fits_unique {cs : List Char} {g g' : Segment} (h : Fits cs g) (h' : Fits cs g')
    (hr : g.rank = g'.rank) : g = g' := by
  cases g with
  | space c =>
      cases g' with
      | space c' => cases h; cases h'; rfl
      | _ => cases hr
  | comment text =>
      cases g' with
      | comment text' => rw [comment_of_fits h, comment_of_fits h']
      | _ => cases hr
  | lexeme kind text =>
      cases g' with
      | lexeme kind' text' =>
          cases h with
          | lexeme h =>
              cases h' with
              | lexeme h' =>
                  obtain ⟨rfl, rfl⟩ := isLongest_unique h h'
                  rfl
      | _ => cases hr
  | openString text =>
      cases g' with
      | openString text' => cases h; cases h'; rfl
      | _ => cases hr
  | stray c =>
      cases g' with
      | stray c' => cases h; cases h'; rfl
      | _ => cases hr

theorem isNext_unique {cs : List Char} {g g' : Segment} (h : g.IsNext cs)
    (h' : g'.IsNext cs) : g = g' :=
  fits_unique h.1 h'.1 (Nat.le_antisymm (h.2 g' h'.1) (h'.2 g h.1))

theorem ne_nil_of_wellFormed {g : Segment} (h : g.WellFormed) : g.text ≠ [] := by
  cases g with
  | space c => simp [text]
  | comment t =>
      obtain ⟨line, rfl, -⟩ := h
      simp [text]
  | lexeme kind t =>
      obtain ⟨value, h⟩ := h
      exact ne_nil_of_isLexeme h
  | openString t =>
      obtain ⟨body, rfl, -⟩ := h
      simp [text]
  | stray c => simp [text]

theorem ne_nil_of_fits {cs : List Char} {g : Segment} (h : Fits cs g) :
    cs ≠ [] := by
  cases h with
  | lexeme h =>
      obtain ⟨⟨value, hform⟩, hpre, -⟩ := h
      rintro rfl
      exact ne_nil_of_isLexeme hform (List.prefix_nil.mp hpre)
  | _ => simp

/-- The next segment, said locally: its form and where it ends. -/
theorem isNext_iff_cuts {cs : List Char} {g : Segment} :
    g.IsNext cs ↔ ∃ after, g.Cuts cs after := by
  constructor
  · intro h
    cases cs with
    | nil => exact absurd rfl (ne_nil_of_fits h.1)
    | cons c cs =>
        rw [isNext_unique h (isNext_first c cs)]
        exact cuts_first c cs
  · rintro ⟨after, h⟩
    cases cs with
    | nil =>
        obtain ⟨hcs, hform, -⟩ := h
        exact absurd (List.append_eq_nil_iff.mp hcs.symm).1 (ne_nil_of_wellFormed hform)
    | cons c cs =>
        rw [← first_of_cuts h]
        exact isNext_first c cs

theorem isNext_append_iff {g : Segment} {after : List Char} :
    g.IsNext (g.text ++ after) ↔ g.WellFormed ∧ g.Ends after := by
  rw [isNext_iff_cuts]
  constructor
  · rintro ⟨after', hcs, hform, hend⟩
    rw [List.append_cancel_left hcs]
    exact ⟨hform, hend⟩
  · rintro ⟨hform, hend⟩
    exact ⟨after, rfl, hform, hend⟩

end Segment

end LoxScan
