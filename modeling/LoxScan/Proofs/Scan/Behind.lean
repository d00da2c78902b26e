import LoxScan.Proofs.Scan.Cut

/-!
# What a segment sees behind itself

Whether a segment ends depends on little of the text behind it, and there
are two ways to put another text there.

> `ends_of_take`: the other text starts with the same two characters, or
> is as short. Then the segment ends before it as before.
> `Fades.ends`: the other text goes along with the first one up to a white
> space character or its own end. Then a lexeme ends before it, since
> white space goes on with none.

`Fades` is a relation of two texts and not of a text and a segment,
so it carries over to longer texts (`Fades.append`) and can be had for a
whole row of segments at once.
-/

namespace LoxScan

theorem isDigit_of_isSpace {c : Char} (h : isSpace c = true) : isDigit c = false := by
  rcases isSpace_iff.mp h with rfl | rfl | rfl | rfl <;> rfl

theorem isWordPart_of_isSpace {c : Char} (h : isSpace c = true) :
    isWordPart c = false := by
  rcases isSpace_iff.mp h with rfl | rfl | rfl | rfl <;> rfl

/-- Both texts are the same up to where the second one has white space or
ends. -/
inductive Fades : List Char → List Char → Prop
  | stop {cs seen : List Char} :
      (∀ c ∈ seen.head?, isSpace c = true) → Fades cs seen
  | cons (c : Char) {cs seen : List Char} :
      Fades cs seen → Fades (c :: cs) (c :: seen)

namespace Fades

variable {cs seen : List Char}

theorem append (text : List Char) (h : Fades cs seen) :
    Fades (text ++ cs) (text ++ seen) := by
  induction text with
  | nil => exact h
  | cons c text ih => exact .cons c ih

theorem head (h : Fades cs seen) {c : Char} (hc : c ∈ seen.head?) :
    isSpace c = true ∨ c ∈ cs.head? := by
  cases h with
  | stop hs => exact Or.inl (hs c hc)
  | cons d h => exact Or.inr hc

/-- If the first text does not start with a character that is no white
space, the second one does not. -/
theorem head_ne (h : Fades cs seen) {c : Char} (hc : isSpace c = false)
    (hne : cs.head? ≠ some c) : seen.head? ≠ some c := by
  intro hseen
  rcases h.head hseen with hs | hcs
  · rw [hc] at hs
    cases hs
  · exact hne hcs

/-- A class without white space that the first text does not start with. -/
theorem head_class (h : Fades cs seen) {p : Char → Bool}
    (hp : ∀ c, isSpace c = true → p c = false) (hcs : ∀ c ∈ cs.head?, p c = false) :
    ∀ c ∈ seen.head?, p c = false := by
  intro c hc
  rcases h.head hc with hs | hc
  · exact hp c hs
  · exact hcs c hc

/-- Where a lexeme ends, it ends before a text that fades. -/
theorem ends (h : Fades cs seen) {kind : Kind} {text : List Char}
    (he : (Segment.lexeme kind text).Ends cs) : (Segment.lexeme kind text).Ends seen := by
  cases kind with
  | string => trivial
  | eof => trivial
  | identifier => exact h.head_class (fun _ => isWordPart_of_isSpace) he
  | keyword k => exact h.head_class (fun _ => isWordPart_of_isSpace) he
  | symbol s =>
      obtain ⟨hslash, hequal⟩ := he
      exact ⟨fun hs => h.head_ne rfl (hslash hs), fun t ht => h.head_ne rfl (hequal t ht)⟩
  | number =>
      obtain ⟨hdigit, hpoint⟩ := he
      refine ⟨h.head_class (fun _ => isDigit_of_isSpace) hdigit, ?_⟩
      rintro hno d rest rfl
      cases h with
      | stop hs => exact absurd (hs '.' rfl) (by decide)
      | cons _ h =>
          -- the point is in both texts, so the first one shows what is behind it
          rename_i cs
          rcases h.head rfl with hs | hd
          · exact isDigit_of_isSpace hs
          · obtain ⟨rest', rfl⟩ : ∃ rest', cs = d :: rest' := List.head?_eq_some_iff.mp hd
            exact hpoint hno d rest' rfl

end Fades

namespace Segment

theorem ends_of_isSpace {c : Char} (h : isSpace c = true) (kind : Kind)
    (text rest : List Char) : (lexeme kind text).Ends (c :: rest) := by
  have hfades : Fades [] (c :: rest) := by
    refine .stop fun d hd => ?_
    obtain rfl : c = d := by simpa using hd
    exact h
  exact hfades.ends (ends_nil kind text)

/-- Two characters behind a segment, or fewer at the end of the text, tell
whether it ends. -/
theorem ends_of_take {g : Segment} {after seen : List Char}
    (ht : after.take 2 = seen.take 2) (h : g.Ends after) : g.Ends seen := by
  have hhead : after.head? = seen.head? := by
    have := congrArg List.head? ht
    rwa [List.head?_take, List.head?_take] at this
  cases g with
  | space c => trivial
  | stray c => trivial
  | comment text => rwa [Ends, ← hhead]
  | openString text =>
      obtain rfl : after = [] := h
      exact List.head?_eq_none_iff.mp hhead.symm
  | lexeme kind text =>
      cases kind with
      | string => trivial
      | eof => trivial
      | identifier => rwa [Ends, ← hhead]
      | keyword k => rwa [Ends, ← hhead]
      | symbol s => rwa [Ends, ← hhead]
      | number =>
          obtain ⟨hdigit, hpoint⟩ := h
          refine ⟨by rwa [← hhead], ?_⟩
          rintro hno d rest rfl
          rcases after with _ | ⟨c, _ | ⟨d', rest'⟩⟩
          · cases ht
          · cases ht
          · obtain ⟨rfl, rfl⟩ : c = '.' ∧ d' = d := by simpa using ht
            exact hpoint hno _ _ rfl

end Segment

end LoxScan
