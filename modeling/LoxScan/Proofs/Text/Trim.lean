import Mathlib.Data.List.DropRight
import LoxScan.Proofs.Text.Runs
import LoxScan.Text.Blank

/-!
# Texts without the blanks around them

Trimming is said by what it leaves: blanks on both sides are gone, and
what remains starts and ends with another character. There is one such
text (`trims_iff`), and blanks put around a text do not change it
(`trim_between`).

A word is cut off at the first blank. Where that is can be seen from the
word, which has none (`splitAtBlank_append`).
-/

namespace LoxScan.Text

def Blanks (cs : List Char) : Prop := ∀ c ∈ cs, isBlank c = true

/-- No blank at either end. -/
structure Bare (cs : List Char) : Prop where
  first : ∀ c ∈ cs.head?, isBlank c = false
  last : ∀ c ∈ cs.getLast?, isBlank c = false

/-- `middle` is a text without the blanks at its ends. -/
structure Trims (cs middle : List Char) : Prop where
  around : ∃ front back, cs = front ++ (middle ++ back) ∧ Blanks front ∧ Blanks back
  bare : Bare middle

section

variable {cs front back : List Char}

theorem trimRight_eq (cs : List Char) : trimRight cs = cs.rdropWhile isBlank := rfl

theorem trimRight_append (h : Blanks back) (cs : List Char) :
    trimRight (cs ++ back) = trimRight cs := by
  rw [trimRight, List.reverse_append, List.dropWhile_append_of_pos, trimRight]
  exact fun c hc => h c (List.mem_reverse.mp hc)

theorem trimLeft_append (h : Blanks front) (cs : List Char) :
    trimLeft (front ++ cs) = trimLeft cs :=
  List.dropWhile_append_of_pos h

/-- Blanks around a text are trimmed off first. -/
theorem trim_between (hf : Blanks front) (hb : Blanks back) (cs : List Char) :
    trim (front ++ (cs ++ back)) = trim cs := by
  rw [trim, trimLeft_append hf, trim, trimLeft, trimLeft, List.dropWhile_append]
  split
  case isFalse => exact trimRight_append hb _
  case isTrue hnone =>
    -- a text of blanks is trimmed to nothing, with more of them or not
    rw [List.isEmpty_iff.mp hnone, List.dropWhile_eq_nil_iff.mpr hb]

theorem trim_of_bare (h : Bare cs) : trim cs = cs := by
  have hleft : trimLeft cs = cs := by
    cases cs with
    | nil => rfl
    | cons c cs => exact List.dropWhile_cons_of_neg (by simp [h.first c rfl])
  rw [trim, hleft, trimRight_eq, List.rdropWhile_eq_self_iff]
  intro hne
  simp [h.last _ (List.getLast?_eq_some_getLast hne)]

theorem bare_trim (cs : List Char) : Bare (trim cs) where
  first := by
    intro c hc
    obtain ⟨more, hmore⟩ : trim cs <+: trimLeft cs := List.rdropWhile_prefix ..
    have hleft : (trimLeft cs).head? = some c := by
      rw [← hmore, List.head?_append, Option.mem_def.mp hc]
      rfl
    exact head_dropWhile c hleft
  last := by
    intro c hc
    have hne : trim cs ≠ [] := by
      intro hnil
      rw [hnil] at hc
      cases hc
    have h := List.rdropWhile_last_not isBlank (trimLeft cs) hne
    rw [List.getLast?_eq_some_getLast hne] at hc
    obtain rfl := Option.some.inj hc
    exact Bool.eq_false_iff.mpr h

theorem trims_trim (cs : List Char) : Trims cs (trim cs) where
  around := by
    refine ⟨cs.takeWhile isBlank, (trimLeft cs).rtakeWhile isBlank, ?_, ?_, ?_⟩
    · rw [trim, trimRight_eq, List.rdropWhile_append_rtakeWhile]
      exact List.takeWhile_append_dropWhile.symm
    · exact fun c hc => List.mem_takeWhile_imp hc
    · exact fun c hc => List.mem_rtakeWhile_imp hc
  bare := bare_trim cs

theorem trims_iff {middle : List Char} : Trims cs middle ↔ trim cs = middle := by
  constructor
  · rintro ⟨⟨front, back, rfl, hf, hb⟩, hbare⟩
    rw [trim_between hf hb, trim_of_bare hbare]
  · rintro rfl
    exact trims_trim cs

theorem trims_of_bare (h : Bare cs) : Trims cs cs :=
  trims_iff.mpr (trim_of_bare h)

theorem Bare.trims_append (h : Bare cs) (hf : Blanks front) : Trims (front ++ cs) cs where
  around := ⟨front, [], by rw [List.append_nil], hf, by simp [Blanks]⟩
  bare := h

/-- Nothing is trimmed off a text that goes on to one that is bare. -/
theorem Bare.append {c : Char} (h : Bare cs) (hne : cs ≠ []) (hc : isBlank c = false)
    (front : List Char) : Bare (c :: (front ++ cs)) where
  first := by
    intro d hd
    obtain rfl := Option.some.inj hd
    exact hc
  last := by
    intro d hd
    rw [← List.cons_append, List.getLast?_append_of_ne_nil _ hne] at hd
    exact h.last d hd

end

/-! ## The first word -/

section

variable {word : List Char} (hword : ∀ c ∈ word, isBlank c = false)

include hword in
theorem splitAtBlank_word : splitAtBlank word = (word, none) := by
  rw [splitAtBlank, List.dropWhile_eq_nil_iff.mpr (by simpa using hword)]

include hword in
theorem splitAtBlank_append {b : Char} (hb : isBlank b = true) (rest : List Char) :
    splitAtBlank (word ++ b :: rest) = (word, some rest) := by
  have hrun : ∀ c ∈ word, (!isBlank c) = true := by simpa using hword
  have hstop : ∀ c ∈ (b :: rest).head?, (!isBlank c) = false := by simpa using hb
  rw [splitAtBlank, dropWhile_run hrun hstop, takeWhile_run hrun hstop]

/-- A text is one word, or a word with a blank behind it. -/
theorem exists_word (cs : List Char) :
    (∀ c ∈ cs, isBlank c = false)
      ∨ ∃ word b rest, cs = word ++ b :: rest ∧ (∀ c ∈ word, isBlank c = false)
        ∧ isBlank b = true := by
  have hstop : ∀ c ∈ (cs.dropWhile fun c => !isBlank c).head?, (!isBlank c) = false :=
    head_dropWhile
  cases hrest : cs.dropWhile fun c => !isBlank c with
  | nil => exact Or.inl (by simpa using List.dropWhile_eq_nil_iff.mp hrest)
  | cons b rest =>
      refine Or.inr ⟨cs.takeWhile (fun c => !isBlank c), b, rest, ?_, fun c hc => ?_, ?_⟩
      · rw [← hrest, List.takeWhile_append_dropWhile]
      · simpa using List.mem_takeWhile_imp hc
      · rw [hrest] at hstop
        simpa using hstop b rfl

end

end LoxScan.Text
