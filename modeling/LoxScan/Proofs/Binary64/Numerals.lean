import LoxScan.Proofs.Binary64.Digits
import LoxScan.Proofs.Binary64.Rounding
import LoxScan.Proofs.Text.Runs

/-!
# Numerals

A numeral denotes a rational number, by its digits alone (`Denotes`), and
`ofNumeral` rounds that number once, however many digits there are.
-/

namespace LoxScan

/-- The number a numeral stands for: digits, or digits on both sides of a
point. -/
inductive Denotes : List Char → ℚ → Prop
  | whole {digits : List Char} :
      Digits digits → Denotes digits (Nat.ofDigitChars 10 digits 0 : Nat)
  | fraction {digits part : List Char} :
      Digits digits → Digits part →
      Denotes (digits ++ '.' :: part)
        ((Nat.ofDigitChars 10 digits 0 : Nat)
          + (Nat.ofDigitChars 10 part 0 : Nat) / 10 ^ part.length)

theorem Digits.point_notMem {cs : List Char} (h : Digits cs) : '.' ∉ cs :=
  fun hmem => absurd (h.isDigit '.' hmem) (by decide)

namespace Denotes

variable {cs : List Char} {q q' : ℚ}

theorem nonneg (h : Denotes cs q) : 0 ≤ q := by
  cases h with
  | whole hd => exact Nat.cast_nonneg _
  | fraction hd hp => positivity

theorem unique (h : Denotes cs q) (h' : Denotes cs q') : q = q' := by
  cases h with
  | whole hd =>
      cases h' with
      | whole hd' => rfl
      | fraction hd' hp' =>
          exact absurd (List.mem_append_right _ (List.mem_cons_self ..)) hd.point_notMem
  | @fraction digits part hd hp =>
      generalize hcs : digits ++ '.' :: part = cs at h'
      cases h' with
      | whole hd' =>
          rw [← hcs] at hd'
          exact absurd (List.mem_append_right _ (List.mem_cons_self ..)) hd'.point_notMem
      | fraction hd' hp' =>
          obtain ⟨rfl, hpart⟩ := stop_inj hcs hd.point_notMem hd'.point_notMem
          rw [hpart]

end Denotes

namespace Binary64

theorem digitsValue_eq (cs : List Char) : digitsValue cs = Nat.ofDigitChars 10 cs 0 :=
  Nat.ofDigitChars_eq_foldl.symm

/-- The digits of both sides are one number over a power of ten. -/
theorem digitsValue_append (digits part : List Char) :
    (digitsValue (digits ++ part) : ℚ) / (Nat.pow 10 part.length : Nat) =
      (Nat.ofDigitChars 10 digits 0 : Nat)
        + (Nat.ofDigitChars 10 part 0 : Nat) / 10 ^ part.length := by
  rw [digitsValue_eq, Nat.ofDigitChars_append, Nat.ofDigitChars_eq_ofDigitChars_zero, Nat.pow_eq]
  push_cast
  field_simp

/-- A numeral is rounded once. -/
theorem exists_ofNumeral {cs : List Char} {q : ℚ} (h : Denotes cs q) :
    ∃ p, RoundsTo (q * unitsInOne) p ∧ ofNumeral cs = ofPattern p := by
  have hten (n : Nat) : 0 < Nat.pow 10 n := Nat.pow_pos (by decide)
  cases h with
  | whole hd =>
      have hend : ∀ c ∈ ([] : List Char).head?, c = '.' := by simp
      have htake := takeWhile_stop hd.point_notMem hend
      have hdrop := dropWhile_stop hd.point_notMem hend
      rw [List.append_nil] at htake hdrop
      obtain ⟨p, hp, heq⟩ := exists_ofRatio (digitsValue cs) (hten 0)
      refine ⟨p, ?_, ?_⟩
      · simpa [digitsValue_eq] using hp
      · simpa only [ofNumeral, htake, hdrop, List.drop_nil, List.append_nil,
          List.length_nil] using heq
  | @fraction digits part hd hp =>
      have hend : ∀ c ∈ ('.' :: part).head?, c = '.' := by simp
      have htake := takeWhile_stop hd.point_notMem hend
      have hdrop := dropWhile_stop hd.point_notMem hend
      obtain ⟨p, hp, heq⟩ := exists_ofRatio (digitsValue (digits ++ part)) (hten part.length)
      rw [digitsValue_append] at hp
      refine ⟨p, hp, ?_⟩
      simpa only [ofNumeral, htake, hdrop, List.drop_one, List.tail_cons] using heq

end Binary64

end LoxScan
