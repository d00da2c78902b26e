import LoxScan.Proofs.Binary64.Numerals
import LoxScan.Proofs.Scan.Whole

/-!
# The numbers of a scan

Every number token carries the number nearest to what its digits denote.
The digits are rounded once, however many there are, so the number is
settled by the rational alone: two numerals of one rational have the same
bits, and a greater rational never has a smaller number.
-/

namespace LoxScan

open Binary64 (IsNearest RoundsTo infinity ofPattern overflow unitsInOne)

/-- The tokens of a scan before its end are lexemes. -/
theorem isLexeme_of_mem_scan {source : String} {t : Token} (ht : t ∈ (scan source).tokens)
    (hkind : t.kind ≠ .eof) : IsLexeme t.kind t.lexeme.toList t.literal := by
  obtain ⟨gs, hseg⟩ := exists_segmented source.toList
  rw [(scan_of_segmented hseg).1] at ht
  rcases List.mem_append.mp ht with ht | ht
  · exact Segment.isLexeme_of_mem_tokens hseg.wellFormed ht
  · rw [List.mem_singleton.mp ht] at hkind
    exact absurd rfl hkind

theorem IsLexeme.exists_denotes {text : List Char} {value : Option Literal}
    (h : IsLexeme .number text value) :
    ∃ q, Denotes text q ∧ value = some (.number (Binary64.ofNumeral text)) := by
  cases h with
  | whole hne hd => exact ⟨_, .whole ⟨hne, hd⟩, rfl⟩
  | fraction hne hd hne' hd' => exact ⟨_, .fraction ⟨hne, hd⟩ ⟨hne', hd'⟩, rfl⟩

/-- The text of the token denotes `q`, and its literal is `x`. -/
structure Token.Carries (t : Token) (q : ℚ) (x : Binary64) : Prop where
  denotes : Denotes t.lexeme.toList q
  literal : t.literal = some (.number x)

theorem exists_carries {source : String} {t : Token} (ht : t ∈ (scan source).tokens)
    (hkind : t.kind = .number) :
    ∃ q p, t.Carries q (ofPattern p) ∧ RoundsTo (q * unitsInOne) p := by
  have hlexeme := isLexeme_of_mem_scan ht (by rw [hkind]; decide)
  rw [hkind] at hlexeme
  obtain ⟨q, hq, hliteral⟩ := hlexeme.exists_denotes
  obtain ⟨p, hp, heq⟩ := Binary64.exists_ofNumeral hq
  rw [heq] at hliteral
  exact ⟨q, p, ⟨hq, hliteral⟩, hp⟩

/-- The number of a numeral is the nearest one to the rational `q` that it
denotes. It is zero up to half of the least number and infinity from the
overflow on. Of two numerals, wherever they stand, the one of the greater
rational has no smaller number, and if the rationals are the same so are
the numbers. -/
theorem scan_number_nearest (source : String) (t : Token) (ht : t ∈ (scan source).tokens)
    (hkind : t.kind = .number) :
    ∃ q x, t.Carries q x
      ∧ (∀ r, Denotes t.lexeme.toList r ↔ r = q)
      ∧ (∀ y, IsNearest q y ↔ y = x)
      ∧ (x = ⟨0⟩ ↔ q ≤ 2 ^ (-1075 : ℤ))
      ∧ (x = infinity ↔ overflow ≤ q)
      ∧ ∀ other, ∀ u ∈ (scan other).tokens, u.kind = .number → ∀ r y, u.Carries r y →
          (q = r → x = y) ∧ (q ≤ r → x.bits ≤ y.bits) := by
  obtain ⟨q, p, hcarries, hp⟩ := exists_carries ht hkind
  refine ⟨q, ofPattern p, hcarries, fun r => ⟨fun h => h.unique hcarries.denotes, ?_⟩,
    Binary64.isNearest_iff hcarries.denotes.nonneg hp,
    Binary64.ofPattern_eq_zero_iff.trans hp.eq_zero_iff,
    Binary64.ofPattern_eq_infinity_iff.trans hp.infinityBits_le_iff, ?_⟩
  · rintro rfl
    exact hcarries.denotes
  · intro other u hu hukind r y hy
    obtain ⟨r', p', hcarries', hp'⟩ := exists_carries hu hukind
    obtain rfl := hy.denotes.unique hcarries'.denotes
    obtain rfl : y = ofPattern p' := by
      have := hy.literal.symm.trans hcarries'.literal
      simpa using this
    refine ⟨?_, ?_⟩
    · rintro rfl
      rw [hp.unique hp']
    · intro hle
      have hunits := Binary64.cast_unitsInOne_pos
      exact Binary64.bits_ofPattern_le (hp.le hp' (mul_le_mul_of_nonneg_right hle hunits.le))

/-- More zeros on both sides, and the same bits. -/
theorem scan_number_nearest_zeros :
    let t := Token.ofLexeme .number "0.1".toList 1
    let u := Token.ofLexeme .number "00.10".toList 1
    t ∈ (scan "0.1").tokens ∧ u ∈ (scan "00.10").tokens ∧ t.literal = u.literal := by
  intro t u
  have ht : t ∈ (scan "0.1").tokens := by decide +kernel
  have hu : u ∈ (scan "00.10").tokens := by decide +kernel
  have hone : '1'.toNat - '0'.toNat = 1 := by decide
  have hdenotes : Denotes t.lexeme.toList (1 / 10) := by
    have h : Denotes (['0'] ++ '.' :: ['1']) _ := .fraction ⟨by simp, by simp⟩ ⟨by simp, by simp⟩
    norm_num [Nat.ofDigitChars, hone] at h
    simpa [t, Token.ofLexeme] using h
  have hdenotes' : Denotes u.lexeme.toList (1 / 10) := by
    have h : Denotes (['0', '0'] ++ '.' :: ['1', '0']) _ :=
      .fraction ⟨by simp, by simp⟩ ⟨by simp, by simp⟩
    norm_num [Nat.ofDigitChars, hone] at h
    simpa [u, Token.ofLexeme] using h
  obtain ⟨q, x, hx, hq, -, -, -, hother⟩ := scan_number_nearest "0.1" t ht rfl
  obtain ⟨r, p, hr, -⟩ := exists_carries hu rfl
  have heq : q = r := ((hq _).mp hdenotes).symm.trans (hdenotes'.unique hr.denotes)
  refine ⟨ht, hu, ?_⟩
  rw [hx.literal, hr.literal, (hother _ u hu rfl r _ hr).1 heq]

end LoxScan
