import LoxScan.Proofs.Binary64.Numerals

/-!
# Decimals that read back

The shortest decimal of a finite number rounds to that number again
(`roundsTo_shortest`): every candidate was tested by rounding it, and the
expansion that is the last resort is exact. A decimal that is written out
around a point is a numeral of the same value, so what a listing says of a
number denotes something that rounds to it.
-/

namespace LoxScan

namespace Decimal

/-- The rational a decimal stands for. -/
def value (d : Decimal) : ℚ :=
  (Nat.ofDigitChars 10 d.digits 0 : Nat) * 10 ^ (d.point - d.digits.length)

theorem value_nonneg (d : Decimal) : 0 ≤ d.value :=
  mul_nonneg (Nat.cast_nonneg _) (zpow_nonneg (by norm_num) _)

theorem value_eq {d : Decimal} {n zeros : Nat} {e : Int}
    (hn : n = 10 ^ zeros * Nat.ofDigitChars 10 d.digits 0)
    (he : e + zeros = d.point - d.digits.length) : d.value = n * 10 ^ e := by
  rw [value, ← he, zpow_add₀ (by norm_num), zpow_natCast, hn]
  push_cast
  ring

/-- Only zeros are left out. -/
theorem exists_zeros (n : Nat) (e : Int) :
    ∃ k : Nat, Nat.toDigits 10 n = (ofScaled n e).digits ++ List.replicate k '0'
      ∧ (ofScaled n e).point - (ofScaled n e).digits.length = k + e := by
  obtain ⟨zeros, hzeros⟩ : (ofScaled n e).digits <+: Nat.toDigits 10 n :=
    List.rdropWhile_prefix (· == '0') _
  have hall : ∀ c ∈ zeros, c = '0' := by
    have hsplit : (ofScaled n e).digits ++ (Nat.toDigits 10 n).rtakeWhile (· == '0')
        = Nat.toDigits 10 n := List.rdropWhile_append_rtakeWhile
    intro c hc
    rw [← List.append_cancel_left (hsplit.trans hzeros.symm)] at hc
    simpa using List.mem_rtakeWhile_imp hc
  refine ⟨zeros.length, ?_, ?_⟩
  · rw [← List.eq_replicate_of_mem hall, hzeros]
  · have hpoint : (ofScaled n e).point = (Nat.toDigits 10 n).length + e := rfl
    rw [hpoint, ← hzeros, List.length_append]
    push_cast
    ring

theorem value_ofScaled (n : Nat) (e : Int) : (ofScaled n e).value = n * 10 ^ e := by
  obtain ⟨k, hdigits, hpoint⟩ := exists_zeros n e
  refine value_eq ?_ (by rw [hpoint, add_comm])
  rw [← Nat.ofDigitChars_replicate_zero, ← Nat.ofDigitChars_append, ← hdigits,
    Nat.ofDigitChars_ten_toDigits]

/-- Written around a point, a decimal is a numeral of its value. -/
theorem denotes_positional {d : Decimal} (h : d.Normal) :
    Denotes (Binary64.positional d) d.value := by
  obtain ⟨back, hdigits, hpoint⟩ := d.exists_ofDigitChars
  have hvalue : d.value = (Nat.ofDigitChars 10 d.whole 0 : Nat)
      + (Nat.ofDigitChars 10 d.fraction 0 : Nat) / 10 ^ d.fraction.length := by
    rw [← Binary64.digitsValue_append, Binary64.digitsValue_eq,
      value_eq hdigits (e := -d.fraction.length) (by omega), zpow_neg, zpow_natCast, Nat.pow_eq,
      Nat.cast_pow, div_eq_mul_inv]
    rfl
  rw [positional_eq, hvalue]
  exact .fraction (digits_whole h) (digits_fraction h)

end Decimal

namespace Binary64

/-! ## Reading back -/

theorem roundsTo_of_readsBack {x : Binary64} (hx : x.isFinite = true) {n : Nat} {e : Int}
    (h : x.readsBack n e = true) : RoundsTo ((n : ℚ) * 10 ^ e * unitsInOne) x.magnitude := by
  obtain ⟨p, hp, heq⟩ := exists_ofScaled n e
  rw [isFinite, decide_eq_true_iff] at hx
  rw [readsBack, beq_iff_eq, heq, toNat_bits_ofPattern] at h
  obtain rfl : x.magnitude = p := by omega
  exact hp

theorem magnitude_of_units {x : Binary64} (h : x.units = 0) : x.magnitude = 0 := by
  refine strictMono_unitsOf.injective ?_
  rw [← units_eq, h]
  rfl

theorem mul_five_pow (n k : Nat) :
    ((n * Nat.pow 5 k : Nat) : ℚ) * (10 ^ k)⁻¹ * 2 ^ k = n := by
  have hten : (5 : ℚ) ^ k * 2 ^ k = 10 ^ k := by
    rw [← mul_pow]
    norm_num
  rw [mul_right_comm, Nat.pow_eq]
  push_cast
  rw [mul_assoc (n : ℚ), hten, mul_inv_cancel_right₀ (by positivity)]

/-- A number of units has an exact expansion. -/
theorem exact_value (n : Nat) :
    ((n * Nat.pow 5 1074 : Nat) : ℚ) * 10 ^ (-1074 : ℤ) * unitsInOne = n := by
  have hpow : (10 : ℚ) ^ (-1074 : ℤ) = (10 ^ 1074)⁻¹ := zpow_neg_coe_of_pos 10 (by decide)
  rw [hpow, cast_unitsInOne]
  generalize 1074 = k
  exact mul_five_pow n k

theorem roundsTo_shortest (tie : Tie) {x : Binary64} (hx : x.isFinite = true) :
    RoundsTo ((x.shortest tie).value * unitsInOne) x.magnitude := by
  unfold shortest
  split
  case isTrue hzero =>
    rw [magnitude_of_units hzero]
    refine roundsTo_zero_iff.mpr ?_
    norm_num [Decimal.value, Nat.ofDigitChars]
  case isFalse =>
    dsimp only
    split
    case h_1 n e hfound =>
      obtain ⟨k, -, hk⟩ := List.exists_of_findSome?_eq_some hfound
      obtain ⟨m, hm, heq⟩ := Option.map_eq_some_iff.mp hk
      cases heq
      rw [Decimal.value_ofScaled]
      exact roundsTo_of_readsBack hx (readsBack_of_neighbour? hm)
    case h_2 =>
      rw [Decimal.value_ofScaled, exact_value, units_eq]
      exact .of_eq _

/-! ## Listings -/

theorem listing_of_nonneg {x : Binary64} (hx : x.isFinite = true) (hsign : x.isNegative = false) :
    x.listing =
      if x.isIntegral then Nat.toDigits 10 (x.units / unitsInOne) ++ ['.', '0']
      else positional (x.shortest .upward) := by
  have hnone : (if x.isNegative then ['-'] else []) = ([] : List Char) := by rw [hsign]; rfl
  rw [← toList_toString]
  unfold listing
  rw [hx, Bool.not_true, if_neg Bool.false_ne_true]
  show (if x.isIntegral then (if x.isNegative then ['-'] else []) ++ _ ++ _
    else (if x.isNegative then ['-'] else []) ++ _) = _
  rw [hnone]
  rfl

/-- What a listing says of a number that is not negative is a numeral, and
it rounds to the number. -/
theorem exists_denotes_listing {x : Binary64} (hx : x.isFinite = true)
    (hsign : x.isNegative = false) :
    ∃ whole fraction q, x.listing = whole ++ '.' :: fraction ∧ Digits whole ∧ Digits fraction
      ∧ Denotes x.listing q ∧ RoundsTo (q * unitsInOne) x.magnitude := by
  rw [listing_of_nonneg hx hsign]
  split
  case isTrue hint =>
    have hmod : x.units % unitsInOne = 0 := by
      rw [isIntegral, Bool.and_eq_true, beq_iff_eq] at hint
      exact hint.2
    have hzero : Digits ['0'] := ⟨by simp, by simp⟩
    have hdenotes := Denotes.fraction (digits_toDigits (x.units / unitsInOne)) hzero
    have hunits : ((x.units / unitsInOne : Nat) : ℚ) * unitsInOne = x.units := by
      exact_mod_cast Nat.div_mul_cancel (Nat.dvd_of_mod_eq_zero hmod)
    refine ⟨_, ['0'], _, rfl, digits_toDigits _, hzero, hdenotes, ?_⟩
    rw [Nat.ofDigitChars_ten_toDigits, List.length_singleton]
    norm_num [Nat.ofDigitChars]
    rw [hunits, units_eq]
    exact .of_eq _
  case isFalse =>
    have hd := normal_shortest .upward x
    exact ⟨_, _, _, Decimal.positional_eq _, Decimal.digits_whole hd, Decimal.digits_fraction hd,
      Decimal.denotes_positional hd, roundsTo_shortest .upward hx⟩

end Binary64

end LoxScan
