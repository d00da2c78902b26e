import Mathlib.Data.Nat.Cast.Order.Field
import LoxScan.Proofs.Binary64.Patterns

/-!
# Rounding

What the patterns stand for is said here as the format says it, by sign,
exponent and fraction (`value`). `IsNearest q` is correct rounding: no
finite number is nearer to `q`, of two that are equally near the even one
is taken, and from half way between the greatest finite number and `2¹⁰²⁴`
on it is infinity.

For every `q` that is not negative there is exactly one such number
(`isNearest_iff`), and `ofRatio` and `ofScaled` give it.
-/

namespace LoxScan.Binary64

/-- The eleven bits behind the sign. -/
def exponentField (x : Binary64) : Nat := x.bits.toNat / 2 ^ 52 % 2 ^ 11

/-- The last fifty-two bits. -/
def fractionField (x : Binary64) : Nat := x.bits.toNat % 2 ^ 52

/-- The number of a finite pattern without its sign. -/
def absValue (x : Binary64) : ℚ :=
  if x.exponentField = 0 then x.fractionField * 2 ^ (-1074 : ℤ)
  else (2 ^ 52 + x.fractionField) * 2 ^ ((x.exponentField : ℤ) - 1075)

/-- The number of a finite pattern. -/
def value (x : Binary64) : ℚ := if x.isNegative then -x.absValue else x.absValue

/-- The point from which on numbers are rounded to infinity. -/
def overflow : ℚ := 2 ^ 1024 - 2 ^ 970

/-- `x` is `q` rounded to nearest, ties to even. -/
structure IsNearest (q : ℚ) (x : Binary64) : Prop where
  nonneg : x.isNegative = false
  infinite : x = infinity ↔ overflow ≤ q
  finite : x ≠ infinity → x.isFinite = true
  nearest : x ≠ infinity → ∀ y : Binary64, y.isFinite = true →
    |x.value - q| ≤ |y.value - q|
  even : x ≠ infinity → ∀ y : Binary64, y.isFinite = true → y.value ≠ x.value →
    |x.value - q| = |y.value - q| → Even x.bits.toNat

/-! ## Patterns and numbers -/

theorem unitsInOne_eq : unitsInOne = 2 ^ 1074 := by
  rw [unitsInOne]
  generalize 1074 = k
  exact Nat.one_shiftLeft k

theorem cast_unitsInOne : (unitsInOne : ℚ) = 2 ^ 1074 := by
  rw [unitsInOne_eq]
  generalize 1074 = k
  exact Nat.cast_pow 2 k

theorem cast_unitsInOne_pos : (0 : ℚ) < unitsInOne := by
  rw [cast_unitsInOne]
  generalize 1074 = k
  positivity

theorem cast_binade : (binade : ℚ) = 2 ^ 52 := Nat.cast_pow 2 52

/-- The number of a pattern; all that are greater than infinity's count as
infinity. -/
def ofPattern (p : Nat) : Binary64 := ⟨UInt64.ofNat (min p infinityBits)⟩

theorem toNat_bits_ofPattern (p : Nat) :
    (ofPattern p).bits.toNat = min p infinityBits := by
  have h : min p infinityBits < UInt64.size :=
    Nat.lt_of_le_of_lt (Nat.min_le_right ..) (by decide)
  exact UInt64.toNat_ofNat_of_lt' h

theorem magnitude_ofPattern (p : Nat) : (ofPattern p).magnitude = min p infinityBits := by
  rw [magnitude, toNat_bits_ofPattern]
  exact Nat.mod_eq_of_lt (Nat.lt_of_le_of_lt (Nat.min_le_right ..) (by decide))

theorem isNegative_ofPattern (p : Nat) : (ofPattern p).isNegative = false := by
  rw [isNegative, toNat_bits_ofPattern, decide_eq_false_iff_not, Nat.not_le]
  exact Nat.lt_of_le_of_lt (Nat.min_le_right ..) (by decide)

theorem eq_ofPattern {x : Binary64} (hx : x.isNegative = false)
    (h : x.magnitude ≤ infinityBits) : x = ofPattern x.magnitude := by
  have hbits : x.magnitude = x.bits.toNat := by
    rw [isNegative, decide_eq_false_iff_not, Nat.not_le] at hx
    exact Nat.mod_eq_of_lt hx
  have hofNat : UInt64.ofNat x.bits.toNat = x.bits := UInt64.ofNat_toNat
  rw [ofPattern, Nat.min_eq_left h, hbits, hofNat]

theorem exponentField_eq (x : Binary64) : x.exponentField = x.magnitude / binade := by
  show _ = x.bits.toNat % 2 ^ 63 / 2 ^ 52
  unfold exponentField
  omega

theorem fractionField_eq (x : Binary64) : x.fractionField = x.magnitude % binade := by
  show _ = x.bits.toNat % 2 ^ 63 % 2 ^ 52
  unfold fractionField
  omega

theorem absValue_eq (x : Binary64) : x.absValue = (x.units : ℚ) / unitsInOne := by
  have hleast : (2 : ℚ) ^ (-1074 : ℤ) = 1 / unitsInOne := by
    rw [zpow_neg, one_div, cast_unitsInOne]
    exact congrArg _ (zpow_natCast 2 1074)
  unfold absValue units
  rw [exponentField_eq, fractionField_eq]
  generalize x.magnitude / binade = e
  generalize x.magnitude % binade = f
  cases e with
  | zero =>
      simp only [↓reduceIte, hleast]
      ring
  | succ e =>
      have hexp : (2 : ℚ) ^ (((e + 1 : Nat) : ℤ) - 1075) = 2 ^ e / unitsInOne := by
        have h : (((e + 1 : Nat) : ℤ) - 1075) = (e : ℤ) + -1074 := by omega
        rw [h, zpow_add₀ (by norm_num), zpow_natCast, hleast, mul_one_div]
      simp only [Nat.add_one_ne_zero, ↓reduceIte, Nat.add_sub_cancel, Nat.shiftLeft_eq, hexp,
        ← cast_binade]
      push_cast
      ring

/-! ## Overflow -/

theorem halfway_top (k : Nat) :
    halfway (k * binade + (2 * binade - 1)) = (2 * binade - 1 / 2) * 2 ^ k := by
  have hB := binade_pos
  have hsub : ((2 * binade - 1 : Nat) : ℚ) = 2 * binade - 1 := by
    rw [Nat.cast_sub (by omega)]
    push_cast
    rfl
  have hnext : k * binade + (2 * binade - 1) + 1 = k * binade + 2 * binade := by omega
  rw [halfway, hnext, unitsOf_significand (by omega) (Or.inr (by omega)),
    unitsOf_significand le_rfl (Or.inr (by omega))]
  push_cast [hsub]
  ring

/-- Half way between the greatest finite number and the one that would
come next. -/
theorem halfway_infinity : halfway (infinityBits - 1) = overflow * unitsInOne := by
  have hbits : infinityBits - 1 = (970 + 1074 + 1) * binade + (2 * binade - 1) := by decide
  have hpow (i j : Nat) : (2 : ℚ) ^ (i + j + 1) = 2 * (2 ^ i * 2 ^ j) := by ring
  rw [hbits, halfway_top, overflow, pow_add 2 54 970, hpow 970 1074, cast_unitsInOne, cast_binade]
  generalize (2 : ℚ) ^ 970 = a
  generalize (2 : ℚ) ^ 1074 = b
  ring

/-- Whatever is rounded at or behind the pattern of infinity overflows. -/
theorem RoundsTo.infinityBits_le_iff {q : ℚ} {p : Nat} (h : RoundsTo (q * unitsInOne) p) :
    infinityBits ≤ p ↔ overflow ≤ q := by
  have hunits : (0 : ℚ) < unitsInOne := cast_unitsInOne_pos
  rw [← mul_le_mul_iff_left₀ hunits, ← halfway_infinity]
  constructor
  · intro hp
    obtain ⟨r, rfl⟩ : ∃ r, p = r + 1 := ⟨p - 1, by have : 0 < infinityBits := by decide
                                                   omega⟩
    have hr : infinityBits - 1 ≤ r := by omega
    exact (strictMono_halfway.monotone hr).trans (h.below r rfl).1
  · intro hq
    by_contra hp
    obtain ⟨habove, heven⟩ := h.above
    have hmono := strictMono_halfway.monotone (show p ≤ infinityBits - 1 by omega)
    -- the point itself belongs to infinity, since the pattern below is odd
    obtain rfl : p = infinityBits - 1 := strictMono_halfway.injective (by linarith)
    exact absurd (heven (by linarith)) (by decide)

/-! ## The nearest number -/

theorem value_ofPattern {p : Nat} (h : p ≤ infinityBits) :
    (ofPattern p).value = unitsOf p / unitsInOne := by
  rw [value, isNegative_ofPattern, if_neg Bool.false_ne_true, absValue_eq, units_eq,
    magnitude_ofPattern, Nat.min_eq_left h]

theorem ofPattern_eq_infinity_iff {p : Nat} : ofPattern p = infinity ↔ infinityBits ≤ p := by
  constructor
  · intro h
    have hmagnitude : (ofPattern p).magnitude = infinityBits := by rw [h]; decide
    rw [magnitude_ofPattern] at hmagnitude
    omega
  · intro h
    rw [ofPattern, Nat.min_eq_right h, infinity]

theorem isFinite_ofPattern_iff {p : Nat} : (ofPattern p).isFinite = true ↔ p < infinityBits := by
  rw [isFinite, magnitude_ofPattern, decide_eq_true_iff]
  omega

/-- Distances in units. -/
theorem abs_sub_units (n : Nat) (q : ℚ) :
    |(n : ℚ) / unitsInOne - q| = |(n : ℚ) - q * unitsInOne| / unitsInOne := by
  have hunits := cast_unitsInOne_pos
  rw [eq_div_iff hunits.ne', ← abs_of_pos hunits, ← abs_mul, abs_of_pos hunits, sub_mul,
    div_mul_cancel₀ _ hunits.ne']

theorem absValue_nonneg (y : Binary64) : 0 ≤ y.absValue := by
  rw [absValue_eq]
  positivity

/-- A sign takes a number away from what is not negative. -/
theorem abs_absValue_sub_le {q : ℚ} (hq : 0 ≤ q) (y : Binary64) :
    |y.absValue - q| ≤ |y.value - q| := by
  have hy := y.absValue_nonneg
  unfold value
  split
  · rw [abs_of_nonpos (show -y.absValue - q ≤ 0 by linarith)]
    exact abs_le.mpr ⟨by linarith, by linarith⟩
  · exact le_rfl

theorem value_eq_of_abs_sub_le {q : ℚ} (hq : 0 < q) {y : Binary64}
    (h : |y.value - q| ≤ |y.absValue - q|) : y.value = y.absValue := by
  have hy := y.absValue_nonneg
  cases hsign : y.isNegative with
  | false => rw [value, hsign, if_neg Bool.false_ne_true]
  | true =>
      rw [value, hsign, if_pos rfl] at h ⊢
      rw [abs_of_nonpos (show -y.absValue - q ≤ 0 by linarith)] at h
      rcases le_abs.mp h with h | h <;> linarith

theorem RoundsTo.isNearest {q : ℚ} (hq : 0 ≤ q) {p : Nat} (h : RoundsTo (q * unitsInOne) p) :
    IsNearest q (ofPattern p) := by
  have hunits := cast_unitsInOne_pos
  have hsmall (hx : ofPattern p ≠ infinity) : p < infinityBits :=
    Nat.not_le.mp fun hle => hx (ofPattern_eq_infinity_iff.mpr hle)
  have hnear (y : Binary64) : |(unitsOf p : ℚ) / unitsInOne - q| ≤ |y.absValue - q| := by
    rw [absValue_eq, units_eq, abs_sub_units, abs_sub_units]
    exact div_le_div_of_nonneg_right (h.dist_le y.magnitude).1 hunits.le
  refine ⟨isNegative_ofPattern p, ofPattern_eq_infinity_iff.trans h.infinityBits_le_iff,
    fun hx => isFinite_ofPattern_iff.mpr (hsmall hx), ?_, ?_⟩
  · intro hx y _
    rw [value_ofPattern (hsmall hx).le]
    exact (hnear y).trans (abs_absValue_sub_le hq y)
  · intro hx y _ hne heq
    rw [value_ofPattern (hsmall hx).le] at hne heq
    rw [toNat_bits_ofPattern, Nat.min_eq_left (hsmall hx).le]
    rcases hq.eq_or_lt with rfl | hpos
    · -- zero has no tie but with itself
      obtain rfl : p = 0 := by
        refine h.unique ?_
        rw [zero_mul]
        exact RoundsTo.of_eq 0
      exact Even.zero
    · rw [value_eq_of_abs_sub_le hpos (heq ▸ hnear y), absValue_eq, units_eq] at hne heq
      rw [abs_sub_units, abs_sub_units] at heq
      refine (h.dist_le y.magnitude).2 ?_ ((div_left_inj' hunits.ne').mp heq)
      rintro rfl
      exact hne rfl

theorem IsNearest.roundsTo {q : ℚ} {x : Binary64} (h : IsNearest q x) (hx : x ≠ infinity) :
    RoundsTo (q * unitsInOne) x.magnitude := by
  have hfinite : x.magnitude < infinityBits := by
    have := h.finite hx
    rwa [isFinite, decide_eq_true_iff] at this
  obtain ⟨hnonneg, hinfinite, -, hnearest, heven⟩ := h
  rw [eq_ofPattern hnonneg hfinite.le] at hx hinfinite hnearest heven
  generalize x.magnitude = p at *
  have hunits := cast_unitsInOne_pos
  have hq : q < overflow := not_le.mp fun hle => hx (hinfinite.mpr hle)
  have hnear {r : Nat} (hr : r < infinityBits) :
      |(unitsOf p : ℚ) - q * unitsInOne| ≤ |(unitsOf r : ℚ) - q * unitsInOne| := by
    have := hnearest hx (ofPattern r) (isFinite_ofPattern_iff.mpr hr)
    rwa [value_ofPattern hfinite.le, value_ofPattern hr.le, abs_sub_units, abs_sub_units,
      div_le_div_iff_of_pos_right hunits] at this
  have htie {r : Nat} (hr : r < infinityBits) (hne : unitsOf r ≠ unitsOf p)
      (heq : |(unitsOf p : ℚ) - q * unitsInOne| = |(unitsOf r : ℚ) - q * unitsInOne|) :
      Even p := by
    have := heven hx (ofPattern r) (isFinite_ofPattern_iff.mpr hr)
    rw [value_ofPattern hfinite.le, value_ofPattern hr.le, abs_sub_units, abs_sub_units, heq,
      toNat_bits_ofPattern, Nat.min_eq_left hfinite.le] at this
    refine this (fun hval => hne ?_) rfl
    exact_mod_cast (div_left_inj' hunits.ne').mp hval
  refine ⟨?_, ?_⟩
  · rintro r rfl
    have hr : r < infinityBits := by omega
    have hstep := strictMono_unitsOf (Nat.lt_succ_self r)
    have hlt : (unitsOf r : ℚ) < unitsOf (r + 1) := Nat.cast_lt.mpr hstep
    exact ⟨(right_nearer_iff hlt).mp (hnear hr),
      fun h => htie hr hstep.ne ((as_near_iff hlt).mpr h.symm).symm⟩
  · by_cases hr : p + 1 < infinityBits
    · have hstep := strictMono_unitsOf (Nat.lt_succ_self p)
      have hlt : (unitsOf p : ℚ) < unitsOf (p + 1) := Nat.cast_lt.mpr hstep
      exact ⟨(left_nearer_iff hlt).mp (hnear hr),
        fun h => htie hr hstep.ne' ((as_near_iff hlt).mpr h)⟩
    · -- the greatest finite pattern, which goes up to the overflow
      obtain rfl : p = infinityBits - 1 := by omega
      rw [halfway_infinity]
      have hlt := mul_lt_mul_of_pos_right hq hunits
      exact ⟨hlt.le, fun h => absurd h hlt.ne⟩

/-- There is one nearest number. -/
theorem isNearest_iff {q : ℚ} (hq : 0 ≤ q) {p : Nat} (hp : RoundsTo (q * unitsInOne) p)
    (x : Binary64) : IsNearest q x ↔ x = ofPattern p := by
  refine ⟨fun h => ?_, fun h => h ▸ hp.isNearest hq⟩
  by_cases hx : x = infinity
  · rw [hx, eq_comm, ofPattern_eq_infinity_iff, hp.infinityBits_le_iff, ← h.infinite]
    exact hx
  · have hfinite := h.finite hx
    rw [isFinite, decide_eq_true_iff] at hfinite
    rw [hp.unique (h.roundsTo hx)]
    exact eq_ofPattern h.nonneg hfinite.le

/-! ## Quotients -/

theorem le_roundHalfEven (num den : Nat) : num / den ≤ roundHalfEven num den := by
  unfold roundHalfEven
  dsimp only
  split
  · exact le_rfl
  split
  · exact Nat.le_succ _
  · exact Nat.le_add_right ..

theorem roundHalfEven_le (num den : Nat) : roundHalfEven num den ≤ num / den + 1 := by
  unfold roundHalfEven
  dsimp only
  split
  · exact Nat.le_succ _
  split
  · exact le_rfl
  · exact Nat.add_le_add_left (Nat.le_of_lt_succ (Nat.mod_lt _ (by decide))) _

/-- The rounded quotient is half a divisor off at most, and then even. -/
theorem roundHalfEven_near (num : Nat) {den : Nat} (hd : 0 < den) :
    |(roundHalfEven num den : ℚ) * den - num| ≤ den / 2
      ∧ (|(roundHalfEven num den : ℚ) * den - num| = den / 2 → Even (roundHalfEven num den)) := by
  have hrest : ((num / den : Nat) : ℚ) * den - num = -((num % den : Nat) : ℚ) := by
    have h : ((num / den : Nat) : ℚ) * den + (num % den : Nat) = num := by
      exact_mod_cast Nat.div_add_mod' num den
    linarith
  have hr : num % den < den := Nat.mod_lt _ hd
  unfold roundHalfEven
  dsimp only
  generalize num / den = q at *
  generalize num % den = r at *
  have hnonneg : (0 : ℚ) ≤ r := Nat.cast_nonneg r
  have hr : (r : ℚ) < den := Nat.cast_lt.mpr hr
  split
  case isTrue hlt =>
    have hlt : (2 : ℚ) * r < den := by exact_mod_cast hlt
    rw [hrest, abs_neg, abs_of_nonneg hnonneg]
    exact ⟨by linarith, fun h => by linarith⟩
  case isFalse hge =>
    split
    case isTrue hgt =>
      have hgt : (den : ℚ) < 2 * r := by exact_mod_cast hgt
      rw [Nat.cast_succ, add_mul, one_mul, add_sub_right_comm, hrest,
        abs_of_nonneg (by linarith)]
      exact ⟨by linarith, fun h => by linarith⟩
    case isFalse hle =>
      have hhalf : (2 : ℚ) * r = den := by exact_mod_cast (by omega : 2 * r = den)
      refine ⟨?_, fun _ => ⟨q / 2 + q % 2, by omega⟩⟩
      rw [Nat.cast_add, add_mul, add_sub_right_comm, hrest]
      rcases Nat.mod_two_eq_zero_or_one q with hq | hq
      · rw [hq, Nat.cast_zero, zero_mul, add_zero, abs_neg, abs_of_nonneg hnonneg]
        linarith
      · rw [hq, Nat.cast_one, one_mul, abs_of_nonneg (by linarith)]
        linarith

/-- The exponent at which a quotient is rounded leaves fifty-three bits,
or it is the least one. -/
theorem significand_bounds (n : Nat) :
    n / 2 ^ (Nat.log2 n - 52) < 2 * binade
      ∧ (Nat.log2 n - 52 = 0 ∨ binade * 2 ^ (Nat.log2 n - 52) ≤ n) := by
  have hbinade : binade = 2 ^ 52 := Nat.one_shiftLeft 52
  have hn : n < 2 ^ (Nat.log2 n + 1) := Nat.lt_log2_self
  refine ⟨?_, ?_⟩
  · rw [Nat.div_lt_iff_lt_mul (Nat.two_pow_pos _), hbinade, ← Nat.pow_succ', ← Nat.pow_add]
    exact hn.trans_le (Nat.pow_le_pow_right (by decide) (by omega))
  · rcases Nat.eq_zero_or_pos (Nat.log2 n - 52) with h | h
    · exact Or.inl h
    · have hne : n ≠ 0 := by
        rintro rfl
        exact absurd h (by decide)
      refine Or.inr ?_
      rw [hbinade, ← Nat.pow_add, Nat.add_sub_cancel' (by omega)]
      exact Nat.log2_self_le hne

theorem exists_ofRatio (num : Nat) {den : Nat} (hd : 0 < den) :
    ∃ p, RoundsTo ((num : ℚ) / den * unitsInOne) p ∧ ofRatio num den = ofPattern p := by
  have hden : (0 : ℚ) < den := Nat.cast_pos.mpr hd
  have hscaled : (num : ℚ) / den * unitsInOne = ((num * unitsInOne : Nat) : ℚ) / den := by
    push_cast
    ring
  refine ⟨_, ?_, rfl⟩
  rw [hscaled]
  generalize num * unitsInOne = scaled
  obtain ⟨htop, hlow⟩ := significand_bounds (scaled / den)
  have hfloor := Nat.div_div_eq_div_mul scaled den (2 ^ (Nat.log2 (scaled / den) - 52))
  have hfrom := Nat.cast_div_le (α := ℚ) (m := scaled) (n := den)
  generalize Nat.log2 (scaled / den) - 52 = k at *
  have hstep : 0 < 2 ^ k := Nat.two_pow_pos k
  rw [Nat.shiftLeft_eq]
  have hle := le_roundHalfEven scaled (den * 2 ^ k)
  have hge := roundHalfEven_le scaled (den * 2 ^ k)
  obtain ⟨hnear, heven⟩ := roundHalfEven_near scaled (Nat.mul_pos hd hstep)
  generalize roundHalfEven scaled (den * 2 ^ k) = s at *
  rw [← hfloor] at hle hge
  have hdist :
      |(s : ℚ) * (den * 2 ^ k : Nat) - scaled| = |(s : ℚ) * 2 ^ k - scaled / den| * den := by
    rw [← abs_of_pos hden, ← abs_mul, abs_of_pos hden, sub_mul, div_mul_cancel₀ _ hden.ne']
    push_cast
    ring_nf
  have hhalf : ((den * 2 ^ k : Nat) : ℚ) / 2 = 2 ^ k / 2 * den := by
    push_cast
    ring
  rw [hdist, hhalf] at hnear heven
  refine RoundsTo.of_significand (by omega) ?_ ?_ ?_ ?_
  · exact hlow.imp_right fun h => ((Nat.le_div_iff_mul_le hstep).mpr h).trans hle
  · exact hlow.imp_right fun h => (Nat.cast_le.mpr h).trans hfrom
  · exact le_of_mul_le_mul_right hnear hden
  · intro h
    exact heven (congrArg (· * (den : ℚ)) h)

/-! ## Powers of ten -/

theorem roundsTo_zero_iff {q : ℚ} : RoundsTo q 0 ↔ q ≤ 1 / 2 := by
  have hhalf : halfway 0 = 1 / 2 := by
    have h : unitsOf 0 = 0 ∧ unitsOf 1 = 1 := by decide
    rw [halfway, h.1, h.2]
    norm_num
  rw [← hhalf]
  constructor
  · intro h
    exact h.above.1
  · intro h
    exact ⟨fun r hr => absurd hr (Nat.succ_ne_zero r), h, fun _ => Even.zero⟩

/-- Half a unit and all below it is rounded to zero. -/
theorem RoundsTo.eq_zero_iff {q : ℚ} {p : Nat} (h : RoundsTo (q * unitsInOne) p) :
    p = 0 ↔ q ≤ 2 ^ (-1075 : ℤ) := by
  have hhalf : q ≤ 2 ^ (-1075 : ℤ) ↔ q * unitsInOne ≤ 1 / 2 := by
    have hpow : (2 : ℚ) ^ (-1075 : ℤ) = 1 / 2 / unitsInOne := by
      have hsum : (-1075 : ℤ) = -1 + -((1074 : Nat) : ℤ) := by norm_num
      rw [hsum, zpow_add₀ (by norm_num), zpow_neg, zpow_neg, zpow_natCast, ← cast_unitsInOne]
      norm_num [div_eq_mul_inv]
    rw [hpow, le_div_iff₀ cast_unitsInOne_pos]
  rw [hhalf, ← roundsTo_zero_iff]
  constructor
  · rintro rfl
    exact h
  · exact h.unique

theorem ofPattern_eq_zero_iff {p : Nat} : ofPattern p = ⟨0⟩ ↔ p = 0 := by
  constructor
  · intro h
    have hmagnitude : (ofPattern p).magnitude = 0 := by rw [h]; decide
    rw [magnitude_ofPattern] at hmagnitude
    have : 0 < infinityBits := by decide
    omega
  · rintro rfl
    rfl

theorem bits_ofPattern_le {p p' : Nat} (h : p ≤ p') : (ofPattern p).bits ≤ (ofPattern p').bits := by
  rw [UInt64.le_iff_toNat_le, toNat_bits_ofPattern, toNat_bits_ofPattern]
  exact min_le_min_right _ h

theorem zpow_of_nonneg {e : Int} (h : 0 ≤ e) :
    (10 : ℚ) ^ e = ((Nat.pow 10 e.toNat : Nat) : ℚ) := by
  rw [Nat.pow_eq, Nat.cast_pow, ← zpow_natCast, Int.toNat_of_nonneg h]
  rfl

theorem zpow_of_neg {e : Int} (h : e < 0) :
    (10 : ℚ) ^ e = 1 / ((Nat.pow 10 (-e).toNat : Nat) : ℚ) := by
  rw [← zpow_of_nonneg (by omega), zpow_neg, one_div, inv_inv]

theorem overflow_le_pow : overflow ≤ 10 ^ (310 : ℤ) := by
  have hpow : (2 : ℚ) ^ 205 ≤ 10 ^ 62 := by norm_num
  calc overflow ≤ 2 ^ 1024 := sub_le_self _ (pow_nonneg (by norm_num) 970)
    _ ≤ 2 ^ (205 * 5) := pow_le_pow_right₀ (by norm_num) (by norm_num)
    _ = (2 ^ 205) ^ 5 := pow_mul 2 205 5
    _ ≤ (10 ^ 62) ^ 5 := pow_le_pow_left₀ (by positivity) hpow 5
    _ = 10 ^ (62 * 5) := (pow_mul 10 62 5).symm
    _ = 10 ^ (310 : ℤ) := (zpow_natCast 10 (62 * 5)).symm

theorem two_pow_mul_le {j m : Nat} (h : j + 2 ≤ 9 * m) (n : Nat) :
    2 * (n * 2 ^ j) ≤ 10 ^ (3 * m + Nat.log2 n) := by
  have hn : n ≤ 2 ^ (Nat.log2 n + 1) := Nat.lt_log2_self.le
  have hnine (i : Nat) : 2 ^ (9 * i) ≤ 10 ^ (3 * i) := by
    rw [Nat.pow_mul, Nat.pow_mul]
    exact Nat.pow_le_pow_left (by decide) i
  calc 2 * (n * 2 ^ j) ≤ 2 * (2 ^ (Nat.log2 n + 1) * 2 ^ j) :=
        Nat.mul_le_mul_left 2 (Nat.mul_le_mul_right _ hn)
    _ = 2 ^ (j + 2) * 2 ^ Nat.log2 n := by ring
    _ ≤ 10 ^ (3 * m) * 10 ^ Nat.log2 n :=
        Nat.mul_le_mul ((Nat.pow_le_pow_right (by decide) h).trans (hnine m))
          (Nat.pow_le_pow_left (by decide) _)
    _ = 10 ^ (3 * m + Nat.log2 n) := (Nat.pow_add ..).symm

/-- A number whose length is this far below the power is half a unit at
most. -/
theorem units_mul_le_pow {n k : Nat} (h : 400 + Nat.log2 n ≤ k) :
    2 * (n * unitsInOne) ≤ 10 ^ k := by
  rw [unitsInOne_eq]
  exact (two_pow_mul_le (m := 133) (by decide) n).trans
    (Nat.pow_le_pow_right (by decide) (by omega))

theorem exists_ofScaled (n : Nat) (e : Int) :
    ∃ p, RoundsTo ((n : ℚ) * 10 ^ e * unitsInOne) p ∧ ofScaled n e = ofPattern p := by
  unfold ofScaled
  split
  case isTrue hn =>
    refine ⟨0, roundsTo_zero_iff.mpr ?_, rfl⟩
    rw [hn, Nat.cast_zero, zero_mul, zero_mul]
    norm_num
  case isFalse hn =>
  have hone : (1 : ℚ) ≤ n := Nat.one_le_cast.mpr (Nat.one_le_iff_ne_zero.mpr hn)
  split
  case isTrue he =>
    obtain ⟨p, hp, -⟩ := exists_ofRatio (n * Nat.pow 10 e.toNat) Nat.one_pos
    rw [Nat.cast_mul, Nat.cast_one, div_one, ← zpow_of_nonneg (by omega)] at hp
    refine ⟨p, hp, (ofPattern_eq_infinity_iff.mpr (hp.infinityBits_le_iff.mpr ?_)).symm⟩
    have hmono : (10 : ℚ) ^ (310 : ℤ) ≤ 10 ^ e := zpow_le_zpow_right₀ (by norm_num) he
    exact (overflow_le_pow.trans hmono).trans 
      (le_mul_of_one_le_left (zpow_nonneg (by norm_num) e) hone)
  case isFalse _ =>
  split
  case isTrue he =>
    obtain ⟨p, hp, heq⟩ := exists_ofRatio (n * Nat.pow 10 e.toNat) Nat.one_pos
    rw [Nat.cast_mul, Nat.cast_one, div_one, ← zpow_of_nonneg he] at hp
    exact ⟨p, hp, heq⟩
  case isFalse he =>
  have hpow : (10 : ℚ) ^ e = 1 / ((Nat.pow 10 (-e).toNat : Nat) : ℚ) := zpow_of_neg (by omega)
  split
  case isTrue hlog =>
    refine ⟨0, roundsTo_zero_iff.mpr ?_, rfl⟩
    have hpos : (0 : ℚ) < (Nat.pow 10 (-e).toNat : Nat) :=
      Nat.cast_pos.mpr (Nat.pow_pos (by decide))
    have hle : (2 : ℚ) * (n * unitsInOne) ≤ (Nat.pow 10 (-e).toNat : Nat) := by
      exact_mod_cast units_mul_le_pow (k := (-e).toNat) (by omega)
    rw [hpow, mul_one_div, div_mul_eq_mul_div, div_le_iff₀ hpos]
    linarith
  case isFalse _ =>
    have hden : 0 < Nat.pow 10 (-e).toNat := Nat.pow_pos (by decide)
    obtain ⟨p, hp, heq⟩ := exists_ofRatio n hden
    rw [div_eq_mul_one_div, ← hpow] at hp
    exact ⟨p, hp, heq⟩

end LoxScan.Binary64
