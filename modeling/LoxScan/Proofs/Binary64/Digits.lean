import Mathlib.Algebra.Group.Nat.Defs
import Mathlib.Data.List.DropRight
import LoxScan.Binary64.Text

/-!
# The digits of a number

Whatever digits a number is written with, they are in lowest form
(`Decimal.Normal`): no zero in front but for zero itself, and always one
digit at least. Both texts made of them have the same shape, some digits
around a point and an exponent at most, and that is all a reader of
numbers relies on.
-/

namespace LoxScan

/-- A row of one digit or more. -/
structure Digits (cs : List Char) : Prop where
  ne_nil : cs ≠ []
  isDigit : ∀ c ∈ cs, c.isDigit = true

theorem digits_toDigits (n : Nat) : Digits (Nat.toDigits 10 n) :=
  ⟨Nat.toDigits_ne_nil, fun _ hc => Nat.isDigit_of_mem_toDigits (by decide) (by decide) hc⟩

theorem toList_toString (n : Nat) : (toString n).toList = Nat.toDigits 10 n := by
  rw [Nat.toString_eq_repr, Nat.toList_repr]

/-- A positive number is written without a zero in front. -/
theorem head?_toDigits {n : Nat} (h : n ≠ 0) : (Nat.toDigits 10 n).head? ≠ some '0' := by
  induction n using Nat.strongRecOn with
  | ind n ih =>
      by_cases hn : n < 10
      · rw [Nat.toDigits_of_lt_base hn, List.head?_singleton]
        intro hc
        have hval := Nat.toNat_digitChar_of_lt_ten hn
        rw [Option.some.inj hc] at hval
        exact h (Nat.add_left_cancel (k := 0) hval.symm)
      · rw [Nat.toDigits_of_base_le (by decide) (Nat.le_of_not_lt hn),
          List.head?_append_of_ne_nil _ Nat.toDigits_ne_nil]
        exact ih (n / 10) (by omega) (by omega)

theorem lowest_toDigits (n : Nat) :
    (Nat.toDigits 10 n).head? = some '0' → Nat.toDigits 10 n = ['0'] := by
  intro h
  by_cases hn : n = 0
  · rw [hn, Nat.toDigits_zero]
  · exact absurd h (head?_toDigits hn)

namespace Decimal

/-- Digits in lowest form. -/
structure Normal (d : Decimal) : Prop where
  digits : Digits d.digits
  head : d.digits.head? = some '0' → d.digits = ['0'] ∧ d.point = 1

theorem normal_ofScaled {n : Nat} (h : n ≠ 0) (e : Int) : (ofScaled n e).Normal := by
  have hfront : (ofScaled n e).digits <+: Nat.toDigits 10 n :=
    List.rdropWhile_prefix (· == '0') _
  have hhead := head?_toDigits h
  have hne : (ofScaled n e).digits ≠ [] := by
    intro hnil
    have hall := List.rdropWhile_eq_nil_iff.mp hnil
    obtain ⟨c, cs, hds⟩ := List.exists_cons_of_ne_nil (Nat.toDigits_ne_nil (b := 10) (n := n))
    rw [hds] at hhead hall
    exact hhead (congrArg some (by simpa using hall c (List.mem_cons_self ..)))
  refine ⟨⟨hne, fun c hc => (digits_toDigits n).isDigit c (hfront.subset hc)⟩, fun hzero => ?_⟩
  obtain ⟨zeros, hzeros⟩ := hfront
  rw [← hzeros, List.head?_append_of_ne_nil _ hne] at hhead
  exact absurd hzero hhead

end Decimal

namespace Binary64

theorem units_of_magnitude {x : Binary64} (h : x.magnitude = 0) : x.units = 0 := by
  rw [units, h]
  rfl

theorem readsBack_zero {x : Binary64} (h : x.units ≠ 0) (e : Int) : x.readsBack 0 e = false := by
  rw [readsBack, beq_eq_false_iff_ne]
  exact fun hzero => h (units_of_magnitude hzero.symm)

/-- Of the two neighbours only one that reads back is taken. -/
theorem readsBack_of_neighbour? {tie : Tie} {x : Binary64} {e : Int} {n : Nat}
    (h : x.neighbour? tie e = some n) : x.readsBack n e = true := by
  unfold neighbour? at h
  generalize x.overPower e = p at h
  obtain ⟨num, den⟩ := p
  dsimp only at h
  generalize num / den = below at h
  split at h
  case h_1 hbelow habove =>
    split at h
    · cases h; exact hbelow
    split at h
    · cases h; exact habove
    cases tie with
    | upward => cases h; exact habove
    | toEven =>
        cases h
        rcases Nat.mod_two_eq_zero_or_one below with hmod | hmod
        · rw [hmod]; exact hbelow
        · rw [hmod]; exact habove
  case h_2 hbelow _ => cases h; exact hbelow
  case h_3 habove => cases h; exact habove
  case h_4 => cases h

theorem neighbour?_ne_zero {tie : Tie} {x : Binary64} (h : x.units ≠ 0) {e : Int} {n : Nat}
    (hn : x.neighbour? tie e = some n) : n ≠ 0 := by
  rintro rfl
  have hreads := readsBack_of_neighbour? hn
  rw [readsBack_zero h] at hreads
  cases hreads

theorem normal_shortest (tie : Tie) (x : Binary64) : (x.shortest tie).Normal := by
  unfold shortest
  split
  · exact ⟨⟨by simp, by simp⟩, fun _ => ⟨rfl, rfl⟩⟩
  case isFalse hx =>
    dsimp only
    split
    case h_1 n e hfound =>
      obtain ⟨k, -, hk⟩ := List.exists_of_findSome?_eq_some hfound
      obtain ⟨m, hm, heq⟩ := Option.map_eq_some_iff.mp hk
      cases heq
      exact Decimal.normal_ofScaled (neighbour?_ne_zero hx hm) _
    case h_2 =>
      refine Decimal.normal_ofScaled (Nat.mul_ne_zero hx ?_) _
      generalize 1074 = k
      exact (Nat.pow_pos (by decide)).ne'

end Binary64

/-! ## The texts made of digits -/

theorem Digits.append {as bs : List Char} (ha : Digits as) (hb : ∀ c ∈ bs, c.isDigit = true) :
    Digits (as ++ bs) :=
  ⟨List.append_ne_nil_of_left_ne_nil ha.ne_nil _,
    List.forall_mem_append.mpr ⟨ha.isDigit, hb⟩⟩

theorem isDigit_of_mem_zeros {n : Nat} {c : Char} (h : c ∈ List.replicate n '0') :
    c.isDigit = true := by
  rw [List.eq_of_mem_replicate h]
  rfl

/-- Digits around a point, without a zero in front of other digits. -/
structure Pointed (text whole fraction : List Char) : Prop where
  eq : text = whole ++ '.' :: fraction
  front : Digits whole
  lowest : whole.head? = some '0' → whole = ['0']
  back : Digits fraction

/-- A digit, perhaps a point and more digits, and a signed exponent. -/
structure Exponential (text : List Char) (digit : Char) (fraction : List Char) (mark : Char)
    (exponent : List Char) : Prop where
  eq : text = digit :: (if fraction = [] then [] else '.' :: fraction) ++ 'e' :: mark :: exponent
  front : digit.isDigit = true
  back : ∀ c ∈ fraction, c.isDigit = true
  mark : mark = '-' ∨ mark = '+'
  power : Digits exponent

namespace Decimal

variable {d : Decimal}

def whole (d : Decimal) : List Char :=
  if d.point ≤ 0 then ['0']
  else d.digits.take d.point.toNat
    ++ List.replicate (d.point.toNat - d.digits.length) '0'

def fraction (d : Decimal) : List Char :=
  if d.point ≤ 0 then List.replicate (-d.point).toNat '0' ++ d.digits
  else if (d.digits.drop d.point.toNat).isEmpty then ['0'] else d.digits.drop d.point.toNat

theorem positional_eq (d : Decimal) : Binary64.positional d = d.whole ++ '.' :: d.fraction := by
  unfold Binary64.positional whole fraction
  split
  · rfl
  · rfl

theorem digits_whole (h : d.Normal) : Digits d.whole := by
  unfold whole
  split
  case isTrue => exact ⟨by simp, by simp⟩
  case isFalse hpoint =>
    have htake : d.digits.take d.point.toNat ≠ [] := by
      rw [Ne, List.take_eq_nil_iff, not_or]
      exact ⟨by omega, h.digits.ne_nil⟩
    exact Digits.append ⟨htake, fun c hc => h.digits.isDigit c (List.mem_of_mem_take hc)⟩
      fun c hc => isDigit_of_mem_zeros hc

theorem digits_fraction (h : d.Normal) : Digits d.fraction := by
  unfold fraction
  split
  case isTrue =>
    refine ⟨List.append_ne_nil_of_right_ne_nil _ h.digits.ne_nil, ?_⟩
    exact List.forall_mem_append.mpr ⟨fun c hc => isDigit_of_mem_zeros hc, h.digits.isDigit⟩
  case isFalse =>
    split
    case isTrue => exact ⟨by simp, by simp⟩
    case isFalse hne =>
      exact ⟨by simpa using hne, fun c hc => h.digits.isDigit c (List.mem_of_mem_drop hc)⟩

theorem pointed_positional (h : d.Normal) :
    Pointed (Binary64.positional d) d.whole d.fraction := by
  refine ⟨d.positional_eq, digits_whole h, fun hzero => ?_, digits_fraction h⟩
  unfold whole at hzero ⊢
  split at hzero
  case isTrue hpoint => rw [if_pos hpoint]
  case isFalse hpoint =>
    have hhead : d.digits.head? = some '0' := by
      obtain ⟨k, hk⟩ : ∃ k, d.point.toNat = k + 1 := ⟨d.point.toNat - 1, by omega⟩
      obtain ⟨c, cs, hds⟩ := List.exists_cons_of_ne_nil h.digits.ne_nil
      rw [hds, hk, List.take_succ_cons] at hzero
      rw [hds]
      exact hzero
    obtain ⟨hdigits, hone⟩ := h.head hhead
    rw [if_neg hpoint, hdigits, hone]
    rfl

/-- The digits around the point are those of the decimal, and zeros. -/
theorem exists_around (d : Decimal) :
    ∃ front back : Nat,
      d.whole ++ d.fraction = List.replicate front '0' ++ (d.digits ++ List.replicate back '0')
        ∧ d.point + d.fraction.length = d.digits.length + back := by
  unfold whole fraction
  split
  case isTrue hpoint =>
    refine ⟨(-d.point).toNat + 1, 0, ?_, ?_⟩
    · simp [List.replicate_succ]
    · rw [List.length_append, List.length_replicate]
      omega
  case isFalse hpoint =>
    split
    case isTrue hempty =>
      have hle : d.digits.length ≤ d.point.toNat := by simpa using hempty
      refine ⟨0, d.point.toNat - d.digits.length + 1, ?_, ?_⟩
      · rw [List.take_of_length_le hle, List.replicate_succ']
        simp
      · rw [List.length_singleton]
        omega
    case isFalse hne =>
      have hlt : d.point.toNat < d.digits.length := by simpa using hne
      refine ⟨0, 0, ?_, ?_⟩
      · rw [Nat.sub_eq_zero_of_le hlt.le]
        simp
      · rw [List.length_drop]
        omega

/-- What they are worth without the point. -/
theorem exists_ofDigitChars (d : Decimal) :
    ∃ back : Nat,
      Nat.ofDigitChars 10 (d.whole ++ d.fraction) 0 = 10 ^ back * Nat.ofDigitChars 10 d.digits 0
        ∧ d.point + d.fraction.length = d.digits.length + back := by
  obtain ⟨front, back, hdigits, hpoint⟩ := d.exists_around
  refine ⟨back, ?_, hpoint⟩
  rw [hdigits, Nat.ofDigitChars_append, Nat.ofDigitChars_replicate_zero, Nat.mul_zero,
    Nat.ofDigitChars_append, Nat.ofDigitChars_replicate_zero]

/-- The exponent of a decimal with one digit before its point. -/
def power (d : Decimal) : Char × List Char :=
  (if d.point - 1 < 0 then '-' else '+', Nat.toDigits 10 (d.point - 1).natAbs)

theorem exponential_scientific (h : d.Normal) {digit : Char} {fraction : List Char}
    (hds : d.digits = digit :: fraction) :
    Exponential (Binary64.scientific d) digit fraction d.power.1 d.power.2 := by
  have hdigit := h.digits.isDigit
  rw [hds] at hdigit
  refine ⟨?_, hdigit digit (List.mem_cons_self ..),
    fun c hc => hdigit c (List.mem_cons_of_mem _ hc), ?_, digits_toDigits _⟩
  · rw [Binary64.scientific, hds, toList_toString]
    cases fraction <;> by_cases he : d.point - 1 < 0 <;> simp [he, power]
  · unfold power
    split
    · exact Or.inl rfl
    · exact Or.inr rfl

end Decimal

namespace Binary64

theorem json?_eq_none_iff {x : Binary64} : x.json? = none ↔ x.isFinite = false := by
  unfold json?
  cases x.isFinite <;> simp

/-- A sign perhaps, and the shortest digits in one of the two shapes. -/
theorem shape_of_json? {x : Binary64} {text : List Char} (h : x.json? = some text) :
    ∃ sign body, text = sign ++ body ∧ sign = (if x.isNegative then ['-'] else [])
      ∧ (Pointed body (x.shortest .toEven).whole (x.shortest .toEven).fraction
        ∨ ∃ digit fraction, (x.shortest .toEven).digits = digit :: fraction
          ∧ Exponential body digit fraction (x.shortest .toEven).power.1
            (x.shortest .toEven).power.2) := by
  have hd := normal_shortest .toEven x
  unfold json? at h
  split at h
  · cases h
  · cases h
    refine ⟨_, _, rfl, rfl, ?_⟩
    split
    · exact Or.inl (Decimal.pointed_positional hd)
    · obtain ⟨digit, fraction, hds⟩ := List.exists_cons_of_ne_nil hd.digits.ne_nil
      exact Or.inr ⟨digit, fraction, hds, Decimal.exponential_scientific hd hds⟩

end Binary64

end LoxScan
