import Mathlib.Algebra.Order.Ring.Abs
import Mathlib.Data.Rat.Cast.Order
import Mathlib.Order.Monotone.Basic
import Mathlib.Tactic.FieldSimp
import Mathlib.Tactic.Linarith
import Mathlib.Tactic.Positivity
import Mathlib.Tactic.Ring
import LoxScan.Binary64.Basic

/-!
# Patterns in a row

The patterns of nonnegative numbers are counted up in the order of the
numbers, so `unitsOf` is strictly monotone, and it is so without end: the
pattern of infinity has its turn like any other, as the number that comes
after the greatest finite one.

A number lies between two points, half way to each of its neighbours.
`RoundsTo q p` says that `q` does, where the points themselves belong to
the even pattern. There is one such pattern, and a greater `q` has no
smaller one (`RoundsTo.le`).
-/

namespace LoxScan.Binary64

theorem binade_pos : 0 < binade := by decide

theorem even_binade : Even binade := by decide

/-- The units of a pattern, were there no end to the exponents. -/
def unitsOf (p : Nat) : Nat :=
  if p / binade = 0 then p % binade else (p % binade + binade) <<< (p / binade - 1)

theorem units_eq (x : Binary64) : x.units = unitsOf x.magnitude := rfl

theorem unitsOf_of_lt {s : Nat} (h : s < binade) : unitsOf s = s := by
  rw [unitsOf, Nat.div_eq_of_lt h, if_pos rfl, Nat.mod_eq_of_lt h]

theorem unitsOf_succ_binade {k t : Nat} (h : t < binade) :
    unitsOf ((k + 1) * binade + t) = (t + binade) * 2 ^ k := by
  obtain ⟨hdiv, hmod⟩ : ((k + 1) * binade + t) / binade = k + 1
      ∧ ((k + 1) * binade + t) % binade = t :=
    (Nat.div_mod_unique binade_pos).mpr ⟨by rw [Nat.mul_comm, Nat.add_comm], h⟩
  rw [unitsOf, hdiv, hmod, if_neg (Nat.succ_ne_zero k), Nat.add_sub_cancel, Nat.shiftLeft_eq]

/-- A significand at an exponent. One that has grown to twice a binade is
at the next exponent. -/
theorem unitsOf_significand {k s : Nat} (hs : s ≤ 2 * binade) (hk : k = 0 ∨ binade ≤ s) :
    unitsOf (k * binade + s) = s * 2 ^ k := by
  by_cases hlt : s < binade
  · obtain rfl := hk.resolve_right (Nat.not_le.mpr hlt)
    rw [Nat.zero_mul, Nat.zero_add, unitsOf_of_lt hlt, Nat.pow_zero, Nat.mul_one]
  obtain ⟨t, rfl⟩ := Nat.exists_eq_add_of_le (Nat.not_lt.mp hlt)
  rw [← Nat.add_assoc, ← Nat.succ_mul]
  by_cases ht : t < binade
  · rw [unitsOf_succ_binade ht, Nat.add_comm t]
  · obtain rfl : t = binade := by omega
    have h := unitsOf_succ_binade (k := k + 1) binade_pos
    rw [Nat.add_zero, Nat.succ_mul (k + 1)] at h
    rw [h, Nat.zero_add, Nat.pow_succ]
    ring

theorem exists_significand (p : Nat) :
    ∃ k s, p = k * binade + s ∧ s < 2 * binade ∧ (k = 0 ∨ binade ≤ s) := by
  have hB := binade_pos
  have hmod := Nat.mod_lt p hB
  have hdiv := Nat.div_add_mod p binade
  rw [Nat.mul_comm] at hdiv
  cases hk : p / binade with
  | zero =>
      rw [hk, Nat.zero_mul, Nat.zero_add] at hdiv
      exact ⟨0, p, by rw [Nat.zero_mul, Nat.zero_add], by omega, Or.inl rfl⟩
  | succ k =>
      rw [hk, Nat.succ_mul] at hdiv
      exact ⟨k, binade + p % binade, by omega, by omega, Or.inr (by omega)⟩

/-- The next pattern is one step of the exponent away. -/
theorem unitsOf_succ {k s : Nat} (hs : s < 2 * binade) (hk : k = 0 ∨ binade ≤ s) :
    unitsOf (k * binade + s + 1) = unitsOf (k * binade + s) + 2 ^ k := by
  rw [unitsOf_significand (Nat.le_of_lt hs) hk, Nat.add_assoc,
    unitsOf_significand hs (hk.imp_right Nat.le_succ_of_le), Nat.succ_mul]

theorem le_unitsOf_succ {k s : Nat} (hs : s ≤ 2 * binade) (hk : k = 0 ∨ binade ≤ s) :
    unitsOf (k * binade + s) + 2 ^ k ≤ unitsOf (k * binade + s + 1) := by
  rcases Nat.lt_or_eq_of_le hs with hlt | rfl
  · exact Nat.le_of_eq (unitsOf_succ hlt hk).symm
  · have hnext : k * binade + 2 * binade = (k + 1) * binade + binade := by ring
    have hB := binade_pos
    rw [hnext, unitsOf_succ (by omega) (Or.inr le_rfl)]
    exact Nat.add_le_add_left (Nat.pow_le_pow_right (by decide) (Nat.le_succ k)) _

theorem strictMono_unitsOf : StrictMono unitsOf := by
  refine strictMono_nat_of_lt_succ fun p => ?_
  obtain ⟨k, s, rfl, hs, hk⟩ := exists_significand p
  rw [unitsOf_succ hs hk]
  exact Nat.lt_add_of_pos_right (Nat.two_pow_pos k)

/-! ## Half-way points -/

theorem left_nearer_iff {a b q : ℚ} (h : a < b) : |a - q| ≤ |b - q| ↔ q ≤ (a + b) / 2 := by
  rw [← sq_le_sq]
  constructor
  · intro hsq
    nlinarith
  · intro hq
    nlinarith

theorem right_nearer_iff {a b q : ℚ} (h : a < b) : |b - q| ≤ |a - q| ↔ (a + b) / 2 ≤ q := by
  rw [← sq_le_sq]
  constructor
  · intro hsq
    nlinarith
  · intro hq
    nlinarith

theorem as_near_iff {a b q : ℚ} (h : a < b) : |a - q| = |b - q| ↔ q = (a + b) / 2 := by
  rw [le_antisymm_iff, le_antisymm_iff, left_nearer_iff h, right_nearer_iff h]

/-- The point half way from a pattern to the next one. -/
def halfway (p : Nat) : ℚ := ((unitsOf p : ℚ) + unitsOf (p + 1)) / 2

theorem strictMono_halfway : StrictMono halfway := by
  intro p p' h
  have h1 : (unitsOf p : ℚ) < unitsOf p' := Nat.cast_lt.mpr (strictMono_unitsOf h)
  have h2 : (unitsOf (p + 1) : ℚ) < unitsOf (p' + 1) :=
    Nat.cast_lt.mpr (strictMono_unitsOf (Nat.succ_lt_succ h))
  unfold halfway
  linarith

/-- `q` units are nearest to this pattern. -/
structure RoundsTo (q : ℚ) (p : Nat) : Prop where
  below : ∀ r, r + 1 = p → halfway r ≤ q ∧ (halfway r = q → Even p)
  above : q ≤ halfway p ∧ (q = halfway p → Even p)

namespace RoundsTo

variable {q q' : ℚ} {p p' : Nat}

theorem le (h : RoundsTo q p) (h' : RoundsTo q' p') (hq : q ≤ q') : p ≤ p' := by
  by_contra hlt
  obtain ⟨r, rfl⟩ : ∃ r, p = r + 1 := ⟨p - 1, by omega⟩
  obtain ⟨hbelow, heven⟩ := h.below r rfl
  obtain ⟨habove, heven'⟩ := h'.above
  have hr : p' ≤ r := by omega
  have hmono := strictMono_halfway.monotone hr
  -- everything in between is one point, which cannot belong to both
  have hpoint : halfway p' = halfway r := by linarith
  obtain rfl := strictMono_halfway.injective hpoint
  have hodd := heven (by linarith)
  have hdue := heven' (by linarith)
  rw [Nat.even_add_one] at hodd
  exact hodd hdue

theorem unique (h : RoundsTo q p) (h' : RoundsTo q p') : p = p' :=
  Nat.le_antisymm (h.le h' le_rfl) (h'.le h le_rfl)

theorem of_eq (p : Nat) : RoundsTo (unitsOf p) p := by
  have hnext : (unitsOf p : ℚ) < unitsOf (p + 1) :=
    Nat.cast_lt.mpr (strictMono_unitsOf (Nat.lt_succ_self p))
  refine ⟨?_, ?_⟩
  · rintro r rfl
    have hprev : (unitsOf r : ℚ) < unitsOf (r + 1) :=
      Nat.cast_lt.mpr (strictMono_unitsOf (Nat.lt_succ_self r))
    unfold halfway
    exact ⟨by linarith, fun h => by linarith⟩
  · unfold halfway
    exact ⟨by linarith, fun h => by linarith⟩

/-- No pattern is nearer, and if another is as near this one is even. -/
theorem dist_le (h : RoundsTo q p) (p' : Nat) :
    |(unitsOf p : ℚ) - q| ≤ |(unitsOf p' : ℚ) - q|
      ∧ (p' ≠ p → |(unitsOf p : ℚ) - q| = |(unitsOf p' : ℚ) - q| → Even p) := by
  rcases Nat.lt_trichotomy p' p with hlt | rfl | hgt
  · obtain ⟨r, rfl⟩ : ∃ r, p = r + 1 := ⟨p - 1, by omega⟩
    obtain ⟨hbelow, heven⟩ := h.below r rfl
    have hle : (unitsOf p' : ℚ) ≤ unitsOf r :=
      Nat.cast_le.mpr (strictMono_unitsOf.monotone (Nat.le_of_lt_succ hlt))
    have hunits : (unitsOf p' : ℚ) < unitsOf (r + 1) := Nat.cast_lt.mpr (strictMono_unitsOf hlt)
    unfold halfway at hbelow heven
    refine ⟨(right_nearer_iff hunits).mpr (by linarith), fun _ heq => heven ?_⟩
    have := (as_near_iff hunits).mp heq.symm
    linarith
  · exact ⟨le_rfl, fun h => absurd rfl h⟩
  · obtain ⟨habove, heven⟩ := h.above
    have hle : (unitsOf (p + 1) : ℚ) ≤ unitsOf p' :=
      Nat.cast_le.mpr (strictMono_unitsOf.monotone hgt)
    have hunits : (unitsOf p : ℚ) < unitsOf p' := Nat.cast_lt.mpr (strictMono_unitsOf hgt)
    unfold halfway at habove heven
    refine ⟨(left_nearer_iff hunits).mpr (by linarith), fun _ heq => heven ?_⟩
    have := (as_near_iff hunits).mp heq
    linarith

/-- A significand that is nearest at the exponent of `q` gives the nearest
pattern. -/
theorem of_significand {k s : Nat} (hs : s ≤ 2 * binade) (hk : k = 0 ∨ binade ≤ s)
    (hq : k = 0 ∨ ((binade * 2 ^ k : Nat) : ℚ) ≤ q)
    (hnear : |(s : ℚ) * 2 ^ k - q| ≤ 2 ^ k / 2)
    (htie : |(s : ℚ) * 2 ^ k - q| = 2 ^ k / 2 → Even s) :
    RoundsTo q (k * binade + s) := by
  obtain ⟨hlow, hhigh⟩ := abs_le.mp hnear
  have hstep : (0 : ℚ) < 2 ^ k := by positivity
  have heven (h : Even s) : Even (k * binade + s) := (even_binade.mul_left k).add h
  have hunits : (unitsOf (k * binade + s) : ℚ) = s * 2 ^ k := by
    rw [unitsOf_significand hs hk]
    push_cast
    rfl
  refine ⟨fun r hr' => ?_, ?_⟩
  · by_cases hsame : k = 0 ∨ binade < s
    · -- the pattern below has the same exponent
      obtain ⟨t, rfl⟩ : ∃ t, s = t + 1 := by
        refine ⟨s - 1, ?_⟩
        rcases hsame with rfl | h <;> omega
      obtain rfl : r = k * binade + t := by omega
      have hr : (unitsOf (k * binade + t) : ℚ) = t * 2 ^ k := by
        rw [unitsOf_significand (by omega) (hsame.imp_right Nat.le_of_lt_succ)]
        push_cast
        rfl
      rw [halfway, Nat.add_assoc, hunits, hr]
      push_cast at hhigh htie ⊢
      refine ⟨by linarith, fun h => heven (htie ?_)⟩
      rw [← h, abs_of_nonneg (by linarith)]
      ring
    · -- it has a smaller one, but `q` is above its own pattern
      obtain ⟨hk0, hB⟩ := not_or.mp hsame
      obtain rfl : s = binade := by
        have := hk.resolve_left hk0
        omega
      have hq := hq.resolve_left hk0
      have hr : (unitsOf r : ℚ) < unitsOf (r + 1) :=
        Nat.cast_lt.mpr (strictMono_unitsOf (Nat.lt_succ_self r))
      have hlt : halfway r < q := by
        rw [hr', hunits] at hr
        rw [halfway, hr', hunits]
        push_cast at hq
        linarith
      exact ⟨hlt.le, fun h => absurd h hlt.ne⟩
  · have hnext : (unitsOf (k * binade + s) : ℚ) + 2 ^ k ≤ unitsOf (k * binade + s + 1) := by
      exact_mod_cast le_unitsOf_succ hs hk
    rw [hunits] at hnext
    rw [halfway, hunits]
    refine ⟨by linarith, fun h => heven (htie ?_)⟩
    rw [abs_of_nonpos (by linarith)]
    linarith

end RoundsTo

end LoxScan.Binary64
