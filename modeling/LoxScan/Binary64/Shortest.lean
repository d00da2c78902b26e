import LoxScan.Binary64.Basic

/-!
# The shortest decimal that reads back

A decimal *reads back* as a number if the number is the nearest one to
it. `shortest` gives the decimal of the fewest digits that reads back as
a finite number. For each digit count, starting at one, it tries the two
neighbours of the number on the grid of decimals with that many digits;
if any decimal of the grid reads back then one of these does. Of two that
both do, the nearer wins, and an exact tie is the caller's choice.

Reading back is tested and not inferred, so every decimal that leaves
this module reads back by construction: should no count up to seventeen
succeed, the exact expansion is given.
-/

namespace LoxScan

/-- Where an exact tie between two neighbouring decimals goes. -/
inductive Tie where
  | toEven
  | upward
  deriving DecidableEq, Repr

/-- A decimal `0.d₁d₂… · 10^point` without zeros at its end. -/
structure Decimal where
  digits : List Char
  point : Int
  deriving DecidableEq, Repr

namespace Decimal

/-- The digits of `n · 10^e`, zeros at the end left out. -/
def ofScaled (n : Nat) (e : Int) : Decimal :=
  let ds := Nat.toDigits 10 n
  { digits := (ds.reverse.dropWhile (· == '0')).reverse
    point := (ds.length : Int) + e }

end Decimal

namespace Binary64

/-- Whether `n · 10^e` rounds to the magnitude of `x`. -/
def readsBack (x : Binary64) (n : Nat) (e : Int) : Bool :=
  (ofScaled n e).bits.toNat == x.magnitude

/-- The magnitude of a finite number as a quotient in units of `10^e`. -/
def overPower (x : Binary64) (e : Int) : Nat × Nat :=
  if 0 ≤ e then (x.units, unitsInOne * Nat.pow 10 e.toNat)
  else (x.units * Nat.pow 10 (-e).toNat, unitsInOne)

/-- The greatest `e` with `10^e` at most the magnitude of `x`, which is
finite and not zero. The logarithm to base two gives it up to one. -/
def decimalExponent (x : Binary64) : Int :=
  let bits := (Nat.log2 x.units : Int) - 1074
  let guess := (bits * 30103) / 100000
  let (num, den) := x.overPower guess
  if num < den then guess - 1
  else if 10 * den ≤ num then guess + 1
  else guess

/-- The better of the two multiples of `10^e` next to the magnitude of
`x`, if either reads back. -/
def neighbour? (tie : Tie) (x : Binary64) (e : Int) : Option Nat :=
  let (num, den) := x.overPower e
  let below := num / den
  let above := below + 1
  let rest := num % den
  match x.readsBack below e, x.readsBack above e with
  | true, true =>
    if 2 * rest < den then some below
    else if den < 2 * rest then some above
    else match tie with
      | .upward => some above
      | .toEven => some (below + below % 2)
  | true, false => some below
  | false, true => some above
  | false, false => none

/-- The decimal of the fewest digits that reads back as the magnitude of
a finite number. -/
def shortest (tie : Tie) (x : Binary64) : Decimal :=
  if x.units = 0 then { digits := ['0'], point := 1 }
  else
    let top := x.decimalExponent
    let found := (List.range 17).findSome? fun (k : Nat) =>
      let e := top - (k : Int)
      (x.neighbour? tie e).map (·, e)
    match found with
    | some (n, e) => Decimal.ofScaled n e
    | none => Decimal.ofScaled (x.units * Nat.pow 5 1074) (-1074)

end Binary64

end LoxScan
