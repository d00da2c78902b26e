import LoxScan.Binary64.Shortest

/-!
# Numbers as text

Three ways to write a number share one source of digits:

- `listing` writes a whole number in full with one fractional digit and
  any other by its shortest digits, never with an exponent;
- `json` writes the shortest digits, with an exponent outside the range
  `10⁻⁵ … 10¹⁶`, and has no form for what is not finite;
- `plain` writes the shortest digits and pads them with zeros.
-/

namespace LoxScan.Binary64

private def zeros (n : Nat) : List Char := List.replicate n '0'

/-- A decimal written without an exponent: at least one digit before the
point and at least one after it. -/
def positional (d : Decimal) : List Char :=
  if d.point ≤ 0 then
    '0' :: '.' :: (zeros (-d.point).toNat ++ d.digits)
  else
    let k := d.point.toNat
    let whole := d.digits.take k ++ zeros (k - d.digits.length)
    let fraction := d.digits.drop k
    whole ++ '.' :: (if fraction.isEmpty then ['0'] else fraction)

/-- A decimal written as one digit, a fraction if there are more digits,
and a signed exponent. -/
def scientific (d : Decimal) : List Char :=
  let e := d.point - 1
  let mark := if e < 0 then "e-" else "e+"
  let exponent := (toString e.natAbs).toList
  d.digits.take 1 ++ (if d.digits.length ≤ 1 then [] else '.' :: d.digits.drop 1) ++
    mark.toList ++ exponent

private def sign (x : Binary64) : List Char := if x.isNegative then ['-'] else []

/-- The texts of what is not finite. -/
private def special (x : Binary64) : List Char :=
  if x.isNaN then "NaN".toList else x.sign ++ "inf".toList

/-- The text of a number in a listing: a whole number exactly and with
one fractional digit, any other by its shortest digits, a tie upward. -/
def listing (x : Binary64) : List Char :=
  if !x.isFinite then x.special
  else if x.isIntegral then
    x.sign ++ (toString (x.units / unitsInOne)).toList ++ ['.', '0']
  else x.sign ++ positional (x.shortest .upward)

/-- The shortest digits of a number without an exponent, a whole number
with one fractional digit, a tie upward. -/
def plain (x : Binary64) : List Char :=
  if !x.isFinite then x.special else x.sign ++ positional (x.shortest .upward)

/-- The text of a finite number in JSON: the shortest digits, a tie to
the even digit, positional if the decimal exponent is from -5 to 15. -/
def json? (x : Binary64) : Option (List Char) :=
  if !x.isFinite then none
  else
    let d := x.shortest .toEven
    let e := d.point - 1
    some (x.sign ++ if -5 ≤ e ∧ e ≤ 15 then positional d else scientific d)

end LoxScan.Binary64
