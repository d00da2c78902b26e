/-!
# Binary64 numbers as exact integers

A number is its 64-bit IEEE 754 pattern. Every finite magnitude is a
whole multiple of the least positive one, 2⁻¹⁰⁷⁴, so a magnitude is a
natural number of such *units* and all arithmetic here is exact: rounding
a quotient, telling whether a number is integral, and comparing two
numbers never leave the natural numbers.

The rounding law is in the name: `ofRatio num den` is the number nearest
to `num / den`, ties going to the even pattern, and infinity from the
middle between the greatest finite number and 2¹⁰²⁴ on. The pattern of a
rounded significand is its distance from zero in patterns, so a carry
out of the significand runs into the exponent field by itself and the
subnormal range needs no case of its own.
-/

namespace LoxScan

/-- A binary64 number, given by its bit pattern. -/
structure Binary64 where
  bits : UInt64
  deriving DecidableEq, Repr, Inhabited

namespace Binary64

/-- How many patterns share one exponent. -/
def binade : Nat := 1 <<< 52

/-- Units in one: the least positive number is one unit. -/
def unitsInOne : Nat := 1 <<< 1074

/-- The pattern of infinity: all exponent bits and no significand bit. -/
def infinityBits : Nat := 2047 <<< 52

def signBit : Nat := 1 <<< 63

/-- The pattern without its sign bit. -/
def magnitude (x : Binary64) : Nat := x.bits.toNat % signBit

/-- The sign bit, which zeros and NaNs carry too. -/
def isNegative (x : Binary64) : Bool := signBit ≤ x.bits.toNat

def isNaN (x : Binary64) : Bool := infinityBits < x.magnitude

def isInfinite (x : Binary64) : Bool := x.magnitude == infinityBits

def isFinite (x : Binary64) : Bool := x.magnitude < infinityBits

/-- The magnitude of a finite number, counted in units. -/
def units (x : Binary64) : Nat :=
  let exponent := x.magnitude / binade
  let fraction := x.magnitude % binade
  if exponent = 0 then fraction else (fraction + binade) <<< (exponent - 1)

def isIntegral (x : Binary64) : Bool := x.isFinite && x.units % unitsInOne == 0

/-- Equality as IEEE 754 has it: a NaN differs from everything, the two
zeros are equal. -/
def same (x y : Binary64) : Bool :=
  !x.isNaN && !y.isNaN && x.magnitude == y.magnitude &&
    (x.isNegative == y.isNegative || x.magnitude == 0)

def neg (x : Binary64) : Binary64 := ⟨x.bits ^^^ 0x8000000000000000⟩

def infinity : Binary64 := ⟨UInt64.ofNat infinityBits⟩

def roundHalfEven (num den : Nat) : Nat :=
  let q := num / den
  let r := num % den
  if 2 * r < den then q
  else if den < 2 * r then q + 1
  else q + q % 2

/-- The number nearest to `num / den`, a tie to the even pattern. The
significand is rounded at the exponent of the exact quotient, which is
where its 53rd leading bit stands or, below the normal range, at one
unit. -/
def ofRatio (num den : Nat) : Binary64 :=
  let scaled := num * unitsInOne
  let shift := Nat.log2 (scaled / den) - 52
  let significand := roundHalfEven scaled (den <<< shift)
  ⟨UInt64.ofNat (min (shift * binade + significand) infinityBits)⟩

/-- The number nearest to `n · 10^e`. Exponents beyond the range of the
format are settled by the length of `n` alone, so the powers stay
small. -/
def ofScaled (n : Nat) (e : Int) : Binary64 :=
  if n = 0 then ⟨0⟩
  else if 310 ≤ e then infinity
  else if 0 ≤ e then ofRatio (n * Nat.pow 10 e.toNat) 1
  else if 400 + (Nat.log2 n : Int) ≤ -e then ⟨0⟩
  else ofRatio n (Nat.pow 10 (-e).toNat)

def digitsValue (cs : List Char) : Nat :=
  cs.foldl (fun n c => 10 * n + (c.toNat - '0'.toNat)) 0

/-- The number nearest to a numeral: digits, or digits, a point and
digits. -/
def ofNumeral (cs : List Char) : Binary64 :=
  let whole := cs.takeWhile (· ≠ '.')
  let fraction := (cs.dropWhile (· ≠ '.')).drop 1
  ofRatio (digitsValue (whole ++ fraction)) (Nat.pow 10 fraction.length)

end Binary64

end LoxScan
