import StructuralDiff.Binary64.Basic

/-!
# Rounding to double precision

The double-precision number nearest to an exact ratio, a tie going to the number
whose last bit is zero, and what is computed through it: integers, decimal
numerals, products and quotients.
-/

namespace StructuralDiff

/-- The whole number nearest to a quotient, a tie going to the even neighbour. -/
def nearestQuotient (dividend divisor : Nat) : Nat :=
  let floor := dividend / divisor
  let twice := 2 * (dividend % divisor)
  if twice < divisor || (twice == divisor && floor % 2 == 0) then floor else floor + 1

namespace Binary64

/-- The magnitude nearest to a ratio. The quotient in units keeps fifty-three
bits; since a binade follows the one below it without a gap, the kept bits and
the number of dropped ones add up to the magnitude, also when rounding carries
into the next binade. -/
def nearestMagnitude (numerator denominator : Nat) : Nat :=
  let scaled := numerator * unitsInOne
  let dropped := (scaled / denominator).log2 - 52
  min (dropped * binadeSize + nearestQuotient scaled (denominator <<< dropped)) infinityMagnitude

/-- The number nearest to a ratio, with a given sign. -/
def ofRatio (negative : Bool) (numerator denominator : Nat) : Binary64 :=
  ofMagnitude negative (nearestMagnitude numerator denominator)

/-- The number nearest to an integer. -/
def ofInt (value : Int) : Binary64 :=
  ofRatio (value < 0) value.natAbs 1

/-- The number nearest to `digits * 10 ^ exponent`. Beyond the first bound every
such value is infinite, below the second every one is zero, so the powers of ten
that are computed stay small. -/
def ofDecimal (negative : Bool) (digits : Nat) (exponent : Int) : Binary64 :=
  let top := exponent + (Nat.toDigits 10 digits).length
  if digits = 0 ∨ top < -324 then ofMagnitude negative 0
  else if 310 < top then infinity negative
  else if 0 ≤ exponent then ofRatio negative (digits * Nat.pow 10 exponent.toNat) 1
  else ofRatio negative digits (Nat.pow 10 (-exponent).toNat)

/-- The rounded product of two finite numbers. -/
def product (x y : Binary64) : Binary64 :=
  ofRatio (x.isNegative != y.isNegative) (x.units * y.units) (unitsInOne * unitsInOne)

/-- The rounded quotient of a finite number by a finite number other than zero. -/
def quotient (x y : Binary64) : Binary64 :=
  ofRatio (x.isNegative != y.isNegative) x.units y.units

/-- The number with the other sign. -/
def negate (x : Binary64) : Binary64 :=
  ofMagnitude (!x.isNegative) x.magnitude

/-- The whole number nearest to a finite number, a half going away from zero. The
sign stays, so a small negative number becomes negative zero. -/
def roundHalfAway (x : Binary64) : Binary64 :=
  if !x.isFinite || x.isWhole then x
  else ofRatio x.isNegative ((2 * x.units + unitsInOne) / (2 * unitsInOne)) 1

end Binary64

end StructuralDiff
