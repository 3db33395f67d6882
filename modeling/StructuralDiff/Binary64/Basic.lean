/-!
# Double-precision numbers

The sixty-four-bit floating-point numbers, held as their bits and read in exact
natural-number arithmetic. Every finite number is a whole multiple of the least
positive one, `2 ^ -1074`, so its absolute value is a natural number of such
units; nothing below rounds.
-/

namespace StructuralDiff

/-- A double-precision number, given by its bits: the sign, eleven bits of
exponent and fifty-two bits of fraction. -/
structure Binary64 where
  bits : UInt64
deriving DecidableEq

namespace Binary64

/-- The weight of the sign bit, above the exponent and the fraction. -/
def signWeight : Nat := 1 <<< 63

/-- The number of fractions, which is the number of magnitudes in a binade. -/
def binadeSize : Nat := 1 <<< 52

/-- The bits without the sign. They order the absolute values. -/
def magnitude (x : Binary64) : Nat :=
  x.bits.toNat % signWeight

/-- The sign bit. Zero and the numbers that are not one have a sign too. -/
def isNegative (x : Binary64) : Bool :=
  signWeight ≤ x.bits.toNat

/-- The magnitude of the two infinities; greater magnitudes stand for no number. -/
def infinityMagnitude : Nat := 2047 * binadeSize

/-- The number with a given sign and magnitude. -/
def ofMagnitude (negative : Bool) (magnitude : Nat) : Binary64 :=
  ⟨UInt64.ofNat (if negative then signWeight + magnitude else magnitude)⟩

/-- Neither infinite nor outside the numbers. -/
def isFinite (x : Binary64) : Bool := x.magnitude < infinityMagnitude

/-- One of the two infinities. -/
def isInfinite (x : Binary64) : Bool := x.magnitude == infinityMagnitude

/-- A bit pattern that stands for no number. -/
def isNaN (x : Binary64) : Bool := infinityMagnitude < x.magnitude

/-- A zero of either sign. -/
def isZero (x : Binary64) : Bool := x.magnitude == 0

/-- Positive zero. -/
def zero : Binary64 := ofMagnitude false 0

/-- The infinity of a given sign. -/
def infinity (negative : Bool) : Binary64 := ofMagnitude negative infinityMagnitude

/-- The quiet pattern that stands for no number, with a given sign. -/
def notANumber (negative : Bool) : Binary64 := 
  ofMagnitude negative (infinityMagnitude + binadeSize / 2)

/-- The units in one: the least positive number is `1 / unitsInOne`. -/
def unitsInOne : Nat := 1 <<< 1074

/-- The absolute value, in units, that a magnitude encodes: a fraction alone in
the lowest binade, a fraction with its leading bit in the binades above. -/
def unitsOfMagnitude (magnitude : Nat) : Nat :=
  let binade := magnitude / binadeSize
  let fraction := magnitude % binadeSize
  if binade = 0 then fraction else (binadeSize + fraction) <<< (binade - 1)

/-- The absolute value of a finite number, in units. -/
def units (x : Binary64) : Nat := unitsOfMagnitude x.magnitude

/-- The exact value of a finite number, in units. -/
def signedUnits (x : Binary64) : Int :=
  if x.isNegative then -(x.units : Int) else x.units

/-- Finite and without a fractional part. -/
def isWhole (x : Binary64) : Bool :=
  x.isFinite && x.units % unitsInOne == 0

/-- The value of a finite number, cut off toward zero. -/
def truncate (x : Binary64) : Int :=
  let whole := x.units / unitsInOne
  if x.isNegative then -(whole : Int) else whole

/-- Numerical equality: the two zeros are equal, and what is not a number equals
nothing, itself included. -/
def equal (x y : Binary64) : Bool :=
  !x.isNaN && !y.isNaN && (x.bits == y.bits || (x.isZero && y.isZero))

/-- The place of a number in the total order of bit patterns: the negative
patterns in reverse, then the positive ones. -/
def rank (x : Binary64) : Int :=
  if x.isNegative then -(x.magnitude : Int) - 1 else x.magnitude

/-- The total order of bit patterns. It follows the values; negative zero comes
before positive zero, and patterns that are not numbers come at the two ends. -/
def totalCompare (x y : Binary64) : Ordering :=
  compare x.rank y.rank

end Binary64

end StructuralDiff
