import StructuralDiff.Binary64.Rounding
import StructuralDiff.Decimal.Integer
import StructuralDiff.Decimal.Layout

/-!
# Numbers of a document

A number keeps the form it was read in: a signed integer, an unsigned one above
the signed range, or a double-precision number. Integers never pass through
double precision when they are compared with each other, so identifiers above
`2 ^ 53` stay apart; across forms, numbers are compared by value.
-/

namespace StructuralDiff

/-- A number, in the form it was read in. -/
inductive Number where
  | int (value : Int64)
  /-- Meant for the integers above the signed range. -/
  | uint (value : UInt64)
  | float (value : Binary64)
deriving DecidableEq

/-- A signed sixty-four-bit integer can hold a value. -/
def Number.isSigned (value : Int) : Bool :=
  Int64.minValue.toInt ≤ value && value ≤ Int64.maxValue.toInt

namespace Binary64

/-- The integer that a number is, when it is whole and a signed sixty-four-bit
integer can hold it. -/
def toInteger? (x : Binary64) : Option Int :=
  if x.isWhole && Number.isSigned x.truncate then some x.truncate else none

end Binary64

namespace Number

/-- An unsigned integer, kept signed where it fits. -/
def ofNat64 (value : UInt64) : Number :=
  if isSigned value.toNat then .int (Int64.ofNat value.toNat) else .uint value

/-- The double-precision number nearest to a number. -/
def toBinary64 : Number → Binary64
  | .int value => Binary64.ofInt value.toInt
  | .uint value => Binary64.ofInt value.toNat
  | .float value => value

/-- The double-precision number nearest to `10 ^ 38`. Whole numbers below it are
compared as integers. -/
def wholeBound : Binary64 := Binary64.ofDecimal false 1 38

/-- The integer that a number is, where it is compared as one. -/
def wholeValue : Number → Option Int
  | .int value => some value.toInt
  | .uint value => some value.toNat
  | .float value =>
    if value.isWhole && value.magnitude < wholeBound.magnitude then some value.truncate else none

/-- The order of numbers: integers exactly, all else as double-precision numbers
in their total order. -/
def order (left right : Number) : Ordering :=
  match left.wholeValue, right.wholeValue with
  | some x, some y => compare x y
  | _, _ => left.toBinary64.totalCompare right.toBinary64

/-- Equality by value, across the forms. What is not a number equals nothing. -/
def equal (left right : Number) : Bool :=
  match left.wholeValue, right.wholeValue with
  | some x, some y => x == y
  | none, none => left.toBinary64.equal right.toBinary64
  | _, _ => false

/-- The text of a number: an integer in decimal, also for a floating number that
is a signed integer, and otherwise the plain form. -/
def text : Number → String
  | .int value => Decimal.integerText value.toInt
  | .uint value => Decimal.naturalText value.toNat
  | .float value =>
    match value.toInteger? with
    | some integer => Decimal.integerText integer
    | none => value.plainText

/-- The bound has the magnitude that its decimal stands for. -/
example : wholeBound.bits = 0x47d2ced32a16a1b1 := by decide +kernel

end Number

end StructuralDiff
