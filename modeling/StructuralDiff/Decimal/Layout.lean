import StructuralDiff.Decimal.Shortest

/-!
# Layouts of decimal numbers

How a decimal is written: with the point in place, or in scientific form with a
power of ten. A layout is a record of the choices a written format makes.
-/

namespace StructuralDiff

namespace Decimal

/-- The choices of a written format. -/
structure Layout where
  /-- Whether a number is written with the point in place, by the power of ten of
  its first digit. -/
  positional : Int → Bool
  /-- Whether a whole number written in place gets the fraction `.0`. -/
  wholeFraction : Bool
  /-- Whether a positive power of ten is written with its sign. -/
  plusSign : Bool

/-- Always with the point in place, and no fraction where there is none. -/
def Layout.plain : Layout where
  positional _ := true
  wholeFraction := false
  plusSign := false

/-- The digits of a decimal, first to last. -/
def digitChars (decimal : Decimal) : List Char :=
  Nat.toDigits 10 decimal.digits

/-- The power of ten of the first digit. -/
def leadingExponent (decimal : Decimal) : Int :=
  decimal.exponent + decimal.digitChars.length - 1

/-- The decimal with its point in place. -/
def inPlace (wholeFraction : Bool) (decimal : Decimal) : List Char :=
  let digits := decimal.digitChars
  let whole := digits.length + decimal.exponent
  if 0 ≤ decimal.exponent then
    digits ++ List.replicate decimal.exponent.toNat '0' ++ (if wholeFraction then ['.', '0'] else [])
  else if 0 < whole then
    digits.take whole.toNat ++ '.' :: digits.drop whole.toNat
  else
    '0' :: '.' :: List.replicate (-whole).toNat '0' ++ digits

/-- The decimal with one digit before the point and a power of ten. -/
def scientific (plusSign : Bool) (decimal : Decimal) : List Char :=
  let power := decimal.leadingExponent
  let mantissa := match decimal.digitChars with
    | [] => []
    | [digit] => [digit]
    | digit :: rest => digit :: '.' :: rest
  let sign := if power < 0 then ['-'] else if plusSign then ['+'] else []
  mantissa ++ 'e' :: sign ++ Nat.toDigits 10 power.natAbs

/-- The decimal as a layout writes it. -/
def write (layout : Layout) (decimal : Decimal) : List Char :=
  if layout.positional decimal.leadingExponent then decimal.inPlace layout.wholeFraction
  else decimal.scientific layout.plusSign

end Decimal

namespace Binary64

/-- A finite number as a layout writes its shortest decimal. -/
def write (layout : Decimal.Layout) (x : Binary64) : String :=
  String.ofList ((if x.isNegative then ['-'] else []) ++ (Decimal.shortest x).write layout)

/-- A number in plain form: the shortest decimal with its point in place, and the
words for what is not finite. -/
def plainText (x : Binary64) : String :=
  if x.isNaN then "NaN"
  else if x.isInfinite then (if x.isNegative then "-inf" else "inf")
  else x.write Decimal.Layout.plain

end Binary64

end StructuralDiff
