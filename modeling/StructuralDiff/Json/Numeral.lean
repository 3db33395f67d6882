import StructuralDiff.Number

/-!
# JSON numerals

The grammar of a JSON number and the number it stands for.

A numeral without fraction and power is an integer when sixty-four bits hold it.
Any other numeral is a floating number, computed in two roundings: the leading
digits that sixty-four bits hold are rounded to double precision, and the result
is multiplied or divided by a power of ten that is itself rounded. For long or
extreme numerals this may miss the nearest number by the last bit.
-/

namespace StructuralDiff.Json

/-- The parts of a numeral. Digits are kept as they stand. -/
structure Numeral where
  negative : Bool
  whole : List Char
  fraction : Option (List Char)
  /-- Whether the power is negative, and its digits. -/
  power : Option (Bool × List Char)

namespace Numeral

/-- The digits at the start, when there is at least one, and what follows them. -/
def digits? (chars : List Char) : Option (List Char × List Char) :=
  match chars.span Char.isDigit with
  | ([], _) => none
  | (digits, rest) => some (digits, rest)

/-- The whole part: a zero alone, or digits that do not start with one. -/
def whole? (chars : List Char) : Option (List Char × List Char) :=
  match digits? chars with
  | some ('0' :: _ :: _, _) => none
  | other => other

/-- The fraction, if there is one: a point and at least one digit. -/
def fraction? : List Char → Option (Option (List Char) × List Char)
  | '.' :: rest => (digits? rest).map fun (digits, rest) => (some digits, rest)
  | chars => some (none, chars)

/-- The power of ten, if there is one: its letter, maybe a sign, and at least one
digit. -/
def power? : List Char → Option (Option (Bool × List Char) × List Char)
  | [] => some (none, [])
  | char :: rest =>
    if char == 'e' || char == 'E' then
      let (negative, rest) := match rest with
        | '-' :: rest => (true, rest)
        | '+' :: rest => (false, rest)
        | rest => (false, rest)
      (digits? rest).map fun (digits, rest) => (some (negative, digits), rest)
    else some (none, char :: rest)

/-- The numeral at the start of a text, and what follows it. -/
def read? (chars : List Char) : Option (Numeral × List Char) := do
  let (negative, chars) := match chars with
    | '-' :: rest => (true, rest)
    | chars => (false, chars)
  let (whole, chars) ← whole? chars
  let (fraction, chars) ← fraction? chars
  let (power, chars) ← power? chars
  return (⟨negative, whole, fraction, power⟩, chars)

/-- Extend a number by digits as long as sixty-four bits hold it; the digits from
the first one on that would not fit are left over. -/
def extendWord (word : Nat) : List Char → Nat × List Char
  | [] => (word, [])
  | digit :: rest =>
    let longer := 10 * word + (digit.toNat - '0'.toNat)
    if longer < UInt64.size then extendWord longer rest else (word, digit :: rest)

/-- The double-precision number nearest to a power of ten. -/
def powerOfTen (power : Nat) : Binary64 :=
  Binary64.ofRatio false (Nat.pow 10 power) 1

/-- Divide by `10 ^ 308` a number of times, until nothing is left. -/
def divideRounds (x : Binary64) : Nat → Binary64
  | 0 => x
  | rounds + 1 => if x.isZero then x else divideRounds (x.quotient (powerOfTen 308)) rounds

/-- A word times a power of ten, in double precision. Too large a result is
refused. -/
def scaled? (word : Nat) (power : Int) : Option Binary64 :=
  let start := Binary64.ofInt word
  if 308 < power then
    if start.isZero then some start else none
  else if 0 ≤ power then
    let result := start.product (powerOfTen power.toNat)
    if result.isInfinite then none else some result
  else
    let rounds := (power.natAbs - 1) / 308
    some ((divideRounds start rounds).quotient (powerOfTen (power.natAbs - 308 * rounds)))

/-- The floating number of a numeral. Digits of the whole part that a word cannot
hold count as powers of ten; such digits of the fraction are dropped. -/
def toBinary64? (numeral : Numeral) : Option Binary64 :=
  let (word, dropped) := extendWord 0 numeral.whole
  let fraction := numeral.fraction.getD []
  let (word, left) := extendWord word fraction
  let shift : Int := (dropped.length : Int) - (fraction.length - left.length : Nat)
  let power : Int := match numeral.power with
    | none => 0
    | some (negative, digits) =>
      let amount : Nat := Nat.ofDigitChars 10 digits 0
      if negative then -amount else amount
  (scaled? word (shift + power)).map fun x => if numeral.negative then x.negate else x

/-- The number that a numeral stands for, unless it is too large. A negative zero
and an integer below the signed range are floating numbers. -/
def toNumber? (numeral : Numeral) : Option Number :=
  let value := Nat.ofDigitChars 10 numeral.whole 0
  let negated : Int := -(value : Int)
  let fits := if numeral.negative then value != 0 && Number.isSigned negated else value < UInt64.size
  if numeral.fraction.isNone && numeral.power.isNone && fits then
    if numeral.negative then some (.int (Int64.ofInt negated))
    else some (Number.ofNat64 (UInt64.ofNat value))
  else numeral.toBinary64?.map .float

end Numeral

end StructuralDiff.Json
