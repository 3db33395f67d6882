import StructuralDiff.Binary64.Rounding
import StructuralDiff.Toml.Text

/-!
# TOML numbers

Integers in four bases, of which only decimal ones have a sign, and floating
numbers. An underscore may stand between two digits.
-/

namespace StructuralDiff.Toml.Numeral

/-- Digits with single underscores between them, at least one digit. An underscore
with no digit after it is refused; the underscores are left out. -/
def readDigits (isDigit : Char → Bool) : Reader (List Char)
  | [] => none
  | first :: rest => if isDigit first then more first rest else none
where
  /-- The digits from a first one on. -/
  more (first : Char) : Reader (List Char)
    | '_' :: digit :: rest =>
      if isDigit digit then (more digit rest).map fun (digits, rest) => (first :: digits, rest)
      else none
    | '_' :: [] => none
    | digit :: rest =>
      if isDigit digit then (more digit rest).map fun (digits, rest) => (first :: digits, rest)
      else some ([first], digit :: rest)
    | [] => some ([first], [])

/-- A sign, if there is one: whether it is a minus. -/
def readSign : List Char → Bool × List Char
  | '-' :: rest => (true, rest)
  | '+' :: rest => (false, rest)
  | chars => (false, chars)

/-- The whole part of a decimal numeral: a zero alone, or digits that do not start
with one. -/
def readWhole : Reader (List Char)
  | '0' :: rest => some (['0'], rest)
  | chars => readDigits Char.isDigit chars

/-- The fraction of a numeral, if there is one. -/
def readFraction : Reader (Option (List Char))
  | '.' :: rest => (readDigits Char.isDigit rest).map fun (digits, rest) => (some digits, rest)
  | chars => some (none, chars)

/-- The power of ten of a numeral, if there is one. -/
def readPower : Reader (Option Int)
  | [] => some (none, [])
  | mark :: rest =>
    if mark == 'e' || mark == 'E' then
      let (negative, rest) := readSign rest
      (readDigits Char.isDigit rest).map fun (digits, rest) =>
        let amount : Nat := Nat.ofDigitChars 10 digits 0
        (some (if negative then -amount else amount), rest)
    else some (none, mark :: rest)

/-- An integer, if sixty-four bits with a sign hold it. -/
def integer? (value : Int) : Option Toml :=
  if Number.isSigned value then some (.integer (Int64.ofInt value)) else none

/-- A decimal numeral. With a fraction or a power it is the floating number nearest to
it; one that is too large is refused when it is positive and infinite when it is
negative. -/
def readDecimal : Reader Toml := fun chars => do
  let (negative, rest) := readSign chars
  let (whole, rest) ← readWhole rest
  let (fraction, rest) ← readFraction rest
  let (power, rest) ← readPower rest
  if fraction.isNone && power.isNone then
    let value : Nat := Nat.ofDigitChars 10 whole 0
    return (← integer? (if negative then -value else value), rest)
  else
    let fraction := fraction.getD []
    let digits := Nat.ofDigitChars 10 (whole ++ fraction) 0
    let value := Binary64.ofDecimal negative digits (power.getD 0 - fraction.length)
    if value.isInfinite && !negative then none else some (.float value, rest)

/-- An integer in another base, after the mark of the base. -/
def readBased (base : Nat) : Reader Toml := fun chars => do
  let (digits, rest) ← readDigits (fun char => (Text.digit? base char).isSome) chars
  return (← integer? (← Text.number? base digits), rest)

/-- The words for what is not a finite number. -/
def readSpecial : Reader Toml := fun chars =>
  let (negative, rest) := readSign chars
  match rest with
  | 'i' :: 'n' :: 'f' :: rest => some (.float (Binary64.infinity negative), rest)
  | 'n' :: 'a' :: 'n' :: rest => some (.float (Binary64.notANumber negative), rest)
  | _ => none

/-- A number. -/
def read : Reader Toml
  | '0' :: 'x' :: rest => readBased 16 rest
  | '0' :: 'o' :: rest => readBased 8 rest
  | '0' :: 'b' :: rest => readBased 2 rest
  | chars => (readSpecial chars).or (readDecimal chars)

end StructuralDiff.Toml.Numeral
