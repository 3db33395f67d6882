import StructuralDiff.Decimal.Integer
import StructuralDiff.Toml.Text

/-!
# Dates and times

A date, a time, or both with an optional offset from universal time. The normal text
has a `T` between date and time and no needless zeros in the fraction of a second,
of which nine digits count.
-/

namespace StructuralDiff.Toml.Moment

/-- The number of so many digits. -/
def readDigits (length : Nat) : Reader Nat := fun chars =>
  let digits := chars.take length
  if digits.length == length && digits.all Char.isDigit then
    some (Nat.ofDigitChars 10 digits 0, chars.drop length)
  else none

/-- A number of two digits within bounds. -/
def readWithin (least greatest : Nat) : Reader Nat := fun chars => do
  let (value, rest) ← readDigits 2 chars
  if least ≤ value && value ≤ greatest then some (value, rest) else none

/-- What follows a character, when the characters start with it. -/
def afterChar? (char : Char) : List Char → Option (List Char)
  | first :: rest => if first = char then some rest else none
  | [] => none

/-- The number of days of a month. -/
def daysInMonth (year month : Nat) : Nat :=
  if month == 2 then
    if year % 4 == 0 && (year % 100 != 0 || year % 400 == 0) then 29 else 28
  else if month == 4 || month == 6 || month == 9 || month == 11 then 30
  else 31

/-- A number with zeros in front, up to a width. -/
def padded (width value : Nat) : String :=
  let digits := Nat.toDigits 10 value
  String.ofList (List.replicate (width - digits.length) '0' ++ digits)

/-- A date, after its year and the hyphen behind it. -/
def readDateAfterYear (year : Nat) : Reader String := fun chars => do
  let (month, rest) ← readWithin 1 12 chars
  let (day, rest) ← readWithin 1 31 (← afterChar? '-' rest)
  if daysInMonth year month < day then none
  else some (padded 4 year ++ "-" ++ padded 2 month ++ "-" ++ padded 2 day, rest)

/-- The fraction of a second in normal form, if there is one. -/
def readFraction : List Char → String × List Char
  | '.' :: rest =>
    let digits := rest.takeWhile Char.isDigit
    let kept := ((digits.take 9).reverse.dropWhile (· == '0')).reverse
    if digits.isEmpty then ("", '.' :: rest)
    else
      (if kept.isEmpty then "" else String.ofList ('.' :: kept), rest.drop digits.length)
  | chars => ("", chars)

/-- A time, after its hour and the colon behind it. A minute may have a leap
second. -/
def readTimeAfterHour (hour : Nat) : Reader String := fun chars => do
  let (minute, rest) ← readWithin 0 59 chars
  let (second, rest) ← readWithin 0 60 (← afterChar? ':' rest)
  let (fraction, rest) := readFraction rest
  return (padded 2 hour ++ ":" ++ padded 2 minute ++ ":" ++ padded 2 second ++ fraction, rest)

/-- An offset after its sign. No offset at all is a positive one. -/
def readOffset (negative : Bool) : Reader String := fun chars => do
  let (hours, rest) ← readWithin 0 23 chars
  let (minutes, rest) ← readWithin 0 59 (← afterChar? ':' rest)
  let sign := if negative && 0 < hours + minutes then "-" else "+"
  return (sign ++ padded 2 hours ++ ":" ++ padded 2 minutes, rest)

/-- An offset, if there is one. -/
def readOptionalOffset : Reader String
  | 'Z' :: rest => some ("Z", rest)
  | 'z' :: rest => some ("Z", rest)
  | '+' :: rest => readOffset false rest
  | '-' :: rest => readOffset true rest
  | chars => some ("", chars)

/-- The hour and the colon behind it. -/
def readHour : Reader Nat := fun chars => do
  let (hour, rest) ← readWithin 0 23 chars
  return (hour, ← afterChar? ':' rest)

/-- The year and the hyphen behind it. -/
def readYear : Reader Nat := fun chars => do
  let (year, rest) ← readDigits 4 chars
  return (year, ← afterChar? '-' rest)

/-- A time with an optional offset after a date, behind a mark that may be a space.
What is not followed by an hour does not belong to the date. -/
def readTimeAfterDate : Reader String
  | mark :: rest =>
    if mark == 'T' || mark == 't' || mark == ' ' then
      match readHour rest with
      | some (hour, rest) => do
        let (time, rest) ← readTimeAfterHour hour rest
        let (offset, rest) ← readOptionalOffset rest
        return ("T" ++ time ++ offset, rest)
      | none => some ("", mark :: rest)
    else some ("", mark :: rest)
  | [] => some ("", [])

/-- A moment, by its normal text. The outer option is none when the characters start
like something else; the inner one is none when what starts like a moment is not
one. -/
def read? (chars : List Char) : Option (Option (String × List Char)) :=
  match readYear chars with
  | some (year, rest) => some do
    let (date, rest) ← readDateAfterYear year rest
    let (time, rest) ← readTimeAfterDate rest
    return (date ++ time, rest)
  | none => (readHour chars).map fun (hour, rest) => readTimeAfterHour hour rest

end StructuralDiff.Toml.Moment
