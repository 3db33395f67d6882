import StructuralDiff.Json.Basic

/-!
# JSON text

The two written forms of a JSON value: compact, on one line without spaces, and
pretty, with one item or entry to a line and two spaces for each level.
-/

namespace StructuralDiff

namespace Json

/-- How a floating number is written: in place from `0.00001` up to sixteen digits
before the point, always with a fraction, and otherwise in scientific form with a
signed power. -/
def floatLayout : Decimal.Layout where
  positional power := -5 ≤ power && power < 16
  wholeFraction := true
  plusSign := true

/-- A number in JSON. -/
def numberChars : Number → List Char
  | .int value => Decimal.integerChars value.toInt
  | .uint value => Nat.toDigits 10 value.toNat
  | .float value => if value.isFinite then (value.write floatLayout).toList else "null".toList

/-- A character as it stands between the quotes of a JSON text: only the quote, the
backslash and the controls below the space are escaped. -/
def escapedChar (char : Char) : List Char :=
  match char with
  | '"' => ['\\', '"']
  | '\\' => ['\\', '\\']
  | '\n' => ['\\', 'n']
  | '\r' => ['\\', 'r']
  | '\t' => ['\\', 't']
  | '\x08' => ['\\', 'b']
  | '\x0c' => ['\\', 'f']
  | other =>
    if other.toNat < 0x20 then
      ['\\', 'u', '0', '0', Nat.digitChar (other.toNat / 16), Nat.digitChar (other.toNat % 16)]
    else [other]

/-- A text in JSON, with its quotes. -/
def textChars (value : String) : List Char :=
  '"' :: value.toList.flatMap escapedChar ++ ['"']

/-- A truth value in JSON. -/
def boolChars (value : Bool) : List Char :=
  if value then "true".toList else "false".toList

mutual

/-- The compact form. -/
def compactChars : Json → List Char
  | .null => "null".toList
  | .bool value => boolChars value
  | .number value => numberChars value
  | .text value => textChars value
  | .array items => '[' :: compactItems items ++ [']']
  | .object entries => '\x7b' :: compactEntries entries ++ ['\x7d']

/-- Items with commas between them. -/
def compactItems : List Json → List Char
  | [] => []
  | [item] => item.compactChars
  | item :: items => item.compactChars ++ ',' :: compactItems items

/-- Entries with commas between them. -/
def compactEntries : List (String × Json) → List Char
  | [] => []
  | [(name, value)] => textChars name ++ ':' :: value.compactChars
  | (name, value) :: entries =>
    textChars name ++ ':' :: (value.compactChars ++ ',' :: compactEntries entries)

end

/-- The line break before something on a level. -/
def lineBreak (level : Nat) : List Char :=
  '\n' :: List.replicate (2 * level) ' '

mutual

/-- The pretty form of a value that stands on a level. -/
def prettyChars (level : Nat) : Json → List Char
  | .null => "null".toList
  | .bool value => boolChars value
  | .number value => numberChars value
  | .text value => textChars value
  | .array [] => ['[', ']']
  | .array (item :: items) =>
    '[' :: prettyItems (level + 1) (item :: items) ++ lineBreak level ++ [']']
  | .object [] => ['\x7b', '\x7d']
  | .object (entry :: entries) =>
    '\x7b' :: prettyEntries (level + 1) (entry :: entries) ++ lineBreak level ++ ['\x7d']

/-- Items, each on its own line, with commas between them. -/
def prettyItems (level : Nat) : List Json → List Char
  | [] => []
  | [item] => lineBreak level ++ item.prettyChars level
  | item :: items => lineBreak level ++ item.prettyChars level ++ ',' :: prettyItems level items

/-- Entries, each on its own line, with commas between them. -/
def prettyEntries (level : Nat) : List (String × Json) → List Char
  | [] => []
  | [(name, value)] => lineBreak level ++ textChars name ++ ':' :: ' ' :: value.prettyChars level
  | (name, value) :: entries =>
    lineBreak level ++ textChars name ++ ':' :: ' ' :: value.prettyChars level ++
      ',' :: prettyEntries level entries

end

/-- The compact text of a JSON value. -/
def compact (json : Json) : String :=
  String.ofList json.compactChars

/-- The pretty text of a JSON value. -/
def pretty (json : Json) : String :=
  String.ofList (json.prettyChars 0)

end Json

namespace Value

/-- The compact text of a value, as messages and reports show it. -/
def inspect (value : Value) : String :=
  value.toJson.compact

end Value

end StructuralDiff
