import StructuralDiff.Json.Printer

/-!
# Values in messages and paths

The short texts in which a value appears outside a document: as part of a path
segment, and cut to a width.
-/

namespace StructuralDiff

namespace Text

/-- A text of at most a number of characters. A longer one loses its end, and three
points stand for what is missing, also when the number is less than three. -/
def shorten (text : String) (width : Nat) : String :=
  let chars := text.toList
  if width < chars.length then String.ofList (chars.take (width - 3)) ++ "..." else text

end Text

namespace Value

/-- The text of a value in a path segment: a scalar without quotes, and the compact
text of anything else. -/
def segmentText : Value → String
  | .text value => value
  | .number value => value.text
  | .bool value => boolText value
  | .null => "null"
  | other => other.inspect

/-- The compact text of a value, cut to a width. -/
def preview (value : Value) (width : Nat) : String :=
  Text.shorten value.inspect width

end Value

end StructuralDiff
