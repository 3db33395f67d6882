import StructuralDiff.Document.Rendering
import StructuralDiff.Policy.Basic

/-!
# Common normalizers

Normalizers for the distinctions that often do not matter: the case of letters,
blanks at the ends, fractions. Each leaves values of other types as they are, unless
it says otherwise.
-/

namespace StructuralDiff.Normalizer

/-- Texts without the case of ASCII letters. -/
def lowerCase : Normalizer
  | .text content => .text (String.ofList (content.toList.map Char.toLower))
  | other => other

/-- Texts without blanks at the ends. -/
def trimmed : Normalizer
  | .text content => .text (Text.trim content)
  | other => other

/-- Numbers rounded to whole ones, as double-precision numbers. -/
def rounded : Normalizer
  | .number number => .number (.float number.toBinary64.roundHalfAway)
  | other => other

/-- Nothing remains of any value. -/
def erased : Normalizer := fun _ => .null

/-- Any value as the only item of an array. -/
def wrapped : Normalizer := fun value => .array [value]

/-- Any value as the name of its type. -/
def typeOnly : Normalizer := fun value => .text value.typeName

/-- Any value as its text in a path segment. -/
def asText : Normalizer := fun value => .text value.segmentText

end StructuralDiff.Normalizer
