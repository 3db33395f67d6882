import StructuralDiff.Document.Value

/-!
# JSON values

The values of the JSON format. They differ from document values in three ways:
keys are text, a number is always finite, and a whole number that fits a signed
integer is that integer.
-/

namespace StructuralDiff

/-- A JSON value. -/
inductive Json where
  | null
  | bool (value : Bool)
  | number (value : Number)
  | text (value : String)
  | array (items : List Json)
  | object (entries : List (String × Json))

namespace Number

/-- A number as a JSON value. Infinities, and what is not a number, have no JSON
form and become null. -/
def toJson : Number → Json
  | .float value =>
    match value.toInteger? with
    | some integer => .number (.int (Int64.ofInt integer))
    | none => if value.isFinite then .number (.float value) else .null
  | other => .number other

end Number

namespace Value

mutual

/-- A value as a JSON value. Keys that are spelled alike meet under the place of
the first and the value of the last. -/
def toJson : Value → Json
  | .null => .null
  | .bool value => .bool value
  | .number value => value.toJson
  | .text value => .text value
  | .array items => .array (itemsToJson items)
  | .object entries => .object (Entries.ofPairs (entriesToJson entries))

/-- The items of an array as JSON values. -/
def itemsToJson : List Value → List Json
  | [] => []
  | item :: items => item.toJson :: itemsToJson items

/-- The entries of an object as JSON entries, under the spelling of their keys. -/
def entriesToJson : List (Key × Value) → List (String × Json)
  | [] => []
  | (key, value) :: entries => (key.name, value.toJson) :: entriesToJson entries

end

mutual

/-- A JSON value as a value of a document. -/
def ofJson : Json → Value
  | .null => .null
  | .bool value => .bool value
  | .number value => .number value
  | .text value => .text value
  | .array items => .array (itemsOfJson items)
  | .object entries => .object (entriesOfJson entries)

/-- JSON items as items of a document. -/
def itemsOfJson : List Json → List Value
  | [] => []
  | item :: items => ofJson item :: itemsOfJson items

/-- JSON entries as entries of a document, under text keys. -/
def entriesOfJson : List (String × Json) → List (Key × Value)
  | [] => []
  | (name, value) :: entries => (.text name, ofJson value) :: entriesOfJson entries

end

end Value

end StructuralDiff
