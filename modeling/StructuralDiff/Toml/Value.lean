import StructuralDiff.Document.Value

/-!
# TOML values

The values of the TOML format. A date or time is a value of its own; in a document
it becomes its text.
-/

namespace StructuralDiff

/-- A TOML value. -/
inductive Toml where
  | text (value : String)
  | integer (value : Int64)
  | float (value : Binary64)
  | bool (value : Bool)
  /-- A date, a time or both, by its normal text. -/
  | moment (value : String)
  | array (items : List Toml)
  | table (entries : List (String × Toml))

namespace Value

mutual

/-- A TOML value as a value of a document. -/
def ofToml : Toml → Value
  | .text value => .text value
  | .integer value => .number (.int value)
  | .float value => .number (.float value)
  | .bool value => .bool value
  | .moment value => .text value
  | .array items => .array (itemsOfToml items)
  | .table entries => .object (entriesOfToml entries)

/-- TOML items as items of a document. -/
def itemsOfToml : List Toml → List Value
  | [] => []
  | item :: items => ofToml item :: itemsOfToml items

/-- TOML entries as entries of a document. -/
def entriesOfToml : List (String × Toml) → List (Key × Value)
  | [] => []
  | (name, value) :: entries => (.text name, ofToml value) :: entriesOfToml entries

end

end Value

end StructuralDiff
