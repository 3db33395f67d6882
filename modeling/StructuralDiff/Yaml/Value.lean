import StructuralDiff.Document.Rendering

/-!
# YAML values

The values of the YAML format: keys may be any value, and a value may carry a tag.
Reading refuses a mapping with two equal keys, where equality is that of YAML: an
integer never equals a floating number, and the order of a mapping does not matter.
-/

namespace StructuralDiff

/-- A YAML value. -/
inductive Yaml where
  | null
  | bool (value : Bool)
  | number (value : Number)
  | text (value : String)
  | sequence (items : List Yaml)
  | mapping (entries : List (Yaml × Yaml))
  | tagged (tag : String) (value : Yaml)

namespace Yaml

/-- Equality of numbers as keys: within one form, by value, and what is not a number
equals itself. -/
def sameNumber : Number → Number → Bool
  | .float left, .float right => (left.isNaN && right.isNaN) || left.equal right
  | .float _, _ => false
  | _, .float _ => false
  | left, right => left.wholeValue == right.wholeValue

/-- A tag without the exclamation mark at its start, which does not tell tags
apart. -/
def bareTag (tag : String) : String :=
  match tag.toList with
  | '!' :: rest => if rest.isEmpty then tag else String.ofList rest
  | _ => tag

mutual

/-- Equality of values as keys. -/
def same : Yaml → Yaml → Bool
  | .null, .null => true
  | .bool left, .bool right => left == right
  | .number left, .number right => sameNumber left right
  | .text left, .text right => left == right
  | .sequence left, .sequence right => sameItems left right
  | .mapping left, .mapping right => left.length == right.length && sameEntries left right
  | .tagged leftTag left, .tagged rightTag right =>
    bareTag leftTag == bareTag rightTag && same left right
  | _, _ => false

/-- Equality item by item. -/
def sameItems : List Yaml → List Yaml → Bool
  | [], [] => true
  | left :: lefts, right :: rights => same left right && sameItems lefts rights
  | _, _ => false

/-- Every entry has the same key and value as one of other entries. -/
def sameEntries : List (Yaml × Yaml) → List (Yaml × Yaml) → Bool
  | [], _ => true
  | (key, value) :: rest, others =>
    others.any (fun other => same key other.1 && same value other.2) && sameEntries rest others

end

end Yaml

namespace Value

mutual

/-- A YAML value as a value of a document. Tags are dropped. -/
def ofYaml : Yaml → Value
  | .null => .null
  | .bool value => .bool value
  | .number value => .number value
  | .text value => .text value
  | .sequence items => .array (itemsOfYaml items)
  | .mapping entries => .object (Entries.ofPairs (entriesOfYaml entries))
  | .tagged _ value => ofYaml value

/-- The key that a YAML key becomes: a text key for a text, and otherwise a scalar
key with the text that the value has in a path. Keys whose texts are alike meet. -/
def keyOfYaml : Yaml → Key
  | .null => .scalar (ofYaml .null).segmentText
  | .bool value => .scalar (Value.bool value).segmentText
  | .number value => .scalar (Value.number value).segmentText
  | .text value => .text value
  | .sequence items => .scalar (Value.array (itemsOfYaml items)).segmentText
  | .mapping entries =>
    .scalar (Value.object (Entries.ofPairs (entriesOfYaml entries))).segmentText
  | .tagged _ value => .scalar (ofYaml value).segmentText

/-- YAML items as items of a document. -/
def itemsOfYaml : List Yaml → List Value
  | [] => []
  | item :: items => ofYaml item :: itemsOfYaml items

/-- YAML entries as entries of a document, before keys meet. -/
def entriesOfYaml : List (Yaml × Yaml) → List (Key × Value)
  | [] => []
  | (key, value) :: entries => (keyOfYaml key, ofYaml value) :: entriesOfYaml entries

end

end Value

end StructuralDiff
