import StructuralDiff.Document.Entries
import StructuralDiff.Number

/-!
# Values of a document

A document is one value: a scalar, an array of values, or an object whose entries
keep the order of the document. Two objects are equal when they hold equal values
under the same keys, in whatever order.
-/

namespace StructuralDiff

/-- The key of an object entry. A key that the document writes as something other
than text, such as a bare number, keeps its text but stays apart from the text key
of the same spelling. -/
inductive Key where
  | text (name : String)
  | scalar (name : String)
deriving DecidableEq

namespace Key

/-- The spelling of a key. -/
def name : Key → String
  | .text name => name
  | .scalar name => name

/-- The text key of the same spelling. -/
def canonical (key : Key) : Key := .text key.name

end Key

/-- A value of a document. -/
inductive Value where
  | null
  | bool (value : Bool)
  | number (value : Number)
  | text (value : String)
  | array (items : List Value)
  | object (entries : List (Key × Value))

/-- What a comparison of two values goes by. -/
inductive Shape where
  | array
  | object
  | scalar
deriving DecidableEq

namespace Value

/-- The object that setting keys one after another leaves. -/
def ofEntries (entries : List (Key × Value)) : Value :=
  .object (Entries.ofPairs entries)

/-- The shape of a value. -/
def shape : Value → Shape
  | .array _ => .array
  | .object _ => .object
  | _ => .scalar

/-- A value is a scalar when it is neither an array nor an object. -/
def isScalar (value : Value) : Bool :=
  value.shape == .scalar

/-- The name of a value's type in messages. -/
def typeName : Value → String
  | .null => "null"
  | .bool _ => "boolean"
  | .number _ => "number"
  | .text _ => "string"
  | .array _ => "array"
  | .object _ => "object"

/-- The text of a truth value. -/
def boolText (value : Bool) : String :=
  if value then "true" else "false"

/-- Truth values and numbers as their text; every other value as it is. -/
def canonicalScalar : Value → Value
  | .bool value => .text (boolText value)
  | .number value => .text value.text
  | other => other

mutual

/-- Equality of values: numbers by value, objects without regard to order. -/
def equal : Value → Value → Bool
  | .null, .null => true
  | .bool left, .bool right => left == right
  | .number left, .number right => left.equal right
  | .text left, .text right => left == right
  | .array left, .array right => equalItems left right
  | .object left, .object right => left.length == right.length && equalEntries left right
  | _, _ => false

/-- Equality item by item. -/
def equalItems : List Value → List Value → Bool
  | [], [] => true
  | left :: lefts, right :: rights => left.equal right && equalItems lefts rights
  | _, _ => false

/-- Every entry has an equal one under its key among other entries. -/
def equalEntries : List (Key × Value) → List (Key × Value) → Bool
  | [], _ => true
  | (key, left) :: lefts, others =>
    (match Entries.find? key others with
      | some right => left.equal right
      | none => false) && equalEntries lefts others

end

mutual

/-- Every object in the value has distinct keys, as reading a document ensures. -/
def WellFormed : Value → Prop
  | .array items => WellFormedItems items
  | .object entries => (Entries.keys entries).Nodup ∧ WellFormedEntries entries
  | _ => True

/-- Every item is well formed. -/
def WellFormedItems : List Value → Prop
  | [] => True
  | item :: items => item.WellFormed ∧ WellFormedItems items

/-- Every entry's value is well formed. -/
def WellFormedEntries : List (Key × Value) → Prop
  | [] => True
  | (_, value) :: entries => value.WellFormed ∧ WellFormedEntries entries

end

/-- Two values are two objects, two arrays or two scalars, or they have different
shapes. -/
@[elab_as_elim]
theorem casesPair {motive : Value → Value → Prop}
    (objects : ∀ references candidates, motive (.object references) (.object candidates))
    (arrays : ∀ references candidates, motive (.array references) (.array candidates))
    (scalars : ∀ reference candidate, reference.isScalar → candidate.isScalar →
      motive reference candidate)
    (shapes : ∀ reference candidate, reference.shape ≠ candidate.shape → motive reference candidate)
    (reference candidate : Value) : motive reference candidate := by
  by_cases same : reference.shape = candidate.shape
  · cases reference with
    | object references =>
      cases candidate with
      | object candidates => exact objects references candidates
      | _ => cases same
    | array references =>
      cases candidate with
      | array candidates => exact arrays references candidates
      | _ => cases same
    | _ => exact scalars _ candidate rfl (by rw [isScalar, ← same]; rfl)
  · exact shapes reference candidate same

/-- Values of different shapes are not equal. -/
theorem equal_eq_false_of_shape_ne {left right : Value} (different : left.shape ≠ right.shape) :
    left.equal right = false := by
  cases left <;> cases right <;> first | rfl | exact absurd rfl different

mutual

/-- A property holds of every key in the value, at any depth. -/
def EveryKey (property : Key → Prop) : Value → Prop
  | .array items => EveryKeyOfItems property items
  | .object entries => EveryKeyOfEntries property entries
  | _ => True

/-- A property holds of every key in the items. -/
def EveryKeyOfItems (property : Key → Prop) : List Value → Prop
  | [] => True
  | item :: items => item.EveryKey property ∧ EveryKeyOfItems property items

/-- A property holds of the keys of the entries and of every key in their values. -/
def EveryKeyOfEntries (property : Key → Prop) : List (Key × Value) → Prop
  | [] => True
  | (key, value) :: entries =>
    property key ∧ value.EveryKey property ∧ EveryKeyOfEntries property entries

end

/-- The values directly inside a value. -/
def parts : Value → List Value
  | .array items => items
  | .object entries => entries.map Prod.snd
  | _ => []

/-- What is inside a value is smaller. -/
theorem sizeOf_lt_of_mem_parts {value part : Value} (member : part ∈ value.parts) :
    sizeOf part < sizeOf value := by
  cases value with
  | array items =>
    have known : part ∈ items := member
    have smaller := List.sizeOf_lt_of_mem known
    simp only [Value.array.sizeOf_spec]
    omega
  | object entries =>
    obtain ⟨⟨key, other⟩, known, rfl⟩ := List.mem_map.1 member
    have smaller := List.sizeOf_lt_of_mem known
    simp only [Prod.mk.sizeOf_spec, Value.object.sizeOf_spec] at smaller ⊢
    omega
  | _ => cases member

/-- What holds of a value as soon as it holds of all that is inside it holds of all values. -/
@[elab_as_elim]
theorem parts_induction {motive : Value → Prop}
    (whole : ∀ value, (∀ part ∈ value.parts, motive part) → motive value) (value : Value) :
    motive value := by
  induction size : sizeOf value using Nat.strongRecOn generalizing value with
  | ind _ ih =>
    subst size
    exact whole value fun part member => ih _ (sizeOf_lt_of_mem_parts member) _ rfl

/-- Items are well formed when each of them is. -/
theorem wellFormedItems_iff {items : List Value} :
    WellFormedItems items ↔ ∀ item ∈ items, item.WellFormed := by
  induction items with
  | nil => simp [WellFormedItems]
  | cons item items ih => simp [WellFormedItems, ih]

/-- The values of entries are well formed when each of them is. -/
theorem wellFormedEntries_iff {entries : List (Key × Value)} :
    WellFormedEntries entries ↔ ∀ entry ∈ entries, entry.2.WellFormed := by
  induction entries with
  | nil => simp [WellFormedEntries]
  | cons entry entries ih => simp [WellFormedEntries, ih]

/-- The keys of a value are distinct, whatever is inside it. -/
def DistinctKeys : Value → Prop
  | .object entries => (Entries.keys entries).Nodup
  | _ => True

/-- The keys of a well-formed value are distinct. -/
theorem WellFormed.distinctKeys {value : Value} (wellFormed : value.WellFormed) :
    value.DistinctKeys := by
  cases value with
  | object entries => exact wellFormed.1
  | _ => trivial

/-- What is inside a well-formed value is well formed. -/
theorem WellFormed.of_mem_parts {value part : Value} (wellFormed : value.WellFormed)
    (member : part ∈ value.parts) : part.WellFormed := by
  cases value with
  | array items => exact wellFormedItems_iff.1 wellFormed part member
  | object entries =>
    obtain ⟨entry, known, rfl⟩ := List.mem_map.1 member
    exact wellFormedEntries_iff.1 wellFormed.2 entry known
  | _ => cases member

/-- What holds of every key holds of the keys of entries and inside their values. -/
theorem everyKeyOfEntries_iff {property : Key → Prop} {entries : List (Key × Value)} :
    EveryKeyOfEntries property entries ↔
      ∀ entry ∈ entries, property entry.1 ∧ entry.2.EveryKey property := by
  induction entries with
  | nil => simp [EveryKeyOfEntries]
  | cons entry entries ih => simp [EveryKeyOfEntries, ih, and_assoc]

/-- What holds of every key holds inside the items. -/
theorem everyKeyOfItems_iff {property : Key → Prop} {items : List Value} :
    EveryKeyOfItems property items ↔ ∀ item ∈ items, item.EveryKey property := by
  induction items with
  | nil => simp [EveryKeyOfItems]
  | cons item items ih => simp [EveryKeyOfItems, ih]

/-- What holds of every key in a value holds of every key inside it. -/
theorem EveryKey.of_mem_parts {property : Key → Prop} {value part : Value}
    (everyKey : value.EveryKey property) (member : part ∈ value.parts) :
    part.EveryKey property := by
  cases value with
  | array items => exact everyKeyOfItems_iff.1 everyKey part member
  | object entries =>
    obtain ⟨entry, known, rfl⟩ := List.mem_map.1 member
    exact (everyKeyOfEntries_iff.1 everyKey entry known).2
  | _ => cases member

/-- What follows from what holds of every key holds of every key. -/
theorem EveryKey.imp {property consequence : Key → Prop}
    (follows : ∀ key, property key → consequence key) {value : Value}
    (everyKey : value.EveryKey property) : value.EveryKey consequence := by
  induction value using parts_induction with
  | whole value ih =>
    have inside : ∀ part ∈ value.parts, part.EveryKey consequence := fun part member =>
      ih part member (everyKey.of_mem_parts member)
    cases value with
    | array items => exact everyKeyOfItems_iff.2 inside
    | object entries =>
      refine everyKeyOfEntries_iff.2 fun entry member => ?_
      have here := (everyKeyOfEntries_iff.1 everyKey entry member).1
      exact ⟨follows entry.1 here, inside entry.2 (List.mem_map_of_mem member)⟩
    | _ => trivial

/-- What holds of every key in an object holds of its own keys. -/
theorem EveryKey.of_mem {property : Key → Prop} {entries : List (Key × Value)}
    (everyKey : (Value.object entries).EveryKey property) {entry : Key × Value}
    (member : entry ∈ entries) : property entry.1 :=
  (everyKeyOfEntries_iff.1 everyKey entry member).1

end Value

end StructuralDiff
