import StructuralDiff.Policy.Basic

/-!
# Failures of a comparison

What keeps two documents from being compared under a policy. A disagreement of the
documents is never a failure.
-/

namespace StructuralDiff

/-- One of the two documents. -/
inductive Side where
  | reference
  | candidate
deriving DecidableEq

/-- The name of a side in messages. -/
def Side.name : Side → String
  | .reference => "reference"
  | .candidate => "candidate"

/-- Why a comparison fails. Positions count from zero. -/
inductive ComparisonError where
  /-- An item of an array that is paired by key is no object. -/
  | notAnObject (side : Side) (position : Nat) (found : String)
  /-- An item of an array that is paired by key lacks the key. -/
  | noSuchKey (side : Side) (position : Nat) (key : String) (keys : List String)
  /-- Two items of one array have the same value under the key. -/
  | duplicateKey (side : Side) (path : Path)
  /-- An array that is paired by value has an item that is no scalar. -/
  | undefinedByValue (path : Path)
  | ambiguousKey (cause : AmbiguousKey)
  /-- A key that cannot be a step of a path. -/
  | invalidStep (cause : PathError)
deriving DecidableEq

namespace ComparisonError

/-- The failure in words. -/
def message : ComparisonError → String
  | .notAnObject side position found =>
    "The element at position " ++ Decimal.naturalText position ++ " in the " ++ side.name ++
      " array is not an object (found " ++ found ++ ")"
  | .noSuchKey side position key keys =>
    "The " ++ side.name ++ " object at position " ++ Decimal.naturalText position ++ " has no " ++
      Text.quoted key ++ " key (keys: " ++ Text.quotedList keys ++ ")"
  | .duplicateKey side path =>
    "Duplicate " ++ side.name ++ " element found at path '" ++ path.text ++ "'"
  | .undefinedByValue path =>
    "Comparing arrays by value is only defined for scalar elements (array at '" ++ path.text ++ "')"
  | .ambiguousKey cause =>
    "More than one match_by_key expression for path '" ++ cause.path.text ++ "': " ++
      Text.quotedList (cause.patterns.map Path.text)
  | .invalidStep cause => cause.message

end ComparisonError

end StructuralDiff
