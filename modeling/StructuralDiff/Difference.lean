import StructuralDiff.Document.Value

/-!
# Differences

One disagreement between a reference and a candidate: what kind it is, where it is,
and the values on the two sides.
-/

namespace StructuralDiff

/-- What a difference consists in. -/
inductive DifferenceKind where
  /-- Only the reference has a value. -/
  | missing
  /-- Only the candidate has a value. -/
  | extra
  /-- Both have a scalar, and the scalars differ. -/
  | mismatch
  /-- Both have a value, and the values have different shapes. -/
  | typeMismatch
deriving DecidableEq

namespace DifferenceKind

/-- The name of a kind in reports. -/
def name : DifferenceKind → String
  | .missing => "missing"
  | .extra => "extra"
  | .mismatch => "mismatch"
  | .typeMismatch => "type_mismatch"

/-- The kind that a difference has when the two sides change places. -/
def swap : DifferenceKind → DifferenceKind
  | .missing => .extra
  | .extra => .missing
  | kind => kind

end DifferenceKind

/-- A disagreement at the written form of a path. -/
structure Difference where
  kind : DifferenceKind
  path : String
  reference : Option Value
  candidate : Option Value

end StructuralDiff
