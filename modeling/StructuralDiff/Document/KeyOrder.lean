import StructuralDiff.Json.Printer

/-!
# The order of key values

The order in which the items of an array come when they are paired by a key. Values
of different types follow the order of their types; texts and numbers have their
own order, and containers go by their compact text.
-/

namespace StructuralDiff

namespace Value

/-- The place of a value's type among the types. -/
def typeRank : Value → Nat
  | .null => 0
  | .bool _ => 1
  | .number _ => 2
  | .text _ => 3
  | .array _ => 4
  | .object _ => 5

/-- The order of key values. -/
def keyOrder (left right : Value) : Ordering :=
  match left, right with
  | .bool x, .bool y => compare x.toNat y.toNat
  | .number x, .number y => x.order y
  | .text x, .text y => compare x y
  | .null, .null => .eq
  | _, _ =>
    if left.typeRank = right.typeRank then compare left.inspect right.inspect
    else compare left.typeRank right.typeRank

/-- Values in the order of key values; equal ones keep their order. -/
def sortByKeyOrder (values : List Value) : List Value :=
  values.mergeSort fun left right => left.keyOrder right != .gt

end Value

end StructuralDiff
