import StructuralDiff.Binary64.Basic

/-!
# Shortest decimals

The decimal with the fewest digits that reads back as a given double-precision
number, and of those the nearest one.

All computation is in natural-number units of `10 ^ -1074`: each finite number,
each midpoint of neighbours (doubled) and each point of a decimal grid is a whole
multiple of such a unit. The finest grid holds every finite number, so the search
always ends.
-/

namespace StructuralDiff

/-- The value `digits * 10 ^ exponent`. -/
structure Decimal where
  digits : Nat
  exponent : Int
deriving DecidableEq

namespace Decimal

/-- The absolute value that a magnitude encodes, in units of `10 ^ -1074`. -/
def gridUnits (magnitude : Nat) : Nat :=
  Binary64.unitsOfMagnitude magnitude * Nat.pow 5 1074

/-- The values that round to one number, doubled: the midpoints with the two
neighbouring numbers, and whether the midpoints themselves belong to them, which
they do when the number's last bit is zero. -/
structure Interval where
  low : Nat
  high : Nat
  closed : Bool

/-- The values that round to the number of a positive magnitude. -/
def Interval.around (magnitude : Nat) : Interval where
  low := gridUnits (magnitude - 1) + gridUnits magnitude
  high := gridUnits magnitude + gridUnits (magnitude + 1)
  closed := magnitude % 2 == 0

/-- A doubled value lies among those that round to the number. -/
def Interval.holds (interval : Interval) (doubled : Nat) : Bool :=
  if interval.closed then interval.low ≤ doubled && doubled ≤ interval.high
  else interval.low < doubled && doubled < interval.high

/-- The point of the grid of step `10 ^ level` that lies in the interval, nearest
to the doubled value; of two equally near ones the even one. -/
def nearestOnGrid (interval : Interval) (doubled level : Nat) : Option Nat :=
  let step := 2 * Nat.pow 10 level
  let below := doubled / step
  let above := below + 1
  match interval.holds (below * step), interval.holds (above * step) with
  | false, false => none
  | true, false => some below
  | false, true => some above
  | true, true =>
    let past := doubled % step
    if 2 * past < step || (2 * past == step && below % 2 == 0) then some below else some above

/-- The nearest point of the coarsest grid, from a given level down, that has one
in the interval. On the finest grid the number itself is a point. -/
def coarsest (interval : Interval) (doubled : Nat) : Nat → Nat × Nat
  | 0 => (doubled / 2, 0)
  | level + 1 =>
    match nearestOnGrid interval doubled (level + 1) with
    | some point => (point, level + 1)
    | none => coarsest interval doubled level

/-- The shortest decimal of a positive magnitude. Three tenths of the binary
length, and a little more, bound the decimal length, so the search starts above
the number. -/
def ofMagnitude (magnitude : Nat) : Decimal :=
  let doubled := 2 * gridUnits magnitude
  let start := (doubled.log2 + 1) * 30103 / 100000 + 1
  let found := coarsest (Interval.around magnitude) doubled start
  ⟨found.1, (found.2 : Int) - 1074⟩

/-- The shortest decimal of the absolute value of a finite number. -/
def shortest (x : Binary64) : Decimal :=
  if x.isZero then ⟨0, 0⟩ else ofMagnitude x.magnitude

/-- A point that is found lies in the interval. -/
theorem holds_of_nearestOnGrid {interval : Interval} {doubled level point : Nat}
    (found : nearestOnGrid interval doubled level = some point) :
    interval.holds (point * (2 * Nat.pow 10 level)) := by
  unfold nearestOnGrid at found
  grind

/-- Whatever grid the search ends on, its point lies in the interval, provided the
number itself does. -/
theorem holds_of_coarsest {interval : Interval} {value : Nat} (start : Nat)
    (inside : interval.holds (2 * value)) :
    let found := coarsest interval (2 * value) start
    interval.holds (found.1 * (2 * Nat.pow 10 found.2)) := by
  induction start with
  | zero => simpa [coarsest, Nat.mul_comm] using inside
  | succ level ih =>
    unfold coarsest
    cases found : nearestOnGrid interval (2 * value) (level + 1) with
    | none => exact ih
    | some point => exact holds_of_nearestOnGrid found

end Decimal

end StructuralDiff
