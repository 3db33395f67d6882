import StructuralDiff.Json.Printer
import StructuralDiff.Report.Format

/-!
# Long reports

A block of three lines for each difference, with its full values, and an empty line
between blocks.
-/

namespace StructuralDiff.Report

/-- A value in a block. -/
def longValue : Option Value → String
  | some value => value.inspect
  | none => "[no value]"

/-- The block of a difference. -/
def longBlock (color : Bool) (difference : Difference) : String :=
  difference.path ++ " [" ++ label color difference.kind ++ "]\n  reference: " ++
    longValue difference.reference ++ "\n  candidate: " ++ longValue difference.candidate

/-- The blocks of differences. -/
def long (color : Bool) (differences : List Difference) : String :=
  "\n\n".intercalate (differences.map (longBlock color))

end StructuralDiff.Report
