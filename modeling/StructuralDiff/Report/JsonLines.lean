import StructuralDiff.Json.Printer
import StructuralDiff.Report.Format
import StructuralDiff.Text.Split

/-!
# Findings as JSON

A JSON array with one difference to a line. The text of a difference is its pretty
form with the lines folded into one.
-/

namespace StructuralDiff.Report

/-- A value that may be absent as a JSON value. -/
def optionalJson : Option Value → Json
  | some value => value.toJson
  | none => .null

/-- A difference as a JSON value. -/
def differenceJson (difference : Difference) : Json :=
  .object
    [("type", .text difference.kind.name), ("path", .text difference.path),
     ("reference", optionalJson difference.reference),
     ("candidate", optionalJson difference.candidate)]

/-- The lines of a text in one line, each without the blanks at its start, with a
space between them. -/
def foldLines (text : String) : String :=
  " ".intercalate ((Text.lines text).map Text.trimStart)

/-- The line of a difference. -/
def jsonLine (difference : Difference) : String :=
  "  " ++ foldLines (differenceJson difference).pretty

/-- The JSON array of differences. -/
def jsonLines (differences : List Difference) : String :=
  if differences.isEmpty then "[]"
  else "[\n" ++ ",\n".intercalate (differences.map jsonLine) ++ "\n]"

end StructuralDiff.Report
