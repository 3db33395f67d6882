import StructuralDiff.Difference
import StructuralDiff.Text.Blank

/-!
# Report formats

The formats in which findings are reported, and the choices that go with them.
-/

namespace StructuralDiff.Report

/-- How findings are reported. -/
inductive Format where
  /-- Aligned columns, values cut to a width. -/
  | table
  /-- A JSON array, one difference to a line. -/
  | json
  /-- A block with full values for each difference. -/
  | long
deriving DecidableEq

namespace Format

/-- The name of a format. -/
def name : Format → String
  | .table => "table"
  | .json => "json"
  | .long => "long"

/-- All formats. -/
def all : List Format := [.json, .long, .table]

/-- The format of a name, blanks at the ends and the case of ASCII letters
ignored. -/
def read? (text : String) : Option Format :=
  let spelled := String.ofList ((Text.trimChars text.toList).map Char.toLower)
  all.find? fun format => format.name == spelled

/-- The message for a name that is no format's. -/
def unknownMessage (text : String) : String :=
  "Unknown output format: " ++ text

end Format

/-- The choices that go with a format. -/
structure Options where
  /-- Whether the kinds of differences are colored. -/
  color : Bool
  /-- How many characters of a value a table shows. -/
  valueWidth : Nat
  /-- How many characters of a path a table shows. -/
  pathWidth : Nat

/-- Without color, thirty characters of a value and two hundred and fifty of a
path. -/
def Options.default : Options where
  color := false
  valueWidth := 30
  pathWidth := 250

/-- The escape code of a kind's color: red, green, yellow and magenta. -/
def colorCode : DifferenceKind → String
  | .missing => "31"
  | .extra => "32"
  | .mismatch => "33"
  | .typeMismatch => "35"

/-- The name of a kind, between escape codes when it is colored. -/
def label (color : Bool) (kind : DifferenceKind) : String :=
  if color then "\x1b[" ++ colorCode kind ++ "m" ++ kind.name ++ "\x1b[0m" else kind.name

end StructuralDiff.Report
