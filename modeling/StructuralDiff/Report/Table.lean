import StructuralDiff.Document.Rendering
import StructuralDiff.Report.Format
import StructuralDiff.Text.Split

/-!
# Tables

Findings in aligned columns under a header. Each column is as wide as its widest
cell; no line ends in blanks.
-/

namespace StructuralDiff.Report

/-- The four columns of a line, in order. -/
structure Row (α : Type) where
  kind : α
  path : α
  reference : α
  candidate : α

namespace Row

/-- The columns of a line as a list. -/
def toList {α : Type} (row : Row α) : List α :=
  [row.kind, row.path, row.reference, row.candidate]

/-- Combine two lines column by column. -/
def zipWith {α β γ : Type} (combine : α → β → γ) (left : Row α) (right : Row β) : Row γ where
  kind := combine left.kind right.kind
  path := combine left.path right.path
  reference := combine left.reference right.reference
  candidate := combine left.candidate right.candidate

end Row

/-- The names of the columns. -/
def header : Row String where
  kind := "TYPE"
  path := "PATH"
  reference := "REFERENCE"
  candidate := "CANDIDATE"

/-- The cell of a value that may be absent. -/
def valueCell (width : Nat) (value : Option Value) : String :=
  match value with
  | some value => value.preview width
  | none => ""

/-- The cells of a difference. -/
def cells (options : Options) (difference : Difference) : Row String where
  kind := difference.kind.name
  path := Text.shorten difference.path options.pathWidth
  reference := valueCell options.valueWidth difference.reference
  candidate := valueCell options.valueWidth difference.candidate

/-- The width of each column: that of its widest cell. -/
def columnWidths (rows : List (Row String)) : Row Nat :=
  (header :: rows).foldl (fun widths row => widths.zipWith (fun width cell => max width cell.length) row)
    ⟨0, 0, 0, 0⟩

/-- Spaces, as many as a cell lacks to its width. -/
def padding (width : Nat) (cell : String) : String :=
  String.ofList (List.replicate (width - cell.length) ' ')

/-- A line of cells, each filled up to its width. -/
def tableLine (widths : Row Nat) (row : Row String) : String :=
  " | ".intercalate (widths.zipWith (fun width cell => cell ++ padding width cell) row).toList

/-- The line under the header. -/
def ruler (widths : Row Nat) : String :=
  "-|-".intercalate (widths.toList.map fun width => String.ofList (List.replicate width '-'))

/-- The line of a difference. A color changes nothing but the name of the kind, so
the padding is that of the plain name. -/
def differenceLine (options : Options) (widths : Row Nat) (difference : Difference) : String :=
  let row := cells options difference
  if options.color then
    " | ".intercalate
      ((label true difference.kind ++ padding widths.kind row.kind) ::
        (widths.zipWith (fun width cell => cell ++ padding width cell) row).toList.tail)
  else tableLine widths row

/-- The table of differences; nothing at all when there are none. -/
def table (options : Options) (differences : List Difference) : String :=
  if differences.isEmpty then ""
  else
    let widths := columnWidths (differences.map (cells options))
    Text.joinLines <| (tableLine widths header :: ruler widths ::
      differences.map (differenceLine options widths)).map Text.trimEnd

end StructuralDiff.Report
