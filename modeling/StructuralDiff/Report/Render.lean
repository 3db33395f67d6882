import StructuralDiff.Findings
import StructuralDiff.Report.JsonLines
import StructuralDiff.Report.Long
import StructuralDiff.Report.Table

/-!
# Rendering findings

Findings in one of the report formats, in the order in which they were recorded.
-/

namespace StructuralDiff.Report

/-- The report of findings in a format. -/
def render (format : Format) (options : Options) (findings : Findings) : String :=
  match format with
  | .table => table options findings.items
  | .json => jsonLines findings.items
  | .long => long options.color findings.items

end StructuralDiff.Report
