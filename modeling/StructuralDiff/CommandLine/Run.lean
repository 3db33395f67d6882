import StructuralDiff.CommandLine.Arguments
import StructuralDiff.Comparison.Recording
import StructuralDiff.Policy.File
import StructuralDiff.Reading
import StructuralDiff.Report.Render

/-!
# A run of the program

A run compares the candidate with the reference and reports the findings. The exit
code is zero when there are none, one when there are some, and two when the
documents cannot be compared. What a run sees of files and streams is given to it, so
its outcome is a value.
-/

namespace StructuralDiff

/-- Why a run ends without a comparison. -/
inductive RunError where
  | config (name : String) (cause : PolicyFileError)
  | format (name : String)
  | policy (cause : PolicyError)
  | reference (name : String) (cause : ReadError)
  | candidate (name : String) (cause : ReadError)
  | input (cause : ReadError)
  | noCandidate
  | comparison (cause : ComparisonError)

namespace RunError

/-- What was done, then what went wrong, then the reason behind it where it has one of
its own. -/
def parts : RunError → List String
  | .config name cause =>
    ("Failed to load config file: " ++ name) :: cause.message :: cause.cause?.toList
  | .format name => ["Invalid format in config file", Report.Format.unknownMessage name]
  | .policy cause => "Invalid flags" :: cause.message :: cause.cause?.toList
  | .reference name cause =>
    ("Failed to parse reference: " ++ name) :: cause.message :: cause.cause?.toList
  | .candidate name cause =>
    ("Failed to parse candidate: " ++ name) :: cause.message :: cause.cause?.toList
  | .input cause => "Failed to read candidate from stdin" :: cause.message :: cause.cause?.toList
  | .noCandidate => ["No candidate given: pass a CANDIDATE file or pipe one on stdin"]
  | .comparison cause => ["Comparison failed", cause.message]

/-- The error in one line. -/
def message (error : RunError) : String :=
  "Error: " ++ ": ".intercalate error.parts

end RunError

/-- What a run sees of files and streams. -/
structure Surroundings where
  /-- The text of a file. -/
  file : String → Except FileFault String
  /-- The text of the standard input, unless that is a terminal. -/
  input : Option (Except FileFault String)
  /-- The standard output is a terminal. -/
  showsColor : Bool

/-- What a run leaves. -/
structure Outcome where
  code : Nat
  output : String
  errors : String
deriving DecidableEq

namespace Outcome

/-- An outcome that prints a text. -/
def printed (output : String) : Outcome := ⟨0, output ++ "\n", ""⟩

/-- An outcome that prints a complaint. -/
def failed (message : String) : Outcome := ⟨2, "", message ++ "\n"⟩

end Outcome

namespace Arguments

/-- The policy file that is asked for, or one that says nothing. -/
def policyFile (arguments : Arguments) (surroundings : Surroundings) : Except RunError PolicyFile :=
  match arguments.value? .config with
  | Option.none => .ok .empty
  | some name => (PolicyFile.load name (surroundings.file name)).mapError (RunError.config name)

/-- The report format: that of the command line, else that of the policy file, else the
table. -/
def reportFormat (arguments : Arguments) (file : PolicyFile) : Except RunError Report.Format :=
  match arguments.format?, file.format with
  | some format, _ => .ok format
  | Option.none, some name =>
    match Report.Format.read? name with
    | some format => .ok format
    | Option.none => .error (.format name)
  | Option.none, Option.none => .ok .table

/-- The policy: the settings of the file, and those of the command line after them. -/
def policy (arguments : Arguments) (file : PolicyFile) : Except RunError Policy :=
  (arguments.addTo (file.addTo .empty)).build.mapError RunError.policy

/-- The document to check. -/
def readCandidate (arguments : Arguments) (surroundings : Surroundings) : Except RunError Value :=
  match arguments.candidate?, surroundings.input with
  | some name, _ => (Value.ofFile name (surroundings.file name)).mapError (RunError.candidate name)
  | Option.none, some input => (Value.ofInput input).mapError RunError.input
  | Option.none, Option.none => .error .noCandidate

/-- The findings with the format in which they are reported. -/
def compare (arguments : Arguments) (surroundings : Surroundings) :
    Except RunError (Report.Format × Findings) := do
  let file ← arguments.policyFile surroundings
  let format ← arguments.reportFormat file
  let policy ← arguments.policy file
  let name := arguments.reference
  let reference ← (Value.ofFile name (surroundings.file name)).mapError (RunError.reference name)
  let candidate ← arguments.readCandidate surroundings
  let findings ← (Comparison.perform policy reference candidate).mapError RunError.comparison
  return (format, findings)

/-- What is printed of findings: nothing when the run is to be quiet or the report is
empty. -/
def printedReport (arguments : Arguments) (surroundings : Surroundings) (format : Report.Format)
    (findings : Findings) : String :=
  let color := !arguments.has .noColor && surroundings.showsColor
  let report := Report.render format { Report.Options.default with color := color } findings
  if arguments.has .quiet || report == "" then "" else report ++ "\n"

end Arguments

/-- The name and the version of the program. -/
def versionText : String := "refcheck 0.3.0"

/-- A summary of the command line: the long names of the options, and which take a value. -/
def helpText : String :=
  "Structural comparison of a candidate document against a reference\n\n" ++
    "Usage: refcheck [OPTIONS] <REFERENCE> [CANDIDATE]\n\nOptions:\n" ++
    Text.joinLines (CommandOption.all.map fun option =>
      "  --" ++ option.longName ++ if option.takesValue then " <VALUE>" else "")

namespace Request

/-- The outcome of a request. -/
def outcome (surroundings : Surroundings) : Request → Outcome
  | .showHelp => .printed helpText
  | .showVersion => .printed versionText
  | .compare arguments =>
    match arguments.compare surroundings with
    | .error error => .failed error.message
    | .ok (format, findings) =>
      ⟨if findings.isEmpty then 0 else 1,
        arguments.printedReport surroundings format findings, ""⟩

end Request

/-- The outcome of a command line. -/
def run (tokens : List String) (surroundings : Surroundings) : Outcome :=
  match Arguments.read tokens with
  | .ok request => request.outcome surroundings
  | .error error => .failed ("error: " ++ error.message)

end StructuralDiff
