import StructuralDiff.Json.Reader
import StructuralDiff.Text.Split
import StructuralDiff.Toml.Reader
import StructuralDiff.Yaml.Reader

/-!
# Reading documents

A document is read as JSON, YAML or TOML, as its file name tells. When the name tells
nothing, JSON is tried first and YAML next; what is neither is one text, so that any
two files can be compared.
-/

namespace StructuralDiff

/-- How a document is read. -/
inductive DocumentFormat where
  /-- JSON, else YAML, else one text. -/
  | auto
  | json
  | yaml
  | toml
deriving DecidableEq

/-- Why a file has no text. -/
inductive FileFault where
  | absent
  | directory
  | notText
  /-- Any other reason, in words. -/
  | other (reason : String)
deriving DecidableEq

/-- The reason in words. -/
def FileFault.message : FileFault → String
  | .absent => "No such file or directory (os error 2)"
  | .directory => "Is a directory (os error 21)"
  | .notText => "stream did not contain valid UTF-8"
  | .other reason => reason

/-- Why a document cannot be read. -/
inductive ReadError where
  | absent (name : String)
  | unreadable (name : String) (fault : FileFault)
  | notJson (name : String)
  | notYaml (name : String)
  | notToml (name : String)
deriving DecidableEq

/-- The error in words. -/
def ReadError.message : ReadError → String
  | .absent name => "File not found: " ++ name
  | .unreadable name fault => "Failed to read " ++ name ++ ": " ++ fault.message
  | .notJson name => "Invalid JSON in " ++ name
  | .notYaml name => "Invalid YAML in " ++ name
  | .notToml name => "Invalid TOML in " ++ name

/-- The reason behind the error, where it has one of its own. -/
def ReadError.cause? : ReadError → Option String
  | .unreadable _ fault => some fault.message
  | _ => none

namespace DocumentFormat

/-- The steps of a file name that count: all but empty ones and single points. -/
def nameSteps (name : String) : List (List Char) :=
  (Text.split '/' name.toList).filter fun step => !step.isEmpty && step != ['.']

/-- The characters after the last point of a step. A point at its start does not
count. -/
def extension (step : List Char) : List Char :=
  let ending := (step.reverse.takeWhile (· != '.')).reverse
  if ending.length + 1 < step.length then ending else []

/-- The format of a file by its name. The case of letters does not count. -/
def ofFileName (name : String) : DocumentFormat :=
  match (nameSteps name).getLast? with
  | none => .auto
  | some step =>
    match String.ofList ((extension step).map Char.toLower) with
    | "json" => .json
    | "yaml" => .yaml
    | "yml" => .yaml
    | "toml" => .toml
    | _ => .auto

end DocumentFormat

namespace Value

/-- The value of a document. The name is for the error. -/
def read (format : DocumentFormat) (name source : String) : Except ReadError Value :=
  match format with
  | .json =>
    match Json.read? source with
    | some json => .ok (ofJson json)
    | none => .error (.notJson name)
  | .yaml =>
    match Yaml.read? source with
    | some yaml => .ok (ofYaml yaml)
    | none => .error (.notYaml name)
  | .toml =>
    match Toml.read? source with
    | some toml => .ok (ofToml toml)
    | none => .error (.notToml name)
  | .auto =>
    match Json.read? source with
    | some json => .ok (ofJson json)
    | none =>
      match Yaml.read? source with
      | some yaml => .ok (ofYaml yaml)
      | none => .ok (.text source)

/-- The value of the document in a file, whose name tells the format. -/
def ofFile (name : String) (content : Except FileFault String) : Except ReadError Value :=
  match content with
  | .ok source => read (.ofFileName name) name source
  | .error .absent => .error (.absent name)
  | .error fault => .error (.unreadable name fault)

/-- The value of the document on the standard input. -/
def ofInput (content : Except FileFault String) : Except ReadError Value :=
  match content with
  | .ok source => read .auto inputName source
  | .error fault => .error (.unreadable inputName fault)
where
  /-- The name of the standard input in messages. -/
  inputName : String := "<stdin>"

end Value

end StructuralDiff
