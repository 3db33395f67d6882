import StructuralDiff.Policy.Draft
import StructuralDiff.Report.Format

/-!
# Command-line options

The options of the command line: one for each flag, and those for the report, the
policy file and the program itself. A flag's option is spelled with hyphens.
-/

namespace StructuralDiff

/-- An option of the command line. -/
inductive CommandOption where
  | flag (flag : Flag)
  | format
  | config
  | noColor
  | verbose
  | quiet
  | help
  | version
deriving DecidableEq

namespace CommandOption

/-- All options. -/
def all : List CommandOption :=
  Flag.all.map flag ++ [.format, .config, .noColor, .verbose, .quiet, .help, .version]

/-- The spelling of an option behind two hyphens. -/
def longName : CommandOption → String
  | .flag given => String.ofList (given.name.toList.map fun char => if char == '_' then '-' else char)
  | .format => "format"
  | .config => "config"
  | .noColor => "no-color"
  | .verbose => "verbose"
  | .quiet => "quiet"
  | .help => "help"
  | .version => "version"

/-- The letter of an option behind one hyphen, if it has one. -/
def letter? : CommandOption → Option Char
  | .flag .maxDiffs => some 'n'
  | .flag .maxDepth => some 'd'
  | .flag .selectPaths => some 's'
  | .flag .rejectPaths => some 'r'
  | .flag _ => none
  | .format => some 'f'
  | .config => some 'c'
  | .noColor => none
  | .verbose => some 'v'
  | .quiet => some 'q'
  | .help => some 'h'
  | .version => some 'V'

/-- The option of a long name. -/
def ofLongName? (name : String) : Option CommandOption :=
  all.find? fun option => option.longName == name

/-- The option of a letter. -/
def ofLetter? (letter : Char) : Option CommandOption :=
  all.find? fun option => option.letter? == some letter

/-- The flag is a list of paths. -/
def isPathList : Flag → Bool
  | .selectPaths => true
  | .rejectPaths => true
  | .matchByKey => true
  | .matchByValue => true
  | _ => false

/-- The option comes with a value. -/
def takesValue : CommandOption → Bool
  | .flag given => isPathList given || given = .maxDiffs || given = .maxDepth
  | .format => true
  | .config => true
  | _ => false

/-- The option may be given more than once. -/
def repeats : CommandOption → Bool
  | .flag given => isPathList given
  | .verbose => true
  | _ => false

/-- The report format of a value, spelled exactly. -/
def format? (value : String) : Option Report.Format :=
  Report.Format.all.find? fun format => format.name == value

/-- The option takes a value. What a flag makes of it is found out later. -/
def allows (option : CommandOption) (value : String) : Bool :=
  match option with
  | .format => (format? value).isSome
  | .config => value != ""
  | _ => true

end CommandOption

end StructuralDiff
