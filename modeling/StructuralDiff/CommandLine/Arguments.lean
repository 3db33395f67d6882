import StructuralDiff.CommandLine.Options

/-!
# Command-line arguments

Arguments are read from left to right, and the first fault ends the reading.
Options may stand anywhere, a long one after two hyphens, letters together after
one; the value of an option stands behind it or in the next argument. After two
hyphens alone there are only operands. Whoever asks for help or for the version gets
it at once.
-/

namespace StructuralDiff

/-- Why arguments are refused. -/
inductive UsageError where
  | unknownOption (token : String)
  | repeated (option : CommandOption)
  | missingValue (option : CommandOption)
  | unexpectedValue (option : CommandOption)
  | illegalValue (option : CommandOption) (value : String)
  | emptyOperand
  | extraOperand (operand : String)
  | missingOperand
deriving DecidableEq

/-- The error in words. -/
def UsageError.message : UsageError → String
  | .unknownOption token => "unknown option " ++ token
  | .repeated option => "option --" ++ option.longName ++ " cannot be repeated"
  | .missingValue option => "option --" ++ option.longName ++ " needs a value"
  | .unexpectedValue option => "option --" ++ option.longName ++ " takes no value"
  | .illegalValue option value =>
    Text.quoted value ++ " is not a legal value for option --" ++ option.longName
  | .emptyOperand => "a file name cannot be empty"
  | .extraOperand operand => "unexpected argument " ++ Text.quoted operand
  | .missingOperand => "no REFERENCE given"

/-- The options and operands given so far, in order. A switch has an empty value. -/
structure Arguments where
  operands : List String
  options : List (CommandOption × String)

/-- What arguments ask for. -/
inductive Request where
  | compare (arguments : Arguments)
  | showHelp
  | showVersion

namespace Arguments

/-- No arguments. -/
def none : Arguments := ⟨[], []⟩

/-- The option is given. -/
def has (arguments : Arguments) (option : CommandOption) : Bool :=
  arguments.options.any fun entry => entry.1 = option

/-- The values of an option, in order. -/
def values (arguments : Arguments) (option : CommandOption) : List String :=
  (arguments.options.filter fun entry => entry.1 = option).map Prod.snd

/-- The value of an option. -/
def value? (arguments : Arguments) (option : CommandOption) : Option String :=
  (arguments.values option).head?

/-- Add an option with its value. -/
def give (arguments : Arguments) (option : CommandOption) (value : String) :
    Except UsageError Arguments :=
  if !option.repeats && arguments.has option then .error (.repeated option)
  else if !option.allows value then .error (.illegalValue option value)
  else .ok { arguments with options := arguments.options ++ [(option, value)] }

/-- Add an operand. There are two at most, and none is empty. -/
def addOperand (arguments : Arguments) (operand : String) : Except UsageError Arguments :=
  if 2 ≤ arguments.operands.length then .error (.extraOperand operand)
  else if operand == "" then .error .emptyOperand
  else .ok { arguments with operands := arguments.operands ++ [operand] }

/-- The request of arguments that are read to their end. -/
def request (arguments : Arguments) : Except UsageError Request :=
  if arguments.operands.isEmpty then .error .missingOperand else .ok (.compare arguments)

end Arguments

/-- How far an argument leads. -/
inductive Progress where
  | more (arguments : Arguments)
  /-- The value of an option has to follow. -/
  | awaiting (arguments : Arguments) (option : CommandOption)
  | finished (request : Request)

namespace Arguments

/-- Read an option, with a value if one is attached to it. -/
def readOption (arguments : Arguments) (option : CommandOption) (attached : Option String) :
    Except UsageError Progress :=
  match option.takesValue, attached with
  | true, some value => (arguments.give option value).map Progress.more
  | true, Option.none => .ok (.awaiting arguments option)
  | false, some _ => .error (.unexpectedValue option)
  | false, Option.none =>
    match option with
    | .help => .ok (.finished .showHelp)
    | .version => .ok (.finished .showVersion)
    | option => (arguments.give option "").map Progress.more

/-- Read an option by its long name. An equals sign stands before its value. -/
def readLong (arguments : Arguments) (token : List Char) : Except UsageError Progress :=
  let name := String.ofList (token.takeWhile (· != '='))
  let attached := match token.dropWhile (· != '=') with
    | _ :: value => some (String.ofList value)
    | [] => Option.none
  match CommandOption.ofLongName? name with
  | some option => arguments.readOption option attached
  | Option.none => .error (.unknownOption ("--" ++ name))

/-- The value behind a letter. An equals sign may stand before it. -/
def attachedTo : List Char → Option String
  | [] => Option.none
  | '=' :: value => some (String.ofList value)
  | value => some (String.ofList value)

/-- Read options by their letters. What stands behind an option with a value is its
value. -/
def readLetters (arguments : Arguments) : List Char → Except UsageError Progress
  | [] => .ok (.more arguments)
  | letter :: rest =>
    match CommandOption.ofLetter? letter with
    | Option.none => .error (.unknownOption (String.ofList ['-', letter]))
    | some option =>
      if option.takesValue then arguments.readOption option (attachedTo rest)
      else
        match arguments.readOption option Option.none with
        | .ok (.more arguments) => readLetters arguments rest
        | other => other

/-- Read one argument. A hyphen alone is an operand. -/
def readToken (arguments : Arguments) (token : String) : Except UsageError Progress :=
  match token.toList with
  | '-' :: '-' :: name => arguments.readLong name
  | '-' :: letter :: letters => arguments.readLetters (letter :: letters)
  | _ => (arguments.addOperand token).map Progress.more

/-- An argument that cannot be the value of the option before it. -/
def startsOption (token : String) : Bool :=
  match token.toList with
  | '-' :: _ :: _ => true
  | _ => false

/-- Read arguments after those that are read already. -/
def readFrom (arguments : Arguments) : List String → Except UsageError Request
  | [] => arguments.request
  | token :: rest =>
    if token == "--" then (rest.foldlM addOperand arguments).bind request
    else
      match arguments.readToken token with
      | .error fault => .error fault
      | .ok (.finished request) => .ok request
      | .ok (.more arguments) => readFrom arguments rest
      | .ok (.awaiting arguments option) =>
        match rest with
        | [] => .error (.missingValue option)
        | value :: rest =>
          if startsOption value then .error (.missingValue option)
          else
            match arguments.give option value with
            | .ok arguments => readFrom arguments rest
            | .error fault => .error fault

/-- What a command line asks for. -/
def read (tokens : List String) : Except UsageError Request :=
  readFrom Arguments.none tokens

/-- The document considered correct. -/
def reference (arguments : Arguments) : String :=
  arguments.operands.head?.getD ""

/-- The document to check, if it is a file. -/
def candidate? (arguments : Arguments) : Option String :=
  arguments.operands[1]?

/-- The report format that is asked for. -/
def format? (arguments : Arguments) : Option Report.Format :=
  (arguments.value? .format).bind CommandOption.format?

/-- Give flags the settings of a command line. -/
def addTo (arguments : Arguments) (draft : Draft) : Draft :=
  arguments.options.foldl
    (fun draft entry =>
      match entry.1 with
      | .flag flag =>
        draft.set flag (if entry.1.takesValue then .text entry.2 else .bool true)
      | _ => draft)
    draft

end Arguments

end StructuralDiff
