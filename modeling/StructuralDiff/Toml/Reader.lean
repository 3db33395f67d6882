import StructuralDiff.Toml.Moment
import StructuralDiff.Toml.Numeral
import StructuralDiff.Toml.Table

/-!
# Reading TOML

A document is a sequence of lines: a header, a key with its value, or nothing, each
with an optional comment. Arrays may go over several lines, inline tables may not.
The depth of nesting and the length of a dotted key are limited.
-/

namespace StructuralDiff.Toml

/-- Arrays and inline tables are nested less deeply than this, and a dotted key has
fewer parts. -/
def depthLimit : Nat := 80

/-- What follows a comment that the characters may start with. -/
def skipComment : List Char → List Char
  | '#' :: rest => rest.dropWhile isPrintable
  | chars => chars

/-- What follows blanks, line breaks and comments. A comment has to end at the end of
its line. -/
def skipSpace : Nat → List Char → List Char
  | 0, chars => chars
  | fuel + 1, chars =>
    match skipBlankLines chars with
    | '#' :: rest =>
      match afterNewline? (rest.dropWhile isPrintable) with
      | some rest => skipSpace fuel rest
      | none => '#' :: rest
    | rest => rest

/-- What follows the rest of a line, which holds at most blanks and a comment. -/
def afterLine? (chars : List Char) : Option (List Char) :=
  match skipComment (skipBlanks chars) with
  | [] => some []
  | rest => afterNewline? rest

/-- The characters of which a key without quotes consists. -/
def isBare (char : Char) : Bool :=
  char.isAlphanum || char == '-' || char == '_'

/-- One part of a key. -/
def readKeyPart : Reader String
  | '"' :: rest => (readBasic (rest.length + 1) rest).map fun (name, rest) => (String.ofList name, rest)
  | '\'' :: rest => (readLiteral rest).map fun (name, rest) => (String.ofList name, rest)
  | chars =>
    let name := chars.takeWhile isBare
    if name.isEmpty then none else some (String.ofList name, chars.dropWhile isBare)

/-- The parts of a key with dots between them, and blanks around each. -/
def readKeyParts : Nat → Reader (List String)
  | 0, _ => none
  | fuel + 1, chars => do
    let (name, rest) ← readKeyPart (skipBlanks chars)
    match skipBlanks rest with
    | '.' :: rest =>
      let (names, rest) ← readKeyParts fuel rest
      return (name :: names, rest)
    | rest => return ([name], rest)

/-- A key. -/
def readKey : Reader (List String) := fun chars => do
  let (names, rest) ← readKeyParts (chars.length + 1) chars
  if names.length < depthLimit then some (names, rest) else none

/-- A value that starts with a digit or a sign: a moment where it looks like one, else
a number. -/
def readNumeric : Reader Toml := fun chars =>
  match Moment.read? chars with
  | some result => result.map fun (content, rest) => (.moment content, rest)
  | none => Numeral.read chars

/-- A value of one word, a text or a number. -/
def readSimple : Reader Toml
  | [] => none
  | char :: rest =>
    if char == '"' || char == '\'' then
      (readText (char :: rest)).map fun (content, rest) => (.text content, rest)
    else if char == '+' || char == '-' || char.isDigit then readNumeric (char :: rest)
    else match char, rest with
      | 't', 'r' :: 'u' :: 'e' :: rest => some (.bool true, rest)
      | 'f', 'a' :: 'l' :: 's' :: 'e' :: rest => some (.bool false, rest)
      | 'i', 'n' :: 'f' :: rest => some (.float (Binary64.infinity false), rest)
      | 'n', 'a' :: 'n' :: rest => some (.float (Binary64.notANumber false), rest)
      | _, _ => none

/-- The inline table of keys with values. -/
def inlineTable (pairs : List (List String × Toml)) : Option Toml := do
  let items ← pairs.foldlM
    (fun items (path, value) => do
      let name ← path.getLast?
      Items.assign path.dropLast name value .header items)
    ([] : Items)
  return .table (Item.entriesToToml items)

mutual

/-- A value. The first argument bounds the steps; the second is how many more levels of
nesting are allowed. -/
def readValue : Nat → Nat → Reader Toml
  | 0, _, _ => none
  | fuel + 1, depth, '[' :: rest =>
    match depth with
    | 0 => none
    | depth + 1 => (readItems fuel depth rest).map fun (items, rest) => (.array items, rest)
  | fuel + 1, depth, '\x7b' :: rest =>
    match depth with
    | 0 => none
    | depth + 1 =>
      match skipBlanks rest with
      | '\x7d' :: rest => some (.table [], rest)
      | rest => do
        let (pairs, rest) ← readPairs fuel depth rest
        return (← inlineTable pairs, rest)
  | _ + 1, _, chars => readSimple chars

/-- The items of an array up to its closing bracket. A comma may follow the last. -/
def readItems : Nat → Nat → Reader (List Toml)
  | 0, _, _ => none
  | fuel + 1, depth, chars =>
    match skipSpace chars.length chars with
    | ']' :: rest => some ([], rest)
    | chars => do
      let (item, rest) ← readValue fuel depth chars
      match skipSpace rest.length rest with
      | ',' :: rest =>
        let (items, rest) ← readItems fuel depth rest
        return (item :: items, rest)
      | ']' :: rest => return ([item], rest)
      | _ => none

/-- The keys and values of an inline table up to its closing brace. -/
def readPairs : Nat → Nat → Reader (List (List String × Toml))
  | 0, _, _ => none
  | fuel + 1, depth, chars => do
    let (path, rest) ← readKey chars
    match rest with
    | '=' :: rest =>
      let (value, rest) ← readValue fuel depth (skipBlanks rest)
      match skipBlanks rest with
      | ',' :: rest =>
        let (pairs, rest) ← readPairs fuel depth rest
        return ((path, value) :: pairs, rest)
      | '\x7d' :: rest => return ([(path, value)], rest)
      | _ => none
    | _ => none

end

/-- A key with its value, on a line. -/
def readAssignment : Reader (List String × Toml) := fun chars => do
  let (path, rest) ← readKey chars
  match rest with
  | '=' :: rest =>
    let rest := skipBlanks rest
    let (value, rest) ← readValue (2 * rest.length + 2) (depthLimit - 1) rest
    return ((path, value), ← afterLine? rest)
  | _ => none

/-- A header's path, after its opening brackets. The flag says whether there are two of
them. -/
def readHeader (double : Bool) : Reader (List String) := fun chars => do
  let (path, rest) ← readKey chars
  match double, rest with
  | true, ']' :: ']' :: rest => return (path, ← afterLine? rest)
  | false, ']' :: rest => return (path, ← afterLine? rest)
  | _, _ => none

/-- The lines of a document, put into an outline. -/
def readLines : Nat → Outline → List Char → Option Outline
  | 0, _, _ => none
  | fuel + 1, outline, chars =>
    match skipBlanks chars with
    | [] => some outline
    | '[' :: '[' :: rest => do
      let (path, rest) ← readHeader true rest
      readLines fuel (← outline.openElement path) rest
    | '[' :: rest => do
      let (path, rest) ← readHeader false rest
      readLines fuel (← outline.openTable path) rest
    | rest =>
      match afterLine? rest with
      | some rest => readLines fuel outline rest
      | none => do
        let ((path, value), rest) ← readAssignment rest
        readLines fuel (← outline.assign path value) rest

/-- The table of a TOML document. A byte-order mark may stand in front. -/
def read? (source : String) : Option Toml := do
  let chars := match source.toList with
    | '\uFEFF' :: chars => chars
    | chars => chars
  let outline ← readLines (chars.length + 1) Outline.empty chars
  outline.toToml

end StructuralDiff.Toml
