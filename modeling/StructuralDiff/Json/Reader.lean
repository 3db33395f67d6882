import StructuralDiff.Json.Basic
import StructuralDiff.Json.Numeral
import StructuralDiff.Text.Digit

/-!
# Reading JSON

A reader takes the remaining characters and gives what it read with the characters
after it. Arrays and objects may be nested to a depth of one hundred and
twenty-seven. A repeated key keeps its first place and its last value.
-/

namespace StructuralDiff.Json

/-- How deep arrays and objects may be nested. -/
def depthLimit : Nat := 127

/-- The characters that may stand between the tokens of a JSON text. -/
def isSpace (char : Char) : Bool :=
  char == ' ' || char == '\n' || char == '\t' || char == '\r'

/-- The characters from the first token on. -/
def skipSpace (chars : List Char) : List Char :=
  chars.dropWhile isSpace

/-- What follows a word, when the characters start with it. -/
def afterWord? : List Char → List Char → Option (List Char)
  | [], chars => some chars
  | _ :: _, [] => none
  | expected :: word, char :: chars => if expected = char then afterWord? word chars else none

/-- A piece of a quoted text: a character, or a sixteen-bit unit that was written
as a hexadecimal escape. -/
inductive Piece where
  | char (value : Char)
  | unit (value : Nat)
deriving DecidableEq

/-- The character that a one-letter escape stands for. -/
def shortEscape? : Char → Option Char
  | '"' => some '"'
  | '\\' => some '\\'
  | '/' => some '/'
  | 'b' => some '\x08'
  | 'f' => some '\x0c'
  | 'n' => some '\n'
  | 'r' => some '\r'
  | 't' => some '\t'
  | _ => none

/-- The pieces of a quoted text up to its closing quote, and what follows it. -/
def readPieces : List Char → Option (List Piece × List Char)
  | [] => none
  | '"' :: rest => some ([], rest)
  | '\\' :: 'u' :: a :: b :: c :: d :: rest =>
    match Text.number? 16 [a, b, c, d], readPieces rest with
    | some unit, some (pieces, rest) => some (.unit unit :: pieces, rest)
    | _, _ => none
  | '\\' :: letter :: rest =>
    match shortEscape? letter, readPieces rest with
    | some char, some (pieces, rest) => some (.char char :: pieces, rest)
    | _, _ => none
  | char :: rest =>
    if char.toNat < 0x20 || char == '\\' then none
    else (readPieces rest).map fun (pieces, rest) => (.char char :: pieces, rest)

/-- The characters of pieces. A unit from the upper surrogates joins with one from
the lower surrogates right after it; neither kind may stand alone. -/
def joinPieces : List Piece → Option (List Char)
  | [] => some []
  | .char char :: pieces => (joinPieces pieces).map (char :: ·)
  | .unit upper :: .unit lower :: pieces =>
    if 0xD800 ≤ upper ∧ upper < 0xDC00 then
      if 0xDC00 ≤ lower ∧ lower < 0xE000 then
        (joinPieces pieces).map
          (Char.ofNat (0x10000 + (upper - 0xD800) * 0x400 + (lower - 0xDC00)) :: ·)
      else none
    else if 0xDC00 ≤ upper ∧ upper < 0xE000 then none
    else (joinPieces (.unit lower :: pieces)).map (Char.ofNat upper :: ·)
  | .unit unit :: pieces =>
    if 0xD800 ≤ unit ∧ unit < 0xE000 then none
    else (joinPieces pieces).map (Char.ofNat unit :: ·)

/-- A quoted text, after its opening quote. -/
def readText (chars : List Char) : Option (String × List Char) := do
  let (pieces, rest) ← readPieces chars
  let characters ← joinPieces pieces
  return (String.ofList characters, rest)

mutual

/-- A value, after the space before it. The first argument bounds the steps; the
second is how many more levels of nesting are allowed. -/
def readValue : Nat → Nat → List Char → Option (Json × List Char)
  | 0, _, _ => none
  | fuel + 1, depth, chars =>
    match skipSpace chars with
    | [] => none
    | '"' :: rest => (readText rest).map fun (content, rest) => (.text content, rest)
    | '[' :: rest =>
      match depth with
      | 0 => none
      | depth + 1 =>
        match skipSpace rest with
        | ']' :: rest => some (.array [], rest)
        | rest => (readItems fuel depth rest).map fun (items, rest) => (.array items, rest)
    | '\x7b' :: rest =>
      match depth with
      | 0 => none
      | depth + 1 =>
        match skipSpace rest with
        | '\x7d' :: rest => some (.object [], rest)
        | rest =>
          (readEntries fuel depth rest).map fun (entries, rest) =>
            (.object (Entries.ofPairs entries), rest)
    | 'n' :: rest => (afterWord? "ull".toList rest).map fun rest => (.null, rest)
    | 't' :: rest => (afterWord? "rue".toList rest).map fun rest => (.bool true, rest)
    | 'f' :: rest => (afterWord? "alse".toList rest).map fun rest => (.bool false, rest)
    | chars => do
      let (numeral, rest) ← Numeral.read? chars
      let value ← numeral.toNumber?
      return (.number value, rest)

/-- The items of an array up to its closing bracket. -/
def readItems : Nat → Nat → List Char → Option (List Json × List Char)
  | 0, _, _ => none
  | fuel + 1, depth, chars => do
    let (item, rest) ← readValue fuel depth chars
    match skipSpace rest with
    | ',' :: rest =>
      let (items, rest) ← readItems fuel depth rest
      return (item :: items, rest)
    | ']' :: rest => return ([item], rest)
    | _ => none

/-- The entries of an object up to its closing brace, as they are written. -/
def readEntries : Nat → Nat → List Char → Option (List (String × Json) × List Char)
  | 0, _, _ => none
  | fuel + 1, depth, chars =>
    match skipSpace chars with
    | '"' :: rest => do
      let (name, rest) ← readText rest
      match skipSpace rest with
      | ':' :: rest =>
        let (value, rest) ← readValue fuel depth rest
        match skipSpace rest with
        | ',' :: rest =>
          let (entries, rest) ← readEntries fuel depth rest
          return ((name, value) :: entries, rest)
        | '\x7d' :: rest => return ([(name, value)], rest)
        | _ => none
      | _ => none
    | _ => none

end

/-- The value of a JSON text, which holds one value and nothing else. -/
def read? (source : String) : Option Json :=
  let chars := source.toList
  match readValue (2 * chars.length + 2) depthLimit chars with
  | some (json, rest) => if skipSpace rest = [] then some json else none
  | none => none

end StructuralDiff.Json
