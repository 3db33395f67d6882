import StructuralDiff.Text.Digit
import StructuralDiff.Toml.Value

/-!
# Texts in TOML

The four kinds of quoted text: basic and literal, on one line or on several. A basic
text has escapes, a literal one has none. Controls other than the tab may not stand
in any of them.
-/

namespace StructuralDiff.Toml

/-- A reader takes the remaining characters and gives what it read with the
characters after it. -/
abbrev Reader (α : Type) := List Char → Option (α × List Char)

/-- The characters that may stand in texts and comments. -/
def isPrintable (char : Char) : Bool :=
  char == '\t' || (0x20 ≤ char.toNat && char.toNat != 0x7F)

/-- A space or a tab. -/
def isBlank (char : Char) : Bool :=
  char == ' ' || char == '\t'

/-- The characters after spaces and tabs. -/
def skipBlanks (chars : List Char) : List Char :=
  chars.dropWhile isBlank

/-- The characters after a line break, a line feed or a carriage return and a line
feed, when they start with one. -/
def afterNewline? : List Char → Option (List Char)
  | '\n' :: rest => some rest
  | '\r' :: '\n' :: rest => some rest
  | _ => none

/-- The characters after blanks and line breaks. -/
def skipBlankLines : List Char → List Char
  | ' ' :: rest => skipBlankLines rest
  | '\t' :: rest => skipBlankLines rest
  | '\n' :: rest => skipBlankLines rest
  | '\r' :: '\n' :: rest => skipBlankLines rest
  | chars => chars

/-- The character that so many hexadecimal digits stand for. -/
def readCodePoint (length : Nat) : Reader Char := fun chars => do
  let digits := chars.take length
  if digits.length < length then none
  let char ← Text.ofCodePoint? (← Text.number? 16 digits)
  return (char, chars.drop length)

/-- An escape after its backslash. -/
def readEscape : Reader Char
  | 'b' :: rest => some ('\x08', rest)
  | 'f' :: rest => some ('\x0c', rest)
  | 'n' :: rest => some ('\n', rest)
  | 'r' :: rest => some ('\r', rest)
  | 't' :: rest => some ('\t', rest)
  | '\\' :: rest => some ('\\', rest)
  | '"' :: rest => some ('"', rest)
  | 'u' :: rest => readCodePoint 4 rest
  | 'U' :: rest => readCodePoint 8 rest
  | _ => none

/-- A basic text on one line, after its opening quote. -/
def readBasic : Nat → Reader (List Char)
  | 0, _ => none
  | _ + 1, [] => none
  | fuel + 1, char :: rest =>
    if char == '"' then some ([], rest)
    else if char == '\\' then do
      let (escaped, rest) ← readEscape rest
      let (others, rest) ← readBasic fuel rest
      return (escaped :: others, rest)
    else if isPrintable char then (readBasic fuel rest).map fun (others, rest) => (char :: others, rest)
    else none

/-- A literal text on one line, after its opening quote. -/
def readLiteral : Reader (List Char)
  | [] => none
  | char :: rest =>
    if char == '\'' then some ([], rest)
    else if isPrintable char then (readLiteral rest).map fun (others, rest) => (char :: others, rest)
    else none

/-- A run of quotes in a text on several lines. One or two belong to the text; of a
longer run the last three close it, and at most two before them belong to the text.
The flag says whether the run closes the text. -/
def quoteRun (quote : Char) (chars : List Char) : List Char × Bool × List Char :=
  let length := (chars.takeWhile (· == quote)).length
  if length < 3 then (List.replicate length quote, false, chars.drop length)
  else
    let kept := min (length - 3) 2
    (List.replicate kept quote, true, chars.drop (kept + 3))

/-- A text on several lines, after its opening quotes. In a basic one, a backslash at
the end of a line removes everything up to the next character that is not blank. -/
def readLong (quote : Char) : Nat → Reader (List Char)
  | 0, _ => none
  | _ + 1, [] => none
  | fuel + 1, char :: rest =>
    if char == quote then
      match quoteRun quote (char :: rest) with
      | (quotes, true, rest) => some (quotes, rest)
      | (quotes, false, rest) =>
        (readLong quote fuel rest).map fun (others, rest) => (quotes ++ others, rest)
    else if char == '\\' && quote == '"' then
      match afterNewline? (skipBlanks rest) with
      | some rest => readLong quote fuel (skipBlankLines rest)
      | none => do
        let (escaped, rest) ← readEscape rest
        let (others, rest) ← readLong quote fuel rest
        return (escaped :: others, rest)
    else
      match afterNewline? (char :: rest) with
      | some rest => (readLong quote fuel rest).map fun (others, rest) => ('\n' :: others, rest)
      | none =>
        if isPrintable char then
          (readLong quote fuel rest).map fun (others, rest) => (char :: others, rest)
        else none

/-- A text in quotes. A line break right after the opening quotes of a text on
several lines does not count. -/
def readText : Reader String := fun chars =>
  let fuel := chars.length + 1
  let read : Option (List Char × List Char) := match chars with
    | '"' :: '"' :: '"' :: rest => readLong '"' fuel ((afterNewline? rest).getD rest)
    | '\'' :: '\'' :: '\'' :: rest => readLong '\'' fuel ((afterNewline? rest).getD rest)
    | '"' :: rest => readBasic fuel rest
    | '\'' :: rest => readLiteral rest
    | _ => none
  read.map fun (characters, rest) => (String.ofList characters, rest)

end StructuralDiff.Toml
