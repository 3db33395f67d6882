import StructuralDiff.Text.Digit
import StructuralDiff.Yaml.Folding

/-!
# Quoted scalars

Scalars in single quotes, in which a quote is written twice, and in double quotes,
in which a backslash starts an escape. Both may span lines.
-/

namespace StructuralDiff.Yaml.QuotedScalar

/-- The character that a one-letter escape stands for. -/
def shortEscape? (char : Char) : Option Char :=
  match char with
  | '0' => some '\x00'
  | 'a' => some '\x07'
  | 'b' => some '\x08'
  | 't' => some '\t'
  | '\t' => some '\t'
  | 'n' => some '\n'
  | 'v' => some '\x0b'
  | 'f' => some '\x0c'
  | 'r' => some '\r'
  | 'e' => some '\x1b'
  | ' ' => some ' '
  | '"' => some '"'
  | '/' => some '/'
  | '\\' => some '\\'
  | 'N' => some '\u0085'
  | '_' => some '\u00a0'
  | 'L' => some '\u2028'
  | 'P' => some '\u2029'
  | _ => none

/-- How many hexadecimal digits follow the letter of a numeric escape. -/
def escapeLength? (char : Char) : Option Nat :=
  match char with
  | 'x' => some 2
  | 'u' => some 4
  | 'U' => some 8
  | _ => none

/-- An escape after its backslash: the character and where the escape ends. -/
def escape? (cursor : Cursor) : Option (Char × Cursor) := do
  let letter ← cursor.ahead 1
  match escapeLength? letter with
  | none => return (← shortEscape? letter, cursor.advanceBy 2)
  | some length =>
    let digits := (cursor.rest.drop 2).take length
    if digits.length < length then none
    return (← Text.ofCodePoint? (← Text.number? 16 digits), cursor.advanceBy (2 + length))

/-- One word of the scalar, whether an escaped line break ended it, and where it
ends. -/
def word? (single : Bool) : Nat → Cursor → Option (List Char × Bool × Cursor)
  | 0, _ => none
  | fuel + 1, cursor =>
    if cursor.endsWord 0 then some ([], false, cursor)
    else if single && cursor.sees '\'' 0 && cursor.sees '\'' 1 then
      (word? single fuel (cursor.advanceBy 2)).map fun (chars, rest) => ('\'' :: chars, rest)
    else if cursor.sees (if single then '\'' else '"') 0 then some ([], false, cursor)
    else if !single && cursor.sees '\\' 0 then
      if cursor.atBreak 1 then some ([], true, cursor.advance.skipBreak)
      else do
        let (char, cursor) ← escape? cursor
        let (chars, rest) ← word? single fuel cursor
        return (char :: chars, rest)
    else
      match cursor.rest with
      | [] => none
      | char :: _ => (word? single fuel cursor.advance).map fun (chars, rest) => (char :: chars, rest)

/-- The scalar from here on up to its closing quote, and what follows the quote. No
line of it may start with the mark of a document. The steps allowed for the words are
enough for each of them too. -/
def words? (single : Bool) : Nat → Cursor → Option (List Char × Cursor)
  | 0, _ => none
  | fuel + 1, cursor =>
    if cursor.atDocumentMark '-' || cursor.atDocumentMark '.' || cursor.rest.isEmpty then none
    else do
      let (chars, joined, cursor) ← word? single (fuel + 1) cursor
      if cursor.sees (if single then '\'' else '"') 0 then return (chars, cursor.advance)
      let before := if joined then Separation.joined else .none
      let (between, cursor) ← Separation.read? 0 (fuel + 1) before cursor
      let (others, cursor) ← words? single fuel cursor
      return (chars ++ between.text ++ others, cursor)

/-- A quoted scalar, from its opening quote on. -/
def read? (single : Bool) (cursor : Cursor) : Option (String × Cursor) :=
  (words? single (cursor.rest.length + 1) cursor.advance).map fun (chars, cursor) =>
    (String.ofList chars, cursor)

end StructuralDiff.Yaml.QuotedScalar
