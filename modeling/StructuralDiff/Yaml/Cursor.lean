/-!
# Places in a YAML text

The characters that matter to the layout of a YAML text, and a cursor that moves
over them and knows its line and column.
-/

namespace StructuralDiff.Yaml

/-- The characters that a YAML text may hold. Most controls are excluded. -/
def isAllowed (char : Char) : Bool :=
  let code := char.toNat
  code == 0x09 || code == 0x0A || code == 0x0D || (0x20 ≤ code && code ≤ 0x7E) || code == 0x85 ||
    (0xA0 ≤ code && code ≤ 0xFFFD) || 0x10000 ≤ code

/-- A space or a tab. -/
def isGap (char : Char) : Bool :=
  char == ' ' || char == '\t'

/-- One of the five characters that end a line. -/
def isBreak (char : Char) : Bool :=
  char == '\r' || char == '\n' || char.toNat == 0x85 || char.toNat == 0x2028 || char.toNat == 0x2029

/-- A letter or digit of ASCII, a hyphen or an underscore. -/
def isWordChar (char : Char) : Bool :=
  char.isAlphanum || char == '-' || char == '_'

/-- The rest of a text, with its place in the text. All counts are of characters
and start from zero. -/
structure Cursor where
  rest : List Char
  index : Nat
  line : Nat
  column : Nat

namespace Cursor

/-- The start of a text. -/
def start (chars : List Char) : Cursor := ⟨chars, 0, 0, 0⟩

/-- The character at a distance ahead. -/
def ahead (cursor : Cursor) (distance : Nat) : Option Char :=
  cursor.rest[distance]?

/-- A given character stands at a distance ahead. -/
def sees (cursor : Cursor) (char : Char) (distance : Nat) : Bool :=
  cursor.ahead distance == some char

/-- A gap, a line break or the end of the text is at a distance ahead. -/
def endsWord (cursor : Cursor) (distance : Nat) : Bool :=
  match cursor.ahead distance with
  | some char => isGap char || isBreak char
  | none => true

/-- A line break is at a distance ahead. -/
def atBreak (cursor : Cursor) (distance : Nat) : Bool :=
  (cursor.ahead distance).any isBreak

/-- A gap is next. -/
def atGap (cursor : Cursor) : Bool :=
  (cursor.ahead 0).any isGap

/-- A line break or the end of the text is next. -/
def atLineEnd (cursor : Cursor) : Bool :=
  (cursor.ahead 0).all isBreak

/-- Move over one character of the line. -/
def advance (cursor : Cursor) : Cursor :=
  ⟨cursor.rest.tail, cursor.index + 1, cursor.line, cursor.column + 1⟩

/-- Move over characters of the line. -/
def advanceBy (cursor : Cursor) (count : Nat) : Cursor :=
  ⟨cursor.rest.drop count, cursor.index + count, cursor.line, cursor.column + count⟩

/-- Move over a line break, with the characters that it stands for: a line feed,
except for the two separators of Unicode, which stand for themselves. At any other
place nothing happens. -/
def takeBreak (cursor : Cursor) : List Char × Cursor :=
  match cursor.rest with
  | '\r' :: '\n' :: rest => (['\n'], ⟨rest, cursor.index + 2, cursor.line + 1, 0⟩)
  | char :: rest =>
    if char.toNat == 0x2028 || char.toNat == 0x2029 then
      ([char], ⟨rest, cursor.index + 1, cursor.line + 1, 0⟩)
    else if isBreak char then (['\n'], ⟨rest, cursor.index + 1, cursor.line + 1, 0⟩)
    else ([], cursor)
  | [] => ([], cursor)

/-- Move over a line break. -/
def skipBreak (cursor : Cursor) : Cursor :=
  cursor.takeBreak.2

/-- Move over the characters of the line that have a property. -/
def takeWhile (cursor : Cursor) (property : Char → Bool) : List Char × Cursor :=
  let taken := cursor.rest.takeWhile property
  (taken, cursor.advanceBy taken.length)

/-- Move over spaces and tabs. -/
def skipGaps (cursor : Cursor) : Cursor :=
  (cursor.takeWhile isGap).2

/-- Move over a comment, if one starts here. -/
def skipComment (cursor : Cursor) : Cursor :=
  if cursor.sees '#' 0 then (cursor.takeWhile fun char => !isBreak char).2 else cursor

/-- The mark of a document, three hyphens or three points, stands alone at the start
of the line. -/
def atDocumentMark (cursor : Cursor) (char : Char) : Bool :=
  cursor.column == 0 && cursor.sees char 0 && cursor.sees char 1 && cursor.sees char 2 &&
    cursor.endsWord 3

/-- Move over the rest of a line that may hold nothing but a comment, and over its
break. -/
def finishLine? (cursor : Cursor) : Option Cursor :=
  let cursor := cursor.skipGaps.skipComment
  if cursor.atLineEnd then some cursor.skipBreak else none

end Cursor

end StructuralDiff.Yaml
