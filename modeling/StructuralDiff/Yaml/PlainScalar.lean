import StructuralDiff.Yaml.Folding

/-!
# Plain scalars

A scalar without quotes. It ends before a comment, before a colon that stands at
the end of a word, at the mark of a document, where the indentation falls back, and
inside brackets also before a comma or a bracket.
-/

namespace StructuralDiff.Yaml.PlainScalar

/-- A bracket or comma, which ends a plain scalar inside brackets. -/
def isFlowMark (char : Char) : Bool :=
  char == ',' || char == '[' || char == ']' || char == '\x7b' || char == '\x7d'

/-- The scalar ends before the next character. -/
def endsHere (inFlow : Bool) (cursor : Cursor) : Bool :=
  (cursor.sees ':' 0 && cursor.endsWord 1) || (inFlow && (cursor.ahead 0).any isFlowMark)

/-- Inside brackets, a colon may not stand right before a bracket, a comma or a
question mark. -/
def misplacedColon (inFlow : Bool) (cursor : Cursor) : Bool :=
  inFlow && cursor.sees ':' 0 &&
    (cursor.ahead 1).any fun char => isFlowMark char || char == '?'

/-- One word of the scalar, and where it ends. -/
def word? (inFlow : Bool) : Nat → Cursor → Option (List Char × Cursor)
  | 0, _ => none
  | fuel + 1, cursor =>
    if cursor.endsWord 0 then some ([], cursor)
    else if misplacedColon inFlow cursor then none
    else if endsHere inFlow cursor then some ([], cursor)
    else
      match cursor.rest with
      | [] => some ([], cursor)
      | char :: _ => (word? inFlow fuel cursor.advance).map fun (chars, cursor) => (char :: chars, cursor)

/-- The words from here on with what separates them, whether a line break came after
the last of them, and where the scalar ends. The steps allowed for the words are enough
for each of them too. -/
def words? (inFlow : Bool) (indent : Int) : Nat → Separation → Cursor →
    Option (List Char × Bool × Cursor)
  | 0, _, _ => none
  | fuel + 1, before, cursor =>
    if cursor.atDocumentMark '-' || cursor.atDocumentMark '.' || cursor.sees '#' 0 then
      some ([], before.broken, cursor)
    else do
      let (chars, cursor) ← word? inFlow (fuel + 1) cursor
      if chars.isEmpty then return ([], before.broken, cursor)
      let chars := before.text ++ chars
      if !(cursor.atGap || cursor.atBreak 0) then return (chars, false, cursor)
      let (between, cursor) ← Separation.read? indent (fuel + 1) .none cursor
      if !inFlow && (cursor.column : Int) < indent then return (chars, between.broken, cursor)
      let (others, broken, cursor) ← words? inFlow indent fuel between cursor
      return (chars ++ others, broken, cursor)

/-- A plain scalar whose lines are indented at least to a column: its text, whether
it was followed by a line break, and where it ends. -/
def read? (inFlow : Bool) (indent : Int) (cursor : Cursor) : Option (String × Bool × Cursor) :=
  (words? inFlow indent (cursor.rest.length + 1) .none cursor).map fun (chars, broken, cursor) =>
    (String.ofList chars, broken, cursor)

end StructuralDiff.Yaml.PlainScalar
