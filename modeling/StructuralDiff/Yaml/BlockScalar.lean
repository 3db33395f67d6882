import StructuralDiff.Yaml.Cursor

/-!
# Block scalars

Scalars that take the indented lines below their mark as they are, or folded. The
mark may say how deep the lines are indented and what happens to the breaks at the
end.
-/

namespace StructuralDiff.Yaml.BlockScalar

/-- What happens to the line breaks at the end of a block. -/
inductive Chomping where
  /-- All are dropped. -/
  | strip
  /-- The first is kept. -/
  | clip
  /-- All are kept. -/
  | keep
deriving DecidableEq

/-- The chomping mark that is next, if there is one. -/
def chomping? (cursor : Cursor) : Option Chomping :=
  match cursor.ahead 0 with
  | some '+' => some .keep
  | some '-' => some .strip
  | _ => none

/-- The indentation digit that is next, if there is one. -/
def increment? (cursor : Cursor) : Option Nat :=
  match cursor.ahead 0 with
  | some char => if char.isDigit then some (char.toNat - '0'.toNat) else none
  | none => none

/-- The chomping and the indentation that follow the mark of a block, in either
order. An indentation of zero is refused. -/
def header? (cursor : Cursor) : Option (Chomping × Option Nat × Cursor) :=
  match chomping? cursor with
  | some chomping =>
    let cursor := cursor.advance
    match increment? cursor with
    | some 0 => none
    | some increment => some (chomping, some increment, cursor.advance)
    | none => some (chomping, none, cursor)
  | none =>
    match increment? cursor with
    | some 0 => none
    | some increment =>
      let cursor := cursor.advance
      match chomping? cursor with
      | some chomping => some (chomping, some increment, cursor.advance)
      | none => some (.clip, some increment, cursor)
    | none => some (.clip, none, cursor)

/-- The empty lines from here on: what their breaks stand for, the widest run of
spaces before content or a break, and where they end. With a known indentation no
more spaces than that are taken; a tab in the indentation is refused. -/
def emptyLines? (indent : Option Nat) : Nat → Nat → Cursor → Option (List Char × Nat × Cursor)
  | 0, _, _ => none
  | fuel + 1, widest, cursor =>
    let spaces := cursor.rest.takeWhile (· == ' ')
    let taken := match indent with
      | some column => min spaces.length (column - cursor.column)
      | none => spaces.length
    let cursor := cursor.advanceBy taken
    let widest := max widest cursor.column
    if indent.all (cursor.column < ·) && cursor.sees '\t' 0 then none
    else if cursor.atBreak 0 then
      let (line, cursor) := cursor.takeBreak
      (emptyLines? indent fuel widest cursor).map fun (lines, widest, cursor) =>
        (line ++ lines, widest, cursor)
    else some ([], widest, cursor)

/-- What stands between two lines of content: the break of the first and the empty
lines after it. In a folded block, a single break between two lines that do not
start with a gap becomes a space, or nothing before empty lines. -/
def between (literal gapBefore gapAfter : Bool) (lineBreak emptyLines : List Char) : List Char :=
  if !literal && lineBreak == ['\n'] && !gapBefore && !gapAfter then
    if emptyLines.isEmpty then [' '] else emptyLines
  else lineBreak ++ emptyLines

/-- The lines of content from here on, after a break and empty lines; with the last
break and the empty lines after it. -/
def lines? (literal : Bool) (indent : Nat) : Nat → Bool → List Char → List Char → Cursor →
    Option (List Char × List Char × List Char × Cursor)
  | 0, _, _, _, _ => none
  | fuel + 1, gapBefore, lineBreak, empties, cursor =>
    if cursor.column == indent && !cursor.rest.isEmpty then do
      let gap := cursor.atGap
      let before := between literal gapBefore gap lineBreak empties
      let (content, cursor) := cursor.takeWhile fun char => !isBreak char
      let (lineBreak, cursor) := cursor.takeBreak
      let (empties, _, cursor) ← emptyLines? (some indent) (cursor.rest.length + 1) 0 cursor
      let (chars, rest) ← lines? literal indent fuel gap lineBreak empties cursor
      return (before ++ content ++ chars, rest)
    else some ([], lineBreak, empties, cursor)

/-- A block scalar, from its mark on, inside a block that is indented to a column;
outside every block that column is minus one. -/
def read? (literal : Bool) (parent : Int) (cursor : Cursor) : Option (String × Cursor) := do
  let (chomping, increment, cursor) ← header? cursor.advance
  let cursor ← cursor.finishLine?
  let given := increment.map fun increment => (max parent 0).toNat + increment
  let (empties, widest, cursor) ← emptyLines? given (cursor.rest.length + 1) 0 cursor
  let indent := given.getD (max widest (max (parent + 1) 1).toNat)
  let (content, lineBreak, empties, cursor) ←
    lines? literal indent (cursor.rest.length + 1) false [] empties cursor
  let ending := match chomping with
    | .strip => []
    | .clip => lineBreak
    | .keep => lineBreak ++ empties
  return (String.ofList (content ++ ending), cursor)

end StructuralDiff.Yaml.BlockScalar
