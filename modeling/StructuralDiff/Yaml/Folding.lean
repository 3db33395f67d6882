import StructuralDiff.Yaml.Cursor

/-!
# Folding of lines

What stands between two words of a scalar that spans lines: the spaces as they are
when there is no line break, a single space for one break, and one break less than
there are for several.
-/

namespace StructuralDiff.Yaml

/-- What was read between two words. -/
structure Separation where
  /-- There was a line break. -/
  broken : Bool
  /-- The spaces and tabs, while there is no break. -/
  spaces : List Char
  /-- What the first break stands for. -/
  first : List Char
  /-- What the further breaks stand for. -/
  further : List Char

namespace Separation

/-- Nothing between words. -/
def none : Separation := ⟨false, [], [], []⟩

/-- A line break that joins the words on its two sides. -/
def joined : Separation := ⟨true, [], [], []⟩

/-- The text that a separation stands for. -/
def text (separation : Separation) : List Char :=
  if separation.broken then
    if separation.first == ['\n'] then
      if separation.further.isEmpty then [' '] else separation.further
    else separation.first ++ separation.further
  else separation.spaces

/-- Read on over gaps and breaks. At the start of a line, a tab before a given column
is refused. The first argument bounds the steps. -/
def read? (tabsFrom : Int) : Nat → Separation → Cursor → Option (Separation × Cursor)
  | 0, _, _ => Option.none
  | fuel + 1, separation, cursor =>
    match cursor.rest with
    | [] => some (separation, cursor)
    | char :: _ =>
      if isGap char then
        if separation.broken then
          if char == '\t' && (cursor.column : Int) < tabsFrom then Option.none
          else read? tabsFrom fuel separation cursor.advance
        else
          read? tabsFrom fuel { separation with spaces := separation.spaces ++ [char] } cursor.advance
      else if isBreak char then
        let (line, cursor) := cursor.takeBreak
        if separation.broken then
          read? tabsFrom fuel { separation with further := separation.further ++ line } cursor
        else read? tabsFrom fuel ⟨true, [], line, []⟩ cursor
      else some (separation, cursor)

end Separation

end StructuralDiff.Yaml
