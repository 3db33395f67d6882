import StructuralDiff.Yaml.QuotedScalar

/-!
# Anchors, tags and directives

The parts of a YAML text that say something about a value or a document without
being one: the name of an anchor, the tag of a value, and the two directives.
-/

namespace StructuralDiff.Yaml.Property

/-- The name of an anchor or alias, from its mark on. -/
def anchor? (cursor : Cursor) : Option (String × Cursor) :=
  let (name, cursor) := cursor.advance.takeWhile isWordChar
  let ended := cursor.endsWord 0 ||
    (cursor.ahead 0).any fun char => "?:,]\x7d%@`".toList.contains char
  if name.isEmpty || !ended then none else some (String.ofList name, cursor)

/-- A character that may stand in a tag. Brackets and commas may do so only where
nothing else can be meant. -/
def isTagChar (verbatim : Bool) (char : Char) : Bool :=
  isWordChar char || ";/?:@&=+$.%!~*'()".toList.contains char ||
    (verbatim && ",[]".toList.contains char)

/-- The byte of an escape, a percent sign and two hexadecimal digits. -/
def escapedByte? : List Char → Option (UInt8 × List Char)
  | '%' :: upper :: lower :: rest => do
    return (UInt8.ofNat (← Text.number? 16 [upper, lower]), rest)
  | _ => none

/-- How many bytes encode the character that starts with a byte. -/
def encodedLength? (byte : UInt8) : Option Nat :=
  if byte < 0x80 then some 1
  else if byte &&& 0xE0 == 0xC0 then some 2
  else if byte &&& 0xF0 == 0xE0 then some 3
  else if byte &&& 0xF8 == 0xF0 then some 4
  else none

/-- The bytes of so many escapes. -/
def escapedBytes? : Nat → List Char → Option (List UInt8 × List Char)
  | 0, chars => some ([], chars)
  | count + 1, chars => do
    let (byte, chars) ← escapedByte? chars
    let (bytes, chars) ← escapedBytes? count chars
    return (byte :: bytes, chars)

/-- A character that is written as the escapes of its bytes. -/
def escapedChar? (chars : List Char) : Option (List Char × List Char) := do
  let (first, _) ← escapedByte? chars
  let length ← encodedLength? first
  let (bytes, rest) ← escapedBytes? length chars
  let text ← String.fromUTF8? ⟨bytes.toArray⟩
  return (text.toList, rest)

/-- The characters of a tag with its escapes resolved. -/
def unescaped? : Nat → List Char → Option (List Char)
  | 0, _ => none
  | _ + 1, [] => some []
  | fuel + 1, char :: chars =>
    if char == '%' then do
      let (text, rest) ← escapedChar? (char :: chars)
      return text ++ (← unescaped? fuel rest)
    else (unescaped? fuel chars).map (char :: ·)

/-- The characters of a tag from here on. -/
def tagChars? (verbatim : Bool) (cursor : Cursor) : Option (List Char × Cursor) := do
  let (taken, cursor) := cursor.takeWhile (isTagChar verbatim)
  return (← unescaped? (taken.length + 1) taken, cursor)

/-- The handle of a tag: an exclamation mark, a word, and maybe a second mark. -/
def handle? (cursor : Cursor) : Option (List Char × Cursor) :=
  if cursor.sees '!' 0 then
    let (word, cursor) := cursor.advance.takeWhile isWordChar
    if cursor.sees '!' 0 then some ('!' :: word ++ ['!'], cursor.advance)
    else some ('!' :: word, cursor)
  else none

/-- A tag: its handle, which is empty when the rest is the whole tag, and the rest. -/
def tag? (inFlow : Bool) (cursor : Cursor) : Option (String × String × Cursor) := do
  let (handle, suffix, cursor) ←
    if cursor.sees '<' 1 then do
      let (suffix, cursor) ← tagChars? true (cursor.advanceBy 2)
      if suffix.isEmpty || !cursor.sees '>' 0 then none
      some ([], suffix, cursor.advance)
    else do
      let (handle, cursor) ← handle? cursor
      let (suffix, cursor) ← tagChars? false cursor
      if 2 ≤ handle.length && handle.getLast? == some '!' then
        if suffix.isEmpty then none else some (handle, suffix, cursor)
      else
        let suffix := handle.tail ++ suffix
        if suffix.isEmpty then some ([], ['!'], cursor) else some (['!'], suffix, cursor)
  if cursor.endsWord 0 || (inFlow && cursor.sees ',' 0) then
    some (String.ofList handle, String.ofList suffix, cursor)
  else none

/-- A line that says something about the document after it. -/
inductive Directive where
  | version (major minor : Nat)
  /-- What a handle stands for in tags. -/
  | tag (handle lead : String)

/-- A number of at most nine digits. -/
def versionNumber? (cursor : Cursor) : Option (Nat × Cursor) :=
  let (digits, cursor) := cursor.takeWhile Char.isDigit
  if digits.isEmpty || 9 < digits.length then none
  else some (Nat.ofDigitChars 10 digits 0, cursor)

/-- A directive, from its mark to the end of its line. -/
def directive? (cursor : Cursor) : Option (Directive × Cursor) := do
  let (name, cursor) := cursor.advance.takeWhile isWordChar
  if !cursor.endsWord 0 then none
  match String.ofList name with
  | "YAML" =>
    let (major, cursor) ← versionNumber? cursor.skipGaps
    if !cursor.sees '.' 0 then none
    let (minor, cursor) ← versionNumber? cursor.advance
    return (.version major minor, ← cursor.finishLine?)
  | "TAG" =>
    let (handle, cursor) ← handle? cursor.skipGaps
    if handle != ['!'] && handle.getLast? != some '!' then none
    if !cursor.atGap then none
    let (lead, cursor) ← tagChars? true cursor.skipGaps
    if lead.isEmpty || !cursor.endsWord 0 then none
    return (.tag (String.ofList handle) (String.ofList lead), ← cursor.finishLine?)
  | _ => none

end StructuralDiff.Yaml.Property
