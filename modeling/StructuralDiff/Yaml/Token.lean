import StructuralDiff.Yaml.BlockScalar
import StructuralDiff.Yaml.PlainScalar
import StructuralDiff.Yaml.Property

/-!
# Tokens of a YAML text

A YAML text as a list of tokens. Besides what is written, the tokens say where
blocks start and end, which the scanner reads off the indentation, and where the
keys of mappings start. A key shows only by the colon after it, so the place of a
possible key is remembered, and the token for it is put in when the colon comes.
-/

namespace StructuralDiff.Yaml

/-- A token of a YAML text. -/
inductive Token where
  | streamEnd
  | directive (content : Property.Directive)
  | documentStart
  | documentEnd
  | blockSequenceStart
  | blockMappingStart
  | blockEnd
  | flowSequenceStart
  | flowSequenceEnd
  | flowMappingStart
  | flowMappingEnd
  | blockEntry
  | flowEntry
  | key
  | value
  | alias (name : String)
  | anchor (name : String)
  | tag (handle suffix : String)
  | scalar (plain : Bool) (content : String)

/-- The place of something that may turn out to be the key of a mapping. -/
structure PossibleKey where
  /-- Nothing else may stand here. -/
  required : Bool
  /-- The number of tokens before it. -/
  position : Nat
  index : Nat
  line : Nat
  column : Nat

/-- A scanner in the middle of a text. -/
structure Scanner where
  cursor : Cursor
  tokens : Array Token
  /-- The column of the innermost block; minus one outside every block. -/
  indent : Int
  /-- The columns of the blocks around it. -/
  outer : List Int
  /-- Whether a key may start here. -/
  keyAllowed : Bool
  /-- The possible key inside the innermost brackets. -/
  possibleKey : Option PossibleKey
  /-- The possible keys inside the brackets around it, one for each pair. -/
  outerKeys : List (Option PossibleKey)

namespace Scanner

/-- The start of a text. -/
def start (chars : List Char) : Scanner where
  cursor := Cursor.start chars
  tokens := #[]
  indent := -1
  outer := []
  keyAllowed := true
  possibleKey := none
  outerKeys := []

/-- The scanner is inside brackets. -/
def inFlow (scanner : Scanner) : Bool :=
  !scanner.outerKeys.isEmpty

/-- Add a token. -/
def emit (scanner : Scanner) (token : Token) : Scanner :=
  { scanner with tokens := scanner.tokens.push token }

/-- Put a token before the one at a position. -/
def insert (scanner : Scanner) (position : Nat) (token : Token) : Scanner :=
  { scanner with tokens := scanner.tokens.insertIdxIfInBounds position token }

/-- A possible key is out of reach: on an earlier line, or more than 1024 characters
back. -/
def isStale (scanner : Scanner) (key : PossibleKey) : Bool :=
  key.line < scanner.cursor.line || key.index + 1024 < scanner.cursor.index

/-- Give up a possible key that is out of reach, unless it is required. -/
def refresh? (scanner : Scanner) : Option PossibleKey → Option (Option PossibleKey)
  | none => some none
  | some key =>
    if scanner.isStale key then (if key.required then none else some none) else some (some key)

/-- Give up the possible keys that are out of reach. -/
def dropStaleKeys? (scanner : Scanner) : Option Scanner := do
  let possibleKey ← scanner.refresh? scanner.possibleKey
  let outerKeys ← scanner.outerKeys.mapM scanner.refresh?
  return { scanner with possibleKey := possibleKey, outerKeys := outerKeys }

/-- Give up the possible key, unless it is required. -/
def forgetKey? (scanner : Scanner) : Option Scanner :=
  if scanner.possibleKey.any PossibleKey.required then none
  else some { scanner with possibleKey := none }

/-- Remember that a key may start here, if one may. -/
def noteKey? (scanner : Scanner) : Option Scanner :=
  if scanner.keyAllowed then do
    let scanner ← scanner.forgetKey?
    let cursor := scanner.cursor
    return { scanner with possibleKey := some {
      required := !scanner.inFlow && scanner.indent == cursor.column
      position := scanner.tokens.size
      index := cursor.index
      line := cursor.line
      column := cursor.column } }
  else some scanner

/-- Say whether a key may start next. -/
def allowKey (scanner : Scanner) (allowed : Bool) : Scanner :=
  { scanner with keyAllowed := allowed }

/-- Move to another place. -/
def moveTo (scanner : Scanner) (cursor : Cursor) : Scanner :=
  { scanner with cursor := cursor }

/-- Open a block at a column, unless the innermost one is at least as deep; its token
comes at a position. -/
def openBlock (scanner : Scanner) (column position : Nat) (token : Token) : Scanner :=
  if !scanner.inFlow && scanner.indent < column then
    { scanner.insert position token with
      indent := column
      outer := scanner.indent :: scanner.outer }
  else scanner

/-- Close blocks, innermost first, until the column is not less than theirs. -/
def closeBlocksTo (column : Int) : List Int → Scanner → Scanner
  | [], scanner => scanner
  | outer :: rest, scanner =>
    if column < scanner.indent then
      closeBlocksTo column rest { scanner.emit .blockEnd with indent := outer, outer := rest }
    else scanner

/-- Close the blocks that a column lies outside of. Brackets keep all blocks open. -/
def closeBlocks (scanner : Scanner) (column : Int) : Scanner :=
  if scanner.inFlow then scanner else closeBlocksTo column scanner.outer scanner

/-- Move to the next token, over spaces, comments and line breaks. Tabs are skipped
only where no key may start. Outside brackets, a new line allows a key. -/
def skipToToken : Nat → Scanner → Scanner
  | 0, scanner => scanner
  | fuel + 1, scanner =>
    let cursor := scanner.cursor
    let cursor := if cursor.column == 0 && cursor.sees '\ufeff' 0 then cursor.advance else cursor
    let tabs := scanner.inFlow || !scanner.keyAllowed
    let cursor := (cursor.takeWhile fun char => char == ' ' || (tabs && char == '\t')).2
    let cursor := cursor.skipComment
    if cursor.atBreak 0 then
      skipToToken fuel { scanner with
        cursor := cursor.skipBreak
        keyAllowed := scanner.keyAllowed || !scanner.inFlow }
    else scanner.moveTo cursor

/-- The end of the text closes all blocks. -/
def finish? (scanner : Scanner) : Option Scanner := do
  let scanner ← (scanner.closeBlocks (-1)).forgetKey?
  return (scanner.allowKey false).emit .streamEnd

/-- A directive. -/
def directive? (scanner : Scanner) : Option Scanner := do
  let scanner ← (scanner.closeBlocks (-1)).forgetKey?
  let (directive, cursor) ← Property.directive? scanner.cursor
  return ((scanner.allowKey false).moveTo cursor).emit (.directive directive)

/-- A mark between documents. -/
def documentMark? (scanner : Scanner) (token : Token) : Option Scanner := do
  let scanner ← (scanner.closeBlocks (-1)).forgetKey?
  return ((scanner.allowKey false).moveTo (scanner.cursor.advanceBy 3)).emit token

/-- An opening bracket. -/
def openFlow? (scanner : Scanner) (token : Token) : Option Scanner := do
  let scanner ← scanner.noteKey?
  let scanner := { scanner with
    outerKeys := scanner.possibleKey :: scanner.outerKeys
    possibleKey := none }
  return ((scanner.allowKey true).moveTo scanner.cursor.advance).emit token

/-- A closing bracket. -/
def closeFlow? (scanner : Scanner) (token : Token) : Option Scanner := do
  let scanner ← scanner.forgetKey?
  let scanner := match scanner.outerKeys with
    | [] => scanner
    | key :: keys => { scanner with possibleKey := key, outerKeys := keys }
  return ((scanner.allowKey false).moveTo scanner.cursor.advance).emit token

/-- A comma inside brackets. -/
def flowEntry? (scanner : Scanner) : Option Scanner := do
  let scanner ← scanner.forgetKey?
  return ((scanner.allowKey true).moveTo scanner.cursor.advance).emit .flowEntry

/-- Open a block here, where one may start: at the beginning of a line, or after a
mark of another block. -/
def openBlockHere? (scanner : Scanner) (token : Token) : Option Scanner :=
  if scanner.inFlow then some scanner
  else if scanner.keyAllowed then
    some (scanner.openBlock scanner.cursor.column scanner.tokens.size token)
  else none

/-- The mark of an item. -/
def blockEntry? (scanner : Scanner) : Option Scanner := do
  let scanner ← (← scanner.openBlockHere? .blockSequenceStart).forgetKey?
  return ((scanner.allowKey true).moveTo scanner.cursor.advance).emit .blockEntry

/-- The mark of a key. -/
def explicitKey? (scanner : Scanner) : Option Scanner := do
  let scanner ← (← scanner.openBlockHere? .blockMappingStart).forgetKey?
  return ((scanner.allowKey !scanner.inFlow).moveTo scanner.cursor.advance).emit .key

/-- The mark of a value. If what stood at the possible key was one, its token is put
in, and a block opens there if need be. -/
def value? (scanner : Scanner) : Option Scanner := do
  let scanner ← match scanner.possibleKey with
    | some key =>
      let scanner := scanner.insert key.position .key
      let scanner := scanner.openBlock key.column key.position .blockMappingStart
      pure { scanner with possibleKey := none, keyAllowed := false }
    | none => do
      let scanner ← scanner.openBlockHere? .blockMappingStart
      pure (scanner.allowKey !scanner.inFlow)
  return (scanner.moveTo scanner.cursor.advance).emit .value

/-- An anchor or an alias. -/
def anchor? (scanner : Scanner) (token : String → Token) : Option Scanner := do
  let scanner ← scanner.noteKey?
  let (name, cursor) ← Property.anchor? scanner.cursor
  return ((scanner.allowKey false).moveTo cursor).emit (token name)

/-- A tag. -/
def tag? (scanner : Scanner) : Option Scanner := do
  let scanner ← scanner.noteKey?
  let (handle, suffix, cursor) ← Property.tag? scanner.inFlow scanner.cursor
  return ((scanner.allowKey false).moveTo cursor).emit (.tag handle suffix)

/-- A block scalar. -/
def blockScalar? (scanner : Scanner) (literal : Bool) : Option Scanner := do
  let scanner ← scanner.forgetKey?
  let (content, cursor) ← BlockScalar.read? literal scanner.indent scanner.cursor
  return ((scanner.allowKey true).moveTo cursor).emit (.scalar false content)

/-- A quoted scalar. -/
def quotedScalar? (scanner : Scanner) (single : Bool) : Option Scanner := do
  let scanner ← scanner.noteKey?
  let (content, cursor) ← QuotedScalar.read? single scanner.cursor
  return ((scanner.allowKey false).moveTo cursor).emit (.scalar false content)

/-- A plain scalar. A line break at its end allows a key after it. -/
def plainScalar? (scanner : Scanner) : Option Scanner := do
  let scanner ← scanner.noteKey?
  let (content, broken, cursor) ←
    PlainScalar.read? scanner.inFlow (scanner.indent + 1) scanner.cursor
  return ((scanner.allowKey broken).moveTo cursor).emit (.scalar true content)

/-- A plain scalar may start with a character: with most that mean nothing else, and
with some marks when no gap follows. -/
def startsPlain (scanner : Scanner) (char : Char) : Bool :=
  let cursor := scanner.cursor
  !"-?:,[]\x7b\x7d#&*!|>'\"%@`".toList.contains char ||
    (char == '-' && !(cursor.ahead 1).any isGap) ||
    (!scanner.inFlow && (char == '?' || char == ':') && !cursor.endsWord 1)

/-- Take the token that starts here; the flag says whether the text goes on. -/
def takeToken? (scanner : Scanner) : Option (Scanner × Bool) :=
  let cursor := scanner.cursor
  match cursor.rest with
  | [] => scanner.finish?.map (·, false)
  | char :: _ =>
    let next : Option Scanner :=
      if cursor.column == 0 && char == '%' then scanner.directive?
      else if cursor.atDocumentMark '-' then scanner.documentMark? .documentStart
      else if cursor.atDocumentMark '.' then scanner.documentMark? .documentEnd
      else if char == '[' then scanner.openFlow? .flowSequenceStart
      else if char == '\x7b' then scanner.openFlow? .flowMappingStart
      else if char == ']' then scanner.closeFlow? .flowSequenceEnd
      else if char == '\x7d' then scanner.closeFlow? .flowMappingEnd
      else if char == ',' then scanner.flowEntry?
      else if char == '-' && cursor.endsWord 1 then scanner.blockEntry?
      else if char == '?' && (scanner.inFlow || cursor.endsWord 1) then scanner.explicitKey?
      else if char == ':' && (scanner.inFlow || cursor.endsWord 1) then scanner.value?
      else if char == '*' then scanner.anchor? .alias
      else if char == '&' then scanner.anchor? .anchor
      else if char == '!' then scanner.tag?
      else if char == '|' && !scanner.inFlow then scanner.blockScalar? true
      else if char == '>' && !scanner.inFlow then scanner.blockScalar? false
      else if char == '\'' then scanner.quotedScalar? true
      else if char == '"' then scanner.quotedScalar? false
      else if !cursor.endsWord 0 && scanner.startsPlain char then scanner.plainScalar?
      else none
    next.map (·, true)

/-- Scan on to the end of the text. -/
def run? : Nat → Scanner → Option (Array Token)
  | 0, _ => none
  | fuel + 1, scanner => do
    let scanner ← (scanner.skipToToken (fuel + 1)).dropStaleKeys?
    let (scanner, more) ← (scanner.closeBlocks scanner.cursor.column).takeToken?
    if more then run? fuel scanner else return scanner.tokens

end Scanner

/-- The tokens of a text, if it has no character that YAML forbids. -/
def Token.scan? (chars : List Char) : Option (List Token) :=
  if chars.all isAllowed then
    (Scanner.run? (chars.length + 2) (Scanner.start chars)).map Array.toList
  else none

end StructuralDiff.Yaml
