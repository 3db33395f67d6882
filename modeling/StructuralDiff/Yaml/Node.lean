import StructuralDiff.Yaml.Token

/-!
# Nodes of a YAML document

The tree that the tokens of a document stand for. Aliases are still there: a node
names the anchor it stands for.
-/

namespace StructuralDiff.Yaml

/-- What may be said about a node before it: the anchor by which aliases name it, and
its tag. -/
structure Properties (α : Type) where
  anchor : Option α
  tag : Option String

/-- A node, with anchors of some type. -/
inductive Node (α : Type) where
  | alias (anchor : α)
  | scalar (properties : Properties α) (plain : Bool) (content : String)
  | sequence (properties : Properties α) (items : List (Node α))
  | mapping (properties : Properties α) (entries : List (Node α × Node α))

namespace Node

/-- A node that is left out. -/
def absent : Node String :=
  .scalar ⟨none, none⟩ true ""

/-- The handles of tags that are known without a directive. -/
def knownHandles : List (String × String) :=
  [("!", "!"), ("!!", "tag:yaml.org,2002:")]

/-- A whole tag from its handle and its rest. -/
def wholeTag? (handles : List (String × String)) (handle suffix : String) : Option String :=
  if handle.isEmpty then some suffix
  else (handles.find? fun entry => entry.1 == handle).map fun entry => entry.2 ++ suffix

/-- The properties before a node: an anchor and a tag, in either order. -/
def properties? (handles : List (String × String)) :
    List Token → Option (Properties String × List Token)
  | .anchor name :: .tag handle suffix :: rest =>
    (wholeTag? handles handle suffix).map fun tag => (⟨some name, some tag⟩, rest)
  | .tag handle suffix :: .anchor name :: rest =>
    (wholeTag? handles handle suffix).map fun tag => (⟨some name, some tag⟩, rest)
  | .anchor name :: rest => some (⟨some name, none⟩, rest)
  | .tag handle suffix :: rest =>
    (wholeTag? handles handle suffix).map fun tag => (⟨none, some tag⟩, rest)
  | tokens => some (⟨none, none⟩, tokens)

/-- The bare tag `!` says nothing about a scalar. -/
def Properties.ofScalar (properties : Properties String) : Properties String :=
  if properties.tag == some "!" then { properties with tag := none } else properties

/-- What is left out next in a block: the item or the value before one of these
tokens. -/
def endsBlockItem : Token → Bool
  | .blockEntry | .blockEnd => true
  | _ => false

/-- The key or the value that is left out before one of these tokens. -/
def endsBlockPart : Token → Bool
  | .key | .value | .blockEnd => true
  | _ => false

mutual

/-- The node at the start of the tokens. Blocks are read only where they may stand; a
sequence that is the value of a key need not be indented. The first argument bounds
the steps. -/
def read? (handles : List (String × String)) (block unindented : Bool) :
    Nat → List Token → Option (Node String × List Token)
  | 0, _ => none
  | _ + 1, .alias name :: rest => some (.alias name, rest)
  | fuel + 1, tokens => do
    let (properties, rest) ← properties? handles tokens
    let stated := properties.anchor.isSome || properties.tag.isSome
    match rest with
    | .blockEntry :: _ =>
      if unindented then
        let (items, rest) ← unindentedItems? handles fuel rest
        return (.sequence properties items, rest)
      else if stated then return (.scalar properties true "", rest)
      else none
    | .scalar plain content :: rest =>
      return (.scalar (Properties.ofScalar properties) plain content, rest)
    | .flowSequenceStart :: rest =>
      let (items, rest) ← flowItems? handles true fuel rest
      return (.sequence properties items, rest)
    | .flowMappingStart :: rest =>
      let (entries, rest) ← flowEntries? handles true fuel rest
      return (.mapping properties entries, rest)
    | .blockSequenceStart :: inner =>
      if block then
        let (items, rest) ← blockItems? handles fuel inner
        return (.sequence properties items, rest)
      else if stated then return (.scalar properties true "", rest)
      else none
    | .blockMappingStart :: inner =>
      if block then
        let (entries, rest) ← blockEntries? handles fuel inner
        return (.mapping properties entries, rest)
      else if stated then return (.scalar properties true "", rest)
      else none
    | _ => if stated then return (.scalar properties true "", rest) else none

/-- The items of a block sequence, up to its end. -/
def blockItems? (handles : List (String × String)) :
    Nat → List Token → Option (List (Node String) × List Token)
  | fuel + 1, .blockEntry :: rest => do
    let (item, rest) ←
      if rest.head?.any endsBlockItem then some (absent, rest)
      else read? handles true false fuel rest
    let (items, rest) ← blockItems? handles fuel rest
    return (item :: items, rest)
  | _, .blockEnd :: rest => some ([], rest)
  | _, _ => none

/-- The items of a sequence that is not indented, up to the first token that is no
item's. -/
def unindentedItems? (handles : List (String × String)) :
    Nat → List Token → Option (List (Node String) × List Token)
  | fuel + 1, .blockEntry :: rest => do
    let (item, rest) ←
      if rest.head?.any (fun token => endsBlockItem token || endsBlockPart token) then
        some (absent, rest)
      else read? handles true false fuel rest
    let (items, rest) ← unindentedItems? handles fuel rest
    return (item :: items, rest)
  | _, rest => some ([], rest)

/-- The entries of a block mapping, up to its end. -/
def blockEntries? (handles : List (String × String)) :
    Nat → List Token → Option (List (Node String × Node String) × List Token)
  | fuel + 1, .key :: rest => do
    let (key, rest) ←
      if rest.head?.any endsBlockPart then some (absent, rest)
      else read? handles true true fuel rest
    let (value, rest) ← match rest with
      | .value :: rest =>
        if rest.head?.any endsBlockPart then some (absent, rest)
        else read? handles true true fuel rest
      | rest => some (absent, rest)
    let (entries, rest) ← blockEntries? handles fuel rest
    return ((key, value) :: entries, rest)
  | _, .blockEnd :: rest => some ([], rest)
  | _, _ => none

/-- The items of a sequence in brackets, up to its end. An item may be a single entry
of a mapping. -/
def flowItems? (handles : List (String × String)) (first : Bool) :
    Nat → List Token → Option (List (Node String) × List Token)
  | 0, _ => none
  | _ + 1, .flowSequenceEnd :: rest => some ([], rest)
  | fuel + 1, tokens => do
    let tokens ← match first, tokens with
      | true, tokens => some tokens
      | false, .flowEntry :: rest => some rest
      | false, _ => none
    match tokens with
    | .flowSequenceEnd :: rest => return ([], rest)
    | .key :: rest =>
      let (key, rest) ← match rest with
        | .value :: rest | .flowEntry :: rest | .flowSequenceEnd :: rest => some (absent, rest)
        | rest => read? handles false false fuel rest
      let (value, rest) ← match rest with
        | .value :: rest =>
          match rest with
          | .flowEntry :: _ | .flowSequenceEnd :: _ => some (absent, rest)
          | rest => read? handles false false fuel rest
        | rest => some (absent, rest)
      let (items, rest) ← flowItems? handles false fuel rest
      return (.mapping ⟨none, none⟩ [(key, value)] :: items, rest)
    | tokens =>
      let (item, rest) ← read? handles false false fuel tokens
      let (items, rest) ← flowItems? handles false fuel rest
      return (item :: items, rest)

/-- The entries of a mapping in braces, up to its end. An entry may be a key alone. -/
def flowEntries? (handles : List (String × String)) (first : Bool) :
    Nat → List Token → Option (List (Node String × Node String) × List Token)
  | 0, _ => none
  | _ + 1, .flowMappingEnd :: rest => some ([], rest)
  | fuel + 1, tokens => do
    let tokens ← match first, tokens with
      | true, tokens => some tokens
      | false, .flowEntry :: rest => some rest
      | false, _ => none
    match tokens with
    | .flowMappingEnd :: rest => return ([], rest)
    | .key :: rest =>
      let (key, rest) ← match rest with
        | .value :: _ | .flowEntry :: _ | .flowMappingEnd :: _ => some (absent, rest)
        | rest => read? handles false false fuel rest
      let (value, rest) ← match rest with
        | .value :: rest =>
          match rest with
          | .flowEntry :: _ | .flowMappingEnd :: _ => some (absent, rest)
          | rest => read? handles false false fuel rest
        | rest => some (absent, rest)
      let (entries, rest) ← flowEntries? handles false fuel rest
      return ((key, value) :: entries, rest)
    | tokens =>
      let (key, rest) ← read? handles false false fuel tokens
      let (entries, rest) ← flowEntries? handles false fuel rest
      return ((key, absent) :: entries, rest)

end

/-- The directives before a document: whether a version was given, and the handles
that were. A version or a handle may be given only once. -/
def directives? (version : Bool) (handles : List (String × String)) :
    List Token → Option (List (String × String) × List Token)
  | .directive (.version major minor) :: rest =>
    if version || major != 1 || (minor != 1 && minor != 2) then none
    else directives? true handles rest
  | .directive (.tag handle lead) :: rest =>
    if handles.any fun entry => entry.1 == handle then none
    else directives? version (handles ++ [(handle, lead)]) rest
  | tokens => some (handles, tokens)

/-- The tokens after the marks that end a document. -/
def afterDocumentEnds : List Token → List Token
  | .documentEnd :: rest => afterDocumentEnds rest
  | tokens => tokens

/-- The root of the only document; nothing at all is a document too. A document that
starts with directives needs its mark, and no second document may follow. -/
def ofTokens? (tokens : List Token) : Option (Option (Node String)) := do
  let fuel := 2 * tokens.length + 4
  match tokens with
  | [.streamEnd] => return none
  | .directive _ :: _ | .documentStart :: _ =>
    let (handles, rest) ← directives? false [] tokens
    match rest with
    | .documentStart :: rest =>
      let (root, rest) ← match rest with
        | .directive _ :: _ | .documentStart :: _ | .documentEnd :: _ | .streamEnd :: _ =>
          some (absent, rest)
        | rest => read? (handles ++ knownHandles) true false fuel rest
      match afterDocumentEnds rest with
      | [.streamEnd] => return some root
      | _ => none
    | _ => none
  | tokens =>
    let (root, rest) ← read? knownHandles true false fuel tokens
    match afterDocumentEnds rest with
    | [.streamEnd] => return some root
    | _ => none

end Node

end StructuralDiff.Yaml
