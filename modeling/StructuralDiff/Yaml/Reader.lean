import StructuralDiff.Yaml.Node
import StructuralDiff.Yaml.Scalar

/-!
# Reading YAML

A document is its root node with every alias replaced by the node of its anchor.
An alias must come after its anchor; it may stand inside that very node, in which
case the document is without end and is refused, as is one whose sequences and
mappings are nested more than 128 deep or that repeats its nodes too often.
-/

namespace StructuralDiff.Yaml

/-- How deep sequences and mappings may be nested. -/
def depthLimit : Nat := 128

namespace Node

/-- Anchor names with the number that each stands for at the moment. -/
abbrev Names := Entries String Nat

/-- Give an anchor its number: as many as there are names before it. -/
def number (names : Names) : Option String → Option Nat × Names
  | none => (none, names)
  | some name => (some names.length, names.set name names.length)

mutual

/-- Replace anchor names by numbers, in the order of the document. An alias takes the
number that its name has at its place; a name without one is refused. -/
def link? (names : Names) : Node String → Option (Node Nat × Names)
  | .alias name => (names.find? name).map fun anchor => (.alias anchor, names)
  | .scalar properties plain content =>
    let (anchor, names) := number names properties.anchor
    some (.scalar ⟨anchor, properties.tag⟩ plain content, names)
  | .sequence properties items => do
    let (anchor, names) := number names properties.anchor
    let (items, names) ← linkItems? names items
    return (.sequence ⟨anchor, properties.tag⟩ items, names)
  | .mapping properties entries => do
    let (anchor, names) := number names properties.anchor
    let (entries, names) ← linkEntries? names entries
    return (.mapping ⟨anchor, properties.tag⟩ entries, names)

/-- Replace anchor names in items. -/
def linkItems? (names : Names) : List (Node String) → Option (List (Node Nat) × Names)
  | [] => some ([], names)
  | item :: items => do
    let (item, names) ← link? names item
    let (items, names) ← linkItems? names items
    return (item :: items, names)

/-- Replace anchor names in entries, keys before values. -/
def linkEntries? (names : Names) :
    List (Node String × Node String) → Option (List (Node Nat × Node Nat) × Names)
  | [] => some ([], names)
  | (key, value) :: entries => do
    let (key, names) ← link? names key
    let (value, names) ← link? names value
    let (entries, names) ← linkEntries? names entries
    return ((key, value) :: entries, names)

end

/-- The anchor of a node with the node itself, if it has one. -/
def anchored (properties : Properties Nat) (node : Node Nat) : List (Nat × Node Nat) :=
  match properties.anchor with
  | some anchor => [(anchor, node)]
  | none => []

mutual

/-- The nodes with anchors, in the order of the document. -/
def targets : Node Nat → List (Nat × Node Nat)
  | .alias _ => []
  | .scalar properties plain content => anchored properties (.scalar properties plain content)
  | .sequence properties items => anchored properties (.sequence properties items) ++ itemTargets items
  | .mapping properties entries =>
    anchored properties (.mapping properties entries) ++ entryTargets entries

/-- The nodes with anchors among items and inside them. -/
def itemTargets : List (Node Nat) → List (Nat × Node Nat)
  | [] => []
  | item :: items => targets item ++ itemTargets items

/-- The nodes with anchors among entries and inside them. -/
def entryTargets : List (Node Nat × Node Nat) → List (Nat × Node Nat)
  | [] => []
  | (key, value) :: entries => targets key ++ (targets value ++ entryTargets entries)

end

mutual

/-- The number of events that a node consists of: one for what has no parts, and
otherwise its start, its end and those of its parts. -/
def events : Node Nat → Nat
  | .alias _ => 1
  | .scalar _ _ _ => 1
  | .sequence _ items => 2 + itemEvents items
  | .mapping _ entries => 2 + entryEvents entries

/-- The number of events of items. -/
def itemEvents : List (Node Nat) → Nat
  | [] => 0
  | item :: items => events item + itemEvents items

/-- The number of events of entries. -/
def entryEvents : List (Node Nat × Node Nat) → Nat
  | [] => 0
  | (key, value) :: entries => events key + (events value + entryEvents entries)

end

/-- What a scalar node stands for. -/
def scalarValue? (tag : Option String) (plain : Bool) (content : String) : Option Yaml :=
  match tag with
  | some tag => Scalar.tagged? tag content plain
  | none => if plain then Scalar.plain? content else some (.text content)

/-- A value under its tag. Of the tags of sequences and mappings, only those of the
document's own are kept. -/
def withTag (tag : Option String) (value : Yaml) : Yaml :=
  match tag with
  | some tag => if tag.toList.head? == some '!' then .tagged (bareTag tag) value else value
  | none => value

/-- The nodes of the anchors, and how many aliases may be followed in all. -/
structure Context where
  anchors : List (Nat × Node Nat)
  aliasLimit : Nat

/-- The node of an anchor: the last one with its number. -/
def Context.target? (context : Context) (anchor : Nat) : Option (Node Nat) :=
  (context.anchors.reverse.find? fun entry => entry.1 == anchor).map Prod.snd

mutual

/-- The value of a node, so many levels above the depth limit, when some aliases have
been followed already; with it the number of aliases followed then. -/
def value? (context : Context) (depth : Nat) (node : Node Nat) (followed : Nat) :
    Option (Yaml × Nat) :=
  match node with
  | .scalar properties plain content =>
    (scalarValue? properties.tag plain content).map (·, followed)
  | .sequence properties items =>
    match depth with
    | 0 => none
    | depth + 1 =>
      (itemValues? context depth items followed).map fun (items, followed) =>
        (withTag properties.tag (.sequence items), followed)
  | .mapping properties entries =>
    match depth with
    | 0 => none
    | depth + 1 =>
      (entryValues? context depth entries [] followed).map fun (entries, followed) =>
        (withTag properties.tag (.mapping entries), followed)
  | .alias anchor =>
    if context.aliasLimit < followed + 1 then none
    else
      match context.target? anchor, depth with
      | some (.scalar properties plain content), _ =>
        (scalarValue? properties.tag plain content).map (·, followed + 1)
      | some (.sequence properties items), depth + 1 =>
        (itemValues? context depth items (followed + 1)).map fun (items, followed) =>
          (withTag properties.tag (.sequence items), followed)
      | some (.mapping properties entries), depth + 1 =>
        (entryValues? context depth entries [] (followed + 1)).map fun (entries, followed) =>
          (withTag properties.tag (.mapping entries), followed)
      | _, _ => none
termination_by (depth, sizeOf node)

/-- The values of items. -/
def itemValues? (context : Context) (depth : Nat) (items : List (Node Nat)) (followed : Nat) :
    Option (List Yaml × Nat) :=
  match items with
  | [] => some ([], followed)
  | item :: items => do
    let (item, followed) ← value? context depth item followed
    let (items, followed) ← itemValues? context depth items followed
    return (item :: items, followed)
termination_by (depth, sizeOf items)

/-- The values of entries after known ones. A key that is known is refused. -/
def entryValues? (context : Context) (depth : Nat) (entries : List (Node Nat × Node Nat))
    (known : List (Yaml × Yaml)) (followed : Nat) : Option (List (Yaml × Yaml) × Nat) :=
  match entries with
  | [] => some (known, followed)
  | (key, value) :: entries => do
    let (key, followed) ← value? context depth key followed
    if known.any fun entry => entry.1.same key then none
    let (value, followed) ← value? context depth value followed
    entryValues? context depth entries (known ++ [(key, value)]) followed
termination_by (depth, sizeOf entries)

end

end Node

/-- The value of the only document in a YAML text. -/
def read? (source : String) : Option Yaml := do
  match ← Node.ofTokens? (← Token.scan? source.toList) with
  | none => return .null
  | some root =>
    let (root, _) ← root.link? []
    let context : Node.Context := ⟨root.targets, 100 * root.events⟩
    let (value, _) ← root.value? context depthLimit 0
    return value

end StructuralDiff.Yaml
