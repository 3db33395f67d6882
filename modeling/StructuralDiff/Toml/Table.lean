import StructuralDiff.Document.Entries
import StructuralDiff.Toml.Value

/-!
# TOML tables

The tables of a TOML document come in parts, in any order: under headers, through
dotted keys, and on the way to either. An outline collects the parts and refuses a
table or a key that is defined twice. Whether a table can still be extended depends
on how it came about.
-/

namespace StructuralDiff.Toml

/-- How a table came about. -/
inductive Origin where
  /-- It has a header of its own. -/
  | header
  /-- It stands on the way to a table with a header. -/
  | implied
  /-- It stands in a dotted key. -/
  | dotted
deriving DecidableEq

/-- What stands under a key while a document is read. -/
inductive Item where
  | value (value : Toml)
  | table (origin : Origin) (entries : List (String × Item))
  /-- The elements of an array of tables, each with a header. -/
  | tables (elements : List (List (String × Item)))

/-- The entries of a table while a document is read. -/
abbrev Items := Entries String Item

namespace Item

mutual

/-- The value of an item. -/
def toToml : Item → Toml
  | .value known => known
  | .table _ entries => .table (entriesToToml entries)
  | .tables elements => .array (elementsToToml elements)

/-- The values of the entries of a table. -/
def entriesToToml : List (String × Item) → List (String × Toml)
  | [] => []
  | (name, item) :: entries => (name, item.toToml) :: entriesToToml entries

/-- The values of the elements of an array of tables. -/
def elementsToToml : List (List (String × Item)) → List Toml
  | [] => []
  | entries :: elements => .table (entriesToToml entries) :: elementsToToml elements

end

end Item

namespace Items

/-- Change the table that a path leads to, and make the tables that are missing on the
way. In an array of tables the way goes through the last element. A path of a dotted
key may not pass through a table with a header. -/
def change (dotted : Bool) (edit : Origin → Items → Option Items) :
    List String → Origin → Items → Option Items
  | [], origin, items => edit origin items
  | name :: path, _, items => do
    let made := if dotted then Origin.dotted else .implied
    let item : Item ← match items.find? name with
      | none => (change dotted edit path made []).map (Item.table made)
      | some (.value _) => none
      | some (.table origin inner) =>
        if dotted && origin == .header then none
        else (change dotted edit path origin inner).map (Item.table origin)
      | some (.tables elements) => do
        let last ← elements.getLast?
        let changed ← change dotted edit path .header last
        some (Item.tables (elements.dropLast ++ [changed]))
    return items.set name item

/-- Give a key a value in the table that a dotted path leads to. The key must be
new, and the table must have come about by dotted keys when there is such a path. -/
def assign (path : List String) (name : String) (value : Toml) (origin : Origin) (items : Items) :
    Option Items :=
  change true
    (fun origin items =>
      if (origin == .dotted) == path.isEmpty || items.has name then none
      else some (items.set name (.value value)))
    path origin items

end Items

/-- The tables of a document as far as it is read. -/
structure Outline where
  /-- The document without the table under the last header. -/
  closed : Items
  /-- The path in the last header; empty before the first. -/
  heading : List String
  /-- The last header is that of an element of an array of tables. -/
  isElement : Bool
  /-- The table under the last header. -/
  current : Items

namespace Outline

/-- The outline of an empty document. -/
def empty : Outline where
  closed := []
  heading := []
  isElement := false
  current := []

/-- Put the table under the last header in its place. -/
def close (outline : Outline) : Option Items :=
  match outline.heading.getLast? with
  | none => some outline.current
  | some name =>
    Items.change false
      (fun _ items =>
        if outline.isElement then
          match items.find? name with
          | some (.tables elements) => some (items.set name (.tables (elements ++ [outline.current])))
          | _ => none
        else if items.has name then none
        else some (items.set name (.table .header outline.current)))
      outline.heading.dropLast .header outline.closed

/-- The item at a path with a name behind it, if there is one. -/
def itemAt? : List String → String → Items → Option Item
  | [], name, items => items.find? name
  | first :: path, name, items =>
    match items.find? first with
    | some (.table _ inner) => itemAt? path name inner
    | some (.tables elements) => elements.getLast?.bind (itemAt? path name)
    | _ => none

/-- Begin a table under a header. A table that was only implied so far keeps its
entries; any other item may not be there yet. -/
def openTable (path : List String) (outline : Outline) : Option Outline := do
  let name ← path.getLast?
  let closed ← outline.close
  let current ← match itemAt? path.dropLast name closed with
    | none => some []
    | some (.table .implied items) => some items
    | some _ => none
  let closed ← Items.change false (fun _ items => some (items.filter (·.1 != name))) path.dropLast
    .header closed
  return ⟨closed, path, false, current⟩

/-- Begin an element of an array of tables under a header. -/
def openElement (path : List String) (outline : Outline) : Option Outline := do
  let name ← path.getLast?
  let closed ← outline.close
  let closed ← Items.change false
    (fun _ items =>
      match items.find? name with
      | none => some (items.set name (.tables []))
      | some (.tables _) => some items
      | some _ => none)
    path.dropLast .header closed
  return ⟨closed, path, true, []⟩

/-- Give a key under the last header a value. -/
def assign (path : List String) (value : Toml) (outline : Outline) : Option Outline := do
  let name ← path.getLast?
  let current ← Items.assign path.dropLast name value .header outline.current
  return { outline with current := current }

/-- The document of an outline. -/
def toToml (outline : Outline) : Option Toml := do
  return .table (Item.entriesToToml (← outline.close))

end Outline

end StructuralDiff.Toml
