import StructuralDiff.Document.Value
import StructuralDiff.Proofs.Legible

/-!
# Positions in a document

A position leads from the root of a document to one of its values by keys of objects
and numbers of array items, numbers counted from one. It says where a value is
without regard to any comparison. A position is reached in two documents when every
position before it leads to two objects or to two arrays.
-/

namespace StructuralDiff

/-- One step into a document. -/
inductive Position.Step where
  | entry (key : Key)
  | item (number : Nat)
deriving DecidableEq

/-- Keys of objects and numbers of array items, from the root on. -/
abbrev Position := List Position.Step

namespace Position

/-- The written form of a step. -/
def Step.name : Step → String
  | .entry key => key.name
  | .item number => Decimal.naturalText number

@[simp] theorem Step.name_entry (key : Key) : (Step.entry key).name = key.name := rfl

@[simp] theorem Step.name_item (number : Nat) :
    (Step.item number).name = Decimal.naturalText number := rfl

/-- The written form of a position. -/
def text (position : Position) : String :=
  "/" ++ "/".intercalate (position.map Step.name)

end Position

namespace Value

/-- The value one step inside a value. -/
def child? : Value → Position.Step → Option Value
  | .object entries, .entry key => Entries.find? key entries
  | .array items, .item (count + 1) => items[count]?
  | _, _ => none

/-- The value at a position. -/
def at? (value : Value) : Position → Option Value
  | [] => some value
  | step :: rest => (value.child? step).bind fun child => child.at? rest

/-- Two values are two objects or two arrays. -/
def SameContainer (left right : Value) : Prop :=
  left.shape = right.shape ∧ left.shape ≠ .scalar

@[simp] theorem at?_nil (value : Value) : value.at? [] = some value := rfl

theorem at?_cons (value : Value) (step : Position.Step) (rest : Position) :
    value.at? (step :: rest) = (value.child? step).bind fun child => child.at? rest := rfl

theorem at?_singleton (value : Value) (step : Position.Step) :
    value.at? [step] = value.child? step := by
  cases there : value.child? step <;> simp [at?_cons, there]

/-- A value that has something at a step is an object with the key of the step, or an array
that is long enough. -/
theorem container_of_child? {value : Value} {step : Position.Step}
    (there : (value.child? step).isSome) :
    (∃ entries key, value = .object entries ∧ step = .entry key ∧
        Entries.has key entries = true) ∨
      ∃ items count, value = .array items ∧ step = .item (count + 1) ∧ count < items.length := by
  cases value with
  | object entries =>
    cases step with
    | entry key => exact .inl ⟨entries, key, rfl, rfl, there⟩
    | item number => cases there
  | array items =>
    cases step with
    | entry key => cases there
    | item number =>
      cases number with
      | zero => cases there
      | succ count => exact .inr ⟨items, count, rfl, rfl, by simpa [child?] using there⟩
  | _ => cases there

/-- What is at a step of a value is inside it. -/
theorem mem_parts_of_child? {value child : Value} {step : Position.Step}
    (there : value.child? step = some child) : child ∈ value.parts := by
  rcases container_of_child? (Option.isSome_of_eq_some there) with
    ⟨entries, key, rfl, rfl, -⟩ | ⟨items, count, rfl, rfl, -⟩
  · exact List.mem_map_of_mem (Entries.mem_of_find? there)
  · exact List.mem_of_getElem? there

end Value

/-- Every position before a position leads to two objects or to two arrays. -/
def Reached (reference candidate : Value) (position : Position) : Prop :=
  ∀ before, before <+: position → before ≠ position →
    ∃ left right, reference.at? before = some left ∧ candidate.at? before = some right ∧
      left.SameContainer right

/-- The root is reached in any two documents. -/
theorem reached_nil (reference candidate : Value) : Reached reference candidate [] := by
  intro before isBefore different
  exact absurd (List.prefix_nil.1 isBefore) different

/-- A position below the root is reached when the documents are containers alike and,
unless it is right below, the rest of it is reached from the two values inside. -/
theorem reached_cons_iff {reference candidate : Value} {step : Position.Step} {rest : Position} :
    Reached reference candidate (step :: rest) ↔
      reference.SameContainer candidate ∧ (rest = [] ∨
        ∃ left right, reference.child? step = some left ∧ candidate.child? step = some right ∧
          Reached left right rest) := by
  constructor
  · intro reached
    constructor
    · obtain ⟨left, right, leftAt, rightAt, alike⟩ := reached [] List.nil_prefix (by simp)
      cases leftAt
      cases rightAt
      exact alike
    · by_cases last : rest = []
      · exact .inl last
      · right
        have onward : [step] ≠ step :: rest := by simpa [eq_comm] using last
        obtain ⟨left, right, leftAt, rightAt, -⟩ := reached [step] (by simp) onward
        rw [Value.at?_singleton] at leftAt rightAt
        refine ⟨left, right, leftAt, rightAt, fun before isBefore different => ?_⟩
        have inner := reached (step :: before) (by simpa using isBefore) (by simpa using different)
        simpa only [Value.at?_cons, leftAt, rightAt, Option.bind_some] using inner
  · rintro ⟨alike, inside⟩ before isBefore different
    cases before with
    | nil => exact ⟨reference, candidate, rfl, rfl, alike⟩
    | cons first before =>
      obtain ⟨rfl, shorter⟩ := List.cons_prefix_cons.1 isBefore
      rcases inside with rfl | ⟨left, right, leftAt, rightAt, reached⟩
      · exact absurd (congrArg (first :: ·) (List.prefix_nil.1 shorter)) different
      · simpa only [Value.at?_cons, leftAt, rightAt, Option.bind_some] using
          reached before shorter (by simpa using different)

/-- Below a step at which two containers alike have something, a position is reached when the
rest of it is reached from there. -/
theorem reached_inside_iff {reference candidate left right : Value} {step : Position.Step}
    {rest : Position} (alike : reference.SameContainer candidate)
    (leftThere : reference.child? step = some left)
    (rightThere : candidate.child? step = some right) :
    Reached reference candidate (step :: rest) ↔ Reached left right rest := by
  rw [reached_cons_iff]
  constructor
  · rintro ⟨-, rfl | ⟨first, second, firstThere, secondThere, reached⟩⟩
    · exact reached_nil left right
    · rw [leftThere] at firstThere
      rw [rightThere] at secondThere
      cases firstThere
      cases secondThere
      exact reached
  · intro reached
    exact ⟨alike, .inr ⟨left, right, leftThere, rightThere, reached⟩⟩

namespace Key

/-- A text key without a separator and without blanks at its ends. -/
def IsPlain (key : Key) : Prop :=
  ∃ name, key = .text name ∧ '/' ∉ name.toList ∧ Text.trim name = name

end Key

namespace Position

/-- A step whose name is its own trimmed form and holds no separator. -/
def Step.IsPlain (step : Step) : Prop :=
  '/' ∉ step.name.toList ∧ Text.trim step.name = step.name

/-- The digits of a number are neither separators nor blank. -/
theorem Step.item_isPlain (number : Nat) : (Step.item number).IsPlain := by
  have digits : ∀ char ∈ (Step.item number).name.toList, char.isDigit = true :=
    fun _ member => Decimal.isDigit_of_mem_naturalText member
  constructor
  · intro member
    exact absurd (digits '/' member) (by decide)
  · have clear : ∀ char ∈ (Step.item number).name.toList, Text.isBlank char = false :=
      fun char member => Text.isBlank_of_isDigit (digits char member)
    rw [Text.trim, Text.trimChars_of_clear clear, String.ofList_toList]

/-- The step of a plain key is plain. -/
theorem Step.entry_isPlain {key : Key} (plain : key.IsPlain) : (Step.entry key).IsPlain := by
  obtain ⟨name, rfl, clear, trimmed⟩ := plain
  exact ⟨clear, trimmed⟩

/-- A path is the one that a position is written as: it can be read back, and its
segments are the names of the position. -/
structure LeadsTo (position : Position) (path : Path) : Prop where
  legible : path.Legible
  names : path.segments.map Segment.text = position.map Step.name

theorem LeadsTo.root : LeadsTo [] .root := ⟨Path.root_legible, rfl⟩

/-- A position and its path have the same written form. -/
theorem LeadsTo.text_eq {position : Position} {path : Path} (leads : position.LeadsTo path) :
    position.text = path.text := by
  rw [Position.text, Path.text, leads.names]

/-- The written form of a position is read as its path. -/
theorem LeadsTo.read_text {position : Position} {path : Path} (leads : position.LeadsTo path) :
    Path.read position.text = .ok path := by
  rw [leads.text_eq, Path.read_text leads.legible]

/-- A plain step leads on from a position as it leads on from its path. -/
theorem LeadsTo.join {position : Position} {path child : Path} {step : Step}
    (leads : position.LeadsTo path) (plain : step.IsPlain)
    (joined : path.join step.name = .ok child) :
    LeadsTo (position ++ [step]) child := by
  refine ⟨leads.legible.join joined plain.1, ?_⟩
  obtain ⟨segment, given, rfl⟩ := Path.join_eq_ok_iff.1 joined
  have written : segment.text = step.name := by
    rw [← plain.2, ← String.toList_inj, Segment.toList_text_of_read given]
    simp [Text.trim]
  simp [leads.names, written]

end Position

end StructuralDiff
