import StructuralDiff.Number
import StructuralDiff.Outcome
import StructuralDiff.Path.Basic

/-!
# Settings

A setting is a flag's value before it is checked, in the loose form in which a
command line or a file gives it. This module says what a setting means as a count,
as a switch and as a list of patterns.
-/

namespace StructuralDiff

/-- The value of a flag before it is checked. -/
inductive Setting where
  | bool (value : Bool)
  | int (value : Int64)
  | float (value : Binary64)
  | text (value : String)
  | list (items : List Setting)

/-- Why settings do not make a policy. -/
inductive PolicyError where
  /-- A setting that its flag has no use for. -/
  | illegalValue (flag : String) (value : Setting)
  /-- A pattern that is not a path. -/
  | invalidPattern (flag : String) (cause : PathError)
  /-- Selecting and rejecting paths at once. -/
  | conflict
  | unknownFlag (name : String)

namespace Setting

/-- The setting of a size. Sizes beyond the signed range become its last number. -/
def ofSize (size : Nat) : Setting :=
  .int (if Number.isSigned size then Int64.ofNat size else Int64.maxValue)

mutual

/-- The setting in words: texts are quoted, lists stand in brackets. -/
def describe : Setting → String
  | .bool value => if value then "true" else "false"
  | .int value => Decimal.integerText value.toInt
  | .float value => value.plainText
  | .text value => Text.quoted value
  | .list items => "[" ++ ", ".intercalate (describeItems items) ++ "]"

/-- The items of a list in words. -/
def describeItems : List Setting → List String
  | [] => []
  | item :: items => item.describe :: describeItems items

end

/-- The signed integer of a setting: an integer itself, or a text that holds one
between blanks. -/
def integer? : Setting → Option Int
  | .int value => some value.toInt
  | .text value =>
    match Decimal.readInteger? (Text.trimChars value.toList) with
    | some value => if Number.isSigned value then some value else none
    | none => none
  | _ => none

/-- The count that a setting stands for: a positive integer. -/
def count (flag : String) (setting : Setting) : Except PolicyError Nat :=
  match setting.integer? with
  | some value => if 0 < value then .ok value.toNat else .error (.illegalValue flag setting)
  | none => .error (.illegalValue flag setting)

/-- A setting turns a switch on unless it is the truth value `false`. -/
def isOn : Setting → Bool
  | .bool false => false
  | _ => true

/-- The pattern that a text stands for. -/
def readPattern (flag text : String) : Except PolicyError Path :=
  match Path.read text with
  | .ok path => .ok path
  | .error cause => .error (.invalidPattern flag cause)

mutual

/-- The patterns of a setting, in order: those of a text, of the decimal text of an
integer, or of every item of a list. -/
def patterns (flag : String) : Setting → Except PolicyError (List Path)
  | .text value => (readPattern flag value).map fun path => [path]
  | .int value => (readPattern flag (Decimal.integerText value.toInt)).map fun path => [path]
  | .list items => patternsOfAll flag items
  | .bool value => .error (.illegalValue flag (.bool value))
  | .float value => .error (.illegalValue flag (.float value))

/-- The patterns of settings, one after another. -/
def patternsOfAll (flag : String) : List Setting → Except PolicyError (List Path)
  | [] => .ok []
  | item :: items => do
    let first ← patterns flag item
    let others ← patternsOfAll flag items
    return first ++ others

end

/-- What stands for a pattern is read as the pattern. -/
theorem read_of_readPattern {flag text : String} {path : Path}
    (given : readPattern flag text = .ok path) : Path.read text = .ok path := by
  unfold readPattern at given
  cases outcome : Path.read text with
  | error cause => simp [outcome] at given
  | ok read => simpa [outcome] using given

mutual

/-- Every pattern of a setting was read from a text. -/
theorem exists_text_of_mem_patterns {flag : String} {setting : Setting} {paths : List Path}
    (given : patterns flag setting = .ok paths) {path : Path} (member : path ∈ paths) :
    ∃ text, Path.read text = .ok path := by
  unfold patterns at given
  cases setting with
  | bool value => cases given
  | float value => cases given
  | list items => exact exists_text_of_mem_patternsOfAll given member
  | text value =>
    obtain ⟨known, read, rfl⟩ := Outcome.map_eq_ok_iff.1 given
    rw [List.mem_singleton.1 member]
    exact ⟨_, read_of_readPattern read⟩
  | int value =>
    obtain ⟨known, read, rfl⟩ := Outcome.map_eq_ok_iff.1 given
    rw [List.mem_singleton.1 member]
    exact ⟨_, read_of_readPattern read⟩

/-- Every pattern of some settings was read from a text. -/
theorem exists_text_of_mem_patternsOfAll {flag : String} {settings : List Setting}
    {paths : List Path} (given : patternsOfAll flag settings = .ok paths) {path : Path}
    (member : path ∈ paths) : ∃ text, Path.read text = .ok path := by
  unfold patternsOfAll at given
  cases settings with
  | nil =>
    cases given
    cases member
  | cons item items =>
    obtain ⟨first, here, rest⟩ := Outcome.bind_eq_ok_iff.1 given
    obtain ⟨others, later, whole⟩ := Outcome.bind_eq_ok_iff.1 rest
    cases Outcome.pure_eq_ok_iff.1 whole
    rcases List.mem_append.1 member with inFirst | inOthers
    · exact exists_text_of_mem_patterns here inFirst
    · exact exists_text_of_mem_patternsOfAll later inOthers

end

end Setting

namespace PolicyError

/-- The error in words. -/
def message : PolicyError → String
  | .illegalValue flag value => value.describe ++ " is not a legal value for " ++ flag
  | .invalidPattern flag cause => "Invalid pattern for " ++ flag ++ ": " ++ cause.message
  | .conflict => "select_paths and reject_paths cannot both be set"
  | .unknownFlag name => "Unrecognized flag: " ++ name

/-- The reason behind the error, where it has one of its own. -/
def cause? : PolicyError → Option String
  | .invalidPattern _ cause => some cause.message
  | _ => none

end PolicyError

end StructuralDiff
