import StructuralDiff.Text.Blank
import StructuralDiff.Text.Quoted

/-!
# Path segments

One step of a path: a name, one of two forms that single out the items of an
array by a key, or a wildcard. Which form a token has is read off its characters.
-/

namespace StructuralDiff

/-- One step of a path. -/
inductive Segment where
  /-- A name, or a position, taken literally. -/
  | plain (name : String)
  /-- The items of an array, by their value under a key: `:key`. -/
  | keyExpression (key : String)
  /-- The item of an array that holds a value under a key: `key=value`. -/
  | keyValue (key value : String)
  /-- Any one step: `*`. -/
  | wildcard
deriving DecidableEq

namespace Segment

/-- Why a token is not a segment. -/
inductive Fault where
  | empty
  | innerBlank
  | malformedKey
deriving DecidableEq

/-- The fault in words. -/
def Fault.message : Fault → String
  | .empty => "segment is empty"
  | .innerBlank => "segment contains whitespace"
  | .malformedKey => "a key expression is a single ':' followed by a key name"

/-- The segment that names a step literally or by a key and a value. The latter has
exactly one equals sign, with something on both of its sides. -/
def ofName (name : List Char) : Segment :=
  match name.span (· != '=') with
  | (key, '=' :: value) =>
    if key.isEmpty || value.isEmpty || value.contains '=' then .plain (String.ofList name)
    else .keyValue (String.ofList key) (String.ofList value)
  | _ => .plain (String.ofList name)

/-- The segment that trimmed characters stand for. -/
def classify (chars : List Char) : Except Fault Segment :=
  if chars.isEmpty then .error .empty
  else if chars.any Text.isBlank then .error .innerBlank
  else match chars with
    | ['*'] => .ok .wildcard
    | ':' :: key =>
      if key.isEmpty || key.contains ':' then .error .malformedKey
      else .ok (.keyExpression (String.ofList key))
    | name => .ok (ofName name)

/-- The segment that a token stands for, blanks at its ends ignored. -/
def read (token : String) : Except Fault Segment :=
  classify (Text.trimChars token.toList)

/-- The written form of a segment. -/
def text : Segment → String
  | .plain name => name
  | .keyExpression key => ":" ++ key
  | .keyValue key value => key ++ "=" ++ value
  | .wildcard => "*"

/-- The key that a segment goes by. -/
def key? : Segment → Option String
  | .keyExpression key => some key
  | .keyValue key _ => some key
  | _ => none

/-- The segment stands for the items of an array by a key. -/
def isKeyExpression : Segment → Bool
  | .keyExpression _ => true
  | _ => false

/-- The segment stands for any step. -/
def isWildcard : Segment → Bool
  | .wildcard => true
  | _ => false

/-- Two segments match: a wildcard matches anything, a name the same name, and a
key expression every key and value with its key. Two key expressions do not match,
nor do two pairs of key and value. -/
def accepts : Segment → Segment → Bool
  | .wildcard, _ => true
  | _, .wildcard => true
  | .plain left, .plain right => left == right
  | .keyExpression left, .keyValue right _ => left == right
  | .keyValue left _, .keyExpression right => left == right
  | _, _ => false

/-- Matching does not depend on the side. -/
theorem accepts_comm (left right : Segment) : left.accepts right = right.accepts left := by
  cases left <;> cases right <;> simp [accepts, Bool.beq_comm]

end Segment

end StructuralDiff
