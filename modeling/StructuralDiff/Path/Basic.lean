import StructuralDiff.Path.Segment
import StructuralDiff.Text.Split

/-!
# Paths

A path leads from the root of a document to one of its values. The same type
serves as a pattern, whose segments may stand for more than one step. Paths are
compared by their written form: `/`, then the segments with `/` between them.
-/

namespace StructuralDiff

/-- A sequence of steps from the root. -/
structure Path where
  segments : List Segment
deriving DecidableEq

/-- Why a text is not a segment or not a path. -/
inductive PathError where
  | segment (token : String) (fault : Segment.Fault)
  /-- Two separators with nothing between them. -/
  | emptySegment (path : String)
  /-- A segment of the path has a fault. -/
  | inPath (path token : String) (fault : Segment.Fault)
deriving DecidableEq

namespace PathError

/-- The message of a faulty segment. -/
def segmentMessage (token : String) (fault : Segment.Fault) : String :=
  Text.quoted token ++ " is not a valid path segment: " ++ fault.message

/-- The message of a faulty path. -/
def pathMessage (path reason : String) : String :=
  Text.quoted path ++ " is not a valid path: " ++ reason

/-- The error in words. -/
def message : PathError → String
  | .segment token fault => segmentMessage token fault
  | .emptySegment path => pathMessage path "paths cannot contain empty segments"
  | .inPath path token fault => pathMessage path (segmentMessage token fault)

end PathError

namespace Path

/-- The path of the whole document. -/
def root : Path := ⟨[]⟩

/-- The written form of a path. -/
def text (path : Path) : String :=
  "/" ++ "/".intercalate (path.segments.map Segment.text)

/-- The names that stand for segments: blank names at the start and empty ones at
the end do not. -/
def significantNames (names : List (List Char)) : List (List Char) :=
  let started := names.dropWhile (·.all Text.isBlank)
  (started.reverse.dropWhile List.isEmpty).reverse

/-- The segment of a name in a written path. -/
def readName (path : String) (name : List Char) : Except PathError Segment :=
  if name.isEmpty then .error (.emptySegment path)
  else
    let token := String.ofList name
    match Segment.read token with
    | .ok segment => .ok segment
    | .error fault => .error (.inPath path token fault)

/-- The path that a text stands for. The separator at the start is optional, and
one at the end means nothing. -/
def read (text : String) : Except PathError Path := do
  let segments ← (significantNames (Text.split '/' text.toList)).mapM (readName text)
  return ⟨segments⟩

/-- The path one step further. -/
def join (path : Path) (token : String) : Except PathError Path :=
  match Segment.read token with
  | .ok segment => .ok ⟨path.segments ++ [segment]⟩
  | .error fault => .error (.segment token fault)

/-- The path has no steps. -/
def isRoot (path : Path) : Bool := path.segments.isEmpty

/-- The number of values on the way, both ends counted. -/
def depth (path : Path) : Nat := path.segments.length + 1

/-- The last step. -/
def lastSegment? (path : Path) : Option Segment := path.segments.getLast?

/-- The path without its last step. -/
def parent? (path : Path) : Option Path :=
  if path.isRoot then none else some ⟨path.segments.dropLast⟩

/-- The paths on the way to a path, from the root on, the path itself left out. -/
def ancestors (path : Path) : List Path :=
  (List.range path.segments.length).map fun length => ⟨path.segments.take length⟩

/-- Two paths have the same written form. -/
def sameText (left right : Path) : Bool := left.text == right.text

/-- Two paths match: they have the same written form, or equally many segments
that match pairwise. -/
def accepts (left right : Path) : Bool :=
  left.sameText right ||
    (left.segments.length == right.segments.length &&
      (left.segments.zip right.segments).all fun pair => pair.1.accepts pair.2)

/-- A path, or one on the way to it, matches one of the patterns. -/
def onOrUnder (path : Path) (patterns : List Path) : Bool :=
  patterns.any fun pattern => pattern.accepts path || path.ancestors.any pattern.accepts

/-- The parts of a pattern that end in a key expression, shortest first. -/
def keyExpressions (path : Path) : List Path :=
  (path.ancestors ++ [path]).filter fun part => part.lastSegment?.any Segment.isKeyExpression

/-- A path and the paths on the way to it are those that it starts with. -/
theorem mem_ancestors_append_iff {start path : Path} :
    start ∈ path.ancestors ++ [path] ↔ start.segments <+: path.segments := by
  constructor
  · intro member
    rcases List.mem_append.1 member with above | whole
    · obtain ⟨length, -, rfl⟩ := List.mem_map.1 above
      exact List.take_prefix _ _
    · cases List.mem_singleton.1 whole
      exact List.prefix_refl _
  · intro starts
    have taken := List.prefix_iff_eq_take.1 starts
    rcases Nat.lt_or_ge start.segments.length path.segments.length with shorter | whole
    · refine List.mem_append_left _ (List.mem_map.2 ⟨_, List.mem_range.2 shorter, ?_⟩)
      rw [← taken]
    · rw [List.take_of_length_le whole] at taken
      cases start
      cases path
      cases taken
      exact List.mem_append_right _ (List.mem_singleton_self _)

/-- A path is on or under some patterns when one of them matches a start of the path. -/
theorem onOrUnder_iff {path : Path} {patterns : List Path} :
    path.onOrUnder patterns = true ↔
      ∃ pattern ∈ patterns, ∃ start : Path,
        start.segments <+: path.segments ∧ pattern.accepts start = true := by
  simp only [onOrUnder, List.any_eq_true, Bool.or_eq_true, ← mem_ancestors_append_iff,
    List.mem_append, List.mem_singleton]
  constructor
  · rintro ⟨pattern, known, accepted | ⟨start, above, accepted⟩⟩
    · exact ⟨pattern, known, path, .inr rfl, accepted⟩
    · exact ⟨pattern, known, start, .inl above, accepted⟩
  · rintro ⟨pattern, known, start, above | rfl, accepted⟩
    · exact ⟨pattern, known, .inr ⟨start, above, accepted⟩⟩
    · exact ⟨pattern, known, .inl accepted⟩

/-- The key expressions in a path start as the path does. -/
theorem prefix_of_mem_keyExpressions {path part : Path} (member : part ∈ path.keyExpressions) :
    part.segments <+: path.segments :=
  mem_ancestors_append_iff.1 (List.mem_filter.1 member).1

end Path

end StructuralDiff
