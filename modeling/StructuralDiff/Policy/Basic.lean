import StructuralDiff.Document.Value
import StructuralDiff.Path.Basic

/-!
# Policies

A policy says how two documents are compared: which paths count, how the items of
an array are paired, which distinctions do not matter, and how many differences
are enough.
-/

namespace StructuralDiff

/-- What is done to the two scalars at a path before they are compared. -/
abbrev Normalizer := Value → Value

/-- The terms of a comparison. -/
structure Policy where
  /-- How many differences are recorded at most. -/
  maxDiffs : Option Nat
  /-- Whether the first difference is enough. -/
  failFast : Bool
  /-- The depth of the deepest values that are compared; the root has depth one. -/
  maxDepth : Option Nat
  selectPaths : List Path
  rejectPaths : List Path
  matchByKey : List Path
  matchByValue : List Path
  /-- Whether keys that are spelled alike are one key. -/
  indifferentKeys : Bool
  /-- Whether truth values and numbers are compared by their text. -/
  indifferentValues : Bool
  normalizers : List (Path × Normalizer)

/-- More than one key expression applies to the array at a path. -/
structure AmbiguousKey where
  path : Path
  patterns : List Path
deriving DecidableEq

namespace Policy

/-- The policy without any setting. -/
def default : Policy where
  maxDiffs := none
  failFast := false
  maxDepth := none
  selectPaths := []
  rejectPaths := []
  matchByKey := []
  matchByValue := []
  indifferentKeys := false
  indifferentValues := false
  normalizers := []

/-- How many differences are recorded before a comparison stops. -/
def cutoff (policy : Policy) : Option Nat :=
  if policy.failFast then some 1 else policy.maxDiffs

/-- Paths without those whose written form came before. -/
def distinctPaths (paths : List Path) : List Path :=
  paths.foldl (fun known path => if known.any path.sameText then known else known ++ [path]) []

/-- The key expressions in the patterns for matching by key, also those on the way
to a longer one. -/
def keyPatterns (policy : Policy) : List Path :=
  distinctPaths (policy.matchByKey.flatMap Path.keyExpressions)

/-- A value is left out, with everything below it: one that is deeper than the
depth limit, one on or under a rejected path, or, when paths are selected, one that
is on or under none of them. The root is never left out. -/
def excludes (policy : Policy) (path : Path) : Bool :=
  !path.isRoot &&
    (policy.maxDepth.any (· < path.depth) ||
      path.onOrUnder policy.rejectPaths ||
      (!policy.selectPaths.isEmpty && !path.onOrUnder policy.selectPaths))

/-- The key expressions that apply to the array at a path: those whose parent
matches the path. -/
def keyPatternsFor (policy : Policy) (path : Path) : List Path :=
  policy.keyPatterns.filter fun pattern => pattern.parent?.any (·.accepts path)

/-- The key by which the items of the array at a path are paired, if there is one.
Two key expressions may not apply at once, even when they name the same key. -/
def keyFor (policy : Policy) (path : Path) : Except AmbiguousKey (Option String) :=
  match policy.keyPatternsFor path with
  | [] => .ok none
  | [pattern] => .ok (pattern.lastSegment?.bind Segment.key?)
  | patterns => .error ⟨path, patterns⟩

/-- The items of the array at a path are paired by value. -/
def matchesByValue (policy : Policy) (path : Path) : Bool :=
  policy.matchByValue.any (·.accepts path)

/-- The first normalizer whose pattern matches a path. -/
def normalizerFor (policy : Policy) (path : Path) : Option Normalizer :=
  (policy.normalizers.find? fun entry => entry.1.accepts path).map Prod.snd

/-- The root is never left out. -/
@[simp] theorem excludes_root (policy : Policy) : policy.excludes .root = false := rfl

/-- The distinct paths among some paths are some of them. -/
theorem mem_of_mem_distinctPaths {paths : List Path} {path : Path}
    (member : path ∈ distinctPaths paths) : path ∈ paths := by
  have collected : ∀ (known : List Path), path ∈ paths.foldl
      (fun known path => if known.any path.sameText then known else known ++ [path]) known →
      path ∈ known ∨ path ∈ paths := by
    clear member
    induction paths with
    | nil => exact fun known member => .inl member
    | cons first paths ih =>
      intro known member
      rcases ih _ member with inKnown | later
      · dsimp only at inKnown
        split at inKnown
        · exact .inl inKnown
        · rcases List.mem_append.1 inKnown with old | new
          · exact .inl old
          · exact .inr (List.mem_cons.2 (.inl (List.mem_singleton.1 new)))
      · exact .inr (List.mem_cons_of_mem _ later)
  rcases collected [] member with impossible | known
  · cases impossible
  · exact known

/-- The key by which items are paired comes from a segment of a pattern. -/
theorem exists_segment_of_keyFor {policy : Policy} {path : Path} {key : String}
    (keyed : policy.keyFor path = .ok (some key)) :
    ∃ pattern ∈ policy.matchByKey, ∃ segment ∈ pattern.segments, segment.key? = some key := by
  unfold keyFor at keyed
  split at keyed
  · cases keyed
  · rename_i part only
    have applies : part ∈ policy.keyPatternsFor path := by simp [only]
    have listed := mem_of_mem_distinctPaths (List.mem_filter.1 applies).1
    obtain ⟨pattern, known, within⟩ := List.mem_flatMap.1 listed
    obtain ⟨segment, last, named⟩ := Option.bind_eq_some_iff.1 (Except.ok.inj keyed)
    refine ⟨pattern, known, segment, ?_, named⟩
    exact (Path.prefix_of_mem_keyExpressions within).subset (List.mem_of_getLast? last)
  · cases keyed

end Policy

end StructuralDiff
