import Mathlib
import StructuralDiff.Comparison.Recording
import StructuralDiff.Policy.Draft
import StructuralDiff.Proofs.PathText

/-!
# The depth of what a pattern matches

A pattern matches a path segment by segment, so that both have one depth, or because the two
are written alike. Paths that are written alike have one depth only when their names hide
equally many separators (`Path.depth_add_hiddenSeparators_eq`). A pattern that was read
hides none, so it matches a path at another depth exactly when the two are written alike and
a name in the path holds a separator; how far the depths are apart is how many separators
the names hold (`Path.depth_eq_of_accepts`).
-/

namespace StructuralDiff

namespace Text

/-- The separators in parts that are put together are those between the parts and those
inside them. -/
theorem count_intercalate (separator : Char) {parts : List (List Char)} (some : parts ≠ []) :
    ([separator].intercalate parts).count separator + 1 =
      parts.length + (parts.map (List.count separator)).sum := by
  induction parts with
  | nil => exact absurd rfl some
  | cons part parts ih =>
    cases parts with
    | nil =>
      rw [List.intercalate_singleton, List.map_singleton, List.sum_singleton, Nat.add_comm]
      rfl
    | cons next parts =>
      have onward := ih (List.cons_ne_nil next parts)
      rw [List.intercalate_cons_cons, List.count_append, List.count_append,
        List.count_singleton_self, List.map_cons, List.sum_cons, List.length_cons]
      omega

end Text

/-- Patterns match segments one by one. -/
def Segment.AcceptEach (patterns segments : List Segment) : Prop :=
  List.Forall₂ (fun pattern segment => pattern.accepts segment = true) patterns segments

namespace Path

/-- How many separators the names in the path hold. -/
def hiddenSeparators (path : Path) : Nat :=
  (path.segments.map fun segment => segment.text.toList.count '/').sum

/-- Nothing is hidden exactly when no name holds a separator. -/
theorem hiddenSeparators_eq_zero_iff {path : Path} :
    path.hiddenSeparators = 0 ↔ path.SeparatorFree := by
  simp only [hiddenSeparators, SeparatorFree, List.sum_eq_zero_iff, List.forall_mem_map,
    List.count_eq_zero]

/-- Among built paths only the root is written as the root. -/
theorem Built.segments_eq_nil {path : Path} (built : path.Built) (same : path.text = root.text) :
    path.segments = [] := by
  by_contra some
  obtain ⟨segment, rest, written⟩ := List.exists_cons_of_ne_nil some
  have legible : segment.Legible := by
    apply built_iff.1 built
    rw [written]
    exact List.mem_cons_self
  have full := legible.text_ne_nil
  have characters := congrArg String.toList same
  rw [toList_text, toList_text, written] at characters
  cases rest <;> simp_all [root]

/-- Below the root every segment has one separator in front of it. -/
theorem count_text {path : Path} (some : path.segments ≠ []) :
    path.text.toList.count '/' = path.segments.length + path.hiddenSeparators := by
  have names : (path.segments.map fun segment => segment.text.toList) ≠ [] := by simpa using some
  have count := Text.count_intercalate '/' names
  rw [List.length_map, List.map_map] at count
  rw [toList_text, List.count_cons_self, count]
  rfl

/-- Paths that are written alike have one depth, once the hidden separators are counted. -/
theorem depth_add_hiddenSeparators_eq {path other : Path} (built : path.Built)
    (builtToo : other.Built) (same : path.text = other.text) :
    path.depth + path.hiddenSeparators = other.depth + other.hiddenSeparators := by
  have rootText : ∀ {place : Path}, place.segments = [] → place.text = root.text := by
    intro place none
    rw [text, none]
    rfl
  by_cases none : path.segments = []
  · have noneToo : other.segments = [] := by
      apply builtToo.segments_eq_nil
      rw [← same, rootText none]
    simp [depth, hiddenSeparators, none, noneToo]
  · have someToo : other.segments ≠ [] := by
      intro noneToo
      apply none
      apply built.segments_eq_nil
      rw [same, rootText noneToo]
    have here := count_text none
    have there := count_text someToo
    rw [same] at here
    simp only [depth]
    omega

/-- A pattern matches a path that is written as the pattern, or whose segments it matches one
by one. -/
theorem accepts_iff {pattern place : Path} :
    pattern.accepts place = true ↔ pattern.text = place.text ∨
      Segment.AcceptEach pattern.segments place.segments := by
  simp only [Segment.AcceptEach, accepts, sameText, Bool.or_eq_true, beq_iff_eq,
    Bool.and_eq_true, List.all_eq_true, List.forall₂_iff_zip, Prod.forall]

/-- The depth of a path that a pattern without hidden separators matches. -/
theorem depth_eq_add_of_accepts {pattern place : Path} (legible : pattern.Legible)
    (built : place.Built)
    (matched : pattern.accepts place = true ∨ pattern.sameText place = true) :
    pattern.depth =
      place.depth + if pattern.sameText place then place.hiddenSeparators else 0 := by
  obtain ⟨patternBuilt, separatorFree⟩ := legible_iff.1 legible
  by_cases same : pattern.sameText place = true
  · have texts : pattern.text = place.text := by simpa [sameText] using same
    have depths := depth_add_hiddenSeparators_eq patternBuilt built texts
    rw [hiddenSeparators_eq_zero_iff.2 separatorFree] at depths
    rw [if_pos same, ← depths, Nat.add_zero]
  · have otherText : pattern.text ≠ place.text := by simpa [sameText] using same
    have stepwise := (accepts_iff.1 (matched.resolve_right same)).resolve_left otherText
    rw [if_neg same, depth, depth, stepwise.length_eq, Nat.add_zero]

end Path

namespace Draft

/-- Normalizers are registered under patterns that were read. -/
theorem legible_of_mem_unfoldNormalizers {given : List (Setting × Normalizer)}
    {entries : List (Path × Normalizer)} (unfolded : unfoldNormalizers given = .ok entries)
    {entry : Path × Normalizer} (member : entry ∈ entries) : entry.1.Legible := by
  induction given generalizing entries with
  | nil =>
    cases unfolded
    cases member
  | cons first given ih =>
    obtain ⟨setting, normalizer⟩ := first
    obtain ⟨paths, here, unfolded⟩ := Outcome.bind_eq_ok_iff.1 unfolded
    obtain ⟨others, later, unfolded⟩ := Outcome.bind_eq_ok_iff.1 unfolded
    cases Outcome.pure_eq_ok_iff.1 unfolded
    rcases List.mem_append.1 member with inFirst | inOthers
    · obtain ⟨path, known, rfl⟩ := List.mem_map.1 inFirst
      exact Setting.legible_of_mem_patterns here known
    · exact ih later inOthers

end Draft

namespace Policy

/-- The patterns that a policy holds against the path of a value: those of every list, and of
a key expression what stands before the key. -/
def patternsHeld (policy : Policy) : List Path :=
  policy.selectPaths ++ policy.rejectPaths ++ policy.matchByValue ++
    policy.normalizers.map Prod.fst ++ policy.keyPatterns.filterMap Path.parent?

/-- All patterns of a policy that settings stand for were read, or start one that was. -/
theorem legible_of_mem_patternsHeld {draft : Draft} {policy : Policy}
    (built : draft.build = .ok policy) {pattern : Path} (member : pattern ∈ policy.patternsHeld) :
    pattern.Legible := by
  have settles := Draft.build_eq_ok_iff.1 built
  simp only [patternsHeld, List.mem_append, or_assoc] at member
  rcases member with select | reject | byValue | normalize | byKey
  · exact Setting.legible_of_mem_patternsOfAll settles.selectPaths select
  · exact Setting.legible_of_mem_patternsOfAll settles.rejectPaths reject
  · exact Setting.legible_of_mem_patternsOfAll settles.matchByValue byValue
  · obtain ⟨entry, known, rfl⟩ := List.mem_map.1 normalize
    exact Draft.legible_of_mem_unfoldNormalizers settles.normalizers known
  · obtain ⟨expression, known, parent⟩ := List.mem_filterMap.1 byKey
    obtain ⟨whole, given, within⟩ := List.mem_flatMap.1 (mem_of_mem_distinctPaths known)
    have legible := (Setting.legible_of_mem_patternsOfAll settles.matchByKey given).of_start
      (Path.prefix_of_mem_keyExpressions within)
    unfold Path.parent? at parent
    split at parent
    · cases parent
    · cases parent
      exact legible.of_start (List.dropLast_prefix _)

end Policy

namespace Path

/-- A pattern that was read has the depth of every path that it matches, or that it equals,
where no name in the path holds a separator: whichever list of a policy it is on, it applies
to values at its own depth only. Where names hold separators, a pattern that is written as
the path is deeper by as many levels as they hold, and any other pattern is not. -/
theorem depth_eq_of_accepts {place : Path} (built : place.Built) :
    (∀ written pattern, read written = .ok pattern →
      pattern.accepts place = true ∨ pattern.sameText place = true →
      pattern.depth =
        place.depth + if pattern.sameText place then place.hiddenSeparators else 0) ∧
    (place.SeparatorFree → ∀ written pattern, read written = .ok pattern →
      pattern.accepts place = true ∨ pattern.sameText place = true →
      pattern.depth = place.depth) ∧
    (place.SeparatorFree → ∀ (draft : Draft) (policy : Policy), draft.build = .ok policy →
      ∀ pattern ∈ policy.patternsHeld, pattern.accepts place = true →
        pattern.depth = place.depth) := by
  have sameDepth : place.SeparatorFree → ∀ pattern : Path, pattern.Legible →
      pattern.accepts place = true ∨ pattern.sameText place = true →
      pattern.depth = place.depth := by
    intro separatorFree pattern legible matched
    have depths := depth_eq_add_of_accepts legible built matched
    rwa [hiddenSeparators_eq_zero_iff.2 separatorFree, ite_self, Nat.add_zero] at depths
  refine ⟨fun written pattern given matched => ?_, fun separatorFree written pattern given => ?_,
    fun separatorFree draft policy made pattern held accepted => ?_⟩
  · exact depth_eq_add_of_accepts (legible_of_read given) built matched
  · exact sameDepth separatorFree pattern (legible_of_read given)
  · exact sameDepth separatorFree pattern (Policy.legible_of_mem_patternsHeld made held)
      (.inl accepted)

/-- A wildcard matches one step and no more: it finds a value at its own depth in a policy
that selects by it. A name that holds a separator is one step, and a pattern that is written
alike is one level deeper. -/
theorem depth_eq_of_accepts_oneStep :
    ∃ place divided pattern written policy,
      Built place ∧ place.SeparatorFree ∧ read "/*/b" = .ok pattern ∧
      Draft.build { Draft.empty with selectPaths := [.text "/*/b"] } = .ok policy ∧
      pattern ∈ policy.patternsHeld ∧ pattern.accepts place = true ∧
      pattern.depth = place.depth ∧
      root.join "a/b" = .ok divided ∧ read "/a/b" = .ok written ∧
      written.accepts divided = true ∧ divided.hiddenSeparators = 1 ∧
      written.depth = divided.depth + 1 := by
  have patternRead : read "/*/b" = .ok ⟨[.wildcard, .plain "b"]⟩ := by cbv
  have writtenRead : read "/a/b" = .ok ⟨[.plain "a", .plain "b"]⟩ := by cbv
  have policyMade : Draft.build { Draft.empty with selectPaths := [.text "/*/b"] } =
      .ok { Policy.default with selectPaths := [⟨[.wildcard, .plain "b"]⟩] } := by cbv
  have joined : root.join "a/b" = .ok ⟨[.plain "a/b"]⟩ := by cbv
  have built : Built ⟨[.plain "a", .plain "b"]⟩ := .read writtenRead
  have separatorFree : SeparatorFree ⟨[.plain "a", .plain "b"]⟩ :=
    (legible_iff.1 (legible_of_read writtenRead)).2
  have dividedBuilt : Built ⟨[.plain "a/b"]⟩ := root_built.join joined
  obtain ⟨-, -, byPolicy⟩ := depth_eq_of_accepts built
  obtain ⟨exact, -, -⟩ := depth_eq_of_accepts dividedBuilt
  refine ⟨_, _, _, _, _, built, separatorFree, patternRead, policyMade, List.mem_cons_self,
    by cbv, byPolicy separatorFree _ _ policyMade _ List.mem_cons_self (by cbv), joined,
    writtenRead, by cbv, by cbv, exact _ _ writtenRead (.inl (by cbv))⟩

/-- One number, under a key that holds a separator. -/
def underDividedKey (number : Int64) : Value :=
  .object [(.text "a/b", .number (.int number))]

/-- A pattern of two steps rejects the value one step below the root whose key holds a
separator: the two are written alike. The one difference there is is not found. -/
theorem rejects_at_another_depth :
    ∃ policy pattern place findings fewer,
      Draft.build { Draft.empty with rejectPaths := [.text "/a/b"] } = .ok policy ∧
      policy.rejectPaths = [pattern] ∧ read "/a/b" = .ok pattern ∧
      root.join "a/b" = .ok place ∧
      pattern.accepts place = true ∧ pattern.segments.length = 2 ∧ place.segments.length = 1 ∧
      Comparison.perform .default (underDividedKey 1) (underDividedKey 2) = .ok findings ∧
      findings.items.map Difference.path = [place.text] ∧
      Comparison.perform policy (underDividedKey 1) (underDividedKey 2) = .ok fewer ∧
      fewer.items = [] := by
  have policyMade : Draft.build { Draft.empty with rejectPaths := [.text "/a/b"] } =
      .ok { Policy.default with rejectPaths := [⟨[.plain "a", .plain "b"]⟩] } := by cbv
  have done : Comparison.perform .default (underDividedKey 1) (underDividedKey 2) = .ok {
      items := [⟨.mismatch, "/a/b", some (.number (.int 1)), some (.number (.int 2))⟩]
      positions := [("/a/b", 0)]
      limit := none } := by
    cbv
  have rejected : Comparison.perform
      { Policy.default with rejectPaths := [⟨[.plain "a", .plain "b"]⟩] }
      (underDividedKey 1) (underDividedKey 2) =
        .ok { items := [], positions := [], limit := none } := by
    cbv
  have joined : root.join "a/b" = .ok ⟨[.plain "a/b"]⟩ := by cbv
  exact ⟨_, _, _, _, _, policyMade, rfl, by cbv, joined, by cbv, rfl, rfl, done, by cbv,
    rejected, rfl⟩

end Path

end StructuralDiff
