import Mathlib
import StructuralDiff.Proofs.Meeting

/-!
# The key for the items at a path

A pattern for matching by key stands for all the key expressions that it starts with. A
policy lists those of all its patterns, each once (`Policy.ListsKeyExpressions`), and the
ones that apply at a path decide on the key there (`Policy.DecidesKey`). What is listed for
one more pattern is what the pattern adds (`Policy.keyPatternsIn_append_singleton`); all that
is said about the list follows from that by induction on the patterns.
-/

namespace StructuralDiff

namespace Path

/-- A key expression of some patterns: one of them starts with it, and its last segment stands
for the items of an array by a key. -/
def IsKeyExpressionOf (patterns : List Path) (part : Path) : Prop :=
  (∃ pattern ∈ patterns, part.segments <+: pattern.segments) ∧
    ∃ key, part.lastSegment? = some (.keyExpression key)

/-- A key expression applies at a path when what stands before its key matches the path. -/
def appliesAt (part place : Path) : Bool :=
  part.parent?.any (·.accepts place)

/-- The position of the first pattern that starts with a part. -/
def firstStart (patterns : List Path) (part : Path) : Nat :=
  patterns.findIdx fun pattern => decide (part.segments <+: pattern.segments)

/-- One part occurs in patterns before another: in an earlier pattern, or in the same pattern
with fewer segments. -/
def OccursBefore (patterns : List Path) (first second : Path) : Prop :=
  firstStart patterns first < firstStart patterns second ∨
    firstStart patterns first = firstStart patterns second ∧
      first.segments.length < second.segments.length

/-- The key expressions in a pattern are the starts of it that end in one. -/
theorem mem_keyExpressions_iff {pattern part : Path} :
    part ∈ pattern.keyExpressions ↔ part.IsKeyExpressionOf [pattern] := by
  have ends : part.lastSegment?.any Segment.isKeyExpression = true ↔
      ∃ key, part.lastSegment? = some (.keyExpression key) := by
    cases part.lastSegment? with
    | none => simp
    | some segment => cases segment <;> simp [Segment.isKeyExpression]
  rw [keyExpressions, List.mem_filter, mem_ancestors_append_iff, ends]
  simp [IsKeyExpressionOf]

/-- Key expressions stand in a pattern from the shortest to the longest. -/
theorem pairwise_keyExpressions (pattern : Path) :
    pattern.keyExpressions.Pairwise fun first second =>
      first.segments.length < second.segments.length := by
  apply List.Pairwise.filter
  rw [ancestors, List.pairwise_append, List.pairwise_map]
  refine ⟨?_, List.pairwise_singleton _ _, ?_⟩
  · refine List.pairwise_lt_range.imp_of_mem ?_
    intro shorter longer _ member less
    have inside := List.mem_range.1 member
    simp only [List.length_take]
    omega
  · intro above member whole known
    obtain ⟨length, inRange, rfl⟩ := List.mem_map.1 member
    have inside := List.mem_range.1 inRange
    rw [List.mem_singleton.1 known, List.length_take]
    omega

/-- A key expression of some patterns is one of a single pattern among them. -/
theorem isKeyExpressionOf_iff {patterns : List Path} {part : Path} :
    part.IsKeyExpressionOf patterns ↔ ∃ pattern ∈ patterns, part ∈ pattern.keyExpressions := by
  simp only [mem_keyExpressions_iff, IsKeyExpressionOf, List.mem_singleton, exists_eq_left]
  constructor
  · rintro ⟨⟨pattern, known, starts⟩, ends⟩
    exact ⟨pattern, known, starts, ends⟩
  · rintro ⟨pattern, known, starts, ends⟩
    exact ⟨⟨pattern, known, starts⟩, ends⟩

/-- The first pattern that starts with a part is still the first when patterns follow. -/
theorem firstStart_append_of_start {patterns others : List Path} {part pattern : Path}
    (known : pattern ∈ patterns) (starts : part.segments <+: pattern.segments) :
    firstStart patterns part < patterns.length ∧
      firstStart (patterns ++ others) part = firstStart patterns part := by
  have inside : firstStart patterns part < patterns.length :=
    List.findIdx_lt_length.2 ⟨pattern, known, by simpa using starts⟩
  refine ⟨inside, ?_⟩
  unfold firstStart at inside ⊢
  rw [List.findIdx_append, if_pos inside]

/-- A pattern is the first to start with a part when none in front of it does. -/
theorem firstStart_append_singleton {patterns : List Path} {part pattern : Path}
    (none : ∀ other ∈ patterns, ¬ part.segments <+: other.segments)
    (starts : part.segments <+: pattern.segments) :
    firstStart (patterns ++ [pattern]) part = patterns.length := by
  have outside : ¬ firstStart patterns part < patterns.length := by
    intro inside
    obtain ⟨other, known, found⟩ := List.findIdx_lt_length.1 inside
    exact none other known (by simpa using found)
  unfold firstStart at outside ⊢
  have here : [pattern].findIdx (fun other => decide (part.segments <+: other.segments)) = 0 := by
    rw [List.findIdx_cons]
    simp [starts]
  rw [List.findIdx_append, if_neg outside, here, Nat.zero_add]

end Path

namespace Policy

/-- The key expressions that are listed for some patterns. -/
def keyPatternsIn (patterns : List Path) : List Path :=
  distinctPaths (patterns.flatMap Path.keyExpressions)

/-- A policy lists the key expressions of its patterns. -/
theorem keyPatterns_eq (policy : Policy) : policy.keyPatterns = keyPatternsIn policy.matchByKey :=
  rfl

/-- Paths of which no two are written alike are added to known ones unless one of these is
written alike. -/
theorem foldl_distinct {known paths : List Path}
    (apart : paths.Pairwise fun first second => first.text ≠ second.text) :
    paths.foldl (fun known path => if known.any path.sameText then known else known ++ [path])
        known =
      known ++ paths.filter fun path => !known.any path.sameText := by
  induction paths generalizing known with
  | nil => simp
  | cons first paths ih =>
    obtain ⟨fromFirst, apart⟩ := List.pairwise_cons.1 apart
    rw [List.foldl_cons, ih apart]
    by_cases repeated : known.any first.sameText = true
    · rw [if_pos repeated, List.filter_cons_of_neg (by simp [repeated])]
    · rw [if_neg repeated, List.filter_cons_of_pos (by simpa using repeated), List.append_assoc,
        List.singleton_append]
      congr 2
      apply List.filter_congr
      intro path member
      have notFirst : path.sameText first = false := by
        simpa [Path.sameText] using (fromFirst path member).symm
      rw [List.any_append, List.any_cons, notFirst, List.any_nil, Bool.or_false, Bool.or_false]

section Listing

variable {patterns : List Path} (legible : ∀ pattern ∈ patterns, pattern.Legible)
include legible

/-- What is listed for patterns that can be read back can be read back. -/
theorem legible_of_mem_keyPatternsIn {part : Path} (member : part ∈ keyPatternsIn patterns) :
    part.Legible := by
  obtain ⟨pattern, known, within⟩ := List.mem_flatMap.1 (mem_of_mem_distinctPaths member)
  exact (legible pattern known).of_start (Path.prefix_of_mem_keyExpressions within)

/-- One more pattern adds its key expressions that are not listed yet. -/
theorem keyPatternsIn_append_singleton {pattern : Path} (legibleToo : pattern.Legible) :
    keyPatternsIn (patterns ++ [pattern]) =
      keyPatternsIn patterns ++
        pattern.keyExpressions.filter fun part => decide (part ∉ keyPatternsIn patterns) := by
  have readable : ∀ part ∈ pattern.keyExpressions, part.Legible := fun part within =>
    legibleToo.of_start (Path.prefix_of_mem_keyExpressions within)
  have apart : pattern.keyExpressions.Pairwise fun first second => first.text ≠ second.text := by
    refine pattern.pairwise_keyExpressions.imp_of_mem ?_
    intro first second member memberToo shorter same
    rw [(readable first member).eq_of_text_eq (readable second memberToo) same] at shorter
    exact Nat.lt_irrefl _ shorter
  have listed : keyPatternsIn (patterns ++ [pattern]) =
      keyPatternsIn patterns ++
        pattern.keyExpressions.filter fun part => !(keyPatternsIn patterns).any part.sameText := by
    rw [keyPatternsIn, List.flatMap_append, List.flatMap_singleton, distinctPaths,
      List.foldl_append, foldl_distinct apart]
    rfl
  rw [listed]
  congr 1
  apply List.filter_congr
  intro part within
  have known : (keyPatternsIn patterns).any part.sameText = true ↔
      part ∈ keyPatternsIn patterns := by
    rw [List.any_eq_true]
    constructor
    · rintro ⟨other, member, same⟩
      have texts : part.text = other.text := by simpa [Path.sameText] using same
      rwa [(readable part within).eq_of_text_eq (legible_of_mem_keyPatternsIn legible member) texts]
    · intro member
      exact ⟨part, member, by simp [Path.sameText]⟩
  by_cases member : part ∈ keyPatternsIn patterns
  · rw [known.2 member]
    simp [member]
  · rw [Bool.eq_false_iff.2 (mt known.1 member)]
    simp [member]

end Listing

/-- Listed are the key expressions of the patterns, and nothing else. By induction on the
patterns from the last one. -/
theorem mem_keyPatternsIn_iff {patterns : List Path}
    (legible : ∀ pattern ∈ patterns, pattern.Legible) {part : Path} :
    part ∈ keyPatternsIn patterns ↔ part.IsKeyExpressionOf patterns := by
  rw [Path.isKeyExpressionOf_iff]
  induction patterns using List.reverseRecOn with
  | nil => simp [keyPatternsIn, distinctPaths]
  | append_singleton patterns pattern ih =>
    have others : ∀ other ∈ patterns, other.Legible := fun other member =>
      legible other (List.mem_append_left _ member)
    have last : pattern.Legible :=
      legible pattern (List.mem_append_right _ (List.mem_singleton_self pattern))
    rw [keyPatternsIn_append_singleton others last, List.mem_append, List.mem_filter,
      decide_eq_true_eq, ih others]
    simp only [List.mem_append, List.mem_singleton, or_and_right, exists_or, exists_eq_left]
    by_cases listed : ∃ other ∈ patterns, part ∈ other.keyExpressions
    · simp only [listed, true_or]
    · simp only [listed, not_false_eq_true, and_true, false_or]

/-- The list is in the order of first occurrence. By induction on the patterns from the last
one: what one more pattern adds occurs in none of those in front of it. -/
theorem pairwise_keyPatternsIn {patterns : List Path}
    (legible : ∀ pattern ∈ patterns, pattern.Legible) :
    (keyPatternsIn patterns).Pairwise (Path.OccursBefore patterns) := by
  induction patterns using List.reverseRecOn with
  | nil => exact List.Pairwise.nil
  | append_singleton patterns pattern ih =>
    have others : ∀ other ∈ patterns, other.Legible := fun other member =>
      legible other (List.mem_append_left _ member)
    have last : pattern.Legible :=
      legible pattern (List.mem_append_right _ (List.mem_singleton_self pattern))
    have earlier : ∀ part ∈ keyPatternsIn patterns,
        Path.firstStart patterns part < patterns.length ∧
          Path.firstStart (patterns ++ [pattern]) part = Path.firstStart patterns part := by
      intro part member
      obtain ⟨⟨start, known, starts⟩, -⟩ := (mem_keyPatternsIn_iff others).1 member
      exact Path.firstStart_append_of_start known starts
    have later : ∀ part ∈ pattern.keyExpressions, part ∉ keyPatternsIn patterns →
        Path.firstStart (patterns ++ [pattern]) part = patterns.length := by
      intro part within fresh
      obtain ⟨-, ends⟩ := Path.mem_keyExpressions_iff.1 within
      apply Path.firstStart_append_singleton _ (Path.prefix_of_mem_keyExpressions within)
      intro other known starts
      exact fresh ((mem_keyPatternsIn_iff others).2 ⟨⟨other, known, starts⟩, ends⟩)
    rw [keyPatternsIn_append_singleton others last, List.pairwise_append]
    refine ⟨?_, ?_, ?_⟩
    · refine (ih others).imp_of_mem ?_
      intro first second member memberToo before
      rw [Path.OccursBefore, (earlier first member).2, (earlier second memberToo).2]
      exact before
    · refine (pattern.pairwise_keyExpressions.filter _).imp_of_mem ?_
      intro first second member memberToo shorter
      obtain ⟨within, fresh⟩ := List.mem_filter.1 member
      obtain ⟨withinToo, freshToo⟩ := List.mem_filter.1 memberToo
      refine .inr ⟨?_, shorter⟩
      rw [later first within (by simpa using fresh),
        later second withinToo (by simpa using freshToo)]
    · intro first member second memberToo
      obtain ⟨withinToo, freshToo⟩ := List.mem_filter.1 memberToo
      refine .inl ?_
      rw [(earlier first member).2, later second withinToo (by simpa using freshToo)]
      exact (earlier first member).1

/-- A start of a pattern that stands further in front adds nothing, whatever follows. By
induction on what follows, from the last pattern. -/
theorem keyPatternsIn_insert {before after : List Path} {pattern start : Path}
    (legible : ∀ other ∈ before ++ after, other.Legible) (known : pattern ∈ before)
    (starts : start.segments <+: pattern.segments) :
    keyPatternsIn (before ++ start :: after) = keyPatternsIn (before ++ after) := by
  have startLegible : start.Legible :=
    (legible pattern (List.mem_append_left _ known)).of_start starts
  induction after using List.reverseRecOn with
  | nil =>
    rw [List.append_nil] at legible ⊢
    rw [keyPatternsIn_append_singleton legible startLegible, List.append_right_eq_self,
      List.filter_eq_nil_iff]
    intro part within
    have listed : part ∈ keyPatternsIn before := by
      obtain ⟨-, ends⟩ := Path.mem_keyExpressions_iff.1 within
      rw [mem_keyPatternsIn_iff legible]
      exact ⟨⟨pattern, known, (Path.prefix_of_mem_keyExpressions within).trans starts⟩, ends⟩
    simpa using listed
  | append_singleton after last ih =>
    rw [← List.append_assoc] at legible
    have others : ∀ other ∈ before ++ after, other.Legible := fun other member =>
      legible other (List.mem_append_left _ member)
    have lastLegible : last.Legible :=
      legible last (List.mem_append_right _ (List.mem_singleton_self last))
    have withStart : ∀ other ∈ before ++ start :: after, other.Legible := by
      intro other member
      rcases List.mem_append.1 member with inFront | behind
      · exact others other (List.mem_append_left _ inFront)
      · rcases List.mem_cons.1 behind with rfl | behind
        · exact startLegible
        · exact others other (List.mem_append_right _ behind)
    rw [← List.cons_append, ← List.append_assoc, ← List.append_assoc,
      keyPatternsIn_append_singleton withStart lastLegible,
      keyPatternsIn_append_singleton others lastLegible, ih others]

/-- A key expression of a policy applies at a path. -/
def Applies (policy : Policy) (place part : Path) : Prop :=
  part.IsKeyExpressionOf policy.matchByKey ∧ part.appliesAt place = true

/-- The key expressions of a policy are those of its patterns, each once, in the order in which
they first occur in the patterns. -/
structure ListsKeyExpressions (policy : Policy) : Prop where
  mem_iff : ∀ part, part ∈ policy.keyPatterns ↔ part.IsKeyExpressionOf policy.matchByKey
  distinct : (policy.keyPatterns.map Path.text).Nodup
  inOrder : policy.keyPatterns.Pairwise (Path.OccursBefore policy.matchByKey)

/-- The key expressions that apply at a path decide on its key: without one there is no key, a
single one gives its own, and if there are more, all of them are named in the order of the
list. -/
structure DecidesKey (policy : Policy) (place : Path) : Prop where
  none_iff : policy.keyFor place = .ok none ↔ ∀ part, ¬ policy.Applies place part
  some_iff : ∀ key, policy.keyFor place = .ok (some key) ↔
    ∃ part, policy.Applies place part ∧ part.lastSegment? = some (.keyExpression key) ∧
      ∀ other, policy.Applies place other → other = part
  error_iff : ∀ failure, policy.keyFor place = .error failure ↔
    failure = ⟨place, policy.keyPatterns.filter (·.appliesAt place)⟩ ∧
      ∃ part other, part ≠ other ∧ policy.Applies place part ∧ policy.Applies place other

section Resolution

variable {policy : Policy} (legible : ∀ pattern ∈ policy.matchByKey, pattern.Legible)
include legible

/-- The key expressions are listed in order. -/
theorem listsKeyExpressions : policy.ListsKeyExpressions := by
  have inOrder := pairwise_keyPatternsIn legible
  refine ⟨fun part => mem_keyPatternsIn_iff legible, ?_, inOrder⟩
  rw [List.Nodup, List.pairwise_map]
  refine inOrder.imp_of_mem ?_
  intro first second member memberToo before same
  have one := (legible_of_mem_keyPatternsIn legible member).eq_of_text_eq
    (legible_of_mem_keyPatternsIn legible memberToo) same
  rw [one] at before
  rcases before with earlier | ⟨-, shorter⟩
  · exact Nat.lt_irrefl _ earlier
  · exact Nat.lt_irrefl _ shorter

/-- The patterns that are asked for the key at a path are the key expressions that apply
there. -/
theorem mem_keyPatternsFor_iff {place part : Path} :
    part ∈ policy.keyPatternsFor place ↔ policy.Applies place part := by
  rw [keyPatternsFor, List.mem_filter, (listsKeyExpressions legible).mem_iff]
  rfl

/-- No pattern is asked twice. -/
theorem nodup_keyPatternsFor (place : Path) : (policy.keyPatternsFor place).Nodup :=
  ((listsKeyExpressions legible).distinct.of_map).filter _

/-- The key for a path is decided by how many key expressions apply there. -/
theorem decidesKey (place : Path) : policy.DecidesKey place := by
  have applies_iff : ∀ part, policy.Applies place part ↔ part ∈ policy.keyPatternsFor place :=
    fun part => (mem_keyPatternsFor_iff legible).symm
  have named : policy.keyPatternsFor place = policy.keyPatterns.filter (·.appliesAt place) := rfl
  have distinct := nodup_keyPatternsFor legible place
  rcases applying : policy.keyPatternsFor place with _ | ⟨part, _ | ⟨other, rest⟩⟩
  · have resolved : policy.keyFor place = .ok none := by simp only [keyFor, applying]
    have nothing : ∀ part, ¬ policy.Applies place part := by simp [applies_iff, applying]
    exact ⟨by simp [resolved, nothing], by simp [resolved, nothing], by simp [resolved, nothing]⟩
  · have only : ∀ other, policy.Applies place other ↔ other = part := by
      simp [applies_iff, applying]
    obtain ⟨key, ends⟩ := ((only part).2 rfl).1.2
    have resolved : policy.keyFor place = .ok (some key) := by
      simp only [keyFor, applying, ends]
      rfl
    refine ⟨by simp [resolved, only], fun name => ?_, fun failure => ?_⟩
    · simp [resolved, only, ends]
    · simp [resolved, only]
  · have resolved : policy.keyFor place = .error ⟨place, part :: other :: rest⟩ := by
      simp only [keyFor, applying]
    rw [applying] at distinct named
    have apart : part ≠ other := by
      rintro rfl
      exact (List.nodup_cons.1 distinct).1 List.mem_cons_self
    have first : policy.Applies place part := by simp [applies_iff, applying]
    have second : policy.Applies place other := by simp [applies_iff, applying]
    refine ⟨?_, fun name => ?_, fun failure => ?_⟩
    · simp only [resolved, reduceCtorEq, false_iff, not_forall, not_not]
      exact ⟨part, first⟩
    · simp only [resolved, reduceCtorEq, false_iff]
      rintro ⟨single, -, -, only⟩
      exact apart ((only part first).trans (only other second).symm)
    · rw [resolved, ← named, Except.error.injEq]
      constructor
      · rintro rfl
        exact ⟨rfl, part, other, apart, first, second⟩
      · rintro ⟨rfl, -⟩
        rfl

/-- Policies with the same key expressions find the same keys. -/
theorem keyFor_eq_ok_congr {other : Policy}
    (legibleToo : ∀ pattern ∈ other.matchByKey, pattern.Legible)
    (same : ∀ part : Path,
      part.IsKeyExpressionOf other.matchByKey ↔ part.IsKeyExpressionOf policy.matchByKey)
    (place : Path) (key : Option String) :
    other.keyFor place = .ok key ↔ policy.keyFor place = .ok key := by
  have applies : ∀ part, other.Applies place part ↔ policy.Applies place part := by
    intro part
    rw [Applies, Applies, same]
  cases key with
  | none =>
    rw [(decidesKey legible place).none_iff, (decidesKey legibleToo place).none_iff]
    simp only [applies]
  | some key =>
    rw [(decidesKey legible place).some_iff, (decidesKey legibleToo place).some_iff]
    simp only [applies]

end Resolution

end Policy

/-- The written forms of patterns that can be read back are settings for the patterns. -/
theorem Setting.patternsOfAll_map_text (flag : String) {patterns : List Path}
    (legible : ∀ pattern ∈ patterns, pattern.Legible) :
    Setting.patternsOfAll flag (patterns.map fun pattern => .text pattern.text) = .ok patterns := by
  induction patterns with
  | nil => rfl
  | cons pattern patterns ih =>
    have here : Setting.patterns flag (.text pattern.text) = .ok [pattern] := by
      rw [Setting.patterns, Setting.readPattern,
        Path.read_text (legible pattern List.mem_cons_self)]
      rfl
    have others := ih fun other member => legible other (List.mem_cons_of_mem _ member)
    rw [List.map_cons, Setting.patternsOfAll, here, others]
    rfl

/-- Other patterns for matching by key make a policy as well when they can be read back. -/
theorem Draft.build_withPatterns {draft : Draft} {policy : Policy}
    (built : draft.build = .ok policy) {patterns : List Path}
    (legible : ∀ pattern ∈ patterns, pattern.Legible) :
    Draft.build { draft with matchByKey := patterns.map fun pattern => .text pattern.text } =
      .ok { policy with matchByKey := patterns } :=
  build_eq_ok_iff.2
    { build_eq_ok_iff.1 built with matchByKey := Setting.patternsOfAll_map_text _ legible }

namespace Policy

/-- The key for a path depends on nothing but the key expressions in the patterns for matching
by key. The policy lists these, each once, in the order of first occurrence, and those of them
that apply at the path decide. So one more pattern makes no difference, at no path, when one
further in front starts with it; and patterns in another order find the same keys. Both are
patterns of a policy again. -/
theorem keyFor_by_key_expressions {draft : Draft} {policy : Policy}
    (built : draft.build = .ok policy) :
    policy.ListsKeyExpressions ∧ (∀ place, policy.DecidesKey place) ∧
    (∀ before after pattern start, policy.matchByKey = before ++ after → pattern ∈ before →
      start.segments <+: pattern.segments →
      ∃ (longer : Draft) (other : Policy), longer.build = .ok other ∧
        other = { policy with matchByKey := before ++ start :: after } ∧
        ∀ place, other.keyFor place = policy.keyFor place) ∧
    ∀ patterns, patterns.Perm policy.matchByKey →
      ∃ (reordered : Draft) (other : Policy), reordered.build = .ok other ∧
        other = { policy with matchByKey := patterns } ∧
        ∀ place key, other.keyFor place = .ok key ↔ policy.keyFor place = .ok key := by
  have legible := Draft.legible_of_mem_matchByKey built
  refine ⟨listsKeyExpressions legible, decidesKey legible, ?_, ?_⟩
  · intro before after pattern start whole known starts
    rw [whole] at legible
    have longerLegible : ∀ other ∈ before ++ start :: after, other.Legible := by
      intro other member
      rcases List.mem_append.1 member with inFront | behind
      · exact legible other (List.mem_append_left _ inFront)
      · rcases List.mem_cons.1 behind with rfl | behind
        · exact (legible pattern (List.mem_append_left _ known)).of_start starts
        · exact legible other (List.mem_append_right _ behind)
    refine ⟨_, _, Draft.build_withPatterns built longerLegible, rfl, fun place => ?_⟩
    have listed := keyPatternsIn_insert legible known starts
    simp only [keyFor, keyPatternsFor, keyPatterns_eq, listed, whole]
  · intro patterns reordered
    have reorderedLegible : ∀ pattern ∈ patterns, pattern.Legible :=
      fun pattern member => legible pattern (reordered.mem_iff.1 member)
    refine ⟨_, _, Draft.build_withPatterns built reorderedLegible, rfl, ?_⟩
    apply keyFor_eq_ok_congr legible
    · exact reorderedLegible
    · intro part
      simp only [Path.IsKeyExpressionOf, reordered.mem_iff]

/-- Parts of things by their name, and parts of anything by their kind. -/
def partsTwice : Policy :=
  { default with
    matchByKey := [⟨[.keyExpression "id", .plain "parts", .keyExpression "name"]⟩,
      ⟨[.wildcard, .plain "parts", .keyExpression "kind"]⟩] }

/-- Two patterns with three key expressions: each of these decides somewhere, and two of them
meet at the parts of a thing, where both are named in the order of the list. A start of the
first pattern behind it makes no difference there, and the other order finds the same key at
the root. -/
theorem keyFor_by_key_expressions_overlapping :
    Draft.build { Draft.empty with
      matchByKey := [.text "/:id/parts/:name", .text "/*/parts/:kind"] } = .ok partsTwice ∧
    partsTwice.keyPatterns.map Path.text = ["/:id", "/:id/parts/:name", "/*/parts/:kind"] ∧
    partsTwice.ListsKeyExpressions ∧
    (∃ part, partsTwice.Applies .root part ∧ part.text = "/:id" ∧
      ∀ other, partsTwice.Applies .root other → other = part) ∧
    partsTwice.keyFor ⟨[.plain "x", .plain "parts"]⟩ = .ok (some "kind") ∧
    (∃ failure, partsTwice.keyFor ⟨[.keyValue "id" "7", .plain "parts"]⟩ = .error failure ∧
      failure.patterns.map Path.text = ["/:id/parts/:name", "/*/parts/:kind"] ∧
      ∃ longer other, Draft.build longer = .ok other ∧ other.matchByKey.length = 3 ∧
        other.keyFor ⟨[.keyValue "id" "7", .plain "parts"]⟩ = .error failure) ∧
    ∃ reordered other, Draft.build reordered = .ok other ∧
      other.matchByKey = partsTwice.matchByKey.reverse ∧
      other.keyFor .root = .ok (some "id") := by
  have made : Draft.build { Draft.empty with
      matchByKey := [.text "/:id/parts/:name", .text "/*/parts/:kind"] } = .ok partsTwice := by
    cbv
  have atRoot : partsTwice.keyFor .root = .ok (some "id") := by cbv
  have atParts : partsTwice.keyFor ⟨[.keyValue "id" "7", .plain "parts"]⟩ = .error
      ⟨⟨[.keyValue "id" "7", .plain "parts"]⟩,
        [⟨[.keyExpression "id", .plain "parts", .keyExpression "name"]⟩,
          ⟨[.wildcard, .plain "parts", .keyExpression "kind"]⟩]⟩ := by
    cbv
  have starts : [Segment.keyExpression "id"] <+:
      [.keyExpression "id", .plain "parts", .keyExpression "name"] :=
    ⟨[.plain "parts", .keyExpression "name"], rfl⟩
  obtain ⟨lists, decides, inserted, reordered⟩ := keyFor_by_key_expressions made
  obtain ⟨part, applies, ends, only⟩ := ((decides .root).some_iff "id").1 atRoot
  obtain ⟨longer, other, build, rfl, alike⟩ := inserted partsTwice.matchByKey []
    ⟨[.keyExpression "id", .plain "parts", .keyExpression "name"]⟩ ⟨[.keyExpression "id"]⟩
    (List.append_nil _).symm List.mem_cons_self starts
  obtain ⟨backwards, reversed, buildToo, rfl, found⟩ :=
    reordered partsTwice.matchByKey.reverse (List.reverse_perm _)
  have first : partsTwice.Applies .root ⟨[.keyExpression "id"]⟩ :=
    ⟨⟨⟨_, List.mem_cons_self, starts⟩, "id", rfl⟩, by cbv⟩
  refine ⟨made, by cbv, lists, ⟨part, applies, ?_, only⟩, by cbv, ⟨_, atParts, by cbv, ?_⟩, ?_⟩
  · rw [← only _ first]
    rfl
  · exact ⟨longer, _, build, rfl, (alike _).trans atParts⟩
  · exact ⟨backwards, _, buildToo, rfl, (found .root (some "id")).2 atRoot⟩

end Policy

end StructuralDiff
