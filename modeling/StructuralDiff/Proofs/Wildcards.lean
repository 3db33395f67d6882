import Mathlib
import StructuralDiff.Proofs.KeySegments

/-!
# Patterns with a wildcard in the place of a segment

A wildcard matches whatever the segment in its place matched, so a pattern that matches a path
segment by segment still does with a wildcard in the place of any of its segments. A pattern
also matches the path that is written as itself, and there two key expressions, or two pairs of
key and value, match as parts of one text only. A wildcard among them changes the text, and the
segments that go by a key match no longer (`Path.accepts_withWildcard_iff`).
-/

namespace StructuralDiff

namespace Segment

/-- Patterns match as many segments as they are, each the one in its place. -/
theorem acceptEach_iff_getElem? {patterns segments : List Segment} :
    AcceptEach patterns segments ↔ patterns.length = segments.length ∧
      ∀ (place : Nat) (pattern segment : Segment), patterns[place]? = some pattern →
        segments[place]? = some segment → pattern.accepts segment = true := by
  rw [AcceptEach, List.forall₂_iff_get]
  refine and_congr_right fun _ => ⟨fun each place pattern segment held heldToo => ?_,
    fun each place inside insideToo => ?_⟩
  · obtain ⟨inside, rfl⟩ := List.getElem?_eq_some_iff.1 held
    obtain ⟨insideToo, rfl⟩ := List.getElem?_eq_some_iff.1 heldToo
    exact each place inside insideToo
  · exact each place _ _ (List.getElem?_eq_getElem inside) (List.getElem?_eq_getElem insideToo)

/-- With a wildcard in one place, patterns match as many segments as they are when they match
those in all other places. -/
theorem acceptEach_set_wildcard_iff {patterns segments : List Segment} {index : Nat}
    (inside : index < patterns.length) :
    AcceptEach (patterns.set index .wildcard) segments ↔ patterns.length = segments.length ∧
      ∀ (place : Nat) (pattern segment : Segment), place ≠ index →
        patterns[place]? = some pattern → segments[place]? = some segment →
        pattern.accepts segment = true := by
  rw [acceptEach_iff_getElem?, List.length_set]
  refine and_congr_right fun _ => forall_congr' fun place => ?_
  by_cases here : place = index
  · subst here
    refine iff_of_true (fun pattern segment held _ => ?_) fun _ _ apart => absurd rfl apart
    rw [List.getElem?_set_self inside] at held
    cases held
    rfl
  · have elsewhere : (patterns.set index .wildcard)[place]? = patterns[place]? :=
      List.getElem?_set_ne (Ne.symm here)
    simp [elsewhere, here]

/-- With a wildcard in one place, patterns match what they matched without it. -/
theorem AcceptEach.set_wildcard {patterns segments : List Segment}
    (each : AcceptEach patterns segments) {index : Nat} (inside : index < patterns.length) :
    AcceptEach (patterns.set index .wildcard) segments := by
  obtain ⟨alike, match_each⟩ := acceptEach_iff_getElem?.1 each
  exact (acceptEach_set_wildcard_iff inside).2
    ⟨alike, fun place pattern segment _ => match_each place pattern segment⟩

/-- With a wildcard in one place, segments match themselves when none in another place goes by
a key. -/
theorem acceptEach_set_wildcard_self_iff {segments : List Segment} {index : Nat}
    (inside : index < segments.length) :
    AcceptEach (segments.set index .wildcard) segments ↔
      ∀ (place : Nat) (segment : Segment), place ≠ index → segments[place]? = some segment →
        segment.key? = none := by
  rw [acceptEach_set_wildcard_iff inside]
  constructor
  · rintro ⟨-, each⟩ place segment elsewhere held
    exact accepts_self_iff.1 (each place segment segment elsewhere held held)
  · intro keyless
    refine ⟨rfl, fun place pattern segment elsewhere held heldToo => ?_⟩
    cases held.symm.trans heldToo
    exact accepts_self_iff.2 (keyless place pattern elsewhere held)

end Segment

namespace Path

/-- The path with a wildcard in the place of one segment. -/
def withWildcard (path : Path) (index : Nat) : Path :=
  ⟨path.segments.set index .wildcard⟩

/-- A path that can be read back still can with a wildcard in the place of a segment. -/
theorem Legible.withWildcard {path : Path} (legible : path.Legible) (index : Nat) :
    (path.withWildcard index).Legible := by
  intro segment member
  rcases List.mem_or_eq_of_mem_set member with old | rfl
  · exact legible segment old
  · have readBack : Segment.read "*" = .ok .wildcard := by decide
    exact ⟨readBack, by decide⟩

/-- A path is written as before with a wildcard in the place of a segment only where the segment
was a wildcard. -/
theorem text_withWildcard_eq_iff {path : Path} (legible : path.Legible) {index : Nat}
    (inside : index < path.segments.length) :
    (path.withWildcard index).text = path.text ↔ path.segments[index]? = some .wildcard := by
  constructor
  · intro same
    have whole := (legible.withWildcard index).eq_of_text_eq legible same
    rw [← whole]
    exact List.getElem?_set_self inside
  · intro held
    obtain ⟨_, here⟩ := List.getElem?_eq_some_iff.1 held
    rw [Path.withWildcard, ← here, List.set_getElem_self]

/-- A pattern that matches a path matches it with a wildcard in the place of any of its segments
too, unless the two are one path and another segment of it goes by a key. There the wildcard
keeps the pattern from being written as the path, and a segment that goes by a key matches only
as part of a whole text. -/
theorem accepts_withWildcard_iff {written writtenToo : String} {pattern place : Path}
    (given : read written = .ok pattern) (givenToo : read writtenToo = .ok place)
    (matched : pattern.accepts place = true) {index : Nat}
    (inside : index < pattern.segments.length) :
    (pattern.withWildcard index).accepts place = true ↔
      (pattern.sameText place = true → pattern.segments[index]? = some .wildcard ∨
        ∀ (other : Nat) (segment : Segment), other ≠ index →
          pattern.segments[other]? = some segment → segment.key? = none) := by
  have legible := legible_of_read given
  have legibleToo := legible_of_read givenToo
  by_cases same : pattern.text = place.text
  · obtain rfl := legible.eq_of_text_eq legibleToo same
    have self : pattern.sameText pattern = true := by simp [sameText]
    rw [accepts_iff, text_withWildcard_eq_iff legible inside, Path.withWildcard,
      Segment.acceptEach_set_wildcard_self_iff inside]
    simp only [self, true_implies]
  · have apart : pattern.sameText place = false := by simpa [sameText] using same
    have each := (accepts_iff.1 matched).resolve_left same
    refine iff_of_true ?_ ?_
    · exact accepts_iff.2 (.inr (each.set_wildcard inside))
    · simp [apart]

/-- A key expression matches an item with a wildcard in front of it as well; a path with one
key and value matches itself with a wildcard in their place, and no longer with a wildcard in
the place of the name before them. -/
theorem accepts_withWildcard_iff_keyAndName :
    ∃ pattern place,
      read "/list/:id/v" = .ok pattern ∧ read "/list/id=7/v" = .ok place ∧
      pattern.accepts place = true ∧ (pattern.withWildcard 0).accepts place = true ∧
      place.accepts place = true ∧ (place.withWildcard 1).accepts place = true ∧
      (place.withWildcard 2).accepts place = false := by
  have patternRead : read "/list/:id/v" =
      .ok ⟨[.plain "list", .keyExpression "id", .plain "v"]⟩ := by cbv
  have placeRead : read "/list/id=7/v" =
      .ok ⟨[.plain "list", .keyValue "id" "7", .plain "v"]⟩ := by cbv
  have matched : accepts ⟨[.plain "list", .keyExpression "id", .plain "v"]⟩
      ⟨[.plain "list", .keyValue "id" "7", .plain "v"]⟩ = true := by cbv
  have self : accepts ⟨[.plain "list", .keyValue "id" "7", .plain "v"]⟩
      ⟨[.plain "list", .keyValue "id" "7", .plain "v"]⟩ = true := by cbv
  refine ⟨_, _, patternRead, placeRead, matched, ?_, self, ?_, ?_⟩
  · exact (accepts_withWildcard_iff patternRead placeRead matched (by decide)).2
      fun same => absurd same (by cbv; decide)
  · refine (accepts_withWildcard_iff placeRead placeRead self (by decide)).2 fun _ => .inr ?_
    intro other segment apart held
    rcases other with _ | _ | _ | other
    · cases held
      rfl
    · exact absurd rfl apart
    · cases held
      rfl
    · cases held
  · have inside : 2 < [Segment.plain "list", .keyValue "id" "7", .plain "v"].length := by decide
    have told := accepts_withWildcard_iff placeRead placeRead self inside
    rw [Bool.eq_false_iff, ne_eq, told]
    intro loosened
    rcases loosened (by cbv) with already | keyless
    · cases already
    · cases keyless 1 _ (by decide) rfl

/-- A path with two keys and values matches itself, and with a wildcard in the place of the
first of them it does not match the path any more. -/
theorem wildcard_forfeits_match :
    ∃ pattern general,
      read "/a=1/b=2" = .ok pattern ∧ pattern.accepts pattern = true ∧
      read "/*/b=2" = .ok general ∧ general = pattern.withWildcard 0 ∧
      general.accepts pattern = false :=
  ⟨⟨[.keyValue "a" "1", .keyValue "b" "2"]⟩, ⟨[.wildcard, .keyValue "b" "2"]⟩, by cbv, by cbv,
    by cbv, rfl, by cbv⟩

end Path

end StructuralDiff
