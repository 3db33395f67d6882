import Mathlib
import StructuralDiff.Proofs.Legible

/-!
# The text of a built path

A path is read from a text or reached from another path by steps (`Path.Built`). Every
segment of such a path can be read back by itself, but a step may bring a separator in its
name, which the text of the whole path does not tell from the separators between names.
The text leads back to the path exactly when no name holds one
(`read_text_iff_separatorFree`).
-/

namespace StructuralDiff

namespace Path

/-- A path that was read from a text, or reached by steps from one that was. -/
inductive Built : Path → Prop where
  | read {text path} (given : Path.read text = .ok path) : Built path
  | join {path child token} (above : Built path) (joined : path.join token = .ok child) :
      Built child

/-- No name in the path holds a separator. -/
def SeparatorFree (path : Path) : Prop :=
  ∀ segment ∈ path.segments, '/' ∉ segment.text.toList

theorem root_built : root.Built := .read (read_text root_legible)

/-- The built paths are those whose segments can be read back: each of them is a step of
its own. By induction on how the path was built, and on its segments from the last one. -/
theorem built_iff {path : Path} : path.Built ↔ ∀ segment ∈ path.segments, segment.Legible := by
  constructor
  · intro built
    induction built with
    | read given => exact fun segment member => (legible_of_read given segment member).1
    | join above joined ih =>
      obtain ⟨segment, given, rfl⟩ := join_eq_ok_iff.1 joined
      intro other member
      rcases List.mem_append.1 member with old | new
      · exact ih other old
      · rw [List.mem_singleton.1 new]
        exact Segment.legible_of_read given
  · obtain ⟨segments⟩ := path
    intro legible
    induction segments using List.reverseRecOn with
    | nil => exact root_built
    | append_singleton segments segment ih =>
      have above : Built ⟨segments⟩ := by
        apply ih
        intro other member
        exact legible other (List.mem_append_left _ member)
      have last : segment.Legible :=
        legible segment (List.mem_append_right _ (List.mem_singleton_self segment))
      exact above.join (join_eq_ok_iff.2 ⟨segment, last, rfl⟩)

/-- A path can be read back when it was built and no name in it holds a separator. -/
theorem legible_iff {path : Path} : path.Legible ↔ path.Built ∧ path.SeparatorFree := by
  rw [built_iff]
  constructor
  · intro legible
    exact ⟨fun segment member => (legible segment member).1,
      fun segment member => (legible segment member).2⟩
  · rintro ⟨readable, separatorFree⟩ segment member
    exact ⟨readable segment member, separatorFree segment member⟩

/-- The text of a built path is read as the path itself exactly when no name in the path
holds a separator. It always is for a path that was read, so that paths that were read have
one text exactly when they have the same segments. -/
theorem read_text_iff_separatorFree :
    (∀ path : Path, path.Built → (read path.text = .ok path ↔ path.SeparatorFree)) ∧
    (∀ written path, read written = .ok path → read path.text = .ok path) ∧
    ∀ written writtenToo path other, read written = .ok path → read writtenToo = .ok other →
      (path.sameText other = true ↔ path.segments = other.segments) := by
  refine ⟨fun path built => ?_, fun written path given => ?_, ?_⟩
  · constructor
    · intro readBack
      exact (legible_iff.1 (legible_of_read readBack)).2
    · intro separatorFree
      exact read_text (legible_iff.2 ⟨built, separatorFree⟩)
  · exact read_text (legible_of_read given)
  · intro written writtenToo path other given givenToo
    constructor
    · intro same
      have texts : path.text = other.text := by simpa [sameText] using same
      rw [(legible_of_read given).eq_of_text_eq (legible_of_read givenToo) texts]
    · intro segments
      simp [sameText, text, segments]

/-- Of two steps below a path that was read, one brings a separator in its name, and the
text of the path reads as a longer one; the other does not. Blanks and separators at the
ends of a text make no difference. -/
theorem read_text_iff_separatorFree_twoSteps :
    ∃ above respelled divided longer whole,
      read " /list/id=7" = .ok above ∧ read "list/ id=7 //" = .ok respelled ∧
      above.sameText respelled = true ∧
      above.join "a/b" = .ok divided ∧ ¬ divided.SeparatorFree ∧
      read divided.text = .ok longer ∧ longer.segments ≠ divided.segments ∧
      read longer.text = .ok longer ∧
      above.join " a:b " = .ok whole ∧ read whole.text = .ok whole := by
  have aboveRead : read " /list/id=7" = .ok ⟨[.plain "list", .keyValue "id" "7"]⟩ := by cbv
  have respelledRead : read "list/ id=7 //" = .ok ⟨[.plain "list", .keyValue "id" "7"]⟩ := by cbv
  have dividing : join ⟨[.plain "list", .keyValue "id" "7"]⟩ "a/b" =
      .ok ⟨[.plain "list", .keyValue "id" "7", .plain "a/b"]⟩ := by cbv
  have longerRead : read (text ⟨[.plain "list", .keyValue "id" "7", .plain "a/b"]⟩) =
      .ok ⟨[.plain "list", .keyValue "id" "7", .plain "a", .plain "b"]⟩ := by cbv
  have keeping : join ⟨[.plain "list", .keyValue "id" "7"]⟩ " a:b " =
      .ok ⟨[.plain "list", .keyValue "id" "7", .plain "a:b"]⟩ := by cbv
  obtain ⟨leadsBack, readAgain, told⟩ := read_text_iff_separatorFree
  refine ⟨_, _, _, _, _, aboveRead, respelledRead, (told _ _ _ _ aboveRead respelledRead).2 rfl,
    dividing, ?_, longerRead, by decide, readAgain _ _ longerRead, keeping, ?_⟩
  · rw [← leadsBack _ ((Built.read aboveRead).join dividing), longerRead]
    simp
  · rw [leadsBack _ ((Built.read aboveRead).join keeping)]
    simp [SeparatorFree, Segment.text]

end Path

end StructuralDiff
