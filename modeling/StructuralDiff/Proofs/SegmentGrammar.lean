import Mathlib
import StructuralDiff.Proofs.Legible

/-!
# The grammar of segments

A token stands for a segment when what trimming leaves of it is grammatical: something, in
one word, and no colon that starts anything but a key (`Segment.Grammatical`). Whichever of
the four kinds the segment has, its written form is the trimmed token, so the segment can
be read again and tells the token up to the blanks around it
(`read_iff_grammatical`).
-/

namespace StructuralDiff

namespace Segment

/-- The names that stand for a segment. Only a leading colon asks for more than a word
without blanks: what follows it is a key, which is not empty and holds no further colon.
Equals signs and stars may stand anywhere. -/
structure Grammatical (name : String) : Prop where
  some : name.toList ≠ []
  clear : ∀ char ∈ name.toList, Text.isBlank char = false
  keyed : ∀ key, name.toList = ':' :: key → key ≠ [] ∧ ':' ∉ key

/-- Characters are classified exactly when they are a grammatical name. -/
theorem exists_classify_iff {name : String} :
    (∃ segment, classify name.toList = .ok segment) ↔ Grammatical name := by
  constructor
  · rintro ⟨segment, classified⟩
    obtain ⟨some, clear, -⟩ := facts_of_classify classified
    refine ⟨some, clear, fun key colon => ?_⟩
    unfold classify at classified
    rw [colon] at classified some clear
    have noBlank : (':' :: key).any Text.isBlank = false := by simpa using clear
    simp only [List.isEmpty_cons, noBlank, Bool.false_eq_true, if_false] at classified
    split at classified
    · cases classified
    · rename_i isKey
      simpa using isKey
  · intro grammatical
    have some : name.toList.isEmpty = false := List.isEmpty_eq_false_iff.2 grammatical.some
    have noBlank : name.toList.any Text.isBlank = false := by simpa using grammatical.clear
    simp only [classify, some, noBlank, Bool.false_eq_true, if_false]
    split
    · exact ⟨_, rfl⟩
    · rename_i key colon
      have isKey := grammatical.keyed key colon
      rw [if_neg (by simpa using isKey)]
      exact ⟨_, rfl⟩
    · exact ⟨_, rfl⟩

/-- The written form of a segment is the trimmed token, as a text. -/
theorem text_of_read {token : String} {segment : Segment} (given : read token = .ok segment) :
    segment.text = Text.trim token := by
  rw [Text.trim, ← toList_text_of_read given, String.ofList_toList]

/-- Segments that were read are told by their written forms. -/
theorem eq_of_text_eq {token tokenToo : String} {segment other : Segment}
    (given : read token = .ok segment) (givenToo : read tokenToo = .ok other)
    (same : segment.text = other.text) : segment = other := by
  have readAgain : read segment.text = .ok segment := legible_of_read given
  have readAgainToo : read other.text = .ok other := legible_of_read givenToo
  rw [same, readAgainToo] at readAgain
  exact (Except.ok.inj readAgain).symm

/-- A token is read exactly when what trimming leaves of it is grammatical. The segment's
written form is the trimmed token and is read as the segment again, so two tokens are read as
one segment exactly when they are the same after trimming. -/
theorem read_iff_grammatical :
    (∀ token, (∃ segment, read token = .ok segment) ↔ Grammatical (Text.trim token)) ∧
    (∀ token segment, read token = .ok segment →
      segment.text = Text.trim token ∧ read segment.text = .ok segment) ∧
    ∀ token tokenToo segment other, read token = .ok segment → read tokenToo = .ok other →
      (segment = other ↔ Text.trim token = Text.trim tokenToo) := by
  refine ⟨fun token => ?_, fun token segment given => ?_, ?_⟩
  · rw [← exists_classify_iff, Text.trim, String.toList_ofList]
    rfl
  · exact ⟨text_of_read given, legible_of_read given⟩
  · intro token tokenToo segment other given givenToo
    rw [← text_of_read given, ← text_of_read givenToo]
    constructor
    · intro same
      rw [same]
    · exact eq_of_text_eq given givenToo

/-- Where colons, equals signs and stars stand decides the kind of a segment, and blanks around
a token do not: two tokens for one key, and two for a name with the same characters in another
order. A second colon in the key is not grammatical. -/
theorem read_iff_grammatical_awkwardTokens :
    ∃ segment other name pair,
      read "\u00a0:=a*\t" = .ok segment ∧ read "\n:=a*" = .ok other ∧ segment = other ∧
      read segment.text = .ok segment ∧
      read "=:a* " = .ok name ∧ name.text = "=:a*" ∧ segment ≠ name ∧
      read ":a=:*" = .error .malformedKey ∧ ¬ Grammatical (Text.trim ":a=:*") ∧
      read "*=:a:" = .ok pair ∧ pair.text = "*=:a:" := by
  have given : read "\u00a0:=a*\t" = .ok (.keyExpression "=a*") := by cbv
  have givenToo : read "\n:=a*" = .ok (.keyExpression "=a*") := by cbv
  have named : read "=:a* " = .ok (.plain "=:a*") := by cbv
  have refused : read ":a=:*" = .error .malformedKey := by cbv
  have paired : read "*=:a:" = .ok (.keyValue "*" ":a:") := by cbv
  obtain ⟨accepted, kept, told⟩ := read_iff_grammatical
  have trimmed : Text.trim "\u00a0:=a*\t" = Text.trim "\n:=a*" := by cbv
  have apart : Text.trim "\u00a0:=a*\t" ≠ Text.trim "=:a* " := by decide +kernel
  refine ⟨_, _, _, _, given, givenToo, (told _ _ _ _ given givenToo).2 trimmed,
    (kept _ _ given).2, named, ?_, ?_, refused, ?_, paired, ?_⟩
  · rw [(kept _ _ named).1]
    cbv
  · exact fun same => apart ((told _ _ _ _ given named).1 same)
  · rw [← accepted, refused]
    simp
  · rw [(kept _ _ paired).1]
    cbv

end Segment

end StructuralDiff
