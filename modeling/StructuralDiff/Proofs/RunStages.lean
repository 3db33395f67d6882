import Mathlib
import StructuralDiff.CommandLine.Run

/-!
# The stages of a run

A run loads its policy file, chooses the report format, settles the policy, reads the two
documents and compares them. It succeeds when every stage does
(`Arguments.compare_eq_ok_iff`), and two runs whose stages agree have one outcome
(`run_congr`).
-/

namespace StructuralDiff

namespace Outcome

/-- A change of the error changes no success. -/
theorem mapError_eq_ok_iff {ε δ α : Type} {first : Except ε α} {change : ε → δ} {result : α} :
    first.mapError change = .ok result ↔ first = .ok result := by
  cases first <;> simp [Except.mapError]

end Outcome

namespace Arguments

/-- All stages of a run succeed, with these results. -/
structure Compares (arguments : Arguments) (surroundings : Surroundings) (file : PolicyFile)
    (format : Report.Format) (policy : Policy) (reference candidate : Value)
    (findings : Findings) : Prop where
  loaded : arguments.policyFile surroundings = .ok file
  formatted : arguments.reportFormat file = .ok format
  settled : arguments.policy file = .ok policy
  referenceRead :
    Value.ofFile arguments.reference (surroundings.file arguments.reference) = .ok reference
  candidateRead : arguments.readCandidate surroundings = .ok candidate
  performed : Comparison.perform policy reference candidate = .ok findings

/-- A run has findings when all of its stages succeed. -/
theorem compare_eq_ok_iff {arguments : Arguments} {surroundings : Surroundings}
    {format : Report.Format} {findings : Findings} :
    arguments.compare surroundings = .ok (format, findings) ↔
      ∃ file policy reference candidate,
        arguments.Compares surroundings file format policy reference candidate findings := by
  unfold compare
  constructor
  · intro compared
    obtain ⟨file, fileKnown, compared⟩ := Outcome.bind_eq_ok_iff.1 compared
    obtain ⟨chosen, formatKnown, compared⟩ := Outcome.bind_eq_ok_iff.1 compared
    obtain ⟨policy, policyKnown, compared⟩ := Outcome.bind_eq_ok_iff.1 compared
    obtain ⟨reference, referenceKnown, compared⟩ := Outcome.bind_eq_ok_iff.1 compared
    obtain ⟨candidate, candidateKnown, compared⟩ := Outcome.bind_eq_ok_iff.1 compared
    obtain ⟨found, findingsKnown, compared⟩ := Outcome.bind_eq_ok_iff.1 compared
    cases Outcome.pure_eq_ok_iff.1 compared
    exact ⟨file, policy, reference, candidate, fileKnown, formatKnown, policyKnown,
      Outcome.mapError_eq_ok_iff.1 referenceKnown, candidateKnown,
      Outcome.mapError_eq_ok_iff.1 findingsKnown⟩
  · rintro ⟨file, policy, reference, candidate, compares⟩
    rw [Outcome.bind_eq_ok_iff]
    refine ⟨file, compares.loaded, ?_⟩
    rw [Outcome.bind_eq_ok_iff]
    refine ⟨format, compares.formatted, ?_⟩
    rw [Outcome.bind_eq_ok_iff]
    refine ⟨policy, compares.settled, ?_⟩
    rw [Outcome.bind_eq_ok_iff]
    refine ⟨reference, Outcome.mapError_eq_ok_iff.2 compares.referenceRead, ?_⟩
    rw [Outcome.bind_eq_ok_iff]
    refine ⟨candidate, compares.candidateRead, ?_⟩
    rw [Outcome.bind_eq_ok_iff]
    exact ⟨findings, Outcome.mapError_eq_ok_iff.2 compares.performed, rfl⟩

/-- The policy file of a run that names one is what the text of the file says. -/
theorem policyFile_of_read {arguments : Arguments} {surroundings : Surroundings}
    {name source : String} {file : PolicyFile} (named : arguments.value? .config = some name)
    (there : surroundings.file name = .ok source) (told : PolicyFile.read? source = some file) :
    arguments.policyFile surroundings = .ok file := by
  simp [policyFile, named, PolicyFile.load, there, told, Outcome.mapError_eq_ok_iff]

/-- Two command lines ask for the same documents, and these have the same texts. -/
structure SameDocuments (left right : Arguments) (first second : Surroundings) : Prop where
  reference : left.reference = right.reference
  candidate : left.candidate? = right.candidate?
  referenceText : first.file left.reference = second.file left.reference
  candidateText : ∀ name, left.candidate? = some name → first.file name = second.file name
  input : first.input = second.input

/-- The same documents have the same values, or cannot be read for the same reason. -/
theorem SameDocuments.readCandidate_eq {left right : Arguments} {first second : Surroundings}
    (same : left.SameDocuments right first second) :
    left.readCandidate first = right.readCandidate second := by
  unfold readCandidate
  rw [← same.candidate, ← same.input]
  cases named : left.candidate? with
  | none => cases first.input <;> rfl
  | some name => simp only [same.candidateText name named]

/-- Runs over the same documents with one format and one policy have one result. -/
theorem compare_congr {left right : Arguments} {first second : Surroundings}
    (same : left.SameDocuments right first second) {file other : PolicyFile}
    (fileKnown : left.policyFile first = .ok file)
    (otherKnown : right.policyFile second = .ok other)
    (format : left.reportFormat file = right.reportFormat other)
    (policy : left.policy file = right.policy other) :
    left.compare first = right.compare second := by
  have referenceText : first.file left.reference = second.file right.reference := by
    rw [same.referenceText, same.reference]
  simp only [compare, fileKnown, otherKnown, same.readCandidate_eq, referenceText]
  show (left.reportFormat file >>= _) = (right.reportFormat other >>= _)
  rw [format, policy, same.reference]

end Arguments

/-- Command lines that are printed alike and have one result have one outcome. -/
theorem run_congr {tokens others : List String} {left right : Arguments}
    {first second : Surroundings} (read : Arguments.read tokens = .ok (.compare left))
    (readToo : Arguments.read others = .ok (.compare right))
    (result : left.compare first = right.compare second)
    (noColor : left.has .noColor = right.has .noColor) (quiet : left.has .quiet = right.has .quiet)
    (showsColor : first.showsColor = second.showsColor) :
    run tokens first = run others second := by
  simp only [run, read, readToo, Request.outcome, result, Arguments.printedReport, noColor, quiet,
    showsColor]

end StructuralDiff
