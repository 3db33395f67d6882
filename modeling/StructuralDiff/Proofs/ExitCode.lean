import Mathlib
import StructuralDiff.Proofs.AcceptedArguments
import StructuralDiff.Proofs.Cutoff
import StructuralDiff.Proofs.GivenSettings
import StructuralDiff.Proofs.NumberText
import StructuralDiff.Proofs.RunStages

/-!
# What the exit code reports

A run ends with two when one of its stages fails, and then nothing is printed; otherwise
the code says whether there are findings (`run_code_of_compares`, `run_of_fails`). How the
findings are printed does not show in the code, and neither does a limit: it keeps the
first finding if there is any.
-/

namespace StructuralDiff

namespace Arguments

/-- A stage of a run fails: the policy file, the name of the report format in it, the
policy, a document, or the comparison. -/
inductive FailsToCompare (arguments : Arguments) (surroundings : Surroundings) : Prop where
  | config {fault : RunError} (failed : arguments.policyFile surroundings = .error fault)
  | format {file : PolicyFile} {name : String}
      (loaded : arguments.policyFile surroundings = .ok file)
      (notGiven : arguments.has .format = false) (named : file.format = some name)
      (unknown : Report.Format.read? name = Option.none)
  | policy {file : PolicyFile} {fault : RunError}
      (loaded : arguments.policyFile surroundings = .ok file)
      (failed : arguments.policy file = .error fault)
  | reference {fault : ReadError}
      (failed : Value.ofFile arguments.reference (surroundings.file arguments.reference) =
        .error fault)
  | candidate {fault : RunError} (failed : arguments.readCandidate surroundings = .error fault)
  | comparison {file : PolicyFile} {policy : Policy} {reference candidate : Value}
      {fault : ComparisonError} (loaded : arguments.policyFile surroundings = .ok file)
      (settled : arguments.policy file = .ok policy)
      (referenceRead :
        Value.ofFile arguments.reference (surroundings.file arguments.reference) = .ok reference)
      (candidateRead : arguments.readCandidate surroundings = .ok candidate)
      (failed : Comparison.perform policy reference candidate = .error fault)

/-- A report format is missing only when the policy file names one that is unknown. -/
theorem reportFormat_known_or {arguments : Arguments}
    (accepted : arguments.has .format = true → arguments.format?.isSome) (file : PolicyFile) :
    (∃ format, arguments.reportFormat file = .ok format) ∨
      arguments.has .format = false ∧ ∃ name, file.format = some name ∧
        Report.Format.read? name = Option.none := by
  cases given : arguments.has .format with
  | true =>
    obtain ⟨format, known⟩ := Option.isSome_iff_exists.1 (accepted given)
    exact .inl ⟨format, by simp [reportFormat, known]⟩
  | false =>
    have none := format?_of_not_given given
    cases named : file.format with
    | none => exact .inl ⟨.table, by simp [reportFormat, none, named]⟩
    | some name =>
      cases known : Report.Format.read? name with
      | none => exact .inr ⟨rfl, name, rfl, known⟩
      | some format => exact .inl ⟨format, by simp [reportFormat, none, named, known]⟩

/-- All stages of a run succeed, or one fails. -/
theorem compares_or_fails {arguments : Arguments}
    (accepted : arguments.has .format = true → arguments.format?.isSome)
    (surroundings : Surroundings) :
    (∃ file format policy reference candidate findings,
      arguments.Compares surroundings file format policy reference candidate findings) ∨
      arguments.FailsToCompare surroundings := by
  cases loaded : arguments.policyFile surroundings with
  | error fault => exact .inr (.config loaded)
  | ok file =>
    rcases reportFormat_known_or accepted file with ⟨format, formatted⟩ |
      ⟨notGiven, name, named, unknown⟩
    · cases settled : arguments.policy file with
      | error fault => exact .inr (.policy loaded settled)
      | ok policy =>
        cases referenceRead :
            Value.ofFile arguments.reference (surroundings.file arguments.reference) with
        | error fault => exact .inr (.reference referenceRead)
        | ok reference =>
          cases candidateRead : arguments.readCandidate surroundings with
          | error fault => exact .inr (.candidate candidateRead)
          | ok candidate =>
            cases performed : Comparison.perform policy reference candidate with
            | error fault =>
              exact .inr (.comparison loaded settled referenceRead candidateRead performed)
            | ok findings =>
              exact .inl ⟨file, format, policy, reference, candidate, findings, loaded, formatted,
                settled, referenceRead, candidateRead, performed⟩
    · exact .inr (.format loaded notGiven named unknown)

/-- Where all stages succeed, none fails. -/
theorem Compares.not_fails {arguments : Arguments} {surroundings : Surroundings}
    {file : PolicyFile} {format : Report.Format} {policy : Policy} {reference candidate : Value}
    {findings : Findings}
    (compares : arguments.Compares surroundings file format policy reference candidate findings) :
    ¬ arguments.FailsToCompare surroundings := by
  obtain ⟨loaded, formatted, settled, referenceRead, candidateRead, performed⟩ := compares
  intro fails
  cases fails with
  | config failed => simp [loaded] at failed
  | format loadedToo notGiven named unknown =>
    cases loaded.symm.trans loadedToo
    simp [reportFormat, format?_of_not_given notGiven, named, unknown] at formatted
  | policy loadedToo failed =>
    cases loaded.symm.trans loadedToo
    simp [settled] at failed
  | reference failed => simp [referenceRead] at failed
  | candidate failed => simp [candidateRead] at failed
  | comparison loadedToo settledToo referenceToo candidateToo failed =>
    cases loaded.symm.trans loadedToo
    cases settled.symm.trans settledToo
    cases referenceRead.symm.trans referenceToo
    cases candidateRead.symm.trans candidateToo
    simp [performed] at failed

end Arguments

section Codes

variable {tokens others : List String} {arguments other : Arguments} {surroundings : Surroundings}

/-- Where all stages succeed, the code tells whether there are findings. -/
theorem run_code_of_compares (accepted : Arguments.read tokens = .ok (.compare arguments))
    {file : PolicyFile} {format : Report.Format} {policy : Policy} {reference candidate : Value}
    {findings : Findings}
    (compares : arguments.Compares surroundings file format policy reference candidate findings) :
    (run tokens surroundings).code = if findings.isEmpty then 0 else 1 := by
  have result := Arguments.compare_eq_ok_iff.2 ⟨_, _, _, _, compares⟩
  simp only [run, accepted, Request.outcome, result]

/-- Where a stage fails, the code is two and nothing is printed. -/
theorem run_of_fails (accepted : Arguments.read tokens = .ok (.compare arguments))
    (fails : arguments.FailsToCompare surroundings) :
    (run tokens surroundings).code = 2 ∧ (run tokens surroundings).output = "" := by
  cases result : arguments.compare surroundings with
  | error fault => simp [run, accepted, Request.outcome, result, Outcome.failed]
  | ok found =>
    obtain ⟨_, _, _, _, compares⟩ := Arguments.compare_eq_ok_iff.1 result
    exact absurd fails compares.not_fails

/-- All stages succeed exactly where the code is not two. -/
theorem run_code_ne_two_iff (accepted : Arguments.read tokens = .ok (.compare arguments)) :
    (run tokens surroundings).code ≠ 2 ↔
      ∃ file format policy reference candidate findings,
        arguments.Compares surroundings file format policy reference candidate findings := by
  constructor
  · intro compared
    rcases Arguments.compares_or_fails (Arguments.isSome_format?_of_read accepted) surroundings with
      compares | fails
    · exact compares
    · exact absurd (run_of_fails accepted fails).1 compared
  · rintro ⟨_, _, _, _, _, findings, compares⟩
    rw [run_code_of_compares accepted compares]
    split <;> decide

end Codes

namespace Arguments

/-- Two command lines differ in the values of some options at most. -/
structure AlikeBut (left right : Arguments) (exempt : List CommandOption) : Prop where
  operands : left.operands = right.operands
  values : ∀ option, option ∉ exempt → left.values option = right.values option

namespace AlikeBut

variable {left right : Arguments} {exempt : List CommandOption}

theorem symm (alike : left.AlikeBut right exempt) : right.AlikeBut left exempt :=
  ⟨alike.operands.symm, fun option notExempt => (alike.values option notExempt).symm⟩

/-- Command lines that differ elsewhere have the same policy file. -/
theorem policyFile_eq (alike : left.AlikeBut right exempt) (config : .config ∉ exempt)
    (surroundings : Surroundings) : left.policyFile surroundings = right.policyFile surroundings := by
  rw [policyFile, policyFile, value?, value?, alike.values _ config]

/-- Command lines that differ elsewhere have the same report format. -/
theorem reportFormat_eq (alike : left.AlikeBut right exempt) (format : .format ∉ exempt)
    (file : PolicyFile) : left.reportFormat file = right.reportFormat file := by
  rw [reportFormat, reportFormat, format?, format?, value?, value?, alike.values _ format]

/-- Command lines that differ elsewhere have the same settings of a flag. -/
theorem settings_eq (alike : left.AlikeBut right exempt) {flag : Flag}
    (notExempt : .flag flag ∉ exempt) (file : PolicyFile) :
    left.settings file flag = right.settings file flag := by
  rw [settings, settings, given, given, alike.values _ notExempt]

/-- Command lines that differ elsewhere have the same reference. -/
theorem reference_eq (alike : left.AlikeBut right exempt) : left.reference = right.reference := by
  rw [reference, reference, alike.operands]

/-- Command lines that differ elsewhere have the same candidate. -/
theorem readCandidate_eq (alike : left.AlikeBut right exempt) (surroundings : Surroundings) :
    left.readCandidate surroundings = right.readCandidate surroundings := by
  rw [readCandidate, readCandidate, candidate?, candidate?, alike.operands]

end AlikeBut

/-- The options that tell how findings are printed. -/
def printing : List CommandOption :=
  [.format, .noColor, .quiet, .verbose]

/-- How findings are printed does not change whether all stages succeed, unless the policy
file names a format. -/
theorem Compares.of_printing {arguments other : Arguments} {surroundings : Surroundings}
    {file : PolicyFile} {format : Report.Format} {policy : Policy} {reference candidate : Value}
    {findings : Findings}
    (compares : arguments.Compares surroundings file format policy reference candidate findings)
    (alike : arguments.AlikeBut other printing)
    (accepted : other.has .format = true → other.format?.isSome) (noName : file.format = Option.none) :
    ∃ format, other.Compares surroundings file format policy reference candidate findings := by
  obtain ⟨loaded, formatted, settled, referenceRead, candidateRead, performed⟩ := compares
  have samePolicy : arguments.policy file = other.policy file :=
    policy_eq_of_settings fun flag => alike.settings_eq (by simp [printing]) file
  rcases reportFormat_known_or accepted file with ⟨format, formattedToo⟩ | ⟨-, name, named, -⟩
  · rw [alike.policyFile_eq (by decide)] at loaded
    rw [alike.reference_eq] at referenceRead
    rw [alike.readCandidate_eq] at candidateRead
    exact ⟨format, loaded, formattedToo, samePolicy ▸ settled, referenceRead, candidateRead,
      performed⟩
  · simp [noName] at named

end Arguments

namespace Draft

/-- A draft with other settings of the two limits becomes the policy with these limits. -/
theorem Settles.limited {draft other : Draft} {policy : Policy} (settles : draft.Settles policy)
    (same : ∀ flag, flag ≠ .maxDiffs → flag ≠ .failFast →
      other.settings flag = draft.settings flag)
    (normalizers : other.normalizers = draft.normalizers) {count : Option Nat}
    (counted : count? .maxDiffs other.maxDiffs = .ok count) :
    other.Settles { policy with maxDiffs := count, failFast := switch other.failFast } := by
  have changed :
      other = { draft with maxDiffs := other.maxDiffs, failFast := other.failFast } := by
    refine eq_of_settings (fun flag => ?_) normalizers
    cases flag <;> first | rfl | exact same _ (by decide) (by decide)
  rw [changed]
  exact ⟨counted, rfl, settles.maxDepth, settles.selectPaths, settles.rejectPaths,
    settles.oneFilter, settles.matchByKey, settles.matchByValue, settles.indifferentKeys,
    settles.indifferentValues, settles.normalizers⟩

end Draft

namespace Setting

/-- A positive signed integer in decimal counts as itself. -/
theorem count_naturalText (flag : String) {limit : Nat} (positive : 1 ≤ limit)
    (signed : limit < 2 ^ 63) :
    count flag (.text (Decimal.naturalText limit)) = .ok limit := by
  have trimmed : Text.trimChars (Decimal.naturalText limit).toList =
      (Decimal.naturalText limit).toList :=
    Text.trimChars_of_clear fun _ member =>
      Text.isBlank_of_isDigit (Decimal.isDigit_of_mem_naturalText member)
  have inRange : Number.isSigned (limit : Int) = true := Number.isSigned_iff.2 (by omega)
  have known : integer? (.text (Decimal.naturalText limit)) = .some (limit : Int) := by
    simp only [integer?, trimmed, Decimal.readInteger?_naturalText, inRange, if_true]
  have isPositive : (0 : Int) < limit := by omega
  simp only [count, known, isPositive, if_true, Int.toNat_natCast]

end Setting

namespace Policy.Limits

variable {policy limited : Policy} {limit : Nat}

/-- Every limit lets one difference through. -/
theorem positive (limits : policy.Limits limit limited) : 1 ≤ limit := by
  cases limits with
  | byCount limit positive => exact positive
  | byFirst count => exact Nat.le_refl 1

/-- A limit keeps the first finding of a comparison that succeeds without it. -/
theorem perform_isEmpty (limits : policy.Limits limit limited)
    (unlimited : policy.maxDiffs = none) (patient : policy.failFast = false)
    {reference candidate : Value} {findings : Findings}
    (performed : Comparison.perform policy reference candidate = .ok findings) :
    ∃ kept, Comparison.perform limited reference candidate = .ok kept ∧
      kept.isEmpty = findings.isEmpty := by
  have whole := Comparison.perform_ends policy reference candidate
  have noCutoff : policy.cutoff = none := by simp [cutoff, unlimited, patient]
  rw [noCutoff, performed] at whole
  obtain ⟨kept, cut, items⟩ := whole.take_of_ok (limits.perform_ends patient reference candidate)
  refine ⟨kept, cut, ?_⟩
  rw [Findings.isEmpty, Findings.isEmpty, items]
  have positive := limits.positive
  cases findings.items with
  | nil => simp
  | cons first others =>
    obtain ⟨fewer, rfl⟩ := Nat.exists_eq_add_of_le' positive
    simp

end Policy.Limits

/-- A policy without a limit has a limit when it is given one of the two. -/
theorem Policy.limits_or_eq {policy : Policy} (unlimited : policy.maxDiffs = none)
    (patient : policy.failFast = false) {count : Option Nat} (first : Bool)
    (positive : ∀ limit, count = some limit → 1 ≤ limit) :
    { policy with maxDiffs := count, failFast := first } = policy ∨
      ∃ limit, policy.Limits limit { policy with maxDiffs := count, failFast := first } := by
  cases first with
  | true => exact .inr ⟨1, .byFirst count⟩
  | false =>
    cases count with
    | none =>
      left
      rw [← unlimited, ← patient]
    | some limit =>
      refine .inr ⟨limit, ?_⟩
      rw [← patient]
      exact .byCount limit (positive limit rfl)

namespace Arguments

/-- The options that limit how many differences are recorded. -/
def limiting : List CommandOption :=
  [.flag .failFast, .flag .maxDiffs]

/-- Neither a command line nor its policy file limits how many differences are recorded. -/
structure SetsNoLimit (arguments : Arguments) (surroundings : Surroundings) : Prop where
  noFirst : arguments.has (.flag .failFast) = false
  noCount : arguments.has (.flag .maxDiffs) = false
  inFile : ∀ file, arguments.policyFile surroundings = .ok file →
    file.setting? .failFast = Option.none ∧ file.setting? .maxDiffs = Option.none

/-- A number of differences, if one is given, is a positive signed integer. -/
def CountsSome (arguments : Arguments) : Prop :=
  arguments.values (.flag .maxDiffs) = [] ∨
    ∃ limit, 1 ≤ limit ∧ limit < 2 ^ 63 ∧
      arguments.values (.flag .maxDiffs) = [Decimal.naturalText limit]

/-- A number of differences that is given is counted. -/
theorem CountsSome.count_draft {arguments : Arguments} (some : arguments.CountsSome)
    {file : PolicyFile} (noCount : file.setting? .maxDiffs = Option.none) :
    ∃ count, Draft.count? .maxDiffs (arguments.addTo (file.addTo .empty)).maxDiffs = .ok count ∧
      ∀ limit, count = .some limit → 1 ≤ limit := by
  have settings : (arguments.addTo (file.addTo .empty)).maxDiffs.toList =
      Flag.maxDiffs.merge [] (arguments.given .maxDiffs) := by
    have known := arguments.settings_draft file .maxDiffs
    rw [Arguments.settings, noCount] at known
    exact known
  rcases some with none | ⟨limit, positive, signed, known⟩
  · rw [given, none, List.map_nil, Flag.merge_nil] at settings
    have noLimit : (arguments.addTo (file.addTo .empty)).maxDiffs = Option.none :=
      Draft.eq_of_toList_eq settings
    rw [noLimit]
    exact ⟨Option.none, rfl, by simp⟩
  · rw [given, known] at settings
    have isText : (arguments.addTo (file.addTo .empty)).maxDiffs =
        .some (.text (Decimal.naturalText limit)) :=
      Draft.eq_of_toList_eq settings
    rw [isText, Draft.count?, Setting.count_naturalText _ positive signed]
    exact ⟨.some limit, rfl, by simpa using positive⟩

/-- The policy of a run has the terms of the settings of its draft. -/
theorem policy_eq_ok_iff {arguments : Arguments} {file : PolicyFile} {policy : Policy} :
    arguments.policy file = .ok policy ↔ (arguments.addTo (file.addTo .empty)).Settles policy := by
  rw [Arguments.policy, Outcome.mapError_eq_ok_iff, Draft.build_eq_ok_iff]

/-- Where nothing limits the differences, the policy does not. -/
theorem SetsNoLimit.policy_eq {arguments : Arguments} {surroundings : Surroundings}
    (free : arguments.SetsNoLimit surroundings) {file : PolicyFile}
    (loaded : arguments.policyFile surroundings = .ok file) {policy : Policy}
    (settled : arguments.policy file = .ok policy) :
    policy.maxDiffs = Option.none ∧ policy.failFast = false := by
  obtain ⟨noFirst, noCount⟩ := free.inFile file loaded
  have settles := policy_eq_ok_iff.1 settled
  have settings : ∀ flag, file.setting? flag = Option.none → arguments.has (.flag flag) = false →
      (arguments.addTo (file.addTo .empty)).settings flag = [] := by
    intro flag notInFile notGiven
    rw [settings_draft, Arguments.settings, notInFile, given, has_eq_false_iff.1 notGiven]
    exact Flag.merge_nil _ _
  have count : (arguments.addTo (file.addTo .empty)).maxDiffs = Option.none :=
    Draft.eq_of_toList_eq (settings _ noCount free.noCount)
  have first : (arguments.addTo (file.addTo .empty)).failFast = Option.none :=
    Draft.eq_of_toList_eq (settings _ noFirst free.noFirst)
  have countless := settles.maxDiffs
  have patient := settles.failFast
  rw [count] at countless
  rw [first] at patient
  exact ⟨(Except.ok.inj countless).symm, patient.symm⟩

/-- A limit does not change whether all stages succeed, and whether there are findings. -/
theorem Compares.of_limiting {arguments limited : Arguments} {surroundings : Surroundings}
    {file : PolicyFile} {format : Report.Format} {policy : Policy} {reference candidate : Value}
    {findings : Findings}
    (compares : arguments.Compares surroundings file format policy reference candidate findings)
    (alike : arguments.AlikeBut limited limiting) (free : arguments.SetsNoLimit surroundings)
    (some : limited.CountsSome) :
    ∃ policy kept, limited.Compares surroundings file format policy reference candidate kept ∧
      kept.isEmpty = findings.isEmpty := by
  obtain ⟨loaded, formatted, settled, referenceRead, candidateRead, performed⟩ := compares
  obtain ⟨unlimited, patient⟩ := free.policy_eq loaded settled
  obtain ⟨count, counted, positive⟩ := some.count_draft (free.inFile file loaded).2
  have settles := (policy_eq_ok_iff.1 settled).limited
    (fun flag notCount notFirst => by
      rw [settings_draft, settings_draft]
      exact (alike.settings_eq (by simp [limiting, notCount, notFirst]) file).symm)
    (by rw [normalizers_draft, normalizers_draft]) counted
  have settledToo := policy_eq_ok_iff.2 settles
  rw [alike.policyFile_eq (by decide)] at loaded
  rw [alike.reportFormat_eq (by decide)] at formatted
  rw [alike.reference_eq] at referenceRead
  rw [alike.readCandidate_eq] at candidateRead
  rcases Policy.limits_or_eq unlimited patient _ positive with same | ⟨limit, limits⟩
  · rw [same] at settledToo
    exact ⟨policy, findings, ⟨loaded, formatted, settledToo, referenceRead, candidateRead,
      performed⟩, rfl⟩
  · obtain ⟨kept, performedToo, alikeEmpty⟩ := limits.perform_isEmpty unlimited patient performed
    exact ⟨_, kept, ⟨loaded, formatted, settledToo, referenceRead, candidateRead, performedToo⟩,
      alikeEmpty⟩

/-- A natural number can be the value of the option before it. -/
theorem startsOption_naturalText (value : Nat) :
    startsOption (Decimal.naturalText value) = false := by
  unfold startsOption
  split
  · rename_i written
    have hyphen : '-' ∈ (Decimal.naturalText value).toList := by simp [written]
    cases Decimal.isDigit_of_mem_naturalText hyphen
  · rfl

/-- An option in front of others is the only one in which the command lines differ. -/
theorem alikeBut_single_followedBy (arguments : Arguments) {option : CommandOption}
    {exempt : List CommandOption} (isExempt : option ∈ exempt) (value : String) :
    arguments.AlikeBut ((single option value).followedBy arguments) exempt where
  operands := rfl
  values other notExempt := by
    rw [values_single_followedBy, if_neg]
    rintro rfl
    exact notExempt isExempt

end Arguments

section Variations

variable {tokens others : List String} {arguments other : Arguments} {surroundings : Surroundings}

/-- The code does not depend on how findings are printed, unless the policy file names a
format. -/
theorem run_code_of_printing (accepted : Arguments.read tokens = .ok (.compare arguments))
    (acceptedToo : Arguments.read others = .ok (.compare other))
    (alike : arguments.AlikeBut other Arguments.printing)
    (noName : ∀ file, arguments.policyFile surroundings = .ok file → file.format = none) :
    (run others surroundings).code = (run tokens surroundings).code := by
  have known := Arguments.isSome_format?_of_read accepted
  have knownToo := Arguments.isSome_format?_of_read acceptedToo
  rcases Arguments.compares_or_fails known surroundings with
    ⟨file, format, policy, reference, candidate, findings, compares⟩ | fails
  · obtain ⟨printed, comparesToo⟩ :=
      compares.of_printing alike knownToo (noName file compares.loaded)
    rw [run_code_of_compares accepted compares, run_code_of_compares acceptedToo comparesToo]
  · have failsToo : other.FailsToCompare surroundings := by
      rcases Arguments.compares_or_fails knownToo surroundings with
        ⟨file, format, policy, reference, candidate, findings, compares⟩ | failsToo
      · have loaded := compares.loaded
        rw [← alike.policyFile_eq (by decide)] at loaded
        obtain ⟨printed, comparesToo⟩ := compares.of_printing alike.symm known (noName file loaded)
        exact absurd fails comparesToo.not_fails
      · exact failsToo
    rw [(run_of_fails accepted fails).1, (run_of_fails acceptedToo failsToo).1]

/-- A limit does not change the code of a run that compares. -/
theorem run_code_of_limiting (accepted : Arguments.read tokens = .ok (.compare arguments))
    (acceptedToo : Arguments.read others = .ok (.compare other))
    (alike : arguments.AlikeBut other Arguments.limiting)
    (free : arguments.SetsNoLimit surroundings) (some : other.CountsSome)
    (compared : (run tokens surroundings).code ≠ 2) :
    (run others surroundings).code = (run tokens surroundings).code := by
  obtain ⟨file, format, policy, reference, candidate, findings, compares⟩ :=
    (run_code_ne_two_iff accepted).1 compared
  obtain ⟨limited, kept, comparesToo, same⟩ := compares.of_limiting alike free some
  rw [run_code_of_compares accepted compares, run_code_of_compares acceptedToo comparesToo, same]

end Variations

/-- The exit code reports the comparison. It is two, and nothing is printed, exactly where a
stage fails; otherwise it is zero without findings and one with some. How findings are printed
does not change it, unless the policy file names a format. Neither does a limit, given on the
command line of a run that compares and has none. -/
theorem run_code_reports_comparison (tokens : List String) (arguments : Arguments)
    (surroundings : Surroundings) (accepted : Arguments.read tokens = .ok (.compare arguments)) :
    ((run tokens surroundings).code = 2 ∧ (run tokens surroundings).output = "" ↔
      arguments.FailsToCompare surroundings) ∧
    (¬ arguments.FailsToCompare surroundings →
      ∃ file format policy reference candidate findings,
        arguments.Compares surroundings file format policy reference candidate findings) ∧
    (∀ file format policy reference candidate findings,
      arguments.Compares surroundings file format policy reference candidate findings →
      (run tokens surroundings).code = if findings.isEmpty then 0 else 1) ∧
    (∀ others other, Arguments.read others = .ok (.compare other) →
      arguments.AlikeBut other Arguments.printing →
      (∀ file, arguments.policyFile surroundings = .ok file → file.format = none) →
      (run others surroundings).code = (run tokens surroundings).code) ∧
    (arguments.SetsNoLimit surroundings →
      (run tokens surroundings).code = 0 ∨ (run tokens surroundings).code = 1 →
      (∀ others other, Arguments.read others = .ok (.compare other) →
        arguments.AlikeBut other Arguments.limiting → other.CountsSome →
        (run others surroundings).code = (run tokens surroundings).code) ∧
      (run ("--fail-fast" :: tokens) surroundings).code = (run tokens surroundings).code ∧
      ∀ limit, 1 ≤ limit → limit < 2 ^ 63 →
        (run ("-n" :: Decimal.naturalText limit :: tokens) surroundings).code =
          (run tokens surroundings).code) := by
  have compares_or_fails :=
    Arguments.compares_or_fails (Arguments.isSome_format?_of_read accepted) surroundings
  refine ⟨⟨?twoOnly, run_of_fails accepted⟩, compares_or_fails.resolve_right, ?findings,
    ?printing, fun free compared => ⟨?limiting, ?first, ?count⟩⟩
  case twoOnly =>
    rintro ⟨two, -⟩
    by_contra succeeds
    exact (run_code_ne_two_iff accepted).2 (compares_or_fails.resolve_right succeeds) two
  case findings =>
    intro file format policy reference candidate findings compares
    exact run_code_of_compares accepted compares
  case printing =>
    intro others other acceptedToo alike noName
    exact run_code_of_printing accepted acceptedToo alike noName
  case limiting =>
    intro others other acceptedToo alike some
    exact run_code_of_limiting accepted acceptedToo alike free some (by omega)
  case first =>
    have acceptedToo := Arguments.read_option_cons accepted free.noFirst Arguments.read_failFast
    refine run_code_of_limiting accepted acceptedToo
      (arguments.alikeBut_single_followedBy (by decide) "") free (.inl ?_) (by omega)
    rw [Arguments.values_single_followedBy]
    exact Arguments.has_eq_false_iff.1 free.noCount
  case count =>
    intro limit positive signed
    have acceptedToo := Arguments.read_option_cons accepted free.noCount
      (Arguments.read_maxDiffs (Arguments.startsOption_naturalText limit))
    refine run_code_of_limiting accepted acceptedToo
      (arguments.alikeBut_single_followedBy (by decide) _) free
      (.inr ⟨limit, positive, signed, ?_⟩) (by omega)
    rw [Arguments.values_single_followedBy, if_pos rfl, Arguments.has_eq_false_iff.1 free.noCount]

/-- Two lists, and no other file. -/
def unlikeLists : Surroundings where
  file name :=
    if name = "a.json" then .ok "[1, 2]"
    else if name = "b.json" then .ok "[1, 3]"
    else .error .absent
  input := none
  showsColor := false

/-- The list in the first file. -/
def firstList : Value :=
  .array [.number (.int 1), .number (.int 2)]

/-- The list in the second file. -/
def secondList : Value :=
  .array [.number (.int 1), .number (.int 3)]

theorem read_firstList :
    Value.ofFile "a.json" (unlikeLists.file "a.json") = .ok firstList := by
  cbv

theorem read_secondList :
    Value.ofFile "b.json" (unlikeLists.file "b.json") = .ok secondList := by
  cbv

/-- The lists differ in their second items. -/
theorem compares_unlikeLists : Arguments.Compares ⟨["a.json", "b.json"], []⟩ unlikeLists .empty
    .table .default firstList secondList
    { items := [⟨.mismatch, "/2", some (.number (.int 2)), some (.number (.int 3))⟩]
      positions := [("/2", 0)]
      limit := none } where
  loaded := rfl
  formatted := rfl
  settled := rfl
  referenceRead := read_firstList
  candidateRead := congrArg (Except.mapError (RunError.candidate "b.json")) read_secondList
  performed := by cbv

/-- A list does not differ from itself. -/
theorem compares_sameList : Arguments.Compares ⟨["a.json", "a.json"], []⟩ unlikeLists .empty
    .table .default firstList firstList (.empty none) where
  loaded := rfl
  formatted := rfl
  settled := rfl
  referenceRead := read_firstList
  candidateRead := congrArg (Except.mapError (RunError.candidate "a.json")) read_firstList
  performed := by cbv

/-- Nothing is found where the items are too deep to be compared. -/
theorem compares_shallow : Arguments.Compares ⟨["a.json", "b.json"], [(.flag .maxDepth, "1")]⟩
    unlikeLists .empty .table { Policy.default with maxDepth := some 1 } firstList secondList
    (.empty none) where
  loaded := rfl
  formatted := rfl
  settled := by cbv
  referenceRead := read_firstList
  candidateRead := congrArg (Except.mapError (RunError.candidate "b.json")) read_secondList
  performed := by cbv

/-- The code tells that two lists differ, whether they are printed or not, and with a limit or
without one. It tells that a list does not differ from itself, nor from another when the items
are too deep. And it tells that a file is absent, and that no limit is zero. -/
theorem run_code_reports_comparison_unlikeLists :
    (run ["a.json", "b.json"] unlikeLists).code = 1 ∧
    (run ["-q", "a.json", "b.json"] unlikeLists).code = 1 ∧
    (run ["--fail-fast", "a.json", "b.json"] unlikeLists).code = 1 ∧
    (run ["-n", Decimal.naturalText 5, "a.json", "b.json"] unlikeLists).code = 1 ∧
    (run ["a.json", "a.json"] unlikeLists).code = 0 ∧
    (run ["-d", "1", "a.json", "b.json"] unlikeLists).code = 0 ∧
    ((run ["a.json", "c.json"] unlikeLists).code = 2 ∧
      (run ["a.json", "c.json"] unlikeLists).output = "") ∧
    ((run ["-n", "0", "a.json", "b.json"] unlikeLists).code = 2 ∧
      (run ["-n", "0", "a.json", "b.json"] unlikeLists).output = "") := by
  obtain ⟨-, -, findings, printing, limits⟩ :=
    run_code_reports_comparison ["a.json", "b.json"] ⟨["a.json", "b.json"], []⟩ unlikeLists rfl
  have code : (run ["a.json", "b.json"] unlikeLists).code = 1 :=
    findings _ _ _ _ _ _ compares_unlikeLists
  have free : Arguments.SetsNoLimit ⟨["a.json", "b.json"], []⟩ unlikeLists := by
    refine ⟨rfl, rfl, ?_⟩
    rintro _ ⟨⟩
    exact ⟨rfl, rfl⟩
  have quiet := printing ["-q", "a.json", "b.json"]
    ((Arguments.single .quiet "").followedBy ⟨["a.json", "b.json"], []⟩) rfl
    (Arguments.alikeBut_single_followedBy _ (by decide) "") (by rintro _ ⟨⟩; rfl)
  obtain ⟨-, first, count⟩ := limits free (.inr code)
  obtain ⟨-, -, alone, -⟩ :=
    run_code_reports_comparison ["a.json", "a.json"] ⟨["a.json", "a.json"], []⟩ unlikeLists rfl
  obtain ⟨-, -, shallow, -⟩ := run_code_reports_comparison ["-d", "1", "a.json", "b.json"]
    ⟨["a.json", "b.json"], [(.flag .maxDepth, "1")]⟩ unlikeLists rfl
  obtain ⟨absent, -⟩ :=
    run_code_reports_comparison ["a.json", "c.json"] ⟨["a.json", "c.json"], []⟩ unlikeLists rfl
  obtain ⟨noLimit, -⟩ := run_code_reports_comparison ["-n", "0", "a.json", "b.json"]
    ⟨["a.json", "b.json"], [(.flag .maxDiffs, "0")]⟩ unlikeLists rfl
  have illegal : Arguments.policy ⟨["a.json", "b.json"], [(.flag .maxDiffs, "0")]⟩ .empty =
      .error (.policy (.illegalValue "max_diffs" (.text "0"))) := by
    cbv
  exact ⟨code, quiet.trans code, first.trans code, (count 5 (by decide) (by decide)).trans code,
    alone _ _ _ _ _ _ compares_sameList, shallow _ _ _ _ _ _ compares_shallow,
    absent.2 (.candidate rfl), noLimit.2 (.policy rfl illegal)⟩

end StructuralDiff
