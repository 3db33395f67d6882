import Mathlib
import StructuralDiff.Proofs.AcceptedArguments
import StructuralDiff.Proofs.GivenSettings
import StructuralDiff.Proofs.PolicyFileText
import StructuralDiff.Proofs.RunStages
import StructuralDiff.Proofs.SettingLeaves

/-!
# A policy file in place of options

What is chosen of a policy and of the report format can stand on the command line, in the
policy file, or partly here and partly there: the outcome of the run is the same. A list of
paths goes on where the file leaves off. Where both give a flag that is no list, or the
format, the file is not asked, and what it says there need not even be legal.
-/

namespace StructuralDiff

open CommandOption (isPathList)
open Arguments (settingOf)

/-- What is chosen: values of the flags, which switches are on, and the report format. -/
structure Choice where
  maxDiffs : Option String
  failFast : Bool
  maxDepth : Option String
  selectPaths : List String
  rejectPaths : List String
  matchByKey : List String
  matchByValue : List String
  indifferentKeys : Bool
  indifferentValues : Bool
  format : Option Report.Format

namespace Choice

/-- The value of a switch that is on is empty. -/
def ofSwitch (on : Bool) : List String :=
  if on then [""] else []

/-- The values that are chosen for a flag. -/
def values (choice : Choice) : Flag → List String
  | .maxDiffs => choice.maxDiffs.toList
  | .failFast => ofSwitch choice.failFast
  | .maxDepth => choice.maxDepth.toList
  | .selectPaths => choice.selectPaths
  | .rejectPaths => choice.rejectPaths
  | .matchByKey => choice.matchByKey
  | .matchByValue => choice.matchByValue
  | .indifferentKeys => ofSwitch choice.indifferentKeys
  | .indifferentValues => ofSwitch choice.indifferentValues

/-- Nothing is chosen. -/
def nothing : Choice where
  maxDiffs := none
  failFast := false
  maxDepth := none
  selectPaths := []
  rejectPaths := []
  matchByKey := []
  matchByValue := []
  indifferentKeys := false
  indifferentValues := false
  format := none

@[simp] theorem values_nothing (flag : Flag) : nothing.values flag = [] := by
  cases flag <;> rfl

/-- The settings that are chosen for a flag. -/
def settings (choice : Choice) (flag : Flag) : List Setting :=
  (choice.values flag).map (settingOf flag)

/-- A choice is what stands in a file and then what stands on a command line. -/
structure Splits (whole inFile onLine : Choice) : Prop where
  values : ∀ flag, inFile.values flag ++ onLine.values flag = whole.values flag
  format : inFile.format.toList ++ onLine.format.toList = whole.format.toList

/-- All of a choice may stand on the command line. -/
theorem splits_nothing (whole : Choice) : whole.Splits nothing whole where
  values flag := by rw [values_nothing, List.nil_append]
  format := rfl

/-- A flag that is no list has one value at most. -/
theorem length_values_le (choice : Choice) {flag : Flag} (single : isPathList flag = false) :
    (choice.values flag).length ≤ 1 := by
  have switch : ∀ on, (ofSwitch on).length ≤ 1 := by decide
  have option : ∀ value : Option String, value.toList.length ≤ 1 := by
    intro value
    cases value <;> simp
  cases flag <;> first | cases single; done | exact switch _ | exact option _

/-- The value of a switch is empty. -/
theorem eq_empty_of_mem_values (choice : Choice) {flag : Flag}
    (switch : (CommandOption.flag flag).takesValue = false) {value : String}
    (member : value ∈ choice.values flag) : value = "" := by
  have empty : ∀ {on}, value ∈ ofSwitch on → value = "" := by
    intro on chosen
    cases on
    · cases chosen
    · exact List.mem_singleton.1 chosen
  cases flag <;> first | cases switch; done | exact empty member

/-- The words of a choice: flags one after another, and the format. -/
def words (choice : Choice) : List Word :=
  (Flag.all.flatMap fun flag => (choice.values flag).map (.given (.flag flag))) ++
    (choice.format.toList.map Report.Format.name).map (.given .format)

/-- The words for a choice, a policy file, and documents. -/
def lineWords (choice : Choice) (config : Option String) (documents : List String) : List Word :=
  choice.words ++ (config.toList.map (.given .config) ++ documents.map .operand)

/-- The arguments that are written for a choice, a policy file, and documents. -/
def line (choice : Choice) (config : Option String) (documents : List String) : List String :=
  (choice.lineWords config documents).map Word.token

end Choice

namespace Arguments

/-- A command line gives what is chosen. -/
structure Gives (arguments : Arguments) (choice : Choice) : Prop where
  values : ∀ flag, arguments.values (.flag flag) = choice.values flag
  format : arguments.format? = choice.format

/-- The settings of a choice that a command line gives. -/
theorem Gives.given_eq {arguments : Arguments} {choice : Choice} (gives : arguments.Gives choice)
    (flag : Flag) : arguments.given flag = choice.settings flag := by
  rw [given, gives.values, Choice.settings]

end Arguments

namespace PolicyFile

/-- A policy file states what is chosen: lists of texts for the lists of paths, texts for
the counts, and `true` for the switches. An empty list may be left out. -/
structure States (file : PolicyFile) (choice : Choice) : Prop where
  lists : ∀ flag, isPathList flag = true → file.setting? flag = some (.list (choice.settings flag)) ∨
    file.setting? flag = none ∧ choice.settings flag = []
  single : ∀ flag, isPathList flag = false → (file.setting? flag).toList = choice.settings flag
  format : file.format = choice.format.map Report.Format.name

/-- An empty file states that nothing is chosen. -/
theorem empty_states_nothing : empty.States .nothing where
  lists flag _ := .inr ⟨rfl, by rw [Choice.settings, Choice.values_nothing, List.map_nil]⟩
  single flag _ := by
    rw [Choice.settings, Choice.values_nothing]
    rfl
  format := rfl

/-- The setting of a flag is the first of its settings. -/
theorem setting?_eq_head? (file : PolicyFile) (flag : Flag) :
    file.setting? flag = (Draft.settingsFor flag file.settings).head? := by
  rw [setting?, Draft.settingsFor, List.head?_map, List.head?_filter]

end PolicyFile

namespace Choice

/-- What is written for a flag, if it is chosen. Lists of paths are always written. -/
def writable? (choice : Choice) (flag : Flag) : Option Toml.Writable :=
  if isPathList flag then some (.texts (choice.values flag))
  else (choice.values flag).head?.map fun value =>
    if (CommandOption.flag flag).takesValue then .text value else .on

/-- The policy file that is written for a choice. -/
def fileText (choice : Choice) : String :=
  PolicyFile.written (Flag.all.filterMap fun flag => (choice.writable? flag).map (flag, ·))
    (choice.format.map Report.Format.name)

/-- The settings that are written for a flag are those that are chosen. -/
theorem writable?_setting (choice : Choice) (flag : Flag) :
    (isPathList flag = true → (choice.writable? flag).map Toml.Writable.setting =
      some (.list (choice.settings flag))) ∧
    (isPathList flag = false → ((choice.writable? flag).map Toml.Writable.setting).toList =
      choice.settings flag) := by
  unfold writable? settings
  constructor
  · intro list
    have texts : settingOf flag = Setting.text := by
      funext value
      simp [settingOf, CommandOption.takesValue, list]
    rw [if_pos list, texts]
    rfl
  · intro isSingle
    have few := choice.length_values_le isSingle
    rw [if_neg (by simp [isSingle])]
    cases values : choice.values flag with
    | nil => rfl
    | cons value others =>
      rw [values] at few
      have alone : others = [] := by
        cases others with
        | nil => rfl
        | cons _ _ => simp at few
      subst alone
      simp only [List.head?_cons, Option.map_some, Option.toList_some, List.map_cons, List.map_nil,
        settingOf]
      split <;> rfl

/-- The file that is written for a choice is read, and states the choice. -/
theorem read?_fileText (choice : Choice) :
    ∃ file, PolicyFile.read? choice.fileText = some file ∧ file.States choice := by
  have distinct : Flag.all.Nodup := by decide
  have known : ∀ flag : Flag, flag ∈ Flag.all := by
    intro flag
    cases flag <;> decide
  set entries := Flag.all.filterMap fun flag => (choice.writable? flag).map (flag, ·)
  have flags : (entries.map Prod.fst).Nodup := by
    rw [List.map_filterMap]
    refine distinct.filterMap fun first second flag inFirst inSecond => ?_
    simp only [Option.map_map, Option.mem_def, Option.map_eq_some_iff] at inFirst inSecond
    obtain ⟨_, -, rfl⟩ := inFirst
    obtain ⟨_, -, same⟩ := inSecond
    exact same.symm
  refine ⟨_, PolicyFile.read?_written flags _, ?_⟩
  have written : entries.map (fun entry => (entry.1, entry.2.setting)) =
      Flag.all.filterMap fun flag =>
        ((choice.writable? flag).map Toml.Writable.setting).map (flag, ·) := by
    simp [entries, List.map_filterMap, Function.comp_def]
  have setting : ∀ flag, PolicyFile.setting? ⟨choice.format.map Report.Format.name,
      entries.map fun entry => (entry.1, entry.2.setting)⟩ flag =
        (choice.writable? flag).map Toml.Writable.setting := by
    intro flag
    rw [PolicyFile.setting?_eq_head?, written, PolicyFile.settingsFor_filterMap _ flag distinct,
      if_pos (known flag), Option.head?_toList]
  refine ⟨fun flag list => .inl ?_, fun flag isSingle => ?_, rfl⟩
  · rw [setting, (choice.writable?_setting flag).1 list]
  · rw [setting, (choice.writable?_setting flag).2 isSingle]

end Choice

namespace Arguments

/-- The format is the one of the whole choice, wherever it stands. -/
theorem reportFormat_of_splits {arguments : Arguments} {file : PolicyFile}
    {whole inFile onLine : Choice} (splits : whole.Splits inFile onLine)
    (stated : file.States inFile) (gives : arguments.Gives onLine) :
    arguments.reportFormat file = .ok (whole.format.getD .table) := by
  have parts := splits.format
  have known : ∀ format : Report.Format, Report.Format.read? format.name = some format := by
    intro format
    cases format <;> cbv
  unfold reportFormat
  rw [gives.format, stated.format]
  cases line : onLine.format <;> cases inside : inFile.format <;> cases total : whole.format <;>
    simp_all

/-- A flag settles as the whole choice does, wherever its values stand. -/
theorem settings_of_splits {arguments : Arguments} {file : PolicyFile}
    {whole inFile onLine : Choice} (splits : whole.Splits inFile onLine)
    (stated : file.States inFile) (gives : arguments.Gives onLine) (flag : Flag) :
    (isPathList flag = false → arguments.settings file flag = whole.settings flag) ∧
      (isPathList flag = true → Setting.patternsOfAll flag.name (arguments.settings file flag) =
        Setting.patternsOfAll flag.name (whole.settings flag)) := by
  have parts : inFile.settings flag ++ onLine.settings flag = whole.settings flag := by
    rw [Choice.settings, Choice.settings, Choice.settings, ← List.map_append, splits.values]
  unfold settings
  rw [gives.given_eq, ← parts]
  constructor
  · intro single
    rw [stated.single flag single, Flag.merge]
    simp only [single, Bool.false_eq_true, if_false]
    -- The two lists have one setting together at most.
    have few : (inFile.settings flag ++ onLine.settings flag).length ≤ 1 := by
      rw [parts, Choice.settings, List.length_map]
      exact whole.length_values_le single
    cases inside : inFile.settings flag with
    | nil =>
      rw [inside] at few
      cases line : onLine.settings flag with
      | nil => rfl
      | cons setting others =>
        rw [line] at few
        cases others with
        | nil => rfl
        | cons _ _ => simp at few
    | cons setting others =>
      rw [inside, List.length_append, List.length_cons] at few
      have none : onLine.settings flag = [] := List.eq_nil_of_length_eq_zero (by omega)
      rw [none, List.append_nil]
      rfl
  · intro list
    rw [Flag.merge, if_pos list]
    rcases stated.lists flag list with stands | ⟨absent, nothing⟩
    · rw [stands]
      exact Setting.patternsOfAll_list _ _ _
    · rw [absent, nothing]
      rfl

/-- Command lines with their policy files have one policy when they make up one choice. -/
theorem policy_eq_of_splits {left right : Arguments} {file other : PolicyFile}
    {whole inFile onLine inOther onOther : Choice} (splits : whole.Splits inFile onLine)
    (stated : file.States inFile) (gives : left.Gives onLine)
    (splitsToo : whole.Splits inOther onOther) (statedToo : other.States inOther)
    (givesToo : right.Gives onOther) : left.policy file = right.policy other := by
  have alike : (left.addTo (file.addTo .empty)).SettlesAlike
      (right.addTo (other.addTo .empty)) := by
    refine settlesAlike (fun flag single => ?_) (fun flag list => ?_)
    · rw [(settings_of_splits splits stated gives flag).1 single,
        (settings_of_splits splitsToo statedToo givesToo flag).1 single]
    · rw [(settings_of_splits splits stated gives flag).2 list,
        (settings_of_splits splitsToo statedToo givesToo flag).2 list]
  rw [policy, policy, alike.build_eq]

/-- A policy file that differs from another only where the command line decides. -/
structure Overrides (arguments : Arguments) (file other : PolicyFile) : Prop where
  settings : ∀ flag, isPathList flag = true ∨ arguments.has (.flag flag) = false →
    file.setting? flag = other.setting? flag
  format : arguments.has .format = false → file.format = other.format

/-- Where the command line decides, the policy does not depend on the file. -/
theorem policy_eq_of_overrides {arguments : Arguments} {file other : PolicyFile}
    (overrides : arguments.Overrides file other) : arguments.policy file = arguments.policy other := by
  refine policy_eq_of_settings fun flag => ?_
  unfold settings
  by_cases decided : isPathList flag = true ∨ arguments.has (.flag flag) = false
  · rw [overrides.settings flag decided]
  · simp only [not_or, Bool.not_eq_true, Bool.not_eq_false] at decided
    have some : arguments.given flag ≠ [] := by
      intro none
      have absent : arguments.values (.flag flag) = [] := List.map_eq_nil_iff.1 none
      have present := decided.2
      rw [has_eq_false_iff.2 absent] at present
      cases present
    exact Flag.merge_of_given decided.1 some _ _

/-- Where the command line decides, the report format does not depend on the file. -/
theorem reportFormat_eq_of_overrides {arguments : Arguments} {file other : PolicyFile}
    (overrides : arguments.Overrides file other)
    (accepted : arguments.has .format = true → arguments.format?.isSome) :
    arguments.reportFormat file = arguments.reportFormat other := by
  cases given : arguments.has .format with
  | true =>
    obtain ⟨format, known⟩ := Option.isSome_iff_exists.1 (accepted given)
    simp [reportFormat, known]
  | false =>
    unfold reportFormat
    rw [overrides.format given]

/-- A policy file without what the command line decides. -/
def undecided (arguments : Arguments) (file : PolicyFile) : PolicyFile where
  format := if arguments.has .format then Option.none else file.format
  settings := file.settings.filter fun entry =>
    isPathList entry.1 || !arguments.has (.flag entry.1)

/-- Without what the command line decides, a policy file differs only there. -/
theorem overrides_undecided (arguments : Arguments) (file : PolicyFile) :
    arguments.Overrides file (arguments.undecided file) where
  settings flag decided := by
    rw [PolicyFile.setting?, PolicyFile.setting?, undecided, List.find?_filter]
    congr 2
    funext entry
    by_cases own : entry.1 = flag
    · simp [own, decided]
    · simp [own]
  format notGiven := by rw [undecided, notGiven]; rfl

end Arguments

namespace Word

/-- The values that words give to an option. -/
def valuesFor (option : CommandOption) (words : List Word) : List String :=
  (Arguments.none.extend words).values option

theorem valuesFor_append (option : CommandOption) (first second : List Word) :
    valuesFor option (first ++ second) = valuesFor option first ++ valuesFor option second := by
  rw [valuesFor, Arguments.extend_append, Arguments.values_extend]
  rfl

theorem valuesFor_flatMap {α : Type} (option : CommandOption) (words : α → List Word)
    (items : List α) :
    valuesFor option (items.flatMap words) = items.flatMap fun item => valuesFor option (words item) := by
  induction items with
  | nil => rfl
  | cons item items ih => rw [List.flatMap_cons, valuesFor_append, ih, List.flatMap_cons]

/-- Words for one option give their values to this option only. -/
theorem valuesFor_map_given (option other : CommandOption) (values : List String) :
    valuesFor option (values.map (given other)) = if other = option then values else [] := by
  induction values with
  | nil => simp [valuesFor, Arguments.values, Arguments.none]
  | cons value values ih =>
    have first : valuesFor option [given other value] = if other = option then [value] else [] := by
      by_cases same : other = option <;> simp [valuesFor, Arguments.values, Arguments.none, same]
    rw [List.map_cons, ← List.singleton_append, valuesFor_append, first, ih]
    split <;> rfl

/-- Operands give no values. -/
theorem valuesFor_map_operand (option : CommandOption) (names : List String) :
    valuesFor option (names.map operand) = [] := by
  induction names with
  | nil => simp [valuesFor, Arguments.values, Arguments.none]
  | cons name names ih =>
    have first : valuesFor option [operand name] = [] := by
      simp [valuesFor, Arguments.values, Arguments.none]
    rw [List.map_cons, ← List.singleton_append, valuesFor_append, first, ih, List.append_nil]

end Word

namespace Choice

open Word (valuesFor)

/-- On the line, each option has its chosen values. -/
theorem valuesFor_lineWords (choice : Choice) (config : Option String) (documents : List String)
    (option : CommandOption) :
    valuesFor option (choice.lineWords config documents) =
      (Flag.all.flatMap fun flag => if .flag flag = option then choice.values flag else []) ++
        (if .format = option then choice.format.toList.map Report.Format.name else []) ++
        if .config = option then config.toList else [] := by
  simp only [lineWords, words, Word.valuesFor_append, Word.valuesFor_flatMap,
    Word.valuesFor_map_given, Word.valuesFor_map_operand, List.append_nil]

/-- The words of a choice are legal, with a policy file that has a name and documents that
are no options. -/
theorem legal_of_mem_lineWords (choice : Choice) {config : Option String}
    {documents : List String} (named : config ≠ some "")
    (plain : ∀ name ∈ documents, name ≠ "" ∧ Arguments.startsOption name = false) :
    ∀ word ∈ choice.lineWords config documents, word.Legal := by
  intro word member
  rcases List.mem_append.1 member with inWords | inOthers
  · rcases List.mem_append.1 inWords with inFlags | inFormat
    · obtain ⟨flag, -, known⟩ := List.mem_flatMap.1 inFlags
      obtain ⟨value, chosen, rfl⟩ := List.mem_map.1 known
      refine ⟨rfl, fun switch => ⟨?_, by simp, by simp⟩⟩
      exact choice.eq_empty_of_mem_values switch chosen
    · obtain ⟨name, known, rfl⟩ := List.mem_map.1 inFormat
      obtain ⟨format, -, rfl⟩ := List.mem_map.1 known
      refine ⟨?_, fun switch => by cases switch⟩
      cases format <;> decide
  · rcases List.mem_append.1 inOthers with inConfig | inDocuments
    · obtain ⟨name, known, rfl⟩ := List.mem_map.1 inConfig
      refine ⟨?_, fun switch => by cases switch⟩
      have notEmpty : name ≠ "" := by
        rintro rfl
        exact named (Option.mem_toList.1 known)
      simpa [CommandOption.allows] using notEmpty
    · obtain ⟨name, known, rfl⟩ := List.mem_map.1 inDocuments
      exact plain name known

section Line

variable (choice : Choice) (config : Option String) (documents : List String)

/-- On the line, a flag has its chosen values. -/
theorem valuesFor_lineWords_flag (flag : Flag) :
    valuesFor (.flag flag) (choice.lineWords config documents) = choice.values flag := by
  rw [valuesFor_lineWords]
  cases flag <;> simp [Flag.all]

/-- On the line, only the format and the policy file have values besides the flags. -/
theorem valuesFor_lineWords_of_ne_flag {option : CommandOption}
    (noFlag : ∀ flag, option ≠ .flag flag) :
    valuesFor option (choice.lineWords config documents) =
      (if .format = option then choice.format.toList.map Report.Format.name else []) ++
        if .config = option then config.toList else [] := by
  rw [valuesFor_lineWords]
  simp [Ne.symm (noFlag _)]

/-- On the line, nothing else is given. -/
theorem has_lineWords_eq_false {option : CommandOption} (noFlag : ∀ flag, option ≠ .flag flag)
    (noFormat : option ≠ .format) (noConfig : option ≠ .config) :
    (Arguments.none.extend (choice.lineWords config documents)).has option = false := by
  have none := choice.valuesFor_lineWords_of_ne_flag config documents noFlag
  rw [if_neg (Ne.symm noFormat), if_neg (Ne.symm noConfig)] at none
  exact Arguments.has_eq_false_iff.2 none

/-- The operands on the line are the documents. -/
theorem operands_lineWords :
    (Arguments.none.extend (choice.lineWords config documents)).operands = documents := by
  simp [Arguments.extend, Arguments.none, lineWords, words, List.filterMap_append,
    List.filterMap_map, List.filterMap_flatMap, Word.operand?, Function.comp_def]

/-- The policy file on the line is the one that is named. -/
theorem config_lineWords :
    (Arguments.none.extend (choice.lineWords config documents)).value? .config = config := by
  show (valuesFor .config _).head? = _
  rw [valuesFor_lineWords_of_ne_flag _ _ _ (by simp)]
  cases config <;> simp

/-- The line gives the choice. -/
theorem gives_lineWords :
    (Arguments.none.extend (choice.lineWords config documents)).Gives choice where
  values := choice.valuesFor_lineWords_flag config documents
  format := by
    have known : ∀ format : Report.Format, CommandOption.format? format.name = some format := by
      intro format
      cases format <;> decide
    rw [Arguments.format?, Arguments.value?]
    show (valuesFor .format _).head?.bind _ = _
    rw [valuesFor_lineWords_of_ne_flag _ _ _ (by simp)]
    cases chosen : choice.format <;> simp [known]

/-- On the line, no option is repeated that must not be. -/
theorem fits_lineWords (few : documents.length ≤ 2) :
    (Arguments.none.extend (choice.lineWords config documents)).Fits := by
  refine ⟨by rwa [operands_lineWords], fun option single => ?_⟩
  show (valuesFor option _).length ≤ 1
  cases option with
  | flag flag =>
    rw [valuesFor_lineWords_flag]
    exact choice.length_values_le single
  | format =>
    rw [valuesFor_lineWords_of_ne_flag _ _ _ (by simp)]
    cases choice.format <;> simp
  | config =>
    rw [valuesFor_lineWords_of_ne_flag _ _ _ (by simp)]
    cases config <;> simp
  | _ =>
    rw [valuesFor_lineWords_of_ne_flag _ _ _ (by simp)]
    simp

variable {config : Option String} {documents : List String}

/-- The line of a choice is accepted as what its words stand for. -/
theorem read_line_eq (named : config ≠ some "")
    (plain : ∀ name ∈ documents, name ≠ "" ∧ Arguments.startsOption name = false)
    (some : documents ≠ []) (few : documents.length ≤ 2) :
    Arguments.read (choice.line config documents) =
      .ok (.compare (Arguments.none.extend (choice.lineWords config documents))) :=
  Arguments.read_map_token (choice.legal_of_mem_lineWords named plain)
    (choice.fits_lineWords config documents few) (by rwa [operands_lineWords])

/-- The line of a choice is accepted and gives the choice. -/
theorem read_line (named : config ≠ some "")
    (plain : ∀ name ∈ documents, name ≠ "" ∧ Arguments.startsOption name = false)
    (some : documents ≠ []) (few : documents.length ≤ 2) :
    ∃ arguments, Arguments.read (choice.line config documents) = .ok (.compare arguments) ∧
      arguments.Gives choice ∧ arguments.value? .config = config ∧
      arguments.operands = documents ∧ arguments.has .noColor = false ∧
      arguments.has .quiet = false :=
  ⟨_, choice.read_line_eq named plain some few, choice.gives_lineWords config documents,
    choice.config_lineWords config documents, choice.operands_lineWords config documents,
    choice.has_lineWords_eq_false config documents (by simp) (by simp) (by simp),
    choice.has_lineWords_eq_false config documents (by simp) (by simp) (by simp)⟩

end Line

end Choice

/-- What is seen when a file has another text. -/
def Surroundings.withFile (surroundings : Surroundings) (name source : String) : Surroundings :=
  { surroundings with
    file := fun other => if other = name then .ok source else surroundings.file other }

/-- Two command lines ask for the same documents and the same kind of print. -/
structure Arguments.SameTask (left right : Arguments) : Prop where
  operands : left.operands = right.operands
  noColor : left.has .noColor = right.has .noColor
  quiet : left.has .quiet = right.has .quiet

/-- A choice that is split between a policy file and a command line leads to the outcome of
the whole choice on a command line. -/
theorem run_eq_of_splits {whole inFile onLine : Choice} (splits : whole.Splits inFile onLine)
    {tokens others : List String} {arguments complete : Arguments}
    (accepted : Arguments.read tokens = .ok (.compare arguments))
    (acceptedToo : Arguments.read others = .ok (.compare complete))
    (gives : arguments.Gives onLine) (givesAll : complete.Gives whole)
    (same : arguments.SameTask complete) (noFile : complete.value? .config = none)
    {surroundings : Surroundings} {config source : String} {file : PolicyFile}
    (named : arguments.value? .config = some config)
    (there : surroundings.file config = .ok source)
    (told : PolicyFile.read? source = some file) (stated : file.States inFile) :
    run tokens surroundings = run others surroundings := by
  have nothing := PolicyFile.empty_states_nothing
  have documents : arguments.SameDocuments complete surroundings surroundings :=
    ⟨by rw [Arguments.reference, Arguments.reference, same.operands],
      by rw [Arguments.candidate?, Arguments.candidate?, same.operands], rfl, fun _ _ => rfl, rfl⟩
  have loaded : complete.policyFile surroundings = .ok .empty := by
    rw [Arguments.policyFile, noFile]
  have format : arguments.reportFormat file = complete.reportFormat .empty := by
    rw [Arguments.reportFormat_of_splits splits stated gives,
      Arguments.reportFormat_of_splits whole.splits_nothing nothing givesAll]
  have policy : arguments.policy file = complete.policy .empty :=
    Arguments.policy_eq_of_splits splits stated gives whole.splits_nothing nothing givesAll
  exact run_congr accepted acceptedToo
    (Arguments.compare_congr documents (Arguments.policyFile_of_read named there told) loaded
      format policy) same.noColor same.quiet rfl

/-- Where the command line decides, the outcome does not depend on the policy file. -/
theorem run_eq_of_overrides {tokens : List String} {arguments : Arguments}
    (accepted : Arguments.read tokens = .ok (.compare arguments)) {config : String}
    (named : arguments.value? .config = some config) (notReference : arguments.reference ≠ config)
    (notCandidate : arguments.candidate? ≠ some config) {surroundings : Surroundings}
    {source otherSource : String} {file other : PolicyFile}
    (there : surroundings.file config = .ok source)
    (told : PolicyFile.read? source = some file)
    (toldToo : PolicyFile.read? otherSource = some other)
    (overrides : arguments.Overrides file other) :
    run tokens surroundings = run tokens (surroundings.withFile config otherSource) := by
  have documents :
      arguments.SameDocuments arguments surroundings (surroundings.withFile config otherSource) := by
    refine ⟨rfl, rfl, ?_, fun name asked => ?_, rfl⟩
    · exact (if_neg notReference).symm
    · have different : name ≠ config := by
        rintro rfl
        exact notCandidate asked
      exact (if_neg different).symm
  have thereToo : (surroundings.withFile config otherSource).file config = .ok otherSource :=
    if_pos rfl
  have format := Arguments.reportFormat_eq_of_overrides overrides
    (Arguments.isSome_format?_of_read accepted)
  exact run_congr accepted accepted
    (Arguments.compare_congr documents (Arguments.policyFile_of_read named there told)
      (Arguments.policyFile_of_read named thereToo toldToo) format
      (Arguments.policy_eq_of_overrides overrides)) rfl rfl rfl

/-- A choice that is written in part to a policy file and in part on a command line leads to
the outcome of the whole choice on a command line. -/
theorem run_line_eq_of_splits {whole inFile onLine : Choice} (splits : whole.Splits inFile onLine)
    {config : String} {documents : List String} (isFile : config ≠ "")
    (plain : ∀ name ∈ documents, name ≠ "" ∧ Arguments.startsOption name = false)
    (some : documents ≠ []) (few : documents.length ≤ 2) {surroundings : Surroundings}
    (there : surroundings.file config = .ok inFile.fileText) :
    run (onLine.line (.some config) documents) surroundings =
      run (whole.line none documents) surroundings := by
  have isName : Option.some config ≠ Option.some "" := by simpa using isFile
  obtain ⟨arguments, accepted, gives, named, operands, noColor, quiet⟩ :=
    onLine.read_line isName plain some few
  obtain ⟨complete, acceptedToo, givesAll, noFile, operandsToo, noColorToo, quietToo⟩ :=
    whole.read_line (by simp : none ≠ Option.some "") plain some few
  obtain ⟨file, told, stated⟩ := inFile.read?_fileText
  have same : arguments.SameTask complete :=
    ⟨operands.trans operandsToo.symm, noColor.trans noColorToo.symm, quiet.trans quietToo.symm⟩
  exact run_eq_of_splits splits accepted acceptedToo gives givesAll same noFile named there told
    stated

/-- A policy file acts as the command line does. What is chosen can be written on a line and in
a file, and is read there. It leads to one outcome whether it all stands on a line, or is split
between a file and a line, in whatever way it is written. And what a line gives of flags that
are no lists, and of the format, the file may say or not say, legal or not. -/
theorem run_by_any_source :
    (∀ (choice : Choice) (config : Option String) (documents : List String), config ≠ some "" →
      (∀ name ∈ documents, name ≠ "" ∧ Arguments.startsOption name = false) →
      documents ≠ [] → documents.length ≤ 2 →
      ∃ arguments, Arguments.read (choice.line config documents) = .ok (.compare arguments) ∧
        arguments.Gives choice ∧ arguments.value? .config = config ∧
        arguments.operands = documents ∧ arguments.has .noColor = false ∧
        arguments.has .quiet = false) ∧
    (∀ choice : Choice,
      ∃ file, PolicyFile.read? choice.fileText = some file ∧ file.States choice) ∧
    (∀ whole inFile onLine : Choice, whole.Splits inFile onLine →
      ∀ (config : String) (documents : List String), config ≠ "" →
        (∀ name ∈ documents, name ≠ "" ∧ Arguments.startsOption name = false) →
        documents ≠ [] → documents.length ≤ 2 →
      ∀ surroundings : Surroundings, surroundings.file config = .ok inFile.fileText →
        run (onLine.line (some config) documents) surroundings =
          run (whole.line none documents) surroundings) ∧
    (∀ whole inFile onLine : Choice, whole.Splits inFile onLine →
      ∀ (tokens others : List String) (arguments complete : Arguments),
        Arguments.read tokens = .ok (.compare arguments) →
        Arguments.read others = .ok (.compare complete) →
        arguments.Gives onLine → complete.Gives whole → arguments.SameTask complete →
        complete.value? .config = none →
      ∀ (surroundings : Surroundings) (config source : String) (file : PolicyFile),
        arguments.value? .config = some config → surroundings.file config = .ok source →
        PolicyFile.read? source = some file → file.States inFile →
        run tokens surroundings = run others surroundings) ∧
    ∀ (tokens : List String) (arguments : Arguments),
      Arguments.read tokens = .ok (.compare arguments) →
      (∀ file, arguments.reportFormat file = arguments.reportFormat (arguments.undecided file) ∧
        arguments.policy file = arguments.policy (arguments.undecided file)) ∧
      ∀ config, arguments.value? .config = some config → arguments.reference ≠ config →
        arguments.candidate? ≠ some config →
      ∀ (surroundings : Surroundings) (source otherSource : String) (file other : PolicyFile),
        surroundings.file config = .ok source → PolicyFile.read? source = some file →
        PolicyFile.read? otherSource = some other → arguments.Overrides file other →
        run tokens surroundings = run tokens (surroundings.withFile config otherSource) := by
  refine ⟨?lines, Choice.read?_fileText, ?written, ?splits, fun tokens arguments accepted =>
    ⟨?undecided, ?overrides⟩⟩
  case lines =>
    intro choice config documents named plain some few
    exact choice.read_line named plain some few
  case written =>
    intro whole inFile onLine splits config documents isFile plain some few surroundings there
    exact run_line_eq_of_splits splits isFile plain some few there
  case splits =>
    intro whole inFile onLine splits tokens others arguments complete accepted acceptedToo gives
      givesAll same noFile surroundings config source file named there told stated
    exact run_eq_of_splits splits accepted acceptedToo gives givesAll same noFile named there told
      stated
  case undecided =>
    intro file
    have overrides := arguments.overrides_undecided file
    exact ⟨Arguments.reportFormat_eq_of_overrides overrides
      (Arguments.isSome_format?_of_read accepted), Arguments.policy_eq_of_overrides overrides⟩
  case overrides =>
    intro config named notReference notCandidate surroundings source
      otherSource file other there told toldToo overrides
    exact run_eq_of_overrides accepted named notReference notCandidate there told toldToo overrides

/-- Two rejected paths, a limit, a switch and a format. -/
def fourChoices : Choice :=
  { Choice.nothing with
    maxDiffs := some "1", rejectPaths := ["/1", "/2"], indifferentValues := true
    format := some .long }

/-- The first of the paths, and the switch. -/
def twoInFile : Choice :=
  { Choice.nothing with rejectPaths := ["/1"], indifferentValues := true }

/-- The second path, the limit, and the format. -/
def threeOnLine : Choice :=
  { Choice.nothing with maxDiffs := some "1", rejectPaths := ["/2"], format := some .long }

/-- A limit and a format. -/
def limitOnLine : Choice :=
  { Choice.nothing with maxDiffs := some "1", format := some .long }

/-- A policy file with a limit that is none, and a format that is none. -/
def illegalText : String := "format = \"no format\"\nmax_diffs = \"no number\"\n"

theorem read?_illegalText : PolicyFile.read? illegalText =
    some ⟨some "no format", [(.maxDiffs, .text "no number")]⟩ := by
  cbv

/-- Two documents and a policy file with a text. -/
def withPolicyText (source : String) : Surroundings where
  file name :=
    if name = "policy.toml" then .ok source
    else if name = "a.json" then .ok "[1, 2, 3, 4, 5]"
    else .ok "[6, 7, \"3\", 8, 9]"
  input := none
  showsColor := false

theorem plain_documents :
    ∀ name ∈ ["a.json", "b.json"], name ≠ "" ∧ Arguments.startsOption name = false := by
  decide

theorem read_fourChoices : Arguments.read (fourChoices.line none ["a.json", "b.json"]) =
    .ok (.compare ⟨["a.json", "b.json"], [(.flag .maxDiffs, "1"), (.flag .rejectPaths, "/1"),
      (.flag .rejectPaths, "/2"), (.flag .indifferentValues, ""), (.format, "long")]⟩) :=
  fourChoices.read_line_eq (by simp) plain_documents (by simp) (by simp)

theorem read_limitOnLine :
    Arguments.read (limitOnLine.line (some "policy.toml") ["a.json", "b.json"]) =
      .ok (.compare ⟨["a.json", "b.json"],
        [(.flag .maxDiffs, "1"), (.format, "long"), (.config, "policy.toml")]⟩) :=
  limitOnLine.read_line_eq (by simp) plain_documents (by simp) (by simp)

/-- Of five pairs of items, two are rejected, one holds a number and its text, and one is behind
the limit. -/
theorem run_fourChoices (source : String) :
    run (fourChoices.line none ["a.json", "b.json"]) (withPolicyText source) =
      ⟨1, "/4 [mismatch]\n  reference: 4\n  candidate: 8\n", ""⟩ := by
  rw [run, read_fourChoices]
  cbv

/-- Next to an empty policy file, only the first of the pairs is within the limit. -/
theorem run_limitOnLine (source : String) :
    run (limitOnLine.line (some "policy.toml") ["a.json", "b.json"])
        ((withPolicyText source).withFile "policy.toml" "") =
      ⟨1, "/1 [mismatch]\n  reference: 1\n  candidate: 6\n", ""⟩ := by
  rw [run, read_limitOnLine]
  cbv

/-- What is chosen has its effect from either source: a path is rejected by the file and another by
the line, the file lets like values be equal, and the line sets the limit and the format. A limit
and a format in the policy file that are none do not matter when the command line gives others. -/
theorem run_by_any_source_fourChoices :
    (run (fourChoices.line none ["a.json", "b.json"]) (withPolicyText twoInFile.fileText) =
        ⟨1, "/4 [mismatch]\n  reference: 4\n  candidate: 8\n", ""⟩ ∧
      run (threeOnLine.line (some "policy.toml") ["a.json", "b.json"])
          (withPolicyText twoInFile.fileText) =
        ⟨1, "/4 [mismatch]\n  reference: 4\n  candidate: 8\n", ""⟩) ∧
    (run (limitOnLine.line (some "policy.toml") ["a.json", "b.json"])
          ((withPolicyText illegalText).withFile "policy.toml" "") =
        ⟨1, "/1 [mismatch]\n  reference: 1\n  candidate: 6\n", ""⟩ ∧
      run (limitOnLine.line (some "policy.toml") ["a.json", "b.json"])
          (withPolicyText illegalText) =
        ⟨1, "/1 [mismatch]\n  reference: 1\n  candidate: 6\n", ""⟩) := by
  have there : ∀ source, (withPolicyText source).file "policy.toml" = .ok source := fun _ => rfl
  obtain ⟨-, -, written, -, overrides⟩ := run_by_any_source
  refine ⟨⟨run_fourChoices _, ?split⟩, run_limitOnLine _, ?overridden⟩
  case split =>
    have splits : fourChoices.Splits twoInFile threeOnLine := by
      refine ⟨fun flag => ?_, rfl⟩
      cases flag <;> rfl
    have same := written fourChoices twoInFile threeOnLine splits "policy.toml"
      ["a.json", "b.json"] (by decide) plain_documents (by decide) (by decide) _ (there _)
    exact same.trans (run_fourChoices _)
  case overridden =>
    have overridden : Arguments.Overrides ⟨["a.json", "b.json"],
        [(.flag .maxDiffs, "1"), (.format, "long"), (.config, "policy.toml")]⟩
        ⟨some "no format", [(.maxDiffs, .text "no number")]⟩ .empty := by
      refine ⟨fun flag decided => ?_, nofun⟩
      cases flag with
      | maxDiffs =>
        rcases decided with list | absent
        · cases list
        · cases absent
      | _ => rfl
    have toldToo : PolicyFile.read? "" = some .empty := by cbv
    have same := (overrides _ _ read_limitOnLine).2 "policy.toml" rfl (by decide) (by decide)
      (withPolicyText illegalText) illegalText "" _ .empty (there _) read?_illegalText toldToo
      overridden
    exact same.trans (run_limitOnLine _)

end StructuralDiff
