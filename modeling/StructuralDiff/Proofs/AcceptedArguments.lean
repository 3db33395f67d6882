import Mathlib
import StructuralDiff.Outcome
import StructuralDiff.Proofs.CommandText

/-!
# What accepted command lines stand for

A command line that is accepted stands for words (`Arguments.exists_words_of_readFrom`).
Which words these are depends on the arguments alone, not on what was read before them; so
the same arguments are accepted after other ones, as long as no operand is too many and no
option is repeated that may not be.
-/

namespace StructuralDiff

/-- A word that was read: its operand has a name, its option takes its value. -/
def Word.Taken : Word → Prop
  | .operand name => name ≠ ""
  | .given option value => option.allows value = true

namespace Arguments

/-- Words are added in one go or in two. -/
theorem extend_append (arguments : Arguments) (first second : List Word) :
    arguments.extend (first ++ second) = (arguments.extend first).extend second := by
  simp [extend]

/-- A step reads some words, whatever was read before, as long as they fit. -/
structure Reads {α : Type} (step : Arguments → Except UsageError α) (arguments : Arguments)
    (words : List Word) (next : Arguments → α) : Prop where
  taken : ∀ word ∈ words, word.Taken
  fits : arguments.Fits → (arguments.extend words).Fits
  everywhere : ∀ other, (other.extend words).Fits → step other = .ok (next (other.extend words))

/-- Reading nothing. -/
theorem Reads.nothing {α : Type} {step : Arguments → Except UsageError α} {arguments : Arguments}
    {next : Arguments → α} (everywhere : ∀ other, step other = .ok (next other)) :
    Reads step arguments [] next where
  taken word member := by cases member
  fits fits := by rwa [extend_nil]
  everywhere other _ := by rw [extend_nil, everywhere]

/-- Reading words and then more words. -/
theorem Reads.append {α β : Type} {first : Arguments → Except UsageError α}
    {second : Arguments → Except UsageError β} {step : Arguments → Except UsageError β}
    {arguments : Arguments} {words others : List Word} {middle : Arguments → α}
    {next : Arguments → β} (reads : Reads first arguments words middle)
    (readsToo : Reads second (arguments.extend words) others next)
    (onward : ∀ other, first other = .ok (middle (other.extend words)) →
      step other = second (other.extend words)) :
    Reads step arguments (words ++ others) next where
  taken word member := (List.mem_append.1 member).elim (reads.taken word) (readsToo.taken word)
  fits fits := by
    rw [extend_append]
    exact readsToo.fits (reads.fits fits)
  everywhere other fits := by
    rw [extend_append] at fits ⊢
    rw [onward other (reads.everywhere other fits.of_extend), readsToo.everywhere _ fits]

/-- An option that is given is read. -/
theorem reads_of_give {arguments result : Arguments} {option : CommandOption} {value : String}
    (given : arguments.give option value = .ok result) :
    result = arguments.extend [.given option value] ∧
      Reads (fun other => other.give option value) arguments [.given option value] id := by
  unfold give at given
  split at given
  · cases given
  · rename_i fresh
    split at given
    · cases given
    · rename_i allows
      cases given
      have allowed : option.allows value = true := by simpa using allows
      refine ⟨(extend_given ..).symm, ⟨?_, ?_, fun other fits => give_of_fits allowed fits⟩⟩
      · intro word member
        cases List.mem_singleton.1 member
        exact allowed
      · intro fits
        refine ⟨by simpa using fits.few, fun other single => ?_⟩
        have once := fits.once other single
        rw [values_extend, List.length_append]
        by_cases same : option = other
        · subst same
          have notGiven : arguments.values option = [] :=
            has_eq_false_iff.1 (by simpa [single] using fresh)
          rw [notGiven]
          simp [values, Arguments.none]
        · have notAdded : (Arguments.none.extend [.given option value]).values other = [] := by
            simp [values, Arguments.none, same]
          rw [notAdded]
          simpa using once

/-- An operand that is added is read. -/
theorem reads_of_addOperand {arguments result : Arguments} {name : String}
    (added : arguments.addOperand name = .ok result) :
    result = arguments.extend [.operand name] ∧
      Reads (fun other => other.addOperand name) arguments [.operand name] id := by
  unfold addOperand at added
  split at added
  · cases added
  · rename_i room
    split at added
    · cases added
    · rename_i named
      cases added
      refine ⟨(extend_operand ..).symm, ⟨?_, ?_, ?_⟩⟩
      · intro word member
        cases List.mem_singleton.1 member
        exact fun empty => named (beq_iff_eq.2 empty)
      · intro fits
        refine ⟨?_, ?_⟩
        · rw [extend_operand, List.length_append, List.length_singleton]
          omega
        · rw [extend_operand]
          exact fits.once
      · intro other fits
        have few := fits.few
        rw [extend_operand, List.length_append, List.length_singleton] at few
        have roomToo : ¬ 2 ≤ other.operands.length := by omega
        simp only [addOperand, roomToo, if_false, named, extend_operand]
        rfl

/-- How a step leads on: it reads words, or words and an option whose value has to follow, or
it asks for something else than a comparison. -/
inductive Leads (step : Arguments → Except UsageError Progress) (arguments : Arguments) :
    Progress → Prop where
  | onward {words} (reads : Reads step arguments words .more) :
      Leads step arguments (.more (arguments.extend words))
  | awaiting {words option} (reads : Reads step arguments words (.awaiting · option)) :
      Leads step arguments (.awaiting (arguments.extend words) option)
  | finished {request} (noComparison : ∀ given, request ≠ .compare given) :
      Leads step arguments (.finished request)

/-- An option that is given leads onward. -/
theorem leads_of_give {arguments : Arguments} {option : CommandOption} {value : String}
    {step : Arguments → Except UsageError Progress} {progress : Progress}
    (gives : ∀ other, step other = (other.give option value).map Progress.more)
    (stepped : step arguments = .ok progress) : Leads step arguments progress := by
  rw [gives] at stepped
  obtain ⟨result, given, rfl⟩ := Outcome.map_eq_ok_iff.1 stepped
  obtain ⟨rfl, reads⟩ := reads_of_give given
  refine .onward ⟨reads.taken, reads.fits, fun other fits => ?_⟩
  rw [gives, reads.everywhere other fits]
  rfl

/-- An option leads on. -/
theorem leads_readOption {arguments : Arguments} {option : CommandOption}
    {attached : Option String} {progress : Progress}
    (stepped : arguments.readOption option attached = .ok progress) :
    Leads (fun other => other.readOption option attached) arguments progress := by
  cases takes : option.takesValue with
  | true =>
    cases attached with
    | some value =>
      have gives : ∀ other : Arguments, other.readOption option (some value) =
          (other.give option value).map Progress.more := by
        intro other
        simp only [readOption, takes]
      exact leads_of_give gives stepped
    | none =>
      simp only [readOption, takes] at stepped
      cases stepped
      have reads : Reads (fun other => other.readOption option Option.none) arguments []
          (.awaiting · option) := .nothing fun other => by simp only [readOption, takes]
      simpa using Leads.awaiting reads
  | false =>
    cases attached with
    | some value =>
      simp only [readOption, takes] at stepped
      cases stepped
    | none =>
      by_cases asks : option = .help ∨ option = .version
      · rcases asks with rfl | rfl
        · cases stepped
          exact .finished fun given => by simp
        · cases stepped
          exact .finished fun given => by simp
      · have gives : ∀ other : Arguments, other.readOption option Option.none =
            (other.give option "").map Progress.more := by
          intro other
          cases option <;> simp_all [readOption]
        exact leads_of_give gives stepped

/-- Letters lead on. By induction on the letters. -/
theorem leads_readLetters {arguments : Arguments} {letters : List Char} {progress : Progress}
    (stepped : arguments.readLetters letters = .ok progress) :
    Leads (fun other => other.readLetters letters) arguments progress := by
  induction letters generalizing arguments progress with
  | nil =>
    cases stepped
    have reads : Reads (fun other => other.readLetters []) arguments [] .more :=
      .nothing fun other => rfl
    simpa using Leads.onward reads
  | cons letter rest ih =>
    cases known : CommandOption.ofLetter? letter with
    | none => simp [readLetters, known] at stepped
    | some option =>
      cases takes : option.takesValue with
      | true =>
        have same : (fun other : Arguments => other.readLetters (letter :: rest)) =
            fun other => other.readOption option (attachedTo rest) := by
          funext other
          simp [readLetters, known, takes]
        rw [same]
        rw [congrFun same arguments] at stepped
        exact leads_readOption stepped
      | false =>
        -- A letter without a value hands over to the letters behind it; all else ends there.
        have goesOn : ∀ other reached : Arguments,
            other.readOption option Option.none = .ok (.more reached) →
            other.readLetters (letter :: rest) = reached.readLetters rest := by
          intro other reached first
          simp [readLetters, known, takes, first]
        have ends : ∀ (other : Arguments) (outcome : Except UsageError Progress),
            other.readOption option Option.none = outcome →
            (∀ reached, outcome ≠ .ok (.more reached)) →
            other.readLetters (letter :: rest) = outcome := by
          intro other outcome first notMore
          cases outcome with
          | error fault => simp [readLetters, known, takes, first]
          | ok progress => cases progress <;> simp_all [readLetters]
        cases first : arguments.readOption option Option.none with
        | error fault =>
          rw [ends arguments _ first (by simp)] at stepped
          cases stepped
        | ok reached =>
          cases leads_readOption first with
          | onward reads =>
            rw [goesOn arguments _ first] at stepped
            cases ih stepped with
            | onward readsToo =>
              rw [← extend_append]
              exact .onward (reads.append readsToo fun other => goesOn other _)
            | awaiting readsToo =>
              rw [← extend_append]
              exact .awaiting (reads.append readsToo fun other => goesOn other _)
            | finished noComparison => exact .finished noComparison
          | awaiting reads =>
            rw [ends arguments _ first (by simp)] at stepped
            cases stepped
            refine .awaiting ⟨reads.taken, reads.fits, fun other fits => ?_⟩
            exact ends other _ (reads.everywhere other fits) (by simp)
          | finished noComparison =>
            rw [ends arguments _ first (by simp)] at stepped
            cases stepped
            exact .finished noComparison

/-- A long option leads on. -/
theorem leads_readLong {arguments : Arguments} {name : List Char} {progress : Progress}
    (stepped : arguments.readLong name = .ok progress) :
    Leads (fun other => other.readLong name) arguments progress := by
  cases known : CommandOption.ofLongName? (String.ofList (name.takeWhile (· != '='))) with
  | none => simp [readLong, known] at stepped
  | some option =>
    obtain ⟨attached, same⟩ : ∃ attached, ∀ other : Arguments,
        other.readLong name = other.readOption option attached := by
      simp only [readLong, known]
      exact ⟨_, fun other => rfl⟩
    rw [same] at stepped
    simp only [same]
    exact leads_readOption stepped

/-- An argument leads on. -/
theorem leads_readToken {arguments : Arguments} {token : String} {progress : Progress}
    (stepped : arguments.readToken token = .ok progress) :
    Leads (fun other => other.readToken token) arguments progress := by
  have forms : (∃ name, ∀ other : Arguments, other.readToken token = other.readLong name) ∨
      (∃ letters, ∀ other : Arguments, other.readToken token = other.readLetters letters) ∨
      ∀ other : Arguments, other.readToken token = (other.addOperand token).map Progress.more := by
    unfold readToken
    split
    · exact .inl ⟨_, fun other => rfl⟩
    · exact .inr (.inl ⟨_, fun other => rfl⟩)
    · exact .inr (.inr fun other => rfl)
  rcases forms with ⟨name, same⟩ | ⟨letters, same⟩ | same
  · rw [same] at stepped
    simp only [same]
    exact leads_readLong stepped
  · rw [same] at stepped
    simp only [same]
    exact leads_readLetters stepped
  · rw [same] at stepped
    obtain ⟨result, added, rfl⟩ := Outcome.map_eq_ok_iff.1 stepped
    obtain ⟨rfl, reads⟩ := reads_of_addOperand added
    refine .onward ⟨reads.taken, reads.fits, fun other fits => ?_⟩
    rw [same, reads.everywhere other fits]
    rfl

/-- Operands after two hyphens are read. -/
theorem reads_of_addOperands {arguments result : Arguments} {names : List String}
    (added : names.foldlM addOperand arguments = .ok result) :
    result = arguments.extend (names.map .operand) ∧
      Reads (fun other => names.foldlM addOperand other) arguments (names.map .operand) id := by
  induction names generalizing arguments with
  | nil =>
    cases Outcome.pure_eq_ok_iff.1 added
    exact ⟨(extend_nil _).symm, .nothing fun other => rfl⟩
  | cons name names ih =>
    rw [List.foldlM_cons] at added
    obtain ⟨middle, first, others⟩ := Outcome.bind_eq_ok_iff.1 added
    obtain ⟨rfl, reads⟩ := reads_of_addOperand first
    obtain ⟨rfl, readsToo⟩ := ih others
    refine ⟨(extend_cons ..).symm, reads.append readsToo fun other known => ?_⟩
    rw [List.foldlM_cons, known]
    rfl

/-- A request to compare is made of the arguments when there are operands. -/
theorem request_eq_ok_iff {arguments result : Arguments} :
    arguments.request = .ok (.compare result) ↔ result = arguments ∧ arguments.operands ≠ [] := by
  unfold request
  split
  · rename_i none
    simp [List.isEmpty_iff.1 none]
  · rename_i some
    have some : arguments.operands ≠ [] := by simpa using some
    simp [some, eq_comm]

/-- Arguments stand for words, whatever was read before, as long as the words fit and there
are operands in the end. -/
structure StandFor (tokens : List String) (arguments : Arguments) (words : List Word) : Prop where
  taken : ∀ word ∈ words, word.Taken
  some : (arguments.extend words).operands ≠ []
  fits : arguments.Fits → (arguments.extend words).Fits
  everywhere : ∀ other : Arguments, (other.extend words).Fits →
    (other.extend words).operands ≠ [] →
    other.readFrom tokens = .ok (.compare (other.extend words))

namespace StandFor

variable {arguments : Arguments} {token : String} {rest : List String} {words others : List Word}

/-- The end stands for nothing. -/
theorem nothing (some : arguments.operands ≠ []) : StandFor [] arguments [] where
  taken word member := by cases member
  some := by rwa [extend_nil]
  fits fits := by rwa [extend_nil]
  everywhere other _ some := by
    rw [extend_nil] at some ⊢
    rw [readFrom, request_eq_ok_iff]
    exact ⟨rfl, some⟩

/-- After two hyphens, there are operands. -/
theorem afterHyphens
    (reads : Reads (fun other => rest.foldlM addOperand other) arguments words id)
    (some : (arguments.extend words).operands ≠ []) : StandFor ("--" :: rest) arguments words where
  taken := reads.taken
  some := some
  fits := reads.fits
  everywhere other fits some := by
    have added : rest.foldlM addOperand other = .ok (other.extend words) :=
      reads.everywhere other fits
    cases rest <;>
      simp only [readFrom, BEq.rfl, if_true, added] <;>
      exact request_eq_ok_iff.2 ⟨rfl, some⟩

/-- An argument stands in front of others. -/
theorem cons (notLast : token ≠ "--")
    (reads : Reads (fun other => other.readToken token) arguments words .more)
    (standFor : StandFor rest (arguments.extend words) others) :
    StandFor (token :: rest) arguments (words ++ others) where
  taken word member := (List.mem_append.1 member).elim (reads.taken word) (standFor.taken word)
  some := by
    rw [extend_append]
    exact standFor.some
  fits fits := by
    rw [extend_append]
    exact standFor.fits (reads.fits fits)
  everywhere other fits some := by
    rw [extend_append] at fits some ⊢
    have stepped : other.readToken token = .ok (.more (other.extend words)) :=
      reads.everywhere other fits.of_extend
    have onward := standFor.everywhere _ fits some
    cases rest <;> simp only [readFrom, beq_iff_eq, notLast, if_false, stepped] at onward ⊢ <;>
      exact onward

/-- An option with its value in the next argument stands in front of others. -/
theorem consValue {option : CommandOption} {value : String} (notLast : token ≠ "--")
    (reads : Reads (fun other => other.readToken token) arguments words (.awaiting · option))
    (isValue : startsOption value = false)
    (given : Reads (fun other => other.give option value) (arguments.extend words)
      [.given option value] id)
    (standFor : StandFor rest ((arguments.extend words).extend [.given option value]) others) :
    StandFor (token :: value :: rest) arguments (words ++ [.given option value] ++ others) where
  taken word member := by
    rcases List.mem_append.1 member with front | later
    · exact (List.mem_append.1 front).elim (reads.taken word) (given.taken word)
    · exact standFor.taken word later
  some := by
    rw [extend_append, extend_append]
    exact standFor.some
  fits fits := by
    rw [extend_append, extend_append]
    exact standFor.fits (given.fits (reads.fits fits))
  everywhere other fits some := by
    rw [extend_append, extend_append] at fits some ⊢
    have stepped : other.readToken token = .ok (.awaiting (other.extend words) option) :=
      reads.everywhere other fits.of_extend.of_extend
    have added : (other.extend words).give option value =
        .ok ((other.extend words).extend [.given option value]) :=
      given.everywhere _ fits.of_extend
    simp only [readFrom, beq_iff_eq, notLast, if_false, stepped, isValue, Bool.false_eq_true, added]
    exact standFor.everywhere _ fits some

end StandFor

/-- A command line that is accepted stands for words, whatever was read before it. By
induction on the arguments: each of them leads on by some words. -/
theorem exists_words_of_readFrom {arguments result : Arguments} {tokens : List String}
    (accepted : arguments.readFrom tokens = .ok (.compare result)) :
    ∃ words, result = arguments.extend words ∧ StandFor tokens arguments words := by
  induction size : tokens.length using Nat.strongRecOn generalizing arguments tokens with
  | ind _ ih =>
    subst size
    cases tokens with
    | nil =>
      rw [readFrom] at accepted
      obtain ⟨rfl, some⟩ := request_eq_ok_iff.1 accepted
      exact ⟨[], (extend_nil _).symm, .nothing some⟩
    | cons token rest =>
      rw [readFrom.eq_def] at accepted
      by_cases last : token = "--"
      · subst last
        simp only [BEq.rfl, if_true] at accepted
        obtain ⟨middle, added, asked⟩ := Outcome.bind_eq_ok_iff.1 accepted
        obtain ⟨rfl, reads⟩ := reads_of_addOperands added
        obtain ⟨rfl, some⟩ := request_eq_ok_iff.1 asked
        exact ⟨_, rfl, .afterHyphens reads some⟩
      · simp only [beq_iff_eq, last, if_false] at accepted
        cases stepped : arguments.readToken token with
        | error fault => simp [stepped] at accepted
        | ok progress =>
          simp only [stepped] at accepted
          cases leads_readToken stepped with
          | onward reads =>
            obtain ⟨others, rfl, standFor⟩ := ih _ (by simp) accepted rfl
            exact ⟨_, (extend_append ..).symm, .cons last reads standFor⟩
          | awaiting reads =>
            cases rest with
            | nil => cases accepted
            | cons value rest =>
              simp only at accepted
              split at accepted
              · cases accepted
              · rename_i isValue
                split at accepted
                · rename_i given
                  obtain ⟨rfl, reading⟩ := reads_of_give given
                  obtain ⟨others, rfl, standFor⟩ := ih _ (by simp) accepted rfl
                  refine ⟨_, ?_, .consValue last reads (by simpa using isValue) reading standFor⟩
                  rw [extend_append, extend_append]
                · cases accepted
          | finished noComparison =>
            exact absurd (Except.ok.inj accepted) (noComparison _)

/-- Nothing is repeated where nothing is given. -/
theorem none_fits : Arguments.none.Fits := ⟨by simp [none], by simp [values, none]⟩

/-- Arguments that are accepted have operands, fit, and have options that take their
values. -/
theorem facts_of_read {tokens : List String} {arguments : Arguments}
    (accepted : read tokens = .ok (.compare arguments)) :
    arguments.operands ≠ [] ∧ arguments.Fits ∧
      ∀ entry ∈ arguments.options, entry.1.allows entry.2 = true := by
  obtain ⟨words, rfl, standFor⟩ := exists_words_of_readFrom accepted
  refine ⟨standFor.some, standFor.fits none_fits, fun entry member => ?_⟩
  have known : entry ∈ words.filterMap Word.option? := by simpa [extend, none] using member
  obtain ⟨word, held, same⟩ := List.mem_filterMap.1 known
  have taken := standFor.taken word held
  cases word with
  | operand name => cases same
  | given option value =>
    cases same
    exact taken

/-- A format that is not given has no value. -/
theorem format?_of_not_given {arguments : Arguments} (notGiven : arguments.has .format = false) :
    arguments.format? = Option.none := by
  rw [format?, value?, has_eq_false_iff.1 notGiven]
  rfl

/-- Arguments that are accepted name a format where they give one. -/
theorem isSome_format?_of_read {tokens : List String} {arguments : Arguments}
    (accepted : read tokens = .ok (.compare arguments)) (given : arguments.has .format = true) :
    arguments.format?.isSome = true := by
  obtain ⟨-, -, allowed⟩ := facts_of_read accepted
  have some : arguments.values .format ≠ [] := by
    intro none
    rw [has_eq_false_iff.2 none] at given
    cases given
  obtain ⟨value, others, known⟩ := List.exists_cons_of_ne_nil some
  have member : value ∈ arguments.values .format := by simp [known]
  obtain ⟨entry, held, rfl⟩ := List.mem_map.1 member
  obtain ⟨inOptions, isFormat⟩ := List.mem_filter.1 held
  have takes := allowed entry inOptions
  rw [of_decide_eq_true isFormat] at takes
  simp only [format?, value?, known, List.head?_cons, Option.bind_some]
  exact takes

/-- Arguments with the operands and options of others after their own. -/
def followedBy (arguments others : Arguments) : Arguments :=
  ⟨arguments.operands ++ others.operands, arguments.options ++ others.options⟩

/-- What is accepted is accepted after other arguments, if all fits. -/
theorem readFrom_of_read {arguments front : Arguments} {tokens : List String}
    (accepted : read tokens = .ok (.compare arguments))
    (fits : (front.followedBy arguments).Fits) :
    front.readFrom tokens = .ok (.compare (front.followedBy arguments)) := by
  obtain ⟨words, rfl, standFor⟩ := exists_words_of_readFrom accepted
  have same : front.followedBy (none.extend words) = front.extend words := by
    simp [followedBy, extend, none]
  rw [same] at fits ⊢
  have some : (front.extend words).operands ≠ [] := by
    rw [← same, followedBy]
    exact List.append_ne_nil_of_right_ne_nil _ standFor.some
  exact standFor.everywhere _ fits some

/-- One option. -/
def single (option : CommandOption) (value : String) : Arguments :=
  ⟨[], [(option, value)]⟩

/-- An option in front of others adds its value to its own values only. -/
theorem values_single_followedBy (arguments : Arguments) (option other : CommandOption)
    (value : String) :
    ((single option value).followedBy arguments).values other =
      if option = other then value :: arguments.values other else arguments.values other := by
  by_cases same : option = other <;> simp [single, followedBy, values, same]

/-- An option that is not given yet may be given in front. -/
theorem Fits.single_followedBy {arguments : Arguments} (fits : arguments.Fits)
    {option : CommandOption} (notGiven : arguments.has option = false) (value : String) :
    ((single option value).followedBy arguments).Fits where
  few := fits.few
  once other notRepeated := by
    rw [values_single_followedBy]
    split
    · rename_i same
      subst same
      rw [has_eq_false_iff.1 notGiven]
      exact Nat.le_refl 1
    · exact fits.once other notRepeated

/-- A long option without a value, or a letter with a value in the next argument, may be
written in front of a command line that does not give it. -/
theorem read_option_cons {arguments : Arguments} {tokens : List String}
    (accepted : read tokens = .ok (.compare arguments)) {option : CommandOption} {value : String}
    (notGiven : arguments.has option = false) {front : List String}
    (reads : ∀ rest, read (front ++ rest) = (single option value).readFrom rest) :
    read (front ++ tokens) = .ok (.compare ((single option value).followedBy arguments)) := by
  obtain ⟨-, fits, -⟩ := facts_of_read accepted
  rw [reads, readFrom_of_read accepted (fits.single_followedBy notGiven value)]

/-- The switch to stop at the first difference is read. -/
theorem read_failFast (rest : List String) :
    read (["--fail-fast"] ++ rest) = (single (.flag .failFast) "").readFrom rest := by
  have stepped : none.readToken "--fail-fast" = .ok (.more (single (.flag .failFast) "")) := by
    rfl
  rw [List.singleton_append, read, readFrom.eq_def]
  simp [stepped]

/-- A number of differences behind its letter is read. -/
theorem read_maxDiffs {value : String} (isValue : startsOption value = false) (rest : List String) :
    read (["-n", value] ++ rest) = (single (.flag .maxDiffs) value).readFrom rest := by
  have stepped : none.readToken "-n" = .ok (.awaiting none (.flag .maxDiffs)) := by rfl
  have given : none.give (.flag .maxDiffs) value = .ok (single (.flag .maxDiffs) value) := by rfl
  rw [List.cons_append, List.singleton_append, read, readFrom.eq_def]
  simp [stepped, isValue, given]

end Arguments

end StructuralDiff
