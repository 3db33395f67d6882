import Mathlib
import StructuralDiff.CommandLine.Arguments

/-!
# Command lines that are written out

A word is an operand, or an option under its long name with its value behind an equals
sign. A command line of words is read as the operands and options that the words stand
for, in their order and in any mixture (`Arguments.read_map_token`), as long as each word
is legal and no option is repeated that may not be.
-/

namespace StructuralDiff

namespace CommandOption

/-- An option is known by its long name. -/
theorem ofLongName?_longName (option : CommandOption) :
    ofLongName? option.longName = some option := by
  cases option with
  | flag given => cases given <;> decide
  | _ => decide

/-- A long name holds no equals sign. -/
theorem notMem_longName (option : CommandOption) : '=' ∉ option.longName.toList := by
  cases option with
  | flag given => cases given <;> decide
  | _ => decide

/-- A long name is not empty. -/
theorem longName_ne (option : CommandOption) : option.longName.toList ≠ [] := by
  cases option with
  | flag given => cases given <;> decide
  | _ => decide

end CommandOption

/-- What one argument stands for. -/
inductive Word where
  | operand (name : String)
  | given (option : CommandOption) (value : String)

namespace Word

/-- The argument that is written for a word. -/
def token : Word → String
  | .operand name => name
  | .given option value =>
    if option.takesValue then "--" ++ option.longName ++ "=" ++ value else "--" ++ option.longName

/-- The operand that a word is. -/
def operand? : Word → Option String
  | .operand name => some name
  | .given _ _ => none

/-- The option that a word is, with its value. -/
def option? : Word → Option (CommandOption × String)
  | .operand _ => none
  | .given option value => some (option, value)

/-- An operand has a name that is no option's. An option has a value that it takes; one
without a value has the empty one, and neither help nor the version is asked for. -/
def Legal : Word → Prop
  | .operand name => name ≠ "" ∧ Arguments.startsOption name = false
  | .given option value => option.allows value = true ∧
      (option.takesValue = false → value = "" ∧ option ≠ .help ∧ option ≠ .version)

end Word

namespace Arguments

/-- Arguments with those that words stand for after them. -/
def extend (arguments : Arguments) (words : List Word) : Arguments where
  operands := arguments.operands ++ words.filterMap Word.operand?
  options := arguments.options ++ words.filterMap Word.option?

@[simp] theorem extend_nil (arguments : Arguments) : arguments.extend [] = arguments := by
  simp [extend]

/-- Words are added one after another. -/
theorem extend_cons (arguments : Arguments) (word : Word) (words : List Word) :
    arguments.extend (word :: words) = (arguments.extend [word]).extend words := by
  cases word <;> simp [extend, List.filterMap_cons, Word.operand?, Word.option?]

@[simp] theorem extend_operand (arguments : Arguments) (name : String) :
    arguments.extend [.operand name] = ⟨arguments.operands ++ [name], arguments.options⟩ := by
  simp [extend, List.filterMap_cons, Word.operand?, Word.option?]

@[simp] theorem extend_given (arguments : Arguments) (option : CommandOption) (value : String) :
    arguments.extend [.given option value] =
      ⟨arguments.operands, arguments.options ++ [(option, value)]⟩ := by
  simp [extend, List.filterMap_cons, Word.operand?, Word.option?]

/-- There are two operands at most, and no option is repeated that may not be. -/
structure Fits (arguments : Arguments) : Prop where
  few : arguments.operands.length ≤ 2
  once : ∀ option : CommandOption, option.repeats = false →
    (arguments.values option).length ≤ 1

/-- The values that words give to an option come after those that it has. -/
theorem values_extend (arguments : Arguments) (words : List Word) (option : CommandOption) :
    (arguments.extend words).values option =
      arguments.values option ++ (Arguments.none.extend words).values option := by
  simp [values, extend, Arguments.none]

/-- What fits with more words after it fits. -/
theorem Fits.of_extend {arguments : Arguments} {words : List Word}
    (fits : (arguments.extend words).Fits) : arguments.Fits where
  few := by
    have few := fits.few
    rw [extend, List.length_append] at few
    omega
  once option single := by
    have once := fits.once option single
    rw [values_extend, List.length_append] at once
    omega

/-- An option that is given has a value. -/
theorem has_eq_false_iff {arguments : Arguments} {option : CommandOption} :
    arguments.has option = false ↔ arguments.values option = [] := by
  simp [has, values]

/-- An option is added when it may be given and takes the value. -/
theorem give_of_fits {arguments : Arguments} {option : CommandOption} {value : String}
    (allowed : option.allows value = true)
    (fits : (arguments.extend [.given option value]).Fits) :
    arguments.give option value = .ok (arguments.extend [.given option value]) := by
  have fresh : (!option.repeats && arguments.has option) = false := by
    cases again : option.repeats with
    | true => rfl
    | false =>
      have once := fits.once option again
      have added : ((Arguments.none.extend [.given option value]).values option).length = 1 := by
        simp [values, Arguments.none]
      rw [values_extend, List.length_append, added] at once
      have none : arguments.values option = [] := List.eq_nil_of_length_eq_zero (by omega)
      rw [has_eq_false_iff.2 none]
      rfl
  simp [give, fresh, allowed]

/-- A legal word is read as what it stands for, and it does not end the options. -/
theorem readToken_token {arguments : Arguments} {word : Word} (legal : word.Legal)
    (fits : (arguments.extend [word]).Fits) :
    word.token ≠ "--" ∧ arguments.readToken word.token = .ok (.more (arguments.extend [word])) := by
  cases word with
  | operand name =>
    obtain ⟨named, notOption⟩ := legal
    constructor
    · rintro rfl
      cases notOption
    · have room : ¬ 2 ≤ arguments.operands.length := by
        have few := fits.few
        rw [extend_operand, List.length_append, List.length_singleton] at few
        omega
      unfold startsOption at notOption
      unfold readToken Word.token
      split
      · rename_i written
        simp [written] at notOption
      · rename_i written
        simp [written] at notOption
      · simp [addOperand, room, named, Except.map]
  | given option value =>
    obtain ⟨allowed, plain⟩ := legal
    have clear : ∀ char ∈ option.longName.toList, (char != '=') = true := by
      intro char member
      exact bne_iff_ne.2 fun same => option.notMem_longName (same ▸ member)
    have given := give_of_fits allowed fits
    cases takes : option.takesValue with
    | true =>
      have written : (Word.given option value).token.toList =
          '-' :: '-' :: (option.longName.toList ++ '=' :: value.toList) := by
        simp [Word.token, takes]
      constructor
      · intro ending
        rw [ending] at written
        simp at written
      · have long : arguments.readToken (Word.given option value).token =
            arguments.readLong (option.longName.toList ++ '=' :: value.toList) := by
          simp only [readToken, written]
        rw [long, readLong, List.takeWhile_append_of_pos clear, List.dropWhile_append_of_pos clear]
        simp [option.ofLongName?_longName, readOption, takes, given, Except.map]
    | false =>
      obtain ⟨rfl, notHelp, notVersion⟩ := plain takes
      have written : (Word.given option "").token.toList = '-' :: '-' :: option.longName.toList := by
        simp [Word.token, takes]
      constructor
      · intro ending
        rw [ending] at written
        have empty : [] = option.longName.toList := by simpa using written
        exact option.longName_ne empty.symm
      · have long : arguments.readToken (Word.given option "").token =
            arguments.readLong option.longName.toList := by
          simp only [readToken, written]
        have whole : option.longName.toList.takeWhile (· != '=') = option.longName.toList :=
          List.takeWhile_eq_self_iff.2 clear
        have nothing : option.longName.toList.dropWhile (· != '=') = [] :=
          List.dropWhile_eq_nil_iff.2 clear
        rw [long, readLong, whole, nothing]
        simp only [String.ofList_toList, option.ofLongName?_longName, readOption, takes]
        cases option <;> simp_all [Except.map]

/-- Words are read as what they stand for. By induction on the words: what is read already
grows by each of them. -/
theorem readFrom_map_token {arguments : Arguments} {words : List Word}
    (legal : ∀ word ∈ words, word.Legal) (fits : (arguments.extend words).Fits)
    (rest : List String) :
    arguments.readFrom (words.map Word.token ++ rest) =
      (arguments.extend words).readFrom rest := by
  induction words generalizing arguments with
  | nil => simp
  | cons word words ih =>
    rw [extend_cons] at fits
    obtain ⟨notEnding, taken⟩ := readToken_token (legal word List.mem_cons_self) fits.of_extend
    have onward := ih (fun other member => legal other (List.mem_cons_of_mem _ member)) fits
    rw [List.map_cons, List.cons_append, readFrom]
    simp only [beq_iff_eq, notEnding, if_false, taken]
    rw [onward, ← extend_cons]

/-- A command line of legal words is read as what the words stand for. -/
theorem read_map_token {words : List Word} (legal : ∀ word ∈ words, word.Legal)
    (fits : (Arguments.none.extend words).Fits)
    (some : (Arguments.none.extend words).operands ≠ []) :
    Arguments.read (words.map Word.token) = .ok (.compare (Arguments.none.extend words)) := by
  have whole := readFrom_map_token legal fits []
  rw [List.append_nil] at whole
  rw [Arguments.read, whole, readFrom, request]
  simp [some]

end Arguments

end StructuralDiff
