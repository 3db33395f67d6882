import Mathlib
import StructuralDiff.Proofs.UniquePaths

/-!
# The addresses of differences

A segment singles out one step when it is a name or a key with a value; a path of such
segments is an address. Steps are read by the same rules as patterns, so a key that is
spelled as a pattern leads to a path that is no address (`perform_at_patterns`). Where no
key of the documents is spelled so, every path that a comparison visits is an address, and
a pattern of names matches it only when the two are written alike.
-/

namespace StructuralDiff

namespace Segment

/-- The segment is a name. -/
def isPlain : Segment → Bool
  | .plain _ => true
  | _ => false

/-- The segment singles out one step: it is a name, or a key with a value. -/
def isConcrete : Segment → Bool
  | .plain _ => true
  | .keyValue _ _ => true
  | _ => false

/-- A token that is not spelled as a pattern: without the blanks at its ends it is not the
wildcard, and it does not start with a colon. -/
def NamesOneStep (token : String) : Prop :=
  Text.trim token ≠ "*" ∧ (Text.trim token).toList.head? ≠ some ':'

/-- A name, or a key with a value, singles out one step. -/
theorem isConcrete_ofName (name : List Char) : (ofName name).isConcrete = true := by
  unfold ofName
  split
  · split <;> rfl
  · rfl

/-- What is read singles out one step exactly when it is not spelled as a pattern. -/
theorem isConcrete_iff_of_read {token : String} {segment : Segment}
    (given : read token = .ok segment) : segment.isConcrete = true ↔ NamesOneStep token := by
  have chars : (Text.trim token).toList = Text.trimChars token.toList := by simp [Text.trim]
  rw [NamesOneStep, ← String.toList_inj.ne, chars]
  unfold read classify at given
  split at given
  · cases given
  · split at given
    · cases given
    · split at given
      · rename_i star
        cases given
        simp [star, isConcrete]
      · rename_i colon
        split at given
        · cases given
        · cases given
          simp [colon, isConcrete]
      · rename_i notStar notColon
        cases given
        have notExpression : (Text.trimChars token.toList).head? ≠ some ':' := by
          intro colon
          obtain ⟨key, written⟩ := List.head?_eq_some_iff.1 colon
          exact notColon key written
        simp only [isConcrete_ofName, true_iff]
        exact ⟨notStar, notExpression⟩

/-- A name matches a segment that singles out one step only when it is that segment. -/
theorem eq_of_accepts {pattern segment : Segment} (plain : pattern.isPlain = true)
    (concrete : segment.isConcrete = true) (accepted : pattern.accepts segment = true) :
    pattern = segment := by
  cases pattern <;> cases segment <;> simp_all [isPlain, isConcrete, accepts]

end Segment

namespace Path

/-- Every segment is a name. -/
def IsLiteral (path : Path) : Prop :=
  ∀ segment ∈ path.segments, segment.isPlain = true

/-- Every segment singles out one step: names, and keys with values, are all there is. -/
def IsAddress (path : Path) : Prop :=
  ∀ segment ∈ path.segments, segment.isConcrete = true

theorem root_isAddress : root.IsAddress := by simp [IsAddress, root]

/-- A step that is not spelled as a pattern leads from an address to an address. -/
theorem IsAddress.join {path child : Path} {token : String} (address : path.IsAddress)
    (one : Segment.NamesOneStep token) (joined : path.join token = .ok child) :
    child.IsAddress := by
  obtain ⟨segment, given, rfl⟩ := join_eq_ok_iff.1 joined
  intro other member
  rcases List.mem_append.1 member with old | new
  · exact address other old
  · rw [List.mem_singleton.1 new]
    exact (Segment.isConcrete_iff_of_read given).2 one

/-- Names that match the segments of an address one by one are these segments. -/
theorem segments_eq_of_accepts {names segments : List Segment}
    (plain : ∀ segment ∈ names, segment.isPlain = true)
    (concrete : ∀ segment ∈ segments, segment.isConcrete = true)
    (sameLength : names.length = segments.length)
    (accepted : ∀ pair ∈ names.zip segments, pair.1.accepts pair.2 = true) : names = segments := by
  induction names generalizing segments with
  | nil => exact (List.eq_nil_of_length_eq_zero sameLength.symm).symm
  | cons name names ih =>
    obtain ⟨segment, rest, rfl⟩ := List.exists_cons_of_length_eq_add_one sameLength.symm
    have here : name = segment := Segment.eq_of_accepts (plain _ List.mem_cons_self)
      (concrete _ List.mem_cons_self) (accepted (name, segment) List.mem_cons_self)
    have there : names = rest :=
      ih (fun other member => plain other (List.mem_cons_of_mem _ member))
        (fun other member => concrete other (List.mem_cons_of_mem _ member))
        (Nat.succ_injective sameLength)
        (fun pair member => accepted pair (List.mem_cons_of_mem _ member))
    rw [here, there]

/-- A pattern of names matches an address exactly when the two are written alike. -/
theorem accepts_iff_text_eq {pattern place : Path} (literal : pattern.IsLiteral)
    (address : place.IsAddress) : pattern.accepts place = true ↔ pattern.text = place.text := by
  simp only [accepts, sameText, Bool.or_eq_true, beq_iff_eq, Bool.and_eq_true, List.all_eq_true]
  constructor
  · rintro (alike | ⟨sameLength, accepted⟩)
    · exact alike
    · have segments := segments_eq_of_accepts literal address sameLength accepted
      rw [text, text, segments]
  · exact .inl

end Path

namespace Pairing

/-- A position is not spelled as a pattern. -/
theorem namesOneStep_positionStep (position : Nat) :
    Segment.NamesOneStep (positionStep position) := by
  have trimmed : Text.trim (positionStep position) = positionStep position :=
    (Position.Step.item_isPlain (position + 1)).2
  have digits : ∀ char ∈ (positionStep position).toList, char.isDigit = true :=
    fun _ member => Decimal.isDigit_of_mem_naturalText member
  constructor
  · rw [trimmed]
    intro star
    rw [star] at digits
    cases digits '*' (by simp)
  · rw [trimmed]
    intro colon
    cases digits ':' (List.mem_of_mem_head? colon)

end Pairing

namespace Segment

/-- The key in a name is not empty, and the name starts with it. -/
theorem key_of_ofName {name : List Char} {key value : String}
    (named : ofName name = .keyValue key value) : key.toList ≠ [] ∧ key.toList <+: name := by
  have written := toList_text_ofName name
  rw [named] at written
  have starts : key.toList <+: name := by
    rw [← written]
    exact ⟨'=' :: value.toList, by simp [text]⟩
  refine ⟨?_, starts⟩
  unfold ofName at named
  split at named
  · split at named
    · cases named
    · rename_i some
      cases named
      simp only [Bool.or_eq_true, not_or, List.isEmpty_iff] at some
      simpa using some.1.1
  · cases named

/-- The key of a segment that can be read back has a first character, which is no colon. -/
theorem exists_first_of_key {segment : Segment} {key : String} (legible : segment.Legible)
    (named : segment.key? = some key) : ∃ first rest, key.toList = first :: rest ∧ first ≠ ':' := by
  have clear := legible.clear
  unfold Legible read at legible
  rw [Text.trimChars_of_clear clear] at legible
  unfold classify at legible
  split at legible
  · cases legible
  · split at legible
    · cases legible
    · split at legible
      · cases legible
        cases named
      · split at legible
        · cases legible
        · rename_i solid
          cases legible
          cases named
          simp only [Bool.or_eq_true, not_or, List.isEmpty_iff] at solid
          obtain ⟨first, rest, rfl⟩ := List.exists_cons_of_ne_nil solid.1
          refine ⟨first, rest, by simp, ?_⟩
          rintro rfl
          simp at solid
      · rename_i notColon
        cases segment with
        | plain name => cases named
        | wildcard => cases named
        | keyExpression name =>
          have concrete := isConcrete_ofName (keyExpression name).text.toList
          rw [Except.ok.inj legible] at concrete
          cases concrete
        | keyValue name value =>
          cases named
          obtain ⟨some, starts⟩ := key_of_ofName (Except.ok.inj legible)
          obtain ⟨first, rest, written⟩ := List.exists_cons_of_ne_nil some
          refine ⟨first, rest, written, ?_⟩
          rintro rfl
          obtain ⟨after, whole⟩ := starts
          exact notColon (rest ++ after) (by rw [← whole, written]; rfl)

end Segment

namespace Pairing

/-- Nothing is cut off a step in front of the equals sign when the key does not start with a
blank. -/
theorem trimChars_keyStep {key : String} {first : Char} {rest : List Char}
    (keyed : key.toList = first :: rest) (solid : Text.isBlank first = false) (value : Value) :
    Text.trimChars (keyStep key value).toList =
      key.toList ++ '=' :: (Text.trimEnd value.segmentText).toList := by
  have written : (keyStep key value).toList =
      [] ++ first :: (rest ++ '=' :: value.segmentText.toList) := by
    simp [keyStep, keyed]
  rw [written, Text.trimChars_append_cons (by simp) solid,
    Text.dropTrailingBlanks_append_cons (by decide), keyed]
  simp [Text.trimEnd]

/-- The step is not spelled as a pattern when the key starts with neither a blank nor a
colon. -/
theorem namesOneStep_of_key {key : String} {first : Char} {rest : List Char}
    (keyed : key.toList = first :: rest) (solid : Text.isBlank first = false)
    (notColon : first ≠ ':') (value : Value) : Segment.NamesOneStep (keyStep key value) := by
  have chars : (Text.trim (keyStep key value)).toList =
      first :: (rest ++ '=' :: (Text.trimEnd value.segmentText).toList) := by
    rw [Text.trim, trimChars_keyStep keyed solid, keyed]
    simp
  constructor
  · intro star
    rw [star] at chars
    simp at chars
  · rw [chars]
    simpa using notColon

/-- The step to items that are paired by a key is not spelled as a pattern when the patterns
were read: it starts as the key does and holds an equals sign. -/
theorem namesOneStep_keyStep {policy : Policy} {path : Path} {key : String}
    (legible : ∀ pattern ∈ policy.matchByKey, pattern.Legible)
    (keyed : policy.keyFor path = .ok (some key)) (value : Value) :
    Segment.NamesOneStep (keyStep key value) := by
  obtain ⟨pattern, known, segment, member, named⟩ := Policy.exists_segment_of_keyFor keyed
  obtain ⟨first, rest, written, notColon⟩ :=
    Segment.exists_first_of_key (legible pattern known segment member).1 named
  have solid : Text.isBlank first = false :=
    Policy.clear_of_keyFor legible keyed first (by simp [written])
  exact namesOneStep_of_key written solid notColon value

end Pairing

namespace Comparison

variable {policy : Policy} {reference candidate : Value}

/-- No key is spelled as a pattern. -/
abbrev NamesSteps (value : Value) : Prop :=
  value.EveryKey fun key => Segment.NamesOneStep key.name

/-- A comparison of two documents comes by a path: it is the root, or one step below two
containers that stand for each other. -/
inductive Visits (policy : Policy) (reference candidate : Value) : Path → Prop where
  | root : Visits policy reference candidate .root
  | below {path child left right pairings pairing}
      (above : Meets policy reference candidate path left right)
      (shown : policy.excludes path = false)
      (planned : plan policy path left right = .descend pairings)
      (member : pairing ∈ pairings) (joined : path.join pairing.step = .ok child) :
      Visits policy reference candidate child

/-- A difference comes up at a path, for one of the four reasons that there are. -/
inductive ArisesAt (policy : Policy) (reference candidate : Value) : Path → Difference → Prop where
  | inShape {path left right} (meets : Meets policy reference candidate path left right)
      (shown : policy.excludes path = false)
      (planned : plan policy path left right = .differInShape) :
      ArisesAt policy reference candidate path
        ⟨.typeMismatch, path.text, some left, some right⟩
  | inValue {path left right} (meets : Meets policy reference candidate path left right)
      (shown : policy.excludes path = false)
      (planned : plan policy path left right = .compareScalars)
      (differ : (prepared policy path left).equal (prepared policy path right) = false) :
      ArisesAt policy reference candidate path ⟨.mismatch, path.text, some left, some right⟩
  | missing {path child left right pairings step value}
      (above : Meets policy reference candidate path left right)
      (shown : policy.excludes path = false)
      (planned : plan policy path left right = .descend pairings)
      (member : .missing step value ∈ pairings) (joined : path.join step = .ok child)
      (shownToo : policy.excludes child = false) :
      ArisesAt policy reference candidate child ⟨.missing, child.text, some value, none⟩
  | extra {path child left right pairings step value}
      (above : Meets policy reference candidate path left right)
      (shown : policy.excludes path = false)
      (planned : plan policy path left right = .descend pairings)
      (member : .extra step value ∈ pairings) (joined : path.join step = .ok child)
      (shownToo : policy.excludes child = false) :
      ArisesAt policy reference candidate child ⟨.extra, child.text, none, some value⟩

/-- A comparison comes by every path at which values stand for each other. -/
theorem Meets.visits {path : Path} {left right : Value}
    (meets : Meets policy reference candidate path left right) :
    Visits policy reference candidate path := by
  cases meets with
  | start => exact .root
  | onward above shown planned member joined => exact .below above shown planned member joined

/-- A comparison comes by every path at which a difference comes up. -/
theorem ArisesAt.visits {place : Path} {difference : Difference}
    (arises : ArisesAt policy reference candidate place difference) :
    Visits policy reference candidate place := by
  cases arises with
  | inShape meets => exact meets.visits
  | inValue meets => exact meets.visits
  | missing above shown planned member joined => exact .below above shown planned member joined
  | extra above shown planned member joined => exact .below above shown planned member joined

/-- A difference shows the written form of the path at which it comes up. -/
theorem ArisesAt.path_eq {place : Path} {difference : Difference}
    (arises : ArisesAt policy reference candidate place difference) :
    difference.path = place.text := by
  cases arises <;> rfl

/-- What comes up for one pairing that is no comparison of two values comes up one step
below. -/
theorem ArisesAt.of_mem_oneSided {path child : Path} {left right : Value}
    {pairings : List Pairing} (above : Meets policy reference candidate path left right)
    (shown : policy.excludes path = false)
    (planned : plan policy path left right = .descend pairings) {pairing : Pairing}
    (inPlan : pairing ∈ pairings) (joined : path.join pairing.step = .ok child)
    {difference : Difference} (member : difference ∈ (visit policy path pairing).differences) :
    ArisesAt policy reference candidate child difference ∨
      ∃ step first second, pairing = .both step first second ∧
        difference ∈ (walk policy child first second).differences := by
  cases pairing with
  | both step first second =>
    rw [visit_both joined] at member
    exact .inr ⟨step, first, second, rfl, member⟩
  | missing step value =>
    rw [visit_missing joined, oneSided] at member
    split at member
    · cases member
    · rename_i kept
      cases List.mem_singleton.1 member
      exact .inl (.missing above shown planned inPlan joined (by simpa using kept))
  | extra step value =>
    rw [visit_extra joined, oneSided] at member
    split at member
    · cases member
    · rename_i kept
      cases List.mem_singleton.1 member
      exact .inl (.extra above shown planned inPlan joined (by simpa using kept))

/-- Every difference that a walk comes upon comes up at some path. By induction along the
walk. -/
theorem exists_place_of_mem_walk {path : Path} {left right : Value}
    (meets : Meets policy reference candidate path left right) {difference : Difference}
    (member : difference ∈ (walk policy path left right).differences) :
    ∃ place, ArisesAt policy reference candidate place difference := by
  induction path, left, right using walk_induction policy with
  | visited path left right ih =>
    revert member
    refine walk_cases ?leftOut ?fails ?differs ?compares ?descends
    case leftOut => exact fun _ member => absurd member List.not_mem_nil
    case fails => exact fun _ _ _ member => absurd member List.not_mem_nil
    case differs =>
      intro shown planned member
      cases List.mem_singleton.1 member
      exact ⟨path, .inShape meets shown planned⟩
    case compares =>
      intro shown planned member
      unfold compareScalars at member
      split at member
      · cases member
      · rename_i differ
        cases List.mem_singleton.1 member
        exact ⟨path, .inValue meets shown planned (by simpa using differ)⟩
    case descends =>
      intro pairings shown planned member
      obtain ⟨trace, known, here⟩ := Trace.exists_of_mem_sequence member
      obtain ⟨pairing, inPlan, rfl⟩ := List.mem_map.1 known
      obtain ⟨child, joined, -⟩ := exists_child_of_mem_visit here
      rcases ArisesAt.of_mem_oneSided meets shown planned inPlan joined here with
        arises | ⟨step, first, second, rfl, found⟩
      · exact ⟨child, arises⟩
      · exact ih planned inPlan joined (meets.onward shown planned inPlan joined) found

/-- Where no key is spelled as a pattern, no step is. -/
theorem Meets.namesOneStep (legible : ∀ pattern ∈ policy.matchByKey, pattern.Legible)
    (references : NamesSteps reference) (candidates : NamesSteps candidate) {path : Path}
    {left right : Value} (meets : Meets policy reference candidate path left right)
    {pairings : List Pairing} (planned : plan policy path left right = .descend pairings)
    {pairing : Pairing} (member : pairing ∈ pairings) : Segment.NamesOneStep pairing.step := by
  rcases meets.step_cases planned member with
    ⟨entries, entry, object, held, step⟩ | ⟨position, step⟩ | ⟨key, value, keyed, step, -⟩
  · rw [step]
    exact meets.of_mem_entries references candidates object held
  · rw [step]
    exact Pairing.namesOneStep_positionStep position
  · rw [step]
    exact Pairing.namesOneStep_keyStep legible keyed value

/-- Where no key is spelled as a pattern, values stand for each other at addresses. By
induction on the steps. -/
theorem Meets.isAddress (legible : ∀ pattern ∈ policy.matchByKey, pattern.Legible)
    (references : NamesSteps reference) (candidates : NamesSteps candidate) {path : Path}
    {left right : Value} (meets : Meets policy reference candidate path left right) :
    path.IsAddress := by
  induction meets with
  | start => exact Path.root_isAddress
  | onward above shown planned member joined ih =>
    exact ih.join (above.namesOneStep legible references candidates planned member) joined

/-- Where no key is spelled as a pattern, a comparison comes by addresses only. -/
theorem Visits.isAddress (legible : ∀ pattern ∈ policy.matchByKey, pattern.Legible)
    (references : NamesSteps reference) (candidates : NamesSteps candidate) {place : Path}
    (visits : Visits policy reference candidate place) : place.IsAddress := by
  cases visits with
  | root => exact Path.root_isAddress
  | below above shown planned member joined =>
    have address := above.isAddress legible references candidates
    exact address.join (above.namesOneStep legible references candidates planned member) joined

/-- Where no key in two documents is spelled as a pattern, every difference is recorded at
an address, whichever the policy, and a pattern of names matches a path that the comparison
comes by exactly when the two are written alike. -/
theorem perform_at_addresses {draft : Draft} {policy : Policy} (built : draft.build = .ok policy)
    {reference candidate : Value} (references : NamesSteps reference)
    (candidates : NamesSteps candidate) {findings : Findings}
    (done : perform policy reference candidate = .ok findings) :
    (∀ difference ∈ findings.items, ∃ place,
      ArisesAt policy reference candidate place difference ∧ difference.path = place.text) ∧
    (∀ place difference, ArisesAt policy reference candidate place difference →
      place.IsAddress) ∧
    ∀ place, Visits policy reference candidate place →
      place.IsAddress ∧ ∀ pattern : Path, pattern.IsLiteral →
        (pattern.accepts place = true ↔ pattern.text = place.text) := by
  have legible := Draft.legible_of_mem_matchByKey built
  refine ⟨fun difference member => ?_, fun place difference arises => ?_, fun place visits => ?_⟩
  · have found := (items_prefix_of_perform done).subset member
    obtain ⟨place, arises⟩ := exists_place_of_mem_walk .start found
    exact ⟨place, arises, arises.path_eq⟩
  · exact arises.visits.isAddress legible references candidates
  · have address := visits.isAddress legible references candidates
    exact ⟨address, fun pattern literal => Path.accepts_iff_text_eq literal address⟩

/-- Items at `/x` are paired by their identifiers. -/
def pairedInX : Policy :=
  { Policy.default with matchByKey := [⟨[.plain "x", .keyExpression "id"]⟩] }

/-- A number in an item whose identifier is spelled as a wildcard. -/
def itemNamedStar (number : Int64) : Value :=
  .object [(.text "x", .array [.object
    [(.text "id", .text "*"), (.text "n", .number (.int number))]])]

/-- An identifier that is spelled as a wildcard is part of an address. -/
theorem perform_at_addresses_itemNamedStar :
    ∃ findings, perform pairedInX (itemNamedStar 1) (itemNamedStar 2) = .ok findings ∧
      findings.items.map Difference.path = ["/x/id=*/n"] ∧
      ∀ place, Visits pairedInX (itemNamedStar 1) (itemNamedStar 2) place → place.IsAddress := by
  have built :
      Draft.build { Draft.empty with matchByKey := [.text "/x/:id"] } = .ok pairedInX := by
    cbv
  have done : perform pairedInX (itemNamedStar 1) (itemNamedStar 2) = .ok {
      items := [⟨.mismatch, "/x/id=*/n", some (.number (.int 1)), some (.number (.int 2))⟩]
      positions := [("/x/id=*/n", 0)]
      limit := none } := by
    cbv
  have named : ∀ number, NamesSteps (itemNamedStar number) := by
    intro number
    have names : ∀ name ∈ ["x", "id", "n"], Segment.NamesOneStep name := by
      unfold Segment.NamesOneStep
      decide
    simp [NamesSteps, itemNamedStar, Value.EveryKey, Value.EveryKeyOfItems,
      Value.EveryKeyOfEntries, Key.name, names]
  obtain ⟨-, -, addresses⟩ := perform_at_addresses built (named 1) (named 2) done
  exact ⟨_, done, rfl, fun place visits => (addresses place visits).1⟩

/-- Two keys that are spelled as patterns, with one number under both. -/
def spelledAsPatterns (number : Int64) : Value :=
  .object [(.text "*", .number (.int number)), (.text ":id", .number (.int number))]

/-- Keys that are spelled as patterns lead to differences at a wildcard and at a key
expression. These are no addresses, and a name that is written differently matches the
first: when the name is rejected, only the second difference is found. -/
theorem perform_at_patterns :
    ∃ findings wildcard expression,
      perform .default (spelledAsPatterns 1) (spelledAsPatterns 2) = .ok findings ∧
      findings.items = [wildcard, expression] ∧
      ArisesAt .default (spelledAsPatterns 1) (spelledAsPatterns 2) ⟨[.wildcard]⟩ wildcard ∧
      ArisesAt .default (spelledAsPatterns 1) (spelledAsPatterns 2) ⟨[.keyExpression "id"]⟩
        expression ∧
      ¬ Path.IsAddress ⟨[.wildcard]⟩ ∧ ¬ Path.IsAddress ⟨[.keyExpression "id"]⟩ ∧
      Path.accepts ⟨[.plain "a"]⟩ ⟨[.wildcard]⟩ = true ∧
      Path.text ⟨[.plain "a"]⟩ ≠ Path.text ⟨[.wildcard]⟩ ∧
      ∃ policy fewer,
        Draft.build { Draft.empty with rejectPaths := [.text "/a"] } = .ok policy ∧
        perform policy (spelledAsPatterns 1) (spelledAsPatterns 2) = .ok fewer ∧
        fewer.items = [expression] := by
  have done : perform .default (spelledAsPatterns 1) (spelledAsPatterns 2) = .ok {
      items := [⟨.mismatch, "/*", some (.number (.int 1)), some (.number (.int 2))⟩,
        ⟨.mismatch, "/:id", some (.number (.int 1)), some (.number (.int 2))⟩]
      positions := [("/*", 0), ("/:id", 1)]
      limit := none } := by
    cbv
  have planned : plan .default .root (spelledAsPatterns 1) (spelledAsPatterns 2) = .descend
      [.both "*" (.number (.int 1)) (.number (.int 2)),
        .both ":id" (.number (.int 1)) (.number (.int 2))] := by
    cbv
  have meetsWildcard : Meets .default (spelledAsPatterns 1) (spelledAsPatterns 2) ⟨[.wildcard]⟩
      (.number (.int 1)) (.number (.int 2)) :=
    Meets.start.onward rfl planned List.mem_cons_self (by cbv)
  have meetsExpression : Meets .default (spelledAsPatterns 1) (spelledAsPatterns 2)
      ⟨[.keyExpression "id"]⟩ (.number (.int 1)) (.number (.int 2)) :=
    Meets.start.onward rfl planned (List.mem_cons_of_mem _ List.mem_cons_self) (by cbv)
  have rejected : perform { Policy.default with rejectPaths := [⟨[.plain "a"]⟩] }
      (spelledAsPatterns 1) (spelledAsPatterns 2) = .ok {
        items := [⟨.mismatch, "/:id", some (.number (.int 1)), some (.number (.int 2))⟩]
        positions := [("/:id", 0)]
        limit := none } := by
    cbv
  refine ⟨_, _, _, done, rfl, .inValue meetsWildcard (by cbv) (by cbv) (by cbv),
    .inValue meetsExpression (by cbv) (by cbv) (by cbv), ?_, ?_, by cbv, by decide,
    _, _, by cbv, rejected, rfl⟩
  · simp [Path.IsAddress, Segment.isConcrete]
  · simp [Path.IsAddress, Segment.isConcrete]

end Comparison

end StructuralDiff
