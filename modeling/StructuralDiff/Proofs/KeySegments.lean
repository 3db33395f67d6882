import Mathlib
import StructuralDiff.Proofs.Addresses
import StructuralDiff.Proofs.Exclusion
import StructuralDiff.Proofs.KeyResolution
import StructuralDiff.Proofs.PathDepth
import StructuralDiff.Proofs.PlainNumbers

/-!
# The step to items that are paired by a key

The step to the items with a value under a key is the key, an equals sign and the text of
the value. It is read by the rules for all steps, which know a key with a value by the one
equals sign that has something on both of its sides. So the step leads back to the key and
the text only where neither holds another equals sign and the text is not blank
(`Pairing.LeadsBack`). Otherwise it is a name like any other, and no key expression finds
the items (`Pairing.keyed_items_found_by_key_expression`).
-/

namespace StructuralDiff

namespace Text

/-- Trimming the end takes no character away that is not blank. -/
theorem mem_dropTrailingBlanks_iff {chars : List Char} {char : Char}
    (solid : isBlank char = false) : char ∈ dropTrailingBlanks chars ↔ char ∈ chars := by
  constructor
  · exact fun member => (List.rdropWhile_prefix isBlank chars).subset member
  · intro member
    obtain ⟨front, rest, rfl⟩ := List.append_of_mem member
    rw [dropTrailingBlanks_append_cons solid]
    exact List.mem_append_right _ List.mem_cons_self

/-- The text is not empty, and nothing in it is blank or an equals sign. -/
def IsWord (text : String) : Prop :=
  text.toList ≠ [] ∧ ∀ char ∈ text.toList, char ≠ '=' ∧ isBlank char = false

/-- Visible characters, none of them an equals sign, make a word. -/
theorem isWord_of_visible {text : String} (some : text.toList ≠ [])
    (visible : ∀ char ∈ text.toList, char ≠ '=' ∧ 32 < char.toNat ∧ char.toNat < 127) :
    IsWord text := by
  refine ⟨some, fun char member => ?_⟩
  obtain ⟨other, low, high⟩ := visible char member
  exact ⟨other, isBlank_of_printed low high⟩

/-- Digits with a sign and a point make a word. -/
theorem isWord_of_digits {text : String} (some : text.toList ≠ [])
    (digits : ∀ char ∈ text.toList, char.isDigit = true ∨ char = '-' ∨ char = '.') :
    IsWord text := by
  refine ⟨some, fun char member => ?_⟩
  rcases digits char member with digit | rfl | rfl
  · refine ⟨?_, isBlank_of_isDigit digit⟩
    rintro rfl
    cases digit
  · decide
  · decide

/-- Trimming the end leaves nothing exactly of a blank text. -/
theorem dropTrailingBlanks_eq_nil_iff {text : String} :
    dropTrailingBlanks text.toList = [] ↔ allBlank text = true := by
  rw [allBlank, List.all_eq_true]
  exact List.rdropWhile_eq_nil_iff

end Text

namespace Segment

/-- A name is divided at its first equals sign. -/
theorem span_pair {key value : List Char} (first : '=' ∉ key) :
    (key ++ '=' :: value).span (· != '=') = (key, '=' :: value) := by
  have others : ∀ char ∈ key, (char != '=') = true := by
    intro char member
    rw [bne_iff_ne]
    rintro rfl
    exact first member
  rw [List.span_eq_takeWhile_dropWhile, List.takeWhile_append_of_pos others,
    List.dropWhile_append_of_pos others]
  simp

/-- A name with an equals sign in it is a key with a value when it holds no other and has
something on both sides of it. -/
theorem ofName_pair {key value : List Char} (some : key ≠ []) :
    ofName (key ++ '=' :: value) =
      if '=' ∉ key ∧ '=' ∉ value ∧ value ≠ [] then
        .keyValue (String.ofList key) (String.ofList value)
      else .plain (String.ofList (key ++ '=' :: value)) := by
  by_cases clear : '=' ∈ key
  · obtain ⟨front, back, rfl, first⟩ := List.eq_append_cons_of_mem clear
    have name : front ++ '=' :: back ++ '=' :: value = front ++ '=' :: (back ++ '=' :: value) := by
      simp
    rw [if_neg (fun parts => parts.1 clear), name, ofName, span_pair first]
    simp
  · rw [ofName, span_pair clear]
    by_cases parts : '=' ∉ value ∧ value ≠ []
    · simp [some, clear, parts]
    · rw [if_neg (fun whole => parts whole.2)]
      have faulty : value = [] ∨ '=' ∈ value := by tauto
      rcases faulty with rfl | inside <;> simp [*]

/-- What names one step is read as a name, or as a key with a value. -/
theorem eq_ofName_of_read {token : String} {segment : Segment} (given : read token = .ok segment)
    (one : NamesOneStep token) : segment = ofName (Text.trimChars token.toList) := by
  have chars : (Text.trim token).toList = Text.trimChars token.toList := by simp [Text.trim]
  rw [NamesOneStep, ← String.toList_inj.ne, chars] at one
  unfold read classify at given
  split at given
  · cases given
  · split at given
    · cases given
    · split at given
      · rename_i star
        exact absurd star one.1
      · rename_i colon
        rw [colon] at one
        exact absurd rfl one.2
      · cases given
        rfl

end Segment

/-- The plain form of a number is a word: digits with a sign and a point, or the name of what
is not finite. -/
theorem Binary64.plainText_isWord (value : Binary64) : Text.IsWord value.plainText := by
  unfold plainText
  split
  · exact Text.isWord_of_visible (by simp) (by simp)
  · split
    · split <;> exact Text.isWord_of_visible (by simp) (by simp)
    · have written : (value.write .plain).toList =
          (if value.isNegative then ['-'] else []) ++ (Decimal.shortest value).inPlace false := by
        simp [write, Decimal.write, Decimal.Layout.plain]
      apply Text.isWord_of_digits
      · simp [written, Decimal.inPlace_ne_nil]
      · rw [written]
        intro char member
        rcases List.mem_append.1 member with sign | number
        · split at sign
          · exact .inr (.inl (List.mem_singleton.1 sign))
          · cases sign
        · have fine := Decimal.fine_shortest value
          rcases Decimal.isDigit_or_eq_of_mem_inPlace fine number with digit | point
          · exact .inl digit
          · exact .inr (.inr point)

/-- The text of a number is a word. -/
theorem Number.text_isWord (number : Number) : Text.IsWord number.text := by
  have integer : ∀ value, Text.IsWord (Decimal.integerText value) := by
    intro value
    apply Text.isWord_of_digits
    · simp [Decimal.integerText, Decimal.integerChars]
    · intro char member
      exact (isDigit_or_eq_of_mem_integerText member).imp_right .inl
  cases number with
  | int value => exact integer value.toInt
  | uint value =>
    apply Text.isWord_of_digits
    · simp [text, Decimal.naturalText]
    · exact fun char member => .inl (Decimal.isDigit_of_mem_naturalText member)
  | float value =>
    simp only [text]
    split
    · exact integer _
    · exact value.plainText_isWord

namespace Pairing

/-- The step to the items with a value under a key leads back to both: neither the key nor
the text of the value holds an equals sign, and the text is not blank. -/
structure LeadsBack (key : String) (value : Value) : Prop where
  key_clear : '=' ∉ key.toList
  text_clear : '=' ∉ value.segmentText.toList
  text_shown : Text.allBlank value.segmentText = false

instance (key : String) (value : Value) : Decidable (LeadsBack key value) :=
  decidable_of_iff
    ('=' ∉ key.toList ∧ '=' ∉ value.segmentText.toList ∧ Text.allBlank value.segmentText = false)
    ⟨fun ⟨key, text, shown⟩ => ⟨key, text, shown⟩,
      fun leads => ⟨leads.key_clear, leads.text_clear, leads.text_shown⟩⟩

variable {key name : String} {value : Value}

/-- A step leads back when it does with the text that is left of it after trimming. -/
theorem leadsBack_iff :
    LeadsBack key value ↔ '=' ∉ key.toList ∧ '=' ∉ (Text.trimEnd value.segmentText).toList ∧
      (Text.trimEnd value.segmentText).toList ≠ [] := by
  rw [Text.trimEnd, String.toList_ofList, Text.mem_dropTrailingBlanks_iff (by decide), ne_eq,
    Text.dropTrailingBlanks_eq_nil_iff, Bool.not_eq_true]
  constructor
  · exact fun leads => ⟨leads.key_clear, leads.text_clear, leads.text_shown⟩
  · exact fun ⟨key, text, shown⟩ => ⟨key, text, shown⟩

/-- What is neither a text nor a container leads back under every key without an equals
sign. -/
theorem leadsBack_of_isScalar (clear : '=' ∉ key.toList) (scalar : value.isScalar = true)
    (notText : ∀ text, value ≠ .text text) : LeadsBack key value := by
  have word : Text.IsWord value.segmentText := by
    cases value with
    | null => exact Text.isWord_of_visible (by decide) (by simp [Value.segmentText])
    | bool flag =>
      cases flag
      · exact Text.isWord_of_visible (by decide) (by simp [Value.segmentText, Value.boolText])
      · exact Text.isWord_of_visible (by decide) (by simp [Value.segmentText, Value.boolText])
    | number number => exact number.text_isWord
    | text text => exact absurd rfl (notText text)
    | array items => cases scalar
    | object entries => cases scalar
  obtain ⟨some, chars⟩ := word
  obtain ⟨first, rest, written⟩ := List.exists_cons_of_ne_nil some
  refine ⟨clear, fun sign => (chars _ sign).1 rfl, ?_⟩
  rw [Text.allBlank, written, List.all_cons, (chars first (by simp [written])).2, Bool.false_and]

/-- A key that makes a key expression is named in it without the blanks at its end. -/
theorem toList_name_of_read (expression : Segment.read (":" ++ key) = .ok (.keyExpression name)) :
    name.toList = Text.dropTrailingBlanks key.toList := by
  have spelled := Segment.toList_text_of_read expression
  have whole : (":" ++ key).toList = [] ++ ':' :: key.toList := by simp
  rw [whole, Text.trimChars_append_cons (by simp) (by decide)] at spelled
  simpa [Segment.text] using spelled

/-- Where a key makes a key expression and a step to items starts with it, the expression is
for the key itself, and the step is read as a name with an equals sign after the key. -/
theorem eq_ofName_of_read_keyStep
    (expression : Segment.read (":" ++ key) = .ok (.keyExpression name)) {segment : Segment}
    (given : Segment.read (keyStep key value) = .ok segment) :
    name = key ∧ key.toList ≠ [] ∧
      segment = Segment.ofName (key.toList ++ '=' :: (Text.trimEnd value.segmentText).toList) := by
  have legible := Segment.legible_of_read expression
  obtain ⟨first, rest, named, notColon⟩ := Segment.exists_first_of_key legible rfl
  have solid : Text.isBlank first = false := legible.clear first (by simp [Segment.text, named])
  have trimmed := toList_name_of_read expression
  obtain ⟨after, starts⟩ : Text.dropTrailingBlanks key.toList <+: key.toList :=
    List.rdropWhile_prefix Text.isBlank key.toList
  have keyed : key.toList = first :: (rest ++ after) := by
    rw [← starts, ← trimmed, named, List.cons_append]
  have step := trimChars_keyStep keyed solid value
  -- The whole step was read, so no blank stands in the key, not even at its end.
  have clear : ∀ char ∈ key.toList, Text.isBlank char = false := by
    intro char member
    apply (Segment.facts_of_classify given).2.1
    rw [step]
    exact List.mem_append_left _ member
  refine ⟨?_, by simp [keyed], ?_⟩
  · rw [← String.toList_inj, trimmed]
    apply List.rdropWhile_eq_self_iff.2
    intro full
    rw [clear _ (List.getLast_mem full)]
    exact Bool.false_ne_true
  · rw [Segment.eq_ofName_of_read given (namesOneStep_of_key keyed solid notColon value), step]

/-- The segment of the items is a key with a value when the step leads back, and a name
otherwise. -/
theorem segment_eq_of_read_keyStep
    (expression : Segment.read (":" ++ key) = .ok (.keyExpression name)) {segment : Segment}
    (given : Segment.read (keyStep key value) = .ok segment) :
    segment =
      if LeadsBack key value then .keyValue key (Text.trimEnd value.segmentText)
      else .plain (key ++ "=" ++ Text.trimEnd value.segmentText) := by
  obtain ⟨-, some, rfl⟩ := eq_ofName_of_read_keyStep expression given
  have name : String.ofList (key.toList ++ '=' :: (Text.trimEnd value.segmentText).toList) =
      key ++ "=" ++ Text.trimEnd value.segmentText := by
    rw [← String.toList_inj]
    simp
  simp only [Segment.ofName_pair some, leadsBack_iff, name, String.ofList_toList]

/-- The key expression matches the segment of the items exactly when the step leads back. -/
theorem accepts_iff_of_read_keyStep
    (expression : Segment.read (":" ++ key) = .ok (.keyExpression name)) {segment : Segment}
    (given : Segment.read (keyStep key value) = .ok segment) :
    (Segment.keyExpression name).accepts segment = true ↔ LeadsBack key value := by
  obtain ⟨rfl, -, -⟩ := eq_ofName_of_read_keyStep expression given
  rw [segment_eq_of_read_keyStep expression given]
  split
  · rename_i leads
    simp [Segment.accepts, leads]
  · rename_i astray
    simp [Segment.accepts, astray]

end Pairing

namespace Segment

/-- Names and wildcards match themselves; key expressions, and keys with values, do not. -/
theorem accepts_self_iff {segment : Segment} :
    segment.accepts segment = true ↔ segment.key? = none := by
  cases segment <;> simp [accepts, key?]

/-- Segments match themselves one by one when none of them goes by a key. -/
theorem acceptEach_self_iff {segments : List Segment} :
    AcceptEach segments segments ↔ ∀ segment ∈ segments, segment.key? = none := by
  rw [AcceptEach, List.forall₂_same]
  simp only [accepts_self_iff]

/-- Between segments that are matched, what decides is whether the two in the middle match. -/
theorem acceptEach_append_cons_iff {front above rest below : List Segment}
    {pattern segment : Segment} (leads : AcceptEach front above) (follows : AcceptEach rest below) :
    AcceptEach (front ++ pattern :: rest) (above ++ segment :: below) ↔
      pattern.accepts segment = true := by
  constructor
  · intro whole
    have later := List.forall₂_drop_append _ _ _ whole
    rw [← leads.length_eq, List.drop_left] at later
    exact (List.forall₂_cons.1 later).1
  · intro middle
    exact List.rel_append leads (.cons middle follows)

end Segment

namespace Policy

/-- Whichever list of a policy a pattern is on, the policy does at a path what the list is
for. -/
structure Heeds (policy : Policy) (pattern place : Path) : Prop where
  rejects : pattern ∈ policy.rejectPaths → ∀ under : Path, place.segments <+: under.segments →
    policy.excludes under = true
  selects : pattern ∈ policy.selectPaths → ∀ under : Path, place.segments <+: under.segments →
    under.onOrUnder policy.selectPaths = true
  pairsByValue : pattern ∈ policy.matchByValue → policy.matchesByValue place = true
  normalizes : pattern ∈ policy.normalizers.map Prod.fst →
    (policy.normalizerFor place).isSome = true
  /-- A longer pattern goes on with a key expression after this one. -/
  pairsByKey : ∀ longer ∈ policy.matchByKey, ∀ key,
    pattern.segments ++ [.keyExpression key] <+: longer.segments →
    ⟨pattern.segments ++ [.keyExpression key]⟩ ∈ policy.keyPatternsFor place

/-- A policy heeds its patterns at every path below the root that they match. -/
theorem heeds_of_accepts {draft : Draft} {policy : Policy} (built : draft.build = .ok policy)
    {pattern place : Path} (accepted : pattern.accepts place = true)
    (below : place.isRoot = false) : policy.Heeds pattern place where
  rejects := by
    intro known under starts
    have rejected : policy.rejects place = true :=
      Path.onOrUnder_iff.2 ⟨pattern, known, place, List.prefix_refl _, accepted⟩
    exact excludes_of_rejects starts below rejected
  selects := fun known under starts => Path.onOrUnder_iff.2 ⟨pattern, known, place, starts, accepted⟩
  pairsByValue := by
    intro known
    exact List.any_eq_true.2 ⟨pattern, known, accepted⟩
  normalizes := by
    intro known
    obtain ⟨entry, member, rfl⟩ := List.mem_map.1 known
    rw [normalizerFor, Option.isSome_map, List.find?_isSome]
    exact ⟨entry, member, accepted⟩
  pairsByKey := by
    intro longer known key starts
    rw [mem_keyPatternsFor_iff (Draft.legible_of_mem_matchByKey built)]
    refine ⟨⟨⟨longer, known, starts⟩, key, by simp [Path.lastSegment?]⟩, ?_⟩
    simp [Path.appliesAt, Path.parent?, Path.isRoot, accepted]

end Policy

namespace Pairing

variable {key name : String} {value : Value}

/-- The items that are paired by a key stand under a key with a value when the step to them
leads back, and under a name otherwise. That is also when the key expression for the key
matches their segment: a pattern that goes by it between segments that are matched finds what
is below the items exactly then, and the policies that hold the pattern heed it there. The
path above the items can stand for itself in such a pattern when none of its segments goes by
a key. Truth values, numbers and null always lead back under a key without an equals sign. -/
theorem keyed_items_found_by_key_expression {path child : Path}
    (expression : Segment.read (":" ++ key) = .ok (.keyExpression name))
    (joined : path.join (keyStep key value) = .ok child) :
    child.lastSegment? = some
      (if LeadsBack key value then .keyValue key (Text.trimEnd value.segmentText)
        else .plain (key ++ "=" ++ Text.trimEnd value.segmentText)) ∧
    (∀ segment, child.lastSegment? = some segment →
      ((Segment.keyExpression name).accepts segment = true ↔ LeadsBack key value)) ∧
    (∀ front rest below, Segment.AcceptEach front path.segments → Segment.AcceptEach rest below →
      (Segment.AcceptEach (front ++ .keyExpression name :: rest) (child.segments ++ below) ↔
        LeadsBack key value) ∧
      (LeadsBack key value → ∀ (draft : Draft) (policy : Policy), draft.build = .ok policy →
        policy.Heeds ⟨front ++ .keyExpression name :: rest⟩ ⟨child.segments ++ below⟩)) ∧
    (Segment.AcceptEach path.segments path.segments ↔
      ∀ segment ∈ path.segments, segment.key? = none) ∧
    (value.isScalar = true → (∀ text, value ≠ .text text) → '=' ∉ key.toList →
      LeadsBack key value) := by
  obtain ⟨segment, given, rfl⟩ := Path.join_eq_ok_iff.1 joined
  have last : Path.lastSegment? ⟨path.segments ++ [segment]⟩ = some segment := by
    simp [Path.lastSegment?]
  have accepts := accepts_iff_of_read_keyStep expression given
  refine ⟨?_, ?_, fun front rest below leads follows => ?_, Segment.acceptEach_self_iff, ?_⟩
  · rw [last, segment_eq_of_read_keyStep expression given]
  · intro other ends
    rw [last, Option.some.injEq] at ends
    rw [← ends]
    exact accepts
  · have whole : path.segments ++ [segment] ++ below = path.segments ++ segment :: below := by simp
    have each : Segment.AcceptEach (front ++ .keyExpression name :: rest)
        (path.segments ++ segment :: below) ↔ LeadsBack key value :=
      (Segment.acceptEach_append_cons_iff leads follows).trans accepts
    rw [whole]
    refine ⟨each, fun leadsBack draft policy built => ?_⟩
    apply Policy.heeds_of_accepts built
    · exact Path.accepts_iff.2 (.inr (each.2 leadsBack))
    · simp [Path.isRoot]
  · exact fun scalar notText clear => leadsBack_of_isScalar clear scalar notText

/-- Two key expressions, one below the other, and a rejected path below what the first of them
pairs. -/
def rejectingBelowItems : Policy :=
  { Policy.default with
    rejectPaths := [⟨[.plain "items", .keyExpression "id", .plain "v"]⟩]
    matchByKey := [⟨[.plain "items", .keyExpression "id", .plain "parts", .keyExpression "name"]⟩] }

theorem build_rejectingBelowItems :
    Draft.build { Draft.empty with
      rejectPaths := [.text "/items/:id/v"]
      matchByKey := [.text "/items/:id/parts/:name"] } = .ok rejectingBelowItems := by
  cbv

/-- A text with a colon in it and a blank at its end leads back: what is rejected below the
items is left out, and what is below them is paired by its own key. -/
theorem keyed_items_found_by_key_expression_colon :
    ∃ child, Path.join ⟨[.plain "items"]⟩ (keyStep "id" (.text "x:1 ")) = .ok child ∧
      child.lastSegment? = some (.keyValue "id" "x:1") ∧
      rejectingBelowItems.excludes ⟨child.segments ++ [.plain "v"]⟩ = true ∧
      ⟨[.plain "items", .keyExpression "id", .plain "parts", .keyExpression "name"]⟩ ∈
        rejectingBelowItems.keyPatternsFor ⟨child.segments ++ [.plain "parts"]⟩ ∧
      LeadsBack "id" (.bool true) := by
  have expression : Segment.read (":" ++ "id") = .ok (.keyExpression "id") := by cbv
  have joined : Path.join ⟨[.plain "items"]⟩ (keyStep "id" (.text "x:1 ")) =
      .ok ⟨[.plain "items", .keyValue "id" "x:1"]⟩ := by cbv
  have joinedToo : Path.join ⟨[.plain "items"]⟩ (keyStep "id" (.bool true)) =
      .ok ⟨[.plain "items", .keyValue "id" "true"]⟩ := by cbv
  have leadsBack : LeadsBack "id" (.text "x:1 ") := by decide
  obtain ⟨last, -, finds, itself, -⟩ := keyed_items_found_by_key_expression expression joined
  obtain ⟨-, -, -, -, simple⟩ := keyed_items_found_by_key_expression expression joinedToo
  have front := itself.2 (by decide)
  have heeds : ∀ step, rejectingBelowItems.Heeds
      ⟨[.plain "items", .keyExpression "id", .plain step]⟩
      ⟨[.plain "items", .keyValue "id" "x:1", .plain step]⟩ := by
    intro step
    have below : Segment.AcceptEach [.plain step] [.plain step] :=
      Segment.acceptEach_self_iff.2 (by simp [Segment.key?])
    exact (finds _ _ _ front below).2 leadsBack _ _ build_rejectingBelowItems
  refine ⟨_, joined, ?_, ?_, ?_, simple rfl (by simp) (by decide)⟩
  · rw [last, if_pos leadsBack]
    cbv
  · exact (heeds "v").rejects List.mem_cons_self _ (List.prefix_refl _)
  · exact (heeds "parts").pairsByKey _ List.mem_cons_self "name" (List.prefix_refl _)

/-- One item in a list, with an identifier and a number. -/
def oneItem (identifier : String) (number : Int64) : Value :=
  .array [.object [(.text "id", .text identifier), (.text "v", .number (.int number))]]

/-- Items are paired by their identifiers, and their numbers are rejected. -/
def rejectingNumbers : Policy :=
  { Policy.default with
    rejectPaths := [⟨[.keyExpression "id", .plain "v"]⟩]
    matchByKey := [⟨[.keyExpression "id"]⟩] }

/-- Items whose identifier holds an equals sign or is empty, and items with any identifier
under a key that holds one, are read as a name: the key expression that pairs them does not
match it. So the numbers of the items are rejected for one identifier and not for another. -/
theorem keyed_items_not_found :
    Segment.read (":" ++ "id") = .ok (.keyExpression "id") ∧
    Path.join .root (keyStep "id" (.text "a=b")) = .ok ⟨[.plain "id=a=b"]⟩ ∧
    Path.join .root (keyStep "id" (.text "")) = .ok ⟨[.plain "id="]⟩ ∧
    (∀ name, (Segment.keyExpression "id").accepts (.plain name) = false) ∧
    Segment.read (":" ++ "a=b") = .ok (.keyExpression "a=b") ∧
    Path.join .root (keyStep "a=b" .null) = .ok ⟨[.plain "a=b=null"]⟩ ∧
    Draft.build { Draft.empty with
      rejectPaths := [.text "/:id/v"]
      matchByKey := [.text "/:id"] } = .ok rejectingNumbers ∧
    ∃ findings fewer,
      Comparison.perform rejectingNumbers (oneItem "a=b" 1) (oneItem "a=b" 2) = .ok findings ∧
      findings.items.map Difference.path = ["/id=a=b/v"] ∧
      Comparison.perform rejectingNumbers (oneItem "a" 1) (oneItem "a" 2) = .ok fewer ∧
      fewer.items = [] := by
  have found : Comparison.perform rejectingNumbers (oneItem "a=b" 1) (oneItem "a=b" 2) = .ok {
      items := [⟨.mismatch, "/id=a=b/v", some (.number (.int 1)), some (.number (.int 2))⟩]
      positions := [("/id=a=b/v", 0)]
      limit := none } := by
    cbv
  have rejected : Comparison.perform rejectingNumbers (oneItem "a" 1) (oneItem "a" 2) =
      .ok { items := [], positions := [], limit := none } := by
    cbv
  exact ⟨by cbv, by cbv, by cbv, fun _ => rfl, by cbv, by cbv, by cbv,
    _, _, found, rfl, rejected, rfl⟩

end Pairing

end StructuralDiff
