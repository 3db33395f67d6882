import Mathlib
import StructuralDiff.Proofs.ReportLines
import StructuralDiff.Report.Render

/-!
# Findings as blocks

A long report has a block of three lines for each difference, and an empty line between
blocks. No line of a block is empty, so the empty lines divide the report into the blocks
(`Report.lines_long`); and a block tells the path of its difference, which ends at the
first space, the kind, and on each side the compact text of the value or that there is none
(`Report.blockLines_eq_iff`). So a report without colors tells everything that it shows
(`Report.long_report_tells_findings`).
-/

namespace StructuralDiff

/-- The names of the kinds are distinct. -/
theorem DifferenceKind.name_injective : Function.Injective DifferenceKind.name := by
  intro left right same
  cases left <;> cases right <;> first | rfl | exact absurd same (by decide)

namespace Report

/-- Two differences are told alike: they have the same path and kind, and on each side either
both have no value or both have values with the same compact text. -/
structure ToldAlike (left right : Difference) : Prop where
  path : left.path = right.path
  kind : left.kind = right.kind
  reference : left.reference.map Value.inspect = right.reference.map Value.inspect
  candidate : left.candidate.map Value.inspect = right.candidate.map Value.inspect

/-- The lines of the block of a difference. -/
def blockLines (difference : Difference) : List String :=
  [difference.path ++ " [" ++ difference.kind.name ++ "]",
    "  reference: " ++ longValue difference.reference,
    "  candidate: " ++ longValue difference.candidate]

/-! ## What a line tells -/

/-- What stands for an absent value has two words in a row. -/
theorem scan_noValue : Json.scan "[no value]".toList =
    some [.mark '[', .word "no".toList, .word "value".toList, .mark ']'] := by
  have word : ∀ letters : List Char, letters ≠ [] → letters.all Json.isWordChar = true →
      Json.scan letters = some [.word letters] := fun letters nonempty each =>
    Json.scan_word nonempty (List.all_eq_true.1 each)
  have second : Json.scan ([' '] ++ "value".toList) = some [.word "value".toList] := by
    rw [Json.scan_space_append (by simp; decide)]
    exact word _ (by simp) (by simp; decide)
  have both : Json.scan ("no".toList ++ ([' '] ++ "value".toList)) =
      some ([.word "no".toList] ++ [.word "value".toList]) :=
    Json.scan_append (word _ (by simp) (by simp; decide)) (Json.apart_cons.2 (by decide)) second
  simpa using Json.scan_enclosed (by decide : '[' ∈ Json.punctuation) (by decide) both

/-- No value is written as what stands for an absent one: between two items of an array there
is a comma. -/
theorem inspect_ne_noValue (value : Value) : value.inspect ≠ "[no value]" := by
  intro same
  have tokens := value.toJson.scan_compactChars
  rw [← value.toList_inspect, same, scan_noValue, Option.some_inj] at tokens
  cases json : value.toJson with
  | array items =>
    rw [json, Json.tokens, List.cons_append, List.cons.injEq, Json.itemTokens_eq] at tokens
    obtain ⟨-, inside⟩ := tokens
    cases items with
    | nil => simp at inside
    | cons first items =>
      cases items with
      | nil => cases first <;> simp [Json.tokens] at inside
      | cons second items =>
        cases first <;> simp [Json.tokens, List.intercalate_cons_cons] at inside
  | _ => simp [json, Json.tokens] at tokens

/-- A side of a block tells the compact text of the value, or that there is none. -/
theorem longValue_eq_iff {left right : Option Value} :
    longValue left = longValue right ↔ left.map Value.inspect = right.map Value.inspect := by
  cases left <;> cases right <;>
    simp [longValue, inspect_ne_noValue, (inspect_ne_noValue _).symm]

/-- The name of a kind has no space in it. -/
theorem notMem_kindName (kind : DifferenceKind) : ' ' ∉ kind.name.toList := by
  cases kind <;> decide

/-- The first line of a block is divided at its only space. -/
theorem split_heading {difference : Difference} (clear : ' ' ∉ difference.path.toList) :
    Text.split ' ' (difference.path ++ " [" ++ difference.kind.name ++ "]").toList =
      [difference.path.toList, '[' :: difference.kind.name.toList ++ [']']] := by
  have joined : (difference.path ++ " [" ++ difference.kind.name ++ "]").toList =
      [' '].intercalate [difference.path.toList, '[' :: difference.kind.name.toList ++ [']']] := by
    simp
  rw [joined, Text.split_intercalate (by simp)]
  simp [clear, notMem_kindName]

/-- A block tells what it shows of a difference whose path has no space in it. -/
theorem blockLines_eq_iff {left right : Difference} (clear : ' ' ∉ left.path.toList)
    (clearToo : ' ' ∉ right.path.toList) :
    blockLines left = blockLines right ↔ ToldAlike left right := by
  constructor
  · intro same
    simp only [blockLines, List.cons.injEq, and_true, String.append_right_inj] at same
    obtain ⟨heading, reference, candidate⟩ := same
    have parts := congrArg (fun line => Text.split ' ' line.toList) heading
    simp only [split_heading clear, split_heading clearToo, List.cons.injEq, and_true,
      List.append_left_inj, true_and, List.cons_append] at parts
    exact ⟨String.toList_inj.1 parts.1, DifferenceKind.name_injective (String.toList_inj.1 parts.2),
      longValue_eq_iff.1 reference, longValue_eq_iff.1 candidate⟩
  · intro alike
    rw [blockLines, alike.path, alike.kind, longValue_eq_iff.2 alike.reference,
      longValue_eq_iff.2 alike.candidate, blockLines]

/-! ## The lines of a report -/

/-- No line of a block is empty, and none holds a line feed when the path has none. -/
theorem of_mem_blockLines {difference : Difference} (clear : '\n' ∉ difference.path.toList)
    {line : String} (member : line ∈ blockLines difference) : line ≠ "" ∧ '\n' ∉ line.toList := by
  have side : ∀ value : Option Value, '\n' ∉ (longValue value).toList := by
    intro value
    cases value with
    | none => decide
    | some value => exact value.notMem_inspect
  have kind : '\n' ∉ difference.kind.name.toList := by cases difference.kind <;> decide
  simp only [blockLines, List.mem_cons, List.not_mem_nil, or_false] at member
  rcases member with rfl | rfl | rfl
  · refine ⟨?_, by simp [clear, kind]⟩
    intro empty
    simpa using congrArg String.length empty
  · simp [← String.toList_inj, side]
  · simp [← String.toList_inj, side]

/-- Blocks that are joined by two line feeds are lines with an empty line between blocks. -/
theorem intercalate_joinLines {blocks : List (List String)}
    (filled : ∀ block ∈ blocks, block ≠ []) :
    "\n\n".intercalate (blocks.map Text.joinLines) = Text.joinLines ([""].intercalate blocks) := by
  have feeds : "\n\n".toList = ['\n'] ++ ['\n'] := rfl
  rw [← String.toList_inj, String.toList_intercalate, Text.toList_joinLines, List.map_map, feeds]
  induction blocks with
  | nil => rfl
  | cons block blocks ih =>
    by_cases last : blocks = []
    · simp [last, Text.toList_joinLines]
    · have others := ih fun other member => filled other (List.mem_cons_of_mem _ member)
      have behind : ([""].intercalate blocks).map String.toList ≠ [] := by
        rw [ne_eq, List.map_eq_nil_iff]
        exact intercalate_ne_nil _ last fun other member =>
          filled other (List.mem_cons_of_mem _ member)
      have here : block.map String.toList ≠ [] := by simpa using filled block List.mem_cons_self
      rw [List.map_cons, List.intercalate_cons_of_ne_nil (by simpa using last), others,
        List.intercalate_cons_of_ne_nil last, List.map_append, List.map_append,
        intercalate_append _ (by simp [here]) behind, intercalate_append _ here (by simp)]
      simp [Text.toList_joinLines]

/-- The block of a difference is joined of its lines. -/
theorem longBlock_eq (difference : Difference) :
    longBlock false difference = Text.joinLines (blockLines difference) := by
  rw [← String.toList_inj, Text.toList_joinLines]
  simp [longBlock, blockLines, label]

/-- A report without colors is joined of the blocks of the differences. -/
theorem long_eq (differences : List Difference) : long false differences =
    "\n\n".intercalate ((differences.map blockLines).map Text.joinLines) := by
  have blocks : differences.map (longBlock false) =
      (differences.map blockLines).map Text.joinLines := by
    simp [longBlock_eq, Function.comp_def]
  rw [long, blocks]

/-- A report of differences whose paths have no line feed has the lines of their blocks, with an
empty line between blocks, and the empty lines divide it into the blocks. -/
theorem lines_long {differences : List Difference} (nonempty : differences ≠ [])
    (clear : ∀ difference ∈ differences, '\n' ∉ difference.path.toList) :
    Text.lines (long false differences) = [""].intercalate (differences.map blockLines) ∧
      (Text.lines (long false differences)).splitOn "" = differences.map blockLines := by
  have filled : ∀ block ∈ differences.map blockLines, block ≠ [] :=
    List.forall_mem_map.2 fun difference _ => by simp [blockLines]
  have proper : ∀ block ∈ differences.map blockLines, ∀ line ∈ block,
      line ≠ "" ∧ '\n' ∉ line.toList :=
    List.forall_mem_map.2 fun difference member _ => of_mem_blockLines (clear difference member)
  have blocks : differences.map blockLines ≠ [] := by simpa using nonempty
  have lines : Text.lines (long false differences) =
      [""].intercalate (differences.map blockLines) := by
    rw [long_eq, intercalate_joinLines filled]
    apply Text.lines_joinLines (intercalate_ne_nil _ blocks filled)
    intro line member
    rcases mem_of_mem_intercalate member with between | ⟨block, known, inside⟩
    · cases List.mem_singleton.1 between
      decide
    · exact (proper block known line inside).2
  refine ⟨lines, ?_⟩
  rw [lines]
  exact List.splitOn_intercalate "" (fun block member empty => (proper block member "" empty).1 rfl)
    blocks

/-- Differences have the same blocks exactly when they are told alike, one by one. -/
theorem map_blockLines_eq_iff {differences others : List Difference}
    (clear : ∀ difference ∈ differences ++ others, ' ' ∉ difference.path.toList) :
    differences.map blockLines = others.map blockLines ↔
      List.Forall₂ ToldAlike differences others := by
  induction differences generalizing others with
  | nil => cases others <;> simp
  | cons difference differences ih =>
    cases others with
    | nil => simp
    | cons other others =>
      have here := blockLines_eq_iff (clear difference (by simp)) (clear other (by simp))
      have onward : ∀ later ∈ differences ++ others, ' ' ∉ later.path.toList := by
        intro later member
        apply clear later
        rcases List.mem_append.1 member with left | right
        · simp [left]
        · simp [right]
      rw [List.map_cons, List.map_cons, List.cons.injEq, List.forall₂_cons, here, ih onward]

/-- Reports of differences whose paths have no blank are the same exactly when the differences
are told alike, one by one. -/
theorem long_eq_iff {differences others : List Difference}
    (clear : ∀ difference ∈ differences ++ others, ∀ char ∈ difference.path.toList,
      Text.isBlank char = false) :
    long false differences = long false others ↔ List.Forall₂ ToldAlike differences others := by
  have noSpace : ∀ difference ∈ differences ++ others, ' ' ∉ difference.path.toList :=
    fun difference member => (Text.notMem_of_clear (clear difference member)).2
  have noFeed : ∀ difference ∈ differences ++ others, '\n' ∉ difference.path.toList :=
    fun difference member => (Text.notMem_of_clear (clear difference member)).1
  -- The empty lines divide no text at all into two blocks without lines, which no block is.
  have divided : ∀ list ⊆ differences ++ others,
      (Text.lines (long false list)).splitOn "" =
        if list = [] then [[], []] else list.map blockLines := by
    intro list within
    split
    · rename_i none
      rw [none]
      decide
    · rename_i nonempty
      exact (lines_long nonempty fun difference member => noFeed difference (within member)).2
  constructor
  · intro same
    rw [← map_blockLines_eq_iff noSpace]
    have blocks := divided differences (List.subset_append_left _ _)
    rw [same, divided others (List.subset_append_right _ _)] at blocks
    have noBlock : ∀ list : List Difference, list.map blockLines ≠ [[], []] := by
      intro list
      cases list <;> simp [blockLines]
    by_cases none : differences = [] <;> by_cases noneToo : others = [] <;>
      simp only [none, noneToo, if_true, if_false] at blocks ⊢
    · exact absurd blocks (noBlock others)
    · exact absurd blocks.symm (noBlock differences)
    · exact blocks.symm
  · intro alike
    rw [long_eq, long_eq, (map_blockLines_eq_iff noSpace).2 alike]

/-- Two comparisons, of whatever documents under whatever policies, have the same long report
without colors exactly when their findings are told alike, one by one: in their number, and each
in its path, its kind and its two sides. A report that is not empty has a block of three lines
for each difference, and exactly one empty line between one block and the next. -/
theorem long_report_tells_findings {policy policyToo : Policy}
    {reference candidate referenceToo candidateToo : Value} {findings others : Findings}
    (done : Comparison.perform policy reference candidate = .ok findings)
    (doneToo : Comparison.perform policyToo referenceToo candidateToo = .ok others)
    {options optionsToo : Options} (plain : options.color = false)
    (plainToo : optionsToo.color = false) :
    (render .long options findings = render .long optionsToo others ↔
      List.Forall₂ ToldAlike findings.items others.items) ∧
    (findings.isEmpty = false → Text.lines (render .long options findings) =
      [""].intercalate (findings.items.map blockLines)) ∧
    ∀ difference ∈ findings.items,
      (blockLines difference).length = 3 ∧ "" ∉ blockLines difference := by
  have clear : ∀ difference ∈ findings.items ++ others.items, ∀ char ∈ difference.path.toList,
      Text.isBlank char = false := by
    intro difference member
    rcases List.mem_append.1 member with here | there
    · exact Comparison.isBlank_of_mem_path done here
    · exact Comparison.isBlank_of_mem_path doneToo there
  have noFeed : ∀ difference ∈ findings.items, '\n' ∉ difference.path.toList :=
    fun difference member =>
      (Text.notMem_of_clear (clear difference (List.mem_append_left _ member))).1
  rw [render, render, plain, plainToo]
  refine ⟨long_eq_iff clear, fun found => ?_, fun difference member => ⟨rfl, fun empty => ?_⟩⟩
  · exact (lines_long (findings.items_ne_nil found) noFeed).1
  · exact (of_mem_blockLines (noFeed difference member) empty).1 rfl

/-- A number, and a text that looks like the end of a block. -/
def numberAndBlockEnd (number : Number) : Value :=
  .object [(.text "n", .number number), (.text "t", .text "x\n  candidate: [no value]\n\n")]

/-- A number that is the same in two types is told alike, and a text that looks like the end of a
block ends none: there are two blocks and the line between them. -/
theorem long_report_tells_findings_numberAndBlockEnd :
    ∃ findings others,
      Comparison.perform .default (numberAndBlockEnd (.int 1))
        (.object [(.text "n", .null)]) = .ok findings ∧
      Comparison.perform .default (numberAndBlockEnd (.uint 1))
        (.object [(.text "n", .null)]) = .ok others ∧
      render .long .default findings = render .long .default others ∧
      (Text.lines (render .long .default findings)).length = 7 := by
  have done : ∀ number, Comparison.perform .default (numberAndBlockEnd number)
      (.object [(.text "n", .null)]) = .ok {
        items := [⟨.missing, "/t", some (.text "x\n  candidate: [no value]\n\n"), none⟩,
          ⟨.mismatch, "/n", some (.number number), some .null⟩]
        positions := [("/t", 0), ("/n", 1)]
        limit := none } := by
    intro number
    cbv
  have plain : Options.default.color = false := rfl
  obtain ⟨told, lines, -⟩ :=
    long_report_tells_findings (done (.int 1)) (done (.uint 1)) plain plain
  refine ⟨_, _, done (.int 1), done (.uint 1), told.2 ?_, ?_⟩
  · exact .cons ⟨rfl, rfl, rfl, rfl⟩ (.cons ⟨rfl, rfl, rfl, rfl⟩ .nil)
  · rw [lines rfl]
    rfl

end Report

end StructuralDiff
