import Mathlib
import StructuralDiff.Proofs.ReportLines
import StructuralDiff.Report.Render

/-!
# Findings as JSON, one to a line

The pretty form of a difference is folded into one line: every line loses the blanks at its
start, and a space takes the place of the line feed before it. A line feed stands between
tokens only, so that folding changes no token (`Report.scan_folded`), whatever the text is. So
a report of findings has a line for each of them, and as a whole it has the tokens of the array
of its differences (`Report.json_report_keeps_tokens`).
-/

namespace StructuralDiff

namespace Report

/-! ## Folding, character by character -/

/-- What folding makes of a text. At the start of a line blanks are passed over. -/
def folded : Bool → List Char → List Char
  | _, [] => []
  | atStart, char :: rest =>
    if char = '\n' then ' ' :: folded true rest
    else if atStart && Text.isBlank char then folded true rest
    else char :: folded false rest

/-- The folded lines of a text, at the start of a line and behind it. -/
theorem intercalate_lines_eq_folded (chars : List Char) {part : List Char}
    {parts : List (List Char)} (parted : Text.split '\n' chars = part :: parts) :
    [' '].intercalate ((part :: parts).map Text.dropLeadingBlanks) = folded true chars ∧
      [' '].intercalate (part :: parts.map Text.dropLeadingBlanks) = folded false chars := by
  induction chars generalizing part parts with
  | nil =>
    cases parted
    exact ⟨rfl, rfl⟩
  | cons char rest ih =>
    obtain ⟨next, others, partedRest⟩ := List.exists_cons_of_ne_nil (Text.split_ne_nil '\n' rest)
    obtain ⟨atStart, behind⟩ := ih partedRest
    rw [Text.split] at parted
    by_cases feed : char = '\n'
    · rw [if_pos feed, partedRest] at parted
      cases parted
      simp [folded, feed, ← atStart, Text.dropLeadingBlanks]
    · rw [if_neg feed, partedRest] at parted
      cases parted
      have onward : ∀ line : List Char, [' '].intercalate
          ((char :: line) :: parts.map Text.dropLeadingBlanks) =
            char :: [' '].intercalate (line :: parts.map Text.dropLeadingBlanks) := by
        intro line
        cases parts <;> simp [List.intercalate_cons_cons]
      refine ⟨?_, by rw [folded, if_neg feed, onward, behind]; simp⟩
      rw [folded, if_neg feed, List.map_cons]
      by_cases blank : Text.isBlank char = true
      · have passed : Text.dropLeadingBlanks (char :: next) = Text.dropLeadingBlanks next :=
          List.dropWhile_cons_of_pos blank
        rw [passed, ← List.map_cons, atStart, blank]
        rfl
      · have kept : Text.dropLeadingBlanks (char :: next) = char :: next :=
          List.dropWhile_cons_of_neg blank
        rw [kept, onward, behind]
        simp [blank]

/-- The folded lines of a text are what folding makes of it. -/
theorem toList_foldLines (text : String) : (foldLines text).toList = folded true text.toList := by
  obtain ⟨part, parts, parted⟩ :=
    List.exists_cons_of_ne_nil (Text.split_ne_nil '\n' text.toList)
  rw [← (intercalate_lines_eq_folded text.toList parted).1, foldLines, Text.lines, parted,
    String.toList_intercalate, List.map_map, List.map_map]
  simp [Text.trimStart, Function.comp_def]

/-- Folded lines are one line. -/
theorem notMem_folded (atStart : Bool) (chars : List Char) : '\n' ∉ folded atStart chars := by
  fun_induction folded atStart chars with
  | case1 => simp
  | case2 atStart rest ih => simp [ih]
  | case3 atStart char rest feed blank ih => exact ih
  | case4 atStart char rest feed visible ih => simp [ih, Ne.symm feed]

/-! ## Folding changes no token -/

/-- A character that is no control character and stands behind the start of a line is kept. -/
theorem folded_append {written : List Char} (clear : ∀ char ∈ written, 0x20 ≤ char.toNat)
    (rest : List Char) : folded false (written ++ rest) = written ++ folded false rest := by
  induction written with
  | nil => rfl
  | cons char written ih =>
    have noFeed : char ≠ '\n' := by
      rintro rfl
      exact absurd (clear _ List.mem_cons_self) (by decide)
    rw [List.cons_append, folded, if_neg noFeed, ih fun other member =>
      clear other (List.mem_cons_of_mem _ member)]
    simp

/-- A visible character starts what is left of a line, and everything behind it is kept. -/
theorem folded_cons_of_visible {char : Char} (visible : Text.isBlank char = false)
    (atStart : Bool) (rest : List Char) :
    folded atStart (char :: rest) = char :: folded false rest := by
  have noFeed : char ≠ '\n' := by
    rintro rfl
    exact absurd visible (by decide)
  rw [folded, if_neg noFeed, visible]
  simp

/-- Space stays space when lines are folded, and what comes behind the space does not move
across it. -/
theorem skipSpace_folded (atStart : Bool) {chars : List Char}
    (visible : ∀ first ∈ (Json.skipSpace chars).head?, Text.isBlank first = false) :
    Json.skipSpace (folded atStart chars) = folded false (Json.skipSpace chars) := by
  induction chars generalizing atStart with
  | nil => rfl
  | cons char rest ih =>
    by_cases space : Json.isSpace char = true
    · have passed : Json.skipSpace (char :: rest) = Json.skipSpace rest :=
        List.dropWhile_cons_of_pos space
      rw [passed] at visible ⊢
      rw [folded]
      split
      · rw [← ih true visible]
        exact List.dropWhile_cons_of_pos (by decide)
      · split
        · exact ih true visible
        · rw [← ih false visible]
          exact List.dropWhile_cons_of_pos space
    · have kept : ∀ rest, Json.skipSpace (char :: rest) = char :: rest :=
        fun rest => List.dropWhile_cons_of_neg space
      rw [kept] at visible ⊢
      have shown : Text.isBlank char = false := visible char rfl
      rw [folded_cons_of_visible shown, folded_cons_of_visible shown, kept]

/-- A word ends where it did before. -/
theorem span_isWordChar_folded (chars : List Char) :
    (folded false chars).takeWhile Json.isWordChar = chars.takeWhile Json.isWordChar ∧
      (folded false chars).dropWhile Json.isWordChar =
        folded false (chars.dropWhile Json.isWordChar) := by
  induction chars with
  | nil => exact ⟨rfl, rfl⟩
  | cons char rest ih =>
    by_cases inWord : Json.isWordChar char = true
    · rw [folded_cons_of_visible (Json.isBlank_of_isWordChar inWord)]
      simp [inWord, ih]
    · by_cases feed : char = '\n'
      · subst feed
        have noWord : Json.isWordChar ' ' = false := by decide
        rw [List.takeWhile_cons_of_neg inWord, List.dropWhile_cons_of_neg inWord, folded,
          if_pos rfl, List.takeWhile_cons_of_neg (by simp [noWord]),
          List.dropWhile_cons_of_neg (by simp [noWord])]
        exact ⟨rfl, rfl⟩
      · simp [folded, feed, inWord]

/-- A token starts with a visible character. -/
theorem isBlank_of_startsWith {chars others : List Char} {token : Json.Token}
    (starts : Json.StartsWith chars token others) :
    ∀ first ∈ chars.head?, Text.isBlank first = false := by
  have visible : ∀ mark ∈ '"' :: Json.punctuation, Text.isBlank mark = false := by
    simp [Json.punctuation]
    decide
  cases starts with
  | text clear again rest => simpa using visible '"' List.mem_cons_self
  | mark marked rest => simpa using visible _ (List.mem_cons_of_mem _ marked)
  | word inWord rest => simpa using Json.isBlank_of_isWordChar inWord

/-- A text starts with the token that it started with. -/
theorem startsWith_folded {chars others : List Char} {token : Json.Token}
    (starts : Json.StartsWith chars token others) :
    Json.StartsWith (folded false chars) token (folded false others) := by
  have visible := isBlank_of_startsWith starts
  cases starts with
  | text clear again rest =>
    rw [folded_cons_of_visible (visible _ rfl), folded_append clear,
      folded_cons_of_visible (by decide)]
    exact .text clear again _
  | mark marked rest =>
    rw [folded_cons_of_visible (visible _ rfl)]
    exact .mark marked _
  | word inWord rest =>
    obtain ⟨taken, dropped⟩ := span_isWordChar_folded rest
    rw [folded_cons_of_visible (visible _ rfl), ← taken, ← dropped]
    exact .word inWord _

/-- Folding the lines of a text that consists of tokens changes no token. -/
theorem scan_folded {chars : List Char} {tokens : List Json.Token}
    (scanned : Json.scan chars = some tokens) (atStart : Bool) :
    Json.scan (folded atStart chars) = some tokens := by
  revert atStart
  refine Json.scan_induction ?space ?onward scanned
  case space =>
    intro chars space atStart
    apply Json.scan_of_space
    rw [skipSpace_folded atStart (by simp [space]), space]
    rfl
  case onward =>
    intro chars token others tokens next ih atStart
    have starts := Json.nextToken?_eq_some_iff.1 next
    have foldedStarts := startsWith_folded starts
    rw [← skipSpace_folded atStart (isBlank_of_startsWith starts),
      ← Json.nextToken?_eq_some_iff] at foldedStarts
    rw [Json.scan_of_nextToken? foldedStarts, ih false]
    rfl

/-- The pretty form of a value, folded into one line, has the tokens of the value. -/
theorem scan_foldLines_pretty (json : Json) :
    Json.scan json.pretty.toList = some json.tokens ∧
      Json.scan (foldLines json.pretty).toList = some json.tokens := by
  have scanned : Json.scan json.pretty.toList = some json.tokens := by
    rw [Json.pretty, String.toList_ofList]
    exact json.scan_prettyChars 0
  refine ⟨scanned, ?_⟩
  rw [toList_foldLines]
  exact scan_folded scanned true

/-! ## The lines of a report -/

/-- Lines with a comma at the end of each but the last. -/
def commaEnded : List (List Char) → List (List Char)
  | [] => []
  | [line] => [line]
  | line :: lines => (line ++ [',']) :: commaEnded lines

theorem length_commaEnded (lines : List (List Char)) :
    (commaEnded lines).length = lines.length := by
  fun_induction commaEnded lines with
  | case1 => rfl
  | case2 line => rfl
  | case3 line lines more ih => simp [ih]

theorem commaEnded_ne_nil {lines : List (List Char)} (nonempty : lines ≠ []) :
    commaEnded lines ≠ [] := by
  rwa [← List.length_pos_iff, length_commaEnded, List.length_pos_iff]

/-- Joining lines that end in commas is joining lines by commas and line feeds. -/
theorem intercalate_commaEnded (lines : List (List Char)) :
    ['\n'].intercalate (commaEnded lines) = [',', '\n'].intercalate lines := by
  fun_induction commaEnded lines with
  | case1 => rfl
  | case2 line => simp
  | case3 line lines more ih =>
    have others : lines ≠ [] := by simpa using more
    rw [List.intercalate_cons_of_ne_nil (commaEnded_ne_nil others),
      List.intercalate_cons_of_ne_nil others, ih]
    simp

/-- Only the last line does without a comma. -/
theorem getElem?_commaEnded (lines : List (List Char)) (position : Nat) :
    (commaEnded lines)[position]? = lines[position]?.map fun line =>
      line ++ if position + 1 < lines.length then [','] else [] := by
  fun_induction commaEnded lines generalizing position with
  | case1 => simp
  | case2 line => cases position <;> simp
  | case3 line lines more ih =>
    cases position with
    | zero =>
      have positive : 0 < lines.length := List.length_pos_iff.2 (by simpa using more)
      simp [positive]
    | succ position => simp [ih]

/-- A comma at the end of a line is no line feed. -/
theorem notMem_of_mem_commaEnded {lines : List (List Char)} (clear : ∀ line ∈ lines, '\n' ∉ line)
    {ended : List Char} (member : ended ∈ commaEnded lines) : '\n' ∉ ended := by
  fun_induction commaEnded lines with
  | case1 => cases member
  | case2 line => exact clear ended member
  | case3 line lines more ih =>
    rcases List.mem_cons.1 member with rfl | later
    · simp [clear line List.mem_cons_self]
    · exact ih (fun other known => clear other (List.mem_cons_of_mem _ known)) later

/-- A bracketed text whose lines are joined by commas and line feeds is divided into the
brackets and the lines. -/
theorem split_bracketed {lines : List (List Char)} (nonempty : lines ≠ [])
    (clear : ∀ line ∈ lines, '\n' ∉ line) :
    Text.split '\n' (['[', '\n'] ++ [',', '\n'].intercalate lines ++ ['\n', ']']) =
      ['['] :: commaEnded lines ++ [[']']] := by
  have joined : ['[', '\n'] ++ [',', '\n'].intercalate lines ++ ['\n', ']'] =
      ['\n'].intercalate (['['] :: commaEnded lines ++ [[']']]) := by
    rw [intercalate_append _ (by simp) (by simp), List.intercalate_singleton,
      List.intercalate_cons_of_ne_nil (commaEnded_ne_nil nonempty), intercalate_commaEnded]
    simp
  rw [joined, Text.split_intercalate (by simp)]
  intro line member
  simp only [List.cons_append, List.mem_cons, List.mem_append, List.not_mem_nil, or_false]
    at member
  rcases member with rfl | inside | rfl
  · decide
  · exact notMem_of_mem_commaEnded clear inside
  · decide

/-- The line of a difference holds no line feed. -/
theorem notMem_jsonLine (difference : Difference) : '\n' ∉ (jsonLine difference).toList := by
  simp [jsonLine, toList_foldLines, notMem_folded]

/-- The lines of a report: an opening bracket, a line for each difference, and a closing
bracket. -/
theorem lines_jsonLines {differences : List Difference} (nonempty : differences ≠ []) :
    Text.lines (jsonLines differences) =
      (['['] :: commaEnded (differences.map fun difference => (jsonLine difference).toList) ++
        [[']']]).map String.ofList := by
  have clear : ∀ line ∈ differences.map fun difference => (jsonLine difference).toList,
      '\n' ∉ line := by
    intro line member
    obtain ⟨difference, -, same⟩ := List.mem_map.1 member
    exact same ▸ notMem_jsonLine difference
  rw [Text.lines, ← split_bracketed (by simpa using nonempty) clear]
  simp [jsonLines, nonempty, String.toList_intercalate, Function.comp_def]

/-! ## The tokens of a report -/

/-- The tokens of one side of a difference. -/
def sideTokens : Option Value → List Json.Token
  | some value => value.toJson.tokens
  | none => [.word "null".toList]

/-- The tokens of an entry under a name. -/
def entryTokens (name : String) (value : List Json.Token) : List Json.Token :=
  .text name :: .mark ':' :: value

/-- The tokens of a difference: an object with its kind, its path and its two sides. -/
def differenceTokens (difference : Difference) : List Json.Token :=
  .mark '\x7b' :: [.mark ','].intercalate
    [entryTokens "type" [.text difference.kind.name],
      entryTokens "path" [.text difference.path],
      entryTokens "reference" (sideTokens difference.reference),
      entryTokens "candidate" (sideTokens difference.candidate)] ++ [.mark '\x7d']

theorem tokens_optionalJson (side : Option Value) : (optionalJson side).tokens = sideTokens side := by
  cases side <;> rfl

/-- A difference in JSON has the tokens of the difference. -/
theorem tokens_differenceJson (difference : Difference) :
    (differenceJson difference).tokens = differenceTokens difference := by
  rw [differenceJson, Json.tokens, Json.entryTokens_eq, differenceTokens]
  simp only [List.map_cons, List.map_nil, tokens_optionalJson, Json.tokens, entryTokens]

/-- The line of a difference has the tokens of the difference. -/
theorem scan_jsonLine (difference : Difference) :
    Json.scan (jsonLine difference).toList = some (differenceTokens difference) := by
  have line : (jsonLine difference).toList =
      [' ', ' '] ++ (foldLines (differenceJson difference).pretty).toList := by
    simp [jsonLine]
  rw [line, Json.scan_space_append (by simp; decide),
    (scan_foldLines_pretty (differenceJson difference)).2, tokens_differenceJson]

/-- The tokens of an array of differences. -/
def arrayTokens (differences : List Difference) : List Json.Token :=
  .mark '[' :: [.mark ','].intercalate (differences.map differenceTokens) ++ [.mark ']']

/-- The compact form of an array of differences has the tokens of the array. -/
theorem tokens_array (differences : List Difference) :
    (Json.array (differences.map differenceJson)).tokens = arrayTokens differences := by
  simp [Json.tokens, Json.itemTokens_eq, arrayTokens, Function.comp_def, tokens_differenceJson]

/-- A report has the tokens of the array of its differences. -/
theorem scan_jsonLines {differences : List Difference} (nonempty : differences ≠ []) :
    Json.scan (jsonLines differences).toList = some (arrayTokens differences) := by
  have text : (jsonLines differences).toList =
      '[' :: (['\n'] ++ [',', '\n'].intercalate
        (differences.map fun difference => (jsonLine difference).toList)) ++
          Json.lineBreak 0 ++ [']'] := by
    simp [jsonLines, nonempty, String.toList_intercalate, Function.comp_def, Json.lineBreak]
  have space : ∀ char ∈ ['\n'], Json.isSpace char = true := by simp; decide
  rw [text]
  apply Json.scan_enclosed_lines (by decide) (by decide)
  rw [Json.scan_space_append space]
  exact Json.scan_intercalate space fun difference _ => scan_jsonLine difference

/-- The line of a difference in a report, with the comma behind all but the last. -/
theorem lines_jsonLines_getElem? {differences : List Difference} {position : Nat}
    {difference : Difference} (here : differences[position]? = some difference) :
    (Text.lines (jsonLines differences))[position + 1]? =
      some (jsonLine difference ++ if position + 1 < differences.length then "," else "") := by
  have nonempty : differences ≠ [] := by
    rintro rfl
    cases here
  obtain ⟨inRange, -⟩ := List.getElem?_eq_some_iff.1 here
  have within : position < (commaEnded
      (differences.map fun difference => (jsonLine difference).toList)).length := by
    simpa [length_commaEnded] using inRange
  rw [lines_jsonLines nonempty, List.cons_append, List.map_cons, List.getElem?_cons_succ,
    List.getElem?_map, List.getElem?_append_left within, getElem?_commaEnded, List.getElem?_map,
    here, List.length_map]
  by_cases last : position + 1 < differences.length <;> simp [last]

/-- A report of findings in JSON has a line for each of them and two for the brackets. Folded
into these lines, the report has the tokens of the array of the differences, in their order:
of each one its kind, its path, and the two sides, null where a side is absent. Folding changes
no token of a value, and no character of a text in it. -/
theorem json_report_keeps_tokens (findings : Findings) (options : Options)
    (found : findings.isEmpty = false) :
    (Text.lines (render .json options findings)).length = findings.size + 2 ∧
    Json.scan (render .json options findings).toList = some (arrayTokens findings.items) ∧
    Json.scan (Json.array (findings.items.map differenceJson)).compact.toList =
      some (arrayTokens findings.items) ∧
    (∀ position difference, findings.get? position = some difference →
      ∃ line, (Text.lines (render .json options findings))[position + 1]? = some line ∧
        Json.scan line.toList = some (differenceTokens difference ++
          if position + 1 < findings.size then [.mark ','] else [])) ∧
    ∀ json : Json, Json.scan json.pretty.toList = some json.tokens ∧
      Json.scan (foldLines json.pretty).toList = some json.tokens := by
  have nonempty := findings.items_ne_nil found
  refine ⟨?_, scan_jsonLines nonempty, ?_, fun position difference here => ?_,
    scan_foldLines_pretty⟩
  · rw [render, lines_jsonLines nonempty]
    simp [length_commaEnded, Findings.size]
  · rw [Json.compact, String.toList_ofList, Json.scan_compactChars, tokens_array]
  · refine ⟨_, lines_jsonLines_getElem? here, ?_⟩
    have comma : Json.scan [','] = some [.mark ','] := by
      rw [Json.scan_mark (by decide), Json.scan_of_space rfl]
      rfl
    rw [String.toList_append]
    change _ = some (differenceTokens difference ++
      if position + 1 < findings.items.length then [.mark ','] else [])
    split
    · exact Json.scan_append (scan_jsonLine difference) (Json.apart_cons.2 (by decide)) comma
    · simpa using scan_jsonLine difference

/-- A list with a text that holds a line feed, blanks, quotes and brackets, and a name that holds
a line separator and a carriage return, against nothing. -/
def awkwardTexts : Findings where
  items := [⟨.missing, "/a",
    some (.array [.text "x\n  \"[, \" ", .object [(.text "\u2028 k\r", .null)]]), none⟩]
  positions := [("/a", 0)]
  limit := none

/-- Awkward texts come back from a report of three lines as they were. -/
theorem json_report_keeps_tokens_awkwardTexts :
    awkwardTexts.isEmpty = false ∧
    (Text.lines (render .json .default awkwardTexts)).length = 3 ∧
    Json.scan (render .json .default awkwardTexts).toList = some
      [.mark '[', .mark '\x7b', .text "type", .mark ':', .text "missing", .mark ',',
        .text "path", .mark ':', .text "/a", .mark ',', .text "reference", .mark ':',
        .mark '[', .text "x\n  \"[, \" ", .mark ',', .mark '\x7b', .text "\u2028 k\r", .mark ':',
        .word ['n', 'u', 'l', 'l'], .mark '\x7d', .mark ']', .mark ',',
        .text "candidate", .mark ':', .word ['n', 'u', 'l', 'l'], .mark '\x7d', .mark ']'] := by
  obtain ⟨lines, tokens, -⟩ := json_report_keeps_tokens awkwardTexts .default rfl
  exact ⟨rfl, lines, tokens⟩

end Report

end StructuralDiff
