import Mathlib
import StructuralDiff.Proofs.CompactText

/-!
# The tokens of a JSON text

A JSON text is read as tokens: marks, quoted texts and words, with space between them that
means nothing (`Json.scan`). The tokens of a value are laid out in `Json.tokens`, and both
written forms of the value have them (`scan_compactChars`, `scan_prettyChars`). A text whose
tokens end apart from what follows is scanned piece by piece (`scan_append`).
-/

namespace StructuralDiff

namespace Json

/-- A piece of a JSON text that no space divides. -/
inductive Token where
  /-- A bracket, a brace, a comma or a colon. -/
  | mark (char : Char)
  /-- A quoted text, told by what it stands for. -/
  | text (content : String)
  /-- A number, a truth value or null, as it is written. -/
  | word (chars : List Char)
deriving DecidableEq

/-- The characters that are tokens by themselves. -/
def punctuation : List Char := ['[', ']', '\x7b', '\x7d', ',', ':']

/-- The token at the start of a text, and what follows it. -/
def nextToken? : List Char → Option (Token × List Char)
  | [] => none
  | '"' :: rest => (readText rest).map fun read => (.text read.1, read.2)
  | char :: rest =>
    if char ∈ punctuation then some (.mark char, rest)
    else if isWordChar char then
      some (.word (char :: rest.takeWhile isWordChar), rest.dropWhile isWordChar)
    else none

/-- What starts with no space is all there is left. -/
theorem skipSpace_of_visible {first : Char} (visible : isSpace first = false) (rest : List Char) :
    skipSpace (first :: rest) = first :: rest :=
  List.dropWhile_cons_of_neg (by simp [visible])

/-- A digit of a base is no control character. -/
theorem not_control_of_digit? {base value : Nat} {char : Char}
    (known : Text.digit? base char = some value) : 0x20 ≤ char.toNat := by
  by_contra control
  have small : char.toNat < 0x20 := Nat.lt_of_not_le control
  have none : ∀ code < 0x20, Text.hexDigit? (Char.ofNat code) = none := by decide
  have noDigit := none char.toNat small
  rw [Char.ofNat_toNat] at noDigit
  simp [Text.digit?, noDigit] at known

/-- The digits of a number are no control characters. -/
theorem not_control_of_number? {base value : Nat} {chars : List Char}
    (known : Text.number? base chars = some value) : ∀ char ∈ chars, 0x20 ≤ char.toNat := by
  have onward : ∀ start : Nat,
      chars.foldlM (fun value char => (Text.digit? base char).map (base * value + ·)) start =
        some value → ∀ char ∈ chars, 0x20 ≤ char.toNat := by
    clear known
    induction chars with
    | nil => simp
    | cons char chars ih =>
      intro start known
      simp only [List.foldlM_cons, Option.bind_eq_bind, Option.bind_eq_some_iff,
        Option.map_eq_some_iff] at known
      obtain ⟨reached, ⟨digit, isDigit, -⟩, others⟩ := known
      simp only [List.mem_cons, forall_eq_or_imp]
      exact ⟨not_control_of_digit? isDigit, ih _ others⟩
  exact onward 0 known

/-- The letter of a short escape is no control character. -/
theorem not_control_of_shortEscape? {letter char : Char}
    (known : shortEscape? letter = some char) : 0x20 ≤ letter.toNat := by
  unfold shortEscape? at known
  split at known <;> first | decide | cases known

/-- What is written between the quotes of a text: it holds no control character, it ends at
the quote, and it is read alike whatever follows the quote. -/
theorem exists_written_of_readPieces {chars rest : List Char} {pieces : List Piece}
    (read : readPieces chars = some (pieces, rest)) :
    ∃ written, chars = written ++ '"' :: rest ∧ (∀ char ∈ written, 0x20 ≤ char.toNat) ∧
      ∀ others, readPieces (written ++ '"' :: others) = some (pieces, others) := by
  fun_induction readPieces chars generalizing pieces with
  | case1 => cases read
  | case2 rest =>
    cases read
    exact ⟨[], rfl, by simp, fun others => rfl⟩
  | case3 a b c d rest unit pieces others given number ih =>
    cases read
    obtain ⟨written, rfl, clear, again⟩ := ih given
    refine ⟨'\\' :: 'u' :: a :: b :: c :: d :: written, rfl, ?_, fun others => ?_⟩
    · have digits := not_control_of_number? number
      simp only [List.mem_cons, List.not_mem_nil, or_false, forall_eq_or_imp, forall_eq]
        at digits clear ⊢
      exact ⟨by decide, by decide, digits.1, digits.2.1, digits.2.2.1, digits.2.2.2, clear⟩
    · simp only [List.cons_append, readPieces, number, again]
  | case4 => cases read
  | case5 letter rest notUnit char pieces others given short ih =>
    cases read
    obtain ⟨written, rfl, clear, again⟩ := ih given
    have visible := not_control_of_shortEscape? short
    have notU : letter ≠ 'u' := by
      rintro rfl
      cases short
    refine ⟨'\\' :: letter :: written, rfl, ?_, fun others => ?_⟩
    · simp only [List.mem_cons, forall_eq_or_imp]
      exact ⟨by decide, visible, clear⟩
    · rw [List.cons_append, List.cons_append, readPieces]
      · simp only [short, again]
      · simp [notU]
  | case6 => cases read
  | case7 => cases read
  | case8 char rest notQuote notUnit notShort plain ih =>
    obtain ⟨⟨others, after⟩, given, same⟩ := Option.map_eq_some_iff.1 read
    cases same
    obtain ⟨written, rfl, clear, again⟩ := ih given
    simp only [Bool.or_eq_true, decide_eq_true_eq, beq_iff_eq, not_or] at plain
    refine ⟨char :: written, rfl, ?_, fun others => ?_⟩
    · simp only [List.mem_cons, forall_eq_or_imp]
      exact ⟨Nat.le_of_not_lt plain.1, clear⟩
    · rw [List.cons_append, readPieces]
      · simp [plain, again]
      · exact notQuote
      · simp [plain.2]
      · simp [plain.2]

/-- What is written between the quotes of a text that is read: it holds no control character,
and it is read alike whatever follows it. -/
theorem exists_written_of_readText {chars rest : List Char} {content : String}
    (read : readText chars = some (content, rest)) :
    ∃ written, chars = written ++ '"' :: rest ∧ (∀ char ∈ written, 0x20 ≤ char.toNat) ∧
      ∀ others, readText (written ++ '"' :: others) = some (content, others) := by
  simp only [readText, Option.bind_eq_bind, Option.bind_eq_some_iff, Option.pure_def,
    Option.some.injEq, Prod.exists, Prod.mk.injEq] at read
  obtain ⟨pieces, others, pieced, characters, joined, rfl, rfl⟩ := read
  obtain ⟨written, whole, clear, again⟩ := exists_written_of_readPieces pieced
  exact ⟨written, whole, clear, fun others => by simp [readText, again, joined]⟩

/-- A character of a word is neither space nor a token by itself. -/
theorem apart_of_isWordChar {char : Char} (inWord : isWordChar char = true) :
    isSpace char = false ∧ char ≠ '"' ∧ char ∉ punctuation := by
  have noWord : ∀ other ∈ ' ' :: '\n' :: '\t' :: '\r' :: '"' :: punctuation,
      isWordChar other = false := by
    simp [punctuation]
    decide
  have different : ∀ other ∈ ' ' :: '\n' :: '\t' :: '\r' :: '"' :: punctuation, char ≠ other := by
    rintro other member rfl
    rw [noWord char member] at inWord
    cases inWord
  refine ⟨?_, different '"' (by simp), fun member => different char (by simp [member]) rfl⟩
  simp [isSpace, different ' ', different '\n', different '\t', different '\r']

/-- A mark is neither space nor a quote. -/
theorem visible_of_mem_punctuation {char : Char} (marked : char ∈ punctuation) :
    isSpace char = false ∧ char ≠ '"' := by
  revert char
  simp [punctuation, isSpace]

/-- A text starts with a token, and the rest follows it. -/
inductive StartsWith : List Char → Token → List Char → Prop where
  /-- What is written for a text holds no control character, and it is read alike whatever
  follows it. -/
  | text {written : List Char} {content : String} (clear : ∀ char ∈ written, 0x20 ≤ char.toNat)
      (again : ∀ others, readText (written ++ '"' :: others) = some (content, others))
      (rest : List Char) : StartsWith ('"' :: (written ++ '"' :: rest)) (.text content) rest
  /-- A mark is a token whatever follows it. -/
  | mark {char : Char} (marked : char ∈ punctuation) (rest : List Char) :
      StartsWith (char :: rest) (.mark char) rest
  /-- A word goes on as long as there are characters of words. -/
  | word {char : Char} (inWord : isWordChar char = true) (rest : List Char) :
      StartsWith (char :: rest) (.word (char :: rest.takeWhile isWordChar))
        (rest.dropWhile isWordChar)

/-- What is read off the start of a text is the token that it starts with. -/
theorem nextToken?_eq_some_iff {chars rest : List Char} {token : Token} :
    nextToken? chars = some (token, rest) ↔ StartsWith chars token rest := by
  constructor
  · intro read
    unfold nextToken? at read
    split at read
    · cases read
    · obtain ⟨⟨content, others⟩, given, same⟩ := Option.map_eq_some_iff.1 read
      cases same
      obtain ⟨written, rfl, clear, again⟩ := exists_written_of_readText given
      exact .text clear again _
    · split at read
      · rename_i marked
        cases read
        exact .mark marked _
      · split at read <;> cases read
        rename_i inWord
        exact .word inWord _
  · intro starts
    cases starts with
    | text clear again rest => rw [nextToken?, again, Option.map_some]
    | mark marked rest =>
      rw [nextToken?, if_pos marked]
      exact (visible_of_mem_punctuation marked).2
    | word inWord rest =>
      obtain ⟨-, notQuote, unmarked⟩ := apart_of_isWordChar inWord
      rw [nextToken?, if_neg unmarked, if_pos inWord]
      exact notQuote

/-- A token is not space. -/
theorem StartsWith.skipSpace_eq {chars rest : List Char} {token : Token}
    (starts : StartsWith chars token rest) : skipSpace chars = chars := by
  cases starts with
  | text clear again rest => rfl
  | mark marked rest => exact skipSpace_of_visible (visible_of_mem_punctuation marked).1 rest
  | word inWord rest => exact skipSpace_of_visible (apart_of_isWordChar inWord).1 rest

/-- A token is read off the text, which gets shorter. -/
theorem length_lt_of_nextToken? {chars rest : List Char} {token : Token}
    (read : nextToken? chars = some (token, rest)) : rest.length < chars.length := by
  cases nextToken?_eq_some_iff.1 read with
  | text clear again rest =>
    simp only [List.length_cons, List.length_append]
    omega
  | mark marked rest => exact Nat.lt_succ_self _
  | word inWord rest => exact Nat.lt_succ_of_le (List.dropWhile_sublist isWordChar).length_le

/-- The tokens of a text, if it consists of tokens and space. -/
def scan (chars : List Char) : Option (List Token) :=
  match _skipped : skipSpace chars with
  | [] => some []
  | first :: rest =>
    match _next : nextToken? (first :: rest) with
    | none => none
    | some (token, others) => (scan others).map (token :: ·)
termination_by chars.length
decreasing_by
  have shorter := length_lt_of_nextToken? _next
  have within := (List.dropWhile_sublist isSpace (l := chars)).length_le
  rw [skipSpace] at _skipped
  rw [_skipped] at within
  omega

/-- Nothing but space has no tokens. -/
theorem scan_of_space {chars : List Char} (space : skipSpace chars = []) : scan chars = some [] := by
  rw [scan]
  split
  · rfl
  · rename_i skipped
    rw [space] at skipped
    cases skipped

/-- The first token comes before the tokens of what follows it. -/
theorem scan_of_nextToken? {chars others : List Char} {token : Token}
    (next : nextToken? (skipSpace chars) = some (token, others)) :
    scan chars = (scan others).map (token :: ·) := by
  rw [scan]
  split
  · rename_i skipped
    rw [skipped] at next
    cases next
  · rename_i first rest skipped
    rw [skipped] at next
    split
    · rename_i failed
      rw [next] at failed
      cases failed
    · rename_i read
      rw [next] at read
      cases read
      rfl

/-- The token that a text starts with comes before the tokens of what follows it. -/
theorem StartsWith.scan_eq {chars others : List Char} {token : Token}
    (starts : StartsWith chars token others) : scan chars = (scan others).map (token :: ·) := by
  apply scan_of_nextToken?
  rw [starts.skipSpace_eq]
  exact nextToken?_eq_some_iff.2 starts

/-- Space at the start makes no difference. -/
theorem scan_congr {chars others : List Char} (same : skipSpace chars = skipSpace others) :
    scan chars = scan others := by
  rw [scan, scan, same]

/-- Induction along the tokens of a text: what holds of space, and of a text as soon as it
holds of what follows the first token, holds of every text that consists of tokens. -/
@[elab_as_elim]
theorem scan_induction {motive : List Char → List Token → Prop}
    (space : ∀ chars, skipSpace chars = [] → motive chars [])
    (onward : ∀ chars token others tokens, nextToken? (skipSpace chars) = some (token, others) →
      motive others tokens → motive chars (token :: tokens))
    {chars : List Char} {tokens : List Token} (scanned : scan chars = some tokens) :
    motive chars tokens := by
  fun_induction scan chars generalizing tokens with
  | case1 chars skipped =>
    cases scanned
    exact space chars skipped
  | case2 => cases scanned
  | case3 chars first rest skipped token others next ih =>
    obtain ⟨behind, given, rfl⟩ := Option.map_eq_some_iff.1 scanned
    exact onward chars token others behind (by rw [skipped, next]) (ih given)

/-! ## Texts one after another -/

/-- What follows does not go on with a word. -/
def Apart (rest : List Char) : Prop :=
  ∀ first ∈ rest.head?, isWordChar first = false

theorem apart_cons {first : Char} {rest : List Char} :
    Apart (first :: rest) ↔ isWordChar first = false := by
  simp [Apart]

/-- A word ends where what follows is apart. -/
theorem span_isWordChar_append {rest : List Char} (apart : Apart rest) (chars : List Char) :
    (chars ++ rest).takeWhile isWordChar = chars.takeWhile isWordChar ∧
      (chars ++ rest).dropWhile isWordChar = chars.dropWhile isWordChar ++ rest := by
  induction chars with
  | nil =>
    cases rest with
    | nil => simp
    | cons first rest => simp [apart_cons.1 apart]
  | cons char chars ih =>
    by_cases inWord : isWordChar char = true
    · simp [inWord, ih]
    · simp [inWord]

/-- The first token of a text is that of a longer one when what follows is apart. -/
theorem nextToken?_append {chars others rest : List Char} {token : Token} (apart : Apart rest)
    (next : nextToken? chars = some (token, others)) :
    nextToken? (chars ++ rest) = some (token, others ++ rest) := by
  rw [nextToken?_eq_some_iff] at next ⊢
  cases next with
  | text clear again others =>
    rw [List.cons_append, List.append_assoc, List.cons_append]
    exact .text clear again _
  | mark marked others => exact .mark marked _
  | @word char inWord behind =>
    obtain ⟨taken, dropped⟩ := span_isWordChar_append apart behind
    rw [List.cons_append, ← taken, ← dropped]
    exact .word inWord _

/-- Space at the start means nothing, also when something follows the text. -/
theorem skipSpace_append (chars rest : List Char) :
    skipSpace (chars ++ rest) =
      if skipSpace chars = [] then skipSpace rest else skipSpace chars ++ rest := by
  unfold skipSpace
  rw [List.dropWhile_append]
  simp [List.isEmpty_iff]

/-- The tokens of one text after another are the tokens of both in turn, when the second is
apart from the first. -/
theorem scan_append {chars rest : List Char} {tokens others : List Token}
    (scanned : scan chars = some tokens) (apart : Apart rest) (scannedToo : scan rest = some others) :
    scan (chars ++ rest) = some (tokens ++ others) := by
  refine scan_induction ?space ?onward scanned
  case space =>
    intro chars space
    have same : skipSpace (chars ++ rest) = skipSpace rest := by
      rw [skipSpace_append, if_pos space]
    rw [List.nil_append, ← scannedToo]
    exact scan_congr same
  case onward =>
    intro chars token behind tokens next ih
    have visible : skipSpace chars ≠ [] := by
      intro space
      rw [space] at next
      cases next
    have first : nextToken? (skipSpace (chars ++ rest)) = some (token, behind ++ rest) := by
      rw [skipSpace_append, if_neg visible]
      exact nextToken?_append apart next
    rw [scan_of_nextToken? first, ih]
    rfl

/-! ## The tokens of a value -/

mutual

/-- The tokens of a value, without regard to how it is spread over lines. -/
def tokens : Json → List Token
  | .null => [.word "null".toList]
  | .bool value => [.word (boolChars value)]
  | .number value => [.word (numberChars value)]
  | .text value => [.text value]
  | .array items => .mark '[' :: itemTokens items ++ [.mark ']']
  | .object entries => .mark '\x7b' :: entryTokens entries ++ [.mark '\x7d']

/-- The tokens of items, with a comma between one item and the next. -/
def itemTokens : List Json → List Token
  | [] => []
  | [item] => item.tokens
  | item :: items => item.tokens ++ .mark ',' :: itemTokens items

/-- The tokens of entries, with a comma between one entry and the next. -/
def entryTokens : List (String × Json) → List Token
  | [] => []
  | [(name, value)] => .text name :: .mark ':' :: value.tokens
  | (name, value) :: entries =>
    .text name :: .mark ':' :: (value.tokens ++ .mark ',' :: entryTokens entries)

end

theorem itemTokens_eq (items : List Json) :
    itemTokens items = [.mark ','].intercalate (items.map tokens) :=
  eq_intercalate rfl (fun _ => rfl) (fun _ _ _ => rfl) items

theorem entryTokens_eq (entries : List (String × Json)) :
    entryTokens entries = [.mark ','].intercalate
      (entries.map fun entry => .text entry.1 :: .mark ':' :: entry.2.tokens) :=
  eq_intercalate rfl (fun _ => rfl) (fun _ _ _ => rfl) entries

/-- Items are written each on its own line, with commas between them. -/
theorem prettyItems_eq (level : Nat) (items : List Json) :
    prettyItems level items =
      [','].intercalate (items.map fun item => lineBreak level ++ item.prettyChars level) :=
  eq_intercalate rfl (fun _ => rfl) (fun _ _ _ => by simp [prettyItems]) items

/-- Entries are written each on its own line, with commas between them. -/
theorem prettyEntries_eq (level : Nat) (entries : List (String × Json)) :
    prettyEntries level entries =
      [','].intercalate (entries.map fun entry =>
        lineBreak level ++ (textChars entry.1 ++ ':' :: ([' '] ++ entry.2.prettyChars level))) :=
  eq_intercalate rfl (fun _ => by simp [prettyEntries]) (fun _ _ _ => by simp [prettyEntries])
    entries

/-! ## Scanning what is written -/

/-- The signs around and between tokens are tokens by themselves. -/
theorem scan_mark {char : Char} (marked : char ∈ punctuation) (rest : List Char) :
    scan (char :: rest) = (scan rest).map (.mark char :: ·) :=
  (StartsWith.mark marked rest).scan_eq

/-- Space in front of a text has no tokens. -/
theorem scan_space_append {space : List Char} (blank : ∀ char ∈ space, isSpace char = true)
    (rest : List Char) : scan (space ++ rest) = scan rest := by
  apply scan_congr
  rw [skipSpace, List.dropWhile_append_of_pos blank, skipSpace]

/-- A quoted text is one token. -/
theorem scan_textChars (value : String) : scan (textChars value) = some [.text value] := by
  have starts : StartsWith (textChars value) (.text value) [] := by
    rw [← nextToken?_eq_some_iff, textChars, List.cons_append, nextToken?, readText_written]
    rfl
  rw [starts.scan_eq, scan_of_space rfl]
  rfl

/-- A word is one token. -/
theorem scan_word {chars : List Char} (nonempty : chars ≠ [])
    (word : ∀ char ∈ chars, isWordChar char = true) : scan chars = some [.word chars] := by
  obtain ⟨first, rest, rfl⟩ := List.exists_cons_of_ne_nil nonempty
  have behind : ∀ char ∈ rest, isWordChar char = true :=
    fun char member => word char (List.mem_cons_of_mem _ member)
  have starts := StartsWith.word (word first List.mem_cons_self) rest
  rw [List.takeWhile_eq_self_iff.2 behind, List.dropWhile_eq_nil_iff.2 behind] at starts
  rw [starts.scan_eq, scan_of_space rfl]
  rfl

/-- A bare value is one token. -/
theorem IsBare.scan_compactChars {json : Json} (bare : json.IsBare) :
    scan json.compactChars = some [.word json.compactChars] :=
  scan_word bare.isWord.1 bare.isWord.2

/-- Texts with commas between them, and maybe space behind these, are scanned one after
another. -/
theorem scan_intercalate {α : Type} {items : List α} {chars : α → List Char}
    {tokens : α → List Token} {space : List Char} (blank : ∀ char ∈ space, isSpace char = true)
    (each : ∀ item ∈ items, scan (chars item) = some (tokens item)) :
    scan ((',' :: space).intercalate (items.map chars)) =
      some ([.mark ','].intercalate (items.map tokens)) := by
  induction items with
  | nil => exact scan_of_space rfl
  | cons item items ih =>
    have head := each item List.mem_cons_self
    have others := ih fun other member => each other (List.mem_cons_of_mem _ member)
    by_cases last : items = []
    · simpa [last] using head
    · have more : items.map chars ≠ [] ∧ items.map tokens ≠ [] := by simp [last]
      rw [List.map_cons, List.map_cons, List.intercalate_cons_of_ne_nil more.1,
        List.intercalate_cons_of_ne_nil more.2, List.append_assoc, List.append_assoc]
      apply scan_append head (apart_cons.2 (by decide))
      change scan (',' :: (space ++ _)) = _
      rw [scan_mark (by decide), scan_space_append blank, others]
      rfl

/-- What stands between an opening and a closing sign is scanned by itself. -/
theorem scan_enclosed {first last : Char} (opens : first ∈ punctuation)
    (closes : last ∈ punctuation) {inner : List Char} {tokens : List Token}
    (scanned : scan inner = some tokens) :
    scan (first :: inner ++ [last]) = some (.mark first :: tokens ++ [.mark last]) := by
  have noWord : ∀ mark ∈ punctuation, isWordChar mark = false := by simp [punctuation]; decide
  have closing : scan [last] = some [.mark last] := by
    rw [scan_mark closes, scan_of_space rfl]
    rfl
  rw [List.cons_append, scan_mark opens,
    scan_append scanned (apart_cons.2 (noWord last closes)) closing]
  rfl

/-- A name and a value with a colon between them are scanned one after the other. -/
theorem scan_entry (name : String) (space : List Char) {value : List Char} {tokens : List Token}
    (blank : ∀ char ∈ space, isSpace char = true) (scanned : scan value = some tokens) :
    scan (textChars name ++ ':' :: (space ++ value)) =
      some (.text name :: .mark ':' :: tokens) := by
  refine scan_append (scan_textChars name) (apart_cons.2 (by decide)) ?_
  rw [scan_mark (by decide), scan_space_append blank, scanned]
  rfl

/-- A bare value has one token, the word that it is written as in both forms. -/
theorem IsBare.tokens_eq {json : Json} (bare : json.IsBare) (level : Nat) :
    json.tokens = [.word json.compactChars] ∧ json.prettyChars level = json.compactChars := by
  cases json with
  | text value => cases bare
  | array items => cases bare
  | object entries => cases bare
  | _ => exact ⟨rfl, rfl⟩

/-- The compact form of a value has the tokens of the value. -/
theorem scan_compactChars (json : Json) : scan json.compactChars = some json.tokens := by
  induction json using parts_induction with
  | bare json bare => rw [bare.scan_compactChars, (bare.tokens_eq 0).1]
  | text value => exact scan_textChars value
  | array items ih =>
    rw [compactChars, compactItems_eq, tokens, itemTokens_eq]
    exact scan_enclosed (by decide) (by decide) (scan_intercalate (by simp) ih)
  | object entries ih =>
    have each : ∀ entry ∈ entries,
        scan (entryChars entry) = some (.text entry.1 :: .mark ':' :: entry.2.tokens) :=
      fun entry member => scan_entry entry.1 [] (by simp) (ih entry member)
    rw [compactChars, compactEntries_eq, tokens, entryTokens_eq]
    exact scan_enclosed (by decide) (by decide) (scan_intercalate (by simp) each)

/-- A line break is space. -/
theorem isSpace_of_mem_lineBreak {level : Nat} {char : Char} (member : char ∈ lineBreak level) :
    isSpace char = true := by
  rcases List.mem_cons.1 member with rfl | indented
  · decide
  · rw [List.eq_of_mem_replicate indented]
    decide

/-- A line break does not go on with a word. -/
theorem apart_lineBreak (level : Nat) : Apart (lineBreak level) := apart_cons.2 (by decide)

/-- What stands on lines of its own between two signs is scanned by itself. -/
theorem scan_enclosed_lines {first last : Char} (opens : first ∈ punctuation)
    (closes : last ∈ punctuation) {inner : List Char} {tokens : List Token} (level : Nat)
    (scanned : scan inner = some tokens) :
    scan (first :: inner ++ lineBreak level ++ [last]) =
      some (.mark first :: tokens ++ [.mark last]) := by
  have space : scan (lineBreak level) = some [] := by
    apply scan_of_space
    rw [skipSpace, List.dropWhile_eq_nil_iff]
    exact fun char member => isSpace_of_mem_lineBreak member
  have lines := scan_append scanned (apart_lineBreak level) space
  rw [List.append_nil] at lines
  simpa using scan_enclosed opens closes lines

/-- The pretty form of a value has the tokens of the value, on whatever level it stands. -/
theorem scan_prettyChars (level : Nat) (json : Json) :
    scan (json.prettyChars level) = some json.tokens := by
  induction json using parts_induction generalizing level with
  | bare json bare =>
    rw [(bare.tokens_eq level).1, (bare.tokens_eq level).2, bare.scan_compactChars]
  | text value => exact scan_textChars value
  | array items ih =>
    cases items with
    | nil => exact scan_compactChars (.array [])
    | cons item items =>
      have each : ∀ item' ∈ item :: items,
          scan (lineBreak (level + 1) ++ item'.prettyChars (level + 1)) = some item'.tokens := by
        intro other member
        rw [scan_space_append fun _ => isSpace_of_mem_lineBreak]
        exact ih other member (level + 1)
      rw [prettyChars, prettyItems_eq, tokens, itemTokens_eq]
      exact scan_enclosed_lines (by decide) (by decide) level (scan_intercalate (by simp) each)
  | object entries ih =>
    cases entries with
    | nil => exact scan_compactChars (.object [])
    | cons entry entries =>
      have each : ∀ other ∈ entry :: entries,
          scan (lineBreak (level + 1) ++ (textChars other.1 ++ ':' :: ([' '] ++
            other.2.prettyChars (level + 1)))) =
              some (.text other.1 :: .mark ':' :: other.2.tokens) := by
        intro other member
        rw [scan_space_append fun _ => isSpace_of_mem_lineBreak]
        exact scan_entry other.1 [' '] (by simp; decide) (ih other member (level + 1))
      rw [prettyChars, prettyEntries_eq, tokens, entryTokens_eq]
      exact scan_enclosed_lines (by decide) (by decide) level (scan_intercalate (by simp) each)

end Json

end StructuralDiff
