import Mathlib.Data.List.TakeDrop
import Mathlib.Data.List.TakeWhile
import StructuralDiff.Outcome
import StructuralDiff.Policy.Setting

/-!
# Paths that can be read back

A segment is legible when reading its written form gives the segment again, and a
path is legible when its segments are and none of them holds a separator. Segments
that were read are legible, and the written form of a legible path leads back to the
path itself (`Path.read_text`).
-/

namespace StructuralDiff

namespace Segment

/-- Reading the written form of a segment gives the segment. -/
def Legible (segment : Segment) : Prop :=
  read segment.text = .ok segment

/-- The characters of a name are the characters of its segment. -/
theorem toList_text_ofName (name : List Char) : (ofName name).text.toList = name := by
  unfold ofName
  split
  · rename_i key value split
    split
    · simp [text]
    · rw [List.span_eq_takeWhile_dropWhile, Prod.mk.injEq] at split
      have whole := List.takeWhile_append_dropWhile (p := (· != '=')) (l := name)
      rw [split.1, split.2] at whole
      simpa [text] using whole
  · simp [text]

/-- What is classified is not empty, has nothing blank in it, and is the written form
of its segment. -/
theorem facts_of_classify {chars : List Char} {segment : Segment}
    (classified : classify chars = .ok segment) :
    chars ≠ [] ∧ (∀ char ∈ chars, Text.isBlank char = false) ∧ segment.text.toList = chars := by
  unfold classify at classified
  split at classified
  · cases classified
  · rename_i some
    split at classified
    · cases classified
    · rename_i clear
      refine ⟨by simpa using some, by simpa using clear, ?_⟩
      split at classified
      · cases classified
        rfl
      · split at classified
        · cases classified
        · cases classified
          simp [text]
      · cases classified
        exact toList_text_ofName _

/-- The written form of a segment is the trimmed token. -/
theorem toList_text_of_read {token : String} {segment : Segment} (given : read token = .ok segment) :
    segment.text.toList = Text.trimChars token.toList :=
  (facts_of_classify given).2.2

/-- What was read can be read again. -/
theorem legible_of_read {token : String} {segment : Segment} (given : read token = .ok segment) :
    segment.Legible := by
  obtain ⟨-, clear, written⟩ := facts_of_classify given
  unfold Legible read
  rw [written, Text.trimChars_of_clear clear]
  exact given

/-- A legible segment has a written form. -/
theorem Legible.text_ne_nil {segment : Segment} (legible : segment.Legible) :
    segment.text.toList ≠ [] := by
  have read := facts_of_classify legible
  rw [← read.2.2] at read
  exact read.1

/-- The written form of a legible segment has nothing blank in it. -/
theorem Legible.clear {segment : Segment} (legible : segment.Legible) :
    ∀ char ∈ segment.text.toList, Text.isBlank char = false := by
  have read := facts_of_classify legible
  rw [← read.2.2] at read
  exact read.2.1

/-- Digits are the name of a segment. -/
theorem read_of_digits {token : String} (some : token.toList ≠ [])
    (digits : ∀ char ∈ token.toList, char.isDigit = true) : read token = .ok (.plain token) := by
  have trimmed : Text.trimChars token.toList = token.toList :=
    Text.trimChars_of_clear fun char member => Text.isBlank_of_isDigit (digits char member)
  have clear : token.toList.any Text.isBlank = false := by
    rw [List.any_eq_false]
    intro char member
    rw [Text.isBlank_of_isDigit (digits char member)]
    exact Bool.false_ne_true
  have noSign : token.toList.span (· != '=') = (token.toList, []) := by
    rw [List.span_eq_takeWhile_dropWhile]
    have whole : ∀ char ∈ token.toList, (char != '=') = true := by
      intro char member
      have digit := digits char member
      rw [bne_iff_ne]
      rintro rfl
      exact absurd digit (by decide)
    rw [List.takeWhile_eq_self_iff.2 whole, List.dropWhile_eq_nil_iff.2 whole]
  have named : ofName token.toList = .plain token := by
    rw [ofName, noSign]
    simp
  rw [read, trimmed]
  unfold classify
  split
  · rename_i empty
    exact absurd (List.isEmpty_iff.1 empty) some
  · split
    · rename_i blank
      rw [clear] at blank
      cases blank
    · split
      · rename_i star
        exact absurd (digits '*' (star ▸ List.mem_cons_self)) (by decide)
      · rename_i colon
        exact absurd (digits ':' (colon ▸ List.mem_cons_self)) (by decide)
      · rw [named]

/-- The key of a segment is part of its written form. -/
theorem mem_text_of_mem_key {segment : Segment} {key : String} (named : segment.key? = some key)
    {char : Char} (member : char ∈ key.toList) : char ∈ segment.text.toList := by
  cases segment with
  | plain name => cases named
  | wildcard => cases named
  | keyExpression name => cases named; simp [text, member]
  | keyValue name value => cases named; simp [text, member]

end Segment

namespace Path

/-- Every segment can be read back, and no separator hides in one. -/
def Legible (path : Path) : Prop :=
  ∀ segment ∈ path.segments, segment.Legible ∧ '/' ∉ segment.text.toList

theorem root_legible : root.Legible := by simp [Legible, root]

/-- A step is one more segment. -/
theorem join_eq_ok_iff {path child : Path} {token : String} :
    path.join token = .ok child ↔
      ∃ segment, Segment.read token = .ok segment ∧ child = ⟨path.segments ++ [segment]⟩ := by
  unfold join
  cases Segment.read token with
  | error fault => simp
  | ok segment => simp [eq_comm]

/-- A step without a separator keeps a path legible. -/
theorem Legible.join {path child : Path} {token : String} (legible : path.Legible)
    (joined : path.join token = .ok child) (clear : '/' ∉ token.toList) : child.Legible := by
  obtain ⟨segment, given, rfl⟩ := join_eq_ok_iff.1 joined
  intro other member
  rcases List.mem_append.1 member with old | new
  · exact legible other old
  · rw [List.mem_singleton.1 new]
    refine ⟨Segment.legible_of_read given, fun inside => clear ?_⟩
    rw [Segment.toList_text_of_read given] at inside
    exact Text.mem_of_mem_trimChars inside

/-- The written form of a path: a separator, and the segments with separators between
them. -/
theorem toList_text (path : Path) :
    path.text.toList =
      '/' :: ['/'].intercalate (path.segments.map fun segment => segment.text.toList) := by
  simp [text, String.toList_intercalate, List.map_map, Function.comp_def]

/-- Between names that are not blank, nothing is insignificant but the empty name
before the first separator. -/
theorem significantNames_cons_of_clear {names : List (List Char)} (some : names ≠ [])
    (clear : ∀ name ∈ names, name ≠ [] ∧ ∀ char ∈ name, Text.isBlank char = false) :
    significantNames ([] :: names) = names := by
  have front : names.dropWhile (·.all Text.isBlank) = names := by
    obtain ⟨name, rest, rfl⟩ := List.exists_cons_of_ne_nil some
    obtain ⟨full, plain⟩ := clear name (by simp)
    obtain ⟨char, chars, rfl⟩ := List.exists_cons_of_ne_nil full
    simp [plain char (by simp)]
  have back : names.reverse.dropWhile List.isEmpty = names.reverse := by
    obtain ⟨name, rest, split⟩ := List.exists_cons_of_ne_nil (List.reverse_ne_nil_iff.2 some)
    have full := (clear name (List.mem_reverse.1 (by simp [split]))).1
    rw [split]
    simp [full]
  have started : ([] :: names).dropWhile (·.all Text.isBlank) = names := by
    rw [List.dropWhile_cons_of_pos (by simp), front]
  simp only [significantNames, started, back, List.reverse_reverse]

/-- Names that are written forms of segments are read as the segments. -/
theorem mapM_readName {path : String} {segments : List Segment}
    (legible : ∀ segment ∈ segments, segment.Legible) :
    (segments.map fun segment => segment.text.toList).mapM (readName path) = .ok segments := by
  induction segments with
  | nil => rfl
  | cons segment segments ih =>
    have head : readName path segment.text.toList = .ok segment := by
      have here := legible segment (by simp)
      have full := here.text_ne_nil
      unfold Segment.Legible at here
      simp [readName, full, here]
    have tail := ih fun other member => legible other (List.mem_cons_of_mem _ member)
    simp only [List.map_cons, List.mapM_cons, head, tail]
    rfl

/-- The written form of a legible path leads back to the path. -/
theorem read_text {path : Path} (legible : path.Legible) : read path.text = .ok path := by
  have names : significantNames (Text.split '/' path.text.toList) =
      path.segments.map fun segment => segment.text.toList := by
    rw [toList_text]
    by_cases none : path.segments = []
    · rw [none]
      rfl
    · have some : (path.segments.map fun segment => segment.text.toList) ≠ [] := by simpa using none
      rw [Text.split, if_pos rfl, Text.split_intercalate some]
      · refine significantNames_cons_of_clear some fun name member => ?_
        obtain ⟨segment, known, rfl⟩ := List.mem_map.1 member
        exact ⟨(legible segment known).1.text_ne_nil, (legible segment known).1.clear⟩
      · intro name member
        obtain ⟨segment, known, rfl⟩ := List.mem_map.1 member
        exact (legible segment known).2
  unfold read
  rw [names, mapM_readName fun segment member => (legible segment member).1]
  rfl

/-- Legible paths are told by their written forms. -/
theorem Legible.eq_of_text_eq {path other : Path} (legible : path.Legible)
    (legibleToo : other.Legible) (same : path.text = other.text) : path = other := by
  have read := read_text legible
  rw [same, read_text legibleToo] at read
  exact (Except.ok.inj read).symm

/-- What a legible path starts with is legible. -/
theorem Legible.of_start {start path : Path} (legible : path.Legible)
    (starts : start.segments <+: path.segments) : start.Legible :=
  fun segment member => legible segment (starts.subset member)

/-- Steps to paths that one path starts with are the same up to blanks at their ends, when they
start from the same path. -/
theorem trim_eq_of_join {path child other place : Path} {token tokenToo : String}
    (joined : path.join token = .ok child) (joinedToo : path.join tokenToo = .ok other)
    (under : child.segments <+: place.segments) (underToo : other.segments <+: place.segments) :
    Text.trim token = Text.trim tokenToo := by
  obtain ⟨segment, given, rfl⟩ := join_eq_ok_iff.1 joined
  obtain ⟨segmentToo, givenToo, rfl⟩ := join_eq_ok_iff.1 joinedToo
  have children : path.segments ++ [segment] = path.segments ++ [segmentToo] :=
    (List.prefix_of_prefix_length_le under underToo (by simp)).eq_of_length (by simp)
  have segments : segment = segmentToo := by simpa using children
  rw [Text.trim, Text.trim, ← Segment.toList_text_of_read given,
    ← Segment.toList_text_of_read givenToo, segments]

/-- The significant names are names of the path. -/
theorem mem_of_mem_significantNames {names : List (List Char)} {name : List Char}
    (member : name ∈ significantNames names) : name ∈ names := by
  unfold significantNames at member
  have kept := (List.dropWhile_sublist _).mem (List.mem_reverse.1 member)
  exact (List.dropWhile_sublist _).mem (List.mem_reverse.1 kept)

/-- Segments that are read from names are each read from one of them. -/
theorem exists_name_of_mem {path : String} {names : List (List Char)} {segments : List Segment}
    (collected : names.mapM (readName path) = .ok segments) {segment : Segment}
    (member : segment ∈ segments) :
    ∃ name ∈ names, Segment.read (String.ofList name) = .ok segment := by
  induction names generalizing segments with
  | nil =>
    cases collected
    cases member
  | cons name names ih =>
    rw [List.mapM_cons] at collected
    obtain ⟨head, first, rest⟩ := Outcome.bind_eq_ok_iff.1 collected
    obtain ⟨tail, others, whole⟩ := Outcome.bind_eq_ok_iff.1 rest
    cases Outcome.pure_eq_ok_iff.1 whole
    rcases List.mem_cons.1 member with rfl | later
    · refine ⟨name, by simp, ?_⟩
      unfold readName at first
      split at first
      · cases first
      · cases given : Segment.read (String.ofList name) <;> simp_all
    · obtain ⟨other, known, given⟩ := ih others later
      exact ⟨other, List.mem_cons_of_mem _ known, given⟩

/-- Every segment of a path that was read comes from a name without a separator. -/
theorem legible_of_read {text : String} {path : Path} (given : read text = .ok path) :
    path.Legible := by
  unfold read at given
  obtain ⟨segments, collected, whole⟩ := Outcome.bind_eq_ok_iff.1 given
  cases Outcome.pure_eq_ok_iff.1 whole
  intro segment member
  obtain ⟨name, known, given⟩ := exists_name_of_mem collected member
  refine ⟨Segment.legible_of_read given, fun inside => ?_⟩
  rw [Segment.toList_text_of_read given] at inside
  have held := Text.mem_of_mem_trimChars inside
  rw [String.toList_ofList] at held
  exact Text.notMem_of_mem_split (mem_of_mem_significantNames known) held

end Path

namespace Setting

/-- The patterns of a setting can be read back. -/
theorem legible_of_mem_patterns {flag : String} {setting : Setting} {paths : List Path}
    (given : patterns flag setting = .ok paths) {path : Path} (member : path ∈ paths) :
    path.Legible := by
  obtain ⟨text, read⟩ := exists_text_of_mem_patterns given member
  exact Path.legible_of_read read

/-- The patterns of some settings can be read back. -/
theorem legible_of_mem_patternsOfAll {flag : String} {settings : List Setting} {paths : List Path}
    (given : patternsOfAll flag settings = .ok paths) {path : Path} (member : path ∈ paths) :
    path.Legible := by
  obtain ⟨text, read⟩ := exists_text_of_mem_patternsOfAll given member
  exact Path.legible_of_read read

end Setting

end StructuralDiff
