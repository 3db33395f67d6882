import Mathlib
import StructuralDiff.Comparison.Recording

/-!
# Which of two entries of one spelling is meant

An object may hold a text key and a scalar key that are spelled alike. Where a policy takes
them for one key, the comparison of objects keeps the value of the later entry, wherever it
stands and whichever key it has, while the look-up by which items are paired asks for the text
key first. Both find something or nothing together, and they find the same value unless the
text key comes before the scalar key with another value (`Policy.lookUp_eq_compared_iff`).
-/

namespace StructuralDiff

namespace Entries

variable {κ α : Type} [DecidableEq κ]

/-- When pairs are set one after another, the last pair of a key decides. By induction on the
pairs from the last one, which is the step `find?_set` is about. -/
theorem find?_ofPairs (pairs : List (κ × α)) (key : κ) :
    (ofPairs pairs).find? key =
      ((pairs.filter fun pair => pair.1 = key).getLast?).map Prod.snd := by
  induction pairs using List.reverseRecOn with
  | nil => rfl
  | append_singleton pairs pair ih =>
    have last : ofPairs (pairs ++ [pair]) = (ofPairs pairs).set pair.1 pair.2 := by
      rw [ofPairs, List.foldl_append]
      rfl
    rw [last, find?_set, ih, List.filter_append]
    by_cases same : pair.1 = key <;> simp [same]

end Entries

namespace Policy

variable {policy : Policy} {entries : Entries Key Value} {name : String}

/-- Where keys that are spelled alike are one key, the last entry of a spelling is compared. -/
theorem find?_entries_folded (folds : policy.indifferentKeys = true) :
    (policy.entries entries).find? (.text name) =
      ((entries.filter fun entry => entry.1.name = name).getLast?).map Prod.snd := by
  have spelled : (fun pair : Key × Value => decide (pair.1 = .text name)) ∘
      (fun entry : Key × Value => (entry.1.canonical, entry.2)) =
        fun entry => decide (entry.1.name = name) := by
    funext entry
    simp [Key.canonical]
  rw [Policy.entries, if_pos folds, Entries.find?_ofPairs, List.filter_map, spelled,
    List.getLast?_map, Option.map_map]
  rfl

/-- Where keys that are spelled alike are one key, the text key is asked for first and the
scalar key only where there is none. -/
theorem lookUp_folded (folds : policy.indifferentKeys = true) :
    policy.lookUp entries name =
      (entries.find? (.text name)).or (entries.find? (.scalar name)) := by
  unfold lookUp
  cases entries.find? (.text name) <;> simp [folds]

/-- An entry is the one that is compared under its spelling when no other key of that spelling
comes after it. -/
theorem find?_entries_of_last (folds : policy.indifferentKeys = true)
    {before after : Entries Key Value} (key : Key) {value : Value}
    (distinct : (Entries.keys (before ++ (key, value) :: after)).Nodup)
    (last : ∀ other ∈ Entries.keys after, other.name = key.name → other = key) :
    (policy.entries (before ++ (key, value) :: after)).find? (.text key.name) = some value := by
  have fresh : key ∉ Entries.keys after := by
    rw [Entries.keys, List.map_append, List.map_cons] at distinct
    exact (List.nodup_cons.1 (List.nodup_append.1 distinct).2.1).1
  have none : after.filter (fun entry => entry.1.name = key.name) = [] := by
    rw [List.filter_eq_nil_iff]
    intro entry member spelled
    have known : entry.1 ∈ Entries.keys after := List.mem_map_of_mem member
    exact fresh (last entry.1 known (by simpa using spelled) ▸ known)
  rw [find?_entries_folded folds, List.filter_append, List.filter_cons_of_pos (by simp), none,
    List.getLast?_append_cons]
  rfl

/-- The value of a text key comes before that of the scalar key of the same spelling. -/
def Overtaken (entries : Entries Key Value) (name : String) (own other : Value) : Prop :=
  ∃ before between after,
    entries = before ++ (.text name, own) :: (between ++ (.scalar name, other) :: after)

/-- Where the scalar key comes later, its value is compared, and that of the text key is looked
up. -/
theorem lookUp_and_compared_of_overtaken (folds : policy.indifferentKeys = true)
    (distinct : entries.keys.Nodup) {own other : Value}
    (overtaken : Overtaken entries name own other) :
    policy.lookUp entries name = some own ∧
      (policy.entries entries).find? (.text name) = some other := by
  obtain ⟨before, between, after, rfl⟩ := overtaken
  constructor
  · have member : (Key.text name, own) ∈
        before ++ (.text name, own) :: (between ++ (.scalar name, other) :: after) := by simp
    rw [lookUp_folded folds, Entries.find?_of_mem distinct member, Option.some_or]
  · rw [← List.cons_append, ← List.append_assoc] at distinct ⊢
    refine find?_entries_of_last folds (.scalar name) distinct fun key later spelled => ?_
    cases key with
    | scalar otherName => rw [show otherName = name from spelled]
    | text otherName =>
      -- The text key stands in front already.
      rw [show otherName = name from spelled] at later
      rw [Entries.keys, List.map_append, List.nodup_append] at distinct
      have inFront : Key.text name ∈ (before ++ (.text name, own) :: between).map Prod.fst := by
        simp
      exact absurd rfl (distinct.2.2 _ inFront _ (List.mem_cons_of_mem _ later))

/-- Where the scalar key does not come later, the value that is looked up is the one that is
compared. -/
theorem lookUp_eq_compared_of_not_overtaken (folds : policy.indifferentKeys = true)
    (distinct : entries.keys.Nodup) (inOrder : ∀ own other, ¬ Overtaken entries name own other) :
    policy.lookUp entries name = (policy.entries entries).find? (.text name) := by
  rw [lookUp_folded folds]
  cases text : entries.find? (.text name) with
  | some own =>
    obtain ⟨before, after, rfl⟩ := List.append_of_mem (Entries.mem_of_find? text)
    refine (find?_entries_of_last folds (.text name) distinct fun key later spelled => ?_).symm
    cases key with
    | text otherName => rw [show otherName = name from spelled]
    | scalar otherName =>
      rw [show otherName = name from spelled] at later
      obtain ⟨⟨key, other⟩, member, rfl⟩ := List.mem_map.1 later
      obtain ⟨between, rest, rfl⟩ := List.append_of_mem member
      exact absurd ⟨before, between, rest, rfl⟩ (inOrder own other)
  | none =>
    have noText : Key.text name ∉ entries.keys := Entries.find?_eq_none_iff.1 text
    rw [Option.none_or]
    cases scalar : entries.find? (.scalar name) with
    | some other =>
      obtain ⟨before, after, rfl⟩ := List.append_of_mem (Entries.mem_of_find? scalar)
      refine (find?_entries_of_last folds (.scalar name) distinct
        fun key later spelled => ?_).symm
      cases key with
      | scalar otherName => rw [show otherName = name from spelled]
      | text otherName =>
        rw [show otherName = name from spelled] at later
        refine absurd ?_ noText
        rw [Entries.keys, List.map_append]
        exact List.mem_append_right _ (List.mem_cons_of_mem _ later)
    | none =>
      have noScalar : Key.scalar name ∉ entries.keys := Entries.find?_eq_none_iff.1 scalar
      have unknown : entries.filter (fun entry => entry.1.name = name) = [] := by
        rw [List.filter_eq_nil_iff]
        intro entry member spelled
        have known : entry.1 ∈ entries.keys := List.mem_map_of_mem member
        cases key : entry.1 with
        | text otherName => simp_all [Key.name]
        | scalar otherName => simp_all [Key.name]
      rw [find?_entries_folded folds, unknown]
      rfl

/-- The value of an object by which its item is paired and the value that is compared under the
same name are both there or both missing. They are one value, unless keys that are spelled alike
are one key and the text key of the name comes before its scalar key with another value. -/
theorem lookUp_eq_compared_iff (policy : Policy) {entries : Entries Key Value}
    (distinct : entries.keys.Nodup) (name : String) :
    (policy.lookUp entries name = none ↔ (policy.entries entries).find? (.text name) = none) ∧
    (policy.lookUp entries name = (policy.entries entries).find? (.text name) ↔
      (policy.indifferentKeys = true → ∀ own other, Overtaken entries name own other →
        own = other)) := by
  cases folds : policy.indifferentKeys with
  | false =>
    have written : policy.lookUp entries name = (policy.entries entries).find? (.text name) := by
      unfold lookUp Policy.entries
      cases text : entries.find? (.text name) <;> simp [folds, text]
    simp [written]
  | true =>
    have both : ∀ {own other}, Overtaken entries name own other →
        policy.lookUp entries name = some own ∧
          (policy.entries entries).find? (.text name) = some other :=
      fun held => lookUp_and_compared_of_overtaken folds distinct held
    by_cases overtaken : ∃ own other, Overtaken entries name own other
    · obtain ⟨own, other, held⟩ := overtaken
      obtain ⟨looked, compared⟩ := both held
      refine ⟨by simp [looked, compared], fun same _ first second heldToo => ?_, fun agree => ?_⟩
      · obtain ⟨lookedToo, comparedToo⟩ := both heldToo
        exact Option.some.inj (lookedToo.symm.trans (same.trans comparedToo))
      · rw [looked, compared, agree rfl own other held]
    · have inOrder : ∀ own other, ¬ Overtaken entries name own other :=
        fun own other held => overtaken ⟨own, other, held⟩
      have same := lookUp_eq_compared_of_not_overtaken folds distinct inOrder
      exact ⟨by rw [same], fun _ _ own other held => absurd held (inOrder own other),
        fun _ => same⟩

/-- Keys that are spelled alike are one key, and items are paired by the key `1`. -/
def pairedByFolded : Policy :=
  { Policy.default with indifferentKeys := true, matchByKey := [⟨[.keyExpression "1"]⟩] }

/-- A text key after the scalar key of the same spelling, and a scalar key without one. -/
def scalarFirst : Entries Key Value :=
  [(.scalar "1", .text "a"), (.scalar "2", .null), (.text "1", .text "b")]

/-- Where the text key comes last, its value is the one that is looked up and compared; a scalar
key without a text key is found in both ways, and a key that is not there in neither. -/
theorem lookUp_eq_compared_iff_scalarFirst :
    pairedByFolded.lookUp scalarFirst "1" = some (.text "b") ∧
    (pairedByFolded.entries scalarFirst).find? (.text "1") = some (.text "b") ∧
    pairedByFolded.lookUp scalarFirst "2" = (pairedByFolded.entries scalarFirst).find? (.text "2") ∧
    (pairedByFolded.entries scalarFirst).find? (.text "3") = none := by
  have distinct : Entries.keys scalarFirst |>.Nodup := by decide
  have compared := lookUp_eq_compared_iff pairedByFolded distinct
  have inOrder : ∀ name own other, ¬ Overtaken scalarFirst name own other := by
    rintro name own other ⟨before, between, after, split⟩
    rcases before with _ | ⟨first, _ | ⟨second, _ | ⟨third, before⟩⟩⟩ <;> simp [scalarFirst] at split
  refine ⟨by cbv, ?_, ?_, ?_⟩
  · rw [← ((compared "1").2.2 fun _ own other held => absurd held (inOrder _ own other))]
    cbv
  · exact (compared "2").2.2 fun _ own other held => absurd held (inOrder _ own other)
  · exact (compared "3").1.1 (by cbv)

/-- A text key before the scalar key of the same spelling. -/
def textFirst : Entries Key Value := [(.text "1", .text "a"), (.scalar "1", .text "b")]

/-- One value is looked up and another is compared: the item is paired as one with the first
value, so that an item that only has the other one is not found to be the same, although no
entry of the two would differ. -/
theorem lookUp_not_compared :
    pairedByFolded.lookUp textFirst "1" = some (.text "a") ∧
    (pairedByFolded.entries textFirst).find? (.text "1") = some (.text "b") ∧
    (∃ findings, Comparison.perform pairedByFolded (.object textFirst)
        (.object [(.text "1", .text "b")]) = .ok findings ∧ findings.items = []) ∧
    ∃ findings, Comparison.perform pairedByFolded (.array [.object textFirst])
        (.array [.object [(.text "1", .text "b")]]) = .ok findings ∧
      findings.items.map Difference.path = ["/1=a", "/1=b"] := by
  have together : Comparison.perform pairedByFolded (.object textFirst)
      (.object [(.text "1", .text "b")]) = .ok { items := [], positions := [], limit := none } := by
    cbv
  have apart : Comparison.perform pairedByFolded (.array [.object textFirst])
      (.array [.object [(.text "1", .text "b")]]) = .ok {
        items := [⟨.missing, "/1=a", some (.object textFirst), none⟩,
          ⟨.extra, "/1=b", none, some (.object [(.text "1", .text "b")])⟩]
        positions := [("/1=a", 0), ("/1=b", 1)]
        limit := none } := by
    cbv
  exact ⟨by cbv, by cbv, ⟨_, together, rfl⟩, _, apart, rfl⟩

end Policy

end StructuralDiff
