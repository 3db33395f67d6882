import Mathlib
import StructuralDiff.Proofs.KeyLookup
import StructuralDiff.Proofs.LeftOut
import StructuralDiff.Proofs.Meeting
import StructuralDiff.Proofs.PlainPolicies

/-!
# Keys that end a comparison

A key of an object that cannot be a step of a path ends a comparison as soon as the walk comes to
it, no matter what is under the key and whether it would be left out. The walk comes to the keys
of the objects that it opens: two objects at one position, where nothing is left out on the way.
Where items are paired by position and there is no limit, nothing else ends a comparison, and the
first such key in the order of the walk is the one that does
(`Comparison.perform_fails_iff_opens_invalidKey`).
-/

namespace StructuralDiff

/-- Dropping some items and listing what the others stand for is listing nothing for those that
are dropped. -/
theorem flatMap_filterMap {α β γ : Type} (items : List α) (choose : α → Option β)
    (onward : β → List γ) :
    (items.filterMap choose).flatMap onward =
      items.flatMap fun item => (choose item).elim [] onward := by
  induction items with
  | nil => rfl
  | cons item items ih =>
    cases chosen : choose item with
    | none => simp [chosen, ih]
    | some other => simp [chosen, ih]

namespace Policy

/-- The value one step inside a value, entries as they are compared. -/
def child? (policy : Policy) : Value → Position.Step → Option Value
  | .object entries, .entry key => (policy.entries entries).find? key
  | value, step => value.child? step

/-- The value at a position, entries on the way as they are compared. -/
def at? (policy : Policy) (value : Value) : Position → Option Value
  | [] => some value
  | step :: rest => (policy.child? value step).bind fun child => policy.at? child rest

/-- Two objects stand at a position below a path, and neither the position nor anything on the way
to it is left out. What is on the way is there on both sides, as objects where the position has a
key and as arrays where it has a number. -/
structure Opens (policy : Policy) (path : Path) (reference candidate : Value) (position : Position)
    (references candidates : Entries Key Value) : Prop where
  referenceAt : policy.at? reference position = some (.object references)
  candidateAt : policy.at? candidate position = some (.object candidates)
  shown : ∀ before, before <+: position →
    ∃ place, path.follow before = .ok place ∧ policy.excludes place = false

variable {policy : Policy} {path : Path} {reference candidate : Value}
  {references candidates : Entries Key Value}

/-- What is at a step of a value, entries as they are compared, is inside it. -/
theorem mem_parts_of_child? {value child : Value} {step : Position.Step}
    (there : policy.child? value step = some child) : child ∈ value.parts := by
  unfold child? at there
  split at there
  · obtain ⟨entry, held, -, same⟩ := of_mem_entries (Entries.mem_of_find? there)
    exact List.mem_map.2 ⟨entry, held, same⟩
  · exact Value.mem_parts_of_child? there

/-- A value that has something at a step is an object where the step is a key, and an array where
it is a number. -/
theorem container_of_child? {value child : Value} {step : Position.Step}
    (there : policy.child? value step = some child) :
    (∃ entries key, value = .object entries ∧ step = .entry key) ∨
      ∃ items number, value = .array items ∧ step = .item number := by
  unfold child? at there
  split at there
  · exact .inl ⟨_, _, rfl, rfl⟩
  · rcases Value.container_of_child? (Option.isSome_of_eq_some there) with
      ⟨entries, key, rfl, rfl, -⟩ | ⟨items, count, rfl, rfl, -⟩
    · exact .inl ⟨_, _, rfl, rfl⟩
    · exact .inr ⟨_, _, rfl, rfl⟩

/-- Where there is something at one step of two values, both are objects or both are arrays. -/
theorem sameContainer_of_child? {step : Position.Step} {value other : Value}
    (there : policy.child? reference step = some value)
    (thereToo : policy.child? candidate step = some other) : reference.SameContainer candidate := by
  rcases container_of_child? there with ⟨_, _, rfl, rfl⟩ | ⟨_, _, rfl, rfl⟩
  · rcases container_of_child? thereToo with ⟨_, _, rfl, -⟩ | ⟨_, _, _, same⟩
    · exact ⟨rfl, by simp [Value.shape]⟩
    · cases same
  · rcases container_of_child? thereToo with ⟨_, _, _, same⟩ | ⟨_, _, rfl, -⟩
    · cases same
    · exact ⟨rfl, by simp [Value.shape]⟩

/-- The entries of an object and those that are compared have the same names. -/
theorem mem_names_entries_iff {entries : Entries Key Value} {name : String} :
    (∃ entry ∈ policy.entries entries, entry.1.name = name) ↔
      ∃ entry ∈ entries, entry.1.name = name := by
  constructor
  · rintro ⟨entry, member, rfl⟩
    obtain ⟨other, held, same, -⟩ := of_mem_entries member
    exact ⟨other, held, same⟩
  · rintro ⟨entry, member, rfl⟩
    cases folds : policy.indifferentKeys with
    | true =>
      have spelled : entry ∈ entries.filter fun other => other.1.name = entry.1.name := by
        simpa using member
      have found : (policy.entries entries).find? (.text entry.1.name) = _ :=
        find?_entries_folded folds
      rw [List.getLast?_eq_some_getLast (List.ne_nil_of_mem spelled), Option.map_some] at found
      exact ⟨_, Entries.mem_of_find? found, rfl⟩
    | false => exact ⟨entry, by simpa [Policy.entries, folds] using member, rfl⟩

/-- Two objects are opened where they stand when the path is not left out. -/
theorem opens_nil_iff :
    policy.Opens path reference candidate [] references candidates ↔
      policy.excludes path = false ∧ reference = .object references ∧
        candidate = .object candidates := by
  constructor
  · rintro ⟨referenceAt, candidateAt, shown⟩
    obtain ⟨place, leads, notExcluded⟩ := shown [] List.nil_prefix
    cases leads
    exact ⟨notExcluded, Option.some.inj referenceAt, Option.some.inj candidateAt⟩
  · rintro ⟨shown, rfl, rfl⟩
    refine ⟨rfl, rfl, fun before isBefore => ⟨path, ?_, shown⟩⟩
    rw [List.prefix_nil.1 isBefore]
    rfl

/-- Two objects are opened further inside when they are opened from one step on. -/
theorem opens_cons_iff {step : Position.Step} {rest : Position} :
    policy.Opens path reference candidate (step :: rest) references candidates ↔
      policy.excludes path = false ∧ ∃ value other child,
        policy.child? reference step = some value ∧ policy.child? candidate step = some other ∧
        path.join step.name = .ok child ∧
        policy.Opens child value other rest references candidates := by
  constructor
  · rintro ⟨referenceAt, candidateAt, shown⟩
    obtain ⟨value, there, referenceAt⟩ := Option.bind_eq_some_iff.1 referenceAt
    obtain ⟨other, thereToo, candidateAt⟩ := Option.bind_eq_some_iff.1 candidateAt
    obtain ⟨place, leads, notExcluded⟩ := shown [] List.nil_prefix
    cases leads
    cases joined : path.join step.name with
    | error cause =>
      obtain ⟨place, leads, -⟩ := shown [step] (by simp)
      simp [Path.follow, joined] at leads
    | ok child =>
      refine ⟨notExcluded, value, other, child, there, thereToo, rfl, referenceAt, candidateAt,
        fun before isBefore => ?_⟩
      obtain ⟨place, leads, notExcluded⟩ := shown (step :: before) (by simpa using isBefore)
      rw [Path.follow, List.foldlM_cons, joined] at leads
      exact ⟨place, leads, notExcluded⟩
  · rintro ⟨notExcluded, value, other, child, there, thereToo, joined, opens⟩
    refine ⟨?_, ?_, fun before isBefore => ?_⟩
    · rw [at?, there]
      exact opens.referenceAt
    · rw [at?, thereToo]
      exact opens.candidateAt
    · cases before with
      | nil => exact ⟨path, rfl, notExcluded⟩
      | cons first before =>
        obtain ⟨rfl, shorter⟩ := List.cons_prefix_cons.1 isBefore
        obtain ⟨place, leads, notExcluded⟩ := opens.shown before shorter
        refine ⟨place, ?_, notExcluded⟩
        rw [Path.follow, List.foldlM_cons, joined]
        exact leads

end Policy

namespace Comparison

/-- What is listed one step below a path: nothing where the step is no segment. -/
def listBelow (path : Path) (step : String) (names : Path → List String) : List String :=
  match path.join step with
  | .ok child => names child
  | .error _ => []

/-- The names of the keys that only the first of two objects has. -/
def ownNames (entries others : Entries Key Value) : List String :=
  entries.filterMap fun (key, _) => if others.has key then none else some key.name

/-- The names of the keys of all objects that are opened at a path and below it, in the order of
the walk: of two objects the keys that only the reference has, then the keys that both have, each
followed by what is below it, then the keys that only the candidate has. -/
def openedKeys (policy : Policy) (path : Path) (reference candidate : Value) : List String :=
  if policy.excludes path then []
  else
    match reference, candidate with
    | .object references, .object candidates =>
      ownNames (policy.entries references) (policy.entries candidates) ++
        (policy.entries references).attach.flatMap (fun ⟨(key, value), _⟩ =>
          match (policy.entries candidates).find? key with
          | some other =>
            key.name :: listBelow path key.name fun child => openedKeys policy child value other
          | none => []) ++
        ownNames (policy.entries candidates) (policy.entries references)
    | .array references, .array candidates =>
      (references.zip candidates).zipIdx.attach.flatMap fun ⟨((value, other), position), _⟩ =>
        listBelow path (Pairing.positionStep position) fun child =>
          openedKeys policy child value other
    | _, _ => []
termination_by sizeOf reference
decreasing_by
  · obtain ⟨entry, held, -, same⟩ := Policy.of_mem_entries ‹_›
    exact Value.sizeOf_lt_of_mem_parts (List.mem_map.2 ⟨entry, held, same⟩)
  · rename_i member
    exact Value.sizeOf_lt_of_mem_parts (List.of_mem_zip (List.fst_mem_of_mem_zipIdx member)).1

/-- The names that are listed below a path for one pairing. -/
def openedBelow (policy : Policy) (path : Path) : Pairing → List String
  | .both step value other => listBelow path step fun child => openedKeys policy child value other
  | _ => []

section Listing

variable {policy : Policy} {path : Path}

/-- Where a path is left out, nothing is opened. -/
theorem openedKeys_of_excluded (leftOut : policy.excludes path = true) (reference candidate : Value) :
    openedKeys policy path reference candidate = [] := by
  unfold openedKeys
  rw [if_pos leftOut]

/-- The names of an object's own keys, entry by entry. -/
theorem ownNames_eq_flatMap (entries others : Entries Key Value) :
    ownNames entries others =
      entries.flatMap fun entry => if others.has entry.1 then [] else [entry.1.name] := by
  induction entries with
  | nil => rfl
  | cons entry entries ih =>
    have ih : entries.filterMap _ = _ := ih
    by_cases there : others.has entry.1 <;> simp [ownNames, there, ih]

/-- Of two objects, each pairing is listed and then what is below it. -/
theorem openedKeys_object (shown : policy.excludes path = false)
    (references candidates : Entries Key Value) :
    openedKeys policy path (.object references) (.object candidates) =
      (Pairing.ofEntries (policy.entries references) (policy.entries candidates)).flatMap
        fun pairing => pairing.step :: openedBelow policy path pairing := by
  unfold openedKeys
  simp only [shown, Bool.false_eq_true, if_false, Pairing.ofEntries, List.flatMap_append,
    flatMap_filterMap, ownNames_eq_flatMap]
  congr 2
  · refine List.flatMap_congr fun entry _ => ?_
    split <;> rfl
  · refine (List.flatMap_subtype fun entry _ => ?_).trans (congrArg _ List.unattach_attach)
    cases (policy.entries candidates).find? entry.1 <;> rfl
  · funext entry
    split <;> rfl

/-- Of two arrays, what is below the items at each position is listed. -/
theorem openedKeys_array (shown : policy.excludes path = false) (references candidates : List Value) :
    openedKeys policy path (.array references) (.array candidates) =
      (references.zip candidates).zipIdx.flatMap fun item =>
        openedBelow policy path (.both (Pairing.positionStep item.2) item.1.1 item.1.2) := by
  unfold openedKeys
  simp only [shown, Bool.false_eq_true, if_false]
  exact (List.flatMap_subtype fun item _ => rfl).trans (congrArg _ List.unattach_attach)

/-- What is below the pairings of two arrays is what is below the items at each position. -/
theorem flatMap_openedBelow_byPositionFrom (position : Nat) (references candidates : List Value) :
    (Pairing.byPositionFrom position references candidates).flatMap (openedBelow policy path) =
      ((references.zip candidates).zipIdx position).flatMap fun item =>
        openedBelow policy path (.both (Pairing.positionStep item.2) item.1.1 item.1.2) := by
  fun_induction Pairing.byPositionFrom position references candidates with
  | case1 => rfl
  | case2 position reference references ih => simpa [openedBelow] using ih
  | case3 position candidate candidates ih => simpa [openedBelow] using ih
  | case4 position reference references candidate candidates ih =>
    simp only [List.flatMap_cons, List.zip_cons_cons, List.zipIdx_cons, ih]

/-- Where there are not two containers alike, nothing is opened. -/
theorem openedKeys_of_not_sameContainer {reference candidate : Value}
    (different : ¬ reference.SameContainer candidate) :
    openedKeys policy path reference candidate = [] := by
  unfold openedKeys
  split
  · rfl
  · split
    · exact absurd ⟨rfl, by simp [Value.shape]⟩ different
    · exact absurd ⟨rfl, by simp [Value.shape]⟩ different
    · rfl

/-- What is listed for a pairing is listed where its step leads. -/
theorem mem_openedBelow_both_iff {step : String} {value other : Value} {name : String} :
    name ∈ openedBelow policy path (.both step value other) ↔
      ∃ child, path.join step = .ok child ∧ name ∈ openedKeys policy child value other := by
  cases joined : path.join step <;> simp [openedBelow, listBelow, joined]

/-- The keys of two objects are the steps of their pairings. -/
theorem exists_step_iff (policy : Policy) {references candidates : Entries Key Value}
    {name : String} :
    (∃ pairing ∈ Pairing.ofEntries (policy.entries references) (policy.entries candidates),
        pairing.step = name) ↔
      ∃ entry ∈ references ++ candidates, entry.1.name = name := by
  have names : (∃ entry ∈ references ++ candidates, entry.1.name = name) ↔
      ∃ entry ∈ policy.entries references ++ policy.entries candidates, entry.1.name = name := by
    simp only [List.mem_append, or_and_right, exists_or, Policy.mem_names_entries_iff]
  rw [names]
  constructor
  · rintro ⟨pairing, member, rfl⟩
    obtain ⟨entry, known, same⟩ := Pairing.exists_key_of_mem_ofEntries member
    exact ⟨entry, known, same.symm⟩
  · rintro ⟨⟨key, value⟩, member, rfl⟩
    simp only [Pairing.mem_ofEntries_iff]
    rcases List.mem_append.1 member with known | known
    · cases found : (policy.entries candidates).find? key with
      | none => exact ⟨_, .inl ⟨key, value, known, found, rfl⟩, rfl⟩
      | some other => exact ⟨_, .inr (.inl ⟨key, value, other, known, found, rfl⟩), rfl⟩
    · cases found : (policy.entries references).find? key with
      | none => exact ⟨_, .inr (.inr ⟨key, value, known, found, rfl⟩), rfl⟩
      | some own =>
        have there : (policy.entries candidates).has key = true :=
          Entries.mem_keys_iff_has.1 (Entries.mem_keys_of_mem known)
        obtain ⟨other, foundToo⟩ := Option.isSome_iff_exists.1 there
        exact ⟨_, .inr (.inl ⟨key, own, other, Entries.mem_of_find? found, foundToo, rfl⟩), rfl⟩

/-- A name is listed one step inside two values. -/
def ListedInside (policy : Policy) (path : Path) (reference candidate : Value) (name : String) :
    Prop :=
  ∃ step value other child, policy.child? reference step = some value ∧
    policy.child? candidate step = some other ∧ path.join step.name = .ok child ∧
    name ∈ openedKeys policy child value other

/-- A name is listed for two objects when one of them has a key of the name, or when it is listed
one step inside both. -/
theorem mem_openedKeys_object_iff (shown : policy.excludes path = false)
    {references candidates : Entries Key Value} (distinct : references.keys.Nodup) {name : String} :
    name ∈ openedKeys policy path (.object references) (.object candidates) ↔
      (∃ entry ∈ references ++ candidates, entry.1.name = name) ∨
        ListedInside policy path (.object references) (.object candidates) name := by
  rw [openedKeys_object shown, List.mem_flatMap, ← exists_step_iff policy]
  constructor
  · rintro ⟨pairing, member, listed⟩
    rcases List.mem_cons.1 listed with rfl | listed
    · exact .inl ⟨pairing, member, rfl⟩
    · cases pairing with
      | missing step value => cases listed
      | extra step value => cases listed
      | both step value other =>
        obtain ⟨child, joined, inside⟩ := mem_openedBelow_both_iff.1 listed
        rcases Pairing.mem_ofEntries_iff.1 member with
          ⟨_, _, _, _, same⟩ | ⟨key, _, _, known, found, same⟩ | ⟨_, _, _, _, same⟩
        · cases same
        · cases same
          have foundToo := Entries.find?_of_mem (policy.nodup_keys_entries distinct) known
          exact .inr ⟨.entry key, value, other, child, foundToo, found, joined, inside⟩
        · cases same
  · rintro (⟨pairing, member, rfl⟩ | ⟨step, value, other, child, there, thereToo, joined, inside⟩)
    · exact ⟨pairing, member, List.mem_cons_self⟩
    · cases step with
      | item number => cases there
      | entry key =>
        refine ⟨.both key.name value other, Pairing.mem_ofEntries_iff.2
          (.inr (.inl ⟨key, value, other, Entries.mem_of_find? there, thereToo, rfl⟩)), ?_⟩
        exact List.mem_cons_of_mem _ (mem_openedBelow_both_iff.2 ⟨child, joined, inside⟩)

/-- A name is listed for two arrays when it is listed one step inside both. -/
theorem mem_openedKeys_array_iff (shown : policy.excludes path = false)
    {references candidates : List Value} {name : String} :
    name ∈ openedKeys policy path (.array references) (.array candidates) ↔
      ListedInside policy path (.array references) (.array candidates) name := by
  rw [openedKeys_array shown, List.mem_flatMap]
  constructor
  · rintro ⟨⟨⟨value, other⟩, position⟩, member, listed⟩
    obtain ⟨child, joined, inside⟩ := mem_openedBelow_both_iff.1 listed
    obtain ⟨there, thereToo⟩ :=
      List.getElem?_zip_eq_some.1 (List.mk_mem_zipIdx_iff_getElem?.1 member)
    exact ⟨.item (position + 1), value, other, child, there, thereToo, joined, inside⟩
  · rintro ⟨step, value, other, child, there, thereToo, joined, inside⟩
    cases step with
    | entry key => cases there
    | item number =>
      cases number with
      | zero => cases there
      | succ position =>
        have paired : (references.zip candidates)[position]? = some (value, other) :=
          List.getElem?_zip_eq_some.2 ⟨there, thereToo⟩
        exact ⟨((value, other), position), List.mk_mem_zipIdx_iff_getElem?.2 paired,
          mem_openedBelow_both_iff.2 ⟨child, joined, inside⟩⟩

/-- A name is listed for two values when both are objects and one of them has a key of the name, or
when it is listed one step inside both. -/
theorem mem_openedKeys_iff_step {reference candidate : Value} (distinct : reference.DistinctKeys)
    {name : String} :
    name ∈ openedKeys policy path reference candidate ↔
      policy.excludes path = false ∧
        ((∃ references candidates, reference = .object references ∧
            candidate = .object candidates ∧
            ∃ entry ∈ references ++ candidates, entry.1.name = name) ∨
          ListedInside policy path reference candidate name) := by
  cases shown : policy.excludes path with
  | true => simp [openedKeys_of_excluded shown]
  | false =>
    by_cases alike : reference.SameContainer candidate
    · cases reference, candidate using Value.casesPair with
      | objects references candidates => simp [mem_openedKeys_object_iff shown distinct]
      | arrays references candidates => simp [mem_openedKeys_array_iff shown]
      | scalars left right scalar scalarToo =>
        exact absurd (by simpa [Value.isScalar] using scalar) alike.2
      | shapes left right different => exact absurd alike.1 different
    · rw [openedKeys_of_not_sameContainer alike]
      refine iff_of_false List.not_mem_nil ?_
      rintro ⟨-, ⟨_, _, rfl, rfl, _⟩ | ⟨step, value, other, child, there, thereToo, _⟩⟩
      · exact alike ⟨rfl, by simp [Value.shape]⟩
      · exact alike (Policy.sameContainer_of_child? there thereToo)

/-- What is listed is what can be opened: the names of the keys of objects at positions on the way
to which nothing is left out. By induction on the reference one way and on the position the
other. -/
theorem mem_openedKeys_iff {reference candidate : Value} (wellFormed : reference.WellFormed)
    {name : String} :
    name ∈ openedKeys policy path reference candidate ↔
      ∃ position references candidates,
        policy.Opens path reference candidate position references candidates ∧
          ∃ entry ∈ references ++ candidates, entry.1.name = name := by
  constructor
  · intro member
    induction size : sizeOf reference using Nat.strongRecOn
      generalizing path reference candidate with
    | ind _ ih =>
      subst size
      obtain ⟨shown, ⟨references, candidates, rfl, rfl, named⟩ |
        ⟨step, value, other, child, there, thereToo, joined, inside⟩⟩ :=
        (mem_openedKeys_iff_step wellFormed.distinctKeys).1 member
      · exact ⟨[], references, candidates, Policy.opens_nil_iff.2 ⟨shown, rfl, rfl⟩, named⟩
      · have part := Policy.mem_parts_of_child? there
        obtain ⟨rest, references, candidates, opens, named⟩ :=
          ih _ (Value.sizeOf_lt_of_mem_parts part) (wellFormed.of_mem_parts part) inside rfl
        exact ⟨step :: rest, references, candidates, Policy.opens_cons_iff.2
          ⟨shown, value, other, child, there, thereToo, joined, opens⟩, named⟩
  · rintro ⟨position, references, candidates, opens, named⟩
    induction position generalizing path reference candidate with
    | nil =>
      obtain ⟨shown, rfl, rfl⟩ := Policy.opens_nil_iff.1 opens
      exact (mem_openedKeys_iff_step wellFormed.distinctKeys).2
        ⟨shown, .inl ⟨references, candidates, rfl, rfl, named⟩⟩
    | cons step rest ih =>
      obtain ⟨shown, value, other, child, there, thereToo, joined, opens⟩ :=
        Policy.opens_cons_iff.1 opens
      have inside := ih (wellFormed.of_mem_parts (Policy.mem_parts_of_child? there)) opens
      exact (mem_openedKeys_iff_step wellFormed.distinctKeys).2
        ⟨shown, .inr ⟨step, value, other, child, there, thereToo, joined, inside⟩⟩

end Listing

/-- The failure with which a key that cannot be a step ends a comparison. -/
def keyFailure? (name : String) : Option ComparisonError :=
  match Segment.read name with
  | .ok _ => none
  | .error fault => some (.invalidStep (.segment name fault))

/-- When each trace fails with the first of its names that is no step, so does the sequence of the
traces with the first of all the names. -/
theorem failure_sequence_eq_findSome? {α : Type} {items : List α} {trace : α → Trace}
    {names : α → List String}
    (each : ∀ item ∈ items, (trace item).failure = (names item).findSome? keyFailure?) :
    (Trace.sequence (items.map trace)).failure = (items.flatMap names).findSome? keyFailure? := by
  induction items with
  | nil => rfl
  | cons item items ih =>
    have later := ih fun other member => each other (List.mem_cons_of_mem _ member)
    rw [List.map_cons, Trace.sequence_cons, List.flatMap_cons, List.findSome?_append,
      ← each item List.mem_cons_self, ← later]
    cases failure : (trace item).failure with
    | none => rw [Trace.append_of_complete failure, Option.none_or]
    | some error => rw [Trace.append_of_failed failure, failure, Option.some_or]

variable {policy : Policy} {reference candidate : Value}

/-- A visit fails when the step of the pairing is no segment, or else as the comparison of its
values does. -/
theorem failure_visit {path : Path} {pairing : Pairing}
    (inside : ∀ {step left right child}, pairing = .both step left right →
      path.join step = .ok child → (walk policy child left right).failure =
        (openedKeys policy child left right).findSome? keyFailure?) :
    (visit policy path pairing).failure =
      (pairing.step :: openedBelow policy path pairing).findSome? keyFailure? := by
  cases read : Segment.read pairing.step with
  | error fault =>
    have noSegment : path.join pairing.step = .error (.segment pairing.step fault) := by
      rw [Path.join, read]
    rw [visit_of_error noSegment, List.findSome?_cons, keyFailure?, read]
    rfl
  | ok segment =>
    have joined : path.join pairing.step = .ok ⟨path.segments ++ [segment]⟩ :=
      Path.join_eq_ok_iff.2 ⟨segment, read, rfl⟩
    have isStep : keyFailure? pairing.step = none := by rw [keyFailure?, read]
    rw [List.findSome?_cons, isStep]
    cases pairing with
    | missing step value =>
      rw [visit_missing joined, failure_oneSided]
      rfl
    | extra step value =>
      rw [visit_extra joined, failure_oneSided]
      rfl
    | both step left right =>
      have below : openedBelow policy path (.both step left right) =
          openedKeys policy ⟨path.segments ++ [segment]⟩ left right := by
        have joined : path.join step = .ok ⟨path.segments ++ [segment]⟩ := joined
        rw [openedBelow, listBelow, joined]
      rw [visit_both joined, below]
      exact inside rfl joined

/-- Where items are paired by position, the walk fails with the first listed name that is no
step. -/
theorem failure_walk (noKeys : policy.matchByKey = []) (noValues : policy.matchByValue = [])
    (path : Path) (reference candidate : Value) :
    (walk policy path reference candidate).failure =
      (openedKeys policy path reference candidate).findSome? keyFailure? := by
  induction path, reference, candidate using walk_induction policy with
  | visited path reference candidate ih =>
    cases shown : policy.excludes path with
    | true =>
      rw [walk_of_excluded shown, openedKeys_of_excluded shown]
      rfl
    | false =>
      cases reference, candidate using Value.casesPair with
      | objects references candidates =>
        have planned : plan policy path (.object references) (.object candidates) =
            .descend (Pairing.ofEntries (policy.entries references) (policy.entries candidates)) :=
          rfl
        rw [walk_of_descend shown planned, openedKeys_object shown]
        refine failure_sequence_eq_findSome? fun pairing member => failure_visit ?_
        rintro step left right child rfl joined
        exact ih planned member joined
      | arrays references candidates =>
        have planned := Policy.plan_array_of_noRules noKeys noValues path references candidates
        rw [walk_of_descend shown planned, openedKeys_array shown,
          ← flatMap_openedBelow_byPositionFrom]
        refine failure_sequence_eq_findSome? fun pairing member => ?_
        -- A position can always be a step, so that only what is below it can be at fault.
        obtain ⟨place, number⟩ := Pairing.exists_position_of_mem_byPositionFrom member
        have isStep : keyFailure? pairing.step = none := by
          rw [keyFailure?, number, Pairing.read_positionStep]
        rw [failure_visit, List.findSome?_cons, isStep]
        rintro step left right child rfl joined
        exact ih planned member joined
      | scalars left right scalar scalarToo =>
        have planned := plan_of_scalars policy path scalar scalarToo
        rw [walk_of_compareScalars shown planned, failure_compareScalars,
          openedKeys_of_not_sameContainer fun alike => alike.2 (by simpa [Value.isScalar] using scalar)]
        rfl
      | shapes left right different =>
        have planned := plan_of_shape_ne policy path different
        rw [walk_of_differInShape shown planned,
          openedKeys_of_not_sameContainer fun alike => different alike.1]
        rfl

/-- A name is at fault with a failure when it cannot be a step. -/
theorem keyFailure?_eq_some_iff {name : String} {error : ComparisonError} :
    keyFailure? name = some error ↔
      ∃ fault, Segment.read name = .error fault ∧ error = .invalidStep (.segment name fault) := by
  unfold keyFailure?
  cases Segment.read name <;> simp [eq_comm]

/-- Where items are paired by position and there is no limit, a comparison fails exactly when it
opens two objects of which one has a key that cannot be a step. The failure names such a key:
the first one in the order of the walk. -/
theorem perform_fails_iff_opens_invalidKey (noKeys : policy.matchByKey = [])
    (noValues : policy.matchByValue = []) (unlimited : policy.cutoff = none)
    (wellFormed : reference.WellFormed) :
    ((∃ error, perform policy reference candidate = .error error) ↔
      ∃ position references candidates,
        policy.Opens .root reference candidate position references candidates ∧
          ∃ entry ∈ references ++ candidates, ∃ fault, Segment.read entry.1.name = .error fault) ∧
    ∀ error, perform policy reference candidate = .error error →
      ∃ before name after fault,
        openedKeys policy .root reference candidate = before ++ name :: after ∧
        (∀ earlier ∈ before, ∃ segment, Segment.read earlier = .ok segment) ∧
        Segment.read name = .error fault ∧ error = .invalidStep (.segment name fault) := by
  simp only [perform_eq_error_iff unlimited, failure_walk noKeys noValues]
  constructor
  · constructor
    · rintro ⟨error, failed⟩
      obtain ⟨name, listed, failedHere⟩ := List.exists_of_findSome?_eq_some failed
      obtain ⟨fault, invalid, -⟩ := keyFailure?_eq_some_iff.1 failedHere
      obtain ⟨position, references, candidates, opens, entry, member, rfl⟩ :=
        (mem_openedKeys_iff wellFormed).1 listed
      exact ⟨position, references, candidates, opens, entry, member, fault, invalid⟩
    · rintro ⟨position, references, candidates, opens, entry, member, fault, invalid⟩
      have listed := (mem_openedKeys_iff wellFormed).2
        ⟨position, references, candidates, opens, entry, member, rfl⟩
      refine Option.isSome_iff_exists.1 (List.findSome?_isSome_iff.2 ⟨_, listed, ?_⟩)
      rw [keyFailure?_eq_some_iff.2 ⟨fault, invalid, rfl⟩]
      rfl
  · intro error failed
    obtain ⟨before, name, after, split, failedHere, clear⟩ := List.findSome?_eq_some_iff.1 failed
    obtain ⟨fault, invalid, same⟩ := keyFailure?_eq_some_iff.1 failedHere
    refine ⟨before, name, after, fault, split, fun earlier member => ?_, invalid, same⟩
    cases read : Segment.read earlier with
    | ok segment => exact ⟨segment, rfl⟩
    | error other =>
      have atFault := keyFailure?_eq_some_iff.2 ⟨other, read, rfl⟩
      rw [clear earlier member] at atFault
      cases atFault

/-- What is under the key `skip` is left out. -/
def withoutSkip : Policy :=
  { Policy.default with rejectPaths := [⟨[.plain "skip"]⟩] }

/-- Keys that cannot be steps: below a key that is left out, below another key and at the root. -/
def spacedKeys : Value :=
  .object [(.text "skip", .object [(.text "u v", .null)]),
    (.text "a", .object [(.text "b c", .null)]), (.text "x y", .null)]

/-- The keys of the root in another order, and nothing below them. -/
def spacedKey : Value :=
  .object [(.text "x y", .null), (.text "a", .object []), (.text "skip", .object [])]

/-- What is left out is not opened, and of the keys that cannot be steps elsewhere the one below
the key `a` is come to before the one at the root: it is the one that is named. -/
theorem perform_fails_iff_opens_invalidKey_below :
    perform withoutSkip spacedKeys spacedKey =
      .error (.invalidStep (.segment "b c" .innerBlank)) := by
  have wellFormed : spacedKeys.WellFormed := by
    simp [spacedKeys, Value.WellFormed, Value.WellFormedEntries, Entries.keys]
  obtain ⟨fails, names⟩ :=
    @perform_fails_iff_opens_invalidKey withoutSkip spacedKeys spacedKey rfl rfl rfl wellFormed
  have opens : withoutSkip.Opens .root spacedKeys spacedKey [.entry (.text "a")]
      [(.text "b c", .null)] [] :=
    Policy.opens_cons_iff.2 ⟨by cbv, .object [(.text "b c", .null)], .object [], ⟨[.plain "a"]⟩,
      by cbv, by cbv, by cbv, Policy.opens_nil_iff.2 ⟨by cbv, rfl, rfl⟩⟩
  have spaced : Segment.read "b c" = .error .innerBlank := by cbv
  have listed : openedKeys withoutSkip .root spacedKeys spacedKey =
      ["skip", "a", "b c", "x y"] := by cbv
  obtain ⟨error, failed⟩ := fails.2 ⟨_, _, _, opens, _, List.mem_cons_self, .innerBlank, spaced⟩
  obtain ⟨before, name, after, fault, split, clear, invalid, rfl⟩ := names error failed
  rw [listed] at split
  rcases before with _ | ⟨first, _ | ⟨second, _ | ⟨third, before⟩⟩⟩
  · cases split
    have isStep : Segment.read "skip" = .ok (.plain "skip") := by cbv
    cases isStep.symm.trans invalid
  · cases split
    have isStep : Segment.read "a" = .ok (.plain "a") := by cbv
    cases isStep.symm.trans invalid
  · cases split
    cases spaced.symm.trans invalid
    exact failed
  · obtain ⟨rfl, rfl, rfl, -⟩ : "skip" = first ∧ "a" = second ∧ "b c" = third ∧ _ := by
      simpa using split
    obtain ⟨segment, isStep⟩ := clear "b c" (by simp)
    cases spaced.symm.trans isStep

end Comparison

end StructuralDiff
