/-!
# Ordered entries

Entries of a map in the order in which their keys first came. Setting a key that
is there replaces its value and keeps its place.
-/

namespace StructuralDiff

/-- Keys with values, in order of first arrival. -/
abbrev Entries (κ α : Type) := List (κ × α)

namespace Entries

variable {κ α : Type} [DecidableEq κ]

/-- Set the value of a key: in its place when the key is there, else at the end. -/
def set (key : κ) (value : α) : Entries κ α → Entries κ α
  | [] => [(key, value)]
  | (other, old) :: rest =>
    if other = key then (other, value) :: rest else (other, old) :: set key value rest

/-- The entries that setting pairs one after another leaves. -/
def ofPairs (pairs : List (κ × α)) : Entries κ α :=
  pairs.foldl (fun entries pair => entries.set pair.1 pair.2) []

/-- The value of a key. -/
def find? (key : κ) : Entries κ α → Option α
  | [] => none
  | (other, value) :: rest => if other = key then some value else find? key rest

/-- A key is there. -/
def has (key : κ) (entries : Entries κ α) : Bool :=
  (entries.find? key).isSome

/-- The keys, in order. -/
def keys (entries : Entries κ α) : List κ :=
  entries.map Prod.fst

/-- A value that is set is found, and every other key keeps what it had. -/
theorem find?_set (entries : Entries κ α) (key other : κ) (value : α) :
    (entries.set key value).find? other = if key = other then some value else entries.find? other := by
  induction entries with
  | nil => simp [set, find?]
  | cons entry rest ih =>
    obtain ⟨first, old⟩ := entry
    by_cases same : first = key
    · subst same
      by_cases equal : first = other <;> simp [set, find?, equal]
    · by_cases equal : key = other
      · subst equal
        simp [set, find?, same, ih]
      · simp [set, find?, same, ih, equal]

/-- Setting a key changes no place: the key is appended only when it is new. -/
theorem keys_set (entries : Entries κ α) (key : κ) (value : α) :
    (entries.set key value).keys =
      if key ∈ entries.keys then entries.keys else entries.keys ++ [key] := by
  induction entries with
  | nil => simp [set, keys]
  | cons entry rest ih =>
    obtain ⟨first, old⟩ := entry
    by_cases same : first = key
    · subst same
      simp [set, keys]
    · have distinct : ¬ key = first := fun equal => same equal.symm
      simp only [keys] at ih
      by_cases known : key ∈ rest.map Prod.fst <;> simp_all [set, keys]

/-- Setting keeps the keys distinct. -/
theorem nodup_keys_set {entries : Entries κ α} (distinct : entries.keys.Nodup) (key : κ) (value : α) :
    (entries.set key value).keys.Nodup := by
  rw [keys_set]
  split
  · exact distinct
  · rename_i fresh
    grind [List.nodup_append]

/-- Setting pairs one after another leaves distinct keys. -/
theorem nodup_keys_ofPairs (pairs : List (κ × α)) : (ofPairs pairs).keys.Nodup := by
  have onward : ∀ known : Entries κ α, known.keys.Nodup →
      (keys (pairs.foldl (fun entries pair => entries.set pair.1 pair.2) known)).Nodup := by
    induction pairs with
    | nil => exact fun known distinct => distinct
    | cons pair pairs ih => exact fun known distinct => ih _ (nodup_keys_set distinct _ _)
  exact onward [] (by simp [keys])

/-- A key that is not there is set at the end. -/
theorem set_of_notMem {entries : Entries κ α} {key : κ} (fresh : key ∉ entries.keys) (value : α) :
    entries.set key value = entries ++ [(key, value)] := by
  induction entries with
  | nil => rfl
  | cons entry entries ih =>
    have different : entry.1 ≠ key := by
      rintro rfl
      exact fresh List.mem_cons_self
    rw [set, if_neg different, ih fun later => fresh (List.mem_cons_of_mem _ later)]
    rfl

/-- Setting pairs with distinct keys one after another leaves the pairs. -/
theorem ofPairs_of_nodup {pairs : Entries κ α} (distinct : pairs.keys.Nodup) :
    ofPairs pairs = pairs := by
  have onward : ∀ known : Entries κ α, (keys (known ++ pairs)).Nodup →
      pairs.foldl (fun entries pair => entries.set pair.1 pair.2) known = known ++ pairs := by
    clear distinct
    induction pairs with
    | nil => simp
    | cons pair pairs ih =>
      intro known distinct
      have fresh : pair.1 ∉ known.keys := by
        simp only [keys, List.map_append, List.map_cons] at distinct
        exact fun there => (List.nodup_append.1 distinct).2.2 _ there _ List.mem_cons_self rfl
      rw [List.foldl_cons, set_of_notMem fresh, ih _ (by simpa using distinct)]
      simp
  exact onward [] distinct

/-- After setting a key, each entry is an old one or holds the new value. -/
theorem mem_of_mem_set {entries : Entries κ α} {key : κ} {value : α} {entry : κ × α}
    (member : entry ∈ entries.set key value) : entry ∈ entries ∨ entry = (key, value) := by
  induction entries with
  | nil => simpa [set] using member
  | cons first rest ih =>
    obtain ⟨other, old⟩ := first
    unfold set at member
    grind

/-- Setting pairs one after another adds only pairs that were set. -/
theorem mem_of_mem_foldl_set {pairs : List (κ × α)} {known : Entries κ α} {entry : κ × α}
    (member : entry ∈ pairs.foldl (fun entries pair => entries.set pair.1 pair.2) known) :
    entry ∈ known ∨ entry ∈ pairs := by
  induction pairs generalizing known with
  | nil => exact .inl member
  | cons pair pairs ih =>
    rcases ih member with old | new
    · rcases mem_of_mem_set old with older | rfl
      · exact .inl older
      · exact .inr (List.mem_cons_self ..)
    · exact .inr (List.mem_cons_of_mem _ new)

/-- Setting pairs one after another leaves only pairs that were set. -/
theorem mem_of_mem_ofPairs {pairs : List (κ × α)} {entry : κ × α} (member : entry ∈ ofPairs pairs) :
    entry ∈ pairs := by
  simpa using mem_of_mem_foldl_set member

/-- What is found under a key is an entry. -/
theorem mem_of_find? {entries : Entries κ α} {key : κ} {value : α}
    (found : entries.find? key = some value) : (key, value) ∈ entries := by
  induction entries with
  | nil => cases found
  | cons entry entries ih =>
    obtain ⟨other, old⟩ := entry
    unfold find? at found
    split at found
    · rename_i same
      cases same
      cases found
      exact List.mem_cons_self
    · exact List.mem_cons_of_mem _ (ih found)

omit [DecidableEq κ] in
/-- The key of an entry is one of the keys. -/
theorem mem_keys_of_mem {entries : Entries κ α} {key : κ} {value : α}
    (member : (key, value) ∈ entries) : key ∈ entries.keys :=
  List.mem_map_of_mem member

/-- Where keys are distinct, every entry is found under its key. -/
theorem find?_of_mem {entries : Entries κ α} (distinct : entries.keys.Nodup) {key : κ} {value : α}
    (member : (key, value) ∈ entries) : entries.find? key = some value := by
  induction entries with
  | nil => cases member
  | cons entry entries ih =>
    obtain ⟨other, old⟩ := entry
    obtain ⟨fresh, distinct⟩ := List.nodup_cons.1 distinct
    rcases List.mem_cons.1 member with same | later
    · cases same
      simp [find?]
    · have known : key ∈ entries.map Prod.fst := mem_keys_of_mem later
      have different : other ≠ key := by
        rintro rfl
        exact fresh known
      simp [find?, different, ih distinct later]

/-- Nothing is found under a key when it is none of the keys. -/
theorem find?_eq_none_iff {entries : Entries κ α} {key : κ} :
    entries.find? key = none ↔ key ∉ entries.keys := by
  unfold keys
  induction entries with
  | nil => simp [find?]
  | cons entry entries ih =>
    obtain ⟨other, old⟩ := entry
    by_cases same : other = key
    · simp [find?, same]
    · have different : ¬ key = other := fun equal => same equal.symm
      simp [find?, same, different, ih]

/-- A key is there when it is one of the keys. -/
theorem mem_keys_iff_has {entries : Entries κ α} {key : κ} :
    key ∈ entries.keys ↔ entries.has key = true := by
  have absent : entries.find? key = none ↔ key ∉ entries.keys := find?_eq_none_iff
  unfold has
  cases found : entries.find? key <;> simp_all

end Entries

end StructuralDiff
