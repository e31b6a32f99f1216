/-!
# Dictionaries

A dictionary is a list of keys with values in which each key occurs once and
the keys stand in the order of their code points. Inserting under a known key
replaces the value there (`lookup_insert_self`), and no other key is touched
(`lookup_insert_of_ne`). However it was filled, the keys stand in order
(`pairwise_keys_ofList`), and pairs with different keys are all there
(`lookup_ofList_of_mem`).
-/

set_option autoImplicit false

namespace FormulaStepper.Dictionary

variable {α : Type}

/-- The dictionary with a value put under a key. -/
def insert (key : String) (value : α) : List (String × α) → List (String × α)
  | [] => [(key, value)]
  | (other, held) :: rest =>
    if key < other then (key, value) :: (other, held) :: rest
    else if key = other then (key, value) :: rest
    else (other, held) :: insert key value rest

/-- The dictionary of pairs inserted in order. -/
def ofList (pairs : List (String × α)) : List (String × α) :=
  pairs.foldl (fun entries pair => insert pair.1 pair.2 entries) []

/-- Looking up the key just inserted finds its value. -/
theorem lookup_insert_self (key : String) (value : α) (entries : List (String × α)) :
    (insert key value entries).lookup key = some value := by
  induction entries with
  | nil => simp [insert]
  | cons entry rest ih =>
    obtain ⟨name, held⟩ := entry
    simp only [insert]
    split
    · simp
    · split
      · simp
      · next different =>
        have unequal : (key == name) = false := by simpa using different
        simp [List.lookup_cons, unequal, ih]

/-- Looking up another key finds what was there before. -/
theorem lookup_insert_of_ne {key other : String} (different : other ≠ key) (value : α)
    (entries : List (String × α)) :
    (insert key value entries).lookup other = entries.lookup other := by
  have unequal : (other == key) = false := by simpa using different
  induction entries with
  | nil => simp [insert, List.lookup_cons, unequal]
  | cons entry rest ih =>
    obtain ⟨name, held⟩ := entry
    simp only [insert]
    split
    · simp [List.lookup_cons, unequal]
    · split
      · next same =>
        cases same
        simp [List.lookup_cons, unequal]
      · simp only [List.lookup_cons, ih]

/-- The keys after an insertion are those from before and the new one. -/
theorem mem_keys_insert {key name : String} {value : α} {entries : List (String × α)} :
    name ∈ (insert key value entries).map Prod.fst ↔ name = key ∨ name ∈ entries.map Prod.fst := by
  induction entries with
  | nil => simp [insert]
  | cons entry rest ih =>
    obtain ⟨other, held⟩ := entry
    simp only [insert]
    split
    · simp
    · split
      · next same => simp [same]
      · simp only [List.map_cons, List.mem_cons, ih]
        exact or_left_comm

/-- The order of code points is total. -/
theorem lt_of_not_lt_of_ne {key other : String} (notLess : ¬key < other) (different : key ≠ other) :
    other < key := by
  refine Decidable.byContradiction fun notGreater => different ?_
  exact String.le_antisymm (String.not_lt.mp notGreater) (String.not_lt.mp notLess)

/-- Insertion keeps the keys in order, each once. -/
theorem pairwise_keys_insert (key : String) (value : α) {entries : List (String × α)}
    (ordered : (entries.map Prod.fst).Pairwise (· < ·)) :
    ((insert key value entries).map Prod.fst).Pairwise (· < ·) := by
  induction entries with
  | nil => simp [insert]
  | cons entry rest ih =>
    obtain ⟨other, held⟩ := entry
    obtain ⟨least, after⟩ := List.pairwise_cons.mp ordered
    simp only [insert]
    split
    · next less =>
      refine List.pairwise_cons.mpr ⟨fun name found => ?_, ordered⟩
      rcases List.mem_cons.mp found with rfl | found
      · exact less
      · exact String.lt_trans less (least name found)
    · next notLess =>
      split
      · next same =>
        subst same
        exact ordered
      · next different =>
        refine List.pairwise_cons.mpr ⟨fun name found => ?_, ih after⟩
        rcases mem_keys_insert.mp found with rfl | found
        · exact lt_of_not_lt_of_ne notLess different
        · exact least name found

/-- The keys of a dictionary stand in order, each once. -/
theorem pairwise_keys_ofList (pairs : List (String × α)) :
    ((ofList pairs).map Prod.fst).Pairwise (· < ·) := by
  unfold ofList
  suffices kept : ∀ entries : List (String × α), (entries.map Prod.fst).Pairwise (· < ·) →
      ((pairs.foldl (fun entries pair => insert pair.1 pair.2 entries) entries).map
        Prod.fst).Pairwise (· < ·) from kept [] List.Pairwise.nil
  induction pairs with
  | nil => exact fun entries ordered => ordered
  | cons pair pairs ih =>
    exact fun entries ordered => ih _ (pairwise_keys_insert pair.1 pair.2 ordered)

section Filling

variable {key : String} {value : α} {pairs entries : List (String × α)}

/-- Filling a dictionary leaves alone what stands under other keys. -/
theorem lookup_foldl_insert_of_not_mem (absent : key ∉ pairs.map Prod.fst) :
    (pairs.foldl (fun entries pair => insert pair.1 pair.2 entries) entries).lookup key =
      entries.lookup key := by
  induction pairs generalizing entries with
  | nil => rfl
  | cons pair pairs ih =>
    obtain ⟨different, absent⟩ := List.ne_and_not_mem_of_not_mem_cons absent
    rw [List.foldl_cons, ih absent, lookup_insert_of_ne different]

theorem lookup_foldl_insert_of_mem (distinct : (pairs.map Prod.fst).Nodup)
    (member : (key, value) ∈ pairs) :
    (pairs.foldl (fun entries pair => insert pair.1 pair.2 entries) entries).lookup key =
      some value := by
  induction pairs generalizing entries with
  | nil => cases member
  | cons pair pairs ih =>
    obtain ⟨absent, distinct⟩ := List.nodup_cons.mp distinct
    rcases List.mem_cons.mp member with rfl | member
    · rw [List.foldl_cons, lookup_foldl_insert_of_not_mem absent, lookup_insert_self]
    · exact ih distinct member

/-- A dictionary of pairs holds each of them, if no two have the same key. -/
theorem lookup_ofList_of_mem (distinct : (pairs.map Prod.fst).Nodup)
    (member : (key, value) ∈ pairs) : (ofList pairs).lookup key = some value :=
  lookup_foldl_insert_of_mem distinct member

end Filling

end FormulaStepper.Dictionary
