import FormulaStepper.Json.Draft
import FormulaStepper.Proofs.Json.Tokens

/-!
# Written JSON is read back

The reader of drafts that meets the tokens of a value has the draft of that
value after them, whatever arrays and objects it is inside of
(`Draft.foldl_read_spelled`). So the draft of a written text is that of the
value (`ofTokens_tokens_write`), and the value of that draft is the value again, if no
more arrays and objects are nested than the reader follows
(`Draft.toJson?_ofJson`).

A dictionary keeps its members in the order of their names, each name once. So
the values that can be read back are those in which every object does
(`IsSorted`), like any value that was read.
-/

set_option autoImplicit false

namespace FormulaStepper.Json

mutual

/-- A value in which the members of every object stand in the order of their
names, each name once. -/
def IsSorted : Json → Prop
  | .null | .bool _ | .number _ | .string _ => True
  | .array items => ItemsAreSorted items
  | .object members => (members.map Prod.fst).Pairwise (· < ·) ∧ MembersAreSorted members

/-- Items that are sorted. -/
def ItemsAreSorted : List Json → Prop
  | [] => True
  | item :: items => IsSorted item ∧ ItemsAreSorted items

/-- Members whose values are sorted. -/
def MembersAreSorted : List (String × Json) → Prop
  | [] => True
  | (_, value) :: members => IsSorted value ∧ MembersAreSorted members

end

mutual

/-- The greatest number of arrays and objects that lie in one another. -/
def depth : Json → Nat
  | .null | .bool _ | .number _ | .string _ => 0
  | .array items => 1 + depthOfItems items
  | .object members => 1 + depthOfMembers members

/-- The greatest depth of items. -/
def depthOfItems : List Json → Nat
  | [] => 0
  | item :: items => max (depth item) (depthOfItems items)

/-- The greatest depth of the values of members. -/
def depthOfMembers : List (String × Json) → Nat
  | [] => 0
  | (_, value) :: members => max (depth value) (depthOfMembers members)

end

namespace Draft

/-! ## From tokens to drafts -/

/-- A reader that can go on with a value. -/
def Need.AdmitsValue (need : Need) : Prop :=
  need = .value ∨ need = .itemOrEnd

/-- A reader that can go on with the name of a member. -/
def Need.AdmitsName (need : Need) : Prop :=
  need = .name ∨ need = .nameOrEnd

/-- After a name and a colon the reader is at the value of a member. -/
theorem foldl_read_name {need : Need} (admits : need.AdmitsName) (name : String)
    (members : List (Option String × Draft)) (stack : List Container) (rest : List Token) :
    (.string (some name.toList) :: .colon :: rest).foldl Reader.read
        (.inside need (.object members :: stack)) =
      rest.foldl Reader.read (.inside .value (.member members (some name) :: stack)) := by
  have same : (some name.toList).map String.ofList = some name :=
    congrArg some String.ofList_toList
  have named : (Reader.inside need (.object members :: stack)).read (.string (some name.toList)) =
      .inside .colon (.member members (some name) :: stack) := by
    rw [← same]
    rcases admits with rfl | rfl <;> rfl
  rw [List.foldl_cons, named]
  rfl

mutual

/-- **The tokens of a value make its draft**, inside of whatever is open. -/
theorem foldl_read_spelled : ∀ (json : Json) {need : Need}, need.AdmitsValue →
    ∀ stack : List Container,
      (spelled json).foldl Reader.read (.inside need stack) = .afterValue (ofJson json) stack
  | .null, _, admits, stack => by rcases admits with rfl | rfl <;> rfl
  | .bool holds, _, admits, stack => by rcases admits with rfl | rfl <;> rfl
  | .number n, _, admits, stack => by rcases admits with rfl | rfl <;> rfl
  | .string text, _, admits, stack => by
    have same : ofJson (.string text) = .string ((some text.toList).map String.ofList) :=
      congrArg (Draft.string ∘ some) String.ofList_toList.symm
    rw [same]
    rcases admits with rfl | rfl <;> rfl
  | .array [], _, admits, stack => by rcases admits with rfl | rfl <;> rfl
  | .array (item :: items), need, admits, stack => by
    have opened : (Reader.inside need stack).read .openBracket =
        .inside .itemOrEnd (.array [] :: stack) := by
      rcases admits with rfl | rfl <;> rfl
    rw [spelled, List.foldl_cons, opened, List.foldl_append, foldl_read_spelled item (.inr rfl)]
    exact foldl_read_spelledItems items [ofJson item] stack
  | .object [], _, admits, stack => by rcases admits with rfl | rfl <;> rfl
  | .object ((name, value) :: members), need, admits, stack => by
    have opened : (Reader.inside need stack).read .openBrace =
        .inside .nameOrEnd (.object [] :: stack) := by
      rcases admits with rfl | rfl <;> rfl
    rw [spelled, List.foldl_cons, opened, foldl_read_name (.inr rfl), List.foldl_append,
      foldl_read_spelled value (.inl rfl)]
    exact foldl_read_spelledMembers members [(some name, ofJson value)] stack

/-- The tokens after the first items make the rest of an array. -/
theorem foldl_read_spelledItems : ∀ (items : List Json) (before : List Draft)
    (stack : List Container),
      (spelledItems items).foldl Reader.read (.inside .more (.array before :: stack)) =
        .afterValue (.array (before ++ ofItems items) true) stack
  | [], before, stack => by
    rw [ofItems, List.append_nil]
    rfl
  | item :: items, before, stack => by
    have going_on : (Reader.inside .more (.array before :: stack)).read .comma =
        .inside .value (.array before :: stack) := rfl
    rw [spelledItems, List.foldl_cons, going_on, List.foldl_append,
      foldl_read_spelled item (.inl rfl), ofItems, List.append_cons]
    exact foldl_read_spelledItems items (before ++ [ofJson item]) stack

/-- The tokens after the first members make the rest of an object. -/
theorem foldl_read_spelledMembers : ∀ (members : List (String × Json))
    (before : List (Option String × Draft)) (stack : List Container),
      (spelledMembers members).foldl Reader.read (.inside .more (.object before :: stack)) =
        .afterValue (.object (before ++ ofMembers members) true) stack
  | [], before, stack => by
    rw [ofMembers, List.append_nil]
    rfl
  | (name, value) :: members, before, stack => by
    have going_on : (Reader.inside .more (.object before :: stack)).read .comma =
        .inside .name (.object before :: stack) := rfl
    rw [spelledMembers, List.foldl_cons, going_on, foldl_read_name (.inl rfl), List.foldl_append,
      foldl_read_spelled value (.inl rfl), ofMembers, List.append_cons]
    exact foldl_read_spelledMembers members (before ++ [(some name, ofJson value)]) stack

end

/-! ## From drafts to values -/

/-- A member whose name comes after all others is put at the end. -/
theorem insert_eq_append {name : String} {before : List (String × Json)}
    (last : ∀ key ∈ before.map Prod.fst, key < name) (value : Json) :
    Dictionary.insert name value before = before ++ [(name, value)] := by
  induction before with
  | nil => rfl
  | cons entry rest ih =>
    obtain ⟨key, held⟩ := entry
    rw [List.map_cons, List.forall_mem_cons] at last
    have not_before : ¬name < key := fun before => String.lt_irrefl name (String.lt_trans before last.1)
    have different : name ≠ key := fun same => String.lt_irrefl key (same ▸ last.1)
    rw [Dictionary.insert, if_neg not_before, if_neg different, ih last.2, List.cons_append]

mutual

/-- **The value of the draft of a value is that value**, if there is room for
the arrays and objects in it. -/
theorem toJson?_ofJson : ∀ {json : Json}, IsSorted json → ∀ {room : Nat},
    depth json ≤ room → toJson? room (ofJson json) = some json
  | .null, _, _, _ => rfl
  | .bool holds, _, _, _ => rfl
  | .number n, _, _, _ => rfl
  | .string text, _, _, _ => rfl
  | .array items, sorted, room, fits => by
    rw [depth] at fits
    have positive : 0 < room := by omega
    have inside : depthOfItems items ≤ room - 1 := by omega
    rw [ofJson, toJson?, if_pos ⟨rfl, positive⟩, itemsToJson?_ofItems sorted inside]
    rfl
  | .object members, ⟨ordered, sorted⟩, room, fits => by
    rw [depth] at fits
    have positive : 0 < room := by omega
    have inside : depthOfMembers members ≤ room - 1 := by omega
    rw [ofJson, toJson?, if_pos ⟨rfl, positive⟩,
      membersToJson?_ofMembers sorted inside [] (by simpa using ordered)]
    rfl

/-- The values of the drafts of items are those items. -/
theorem itemsToJson?_ofItems : ∀ {items : List Json}, ItemsAreSorted items → ∀ {room : Nat},
    depthOfItems items ≤ room → itemsToJson? room (ofItems items) = some items
  | [], _, _, _ => rfl
  | item :: items, ⟨first, others⟩, room, fits => by
    rw [depthOfItems, Nat.max_le] at fits
    rw [ofItems, itemsToJson?, toJson?_ofJson first fits.1, itemsToJson?_ofItems others fits.2]
    rfl

/-- The members of drafts of members follow those before them, if the names
stay in order. -/
theorem membersToJson?_ofMembers : ∀ {members : List (String × Json)},
    MembersAreSorted members → ∀ {room : Nat}, depthOfMembers members ≤ room →
    ∀ before : List (String × Json), ((before ++ members).map Prod.fst).Pairwise (· < ·) →
      membersToJson? room (ofMembers members) before = some (before ++ members)
  | [], _, _, _, before, _ => by
    rw [List.append_nil]
    rfl
  | (name, value) :: members, ⟨first, others⟩, room, fits, before, ordered => by
    rw [depthOfMembers, Nat.max_le] at fits
    have last : ∀ key ∈ before.map Prod.fst, key < name := by
      rw [List.map_append, List.pairwise_append] at ordered
      exact fun key member => ordered.2.2 key member name List.mem_cons_self
    rw [List.append_cons] at ordered ⊢
    rw [ofMembers, membersToJson?, toJson?_ofJson first fits.1]
    change membersToJson? room (ofMembers members) (Dictionary.insert name value before) = _
    rw [insert_eq_append last]
    exact membersToJson?_ofMembers others fits.2 _ ordered

end

end Draft

/-! ## Whole texts -/

/-- **A written value is read back** up to its draft. -/
theorem ofTokens_tokens_write {json : Json} (exact_numbers : IsExact json) :
    Document.ofTokens (tokens (write json)) = ⟨.ofJson json, false⟩ := by
  have split : tokens (write json) = spelled json := by
    have read : tokens (write json ++ []) = spelled json ++ tokens [] :=
      tokens_write exact_numbers rfl
    rw [List.append_nil] at read
    rw [read, tokens, List.append_nil]
  rw [split, Document.ofTokens, Draft.foldl_read_spelled json (.inl rfl)]
  rfl

end FormulaStepper.Json
