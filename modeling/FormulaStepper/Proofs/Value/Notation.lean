import Mathlib
import FormulaStepper.Proofs.Grammar.Lexing
import FormulaStepper.Proofs.Text.Digits
import FormulaStepper.Value.Text

/-!
# The notation of values

The text of a value shows what the value is, if there are no decimals in it and no
quotes in its strings (`Plain`). Its first character tells the type of the value, and
the value can be read off in front of whatever may follow it in a list
(`Plain.distinct`): an integer ends before the first character that no integer has, a
string ends at its closing quote, and the items of a list are read one after another.
Quotes in strings are not marked, so with them the text of one string can be that of
two.
-/

set_option autoImplicit false

namespace FormulaStepper.Value

open Formula Text

/-- Values made of null, of integers that are admitted, of strings without a quote,
and of lists that lie in one another at most so deep. -/
inductive Plain (admitted : Int64 → Prop) : Nat → Value → Prop where
  | null {depth : Nat} : Plain admitted depth .null
  | int {depth : Nat} {n : Int64} (known : admitted n) : Plain admitted depth (.int n)
  | string {depth : Nat} {text : String} (no_quote : quote ∉ text.toList) :
      Plain admitted depth (.string text)
  | list {depth : Nat} {items : List Value} (all : ∀ item ∈ items, Plain admitted depth item) :
      Plain admitted (depth + 1) (.list items)

/-! ## Texts -/

section Texts

/-- The text of a list from behind its first item on. -/
def closing (items : List Value) : List Char :=
  items.flatMap (fun item => ',' :: ' ' :: item.debugText.toList) ++ [']']

theorem closing_cons (item : Value) (items : List Value) :
    closing (item :: items) = ',' :: ' ' :: (item.debugText.toList ++ closing items) := by
  simp only [closing, List.flatMap_cons, List.cons_append, List.append_assoc]

theorem eq_of_head_closing {items : List Value} {rest : List Char} {c : Char}
    (first : c ∈ (closing items ++ rest).head?) : c = ',' ∨ c = ']' := by
  cases items with
  | nil => exact .inr (Option.mem_some.mp first).symm
  | cons item items =>
    rw [closing_cons] at first
    exact .inl (Option.mem_some.mp first).symm

theorem toList_debugText_string (text : String) :
    (string text).debugText.toList = quote :: (text.toList ++ [quote]) := by
  rw [debugText, String.toList_append, String.toList_append]
  rfl

theorem toList_debugText_nil : (list []).debugText.toList = ['[', ']'] := by
  decide

theorem toList_debugText_cons (item : Value) (items : List Value) :
    (list (item :: items)).debugText.toList =
      '[' :: (item.debugText.toList ++ closing items) := by
  have joined (text : List Char) : [',', ' '].intercalate
      (text :: items.map fun item => item.debugText.toList) ++ [']'] = text ++ closing items := by
    induction items generalizing text with
    | nil => rw [List.map_nil, List.intercalate_singleton]; rfl
    | cons next items ih =>
      rw [List.map_cons, List.intercalate_cons_cons, closing_cons, List.append_assoc, ih]
      simp only [List.append_assoc, List.cons_append, List.nil_append]
  rw [debugText, debugTexts_eq_map, String.toList_append, String.toList_append,
    String.toList_intercalate, List.map_map, List.map_cons]
  exact congrArg ('[' :: ·) (joined item.debugText.toList)

end Texts

/-! ## What a text begins with -/

/-- The characters in the texts of integers. -/
def isNumeric (c : Char) : Bool :=
  c == '-' || c.isDigit

/-- The type of the values whose texts begin with a character. -/
def typeBeginning (c : Char) : Option ValueType :=
  if c = 'n' then some .null
  else if c = quote then some .string
  else if c = '[' then some .list
  else if isNumeric c then some .integer
  else none

theorem isNumeric_toString (n : Int) : ∀ c ∈ (toString n).toList, isNumeric c = true := by
  intro c member
  rw [toList_toString_int] at member
  rcases List.mem_append.mp member with sign | digit
  · split at sign
    · rw [List.mem_singleton.mp sign]; rfl
    · cases sign
  · rw [isNumeric, isDigit_of_mem_toDigits digit, Bool.or_true]

theorem typeBeginning_of_isNumeric {c : Char} (numeric : isNumeric c = true) :
    typeBeginning c = some .integer := by
  have other {mark : Char} (not_numeric : isNumeric mark = false) : c ≠ mark := by
    rintro rfl
    rw [numeric] at not_numeric
    cases not_numeric
  rw [typeBeginning, if_neg (other rfl), if_neg (other rfl), if_neg (other rfl), if_pos numeric]

section Decoding

variable {admitted : Int64 → Prop} {depth other_depth : Nat} {value other : Value}
  {rest other_rest : List Char}

/-- **The first character tells the type.** -/
theorem Plain.exists_beginning (plain : Plain admitted depth value) :
    ∃ c more, value.debugText.toList = c :: more ∧ typeBeginning c = some value.type := by
  cases plain with
  | null => exact ⟨'n', "ull()".toList, by decide, rfl⟩
  | @int depth n _ =>
    have all := isNumeric_toString n.toInt
    have some_digits : (toString n.toInt).toList ≠ [] := by
      rw [toList_toString_int]
      exact List.append_ne_nil_of_right_ne_nil _ Nat.toDigits_ne_nil
    obtain ⟨c, more, text⟩ := List.exists_cons_of_ne_nil some_digits
    rw [text] at all
    exact ⟨c, more, text, typeBeginning_of_isNumeric (all c List.mem_cons_self)⟩
  | string _ => exact ⟨quote, _, toList_debugText_string _, rfl⟩
  | @list depth items _ =>
    cases items with
    | nil => exact ⟨'[', [']'], toList_debugText_nil, rfl⟩
    | cons item items => exact ⟨'[', _, toList_debugText_cons item items, rfl⟩

theorem Plain.type_eq (plain : Plain admitted depth value)
    (also_plain : Plain admitted other_depth other)
    (same : value.debugText.toList ++ rest = other.debugText.toList ++ other_rest) :
    value.type = other.type := by
  obtain ⟨c, more, text, own⟩ := plain.exists_beginning
  obtain ⟨d, others, other_text, its⟩ := also_plain.exists_beginning
  rw [text, other_text] at same
  rw [(List.cons.inj same).1, its] at own
  exact (Option.some.inj own).symm

/-- Runs of characters that pass a test are the same if they are the same together with
what follows them. -/
theorem eq_of_runs {test : Char → Bool} {run other_run : List Char}
    (all : ∀ c ∈ run, test c = true) (other_all : ∀ c ∈ other_run, test c = true)
    (ends : NoneNext test rest) (other_ends : NoneNext test other_rest)
    (same : run ++ rest = other_run ++ other_rest) : run = other_run ∧ rest = other_rest := by
  have runs := congrArg (List.takeWhile test) same
  have rests := congrArg (List.dropWhile test) same
  rw [takeWhile_append_of_noneNext all ends, takeWhile_append_of_noneNext other_all other_ends]
    at runs
  rw [dropWhile_append_of_noneNext all ends, dropWhile_append_of_noneNext other_all other_ends]
    at rests
  exact ⟨runs, rests⟩

theorem noneNext_closing (items : List Value) (rest : List Char) :
    NoneNext isNumeric (closing items ++ rest) := by
  intro c first
  rcases eq_of_head_closing first with rfl | rfl <;> rfl

/-- The text of the value tells it apart from all other values, in front of anything
that no integer goes on with. -/
def Distinct (admitted : Int64 → Prop) (value : Value) : Prop :=
  ∀ ⦃other : Value⦄ ⦃depth : Nat⦄ ⦃rest other_rest : List Char⦄, Plain admitted depth other →
    NoneNext isNumeric rest → NoneNext isNumeric other_rest →
    value.debugText.toList ++ rest = other.debugText.toList ++ other_rest →
    value = other ∧ rest = other_rest

theorem eq_of_closings {items others : List Value}
    (distinct : ∀ item ∈ items, Distinct admitted item)
    (plain : ∀ other ∈ others, Plain admitted depth other)
    (same : closing items ++ rest = closing others ++ other_rest) :
    items = others ∧ rest = other_rest := by
  induction items generalizing others with
  | nil =>
    cases others with
    | nil => exact ⟨rfl, List.append_cancel_left same⟩
    | cons other others =>
      rw [closing_cons] at same
      cases same
  | cons item items ih =>
    cases others with
    | nil =>
      rw [closing_cons] at same
      cases same
    | cons other others =>
      obtain ⟨first, distinct⟩ := List.forall_mem_cons.mp distinct
      obtain ⟨other_plain, later_plain⟩ := List.forall_mem_cons.mp plain
      rw [closing_cons, closing_cons, List.cons_append, List.cons_append, List.cons_append,
        List.cons_append, List.append_assoc, List.append_assoc] at same
      obtain ⟨rfl, later⟩ := first other_plain (noneNext_closing _ _) (noneNext_closing _ _)
        (List.cons.inj (List.cons.inj same).2).2
      obtain ⟨same_items, same_rest⟩ := ih distinct later_plain later
      exact ⟨congrArg (item :: ·) same_items, same_rest⟩

/-- The text of no value begins with the bracket that closes a list. -/
theorem Plain.ne_bracket (plain : Plain admitted depth value) :
    ']' :: rest ≠ value.debugText.toList ++ other_rest := by
  obtain ⟨c, more, text, begins⟩ := plain.exists_beginning
  rw [text]
  rintro ⟨⟩
  cases begins

theorem eq_of_lists {items others : List Value}
    (all : ∀ item ∈ items, Plain admitted depth item)
    (distinct : ∀ item ∈ items, Distinct admitted item)
    (plain : ∀ other ∈ others, Plain admitted other_depth other)
    (same : (list items).debugText.toList ++ rest = (list others).debugText.toList ++ other_rest) :
    items = others ∧ rest = other_rest := by
  cases items with
  | nil =>
    cases others with
    | nil => exact ⟨rfl, List.append_cancel_left same⟩
    | cons other others =>
      rw [toList_debugText_nil, toList_debugText_cons] at same
      simp only [List.cons_append, List.nil_append, List.append_assoc] at same
      exact absurd (List.cons.inj same).2 (plain other List.mem_cons_self).ne_bracket
  | cons item items =>
    cases others with
    | nil =>
      rw [toList_debugText_nil, toList_debugText_cons] at same
      simp only [List.cons_append, List.nil_append, List.append_assoc] at same
      exact absurd (List.cons.inj same).2.symm (all item List.mem_cons_self).ne_bracket
    | cons other others =>
      obtain ⟨first, later⟩ := List.forall_mem_cons.mp distinct
      obtain ⟨other_plain, later_plain⟩ := List.forall_mem_cons.mp plain
      rw [toList_debugText_cons, toList_debugText_cons] at same
      simp only [List.cons_append, List.append_assoc] at same
      obtain ⟨rfl, closings⟩ := first other_plain (noneNext_closing _ _) (noneNext_closing _ _)
        (List.cons.inj same).2
      obtain ⟨same_items, same_rest⟩ := eq_of_closings later later_plain closings
      exact ⟨congrArg (item :: ·) same_items, same_rest⟩

/-- **The text of a value is that of no other value**, whatever stands behind the two in
a list. -/
theorem Plain.distinct (plain : Plain admitted depth value) : Distinct admitted value := by
  intro other other_depth rest other_rest also_plain ends other_ends same
  have types := plain.type_eq also_plain same
  induction plain generalizing other other_depth rest other_rest with
  | null =>
    cases also_plain with
    | null => exact ⟨rfl, List.append_cancel_left same⟩
    | _ => cases types
  | @int _ n _ =>
    cases also_plain with
    | @int _ m _ =>
      obtain ⟨digits, rests⟩ := eq_of_runs (isNumeric_toString n.toInt)
        (isNumeric_toString m.toInt) ends other_ends same
      have integers : n.toInt = m.toInt := Int.repr_inj.mp (String.toList_inj.mp digits)
      exact ⟨congrArg Value.int (Int64.toInt_inj.mp integers), rests⟩
    | _ => cases types
  | @string _ text no_quote =>
    cases also_plain with
    | @string _ other_text none_there =>
      have unquoted {text : List Char} (no_quote : quote ∉ text) :
          ∀ c ∈ text, (c != quote) = true := by
        intro c member
        rw [bne_iff_ne]
        rintro rfl
        exact no_quote member
      have closes (rest : List Char) : NoneNext (· != quote) (quote :: rest) := by
        intro c first
        cases first
        rfl
      rw [toList_debugText_string, toList_debugText_string] at same
      simp only [List.cons_append, List.append_assoc, List.nil_append] at same
      obtain ⟨texts, rests⟩ := eq_of_runs (unquoted no_quote) (unquoted none_there)
        (closes rest) (closes other_rest) (List.cons.inj same).2
      exact ⟨congrArg Value.string (String.toList_inj.mp texts), (List.cons.inj rests).2⟩
    | _ => cases types
  | @list _ items all ih =>
    cases also_plain with
    | @list _ others other_all =>
      have distinct : ∀ item ∈ items, Distinct admitted item :=
        fun item member _ _ _ _ plain ends other_ends same =>
          ih item member plain ends other_ends same ((all item member).type_eq plain same)
      obtain ⟨same_items, rests⟩ := eq_of_lists all distinct other_all same
      exact ⟨congrArg Value.list same_items, rests⟩
    | _ => cases types

end Decoding

end FormulaStepper.Value
