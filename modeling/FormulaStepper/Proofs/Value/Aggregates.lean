import FormulaStepper.Proofs.Value.Candidates

/-!
# What sums and extremes accept

A sum checks no element by itself. It adds each one to the total so far, and the kinds
of the two decide. The total begins as a number; to a number it adds numbers, and stays
one, but neither null nor a list (`isNumber_of_sumFrom`). A string makes it a text, and
a text takes everything: from the first string on, the sum is joined from the texts of
the elements (`sumFrom_append_string`).

The least or the greatest of several candidates is found only among numbers or among
strings. Any other candidate is a type mismatch, at whatever place it stands
(`exists_extreme_mismatch`).
-/

set_option autoImplicit false

namespace FormulaStepper.Value

open Formula

/-- A number of either kind. -/
def IsNumber (value : Value) : Prop :=
  value.type ∈ [.integer, .decimal]

/-- A number or a string. -/
def IsOrdered (value : Value) : Prop :=
  value.type ∈ [.integer, .decimal, .string]

instance (value : Value) : Decidable value.IsNumber :=
  inferInstanceAs (Decidable (_ ∈ _))

instance (value : Value) : Decidable value.IsOrdered :=
  inferInstanceAs (Decidable (_ ∈ _))

/-! ## Adding one value -/

section Adding

variable {left right item total : Value}

theorem isNumber_int (n : Int64) : (int n).IsNumber :=
  List.mem_cons_self

theorem isNumber_decimal (x : Float) : (decimal x).IsNumber :=
  List.mem_cons_of_mem _ List.mem_cons_self

theorem isNumber_iff : item.IsNumber ↔ (∃ n, item = .int n) ∨ ∃ x, item = .decimal x := by
  cases item with
  | int n => exact iff_of_true (isNumber_int n) (.inl ⟨n, rfl⟩)
  | decimal x => exact iff_of_true (isNumber_decimal x) (.inr ⟨x, rfl⟩)
  | null | string | list => simp [IsNumber, type]

theorem isNumber_of_exact {operation : String} {n : Int} (added : exact operation n = .ok total) :
    total.IsNumber := by
  unfold exact at added
  split at added
  · cases added
    exact isNumber_int _
  · cases added

/-- Two numbers add up to a number, if they do not overflow. -/
theorem isNumber_of_add (left_number : left.IsNumber) (right_number : right.IsNumber)
    (added : left.add right = .ok total) : total.IsNumber := by
  rcases isNumber_iff.mp left_number with ⟨a, rfl⟩ | ⟨x, rfl⟩
  · rcases isNumber_iff.mp right_number with ⟨b, rfl⟩ | ⟨y, rfl⟩
    · exact isNumber_of_exact added
    · cases added
      exact isNumber_decimal _
  · rcases isNumber_iff.mp right_number with ⟨b, rfl⟩ | ⟨y, rfl⟩ <;>
      · cases added
        exact isNumber_decimal _

/-- A string is joined to the text of any value. -/
theorem add_string (left : Value) (s : String) :
    left.add (.string s) = .ok (.string (left.text ++ s)) := by
  cases left <;> rfl

/-- Null and lists cannot be added to a number. -/
theorem add_eq_mismatch (left_number : left.IsNumber) (no_number : ¬ right.IsNumber)
    (no_string : right.type ≠ .string) : left.add right = .error (mismatch "+" left right) := by
  cases right with
  | int n => exact absurd (isNumber_int n) no_number
  | decimal x => exact absurd (isNumber_decimal x) no_number
  | string s => exact absurd rfl no_string
  | null | list => rcases isNumber_iff.mp left_number with ⟨n, rfl⟩ | ⟨x, rfl⟩ <;> rfl

end Adding

/-! ## Adding up a list -/

section Sums

variable {start total : Value} {items : List Value}

theorem sumFrom_append (start : Value) (before after : List Value) :
    sumFrom start (before ++ after) =
      (sumFrom start before).bind fun part => sumFrom part after := by
  induction before generalizing start with
  | nil => rfl
  | cons item before ih =>
    rw [List.cons_append, sumFrom, sumFrom]
    cases start.add item with
    | error error => rfl
    | ok next => exact ih next

/-- To a text, the texts of all values are joined. -/
theorem sumFrom_string (s : String) (items : List Value) :
    sumFrom (.string s) items = .ok (.string (s ++ String.join (items.map text))) := by
  induction items generalizing s with
  | nil => rw [sumFrom, List.map_nil, String.join_nil, String.append_empty]
  | cons item items ih =>
    show sumFrom (.string (s ++ item.text)) items = _
    rw [ih, List.map_cons, String.join_cons, String.append_assoc]

/-- **A string makes the sum a text**, whatever stands behind it. -/
theorem sumFrom_append_string (start : Value) (before : List Value) (s : String)
    (after : List Value) :
    sumFrom start (before ++ .string s :: after) =
      (sumFrom start before).map fun part =>
        .string (part.text ++ s ++ String.join (after.map text)) := by
  rw [sumFrom_append]
  cases sumFrom start before with
  | error error => rfl
  | ok part =>
    show sumFrom part (.string s :: after) = _
    rw [sumFrom, add_string]
    exact sumFrom_string _ after

/-- **Without strings, only numbers add up, and to a number.** -/
theorem isNumber_of_sumFrom (number : start.IsNumber)
    (no_string : ∀ item ∈ items, item.type ≠ .string) (sums : sumFrom start items = .ok total) :
    (∀ item ∈ items, item.IsNumber) ∧ total.IsNumber := by
  induction items generalizing start with
  | nil =>
    cases sums
    exact ⟨List.forall_mem_nil _, number⟩
  | cons item items ih =>
    obtain ⟨own, no_string⟩ := List.forall_mem_cons.mp no_string
    rw [sumFrom] at sums
    cases added : start.add item with
    | error error =>
      rw [added] at sums
      cases sums
    | ok next =>
      rw [added] at sums
      -- the total is a number still, and would have refused anything else
      have item_number : item.IsNumber := by
        by_contra no_number
        rw [add_eq_mismatch number no_number own] at added
        cases added
      obtain ⟨numbers, total_number⟩ := ih (isNumber_of_add number item_number added) no_string sums
      exact ⟨List.forall_mem_cons.mpr ⟨item_number, numbers⟩, total_number⟩

theorem exists_sumFrom_error (number : start.IsNumber)
    (no_string : ∀ item ∈ items, item.type ≠ .string) (other : ∃ item ∈ items, ¬ item.IsNumber) :
    ∃ error, sumFrom start items = .error error := by
  cases sums : sumFrom start items with
  | error error => exact ⟨error, rfl⟩
  | ok total =>
    obtain ⟨item, member, no_number⟩ := other
    exact absurd ((isNumber_of_sumFrom number no_string sums).1 item member) no_number

end Sums

/-! ## Choosing from several values -/

section Extremes

variable {operation : String} {better : Ordering} {left right best value : Value}
  {rest values arguments : List Value} {error : EvalError}

theorem isOrdered_of_scale? {scale : Scale} (known : value.scale? = some scale) :
    value.IsOrdered := by
  cases value with
  | int | decimal | string => simp [IsOrdered, type]
  | null | list => cases known

theorem Uniform.isOrdered (uniform : Uniform values) : ∀ value ∈ values, value.IsOrdered := by
  rcases uniform with texts | sizes
  · exact fun value member => isOrdered_of_scale? (texts value member)
  · exact fun value member => isOrdered_of_scale? (sizes value member)

theorem eq_mismatch_of_compare (failed : compare operation left right = .error error) :
    error = mismatch operation left right := by
  unfold compare at failed
  split at failed
  · cases failed
  · split at failed
    · split at failed
      · cases failed
      · cases failed
        rfl
    · cases failed
      rfl

/-- Where no best value is found, two values could not be compared. -/
theorem exists_mismatch_of_bestOf (failed : bestOf operation better best rest = .error error) :
    ∃ left right, error = .typeMismatch operation left right := by
  induction rest generalizing best with
  | nil => cases failed
  | cons candidate rest ih =>
    rw [bestOf] at failed
    cases compared : compare operation candidate best with
    | error other =>
      rw [compared] at failed
      cases failed
      exact ⟨_, _, eq_mismatch_of_compare compared⟩
    | ok order =>
      rw [compared] at failed
      exact ih failed

theorem exists_mismatch_of_extreme (failed : extreme operation better arguments = .error error) :
    ∃ left right, error = .typeMismatch operation left right := by
  unfold extreme at failed
  split at failed
  · cases failed
  · exact exists_mismatch_of_bestOf failed

/-- **Of several candidates, each one is a number or a string**, or there is no extreme one. -/
theorem isOrdered_of_extreme (several : 2 ≤ (candidates arguments).length)
    (found : extreme operation better arguments = .ok value) :
    ∀ candidate ∈ candidates arguments, candidate.IsOrdered :=
  ((exists_extreme_iff several).mp ⟨value, found⟩).isOrdered

theorem exists_extreme_mismatch (several : 2 ≤ (candidates arguments).length)
    (other : ∃ candidate ∈ candidates arguments, ¬ candidate.IsOrdered) :
    ∃ left right,
      extreme operation better arguments = .error (.typeMismatch operation left right) := by
  cases found : extreme operation better arguments with
  | error error =>
    obtain ⟨left, right, rfl⟩ := exists_mismatch_of_extreme found
    exact ⟨left, right, rfl⟩
  | ok value =>
    obtain ⟨candidate, member, unordered⟩ := other
    exact absurd (isOrdered_of_extreme several found candidate member) unordered

end Extremes

/-- **Sums and extremes are typed.** The sum of a list without strings, if it has one, is a
number, and so are all elements; null or a list among them, at any place, is an evaluation
error. With a string among the elements, the sum fails where the sum of those before the string
does, and is otherwise a text: that of the sum of those before, the string, and the texts
of those behind it. Of at least two candidates, `min` and `max` choose one only if all are
numbers or strings; null or a list among them, at any place, is a type mismatch. -/
theorem aggregates_are_type_sound :
    (∀ items : List Value, (∀ item ∈ items, item.type ≠ .string) →
      (∀ total, Function.sum.apply [.list items] = .ok total →
        (∀ item ∈ items, item.IsNumber) ∧ total.IsNumber) ∧
      ((∃ item ∈ items, ¬ item.IsNumber) →
        ∃ error, Function.sum.apply [.list items] = .error error)) ∧
    (∀ before s after, Function.sum.apply [.list (before ++ .string s :: after)] =
      (Function.sum.apply [.list before]).map fun part =>
        .string (part.text ++ s ++ String.join (after.map text))) ∧
    ∀ function ∈ [Function.min, Function.max], ∀ arguments,
      2 ≤ (candidates arguments).length →
      (∀ found, function.apply arguments = .ok found →
        ∀ candidate ∈ candidates arguments, candidate.IsOrdered) ∧
      ((∃ candidate ∈ candidates arguments, ¬ candidate.IsOrdered) →
        ∃ left right,
          function.apply arguments = .error (.typeMismatch function.name left right)) := by
  refine ⟨fun items no_string => ⟨fun total => isNumber_of_sumFrom (isNumber_int 0) no_string,
    exists_sumFrom_error (isNumber_int 0) no_string⟩, sumFrom_append_string (.int 0), ?_⟩
  intro function member arguments several
  have choice : ∃ better, function.apply arguments = extreme function.name better arguments := by
    rw [List.mem_cons, List.mem_singleton] at member
    rcases member with rfl | rfl
    · exact ⟨.lt, rfl⟩
    · exact ⟨.gt, rfl⟩
  obtain ⟨better, same⟩ := choice
  rw [same]
  exact ⟨fun found => isOrdered_of_extreme several, exists_extreme_mismatch several⟩

/-- Null is met behind numbers, but not behind a string. -/
theorem aggregates_of_mixed_lists :
    (∃ error, Function.sum.apply [.list [.int 1, .decimal 2.5, .null, .int 3]] = .error error) ∧
      Function.sum.apply [.list [.int 1, .int 2, .string "a", .null, .list [.int 4]]] =
        .ok (.string "3anull()[4]") ∧
      ∃ left right, Function.max.apply [.int 1, .decimal 2.5, .list []] =
        .error (.typeMismatch "max" left right) := by
  obtain ⟨numbers, texts, extremes⟩ := aggregates_are_type_sound
  have no_string : ∀ item ∈ [Value.int 1, .decimal 2.5, .null, .int 3], item.type ≠ .string := by
    simp [type]
  have several : 2 ≤ (candidates [.int 1, .decimal 2.5, .list []]).length := by decide
  refine ⟨(numbers _ no_string).2 ⟨.null, by simp, by decide⟩, ?_, ?_⟩
  · exact texts [.int 1, .int 2] "a" [.null, .list [.int 4]]
  · exact (extremes .max (by decide) _ several).2 ⟨.list [], by simp [candidates], by decide⟩

/-- A string is added to a number, null to a string, and a candidate that stands alone is
compared with nothing. -/
theorem other_kinds_accepted :
    Function.sum.apply [.list [.int 1, .string "a"]] = .ok (.string "1a") ∧
      ¬ (Value.string "a").IsNumber ∧ ¬ (Value.string "1a").IsNumber ∧
      Function.sum.apply [.list [.string "a", .null]] = .ok (.string "0anull()") ∧
      candidates [.null] = [.null] ∧ Function.min.apply [.null] = .ok .null ∧
      ¬ Value.null.IsOrdered :=
  ⟨rfl, by decide, by decide, rfl, rfl, rfl, by decide⟩

end FormulaStepper.Value
