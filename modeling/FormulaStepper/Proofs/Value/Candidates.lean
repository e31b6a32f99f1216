import FormulaStepper.Dictionary
import FormulaStepper.Proofs.Text.Bytes
import FormulaStepper.Proofs.Value.Integers

/-!
# The candidates of `min` and `max`

Of several candidates, `min` and `max` compare each one with the best so far. The
best changes on the way, but what it can be compared with does not: strings are
compared with strings and numbers with numbers (`exists_compare_iff`). So a
candidate that does not go with the others is met wherever it stands
(`exists_bestOf_iff`), and the order of the candidates does not matter.

Of strings the best one is the first in an order, or the last, and the order of
strings is that of their bytes (`exists_bestOf_string`).
-/

set_option autoImplicit false

namespace FormulaStepper.Value

open Decimal Formula Text

/-! ## What can be compared -/

/-- What values are compared by. -/
inductive Scale where
  | text
  | size

/-- What a value can be compared by. A decimal that is not a number cannot be
compared, and neither can null or a list. -/
def scale? : Value → Option Scale
  | .string _ => some .text
  | .int _ => some .size
  | .decimal x => if x.isNaN then none else some .size
  | .null | .list _ => none

/-- The values are compared by the same. -/
def Comparable (left right : Value) : Prop :=
  ∃ scale, left.scale? = some scale ∧ right.scale? = some scale

section Comparing

variable {operation : String} {left right value : Value} {x y : Float}

theorem order?_eq_none_iff : order? x y = none ↔ x.isNaN = true ∨ y.isNaN = true := by
  rw [order?, ← Bool.or_eq_true]
  split
  · next unordered => exact iff_of_true rfl unordered
  · next ordered =>
    refine iff_of_false ?_ ordered
    split
    · exact Option.some_ne_none _
    · split <;> exact Option.some_ne_none _

theorem scale?_eq_text_iff : value.scale? = some .text ↔ ∃ text, value = .string text := by
  cases value with
  | string text => exact iff_of_true rfl ⟨text, rfl⟩
  | decimal x =>
    refine iff_of_false ?_ (fun ⟨_, same⟩ => by cases same)
    rw [scale?]
    split <;> simp
  | null | int | list =>
    exact iff_of_false (fun same => by cases same) (fun ⟨_, same⟩ => by cases same)

/-- What is compared by size is a number. -/
theorem scale?_eq_size_iff :
    value.scale? = some .size ↔ ∃ x, value.number? = some x ∧ x.isNaN = false := by
  cases value with
  | int n => exact iff_of_true rfl ⟨_, rfl, (means_int n).isNaN⟩
  | decimal x => simp [scale?, number?]
  | null | string | list =>
    exact iff_of_false (fun same => by cases same) (fun ⟨_, same, _⟩ => by cases same)

theorem compare_of_number? {order : Ordering} (left_number : left.number? = some x)
    (right_number : right.number? = some y) (ordered : order? x y = some order) :
    compare operation left right = .ok order := by
  unfold compare
  split
  · cases left_number
  · simp only [left_number, right_number, ordered]

/-- **Which values can be compared.** -/
theorem exists_compare_iff :
    (∃ order, compare operation left right = .ok order) ↔ Comparable left right := by
  constructor
  · rintro ⟨order, compared⟩
    unfold compare at compared
    split at compared
    · exact ⟨.text, rfl, rfl⟩
    · split at compared
      · next x y left_number right_number =>
        split at compared
        · next ordered =>
          have numbers : ¬ (x.isNaN = true ∨ y.isNaN = true) := by
            rw [← order?_eq_none_iff, ordered]
            exact Option.some_ne_none _
          rw [not_or, Bool.not_eq_true, Bool.not_eq_true] at numbers
          exact ⟨.size, scale?_eq_size_iff.mpr ⟨x, left_number, numbers.1⟩,
            scale?_eq_size_iff.mpr ⟨y, right_number, numbers.2⟩⟩
        · cases compared
      · cases compared
  · rintro ⟨scale, left_scale, right_scale⟩
    cases scale with
    | text =>
      obtain ⟨s, rfl⟩ := scale?_eq_text_iff.mp left_scale
      obtain ⟨t, rfl⟩ := scale?_eq_text_iff.mp right_scale
      exact ⟨_, rfl⟩
    | size =>
      obtain ⟨x, left_number, is_left⟩ := scale?_eq_size_iff.mp left_scale
      obtain ⟨y, right_number, is_right⟩ := scale?_eq_size_iff.mp right_scale
      have ordered : order? x y ≠ none := by
        rw [Ne, order?_eq_none_iff, is_left, is_right]
        decide
      obtain ⟨order, ordered⟩ := Option.ne_none_iff_exists'.mp ordered
      exact ⟨order, compare_of_number? left_number right_number ordered⟩

theorem Comparable.symm (comparable : Comparable left right) : Comparable right left := by
  obtain ⟨scale, left_scale, right_scale⟩ := comparable
  exact ⟨scale, right_scale, left_scale⟩

theorem Comparable.scale?_eq (comparable : Comparable left right) : left.scale? = right.scale? := by
  obtain ⟨scale, left_scale, right_scale⟩ := comparable
  rw [left_scale, right_scale]

end Comparing

/-! ## The best of several -/

section Several

variable {operation : String} {better : Ordering} {first best value : Value}
  {rest values arguments others : List Value}

/-- The values are all compared by text or all by size. -/
def Uniform (values : List Value) : Prop :=
  (∀ value ∈ values, value.scale? = some .text) ∨ ∀ value ∈ values, value.scale? = some .size

theorem uniform_cons_iff (more : rest ≠ []) :
    Uniform (first :: rest) ↔ ∀ value ∈ rest, Comparable first value := by
  constructor
  · rintro (texts | sizes)
    · obtain ⟨own, texts⟩ := List.forall_mem_cons.mp texts
      exact fun value member => ⟨.text, own, texts value member⟩
    · obtain ⟨own, sizes⟩ := List.forall_mem_cons.mp sizes
      exact fun value member => ⟨.size, own, sizes value member⟩
  · intro all
    obtain ⟨second, rest, rfl⟩ := List.exists_cons_of_ne_nil more
    obtain ⟨scale, own, -⟩ := all second List.mem_cons_self
    have alike : ∀ value ∈ first :: second :: rest, value.scale? = some scale :=
      List.forall_mem_cons.mpr
        ⟨own, fun value member => (all value member).scale?_eq.symm.trans own⟩
    cases scale with
    | text => exact .inl alike
    | size => exact .inr alike

/-- **There is a best value just if the first one can be compared with all others.** -/
theorem exists_bestOf_iff :
    (∃ found, bestOf operation better best rest = .ok found) ↔
      ∀ value ∈ rest, Comparable best value := by
  induction rest generalizing best with
  | nil => exact iff_of_true ⟨best, rfl⟩ (List.forall_mem_nil _)
  | cons candidate rest ih =>
    rw [bestOf, List.forall_mem_cons]
    cases compared : compare operation candidate best with
    | error error =>
      refine iff_of_false (fun ⟨_, found⟩ => by cases found) ?_
      rintro ⟨comparable, -⟩
      obtain ⟨order, ordered⟩ := exists_compare_iff.mpr comparable.symm
      rw [compared] at ordered
      cases ordered
    | ok order =>
      have comparable := exists_compare_iff.mp ⟨order, compared⟩
      -- the best so far may change, but not what it can be compared with
      have same : (if order = better then candidate else best).scale? = best.scale? := by
        split
        · exact comparable.scale?_eq
        · rfl
      rw [and_iff_right comparable.symm]
      refine ih.trans ?_
      simp only [Comparable, same]

theorem mem_of_bestOf (found : bestOf operation better best rest = .ok value) :
    value ∈ best :: rest := by
  induction rest generalizing best with
  | nil =>
    cases found
    exact List.mem_cons_self
  | cons candidate rest ih =>
    rw [bestOf] at found
    cases compared : compare operation candidate best with
    | error error =>
      rw [compared] at found
      cases found
    | ok order =>
      rw [compared] at found
      rcases List.mem_cons.mp (ih found) with rfl | later
      · split
        · exact List.mem_cons_of_mem _ List.mem_cons_self
        · exact List.mem_cons_self
      · exact List.mem_cons_of_mem _ (List.mem_cons_of_mem _ later)

theorem extreme_eq_bestOf (split : candidates arguments = first :: rest) :
    extreme operation better arguments = bestOf operation better first rest := by
  rw [extreme, split]

/-- Several candidates have an extreme one just if they are all strings or all numbers. -/
theorem exists_extreme_iff (several : 2 ≤ (candidates arguments).length) :
    (∃ found, extreme operation better arguments = .ok found) ↔ Uniform (candidates arguments) := by
  have some_candidates := Nat.lt_of_lt_of_le Nat.two_pos several
  obtain ⟨first, rest, split⟩ := List.exists_cons_of_length_pos some_candidates
  have more : rest ≠ [] := by
    rintro rfl
    rw [split, List.length_singleton] at several
    exact absurd several (by decide)
  rw [extreme_eq_bestOf split, exists_bestOf_iff, split, uniform_cons_iff more]

theorem exists_eq_extreme {function : Function} (member : function ∈ [Function.min, Function.max]) :
    ∃ operation better, function.apply = extreme operation better := by
  rw [List.mem_cons, List.mem_singleton] at member
  rcases member with rfl | rfl
  · exact ⟨"min", .lt, rfl⟩
  · exact ⟨"max", .gt, rfl⟩

theorem mem_of_extreme (some_candidates : candidates arguments ≠ [])
    (found : extreme operation better arguments = .ok value) : value ∈ candidates arguments := by
  obtain ⟨first, rest, split⟩ := List.exists_cons_of_ne_nil some_candidates
  rw [extreme_eq_bestOf split] at found
  rw [split]
  exact mem_of_bestOf found

theorem Uniform.perm (uniform : Uniform values) {reordered : List Value}
    (same : reordered.Perm values) : Uniform reordered := by
  rcases uniform with texts | sizes
  · exact .inl fun value member => texts value (same.mem_iff.mp member)
  · exact .inr fun value member => sizes value (same.mem_iff.mp member)

end Several

/-! ## The best of several strings -/

section Strings

variable {operation : String} {better : Ordering} {precedes : String → String → Prop}
  {s t : String}

theorem stringOrder_eq_lt_iff : stringOrder s t = .lt ↔ s < t := by
  unfold stringOrder
  split
  · next less => exact iff_of_true rfl less
  · next not_less =>
    refine iff_of_false ?_ not_less
    split <;> decide

theorem stringOrder_eq_gt_iff : stringOrder s t = .gt ↔ t < s := by
  unfold stringOrder
  split
  · next less => exact iff_of_false (by decide) (String.lt_asymm less)
  · next not_less =>
    split
    · next same => exact iff_of_false (by decide) (same ▸ String.lt_irrefl s)
    · next different => exact iff_of_true rfl (Dictionary.lt_of_not_lt_of_ne not_less different)

/-- A string precedes those that it is better than, and comes behind the others. -/
structure Ranks (better : Ordering) (precedes : String → String → Prop) : Prop where
  refl : ∀ s, precedes s s
  trans : ∀ r s t, precedes r s → precedes s t → precedes r t
  of_better : ∀ s t, stringOrder s t = better → precedes s t
  of_not_better : ∀ s t, stringOrder s t ≠ better → precedes t s

theorem ranks_lt : Ranks .lt fun s t => s ≤ t where
  refl := String.le_refl
  trans _ _ _ := String.le_trans
  of_better _ _ less := String.not_lt.mp (String.lt_asymm (stringOrder_eq_lt_iff.mp less))
  of_not_better _ _ not_less := String.not_lt.mp (mt stringOrder_eq_lt_iff.mpr not_less)

theorem ranks_gt : Ranks .gt fun s t => t ≤ s where
  refl := String.le_refl
  trans _ _ _ first second := String.le_trans second first
  of_better _ _ greater := String.not_lt.mp (String.lt_asymm (stringOrder_eq_gt_iff.mp greater))
  of_not_better _ _ not_greater := String.not_lt.mp (mt stringOrder_eq_gt_iff.mpr not_greater)

/-- **The best of strings precedes all of them.** -/
theorem exists_bestOf_string (ranks : Ranks better precedes) (best : String) (rest : List String) :
    ∃ found ∈ best :: rest,
      bestOf operation better (.string best) (rest.map .string) = .ok (.string found) ∧
        ∀ text ∈ best :: rest, precedes found text := by
  induction rest generalizing best with
  | nil => exact ⟨best, List.mem_cons_self, rfl, List.forall_mem_singleton.mpr (ranks.refl best)⟩
  | cons candidate rest ih =>
    have step : bestOf operation better (.string best) ((candidate :: rest).map .string) =
        bestOf operation better
          (if stringOrder candidate best = better then .string candidate else .string best)
          (rest.map .string) :=
      rfl
    rw [step]
    by_cases replaced : stringOrder candidate best = better
    · obtain ⟨found, member, chosen, first⟩ := ih candidate
      rw [if_pos replaced]
      have behind := ranks.trans _ _ _ (first candidate List.mem_cons_self)
        (ranks.of_better _ _ replaced)
      exact ⟨found, List.mem_cons_of_mem best member, chosen,
        List.forall_mem_cons.mpr ⟨behind, first⟩⟩
    · obtain ⟨found, member, chosen, first⟩ := ih best
      rw [if_neg replaced]
      obtain ⟨own, others⟩ := List.forall_mem_cons.mp first
      have behind := ranks.trans _ _ _ own (ranks.of_not_better _ _ replaced)
      refine ⟨found, ?_, chosen,
        List.forall_mem_cons.mpr ⟨own, List.forall_mem_cons.mpr ⟨behind, others⟩⟩⟩
      rcases List.mem_cons.mp member with rfl | later
      · exact List.mem_cons_self
      · exact List.mem_cons_of_mem _ (List.mem_cons_of_mem _ later)

theorem exists_extreme_string (ranks : Ranks better precedes) {arguments : List Value}
    {texts : List String} (split : candidates arguments = texts.map .string)
    (some_texts : texts ≠ []) :
    ∃ found ∈ texts, extreme operation better arguments = .ok (.string found) ∧
      ∀ text ∈ texts, precedes found text := by
  obtain ⟨first, rest, rfl⟩ := List.exists_cons_of_ne_nil some_texts
  rw [extreme_eq_bestOf split]
  exact exists_bestOf_string ranks first rest

/-- Strings stand in the order of their bytes. -/
theorem encode_le_iff : Utf8.encode s.toList ≤ Utf8.encode t.toList ↔ s ≤ t :=
  not_congr Utf8.encode_lt_encode_iff

end Strings

/-- **Every candidate is checked, in any order.** Of at least two candidates, given as
arguments or as a single list, `min` and `max` choose one just if they are all strings or
all numbers, with none that is not a number. So it does not matter in which order, or in
which of the two ways, they are given. What is chosen is one of the candidates. Of strings
it is the least or the greatest, as the bytes of strings are ordered. -/
theorem every_candidate_is_checked {arguments : List Value}
    (several : 2 ≤ (candidates arguments).length) :
    (∀ function ∈ [Function.min, Function.max],
      ((∃ found, function.apply arguments = .ok found) ↔ Uniform (candidates arguments)) ∧
      (∀ others, (candidates others).Perm (candidates arguments) →
        ((∃ found, function.apply others = .ok found) ↔
          ∃ found, function.apply arguments = .ok found)) ∧
      ∀ found, function.apply arguments = .ok found → found ∈ candidates arguments) ∧
    ∀ texts : List String, candidates arguments = texts.map .string →
      (∃ least ∈ texts, Function.min.apply arguments = .ok (.string least) ∧
        ∀ text ∈ texts, Utf8.encode least.toList ≤ Utf8.encode text.toList) ∧
      ∃ greatest ∈ texts, Function.max.apply arguments = .ok (.string greatest) ∧
        ∀ text ∈ texts, Utf8.encode text.toList ≤ Utf8.encode greatest.toList := by
  have some_candidates : candidates arguments ≠ [] :=
    List.ne_nil_of_length_pos (Nat.lt_of_lt_of_le Nat.two_pos several)
  constructor
  · intro function member
    obtain ⟨operation, better, same⟩ := exists_eq_extreme member
    simp only [same]
    refine ⟨exists_extreme_iff several, fun others reordered => ?_, fun found =>
      mem_of_extreme some_candidates⟩
    rw [exists_extreme_iff several, exists_extreme_iff (reordered.length_eq ▸ several)]
    exact ⟨fun uniform => uniform.perm reordered.symm, fun uniform => uniform.perm reordered⟩
  · intro texts split
    have some_texts : texts ≠ [] := by
      rintro rfl
      exact some_candidates split
    simp only [encode_le_iff]
    exact ⟨exists_extreme_string ranks_lt split some_texts,
      exists_extreme_string ranks_gt split some_texts⟩

/-- A letter beyond ASCII is greater than all ASCII characters, and a string among numbers
is noticed at any place. -/
theorem extremes_of_letters :
    2 ≤ (candidates [.list [.string "é", .string "z", .string "~"]]).length ∧
      Function.min.apply [.list [.string "é", .string "z", .string "~"]] = .ok (.string "z") ∧
      Function.max.apply [.list [.string "é", .string "z", .string "~"]] = .ok (.string "é") ∧
      ∀ others, (candidates others).Perm [.int 1, .string "1", .int 2] →
        ¬ ∃ found, Function.min.apply others = .ok found := by
  have several : 2 ≤ (candidates [.list [.string "é", .string "z", .string "~"]]).length := by
    decide
  obtain ⟨⟨least, is_one, min, low⟩, greatest, also_one, max, high⟩ :=
    (every_candidate_is_checked several).2 ["é", "z", "~"] rfl
  have below := low "z" (by decide)
  have above := high "é" (by decide)
  rw [List.mem_cons, List.mem_cons, List.mem_singleton] at is_one also_one
  refine ⟨several, ?_, ?_, fun others same => ?_⟩
  · rcases is_one with rfl | rfl | rfl
    · exact absurd below (by decide)
    · exact min
    · exact absurd below (by decide)
  · rcases also_one with rfl | rfl | rfl
    · exact max
    · exact absurd above (by decide)
    · exact absurd above (by decide)
  · have enough : 2 ≤ (candidates others).length := by
      rw [same.length_eq]
      decide
    have checked := (every_candidate_is_checked enough).1 .min List.mem_cons_self
    rw [checked.1]
    intro uniform
    rcases uniform.perm same.symm with texts | sizes
    · cases texts (.int 1) List.mem_cons_self
    · cases sizes (.string "1") (List.mem_cons_of_mem _ List.mem_cons_self)

end FormulaStepper.Value
