import FormulaStepper.Proofs.Value.Integers

/-!
# Comparing integers

Integers are compared as the floats nearest to them (`compare_int`). So the
order of two integers is never reversed, but two integers that are rounded to
one float count as equal (`comparesLike_toInt_iff`). The least and the greatest of
several integers are found by comparing each with the best so far, and so the
first one is kept of those that count as equal (`bestOf_int`).
-/

set_option autoImplicit false

namespace FormulaStepper.Value

open Decimal Formula

/-! ## Two integers -/

section Two

variable {a b : Int64} {operation : String}

theorem order?_of_means {x y : Float} {m n : Int} (left : Means x m) (right : Means y n) :
    order? x y = some (Ord.compare m n) := by
  rw [order?, left.isNaN, right.isNaN, if_neg (by decide)]
  rcases Int.lt_trichotomy m n with less | same | more
  · rw [if_pos ((left.lt_iff right).mpr less), Int.compare_eq_lt.mpr less]
  · rw [if_neg (mt (left.lt_iff right).mp (by omega)), if_pos ((left.beq_iff right).mpr same),
      Int.compare_eq_eq.mpr same]
  · rw [if_neg (mt (left.lt_iff right).mp (by omega)),
      if_neg (mt (left.beq_iff right).mp (by omega)), Int.compare_eq_gt.mpr more]

/-- Integers are compared as the floats nearest to them. -/
theorem compare_int : compare operation (int a) (int b) =
    .ok (Ord.compare (nearest a.toInt) (nearest b.toInt)) := by
  have ordered := order?_of_means (means_int a) (means_int b)
  simp only [compare, number?, ordered]

theorem looseEq_int : (int a).looseEq (int b) = decide (nearest a.toInt = nearest b.toInt) := by
  have equal := (means_int a).beq_iff (means_int b)
  rw [Bool.eq_iff_iff, decide_eq_true_iff, ← equal]
  rfl

theorem comparing_int {op : BinaryOp} {accepts : Ordering → Bool} :
    op.comparing accepts (int a) (int b) =
      .ok (.ofBool (accepts (Ord.compare (nearest a.toInt) (nearest b.toInt)))) := by
  rw [BinaryOp.comparing, compare_int]
  rfl

/-- Two integers compare like two numbers: their order is that of the numbers,
and so is the outcome of every comparison. -/
structure ComparesLike (a b : Int64) (m n : Int) : Prop where
  order : ∀ operation, compare operation (int a) (int b) = .ok (Ord.compare m n)
  looseEq : (int a).looseEq (int b) = decide (m = n)
  equal : BinaryOp.equal.apply (int a) (int b) = .ok (.ofBool (m = n))
  notEqual : BinaryOp.notEqual.apply (int a) (int b) = .ok (.ofBool (m ≠ n))
  less : BinaryOp.less.apply (int a) (int b) = .ok (.ofBool (m < n))
  lessEqual : BinaryOp.lessEqual.apply (int a) (int b) = .ok (.ofBool (m ≤ n))
  greater : BinaryOp.greater.apply (int a) (int b) = .ok (.ofBool (m > n))
  greaterEqual : BinaryOp.greaterEqual.apply (int a) (int b) = .ok (.ofBool (m ≥ n))

theorem comparesLike_of_order {m n : Int}
    (same : Ord.compare (nearest a.toInt) (nearest b.toInt) = Ord.compare m n) :
    ComparesLike a b m n := by
  have looseEq : (int a).looseEq (int b) = decide (m = n) := by
    rw [looseEq_int, decide_eq_decide, ← Int.compare_eq_eq, same, Int.compare_eq_eq]
  refine ⟨fun operation => ?_, looseEq, ?_, ?_, ?_, ?_, ?_, ?_⟩
  · rw [compare_int, same]
  · rw [BinaryOp.apply, looseEq]
  · rw [BinaryOp.apply, looseEq, decide_not]
  · rw [BinaryOp.apply, comparing_int, same]
    simp only [Int.compare_eq_lt]
  · rw [BinaryOp.apply, comparing_int, same]
    simp only [ne_eq, Int.compare_eq_gt, Int.not_lt]
  · rw [BinaryOp.apply, comparing_int, same]
    simp only [Int.compare_eq_gt, gt_iff_lt]
  · rw [BinaryOp.apply, comparing_int, same]
    simp only [ne_eq, Int.compare_eq_lt, Int.not_lt, ge_iff_le]

theorem comparesLike_nearest (a b : Int64) :
    ComparesLike a b (nearest a.toInt) (nearest b.toInt) :=
  comparesLike_of_order rfl

/-- Rounding keeps the order of two integers unless it makes them equal. -/
theorem compare_nearest_iff {m n : Int} :
    Ord.compare (nearest m) (nearest n) = Ord.compare m n ↔ m = n ∨ nearest m ≠ nearest n := by
  rcases Int.lt_trichotomy m n with less | same | more
  · have ordered := nearest_mono (Int.le_of_lt less)
    rw [Int.compare_eq_lt.mpr less, Int.compare_eq_lt]
    omega
  · rw [same]
    simp
  · have ordered := nearest_mono (Int.le_of_lt more)
    rw [Int.compare_eq_gt.mpr more, Int.compare_eq_gt]
    omega

/-- Integers compare exactly unless different ones are rounded to one float. -/
theorem comparesLike_toInt_iff :
    ComparesLike a b a.toInt b.toInt ↔ a = b ∨ nearest a.toInt ≠ nearest b.toInt := by
  have same_int : a.toInt = b.toInt ↔ a = b := ⟨Int64.toInt.inj, congrArg Int64.toInt⟩
  rw [← same_int, ← compare_nearest_iff]
  constructor
  · intro exact
    exact Except.ok.inj (compare_int.symm.trans (exact.order ""))
  · exact comparesLike_of_order

end Two

/-! ## The best of several integers -/

section Several

variable {score : Int64 → Int} {numbers seen rest : List Int64} {best candidate : Int64}

/-- A number is the first among those of the least score. -/
def FirstLeast (score : Int64 → Int) (numbers : List Int64) (best : Int64) : Prop :=
  ∃ before after, numbers = before ++ best :: after ∧
    (∀ number ∈ before, score best < score number) ∧ ∀ number ∈ after, score best ≤ score number

theorem firstLeast_singleton (score : Int64 → Int) (number : Int64) :
    FirstLeast score [number] number :=
  ⟨[], [], rfl, fun _ member => (by cases member), fun _ member => (by cases member)⟩

theorem FirstLeast.mem (least : FirstLeast score numbers best) : best ∈ numbers := by
  obtain ⟨before, after, rfl, -⟩ := least
  exact List.mem_append_right _ List.mem_cons_self

theorem FirstLeast.le (least : FirstLeast score numbers best) :
    ∀ number ∈ numbers, score best ≤ score number := by
  obtain ⟨before, after, rfl, earlier, later⟩ := least
  intro number member
  rcases List.mem_append.mp member with front | back
  · exact Int.le_of_lt (earlier number front)
  · rcases List.mem_cons.mp back with rfl | behind
    · exact Int.le_refl _
    · exact later number behind

/-- A candidate that is better than the best so far is better than all so far. -/
theorem FirstLeast.replace (least : FirstLeast score seen best)
    (better : score candidate < score best) : FirstLeast score (seen ++ [candidate]) candidate :=
  ⟨seen, [], rfl, fun number member => Int.lt_of_lt_of_le better (least.le number member),
    fun _ member => (by cases member)⟩

/-- A candidate that is not better stays behind the best so far. -/
theorem FirstLeast.keep (least : FirstLeast score seen best)
    (not_better : score best ≤ score candidate) : FirstLeast score (seen ++ [candidate]) best := by
  obtain ⟨before, after, rfl, earlier, later⟩ := least
  refine ⟨before, after ++ [candidate], List.append_assoc .., earlier, ?_⟩
  exact List.forall_mem_append.mpr ⟨later, List.forall_mem_singleton.mpr not_better⟩

/-- The best of integers is the first one of the least score, if a candidate is
better where its score is less. -/
theorem bestOf_int {operation : String} {better : Ordering}
    (scored : ∀ a b : Int64, Ord.compare (nearest a.toInt) (nearest b.toInt) = better ↔
      score a < score b)
    (least : FirstLeast score seen best) :
    ∃ found, bestOf operation better (int best) (rest.map int) = .ok (int found) ∧
      FirstLeast score (seen ++ rest) found := by
  induction rest generalizing seen best with
  | nil => exact ⟨best, rfl, (List.append_nil seen).symm ▸ least⟩
  | cons candidate rest ih =>
    have step : bestOf operation better (int best) ((candidate :: rest).map int) =
        bestOf operation better (if score candidate < score best then int candidate else int best)
          (rest.map int) := by
      rw [List.map_cons, bestOf, compare_int]
      exact congrArg (bestOf operation better · _) (if_congr (scored candidate best) rfl rfl)
    rw [step, List.append_cons]
    by_cases less : score candidate < score best
    · rw [if_pos less]
      exact ih (least.replace less)
    · rw [if_neg less]
      exact ih (least.keep (Int.not_lt.mp less))

/-- A function of several values chooses one of some integers, given as arguments
or as a single list. -/
def Chooses (function : Function) (numbers : List Int64) (best : Int64) : Prop :=
  function.apply (numbers.map int) = .ok (int best) ∧
    function.apply [.list (numbers.map int)] = .ok (int best)

theorem exists_chooses_min (some_numbers : numbers ≠ []) :
    ∃ least, Chooses .min numbers least ∧
      FirstLeast (fun number => nearest number.toInt) numbers least := by
  cases numbers with
  | nil => exact absurd rfl some_numbers
  | cons first rest =>
    obtain ⟨least, found, is_first⟩ :=
      bestOf_int (fun a b => Int.compare_eq_lt) (firstLeast_singleton _ first)
    exact ⟨least, ⟨found, found⟩, is_first⟩

theorem exists_chooses_max (some_numbers : numbers ≠ []) :
    ∃ greatest, Chooses .max numbers greatest ∧
      FirstLeast (fun number => -nearest number.toInt) numbers greatest := by
  cases numbers with
  | nil => exact absurd rfl some_numbers
  | cons first rest =>
    obtain ⟨greatest, found, is_first⟩ :=
      bestOf_int (fun a b => Int.compare_eq_gt.trans Int.neg_lt_neg_iff.symm)
        (firstLeast_singleton _ first)
    exact ⟨greatest, ⟨found, found⟩, is_first⟩

/-- Of a least float, only the numbers that are rounded to it can be less. -/
theorem least_iff (least : ∀ number ∈ numbers, nearest best.toInt ≤ nearest number.toInt) :
    (∀ number ∈ numbers, best.toInt ≤ number.toInt) ↔
      ∀ number ∈ numbers, nearest number.toInt = nearest best.toInt →
        best.toInt ≤ number.toInt := by
  refine ⟨fun exactly number member _ => exactly number member, fun rounded number member => ?_⟩
  rcases Int.lt_or_eq_of_le (least number member) with less | same
  · exact Int.le_of_lt (lt_of_nearest_lt less)
  · exact rounded number member same.symm

/-- Of a greatest float, only the numbers that are rounded to it can be greater. -/
theorem greatest_iff (greatest : ∀ number ∈ numbers, nearest number.toInt ≤ nearest best.toInt) :
    (∀ number ∈ numbers, number.toInt ≤ best.toInt) ↔
      ∀ number ∈ numbers, nearest number.toInt = nearest best.toInt →
        number.toInt ≤ best.toInt := by
  refine ⟨fun exactly number member _ => exactly number member, fun rounded number member => ?_⟩
  rcases Int.lt_or_eq_of_le (greatest number member) with less | same
  · exact Int.le_of_lt (lt_of_nearest_lt less)
  · exact rounded number member same

end Several

/-- **Integers are compared as the floats nearest to them.** So two integers
compare exactly unless different ones are rounded to one float, which those of
up to 53 binary places are not. Of several integers, `min` and `max` choose the
first whose float is least or greatest. That is the exact least or greatest
integer unless another one is rounded to the same float. -/
theorem integers_compare_as_floats (a b : Int64) {numbers : List Int64}
    (some_numbers : numbers ≠ []) :
    ComparesLike a b (nearest a.toInt) (nearest b.toInt) ∧
    (ComparesLike a b a.toInt b.toInt ↔ a = b ∨ nearest a.toInt ≠ nearest b.toInt) ∧
    (a.toInt.natAbs ≤ 2 ^ 53 → b.toInt.natAbs ≤ 2 ^ 53 → ComparesLike a b a.toInt b.toInt) ∧
    (∃ least, Chooses .min numbers least ∧
      FirstLeast (fun number => nearest number.toInt) numbers least ∧
      ((∀ number ∈ numbers, least.toInt ≤ number.toInt) ↔
        ∀ number ∈ numbers, nearest number.toInt = nearest least.toInt →
          least.toInt ≤ number.toInt)) ∧
    ∃ greatest, Chooses .max numbers greatest ∧
      FirstLeast (fun number => -nearest number.toInt) numbers greatest ∧
      ((∀ number ∈ numbers, number.toInt ≤ greatest.toInt) ↔
        ∀ number ∈ numbers, nearest number.toInt = nearest greatest.toInt →
          number.toInt ≤ greatest.toInt) := by
  refine ⟨comparesLike_nearest a b, comparesLike_toInt_iff, fun small_a small_b => ?_, ?_, ?_⟩
  · have compared := comparesLike_nearest a b
    rwa [nearest_eq_self small_a, nearest_eq_self small_b] at compared
  · obtain ⟨least, chosen, is_first⟩ := exists_chooses_min some_numbers
    exact ⟨least, chosen, is_first, least_iff is_first.le⟩
  · obtain ⟨greatest, chosen, is_first⟩ := exists_chooses_max some_numbers
    exact ⟨greatest, chosen, is_first,
      greatest_iff fun number member => Int.neg_le_neg_iff.mp (is_first.le number member)⟩

/-- The least of three small integers, and a comparison of two of them. -/
theorem least_of_three :
    [2, -3, 5] ≠ ([] : List Int64) ∧ BinaryOp.less.apply (int (-3)) (int 2) = .ok (int 1) ∧
      Function.min.apply [int 2, int (-3), int 5] = .ok (int (-3)) := by
  have some_numbers : [2, -3, 5] ≠ ([] : List Int64) := by decide
  obtain ⟨-, -, exactly, ⟨least, found, is_first, -⟩, -⟩ :=
    integers_compare_as_floats (-3) 2 some_numbers
  have small := is_first.le (-3) (by decide)
  have minus_three : least = -3 := by
    have member := is_first.mem
    rw [List.mem_cons, List.mem_cons, List.mem_singleton] at member
    rcases member with rfl | rfl | rfl
    · exact absurd small (by decide)
    · rfl
    · exact absurd small (by decide)
  subst minus_three
  exact ⟨some_numbers, (exactly (by decide) (by decide)).less, found.1⟩

/-- An integer of 54 places counts as equal to the integer before it, which is
the float nearest to it, and as the least of the two if it comes first. -/
theorem neighbours_count_as_equal :
    ¬ ComparesLike 9007199254740993 9007199254740992 9007199254740993 9007199254740992 ∧
      BinaryOp.equal.apply (int 9007199254740993) (int 9007199254740992) = .ok (int 1) ∧
      Function.min.apply [int 9007199254740993, int 9007199254740992] =
        .ok (int 9007199254740993) := by
  have distinct : ¬ ((9007199254740993 : Int64) = 9007199254740992 ∨
      nearest (9007199254740993 : Int64).toInt ≠ nearest (9007199254740992 : Int64).toInt) := by
    decide
  refine ⟨mt comparesLike_toInt_iff.mp distinct, (comparesLike_nearest _ _).equal, ?_⟩
  change bestOf "min" .lt (int 9007199254740993) [int 9007199254740992] = _
  rw [bestOf, compare_int]
  rfl

end FormulaStepper.Value
