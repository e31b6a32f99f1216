import FormulaStepper.Proofs.Value.Comparison
import Mathlib.Data.List.Forall2

/-!
# Equality of lists

The operator `=` compares two numbers by size. It compares anything else kind by
kind, and so the elements of lists at every depth, numbers among them. An
equality that goes through lists by size (`EqualBySize`) would be a congruence:
two lists would be equal where their elements are. The operator agrees with it
except where two numbers in the same place are equal in size only, being of two
kinds or different integers that are rounded to one float (`EqualInSizeOnly`).
Such a pair is equal by itself and makes the lists around it differ
(`lists_are_equal_kind_by_kind`).
-/

set_option autoImplicit false

namespace FormulaStepper.Value

open Decimal Formula

/-- Two numbers are of the same size, but of two kinds or different integers. -/
def EqualInSizeOnly : Value → Value → Prop
  | .int a, .int b => a ≠ b ∧ (Float.ofInt a.toInt == Float.ofInt b.toInt) = true
  | .int a, .decimal y => (Float.ofInt a.toInt == y) = true
  | .decimal x, .int b => (x == Float.ofInt b.toInt) = true
  | _, _ => False

/-- Numbers are equal by size, also inside lists, and anything else is equal
kind by kind. -/
inductive EqualBySize : Value → Value → Prop where
  | null : EqualBySize .null .null
  | numbers {left right : Value} {x y : Float} (first : left.number? = some x)
      (second : right.number? = some y) (same : (x == y) = true) : EqualBySize left right
  | string {text : String} : EqualBySize (.string text) (.string text)
  | list {xs ys : List Value} (items : List.Forall₂ EqualBySize xs ys) :
      EqualBySize (.list xs) (.list ys)

/-- In some place of two values, at any depth, stand numbers that are equal in
size only. -/
inductive SizeOnlyWithin : Value → Value → Prop where
  | here {left right : Value} (numbers : EqualInSizeOnly left right) : SizeOnlyWithin left right
  | inside {xs ys : List Value} {x y : Value} (place : (x, y) ∈ xs.zip ys)
      (within : SizeOnlyWithin x y) : SizeOnlyWithin (.list xs) (.list ys)

section Elements

variable {left right : Value} {xs ys : List Value}

theorem number_beq_self (a : Int64) : (Float.ofInt a.toInt == Float.ofInt a.toInt) = true :=
  ((means_int a).beq_iff (means_int a)).mpr rfl

/-- Outside lists, the two equalities differ on numbers equal in size only. -/
theorem identical_iff_looseEq :
    left.identical right = true ↔ left.looseEq right = true ∧ ¬ EqualInSizeOnly left right := by
  cases left with
  | int a =>
    cases right with
    | int b =>
      simp only [identical, looseEq, number?, EqualInSizeOnly, beq_iff_eq]
      constructor
      · rintro rfl
        exact ⟨number_beq_self a, fun only => only.1 rfl⟩
      · rintro ⟨same, distinct⟩
        exact not_not.mp fun other => distinct ⟨other, same⟩
    | null | decimal y | string t | list ys => simp [identical, looseEq, number?, EqualInSizeOnly]
  | null | decimal x | string s | list xs =>
    cases right <;> simp [identical, looseEq, number?, EqualInSizeOnly]

theorem identicalItems_iff :
    identicalItems xs ys = true ↔ List.Forall₂ (fun x y => x.identical y = true) xs ys := by
  induction xs generalizing ys with
  | nil => cases ys <;> simp [identicalItems]
  | cons x xs ih => cases ys <;> simp [identicalItems, ih]

theorem forall₂_identical_iff :
    List.Forall₂ (fun x y => x.identical y = true) xs ys ↔
      List.Forall₂ (fun x y => x.looseEq y = true) xs ys ∧
        ¬ ∃ pair ∈ xs.zip ys, EqualInSizeOnly pair.1 pair.2 := by
  simp only [List.forall₂_iff_zip, identical_iff_looseEq]
  constructor
  · rintro ⟨same_length, items⟩
    refine ⟨⟨same_length, fun place => (items place).1⟩, ?_⟩
    rintro ⟨⟨x, y⟩, place, only⟩
    exact (items place).2 only
  · rintro ⟨⟨same_length, items⟩, nowhere⟩
    exact ⟨same_length, fun place => ⟨items place, fun only => nowhere ⟨_, place, only⟩⟩⟩

end Elements

/-! ## Places at any depth -/

section Depth

variable {left right : Value} {xs ys : List Value}

theorem sizeOnlyWithin_list_iff :
    SizeOnlyWithin (.list xs) (.list ys) ↔ ∃ pair ∈ xs.zip ys, SizeOnlyWithin pair.1 pair.2 := by
  constructor
  · intro within
    cases within with
    | here numbers => exact numbers.elim
    | inside place within => exact ⟨_, place, within⟩
  · rintro ⟨⟨x, y⟩, place, within⟩
    exact .inside place within

theorem equalBySize_list_iff :
    EqualBySize (.list xs) (.list ys) ↔ List.Forall₂ EqualBySize xs ys := by
  constructor
  · intro equal
    cases equal with
    | numbers first _ _ => cases first
    | list items => exact items
  · exact .list

/-- Two values of which one is no list. -/
def NotBothLists (left right : Value) : Prop :=
  ∀ xs ys, left = .list xs → right ≠ .list ys

theorem equalBySize_iff_looseEq (scalar : NotBothLists left right) :
    EqualBySize left right ↔ left.looseEq right = true := by
  constructor
  · intro equal
    cases equal with
    | null => rfl
    | numbers first second same => simp only [looseEq, first, second, same]
    | string => simp [looseEq, number?, identical]
    | list items => exact absurd rfl (scalar _ _ rfl)
  · intro equal
    unfold looseEq at equal
    split at equal
    · next first second => exact .numbers first second equal
    · next not_numbers =>
      unfold identical at equal
      split at equal
      · exact .null
      · exact absurd rfl (not_numbers _ _ rfl)
      · exact absurd rfl (not_numbers _ _ rfl)
      · exact beq_iff_eq.mp equal ▸ .string
      · exact absurd rfl (scalar _ _ rfl)
      · cases equal

theorem sizeOnlyWithin_iff (scalar : NotBothLists left right) :
    SizeOnlyWithin left right ↔ EqualInSizeOnly left right := by
  constructor
  · intro within
    cases within with
    | here numbers => exact numbers
    | inside => exact absurd rfl (scalar _ _ rfl)
  · exact .here

theorem identical_iff_of_scalar (scalar : NotBothLists left right) :
    left.identical right = true ↔ EqualBySize left right ∧ ¬ SizeOnlyWithin left right := by
  rw [identical_iff_looseEq, equalBySize_iff_looseEq scalar, sizeOnlyWithin_iff scalar]

mutual

/-- Equality kind by kind is equality by size without numbers that are equal in
size only. -/
theorem identical_iff : ∀ left right : Value,
    left.identical right = true ↔ EqualBySize left right ∧ ¬ SizeOnlyWithin left right
  | .list xs, .list ys => by
    rw [equalBySize_list_iff, sizeOnlyWithin_list_iff]
    exact identicalItems_iff_equalBySize xs ys
  | .list _, .null | .list _, .int _ | .list _, .decimal _ | .list _, .string _ =>
    identical_iff_of_scalar fun _ _ _ same => by cases same
  | .null, _ | .int _, _ | .decimal _, _ | .string _, _ =>
    identical_iff_of_scalar fun _ _ same => by cases same

theorem identicalItems_iff_equalBySize : ∀ xs ys : List Value,
    identicalItems xs ys = true ↔
      List.Forall₂ EqualBySize xs ys ∧ ¬ ∃ pair ∈ xs.zip ys, SizeOnlyWithin pair.1 pair.2
  | [], [] => by simp [identicalItems]
  | [], y :: ys => by simp [identicalItems]
  | x :: xs, [] => by simp [identicalItems]
  | x :: xs, y :: ys => by
    have first := identical_iff x y
    have rest := identicalItems_iff_equalBySize xs ys
    rw [identicalItems, Bool.and_eq_true, first, rest, List.forall₂_cons, List.zip_cons_cons,
      List.exists_mem_cons_iff, not_or]
    exact and_and_and_comm

end

end Depth

/-- **Lists are equal kind by kind, also where they hold numbers.** The operators
`=` and `!=` compare two lists as equal or not. They are equal if and only if
their elements are, one by one, and no two of these are equal in size only. So
lists whose elements are equal one by one are told apart exactly when two
elements in the same place are equal in size only. At every depth, lists are equal
if and only if they are so by size and nowhere hold numbers that are equal in
size only. -/
theorem lists_are_equal_kind_by_kind (xs ys : List Value) :
    ∃ equal : Bool, (list xs).looseEq (list ys) = equal ∧
      BinaryOp.equal.apply (list xs) (list ys) = .ok (.ofBool equal) ∧
      BinaryOp.notEqual.apply (list xs) (list ys) = .ok (.ofBool !equal) ∧
      (equal = true ↔ List.Forall₂ (fun x y => x.looseEq y = true) xs ys ∧
        ¬ ∃ pair ∈ xs.zip ys, EqualInSizeOnly pair.1 pair.2) ∧
      (¬ (equal = true ↔ List.Forall₂ (fun x y => x.looseEq y = true) xs ys) ↔
        List.Forall₂ (fun x y => x.looseEq y = true) xs ys ∧
          ∃ pair ∈ xs.zip ys, EqualInSizeOnly pair.1 pair.2) ∧
      (equal = true ↔ EqualBySize (list xs) (list ys) ∧ ¬ SizeOnlyWithin (list xs) (list ys)) := by
  have by_kind : (list xs).looseEq (list ys) = (list xs).identical (list ys) := rfl
  have elements : (list xs).looseEq (list ys) = true ↔
      List.Forall₂ (fun x y => x.looseEq y = true) xs ys ∧
        ¬ ∃ pair ∈ xs.zip ys, EqualInSizeOnly pair.1 pair.2 := by
    rw [by_kind, identical, identicalItems_iff, forall₂_identical_iff]
  refine ⟨_, rfl, rfl, rfl, elements, ?_, ?_⟩
  · rw [elements, and_iff_left_iff_imp, Classical.not_imp, not_not]
  · rw [by_kind]
    exact identical_iff _ _

/-- One equals the decimal one, but a list of one does not equal a list of the
decimal one, at any depth. Also different integers of one float are equal, and
lists of them are not. -/
theorem listOfOne_ne_listOfDecimal :
    (int 1).looseEq (decimal 1.0) = true ∧
      ¬ ((list [int 1]).looseEq (list [decimal 1.0]) = true ↔
        List.Forall₂ (fun x y => x.looseEq y = true) [int 1] [decimal 1.0]) ∧
      BinaryOp.equal.apply (list [int 1]) (list [decimal 1.0]) = .ok (int 0) ∧
      BinaryOp.equal.apply (list [list [int 1]]) (list [list [decimal 1.0]]) = .ok (int 0) ∧
      (int 9007199254740993).looseEq (int 9007199254740992) = true ∧
      BinaryOp.equal.apply (list [int 9007199254740993]) (list [int 9007199254740992]) =
        .ok (int 0) := by
  have one : (int 1).looseEq (decimal 1.0) = true := by decide
  have apart : (list [int 1]).looseEq (list [decimal 1.0]) = false := by decide
  refine ⟨one, ?_, rfl, rfl, ?_, rfl⟩
  · rw [apart]
    exact fun law => absurd (law.mpr (.cons one .nil)) Bool.false_ne_true
  · rw [looseEq_int]
    decide

end FormulaStepper.Value
