import Mathlib.Algebra.Order.Ring.Int
import Mathlib.Algebra.Ring.Parity
import FormulaStepper.Evaluation.Operation
import FormulaStepper.Proofs.Decimal.Conversion

/-!
# Integer arithmetic

An operation on two 64-bit integers gives its exact result if that is a 64-bit
integer, and an overflow if it is not (`ComesTo`). Division truncates toward
zero, and the remainder has the sign of the dividend (`TruncatedDivision`). Two
operations overflow in further cases. A remainder goes with its division, so it
overflows where the quotient does; and a power is not computed for exponents
that do not fit into 32 bits.
-/

set_option autoImplicit false

namespace FormulaStepper.Value

/-- The outcome of an operation on integers: its exact result, if the operation
is carried out and the result is a 64-bit integer, and else an overflow. -/
structure ComesTo (operation : String) (carried_out : Prop) (exact : Int)
    (outcome : Except EvalError Value) : Prop where
  ok_iff : ∀ value, outcome = .ok value ↔
    carried_out ∧ ∃ result : Int64, value = .int result ∧ result.toInt = exact
  error_iff : ∀ error, outcome = .error error ↔
    error = .overflow operation ∧ ¬ (carried_out ∧ ∃ result : Int64, result.toInt = exact)

/-- A quotient that is truncated toward zero, with its remainder. -/
structure TruncatedDivision (dividend divisor quotient remainder : Int) : Prop where
  whole : dividend = divisor * quotient + remainder
  smaller : remainder.natAbs < divisor.natAbs
  sign : remainder = 0 ∨ remainder.sign = dividend.sign

/-! ## Results -/

section Results

variable {operation : String} {n : Int} {carried_out : Prop}

theorem fits_iff : fits n = true ↔ ∃ result : Int64, result.toInt = n := by
  rw [fits, Bool.and_eq_true, decide_eq_true_iff, decide_eq_true_iff, leastInt, greatestInt]
  constructor
  · rintro ⟨least, greatest⟩
    exact ⟨Int64.ofInt n, Int64.toInt_ofInt_of_le (by omega) (by omega)⟩
  · rintro ⟨result, rfl⟩
    have least := result.le_toInt
    have greatest := result.toInt_lt
    omega

theorem toInt_ofInt_of_fits (in_range : fits n = true) : (Int64.ofInt n).toInt = n := by
  obtain ⟨result, rfl⟩ := fits_iff.mp in_range
  rw [Int64.ofInt_toInt]

/-- Where an operation is carried out, its outcome is what `exact` makes of the
result. -/
theorem comesTo_exact (holds : carried_out) :
    ComesTo operation carried_out n (exact operation n) := by
  by_cases in_range : fits n = true
  · rw [exact, if_pos in_range]
    refine ⟨fun value => ⟨?_, ?_⟩, fun error => ⟨nofun, ?_⟩⟩
    · rintro ⟨⟩
      exact ⟨holds, _, rfl, toInt_ofInt_of_fits in_range⟩
    · rintro ⟨-, result, rfl, rfl⟩
      rw [Int64.ofInt_toInt]
    · rintro ⟨-, refused⟩
      exact absurd ⟨holds, fits_iff.mp in_range⟩ refused
  · have out_of_range := fun result => in_range (fits_iff.mpr result)
    rw [exact, if_neg in_range]
    refine ⟨fun value => ⟨nofun, ?_⟩, fun error => ⟨?_, ?_⟩⟩
    · rintro ⟨-, result, -, same⟩
      exact absurd ⟨result, same⟩ out_of_range
    · rintro ⟨⟩
      exact ⟨rfl, fun carried => out_of_range carried.2⟩
    · rintro ⟨rfl, -⟩
      rfl

theorem comesTo_overflow (refused : ¬ (carried_out ∧ ∃ result : Int64, result.toInt = n)) :
    ComesTo operation carried_out n (.error (.overflow operation)) := by
  refine ⟨fun value => ⟨nofun, ?_⟩, fun error => ⟨?_, ?_⟩⟩
  · rintro ⟨holds, result, -, same⟩
    exact absurd ⟨holds, result, same⟩ refused
  · rintro ⟨⟩
    exact ⟨rfl, refused⟩
  · rintro ⟨rfl, -⟩
    rfl

end Results

/-! ## Division -/

section Division

variable {a b : Int64}

theorem means_int (n : Int64) : Decimal.Means (Float.ofInt n.toInt) (Decimal.nearest n.toInt) := by
  have least := n.le_toInt
  have greatest := n.toInt_lt
  exact Decimal.means_ofInt (by omega)

/-- No integer but zero is taken for zero, although integers are compared with
it as floats. -/
theorem isZero_int : (int b).isZero = true ↔ b = 0 := by
  have equal := (means_int b).beq_iff Decimal.means_zero
  rw [Decimal.nearest_eq_zero_iff] at equal
  exact equal.trans ⟨fun zero => Int64.toInt.inj zero, congrArg Int64.toInt⟩

theorem truncatedDivision (a : Int) {b : Int} (nonzero : b ≠ 0) :
    TruncatedDivision a b (a.tdiv b) (a.tmod b) where
  whole := (Int.mul_tdiv_add_tmod a b).symm
  smaller := by
    rw [Int.natAbs_tmod]
    exact Nat.mod_lt _ (Int.natAbs_pos.mpr nonzero)
  sign := by
    rw [Int.sign_tmod]
    split
    next divides => exact .inl (Int.tmod_eq_zero_of_dvd divides)
    next => exact .inr rfl

theorem div_int (nonzero : b ≠ 0) :
    ComesTo "/" True (a.toInt.tdiv b.toInt) ((int a).div (int b)) := by
  rw [div, if_neg (mt isZero_int.mp nonzero)]
  exact comesTo_exact trivial

theorem div_eq_divisionByZero_iff :
    (int a).div (int b) = .error (.divisionByZero "/") ↔ b = 0 := by
  constructor
  · intro refused
    by_contra nonzero
    cases (((div_int nonzero).error_iff _).mp refused).1
  · intro zero
    rw [div, if_pos (isZero_int.mpr zero)]

theorem rem_int (nonzero : b ≠ 0) :
    ComesTo "%" (∃ quotient : Int64, quotient.toInt = a.toInt.tdiv b.toInt)
      (a.toInt.tmod b.toInt) ((int a).rem (int b)) := by
  rw [rem, if_neg nonzero]
  split
  next in_range => exact comesTo_exact (fits_iff.mp in_range)
  next out_of_range => exact comesTo_overflow fun carried => out_of_range (fits_iff.mpr carried.1)

theorem rem_eq_divisionByZero_iff :
    (int a).rem (int b) = .error (.divisionByZero "%") ↔ b = 0 := by
  constructor
  · intro refused
    by_contra nonzero
    cases (((rem_int nonzero).error_iff _).mp refused).1
  · rintro rfl
    rfl

end Division

/-! ## Powers -/

section Powers

variable {base : Int} {exponent : Nat}

/-- Zero, one and minus one have only two powers each. -/
theorem pow_eq_of_natAbs_le_one (small : base.natAbs ≤ 1) (positive : exponent ≠ 0) :
    base ^ (2 - exponent % 2) = base ^ exponent := by
  have bit := Nat.mod_two_eq_zero_or_one exponent
  have cases_of_small : base = 0 ∨ base = 1 ∨ base = -1 := by omega
  rcases cases_of_small with rfl | rfl | rfl
  · rw [zero_pow positive, zero_pow (by omega)]
  · rw [one_pow, one_pow]
  · rw [neg_one_pow_eq_pow_mod_two exponent]
    rcases bit with even | odd
    · rw [even]
      rfl
    · rw [odd]

/-- From the 64th power on, the powers of other integers are too great. -/
theorem pow_out_of_range (large : 2 ≤ base.natAbs) (many : 64 ≤ exponent) (result : Int64) :
    result.toInt ≠ base ^ exponent := by
  intro same
  have size : 2 ^ 64 ≤ (base ^ exponent).natAbs := by
    rw [Int.natAbs_pow]
    calc 2 ^ 64 ≤ 2 ^ exponent := Nat.pow_le_pow_right (by decide) many
      _ ≤ base.natAbs ^ exponent := Nat.pow_le_pow_left large exponent
  have least := result.le_toInt
  have greatest := result.toInt_lt
  rw [← same] at size
  omega

theorem intPower_comesTo :
    ComesTo "^" (exponent ≤ greatestExponent) (base ^ exponent) (intPower base exponent) := by
  rw [intPower]
  split
  next too_great => exact comesTo_overflow fun carried => Nat.not_lt.mpr carried.1 too_great
  next not_too_great =>
    have carried := Nat.le_of_not_lt not_too_great
    split
    next few => exact comesTo_exact carried
    next many =>
      have many := Nat.le_of_not_lt many
      split
      next small =>
        have positive : 0 < exponent := Nat.lt_of_lt_of_le (by decide) many
        rw [← pow_eq_of_natAbs_le_one small positive.ne']
        exact comesTo_exact carried
      next large =>
        have large := Nat.lt_of_not_le large
        exact comesTo_overflow fun ⟨_, result, same⟩ => pow_out_of_range large many result same

end Powers

/-- **Integer arithmetic is exact or reports an overflow.** -/
theorem integer_arithmetic_is_exact (a b : Int64) :
    ComesTo "+" True (a.toInt + b.toInt) ((int a).add (int b)) ∧
    ComesTo "-" True (a.toInt - b.toInt) ((int a).sub (int b)) ∧
    ComesTo "*" True (a.toInt * b.toInt) ((int a).mul (int b)) ∧
    ComesTo "-" True (-a.toInt) (int a).neg ∧
    ComesTo "abs" True a.toInt.natAbs (Formula.Function.abs.apply [int a]) ∧
    ((int a).div (int b) = .error (.divisionByZero "/") ↔ b = 0) ∧
    ((int a).rem (int b) = .error (.divisionByZero "%") ↔ b = 0) ∧
    (b ≠ 0 → ∃ quotient remainder,
      TruncatedDivision a.toInt b.toInt quotient remainder ∧
      ComesTo "/" True quotient ((int a).div (int b)) ∧
      ComesTo "%" (∃ result : Int64, result.toInt = quotient) remainder ((int a).rem (int b))) ∧
    (0 ≤ b.toInt →
      ComesTo "^" (b.toInt ≤ 0xFFFFFFFF) (a.toInt ^ b.toInt.toNat) ((int a).pow (int b))) := by
  refine ⟨comesTo_exact trivial, comesTo_exact trivial, comesTo_exact trivial,
    comesTo_exact trivial, comesTo_exact trivial, div_eq_divisionByZero_iff,
    rem_eq_divisionByZero_iff, fun nonzero => ?_, fun natural => ?_⟩
  · have nonzero' : b.toInt ≠ 0 := fun zero => nonzero (Int64.toInt.inj zero)
    exact ⟨_, _, truncatedDivision a.toInt nonzero', div_int nonzero, rem_int nonzero⟩
  · have few : b.toInt ≤ 0xFFFFFFFF ↔ b.toInt.toNat ≤ greatestExponent := by
      rw [greatestExponent]
      omega
    rw [pow, if_pos natural, few]
    exact intPower_comesTo

/-- A quotient is truncated toward zero, and its remainder is negative like the
dividend. -/
theorem quotient_of_minus_seven :
    (int (-7)).div (int 2) = .ok (int (-3)) ∧ (int (-7)).rem (int 2) = .ok (int (-1)) ∧
      (int (-7)).pow (int 2) = .ok (int 49) := by
  obtain ⟨-, -, -, -, -, -, -, division, power⟩ := integer_arithmetic_is_exact (-7) 2
  obtain ⟨quotient, remainder, ⟨whole, smaller, sign⟩, div, rem⟩ := division (by decide)
  have dividend : (-7 : Int64).toInt = -7 := by decide
  have divisor : (2 : Int64).toInt = 2 := by decide
  rw [dividend, divisor] at whole
  rw [divisor] at smaller
  rw [dividend] at sign
  have negative : remainder = -1 := by
    have cases_of_smaller : remainder = 0 ∨ remainder = 1 ∨ remainder = -1 := by omega
    rcases cases_of_smaller with rfl | rfl | rfl
    · omega
    · exact absurd sign (by decide)
    · rfl
  have truncated : quotient = -3 := by omega
  subst negative truncated
  exact ⟨(div.ok_iff _).mpr ⟨trivial, -3, rfl, by decide⟩,
    (rem.ok_iff _).mpr ⟨⟨-3, by decide⟩, -1, rfl, by decide⟩,
    ((power (by decide)).ok_iff _).mpr ⟨by decide, 49, rfl, by decide⟩⟩

/-- Two exact results that are 64-bit integers, and that are refused as overflows:
the remainder of the least integer by minus one, and one to a power whose
exponent takes 33 bits. -/
theorem exact_results_refused :
    TruncatedDivision Int64.minValue.toInt (-1 : Int64).toInt (2 ^ 63) 0 ∧
      ¬ ComesTo "%" True 0 ((int Int64.minValue).rem (int (-1))) ∧
      ¬ ComesTo "^" True (1 ^ 0x100000000) ((int 1).pow (int 0x100000000)) := by
  refine ⟨⟨by decide, by decide, .inl rfl⟩, fun claimed => ?_, fun claimed => ?_⟩
  · exact ((claimed.error_iff _).mp rfl).2 ⟨trivial, 0, rfl⟩
  · exact ((claimed.error_iff _).mp rfl).2 ⟨trivial, 1, (one_pow _).symm⟩

end FormulaStepper.Value
