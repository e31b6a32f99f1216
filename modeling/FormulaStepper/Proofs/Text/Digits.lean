import FormulaStepper.Text.Blank
import Mathlib.Data.Nat.Digits.Defs

/-!
# Decimal digits

The digits of a number read as that number, whichever reader takes them one by
one: what the first digits stand for is never more than the whole
(`le_ofDigitChars`), so a reader with a greatest number does not stop early.
There is no zero in front unless the number is zero. The text of an integer is its
digits behind a sign, if it has one (`toList_toString_int`).

Digits, letters and blanks have their codes in ranges. That two of these classes
have no character in common is then a matter of numbers.
-/

set_option autoImplicit false

namespace FormulaStepper.Text

/-! ## Codes -/

section Codes

variable {c : Char}

theorem toNat_of_isDigit (digit : c.isDigit = true) : 48 ≤ c.toNat ∧ c.toNat ≤ 57 :=
  Char.isDigit_iff_toNat.mp digit

theorem toNat_of_isAlpha (letter : c.isAlpha = true) :
    (65 ≤ c.toNat ∧ c.toNat ≤ 90) ∨ (97 ≤ c.toNat ∧ c.toNat ≤ 122) := by
  rcases Bool.or_eq_true_iff.mp letter with capital | small
  · exact .inl (of_decide_eq_true capital)
  · obtain ⟨least, greatest⟩ := Bool.and_eq_true_iff.mp small
    exact .inr ⟨of_decide_eq_true least, of_decide_eq_true greatest⟩

/-- Among the visible ASCII characters there is no blank. -/
theorem toNat_of_isBlank (blank : isBlank c = true) : c.toNat ≤ 32 ∨ 127 ≤ c.toNat := by
  simp only [isBlank, inRanges, blankRanges, List.any_cons, List.any_nil, Bool.or_false,
    Bool.or_eq_true, Bool.and_eq_true, decide_eq_true_eq] at blank
  omega

theorem isBlank_of_isDigit (digit : c.isDigit = true) : isBlank c = false := by
  rw [Bool.eq_false_iff]
  intro blank
  have digit_code := toNat_of_isDigit digit
  have blank_code := toNat_of_isBlank blank
  omega

end Codes

/-! ## Numbers -/

theorem isDigit_of_mem_toDigits {n : Nat} {c : Char} (member : c ∈ Nat.toDigits 10 n) :
    c.isDigit = true :=
  Nat.isDigit_of_mem_toDigits (by decide) (by decide) member

theorem le_ofDigitChars (digits : List Char) (n : Nat) : n ≤ Nat.ofDigitChars 10 digits n := by
  rw [Nat.ofDigitChars_eq_ofDigitChars_zero]
  exact Nat.le_add_right_of_le (Nat.le_mul_of_pos_left n (Nat.pow_pos (by decide)))

/-- The digits of a positive number do not begin with a zero. -/
theorem exists_toDigits_eq_cons {n : Nat} (positive : 0 < n) :
    ∃ c rest, Nat.toDigits 10 n = c :: rest ∧ c ≠ '0' := by
  induction n using Nat.strong_induction_on with
  | _ n ih =>
    rcases Nat.lt_or_ge n 10 with small | large
    · have nonzero : ∀ n < 10, 0 < n → n.digitChar ≠ '0' := by decide
      exact ⟨n.digitChar, [], Nat.toDigits_of_lt_base small, nonzero n small positive⟩
    · obtain ⟨c, rest, digits, nonzero⟩ := ih (n / 10) (by omega) (by omega)
      refine ⟨c, rest ++ [(n % 10).digitChar], ?_, nonzero⟩
      rw [Nat.toDigits_of_base_le (by decide) large, digits, List.cons_append]

/-- The text of an integer is a sign, if it is negative, and its digits. -/
theorem toList_toString_int (n : Int) :
    (toString n).toList = (if n < 0 then ['-'] else []) ++ Nat.toDigits 10 n.natAbs := by
  rw [Int.toString_eq_repr, Int.repr_eq_if]
  rcases Int.lt_or_le n 0 with negative | positive
  · have size : (-n).toNat = n.natAbs := by omega
    rw [if_neg (by omega), if_pos negative, size, Nat.repr_eq_ofList_toDigits]
    simp
  · have size : n.toNat = n.natAbs := by omega
    rw [if_pos positive, if_neg (by omega), size, Nat.repr_eq_ofList_toDigits]
    simp

end FormulaStepper.Text
