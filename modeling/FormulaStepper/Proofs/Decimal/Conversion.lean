import Mathlib
import FormulaStepper.Proofs.Decimal.Rounding

/-!
# Integers as floats

The float of an integer is the nearest one (`means_ofInt`). Floats are made
from integers by shifting a mantissa to the right, while two bits keep account
of what falls off (`Tracks`), and by rounding once at the end. A float that is
a whole number stands for it with a mantissa of exactly 53 places (`Stands`).
So packing it loses nothing, and two such floats compare like the numbers that
they stand for (`Stands.compare`).
-/

set_option autoImplicit false

namespace FormulaStepper.Decimal

open Float.Model Float.Model.UnpackedFloat

/-! ## Shifting a mantissa -/

section Shifting

variable {n places : Nat} {extended : ExtendedMantissa}

/-- A mantissa that a number was shifted to, with what fell off: whether it was
at least a half, and whether it was anything else than a half or nothing. -/
structure Tracks (n places : Nat) (extended : ExtendedMantissa) : Prop where
  mantissa : extended.mantissa = n / 2 ^ places
  roundBit : extended.roundBit = decide (2 ^ places ≤ 2 * (n % 2 ^ places))
  stickyBit : extended.stickyBit =
    decide (n % 2 ^ places ≠ 0 ∧ 2 * (n % 2 ^ places) ≠ 2 ^ places)

theorem Tracks.shiftRightOne (tracks : Tracks n places extended) :
    Tracks n (places + 1) extended.shiftRightOne := by
  have rest := Nat.mod_lt n (Nat.two_pow_pos places)
  have further : n % 2 ^ (places + 1) = n % 2 ^ places + 2 ^ places * (n / 2 ^ places % 2) :=
    Nat.mod_pow_succ
  refine ⟨?_, ?_, ?_⟩
  · rw [ExtendedMantissa.shiftRightOne, tracks.mantissa, Nat.div_div_eq_div_mul, pow_succ]
  · rw [ExtendedMantissa.shiftRightOne, tracks.mantissa, further, pow_succ]
    rcases Nat.mod_two_eq_zero_or_one (n / 2 ^ places) with bit | bit
    · rw [bit, Nat.mul_zero]
      exact (decide_eq_false (by omega)).symm
    · rw [bit, Nat.mul_one]
      exact (decide_eq_true (by omega)).symm
  · rw [ExtendedMantissa.shiftRightOne, tracks.roundBit, tracks.stickyBit, further, pow_succ,
      ← Bool.decide_or, decide_eq_decide]
    rcases Nat.mod_two_eq_zero_or_one (n / 2 ^ places) with bit | bit
    · rw [bit, Nat.mul_zero]
      omega
    · rw [bit, Nat.mul_one]
      omega

theorem tracks_shiftRight (n places : Nat) :
    Tracks n places (ExtendedMantissa.mk n false false >>> places) := by
  induction places with
  | zero =>
    refine ⟨(Nat.div_one n).symm, ?_, ?_⟩
    · rw [pow_zero, Nat.mod_one]
      rfl
    · rw [pow_zero, Nat.mod_one]
      rfl
  | succ places ih => exact ih.shiftRightOne

/-- The two bits are all that rounding needs to know. -/
theorem Tracks.roundedMantissa (tracks : Tracks n places extended) :
    extended.roundedMantissa = roundedUnits n places := by
  obtain ⟨mantissa, roundBit, stickyBit⟩ := extended
  obtain ⟨(rfl : mantissa = _), (half : roundBit = _), (more : stickyBit = _)⟩ := tracks
  have positive := Nat.two_pow_pos places
  rcases Nat.lt_trichotomy (2 * (n % 2 ^ places)) (2 ^ places) with below | even | above
  · rw [decide_eq_false (by omega)] at half
    subst half
    rw [roundedUnits, if_pos below]
    cases stickyBit <;> rfl
  · rw [decide_eq_true (by omega)] at half
    rw [decide_eq_false (by omega)] at more
    subst half more
    rw [roundedUnits, if_neg (by omega), if_pos even]
    rfl
  · rw [decide_eq_true (by omega)] at half
    rw [decide_eq_true (by omega)] at more
    subst half more
    rw [roundedUnits, if_neg (by omega), if_neg (by omega)]
    rfl

end Shifting

/-! ## Floats that are whole numbers -/

/-- A mantissa of exactly 53 places, in units of `2 ^ (scale - 52)`, is a whole
number. -/
structure Normal (mantissa scale n : Nat) : Prop where
  least : 2 ^ 52 ≤ mantissa
  most : mantissa < 2 ^ 53
  in_range : scale ≤ 1023
  whole : mantissa * 2 ^ scale = n * 2 ^ 52

theorem Normal.mantissa_pos {mantissa scale n : Nat} (normal : Normal mantissa scale n) :
    0 < mantissa :=
  Nat.lt_of_lt_of_le (Nat.two_pow_pos 52) normal.least

theorem Normal.log2_eq {mantissa scale n : Nat} (normal : Normal mantissa scale n) :
    mantissa.log2 = 52 :=
  (Nat.log2_eq_iff normal.mantissa_pos.ne').mpr ⟨normal.least, normal.most⟩

theorem Normal.pos {mantissa scale n : Nat} (normal : Normal mantissa scale n) : 0 < n := by
  have positive := Nat.mul_pos normal.mantissa_pos (Nat.two_pow_pos scale)
  rw [normal.whole] at positive
  exact Nat.pos_of_mul_pos_right positive

/-- An unpacked float is a whole number. -/
inductive Stands : UnpackedFloat → Int → Prop where
  | zero (sign : Sign) : Stands (.zero sign) 0
  | finite (sign : Sign) {mantissa scale n : Nat} (normal : Normal mantissa scale n) :
      Stands (.finite sign mantissa (scale - 52) normal.mantissa_pos) (sign.apply n)

section Packing

/-- The leading one of a mantissa is not packed. -/
theorem toNat_one_append (fraction : BitVec 52) :
    (1#1 ++ fraction).toNat = 2 ^ 52 + fraction.toNat := by
  rw [BitVec.toNat_append, ← Nat.shiftLeft_add_eq_or_of_lt fraction.isLt]
  rfl

theorem exponentBias_binary64 : Format.binary64.exponentBias = 1023 := rfl

variable {mantissa scale n : Nat}

theorem Normal.pack (normal : Normal mantissa scale n) (sign : Sign) :
    UnpackedFloat.pack Format.binary64 (.finite sign mantissa (scale - 52) normal.mantissa_pos) =
      packComponents Format.binary64 sign (BitVec.ofNat _ (scale + 1023))
        (BitVec.ofNat _ mantissa) := by
  have in_range := normal.in_range
  have biased : ((scale : Int) - 52 + (1023 : Nat) + (52 : Nat)).toNat = scale + 1023 := by
    omega
  simp only [UnpackedFloat.pack, exponentBias_binary64, biased, normal.log2_eq]
  rw [if_neg (by omega)]
  exact if_pos (rfl : 52 + 1 = Format.binary64.mantissaBits)

/-- Packing loses nothing. -/
theorem Normal.unpack_pack (normal : Normal mantissa scale n) (sign : Sign) :
    UnpackedFloat.unpack Format.binary64 (UnpackedFloat.pack Format.binary64
        (.finite sign mantissa (scale - 52) normal.mantissa_pos)) =
      .finite sign mantissa (scale - 52) normal.mantissa_pos := by
  have in_range := normal.in_range
  have exponent : (BitVec.ofNat 11 (scale + 1023)).toNat = scale + 1023 :=
    Nat.mod_eq_of_lt (by omega)
  have not_least : BitVec.ofNat 11 (scale + 1023) ≠ 0#11 := by
    intro same
    have zero := congrArg BitVec.toNat same
    rw [exponent] at zero
    exact Nat.succ_ne_zero _ zero
  have not_greatest : BitVec.ofNat 11 (scale + 1023) ≠ -1#11 := by
    intro same
    have greatest : scale + 1023 = 2047 := exponent.symm.trans (congrArg BitVec.toNat same)
    omega
  have fraction : (1#1 ++ BitVec.ofNat 52 mantissa).toNat = mantissa := by
    have least := normal.least
    have most := normal.most
    rw [toNat_one_append, BitVec.toNat_ofNat]
    omega
  have place : ((scale + 1023 : Nat) : Int) - ((1023 : Nat) + (52 : Nat)) = scale - 52 := by
    omega
  rw [normal.pack, UnpackedFloat.unpack]
  simp only [unpackMantissa_packComponents, unpackExponent_packComponents,
    unpackSign_packComponents, Sign.ofBitVec_toBitVec]
  rw [if_neg not_greatest, if_neg not_least]
  simp only [exponent, fraction, exponentBias_binary64, place]

theorem Stands.unpack_pack {x : UnpackedFloat} {n : Int} (stands : Stands x n) :
    UnpackedFloat.unpack Format.binary64 (UnpackedFloat.pack Format.binary64 x) = x := by
  cases stands with
  | zero sign => cases sign <;> rfl
  | finite sign normal => exact normal.unpack_pack sign

end Packing

section Comparing

theorem apply_neg (sign : Sign) (n : Int) : (-sign).apply n = -sign.apply n := by
  cases sign with
  | positive => rfl
  | negative => exact (Int.neg_neg n).symm

theorem Stands.neg {x : UnpackedFloat} {n : Int} (stands : Stands x n) : Stands x.neg (-n) := by
  cases stands with
  | zero sign => exact .zero _
  | finite sign normal =>
    rw [← apply_neg]
    exact .finite (-sign) normal

variable {mantissa scale m other place n : Nat}

/-- A number of a greater scale is greater. -/
theorem Normal.lt_of_scale_lt (left : Normal mantissa scale m) (right : Normal other place n)
    (less : scale < place) : m < n := by
  have places : 53 + scale = 52 + (scale + 1) := by omega
  refine Nat.lt_of_mul_lt_mul_right (a := 2 ^ 52) ?_
  rw [← left.whole, ← right.whole]
  calc mantissa * 2 ^ scale < 2 ^ 53 * 2 ^ scale :=
        Nat.mul_lt_mul_of_pos_right left.most (Nat.two_pow_pos scale)
    _ = 2 ^ 52 * 2 ^ (scale + 1) := by rw [← pow_add, ← pow_add, places]
    _ ≤ 2 ^ 52 * 2 ^ place := Nat.mul_le_mul_left _ (Nat.pow_le_pow_right (by decide) less)
    _ ≤ other * 2 ^ place := Nat.mul_le_mul_right _ right.least

theorem Normal.lt_of_mantissa_lt (left : Normal mantissa scale m) (right : Normal other scale n)
    (less : mantissa < other) : m < n := by
  refine Nat.lt_of_mul_lt_mul_right (a := 2 ^ 52) ?_
  rw [← left.whole, ← right.whole]
  exact Nat.mul_lt_mul_of_pos_right less (Nat.two_pow_pos scale)

/-- Scales come before mantissas. -/
theorem Normal.compare (left : Normal mantissa scale m) (right : Normal other place n) :
    (Ord.compare ((scale : Int) - 52) (place - 52)).then (Ord.compare mantissa other) =
      Ord.compare (m : Int) n := by
  rcases Nat.lt_trichotomy scale place with less | rfl | more
  · rw [Int.compare_eq_lt.mpr (Int.sub_lt_sub_right (Int.ofNat_lt.mpr less) 52),
      Int.compare_eq_lt.mpr (Int.ofNat_lt.mpr (left.lt_of_scale_lt right less))]
    rfl
  · rw [Int.compare_eq_eq.mpr rfl, Ordering.then]
    rcases Nat.lt_trichotomy mantissa other with less | rfl | more
    · rw [Nat.compare_eq_lt.mpr less,
        Int.compare_eq_lt.mpr (Int.ofNat_lt.mpr (left.lt_of_mantissa_lt right less))]
    · have same : m = n :=
        Nat.eq_of_mul_eq_mul_right (Nat.two_pow_pos 52) (left.whole.symm.trans right.whole)
      rw [Nat.compare_eq_eq.mpr rfl, Int.compare_eq_eq.mpr (congrArg _ same)]
    · rw [Nat.compare_eq_gt.mpr more,
        Int.compare_eq_gt.mpr (Int.ofNat_lt.mpr (right.lt_of_mantissa_lt left more))]
  · rw [Int.compare_eq_gt.mpr (Int.sub_lt_sub_right (Int.ofNat_lt.mpr more) 52),
      Int.compare_eq_gt.mpr (Int.ofNat_lt.mpr (right.lt_of_scale_lt left more))]
    rfl

theorem compare_neg_neg (m n : Int) : Ord.compare (-m) (-n) = (Ord.compare m n).swap := by
  rw [Int.compare_swap]
  simp only [Int.compare_eq_ite_lt, Int.neg_lt_neg_iff]

/-- **Two floats compare like the numbers that they stand for.** -/
theorem Stands.compare {x y : UnpackedFloat} {m n : Int} (left : Stands x m) (right : Stands y n) :
    x.compare y = some (Ord.compare m n) := by
  cases left with
  | zero _ =>
    cases right with
    | zero _ => rfl
    | finite sign normal =>
      have positive : (0 : Int) < _ := Int.natCast_pos.mpr normal.pos
      cases sign with
      | positive => exact congrArg some (Int.compare_eq_lt.mpr positive).symm
      | negative => exact congrArg some (Int.compare_eq_gt.mpr (Int.neg_neg_of_pos positive)).symm
  | finite sign normal =>
    have positive : (0 : Int) < _ := Int.natCast_pos.mpr normal.pos
    cases right with
    | zero _ =>
      cases sign with
      | positive => exact congrArg some (Int.compare_eq_gt.mpr positive).symm
      | negative => exact congrArg some (Int.compare_eq_lt.mpr (Int.neg_neg_of_pos positive)).symm
    | finite sign' normal' =>
      have positive' : (0 : Int) < _ := Int.natCast_pos.mpr normal'.pos
      cases sign with
      | positive =>
        cases sign' with
        | positive => exact congrArg some (normal.compare normal')
        | negative =>
          have less := Int.lt_trans (Int.neg_neg_of_pos positive') positive
          exact congrArg some (Int.compare_eq_gt.mpr less).symm
      | negative =>
        cases sign' with
        | positive =>
          have less := Int.lt_trans (Int.neg_neg_of_pos positive) positive'
          exact congrArg some (Int.compare_eq_lt.mpr less).symm
        | negative =>
          refine congrArg some (Eq.trans ?_ (compare_neg_neg _ _).symm)
          rw [normal.compare normal']

end Comparing

/-! ## Rounding once -/

section Rounded

variable {mantissa : Nat} {exponent : Int}

/-- A mantissa of at least 53 places is shifted to 53 places. -/
theorem shiftToTargetExponent_eq (large : 2 ^ 52 ≤ mantissa) (high : -1074 ≤ exponent) :
    shiftToTargetExponent Format.binary64 mantissa exponent .exact =
      (ExtendedMantissa.mk mantissa false false >>> excess mantissa,
        exponent + excess mantissa) := by
  have target : Format.binary64.targetExponent (totalExponent mantissa exponent) =
      exponent + excess mantissa := by
    have least : Format.binary64.minExponent = -1074 := rfl
    have places : Format.binary64.mantissaBits = 53 := rfl
    rw [Format.targetExponent, totalExponent, log2_eq_of_le large, least, places]
    omega
  have amount : (exponent + excess mantissa - exponent).toNat = excess mantissa := by omega
  rw [shiftToTargetExponent, target, shiftToExponent, amount]
  rfl

/-- A mantissa of at least 53 places is rounded to 53 places, and shifted once
more if it becomes a power of two. -/
theorem roundWithAccuracy_eq (sign : Sign) (large : 2 ^ 52 ≤ mantissa) (high : -1074 ≤ exponent) :
    ∃ positive, roundWithAccuracy Format.binary64 sign mantissa exponent .exact =
      .finite sign (significand mantissa / 2 ^ excess (significand mantissa))
        (exponent + excess mantissa + excess (significand mantissa)) positive := by
  have units := (significand_bounds large).1
  have rounded : (ExtendedMantissa.mk mantissa false false >>> excess mantissa).roundedMantissa =
      significand mantissa :=
    (tracks_shiftRight mantissa (excess mantissa)).roundedMantissa
  have again := (tracks_shiftRight (significand mantissa) (excess (significand mantissa))).mantissa
  have higher : -1074 ≤ exponent + (excess mantissa : Int) := by omega
  have some_units : 2 ^ excess (significand mantissa) ≤ significand mantissa := by
    have reached := Nat.log2_self_le (ne_zero_of_le units)
    rw [log2_eq_of_le units] at reached
    exact Nat.le_trans (Nat.pow_le_pow_right (by decide) (Nat.le_add_left ..)) reached
  have positive := Nat.div_pos some_units (Nat.two_pow_pos _)
  refine ⟨positive, ?_⟩
  simp only [roundWithAccuracy, shiftToTargetExponent_eq large high, rounded,
    shiftToTargetExponent_eq units higher, again]
  exact dif_neg positive.ne'

theorem normal_of_units {units scale n : Nat} (least : 2 ^ 52 ≤ units) (most : units ≤ 2 ^ 53)
    (in_range : scale + excess units ≤ 1023) (whole : units * 2 ^ scale = n * 2 ^ 52) :
    Normal (units / 2 ^ excess units) (scale + excess units) n := by
  rcases Nat.lt_or_eq_of_le most with less | rfl
  · rw [excess_eq_zero less] at *
    rw [pow_zero, Nat.div_one]
    exact ⟨least, less, in_range, whole⟩
  · have one_more : excess (2 ^ 53) = 1 := by decide
    rw [one_more] at *
    refine ⟨by decide, by decide, in_range, ?_⟩
    have halved : 2 ^ 53 / 2 ^ 1 = 2 ^ 52 := by decide
    have places : 52 + (scale + 1) = 53 + scale := by omega
    calc 2 ^ 53 / 2 ^ 1 * 2 ^ (scale + 1) = 2 ^ 52 * 2 ^ (scale + 1) := by rw [halved]
      _ = 2 ^ 53 * 2 ^ scale := by rw [← pow_add, ← pow_add, places]
      _ = n * 2 ^ 52 := whole

/-- Rounding a mantissa gives the whole number that the rounded units make. -/
theorem stands_roundWithAccuracy {scale n : Nat} (sign : Sign) (large : 2 ^ 52 ≤ mantissa)
    (high : -1074 ≤ exponent) (place : exponent + excess mantissa = scale - 52)
    (in_range : scale + excess (significand mantissa) ≤ 1023)
    (whole : significand mantissa * 2 ^ scale = n * 2 ^ 52) :
    Stands (roundWithAccuracy Format.binary64 sign mantissa exponent .exact) (sign.apply n) := by
  obtain ⟨least, most⟩ := significand_bounds large
  obtain ⟨positive, rounded⟩ := roundWithAccuracy_eq sign large high
  have normal := normal_of_units least most in_range whole
  have exponents : exponent + excess mantissa + excess (significand mantissa) =
      (scale + excess (significand mantissa) : Nat) - 52 := by
    omega
  simp only [exponents] at rounded
  rw [rounded]
  exact .finite sign normal

/-- A number that is written with some places behind the point is rounded to the
nearest float. -/
theorem stands_nearest {n places : Nat} (sign : Sign) (some_places : n ≠ 0) (short : n < 2 ^ 64)
    (few : places ≤ 53) (large : 2 ^ 52 ≤ n * 2 ^ places) :
    Stands (roundWithAccuracy Format.binary64 sign (n * 2 ^ places) (-places) .exact)
      (sign.apply (nearestNat n)) := by
  have longer := log2_eq_of_le large
  rw [log2_mul_pow some_places] at longer
  have log2_lt : n.log2 < 64 := (Nat.log2_lt some_places).mpr short
  have place : (-places : Int) + excess (n * 2 ^ places) = n.log2 - 52 := by omega
  have carry := excess_significand_le large
  exact stands_roundWithAccuracy sign large (by omega) place (by omega)
    (significand_mul_pow some_places large)

end Rounded

/-! ## Integers -/

section Integers

/-- A float is a whole number. -/
def Means (x : Float) (n : Int) : Prop := Stands x.toModel.unpack n

theorem means_of_stands {x : UnpackedFloat} {n : Int} (stands : Stands x n) :
    Means (.ofModel (.pack x)) n := by
  have same : (Float.Model.pack x).unpack = x := stands.unpack_pack
  rwa [Means, same]

theorem Means.neg {x : Float} {n : Int} (means : Means x n) : Means x.neg (-n) :=
  means_of_stands (Stands.neg means)

/-- A number with room for it is unpacked as it is. -/
theorem stands_ofNat {n : Nat} (small : n < 2 ^ 53) :
    Stands (UnpackedFloat.ofNat Format.binary64 n) n := by
  by_cases zero : n = 0
  · rw [zero]
    exact .zero .positive
  · have few : n.log2 < 53 := (Nat.log2_lt zero).mpr small
    have target : Format.binary64.targetExponent (totalExponent n 0) = (n.log2 : Int) - 52 := by
      have least : Format.binary64.minExponent = -1074 := rfl
      have places : Format.binary64.mantissaBits = 53 := rfl
      rw [Format.targetExponent, totalExponent, least, places]
      omega
    have amount : (-((n.log2 : Int) - 52)).toNat = 52 - n.log2 := by omega
    have large : 2 ^ 52 ≤ n * 2 ^ (52 - n.log2) := by
      have reached := Nat.mul_le_mul_right (2 ^ (52 - n.log2)) (Nat.log2_self_le zero)
      rwa [← pow_add, Nat.add_sub_cancel' (Nat.le_of_lt_succ few)] at reached
    have stands := stands_nearest .positive zero (Nat.lt_trans small (by decide))
      (Nat.le_trans (Nat.sub_le 52 n.log2) (by decide)) large
    rw [nearestNat_eq_self small.le] at stands
    rw [UnpackedFloat.ofNat, UnpackedFloat.ofInt, UnpackedFloat.normalize,
      Int.compare_eq_gt.mpr (Int.natCast_pos.mpr (Nat.pos_of_ne_zero zero))]
    simp only [UnpackedFloat.round, Int.toNat_natCast, target, decreaseExponent,
      Int.zero_sub, amount, Nat.shiftLeft_eq]
    exact stands

/-- A whole number times one is the number itself. -/
theorem Stands.mul_one {x : UnpackedFloat} {n : Int} (stands : Stands x n)
    (positive : 0 < 2 ^ 52) :
    Stands (UnpackedFloat.mul Format.binary64 x (.finite .positive (2 ^ 52) (-52) positive)) n := by
  cases stands with
  | zero sign => exact .zero _
  | @finite sign mantissa scale n normal =>
    have large : 2 ^ 52 ≤ mantissa * 2 ^ 52 := Nat.le_mul_of_pos_left _ normal.mantissa_pos
    have places : excess (mantissa * 2 ^ 52) = 52 := by
      rw [excess, log2_mul_pow normal.mantissa_pos.ne', normal.log2_eq]
    have units : significand (mantissa * 2 ^ 52) = mantissa := by
      rw [significand, places]
      exact roundedUnits_mul mantissa 52
    have same_sign : sign * .positive = sign := by cases sign <;> rfl
    have place : ((scale : Int) - 52 + -52) + excess (mantissa * 2 ^ 52) = scale - 52 := by
      rw [places]
      omega
    rw [UnpackedFloat.mul, same_sign]
    refine stands_roundWithAccuracy sign large (by omega) place ?_ ?_
    · rw [units, excess_eq_zero normal.most]
      exact normal.in_range
    · rw [units]
      exact normal.whole

theorem means_toFloat {n : Nat} (small : n < 2 ^ 53) : Means n.toUInt64.toFloat n := by
  have room : n.toUInt64.toNat = n := Nat.mod_eq_of_lt (Nat.lt_trans small (by decide))
  refine means_of_stands ?_
  rw [UnpackedFloat.ofUInt64, room]
  exact stands_ofNat small

theorem stands_ofScientific {n : Nat} (some_places : n ≠ 0) (short : n < 2 ^ 64) :
    Stands (UnpackedFloat.ofScientific Format.binary64 n 0) (nearestNat n) := by
  have large : 2 ^ 52 ≤ n * 2 ^ 53 :=
    Nat.le_trans (by decide) (Nat.le_mul_of_pos_left _ (Nat.pos_of_ne_zero some_places))
  have stands := stands_nearest .positive some_places short (Nat.le_refl 53) large
  have not_huge : ¬ (0 : Int) > 2 ^ Format.binary64.exponentBits := by decide
  have not_tiny : ¬ (0 : Int) < -(2 ^ Format.binary64.exponentBits + (n.log2 : Int)) := by
    have range : (2 : Int) ^ Format.binary64.exponentBits = 2048 := rfl
    omega
  have mantissa : (n <<< Format.binary64.mantissaBits) * 10 ^ (0 : Int).toNat = n * 2 ^ 53 := by
    rw [Nat.shiftLeft_eq]
    exact Nat.mul_one _
  rw [UnpackedFloat.ofScientific, dif_neg some_places, if_neg not_huge, if_neg not_tiny,
    if_pos (Int.le_refl 0), UnpackedFloat.mul, mantissa]
  exact stands

theorem means_ofNat {n : Nat} (short : n < 2 ^ 64) : Means (Float.ofNat n) (nearestNat n) := by
  by_cases small : n < 2 ^ 53
  · have fast : Float.ofNat n = n.toUInt64.toFloat * Float.ofBits 0x3FF0000000000000 :=
      dif_pos ⟨small, Nat.zero_le 22⟩
    have one : (Float.ofBits 0x3FF0000000000000).toModel.unpack =
        .finite .positive (2 ^ 52) (-52) (Nat.two_pow_pos 52) := rfl
    rw [fast, nearestNat_eq_self small.le]
    refine means_of_stands ?_
    rw [one]
    exact Stands.mul_one (means_toFloat small) _
  · have slow : Float.ofNat n = .ofModel (.ofScientific n 0) :=
      dif_neg fun fast => small fast.1
    have some_places : n ≠ 0 := fun zero => small (zero ▸ Nat.two_pow_pos 53)
    rw [slow]
    exact means_of_stands (stands_ofScientific some_places short)

/-- **The float of an integer is the nearest one.** -/
theorem means_ofInt {n : Int} (short : n.natAbs < 2 ^ 64) : Means (Float.ofInt n) (nearest n) := by
  cases n with
  | ofNat n => exact means_ofNat short
  | negSucc n => exact (means_ofNat short).neg

theorem means_zero : Means 0.0 0 := Stands.zero .positive

variable {x y : Float} {m n : Int}

theorem Stands.isNaN {x : UnpackedFloat} (stands : Stands x n) : x.isNaN = false := by
  cases stands <;> rfl

theorem Means.isNaN (means : Means x n) : x.isNaN = false := Stands.isNaN means

theorem Means.lt_iff (left : Means x m) (right : Means y n) : x < y ↔ m < n := by
  have below : x < y ↔ (x.toModel.unpack.compare y.toModel.unpack == some .lt) = true :=
    decide_eq_true_iff
  rw [below, Stands.compare left right, beq_iff_eq, Option.some.injEq, Int.compare_eq_lt]

theorem Means.beq_iff (left : Means x m) (right : Means y n) : (x == y) = true ↔ m = n := by
  have equal : (x == y) = (x.toModel.unpack.compare y.toModel.unpack == some .eq) := rfl
  rw [equal, Stands.compare left right, beq_iff_eq, Option.some.injEq, Int.compare_eq_eq]

end Integers

end FormulaStepper.Decimal
