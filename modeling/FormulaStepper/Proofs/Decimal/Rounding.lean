import Mathlib.Data.Nat.Dist

/-!
# Rounding integers to floats

A float has room for 53 binary places. An integer with more of them is rounded
to the nearest float (`nearest_closest`), and to the even one of two that are
equally near (`nearest_even`). The integers of up to 53 places are floats
themselves (`nearest_eq_self`). Rounding never reverses the order of two
integers (`nearest_mono`), but it can make them equal.
-/

set_option autoImplicit false

namespace FormulaStepper.Decimal

/-- How often `2 ^ places` goes into a number, to the nearest. Of two counts
that are equally near, it is the even one. -/
def roundedUnits (n places : Nat) : Nat :=
  let units := n / 2 ^ places
  let twice := 2 * (n % 2 ^ places)
  if twice < 2 ^ places then units
  else if twice = 2 ^ places then units + units % 2
  else units + 1

/-- How many binary places a number has too many for a float. -/
def excess (n : Nat) : Nat := n.log2 - 52

/-- The leading places of a number for which a float has room, rounded. -/
def significand (n : Nat) : Nat := roundedUnits n (excess n)

/-- The float nearest to a natural number. -/
def nearestNat (n : Nat) : Nat := significand n * 2 ^ excess n

/-- The float nearest to an integer. -/
def nearest : Int → Int
  | .ofNat n => nearestNat n
  | .negSucc n => -nearestNat (n + 1)

/-- The size of a float that is a whole number. -/
def IsFloat (n : Nat) : Prop :=
  ∃ units places, units < 2 ^ 53 ∧ n = units * 2 ^ places

/-! ## Units -/

section Units

variable {m n : Nat}

/-- Units are rounded down below the half and up above it. -/
theorem roundedUnits_cases (n places : Nat) :
    (roundedUnits n places = n / 2 ^ places ∧ 2 * (n % 2 ^ places) ≤ 2 ^ places) ∨
    (roundedUnits n places = n / 2 ^ places + 1 ∧ 2 ^ places ≤ 2 * (n % 2 ^ places)) := by
  simp only [roundedUnits]
  split
  next below => exact .inl ⟨rfl, below.le⟩
  next not_below =>
    split
    next half =>
      rcases Nat.mod_two_eq_zero_or_one (n / 2 ^ places) with even | odd
      · exact .inl ⟨by rw [even, Nat.add_zero], half.le⟩
      · exact .inr ⟨by rw [odd], half.ge⟩
    next => exact .inr ⟨rfl, Nat.le_of_not_lt not_below⟩

theorem roundedUnits_mono {places : Nat} (le : m ≤ n) :
    roundedUnits m places ≤ roundedUnits n places := by
  rcases Nat.lt_or_eq_of_le (Nat.div_le_div_right (c := 2 ^ places) le) with less | same
  · rcases roundedUnits_cases m places with ⟨down, -⟩ | ⟨down, -⟩ <;>
      rcases roundedUnits_cases n places with ⟨up, -⟩ | ⟨up, -⟩ <;> omega
  · have whole_m := Nat.div_add_mod m (2 ^ places)
    have whole_n := Nat.div_add_mod n (2 ^ places)
    rw [same] at whole_m
    have rest : m % 2 ^ places ≤ n % 2 ^ places := by omega
    simp only [roundedUnits, same]
    split_ifs <;> omega

/-- A whole number of units is not rounded. -/
theorem roundedUnits_mul (units places : Nat) :
    roundedUnits (units * 2 ^ places) places = units := by
  have positive := Nat.two_pow_pos places
  simp only [roundedUnits, Nat.mul_mod_left, Nat.mul_div_cancel units positive, Nat.mul_zero,
    if_pos positive]

/-- Rounding does not depend on the size of the unit. -/
theorem roundedUnits_mul_pow (n places more : Nat) :
    roundedUnits (n * 2 ^ more) (places + more) = roundedUnits n places := by
  have positive := Nat.two_pow_pos more
  simp only [roundedUnits, pow_add, Nat.mul_div_mul_right _ _ positive, Nat.mul_mod_mul_right,
    ← Nat.mul_assoc, Nat.mul_lt_mul_right positive, Nat.mul_left_inj positive.ne']

/-- No other number of units is nearer. -/
theorem dist_roundedUnits_le (n places units : Nat) :
    Nat.dist n (roundedUnits n places * 2 ^ places) ≤ Nat.dist n (units * 2 ^ places) := by
  have whole := Nat.div_add_mod' n (2 ^ places)
  have rest := Nat.mod_lt n (Nat.two_pow_pos places)
  have side : units * 2 ^ places ≤ n / 2 ^ places * 2 ^ places ∨
      n / 2 ^ places * 2 ^ places + 2 ^ places ≤ units * 2 ^ places := by
    rcases Nat.lt_or_ge (n / 2 ^ places) units with more | few
    · rw [← Nat.succ_mul]
      exact .inr (Nat.mul_le_mul_right _ more)
    · exact .inl (Nat.mul_le_mul_right _ few)
  simp only [Nat.dist]
  rcases roundedUnits_cases n places with ⟨rounded, near⟩ | ⟨rounded, near⟩
  · rw [rounded]
    omega
  · rw [rounded, Nat.succ_mul]
    omega

/-- Of two numbers of units that are equally near, the even one is taken. -/
theorem roundedUnits_even {places units : Nat} (other : units ≠ roundedUnits n places)
    (tie : Nat.dist n (units * 2 ^ places) = Nat.dist n (roundedUnits n places * 2 ^ places)) :
    roundedUnits n places % 2 = 0 := by
  have whole := Nat.div_add_mod' n (2 ^ places)
  have rest := Nat.mod_lt n (Nat.two_pow_pos places)
  have half : 2 * (n % 2 ^ places) = 2 ^ places → roundedUnits n places % 2 = 0 := by
    intro even
    rw [roundedUnits, if_neg (Nat.not_lt.mpr even.ge), if_pos even]
    omega
  have side : units * 2 ^ places + 2 ^ places ≤ n / 2 ^ places * 2 ^ places ∨
      units = n / 2 ^ places ∨ units = n / 2 ^ places + 1 ∨
      n / 2 ^ places * 2 ^ places + 2 ^ places + 2 ^ places ≤ units * 2 ^ places := by
    rcases Nat.lt_trichotomy units (n / 2 ^ places) with few | same | more
    · rw [← Nat.succ_mul]
      exact .inl (Nat.mul_le_mul_right _ few)
    · exact .inr (.inl same)
    · rcases Nat.lt_or_eq_of_le more with far | next
      · have above := Nat.mul_le_mul_right (2 ^ places) far
        rw [Nat.succ_mul, Nat.succ_mul] at above
        exact .inr (.inr (.inr above))
      · exact .inr (.inr (.inl next.symm))
  simp only [Nat.dist] at tie
  -- only the neighbours below and above the number can be equally near
  rcases roundedUnits_cases n places with ⟨rounded, near⟩ | ⟨rounded, near⟩
  · rw [rounded] at tie other
    rcases side with below | same | next | above
    · omega
    · exact absurd same other
    · rw [next, Nat.succ_mul] at tie
      exact half (by omega)
    · omega
  · rw [rounded] at tie other
    rw [Nat.succ_mul] at tie
    rcases side with below | same | next | above
    · omega
    · rw [same] at tie
      exact half (by omega)
    · exact absurd next other
    · omega

end Units

/-! ## Natural numbers -/

section Naturals

variable {m n : Nat}

theorem excess_eq_zero (small : n < 2 ^ 53) : excess n = 0 := by
  by_cases zero : n = 0
  · rw [zero]
    rfl
  · have short : n.log2 < 53 := (Nat.log2_lt zero).mpr small
    unfold excess
    omega

theorem ne_zero_of_le (large : 2 ^ 52 ≤ n) : n ≠ 0 :=
  Nat.ne_of_gt (Nat.lt_of_lt_of_le (Nat.two_pow_pos 52) large)

theorem log2_eq_of_le (large : 2 ^ 52 ≤ n) : n.log2 = 52 + excess n := by
  have long : 52 ≤ n.log2 := (Nat.le_log2 (ne_zero_of_le large)).mpr large
  unfold excess
  omega

theorem le_of_excess_ne_zero (too_many : excess n ≠ 0) : 2 ^ 53 ≤ n :=
  Nat.le_of_not_lt fun small => too_many (excess_eq_zero small)

/-- A number that is long enough keeps 53 places, or becomes a power of two. -/
theorem significand_bounds (large : 2 ^ 52 ≤ n) :
    2 ^ 52 ≤ significand n ∧ significand n ≤ 2 ^ 53 := by
  have least := roundedUnits_mul (2 ^ 52) (excess n)
  have most := roundedUnits_mul (2 ^ 53) (excess n)
  rw [← pow_add, ← log2_eq_of_le large] at least
  rw [← pow_add, Nat.add_right_comm 52 1, ← log2_eq_of_le large] at most
  constructor
  · rw [← least]
    exact roundedUnits_mono (Nat.log2_self_le (ne_zero_of_le large))
  · rw [← most]
    exact roundedUnits_mono Nat.lt_log2_self.le

/-- Only a significand that became a power of two has a place too many. -/
theorem excess_significand_le (large : 2 ^ 52 ≤ n) : excess (significand n) ≤ 1 := by
  obtain ⟨least, most⟩ := significand_bounds large
  have places : (significand n).log2 < 54 :=
    (Nat.log2_lt (ne_zero_of_le least)).mpr (Nat.lt_of_le_of_lt most (by decide))
  have excess_eq := log2_eq_of_le least
  omega

/-- The integers of up to 53 places are floats. -/
theorem nearestNat_eq_self (small : n ≤ 2 ^ 53) : nearestNat n = n := by
  rcases Nat.lt_or_eq_of_le small with less | rfl
  · have whole := roundedUnits_mul n 0
    rw [pow_zero, Nat.mul_one] at whole
    rw [nearestNat, significand, excess_eq_zero less, whole, pow_zero, Nat.mul_one]
  · decide

/-- A number and the nearest float lie between the same powers of two. -/
theorem nearestNat_bounds (some_places : n ≠ 0) :
    2 ^ n.log2 ≤ nearestNat n ∧ nearestNat n ≤ 2 ^ (n.log2 + 1) := by
  by_cases small : n ≤ 2 ^ 53
  · rw [nearestNat_eq_self small]
    exact ⟨Nat.log2_self_le some_places, Nat.lt_log2_self.le⟩
  · have large : 2 ^ 52 ≤ n := Nat.le_of_lt (Nat.lt_trans (by decide) (Nat.lt_of_not_le small))
    obtain ⟨least, most⟩ := significand_bounds large
    rw [nearestNat, log2_eq_of_le large, Nat.add_right_comm, pow_add, pow_add]
    exact ⟨Nat.mul_le_mul_right _ least, Nat.mul_le_mul_right _ most⟩

theorem nearestNat_mono (le : m ≤ n) : nearestNat m ≤ nearestNat n := by
  by_cases same : excess m = excess n
  · rw [nearestNat, nearestNat, significand, significand, same]
    exact Nat.mul_le_mul_right _ (roundedUnits_mono le)
  · by_cases zero : m = 0
    · rw [zero]
      exact Nat.zero_le _
    · have some_places : n ≠ 0 := fun none => zero (Nat.le_zero.mp (none ▸ le))
      have longer : m.log2 < n.log2 := by
        have places : m.log2 ≤ n.log2 :=
          (Nat.le_log2 some_places).mpr (Nat.le_trans (Nat.log2_self_le zero) le)
        unfold excess at same
        omega
      -- a power of two lies between the two floats
      calc nearestNat m ≤ 2 ^ (m.log2 + 1) := (nearestNat_bounds zero).2
        _ ≤ 2 ^ n.log2 := Nat.pow_le_pow_right (by decide) longer
        _ ≤ nearestNat n := (nearestNat_bounds some_places).1

theorem log2_mul_pow (some_places : n ≠ 0) (places : Nat) :
    (n * 2 ^ places).log2 = n.log2 + places := by
  have positive := Nat.two_pow_pos places
  refine (Nat.log2_eq_iff (Nat.mul_ne_zero some_places positive.ne')).mpr ⟨?_, ?_⟩
  · rw [pow_add]
    exact Nat.mul_le_mul_right _ (Nat.log2_self_le some_places)
  · rw [Nat.add_right_comm, pow_add]
    exact Nat.mul_lt_mul_of_pos_right Nat.lt_log2_self positive

/-- Places behind the point make no difference to how many units a number has. -/
theorem significand_mul_pow {places : Nat} (some_places : n ≠ 0)
    (large : 2 ^ 52 ≤ n * 2 ^ places) :
    significand (n * 2 ^ places) * 2 ^ n.log2 = nearestNat n * 2 ^ 52 := by
  have longer := log2_eq_of_le large
  rw [log2_mul_pow some_places] at longer
  by_cases short : n < 2 ^ 52
  · have few : n.log2 < 52 := (Nat.log2_lt some_places).mpr short
    have split : n * 2 ^ places = n * 2 ^ (52 - n.log2) * 2 ^ excess (n * 2 ^ places) := by
      rw [Nat.mul_assoc, ← pow_add]
      congr 2
      omega
    have units := roundedUnits_mul (n * 2 ^ (52 - n.log2)) (excess (n * 2 ^ places))
    rw [← split] at units
    rw [significand, units, nearestNat_eq_self (Nat.le_trans short.le (by decide)),
      Nat.mul_assoc, ← pow_add, Nat.sub_add_cancel few.le]
  · have own := log2_eq_of_le (Nat.le_of_not_lt short)
    have more : excess (n * 2 ^ places) = excess n + places := by omega
    rw [significand, more, roundedUnits_mul_pow, own, Nat.add_comm 52, pow_add, ← Nat.mul_assoc,
      nearestNat, significand]

theorem nearestNat_eq_zero_iff : nearestNat n = 0 ↔ n = 0 := by
  constructor
  · intro none
    by_contra some_places
    have positive := Nat.lt_of_lt_of_le (Nat.two_pow_pos n.log2) (nearestNat_bounds some_places).1
    exact absurd none positive.ne'
  · rintro rfl
    rfl

theorem units_regroup {units places : Nat} (coarse : excess n ≤ places) :
    units * 2 ^ places = units * 2 ^ (places - excess n) * 2 ^ excess n := by
  rw [Nat.mul_assoc, ← pow_add, Nat.sub_add_cancel coarse]

/-- A float of smaller units than a number is rounded to is too far away. -/
theorem dist_lt_of_lt_excess {units places : Nat} (short : units < 2 ^ 53)
    (fine : places < excess n) :
    Nat.dist n (nearestNat n) < Nat.dist n (units * 2 ^ places) := by
  have large : 2 ^ 52 ≤ n :=
    Nat.le_trans (by decide) (le_of_excess_ne_zero (Nat.ne_zero_of_lt fine))
  have places_eq := log2_eq_of_le large
  -- the float is below a power of two that the number reaches
  have near := dist_roundedUnits_le n (excess n) (2 ^ 52)
  rw [← pow_add, ← places_eq] at near
  have reached := Nat.log2_self_le (ne_zero_of_le large)
  have below : units * 2 ^ places < 2 ^ n.log2 := by
    calc units * 2 ^ places < 2 ^ 53 * 2 ^ places :=
          Nat.mul_lt_mul_of_pos_right short (Nat.two_pow_pos places)
      _ = 2 ^ (53 + places) := (pow_add ..).symm
      _ ≤ 2 ^ n.log2 := Nat.pow_le_pow_right (by decide) (by omega)
  refine Nat.lt_of_le_of_lt near ?_
  simp only [Nat.dist]
  omega

/-- No float is nearer to a number than the one that it is rounded to. -/
theorem dist_nearestNat_le (float : IsFloat m) :
    Nat.dist n (nearestNat n) ≤ Nat.dist n m := by
  obtain ⟨units, places, short, rfl⟩ := float
  by_cases coarse : excess n ≤ places
  · rw [units_regroup coarse]
    exact dist_roundedUnits_le n (excess n) _
  · exact (dist_lt_of_lt_excess short (Nat.lt_of_not_le coarse)).le

/-- Of two floats that are equally near, the one with an even significand is
taken. -/
theorem significand_even (float : IsFloat m) (other : m ≠ nearestNat n)
    (tie : Nat.dist n m = Nat.dist n (nearestNat n)) : significand n % 2 = 0 := by
  obtain ⟨units, places, short, rfl⟩ := float
  by_cases coarse : excess n ≤ places
  · rw [units_regroup coarse] at other tie
    exact roundedUnits_even (fun same => other (congrArg (· * 2 ^ excess n) same)) tie
  · have finer := dist_lt_of_lt_excess short (Nat.lt_of_not_le coarse)
    omega

end Naturals

/-! ## Integers -/

section Integers

variable {m n : Int}

theorem nearest_natCast (n : Nat) : nearest n = nearestNat n := rfl

theorem nearest_neg_natCast (n : Nat) : nearest (-n) = -nearestNat n := by
  cases n with
  | zero => rfl
  | succ n => rfl

/-- The integers of up to 53 places are floats. -/
theorem nearest_eq_self (small : n.natAbs ≤ 2 ^ 53) : nearest n = n := by
  obtain ⟨size, rfl | rfl⟩ := n.eq_nat_or_neg
  · rw [Int.natAbs_natCast] at small
    rw [nearest_natCast, nearestNat_eq_self small]
  · rw [Int.natAbs_neg, Int.natAbs_natCast] at small
    rw [nearest_neg_natCast, nearestNat_eq_self small]

/-- Rounding does not reverse the order of two integers. -/
theorem nearest_mono (le : m ≤ n) : nearest m ≤ nearest n := by
  obtain ⟨size, rfl | rfl⟩ := m.eq_nat_or_neg <;> obtain ⟨other, rfl | rfl⟩ := n.eq_nat_or_neg
  · have mono : nearestNat size ≤ nearestNat other := nearestNat_mono (by omega)
    rw [nearest_natCast, nearest_natCast]
    omega
  · obtain rfl : size = 0 := by omega
    obtain rfl : other = 0 := by omega
    exact Int.le_refl _
  · rw [nearest_neg_natCast, nearest_natCast]
    omega
  · have mono : nearestNat other ≤ nearestNat size := nearestNat_mono (by omega)
    rw [nearest_neg_natCast, nearest_neg_natCast]
    omega

theorem lt_of_nearest_lt (less : nearest m < nearest n) : m < n :=
  Int.lt_of_not_ge fun le => Int.not_lt.mpr (nearest_mono le) less

theorem nearest_eq_zero_iff : nearest n = 0 ↔ n = 0 := by
  obtain ⟨size, rfl | rfl⟩ := n.eq_nat_or_neg
  · rw [nearest_natCast, Int.natCast_eq_zero, nearestNat_eq_zero_iff, Int.natCast_eq_zero]
  · rw [nearest_neg_natCast, Int.neg_eq_zero, Int.natCast_eq_zero, nearestNat_eq_zero_iff,
      Int.neg_eq_zero, Int.natCast_eq_zero]

/-- **No float is nearer to an integer than the one that it is rounded to.** -/
theorem nearest_closest (float : IsFloat m.natAbs) :
    (n - nearest n).natAbs ≤ (n - m).natAbs := by
  have near := dist_nearestNat_le (n := n.natAbs) float
  simp only [Nat.dist] at near
  obtain ⟨size, rfl | rfl⟩ := n.eq_nat_or_neg
  · rw [Int.natAbs_natCast] at near
    rw [nearest_natCast]
    omega
  · rw [Int.natAbs_neg, Int.natAbs_natCast] at near
    rw [nearest_neg_natCast]
    omega

/-- **Of two floats that are equally near, the one with an even significand is
taken.** -/
theorem nearest_even (float : IsFloat m.natAbs) (other : m ≠ nearest n)
    (tie : (n - m).natAbs = (n - nearest n).natAbs) : significand n.natAbs % 2 = 0 := by
  have near := dist_nearestNat_le (n := n.natAbs) float
  have zero := nearestNat_eq_zero_iff (n := n.natAbs)
  by_cases same : m.natAbs = nearestNat n.natAbs
  · -- a float on the other side of zero is not equally near
    exfalso
    obtain ⟨size, rfl | rfl⟩ := n.eq_nat_or_neg
    · rw [Int.natAbs_natCast] at same zero
      rw [nearest_natCast] at other tie
      omega
    · rw [Int.natAbs_neg, Int.natAbs_natCast] at same zero
      rw [nearest_neg_natCast] at other tie
      omega
  · refine significand_even float same (Nat.le_antisymm ?_ near)
    simp only [Nat.dist]
    obtain ⟨size, rfl | rfl⟩ := n.eq_nat_or_neg
    · rw [nearest_natCast] at tie
      rw [Int.natAbs_natCast]
      omega
    · rw [nearest_neg_natCast] at tie
      rw [Int.natAbs_neg, Int.natAbs_natCast]
      omega

end Integers

end FormulaStepper.Decimal
