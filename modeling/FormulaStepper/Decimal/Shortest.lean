import FormulaStepper.Decimal.Binary

/-!
# The fewest digits that read back

A decimal text reads back as a given float exactly when it lies in the
interval of reals that round to it; the ends belong to the interval when the
mantissa is even. For one, two and up to seventeen digits the two neighbours
of the float on the grid of decimals with that many digits are tested, in
exact arithmetic. The first grid with a neighbour in the interval gives the
digits, of two neighbours the nearer, and the format chooses at an exact tie.
-/

set_option autoImplicit false

namespace FormulaStepper.Decimal

/-- What to do with a number half-way between two neighbours. -/
inductive Tie where
  | up
  | even
deriving Repr, DecidableEq

/-- The number `0.d₁d₂…dₙ * 10 ^ point`, in decimal digits. -/
structure Digits where
  digits : List Char
  point : Int
deriving Repr, DecidableEq

/-- How many decimal digits a natural number has. -/
def digitCount (n : Nat) : Nat := (Nat.toDigits 10 n).length

/-- The digits of `coefficient * 10 ^ exponent`, without zeros at the end. -/
def Digits.ofScaled (coefficient : Nat) (exponent : Int) : Digits :=
  let written := Nat.toDigits 10 coefficient
  ⟨(written.reverse.dropWhile (· == '0')).reverse, exponent + written.length⟩

/-- A grid of decimals beside a dyadic number: a decimal `c * 10 ^ exponent`
and a count of quarters `n` of the last binary place compare as `c * decimals`
and `n * quarters`. -/
structure Grid where
  exponent : Int
  decimals : Nat
  quarters : Nat

/-- The grid of multiples of a power of ten, for a number whose last binary
place is `2 ^ binary`. -/
def Grid.of (binary exponent : Int) : Grid where
  exponent := exponent
  decimals := Nat.pow 10 exponent.toNat * Dyadic.twoPower (2 - binary)
  quarters := Dyadic.twoPower (binary - 2) * Nat.pow 10 (-exponent).toNat

/-- The power of ten at or below a positive number. -/
def Dyadic.magnitude (x : Dyadic) : Int :=
  let numerator := x.mantissa * Dyadic.twoPower x.exponent
  let denominator := Dyadic.twoPower (-x.exponent)
  if denominator ≤ numerator then digitCount (numerator / denominator) - 1
  else -(digitCount ((denominator + numerator - 1) / numerator - 1) : Int)

/-- Whether `coefficient` on the grid rounds to the float. -/
def Grid.readsBack (grid : Grid) (x : Dyadic) (coefficient : Nat) : Bool :=
  let low := (4 * x.mantissa - x.gapBelow) * grid.quarters
  let high := (4 * x.mantissa + Dyadic.gapAbove) * grid.quarters
  let here := coefficient * grid.decimals
  if x.mantissa % 2 = 0 then low ≤ here && here ≤ high
  else low < here && here < high

/-- The neighbour on the grid that rounds to the float, the nearer one if both
do. -/
def Grid.nearest? (grid : Grid) (tie : Tie) (x : Dyadic) : Option Nat :=
  let here := 4 * x.mantissa * grid.quarters
  let below := here / grid.decimals
  let above := below + 1
  match grid.readsBack x below, grid.readsBack x above with
  | false, false => none
  | true, false => some below
  | false, true => some above
  | true, true =>
    let down := here - below * grid.decimals
    let up := above * grid.decimals - here
    if down < up then some below
    else if up < down then some above
    else match tie with
      | .up => some above
      | .even => some (if below % 2 = 0 then below else above)

/-- The most digits that a float ever needs. -/
def mostDigits : Nat := 17

/-- The fewest digits that read back as a positive float. -/
def Dyadic.shortest (tie : Tie) (x : Dyadic) : Digits :=
  let magnitude := x.magnitude
  let attempt := fun (count : Nat) =>
    let grid := Grid.of x.exponent (magnitude - count)
    (grid.nearest? tie x).map fun coefficient => Digits.ofScaled coefficient grid.exponent
  ((List.range mostDigits).findSome? attempt).getD ⟨['0'], 1⟩

end FormulaStepper.Decimal
