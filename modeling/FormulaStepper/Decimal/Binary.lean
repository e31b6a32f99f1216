/-!
# Binary floating-point values as exact numbers

A finite float is plus or minus a natural mantissa times a power of two. The
mantissa and the exponent are read from its sixty-four bits, and every text
form of a float is computed from them with natural numbers alone.
-/

set_option autoImplicit false

namespace FormulaStepper.Decimal

/-- A positive number `mantissa * 2 ^ exponent`. -/
structure Dyadic where
  mantissa : Nat
  exponent : Int
deriving Repr, DecidableEq

/-- What the bits of a float stand for. -/
inductive Reading where
  | notANumber
  | infinite (negative : Bool)
  | finite (negative : Bool) (magnitude : Dyadic)
deriving Repr, DecidableEq

/-- The exponent of the smallest floats, which have no leading one. -/
def leastExponent : Int := -1074

/-- The mantissa at which the spacing of floats doubles. -/
def leadingOne : Nat := 0x10000000000000

/-- Reads sign, exponent and fraction from the bits of a float. -/
def Reading.ofBits (bits : UInt64) : Reading :=
  let word := bits.toNat
  let negative := decide (0x8000000000000000 ≤ word)
  let scale : Nat := word / leadingOne % 0x800
  let fraction : Nat := word % leadingOne
  if scale = 2047 then
    if fraction = 0 then .infinite negative else .notANumber
  else if scale = 0 then .finite negative ⟨fraction, leastExponent⟩
  else .finite negative ⟨leadingOne + fraction, (scale : Int) - 1075⟩

/-- What a float stands for. -/
def Reading.ofFloat (x : Float) : Reading :=
  .ofBits x.toBits

namespace Dyadic

/-- The factor two to a power, on the side where the power is positive. -/
def twoPower (exponent : Int) : Nat := Nat.pow 2 exponent.toNat

/-- The number as a natural one, if it is whole. -/
def whole? (x : Dyadic) : Option Nat :=
  let fractionBits := twoPower (-x.exponent)
  if x.mantissa % fractionBits = 0 then
    some (x.mantissa * twoPower x.exponent / fractionBits)
  else none

/-- Half the distance to the next float below, in quarters of the last place.
It is halved where the spacing doubles. -/
def gapBelow (x : Dyadic) : Nat :=
  if x.mantissa = leadingOne ∧ leastExponent < x.exponent then 1 else 2

/-- Half the distance to the next float above, in quarters of the last place. -/
def gapAbove : Nat := 2

end Dyadic

end FormulaStepper.Decimal
