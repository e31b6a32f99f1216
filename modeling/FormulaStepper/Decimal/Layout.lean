import FormulaStepper.Decimal.Shortest

/-!
# Text forms of floating-point values

A layout says how the digits of a float are set out: whether whole numbers
are written with all their digits or with the fewest, what follows a whole
number, where positional notation ends, what sign a power of ten has, and
which way a tie goes. One function writes a float under any layout.
-/

set_option autoImplicit false

namespace FormulaStepper.Decimal

/-- How a number is set out. -/
structure Layout where
  /-- Where a tie between two shortest texts goes. -/
  tie : Tie
  /-- Whether a whole number is written with every digit of its exact value. -/
  exactWhole : Bool
  /-- What follows a whole number in positional notation. -/
  wholeMark : List Char
  /-- Whether a number with its point at this place is written positionally. -/
  positional : Int → Bool
  /-- What stands before a power of ten that is not negative. -/
  powerSign : List Char

/-- Digits with a point among them. -/
def Digits.positional (number : Digits) (wholeMark : List Char) : List Char :=
  if number.point ≤ 0 then
    ['0', '.'] ++ List.replicate (-number.point).toNat '0' ++ number.digits
  else
    let place := number.point.toNat
    if number.digits.length ≤ place then
      number.digits ++ List.replicate (place - number.digits.length) '0' ++ wholeMark
    else number.digits.take place ++ ['.'] ++ number.digits.drop place

/-- The digits of a power of ten, with its sign. -/
def powerText (powerSign : List Char) (power : Int) : List Char :=
  (if power < 0 then ['-'] else powerSign) ++ Nat.toDigits 10 power.natAbs

/-- Digits with the point after the first and a power of ten. -/
def Digits.scientific (number : Digits) (powerSign : List Char) : List Char :=
  let fraction := number.digits.drop 1
  number.digits.take 1 ++ (if fraction.isEmpty then [] else '.' :: fraction) ++
    'e' :: powerText powerSign (number.point - 1)

/-- Sets out the digits of a nonnegative number. -/
def Layout.write (layout : Layout) (number : Digits) : List Char :=
  if layout.positional number.point then number.positional layout.wholeMark
  else number.scientific layout.powerSign

/-- The text of a positive number. -/
def Layout.writeDyadic (layout : Layout) (x : Dyadic) : List Char :=
  if x.mantissa = 0 then layout.write ⟨['0'], 1⟩
  else
    match layout.exactWhole, x.whole? with
    | true, some n => Nat.toDigits 10 n ++ layout.wholeMark
    | _, _ => layout.write (x.shortest layout.tie)

/-- The text of a float. The sign of zero is written. -/
def Layout.writeFloat (layout : Layout) (x : Float) : String :=
  match Reading.ofFloat x with
  | .notANumber => "NaN"
  | .infinite negative => if negative then "-inf" else "inf"
  | .finite negative magnitude =>
    String.ofList ((if negative then ['-'] else []) ++ layout.writeDyadic magnitude)

end FormulaStepper.Decimal
