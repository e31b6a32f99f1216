import FormulaStepper.Value.Error
import FormulaStepper.Value.Text

/-!
# Arithmetic on values

Two integers give an exact integer or an overflow; division truncates toward
zero and the remainder has the sign of the dividend. A decimal among the
operands makes the operation one on floats. Addition also joins two lists, and
joins texts as soon as one operand is a string.
-/

set_option autoImplicit false

namespace FormulaStepper

namespace Value

/-- The least 64-bit integer. -/
def leastInt : Int := -0x8000000000000000

/-- The greatest 64-bit integer. -/
def greatestInt : Int := 0x7FFFFFFFFFFFFFFF

/-- Whether an integer is a 64-bit integer. -/
def fits (n : Int) : Bool :=
  leastInt ≤ n && n ≤ greatestInt

/-- The exact result of an operation, if it is a 64-bit integer. -/
def exact (operation : String) (n : Int) : Except EvalError Value :=
  if fits n then .ok (.int (Int64.ofInt n)) else .error (.overflow operation)

/-- The refusal of an operation on two operands. -/
def mismatch (operation : String) (left right : Value) : EvalError :=
  .typeMismatch operation left.type right.type

/-- An operation on floats, of two numbers of either kind. -/
def floating (operation : String) (compute : Float → Float → Float) (left right : Value) :
    Except EvalError Value :=
  match left.number?, right.number? with
  | some x, some y => .ok (.decimal (compute x y))
  | _, _ => .error (mismatch operation left right)

/-- The operator `+`. -/
def add (left right : Value) : Except EvalError Value :=
  match left, right with
  | .int a, .int b => exact "+" (a.toInt + b.toInt)
  | .list xs, .list ys => .ok (.list (xs ++ ys))
  | .string s, _ => .ok (.string (s ++ right.text))
  | _, .string t => .ok (.string (left.text ++ t))
  | _, _ => floating "+" (· + ·) left right

/-- The operator `-` between two operands. -/
def sub (left right : Value) : Except EvalError Value :=
  match left, right with
  | .int a, .int b => exact "-" (a.toInt - b.toInt)
  | _, _ => floating "-" (· - ·) left right

/-- The operator `*`. -/
def mul (left right : Value) : Except EvalError Value :=
  match left, right with
  | .int a, .int b => exact "*" (a.toInt * b.toInt)
  | _, _ => floating "*" (· * ·) left right

/-- Whether a value is the number zero, of either kind and sign. -/
def isZero (value : Value) : Bool :=
  match value.number? with
  | some x => x == 0.0
  | none => false

/-- The operator `/`. A zero divisor is refused before the operands' kinds are
looked at. -/
def div (left right : Value) : Except EvalError Value :=
  if right.isZero then .error (.divisionByZero "/")
  else
    match left, right with
    | .int a, .int b => exact "/" (a.toInt.tdiv b.toInt)
    | _, _ => floating "/" (· / ·) left right

/-- The operator `%`, on integers alone. It overflows together with the
division that it belongs to. -/
def rem (left right : Value) : Except EvalError Value :=
  match left, right with
  | .int a, .int b =>
    if b = 0 then .error (.divisionByZero "%")
    else if fits (a.toInt.tdiv b.toInt) then exact "%" (a.toInt.tmod b.toInt)
    else .error (.overflow "%")
  | _, _ => .error (mismatch "%" left right)

/-- The greatest exponent of an integer power. -/
def greatestExponent : Nat := 0xFFFFFFFF

/-- An integer power. From the 64th power on, only the bases zero, one and
minus one have a power in range, and it depends on the exponent's parity. -/
def intPower (base : Int) (exponent : Nat) : Except EvalError Value :=
  if greatestExponent < exponent then .error (.overflow "^")
  else if exponent < 64 then exact "^" (Int.pow base exponent)
  else if base.natAbs ≤ 1 then exact "^" (Int.pow base (2 - exponent % 2))
  else .error (.overflow "^")

/-- The operator `^`. An integer to a negative integer is a power of floats. -/
def pow (left right : Value) : Except EvalError Value :=
  match left, right with
  | .int a, .int b =>
    if 0 ≤ b.toInt then intPower a.toInt b.toInt.toNat else floating "^" Float.pow left right
  | _, _ => floating "^" Float.pow left right

/-- The operator `-` before an operand. -/
def neg (value : Value) : Except EvalError Value :=
  match value with
  | .int n => exact "-" (-n.toInt)
  | .decimal x => .ok (.decimal (-x))
  | _ => .error (.invalidOperand "-" value.type)

/-- The size of a number without its sign. -/
def abs (value : Value) : Except EvalError Value :=
  match value with
  | .int n => exact "abs" n.toInt.natAbs
  | .decimal x => .ok (.decimal x.abs)
  | _ => .error (.invalidOperand "abs" value.type)

end Value

end FormulaStepper
