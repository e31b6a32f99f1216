import FormulaStepper.Formula.Node
import FormulaStepper.Value.Order

/-!
# Operators and functions on values

What a node does with the values of its operands once it has all of them. The
conditional and the connectives are not among these operations: the machine
decides from their first operands which one to evaluate next.
-/

set_option autoImplicit false

namespace FormulaStepper

open Formula

/-- The meaning of a unary operator. -/
def Formula.UnaryOp.apply (op : UnaryOp) (operand : Value) : Except EvalError Value :=
  match op with
  | .neg => operand.neg
  | .not => .ok (.ofBool !operand.isTruthy)

/-- Whether the order of two values makes a comparison true. -/
def Formula.BinaryOp.comparing (op : BinaryOp) (accepts : Ordering → Bool) (left right : Value) :
    Except EvalError Value := do
  let order ← Value.compare op.symbol.text left right
  .ok (.ofBool (accepts order))

/-- The meaning of a binary operator. -/
def Formula.BinaryOp.apply (op : BinaryOp) (left right : Value) : Except EvalError Value :=
  match op with
  | .add => left.add right
  | .sub => left.sub right
  | .mul => left.mul right
  | .div => left.div right
  | .rem => left.rem right
  | .pow => left.pow right
  | .equal => .ok (.ofBool (left.looseEq right))
  | .notEqual => .ok (.ofBool !(left.looseEq right))
  | .less => op.comparing (· = .lt) left right
  | .lessEqual => op.comparing (· ≠ .gt) left right
  | .greater => op.comparing (· = .gt) left right
  | .greaterEqual => op.comparing (· ≠ .lt) left right

/-- The number of elements of a list, or of characters of a string. -/
def Value.length (value : Value) : Except EvalError Value :=
  match value with
  | .list items => .ok (.int (Int64.ofNat items.length))
  | .string text => .ok (.int (Int64.ofNat text.length))
  | _ => .error (.invalidOperand "size" value.type)

/-- The sum of the elements of a list. -/
def Value.sum (value : Value) : Except EvalError Value :=
  match value with
  | .list items => Value.sumFrom (.int 0) items
  | _ => .error (.invalidOperand "sum" value.type)

/-- The meaning of a function of one argument. -/
def Formula.Function.applyToFirst (operation : Value → Except EvalError Value) :
    List Value → Except EvalError Value
  | [] => .error (.missingOperand 0)
  | value :: _ => operation value

/-- The meaning of a function. The conditional, given values, keeps the last. -/
def Formula.Function.apply (function : Function) (arguments : List Value) :
    Except EvalError Value :=
  match function with
  | .choose => .ok (arguments.getLast?.getD .null)
  | .null => .ok .null
  | .abs => applyToFirst Value.abs arguments
  | .size => applyToFirst Value.length arguments
  | .sum => applyToFirst Value.sum arguments
  | .min => Value.extreme "min" .lt arguments
  | .max => Value.extreme "max" .gt arguments

end FormulaStepper
