/-!
# Values

A formula computes a value: nothing, a 64-bit integer, a binary floating-point
number (here called a decimal), a string or a list. There is no type of truth
values. Comparisons give the integers one and zero, and every value counts as
true or false.

Two notions of equality belong to values. `Value.identical` compares kind by
kind and is the equality of list elements; the formula operator `=` is
`Value.looseEq` and compares numbers of both kinds by size.
-/

set_option autoImplicit false

namespace FormulaStepper

/-- A value of the formula language. -/
inductive Value where
  | null
  | int (n : Int64)
  | decimal (x : Float)
  | string (text : String)
  | list (items : List Value)
deriving Inhabited

/-- The kinds of values, for messages. -/
inductive ValueType where
  | null
  | integer
  | decimal
  | string
  | list
deriving Repr, DecidableEq

/-- The name of a kind of values. -/
def ValueType.name : ValueType → String
  | .null => "null"
  | .integer => "integer"
  | .decimal => "decimal"
  | .string => "string"
  | .list => "list"

namespace Value

/-- The kind of a value. -/
def type : Value → ValueType
  | .null => .null
  | .int _ => .integer
  | .decimal _ => .decimal
  | .string _ => .string
  | .list _ => .list

/-- One for true, zero for false. -/
def ofBool (holds : Bool) : Value :=
  .int (if holds then 1 else 0)

/-- Whether a value counts as true: everything but null, zero and what is empty. -/
def isTruthy : Value → Bool
  | .null => false
  | .int n => n != 0
  | .decimal x => !(x == 0.0)
  | .string text => !text.isEmpty
  | .list items => !items.isEmpty

/-- A number as a float. Integers beyond 53 bits are rounded to the nearest one. -/
def number? : Value → Option Float
  | .int n => some (Float.ofInt n.toInt)
  | .decimal x => some x
  | _ => none

mutual

/-- Equality kind by kind: an integer never equals a decimal, and a decimal
that is not a number equals nothing. -/
def identical : Value → Value → Bool
  | .null, .null => true
  | .int a, .int b => a == b
  | .decimal x, .decimal y => x == y
  | .string s, .string t => s == t
  | .list xs, .list ys => identicalItems xs ys
  | _, _ => false

/-- Equality element by element. -/
def identicalItems : List Value → List Value → Bool
  | [], [] => true
  | x :: xs, y :: ys => identical x y && identicalItems xs ys
  | _, _ => false

end

/-- Equality of the operator `=`: two numbers by size, anything else kind by
kind. -/
def looseEq (left right : Value) : Bool :=
  match left.number?, right.number? with
  | some x, some y => x == y
  | _, _ => left.identical right

@[simp] theorem isTruthy_ofBool (holds : Bool) : (ofBool holds).isTruthy = holds := by
  cases holds <;> rfl

end Value

end FormulaStepper
