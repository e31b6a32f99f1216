import FormulaStepper.Value.Arithmetic

/-!
# Comparing values

Strings are ordered by their code points, numbers of both kinds by their size
as floats. Nothing else can be compared, and neither can a decimal that is not
a number. The least and the greatest of several values are found by comparing
each one with the best so far.
-/

set_option autoImplicit false

namespace FormulaStepper

/-- The order of two floats, if both are numbers. -/
def Decimal.order? (x y : Float) : Option Ordering :=
  if x.isNaN || y.isNaN then none
  else if x < y then some .lt
  else if x == y then some .eq
  else some .gt

namespace Value

/-- The order of two strings, by code points. -/
def stringOrder (s t : String) : Ordering :=
  if s < t then .lt else if s = t then .eq else .gt

/-- The order of two values, for the operation that asks for it. -/
def compare (operation : String) (left right : Value) : Except EvalError Ordering :=
  match left, right with
  | .string s, .string t => .ok (stringOrder s t)
  | _, _ =>
    match left.number?, right.number? with
    | some x, some y =>
      match Decimal.order? x y with
      | some order => .ok order
      | none => .error (mismatch operation left right)
    | _, _ => .error (mismatch operation left right)

/-- The best of `best` and the candidates after it. A candidate replaces the
best so far when it compares to it as `better` says. -/
def bestOf (operation : String) (better : Ordering) : Value → List Value → Except EvalError Value
  | best, [] => .ok best
  | best, candidate :: rest => do
    let order ← compare operation candidate best
    bestOf operation better (if order = better then candidate else best) rest

/-- The candidates among which `min` and `max` choose: the arguments, or the
elements of a single list. -/
def candidates : List Value → List Value
  | [.list items] => items
  | arguments => arguments

/-- The least or the greatest candidate; null if there is none. A candidate
that stands alone is compared with nothing. -/
def extreme (operation : String) (better : Ordering) (arguments : List Value) :
    Except EvalError Value :=
  match candidates arguments with
  | [] => .ok .null
  | first :: rest => bestOf operation better first rest

/-- The sum of the items, from left to right, onto a start. -/
def sumFrom : Value → List Value → Except EvalError Value
  | total, [] => .ok total
  | total, item :: items => do
    let next ← total.add item
    sumFrom next items

end Value

end FormulaStepper
