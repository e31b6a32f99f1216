/-!
# Built-in functions

A formula can call seven functions. Each admits a range of argument counts,
which is checked when the formula is read.
-/

set_option autoImplicit false

namespace FormulaStepper.Formula

/-- The built-in functions. -/
inductive Function where
  /-- The conditional `if(condition, value, …, otherwise)`. -/
  | choose
  | abs
  | min
  | max
  | size
  | sum
  | null
deriving Repr, DecidableEq

/-- A range of argument counts; without a greatest one it is unbounded. -/
structure Arity where
  least : Nat
  most : Option Nat
deriving Repr, DecidableEq

namespace Arity

/-- Whether a count lies in the range. -/
def admits (arity : Arity) (count : Nat) : Bool :=
  arity.least ≤ count && arity.most.all (count ≤ ·)

/-- The range in words. -/
def describe (arity : Arity) : String :=
  match arity.most with
  | none => "at least " ++ toString arity.least
  | some most =>
    if most = arity.least then toString arity.least
    else toString arity.least ++ " to " ++ toString most

end Arity

namespace Function

/-- The name under which a formula calls a function. -/
def name : Function → String
  | .choose => "if"
  | .abs => "abs"
  | .min => "min"
  | .max => "max"
  | .size => "size"
  | .sum => "sum"
  | .null => "null"

/-- The built-in function of a name. -/
def lookup? : String → Option Function
  | "if" => some .choose
  | "abs" => some .abs
  | "min" => some .min
  | "max" => some .max
  | "size" => some .size
  | "sum" => some .sum
  | "null" => some .null
  | _ => none

/-- The argument counts that a function admits. -/
def arity : Function → Arity
  | .choose => ⟨2, none⟩
  | .abs => ⟨1, some 1⟩
  | .min => ⟨1, none⟩
  | .max => ⟨1, none⟩
  | .size => ⟨1, some 1⟩
  | .sum => ⟨1, some 1⟩
  | .null => ⟨0, some 0⟩

@[simp] theorem lookup?_name (function : Function) : lookup? function.name = some function := by
  cases function <;> rfl

end Function

end FormulaStepper.Formula
