import FormulaStepper.Value.Basic

/-!
# Failures of evaluation

Why a value could not be computed. An error carries its cause; the wording is
in `EvalError.message`.
-/

set_option autoImplicit false

namespace FormulaStepper

/-- Why a value could not be computed. -/
inductive EvalError where
  /-- No variable has this name. -/
  | undefinedVariable (name : String)
  /-- The operation does not take operands of these two kinds together. -/
  | typeMismatch (operation : String) (left right : ValueType)
  /-- The operation does not take an operand of this kind. -/
  | invalidOperand (operation : String) (operand : ValueType)
  /-- The divisor is zero. -/
  | divisionByZero (operation : String)
  /-- The exact result is no 64-bit integer, or it was not computed: there is no remainder
  without its quotient, and no power whose exponent takes more than 32 bits. -/
  | overflow (operation : String)
  /-- There is no active node to go on with. -/
  | stackExhausted
  /-- The operand at this place was never supplied. -/
  | missingOperand (position : Nat)
deriving Repr, DecidableEq

/-- The wording of an evaluation error. -/
def EvalError.message : EvalError → String
  | .undefinedVariable name => "undefined variable '" ++ name ++ "'"
  | .typeMismatch operation left right =>
    "type mismatch: cannot apply '" ++ operation ++ "' to " ++ left.name ++ " and " ++ right.name
  | .invalidOperand operation operand =>
    "type mismatch: '" ++ operation ++ "' does not accept " ++ operand.name
  | .divisionByZero operation => "division by zero in '" ++ operation ++ "'"
  | .overflow operation => "integer overflow in '" ++ operation ++ "'"
  | .stackExhausted => "evaluation stack is empty"
  | .missingOperand position => "operand " ++ toString position ++ " is missing"

end FormulaStepper
