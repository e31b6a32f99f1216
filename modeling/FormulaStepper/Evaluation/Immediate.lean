import FormulaStepper.Evaluation.Machine
import FormulaStepper.Formula.Parser

/-!
# Evaluating a text at once

Clients and users may ask for the value of any formula while another one is
being debugged. It is read and evaluated in one go.
-/

set_option autoImplicit false

namespace FormulaStepper

/-- Why a text has no value. -/
inductive FormulaError where
  /-- The text is no formula. -/
  | parse (error : Formula.ParseError)
  /-- The formula has no value. -/
  | evaluation (error : EvalError)

/-- The wording of a formula error is that of what it comes from. -/
def FormulaError.message : FormulaError → String
  | .parse error => error.message
  | .evaluation error => error.message

/-- The value of the formula in a text. -/
def evaluateText (environment : Environment) (source : String) : Except FormulaError Value :=
  match Formula.parse source with
  | .error error => .error (.parse error)
  | .ok formula => (formula.evaluate environment).mapError .evaluation

end FormulaStepper
