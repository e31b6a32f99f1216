import FormulaStepper.Value.Error

/-!
# Failures of a debug session
-/

set_option autoImplicit false

namespace FormulaStepper

/-- Why a command or an observation failed. -/
inductive DebugError where
  /-- The formula has no value. -/
  | evaluation (error : EvalError)
  /-- A node was left for which there is no frame. -/
  | stackUnderflow
  /-- Another frame than the expected one is on top. -/
  | frameMismatch (expected found : String)
  /-- The session has come to its end already. -/
  | sessionFinished
deriving Repr, DecidableEq

/-- The wording of a debug error. -/
def DebugError.message : DebugError → String
  | .evaluation error => "evaluation failed: " ++ error.message
  | .stackUnderflow => "call stack underflow"
  | .frameMismatch expected found =>
    "call stack out of sync: expected '" ++ expected ++ "', found '" ++ found ++ "'"
  | .sessionFinished => "debug session already finished"

end FormulaStepper
