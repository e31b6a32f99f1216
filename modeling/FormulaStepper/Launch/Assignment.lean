import FormulaStepper.Evaluation.Immediate
import FormulaStepper.Launch.Config

/-!
# Assignments

A variable can be set by an assignment `NAME=FORMULA`. The formula is
everything after the first equals sign, and is evaluated without variables.
-/

set_option autoImplicit false

namespace FormulaStepper

/-- The parts of an assignment before and after the first equals sign. -/
def splitAssignment : List Char → Option (List Char × List Char)
  | [] => none
  | c :: rest =>
    if c = '=' then some ([], rest)
    else (splitAssignment rest).map fun (name, formula) => (c :: name, formula)

/-- The name and the value of an assignment. -/
def parseAssignment (assignment : String) : Except ConfigError (String × Value) :=
  match splitAssignment assignment.toList with
  | none => .error (.invalidVariable assignment "expected NAME=VALUE")
  | some (name, formula) =>
    let name := String.ofList (Text.trim name)
    if isVariableName name then
      match evaluateText Variables.empty.environment (String.ofList formula) with
      | .ok value => .ok (name, value)
      | .error error => .error (.invalidVariable name error.message)
    else .error (.invalidVariable name invalidNameReason)

end FormulaStepper
