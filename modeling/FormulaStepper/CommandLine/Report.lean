/-!
# Reports of failure

A failure is reported with its causes, each one coming from the next. A single
cause stands on an indented line, several are numbered. The further lines of a
cause are indented as its first one.
-/

set_option autoImplicit false

namespace FormulaStepper.CommandLine

/-- A failure with its causes, the nearest first. -/
structure Failure where
  message : String
  causes : List String
deriving Repr, DecidableEq

/-- A text with every line after the first one indented. -/
def indentLines (indent : Nat) (text : String) : String :=
  String.ofList (text.toList.flatMap fun c =>
    if c = '\n' then '\n' :: List.replicate indent ' ' else [c])

/-- The causes, numbered from `number` on. -/
def numberedCauses (number : Nat) : List String → List String
  | [] => []
  | cause :: causes =>
    let numeral := toString number
    let margin := String.ofList (List.replicate (5 - numeral.length) ' ')
    ("\n" ++ margin ++ numeral ++ ": " ++ indentLines 7 cause) :: numberedCauses (number + 1) causes

/-- The causes of a failure as text. -/
def causesText : List String → String
  | [] => ""
  | [cause] => "\n\nCaused by:\n    " ++ indentLines 4 cause
  | causes => "\n\nCaused by:" ++ String.join (numberedCauses 0 causes)

/-- The report on a failure. -/
def Failure.report (failure : Failure) : String :=
  "Error: " ++ failure.message ++ causesText failure.causes ++ "\n"

end FormulaStepper.CommandLine
