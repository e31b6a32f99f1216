import FormulaStepper.Debugger.CallStack

/-!
# Breakpoints

Each command suspends the evaluation by a rule, its breakpoint. The rule looks
at the next events, the entries and exits of nodes, and at the depth of the
stack at each of them. The depth counts the event's own frame.
-/

set_option autoImplicit false

namespace FormulaStepper

/-- Whether a node begins or has its value. -/
inductive EventKind where
  | enter
  | exit
deriving Repr, DecidableEq

/-- An entry or exit, with the depth of the stack that has its frame on top. -/
structure Event where
  kind : EventKind
  depth : Nat
deriving Repr, DecidableEq

/-- The rule that decides where the evaluation is suspended. -/
inductive Breakpoint where
  /-- At the next event. -/
  | stepInto
  /-- When the innermost of `depth` frames is left, or one around it. -/
  | stepOut (depth : Nat)
  /-- At the next event at exactly this depth. -/
  | next (depth : Nat)
  /-- Nowhere. -/
  | continueToEnd
  /-- Nowhere, since the evaluation is complete. -/
  | finished
deriving Repr, DecidableEq

namespace Breakpoint

/-- The rule for stepping out of the innermost frame without a value. -/
def ofStepOut (stack : CallStack) : Breakpoint :=
  .stepOut stack.liveDepth

/-- The rule for staying at the depth of the stack. -/
def ofNext (stack : CallStack) : Breakpoint :=
  .next stack.depth

/-- The label of a breakpoint. -/
def name : Breakpoint → String
  | .stepInto => "Step into"
  | .stepOut _ => "Step out"
  | .next _ => "Next"
  | .continueToEnd => "Continue"
  | .finished => "End"

/-- Whether the breakpoint stands for completion. -/
def isFinished : Breakpoint → Bool
  | .finished => true
  | _ => false

/-- Whether the evaluation is suspended at an event. Leaving the root is
completion, and not a return to a caller, so stepping out does not stop
there. -/
def suspendsAt : Breakpoint → Event → Bool
  | .stepInto, _ => true
  | .stepOut depth, event =>
    let around := event.depth - 1
    event.kind = .exit && around < depth && 0 < around
  | .next depth, event => event.depth = depth
  | .continueToEnd, _ => false
  | .finished, _ => false

/-- The label of the last breakpoint that suspended the evaluation; it is
empty before the first. -/
def label (current : Option Breakpoint) : String :=
  (current.map name).getD ""

end Breakpoint

/-- The commands that go on with the evaluation. -/
inductive RunMode where
  | continue
  | stepOver
  | stepInto
  | stepOut
deriving Repr, DecidableEq

/-- The command of a name, as the terminal and debug clients write it. -/
def RunMode.ofCommand? : String → Option RunMode
  | "c" | "continue" => some .continue
  | "n" | "next" | "stepOver" => some .stepOver
  | "s" | "step" | "stepIn" | "stepInto" => some .stepInto
  | "o" | "out" | "stepOut" => some .stepOut
  | _ => none

end FormulaStepper
