import FormulaStepper.Debugger.Session

/-!
# Controlling an evaluation

A debugger holds a formula, its evaluation and the session that observes it.
Each command makes a breakpoint active and runs the evaluation until that
breakpoint suspends it, the formula has its value, or it fails. Between
commands nothing changes.

Leaving the root does not suspend the evaluation; it runs straight on into
completion. After completion or failure every command is refused.
-/

set_option autoImplicit false

namespace FormulaStepper

open Formula

/-- Where a debugger stands. -/
inductive DebugState where
  /-- No command was given yet. -/
  | idle
  /-- A command is being carried out. -/
  | running
  | suspended
  | finished
  | failed
deriving Repr, DecidableEq

/-- Whether a debugger has come to its end. -/
def DebugState.isTerminal : DebugState → Bool
  | .finished | .failed => true
  | _ => false

/-- The stepped evaluation of one formula. -/
structure Debugger where
  formula : Node
  environment : Environment
  evaluation : Evaluation
  session : Session
  state : DebugState
  result : Option Value
  failure : Option DebugError

namespace Debugger

/-- A debugger to which no command was given yet. -/
def start (formula : Node) (environment : Environment) : Debugger :=
  ⟨formula, environment, .ready formula, .empty, .idle, none, none⟩

/-- Whether the debugger has come to its end. -/
def isFinished (debugger : Debugger) : Bool :=
  debugger.state.isTerminal

/-- The breakpoint that suspended the evaluation last. -/
def current (debugger : Debugger) : Option Breakpoint :=
  debugger.session.current

/-- One step of the evaluation, observed by the session. -/
def advance (debugger : Debugger) : Except DebugError (Step × Option Event) × Debugger :=
  match debugger.evaluation.step debugger.environment with
  | (.error error, evaluation) => (.error (.evaluation error), { debugger with evaluation })
  | (.ok step, evaluation) =>
    let (observed, session) := debugger.session.observe step
    (observed.map fun event => (step, event), { debugger with evaluation, session })

/-- The debugger after an error. Stack and trace stay as they are. -/
def fail (debugger : Debugger) (error : DebugError) : Debugger :=
  { debugger with
    state := .failed
    session := { debugger.session with current := none }
    failure := some error }

/-- The debugger suspended by a breakpoint. -/
def suspend (debugger : Debugger) (breakpoint : Breakpoint) : Debugger :=
  { debugger with
    state := .suspended
    session := { debugger.session with current := some breakpoint } }

/-- The debugger after completion. -/
def finish (debugger : Debugger) (outcome : Option Value) : Debugger :=
  { debugger with
    state := .finished
    session := { debugger.session with current := some .finished }
    result := outcome }

/-- Whether an event is the exit of the root. -/
def leavesRoot (event : Event) : Bool :=
  event.kind = .exit && event.depth = 1

/-- A step that shows an event leaves fewer steps to come. -/
theorem remaining_lt_of_advance {before after : Debugger} {step : Step} {event : Event}
    (advanced : before.advance = (.ok (step, some event), after)) :
    after.evaluation.remaining < before.evaluation.remaining := by
  unfold advance at advanced
  split at advanced
  · cases advanced
  · next shown evaluation stepped =>
    generalize observed : before.session.observe shown = outcome at advanced
    obtain ⟨found, session⟩ := outcome
    cases found with
    | error error => cases advanced
    | ok possible =>
      cases advanced
      exact Evaluation.remaining_lt_of_step stepped (Session.showsNode_of_observe observed)

/-- Runs the evaluation until the breakpoint suspends it or it ends. -/
def runTo (breakpoint : Breakpoint) (debugger : Debugger) : Except DebugError Unit × Debugger :=
  match advanced : debugger.advance with
  | (.error error, after) => (.error error, after.fail error)
  | (.ok (step, none), after) => (.ok (), after.finish step.outcome?)
  | (.ok (_, some event), after) =>
    have := remaining_lt_of_advance advanced
    if leavesRoot event then runTo breakpoint after
    else if after.session.shouldSuspend event then (.ok (), after.suspend breakpoint)
    else runTo breakpoint after
termination_by debugger.evaluation.remaining
decreasing_by all_goals assumption

/-- Makes a breakpoint active and goes on. -/
def resume (debugger : Debugger) (breakpoint : Breakpoint) : Except DebugError Unit × Debugger :=
  if debugger.isFinished then (.error .sessionFinished, debugger)
  else
    runTo breakpoint
      { debugger with
        session := debugger.session.setBreakpoint breakpoint
        state := .running }

/-- The breakpoint of a command, which depends on the stack at that time. -/
def breakpoint (debugger : Debugger) : RunMode → Breakpoint
  | .stepInto => .stepInto
  | .stepOut => .ofStepOut debugger.session.stack
  | .stepOver => .ofNext debugger.session.stack
  | .continue => .continueToEnd

/-- Carries out a command. -/
def run (debugger : Debugger) (mode : RunMode) : Except DebugError Unit × Debugger :=
  debugger.resume (debugger.breakpoint mode)

/-- Begins the evaluation, and stops at the entry of the root if asked to. -/
def launch (debugger : Debugger) (stopOnEntry : Bool) : Except DebugError Unit × Debugger :=
  debugger.run (if stopOnEntry then .stepInto else .continue)

end Debugger

end FormulaStepper
