import FormulaStepper.Debugger.Breakpoint
import FormulaStepper.Debugger.Trace
import FormulaStepper.Evaluation.Machine

/-!
# Debug sessions

A session records the steps of an evaluation on a call stack and in a trace,
and holds the breakpoint that is active and the one that suspended last. It
does not trust the steps: a node that is left must be the one on top, and at
completion no frame may be open.
-/

set_option autoImplicit false

namespace FormulaStepper

open Formula

/-- What a session has seen, and its breakpoints. -/
structure Session where
  stack : CallStack
  trace : Trace
  active : Option Breakpoint
  current : Option Breakpoint
deriving Inhabited

namespace Session

/-- A session that has seen nothing. -/
def empty : Session := ⟨.empty, .empty, none, none⟩

/-- The session with another active breakpoint. -/
def setBreakpoint (session : Session) (breakpoint : Breakpoint) : Session :=
  { session with active := some breakpoint }

/-- Whether the active breakpoint suspends the evaluation at an event. -/
def shouldSuspend (session : Session) (event : Event) : Bool :=
  session.active.any (·.suspendsAt event)

/-- Opens a frame for a node that was entered. -/
def enter (session : Session) (site : Site) : Event × Session :=
  let stack := session.stack.push site
  (⟨.enter, stack.depth⟩,
    { session with stack, trace := session.trace.recordEnter (session.stack.opened site) })

/-- Gives the innermost frame its result, if it is the frame of this node. -/
def exit (session : Session) (site : Site) (value : Value) :
    Except DebugError (Event × Session) :=
  match session.stack.frames with
  | [] => .error .stackUnderflow
  | top :: below =>
    if top.site.path = site.path then
      let frames := { top with result := some value } :: below
      .ok (⟨.exit, frames.length⟩,
        { session with
          stack := { session.stack with frames }
          trace := session.trace.recordResult top value })
    else .error (.frameMismatch site.node.name top.name)

/-- What a frame mismatch calls a stack without frames. -/
def emptyStackName : String := "empty call stack"

/-- Records a step of the evaluation. An evaluated frame on top is dropped
first, also where the step is then refused. There is no event at completion. -/
def observe (session : Session) (step : Step) : Except DebugError (Option Event) × Session :=
  let session := { session with stack := session.stack.dropEvaluated }
  match step with
  | .enter site =>
    let (event, session) := session.enter site
    (.ok (some event), session)
  | .exit site value =>
    match session.exit site value with
    | .ok (event, session) => (.ok (some event), session)
    | .error error => (.error error, session)
  | .complete _ =>
    match session.stack.top? with
    | none => (.ok none, session)
    | some top => (.error (.frameMismatch emptyStackName top.name), session)

/-- An event is never seen at completion. -/
theorem showsNode_of_observe {before after : Session} {step : Step} {event : Event}
    (observed : before.observe step = (.ok (some event), after)) : step.showsNode = true := by
  cases step with
  | enter site => rfl
  | exit site value => rfl
  | complete value =>
    simp only [observe] at observed
    split at observed <;> cases observed

/-- Evaluates to the end while a session observes every step. -/
def watch (environment : Environment) (evaluation : Evaluation) (session : Session) :
    Except DebugError Value × Session :=
  match stepped : evaluation.step environment with
  | (.error error, _) => (.error (.evaluation error), session)
  | (.ok (.complete value), _) =>
    match session.observe (.complete value) with
    | (.error error, session) => (.error error, session)
    | (.ok _, session) => (.ok value, session)
  | (.ok (.enter site), after) =>
    have := Evaluation.remaining_lt_of_step stepped rfl
    match session.observe (.enter site) with
    | (.error error, session) => (.error error, session)
    | (.ok _, session) => watch environment after session
  | (.ok (.exit site value), after) =>
    have := Evaluation.remaining_lt_of_step stepped rfl
    match session.observe (.exit site value) with
    | (.error error, session) => (.error error, session)
    | (.ok _, session) => watch environment after session
termination_by evaluation.remaining
decreasing_by all_goals assumption

end Session

/-- Evaluates a formula while a session observes every step. Breakpoints are
not consulted. -/
def Formula.Node.evaluateTraced (environment : Environment) (formula : Node) (session : Session) :
    Except DebugError Value × Session :=
  session.watch environment (.ready formula)

end FormulaStepper
