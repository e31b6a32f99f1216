import FormulaStepper.Proofs.Debugger.History
import FormulaStepper.Proofs.Evaluation.Composition

/-!
# What a debugger shows is true

A debugger stops in the middle of an evaluation. Every result that it shows is
nevertheless the value of its node as a formula of its own, in the trace and on
the stack. After a failure the node to blame is that of the innermost frame
without a result: as a formula of its own it fails with the same error. A frame
of a child that has its value may still lie above it, since the evaluation has
taken the value over in the step that failed and the session has not seen that.
-/

set_option autoImplicit false

namespace FormulaStepper

open Formula

variable {environment : Environment} {formula : Node}

/-- A frame with a result has the value of its node. -/
def Frame.Truthful (environment : Environment) (frame : Frame) : Prop :=
  ∀ value, frame.result = some value → frame.site.node.evaluate environment = .ok value

namespace Evaluation

variable {before next : Evaluation}

theorem Truthful.after (truthful : before.Truthful environment) (within : before.Within formula)
    (count : Nat) : (before.after environment count).Truthful environment := by
  induction count generalizing before with
  | zero => exact truthful
  | succ count ih =>
    exact ih (truthful.step within.active rfl).truthful (within.moves rfl).within

/-- A node of a truthful evaluation that has a value has its own. -/
theorem Truthful.nodes (truthful : before.Truthful environment) :
    ∀ node ∈ before.nodes, ∀ value, node.2 = some value →
      node.1.node.evaluate environment = .ok value := by
  have valueless (sites : List Site) : ∀ node ∈ sites.map fun site => (site, (none : Option Value)),
      ∀ value, node.2 = some value → node.1.node.evaluate environment = .ok value := by
    intro node member value valued
    obtain ⟨site, -, rfl⟩ := List.mem_map.mp member
    cases valued
  cases before with
  | ready formula => exact valueless _
  | complete value => exact valueless _
  | active stack => exact valueless _
  | left site value below =>
    intro node member other valued
    rcases List.mem_cons.mp member with rfl | around
    · cases valued
      exact truthful.1
    · exact valueless _ node around other valued

/-- A step that fails leaves the same nodes active. -/
theorem live_of_error {error : EvalError}
    (stepped : before.step environment = (.error error, next)) : next.live = before.live := by
  have same : ∀ stack, advance environment stack = (.error error, next) →
      next.live = stack.map Activation.site := by
    intro stack failed
    cases stack with
    | nil => cases failed; rfl
    | cons top below =>
      simp only [advance] at failed
      split at failed
      · cases failed; rfl
      · cases failed
      · split at failed <;> cases failed
        rfl
  cases before with
  | ready formula => cases stepped
  | complete value => cases stepped
  | active stack => exact same stack stepped
  | left site value below =>
    cases below with
    | nil => cases stepped
    | cons parent rest => exact same (parent.accept value :: rest) stepped

end Evaluation

/-- The results in the trace and on the stack are the values of their nodes. -/
structure Session.Truthful (environment : Environment) (session : Session) : Prop where
  trace : ∀ record ∈ session.trace.history, record.Truthful environment
  stack : ∀ frame ∈ session.stack.frames, frame.Truthful environment

/-- Frames that mirror a truthful evaluation are truthful. -/
theorem Mirrors.truthful {evaluation : Evaluation} {session : Session}
    (mirrors : Mirrors evaluation session) (truthful : evaluation.Truthful environment) :
    ∀ frame ∈ session.stack.frames, frame.Truthful environment := by
  intro frame member
  have node : frame.shown ∈ evaluation.nodes := by
    rw [← mirrors]
    exact List.mem_map_of_mem member
  exact truthful.nodes frame.shown node

/-- The trace stays truthful as long as the frames are. -/
theorem Session.Truthful.observe {before after : Session}
    {answer : Except DebugError (Option Event)} (truthful : before.Truthful environment)
    (observes : before.Observes answer after)
    (stack : ∀ frame ∈ after.stack.frames, frame.Truthful environment) :
    after.Truthful environment := by
  refine ⟨?_, stack⟩
  have recorded (record : Frame) (last : record.Truthful environment) :
      ∀ other ∈ before.trace.history ++ [record], other.Truthful environment := by
    intro other member
    rcases List.mem_append.mp member with earlier | here
    · exact truthful.trace other earlier
    · exact List.mem_singleton.mp here ▸ last
  cases observes with
  | enters site =>
    rw [Trace.history_recordEnter]
    exact recorded _ (stack _ List.mem_cons_self)
  | leaves top below value innermost =>
    rw [Trace.history_recordResult]
    exact recorded _ (stack _ List.mem_cons_self)
  | completes none_open => exact truthful.trace
  | refuses error => exact truthful.trace

/-- The frame numbered by the live depth, counting from the outside, is the
innermost one without a result; those further inside have one. -/
structure CallStack.InnermostLive (stack : CallStack) (frame : Frame) : Prop where
  positive : 0 < stack.liveDepth
  place : stack.outermostFirst[stack.liveDepth - 1]? = some frame
  unevaluated : frame.result = none
  inside : ∀ place (inner : Frame), stack.liveDepth ≤ place →
    stack.outermostFirst[place]? = some inner → inner.isEvaluated = true

/-- The frames without a result, and after them the evaluated one on top if
there is one. -/
theorem CallStack.exists_outermostFirst_eq {stack : CallStack} {frame : Frame}
    {around : List Frame} (innermost : stack.dropEvaluated.frames = frame :: around) :
    ∃ evaluated : List Frame, stack.outermostFirst = around.reverse ++ frame :: evaluated ∧
      (∀ inner ∈ evaluated, inner.isEvaluated = true) ∧ stack.liveDepth = around.length + 1 := by
  obtain ⟨frames, counter⟩ := stack
  rw [dropEvaluated_frames] at innermost
  cases frames with
  | nil => cases innermost
  | cons top below =>
    cases evaluated : top.isEvaluated with
    | true =>
      simp only [Frame.dropEvaluated, evaluated, if_true] at innermost
      subst innermost
      refine ⟨[top], by simp [outermostFirst], ?_, by simp [liveDepth, evaluated]⟩
      intro inner member
      exact List.mem_singleton.mp member ▸ evaluated
    | false =>
      simp only [Frame.dropEvaluated, evaluated] at innermost
      cases innermost
      exact ⟨[], List.reverse_cons, fun inner member => (by cases member),
        by simp [liveDepth, evaluated]⟩

theorem CallStack.innermostLive {stack : CallStack} {frame : Frame} {around : List Frame}
    (innermost : stack.dropEvaluated.frames = frame :: around)
    (unevaluated : frame.result = none) : stack.InnermostLive frame := by
  obtain ⟨evaluated, frames, results, depth⟩ := exists_outermostFirst_eq innermost
  refine ⟨by omega, ?_, unevaluated, fun place inner beyond found => ?_⟩
  · rw [frames, depth, Nat.add_sub_cancel, List.getElem?_append_right (by simp)]
    simp
  · rw [depth] at beyond
    rw [frames, List.getElem?_append_right (by simp; omega), List.length_reverse] at found
    obtain ⟨further, rfl⟩ := Nat.exists_eq_add_of_le beyond
    have offset : around.length + 1 + further - around.length = further + 1 := by omega
    rw [offset, List.getElem?_cons_succ] at found
    exact results inner (List.mem_of_getElem? found)

namespace Debugger

variable {before after debugger : Debugger}

theorem Reached.evaluation_truthful (reached : Reached formula environment debugger) :
    debugger.evaluation.Truthful environment := by
  obtain ⟨count, same⟩ := reached.coupled.course
  have ready : (Evaluation.ready formula).Truthful environment := trivial
  rw [same]
  exact ready.after (Evaluation.within_ready formula) count

/-- Where the session observes a step, it stays truthful. -/
theorem Reached.truthful_observes {step : Step} {event : Option Event}
    (reached : Reached formula environment before)
    (truthful : before.session.Truthful environment)
    (advances : before.Advances (.ok (step, event)) after) :
    after.session.Truthful environment := by
  refine truthful.observe advances.session_of_ok ?_
  have own := reached.evaluation_truthful
  have within := reached.coupled.within
  have fixed := reached.coupled.fixed
  cases advances with
  | @observes _ _ next session stepped observed eventful mirrors =>
    rw [fixed] at stepped
    exact mirrors.truthful (own.step within.active stepped).truthful

theorem Reached.truthful (reached : Reached formula environment debugger) :
    debugger.session.Truthful environment := by
  have empty : Session.empty.Truthful environment :=
    ⟨fun _ member => (by cases member), fun _ member => (by cases member)⟩
  refine reached.session_invariant empty ?_ fun reached advances before =>
    reached.truthful_observes before advances
  rintro first second truthful stack trace
  exact ⟨trace ▸ truthful.trace, stack ▸ truthful.stack⟩

/-- A debugger that cannot advance has a frame whose node fails likewise. -/
theorem Reached.exists_innermostLive (reached : Reached formula environment before)
    (running : before.state = .running) {error : EvalError}
    (advances : before.Advances (.error (.evaluation error)) after) :
    ∃ frame, after.session.stack.InnermostLive frame ∧
      frame.site.node.evaluate environment = .error error := by
  have own := reached.evaluation_truthful
  have within := reached.coupled.within
  have fixed := reached.coupled.fixed
  have dropped := (reached.coupled.mirrors (ne_failed_of_running running)).dropEvaluated
  cases advances with
  | @fails _ next foreseen stepped =>
    rw [← Evaluation.live_of_error stepped] at dropped
    rw [fixed] at stepped
    have shows_truth := own.step within.active stepped
    cases shows_truth with
    | @fails _ top below failed truthful =>
      cases frames : before.session.stack.dropEvaluated.frames with
      | nil => rw [frames] at dropped; cases dropped
      | cons frame around =>
        rw [frames] at dropped
        have shown : frame.shown = (top.site, none) := (List.cons.inj dropped).1
        have same_site : frame.site = top.site := congrArg Prod.fst shown
        refine ⟨frame, CallStack.innermostLive frames (congrArg Prod.snd shown), ?_⟩
        rw [same_site]
        exact failed

/-- The innermost frame without a result is there in a failed debugger, and its
node fails with the same error. -/
theorem Reached.failure (reached : Reached formula environment debugger)
    (failed : debugger.state = .failed) {error : EvalError}
    (cause : debugger.failure = some (.evaluation error)) :
    ∃ frame, debugger.session.stack.InnermostLive frame ∧
      frame.site.node.evaluate environment = .error error := by
  cases reached with
  | start => cases failed
  | arm breakpoint reached unfinished => cases failed
  | advance reached running advanced =>
    exact absurd failed (ne_failed_of_running (running_of_advance running advanced))
  | suspend breakpoint reached running => cases failed
  | finish reached running advanced => cases failed
  | fail reached running advanced =>
    cases cause
    obtain ⟨frame, innermost, fails⟩ :=
      reached.exists_innermostLive running (reached.advances running advanced)
    exact ⟨frame, innermost, fails⟩

/-- **What a debugger shows is true.** After any commands, every result in the
trace and on the stack is the value of its node as a formula of its own. If the
evaluation has failed, there is an innermost frame without a result, and its
node as a formula of its own fails with the same error. -/
theorem results_are_values (formula : Node) (environment : Environment)
    (commands : List Command) :
    let debugger := (start formula environment).performAll commands
    (∀ entry ∈ debugger.session.trace.entries.toList, ∀ value, entry.result = some value →
      entry.site.node.evaluate environment = .ok value) ∧
    (∀ frame ∈ debugger.session.stack.frames, ∀ value, frame.result = some value →
      frame.site.node.evaluate environment = .ok value) ∧
    (debugger.state = .failed → ∀ error, debugger.failure = some (.evaluation error) →
      ∃ frame, debugger.session.stack.InnermostLive frame ∧
        frame.site.node.evaluate environment = .error error) := by
  intro debugger
  have reached : Reached formula environment debugger := Reached.start.performAll commands
  exact ⟨reached.truthful.trace, reached.truthful.stack, fun failed _ => reached.failure failed⟩

end Debugger

end FormulaStepper
