import FormulaStepper.Proofs.Debugger.History

/-!
# Commands do not change the evaluation

Where a debugger is suspended depends on its commands, but what it sees does
not. In every reached debugger the session has seen a first part of the
transcript of the formula, and the rest of the transcript is that of its
evaluation (`Debugger.Course`). So no breakpoint loses, repeats or reorders a
step. Once there is nothing left, state, result, failure, trace and stack are
those of the transcript, whatever the commands were, and so is what an
evaluation leaves in a session without breakpoints (`Session.watch_eq`).
-/

set_option autoImplicit false

namespace FormulaStepper

open Formula

namespace Session

/-- The session with other breakpoints. -/
def marked (session : Session) (active current : Option Breakpoint) : Session :=
  { session with active, current }

/-- What a session has seen, without its breakpoints. -/
def seen (session : Session) : Session :=
  session.marked none none

/-- The session after it has observed a whole account, completion included. -/
def conclude (session : Session) (account : Account Value) : Session :=
  match account.outcome with
  | .ok value => ((session.observeAll account.steps).observe (.complete value)).2
  | .error _ => session.observeAll account.steps

/-- Observing a step neither looks at the breakpoints nor changes them. -/
theorem observe_marked (session : Session) (active current : Option Breakpoint) (step : Step) :
    (session.marked active current).observe step =
      ((session.observe step).1, (session.observe step).2.marked active current) := by
  cases step with
  | enter site => rfl
  | exit site value =>
    simp only [observe, exit, marked]
    cases session.stack.dropEvaluated.frames with
    | nil => rfl
    | cons top below =>
      by_cases here : top.site.path = site.path
      · simp only [if_pos here]
      · simp only [if_neg here]
  | complete value =>
    simp only [observe, marked]
    cases session.stack.dropEvaluated.top? with
    | none => rfl
    | some top => rfl

theorem seen_observe (session : Session) (step : Step) :
    (session.observe step).2.seen = (session.seen.observe step).2 := by
  rw [seen, seen, observe_marked]

theorem active_observe (session : Session) (step : Step) :
    (session.observe step).2.active = session.active := by
  have own : session.marked session.active session.current = session := rfl
  rw [← own, observe_marked]
  rfl

/-- The trace is only ever added to. -/
theorem isPrefix_trace_observeAll (session : Session) (steps : List Step) :
    session.trace.entries.toList <+: (session.observeAll steps).trace.entries.toList := by
  obtain ⟨added, grows, -⟩ := session.exists_added_observeAll steps
  exact ⟨added, grows.symm⟩

theorem isPrefix_trace_conclude (session : Session) {account : Account Value}
    {shown rest : List Step} (split : shown ++ rest = account.steps) :
    (session.observeAll shown).trace.entries.toList <+:
      (session.conclude account).trace.entries.toList := by
  have observed : (session.observeAll shown).trace.entries.toList <+:
      (session.observeAll account.steps).trace.entries.toList := by
    rw [← split, observeAll_append]
    exact isPrefix_trace_observeAll _ rest
  unfold conclude
  cases account.outcome with
  | error error => exact observed
  | ok value => exact observed.trans (isPrefix_trace_observeAll _ [.complete value])

/-! ## Evaluation without breakpoints -/

section Watching

variable {environment : Environment} {formula : Node} {evaluation next : Evaluation}
  {session : Session}

theorem watch_of_shown {step : Step} {event : Option Event} {after : Session}
    (stepped : evaluation.step environment = (.ok step, next)) (node : step.showsNode = true)
    (observed : session.observe step = (.ok event, after)) :
    session.watch environment evaluation = after.watch environment next := by
  cases step with
  | complete value => cases node
  | enter site =>
    rw [watch]
    split <;> simp_all
  | exit site value =>
    rw [watch]
    split <;> simp_all

theorem watch_of_complete {value : Value} {event : Option Event} {after : Session}
    (stepped : evaluation.step environment = (.ok (.complete value), next))
    (observed : session.observe (.complete value) = (.ok event, after)) :
    session.watch environment evaluation = (.ok value, after) := by
  rw [watch]
  split <;> simp_all

theorem watch_of_error {error : EvalError}
    (stepped : evaluation.step environment = (.error error, next)) :
    session.watch environment evaluation = (.error (.evaluation error), session) := by
  rw [watch]
  split <;> simp_all

/-- One step that shows a node, and then the rest. -/
theorem conclude_shows {step : Step} {event : Option Event} {after : Session}
    (observed : session.observe step = (.ok event, after)) (rest : Account Value) :
    session.conclude (Account.shows step >>= fun _ => rest) = after.conclude rest := by
  have first : (session.observe step).2 = after := by rw [observed]
  subst first
  rfl

/-- **Watching an evaluation leaves what its transcript leaves.** -/
theorem watch_eq (within : evaluation.Within formula) (mirrors : Mirrors evaluation session) :
    (session.watch environment evaluation).2 =
      session.conclude (evaluation.transcript environment) := by
  induction evaluation using Evaluation.step_induction environment generalizing session with
  | fails before next error stepped =>
    rw [Evaluation.transcript_of_error stepped, watch_of_error stepped]
    rfl
  | completes before next value stepped =>
    obtain ⟨event, after, observed, -, -⟩ := mirrors.observe (within.moves stepped)
    have last : (session.observe (.complete value)).2 = after := by rw [observed]
    rw [Evaluation.transcript_of_complete stepped, watch_of_complete stepped observed, ← last]
    rfl
  | shows before next shown stepped node ih =>
    obtain ⟨event, after, observed, -, mirrors_next⟩ := mirrors.observe (within.moves stepped)
    rw [watch_of_shown stepped node observed, Evaluation.transcript_of_shown stepped node,
      conclude_shows observed]
    exact ih (within.moves stepped).within mirrors_next

end Watching

end Session

namespace Debugger

/-- How a debugger stands when the evaluation has this outcome. -/
def Ends (debugger : Debugger) : Except EvalError Value → Prop
  | .ok value =>
    debugger.state = .finished ∧ debugger.result = some value ∧ debugger.failure = none
  | .error error =>
    debugger.state = .failed ∧ debugger.result = none ∧
      debugger.failure = some (.evaluation error)

/-- The part of a transcript that a debugger has seen: a first part of it, of
which its evaluation has the rest, or the whole. -/
inductive Course (debugger : Debugger) (whole : Account Value) : Prop where
  | onward (shown : List Step)
      (steps : shown ++ (debugger.evaluation.transcript debugger.environment).steps =
        whole.steps)
      (outcome : (debugger.evaluation.transcript debugger.environment).outcome = whole.outcome)
      (seen : debugger.session.seen = Session.empty.observeAll shown)
      (unfinished : debugger.isFinished = false) (no_result : debugger.result = none)
      (no_failure : debugger.failure = none)
  | ended (ends : debugger.Ends whole.outcome)
      (seen : debugger.session.seen = Session.empty.conclude whole)

section Courses

variable {formula : Node} {environment : Environment} {before after debugger : Debugger}
  {whole : Account Value}

theorem Ends.isFinished {outcome : Except EvalError Value} (ends : debugger.Ends outcome) :
    debugger.isFinished = true := by
  cases outcome with
  | ok value => rw [Debugger.isFinished, ends.1]; rfl
  | error error => rw [Debugger.isFinished, ends.1]; rfl

/-- Before its end a debugger has a rest of the transcript to come. -/
theorem Course.exists_rest (course : debugger.Course whole)
    (unfinished : debugger.isFinished = false) :
    ∃ shown, shown ++ (debugger.evaluation.transcript debugger.environment).steps = whole.steps ∧
      (debugger.evaluation.transcript debugger.environment).outcome = whole.outcome ∧
      debugger.session.seen = Session.empty.observeAll shown ∧ debugger.result = none ∧
      debugger.failure = none := by
  cases course with
  | onward shown steps outcome seen _ no_result no_failure =>
    exact ⟨shown, steps, outcome, seen, no_result, no_failure⟩
  | ended ends seen =>
    rw [ends.isFinished] at unfinished
    cases unfinished

theorem isFinished_of_running (running : debugger.state = .running) :
    debugger.isFinished = false := by
  rw [isFinished, running]
  rfl

theorem isFinished_of_suspended (suspended : debugger.state = .suspended) :
    debugger.isFinished = false := by
  rw [isFinished, suspended]
  rfl

/-- The next step of the transcript is seen. -/
theorem Course.advance (course : before.Course whole) (running : before.state = .running)
    {step : Step} {event : Event} (advances : before.Advances (.ok (step, some event)) after) :
    after.Course whole := by
  obtain ⟨shown, steps, outcome, seen, no_result, no_failure⟩ :=
    course.exists_rest (isFinished_of_running running)
  cases advances with
  | @observes _ _ next session stepped observed eventful mirrors =>
    rw [Evaluation.transcript_of_shown stepped eventful.symm] at steps outcome
    refine .onward (shown ++ [step]) ?_ outcome ?_ (isFinished_of_running running) no_result
      no_failure
    · rw [List.append_assoc]
      exact steps
    · have last : (before.session.observe step).2 = session := by rw [observed]
      rw [Session.observeAll_append, ← seen, ← last, Session.seen_observe]
      rfl

/-- Where the transcript is at its end, the debugger finishes with its value. -/
theorem Course.finish (course : before.Course whole) (running : before.state = .running)
    {step : Step} (advances : before.Advances (.ok (step, none)) after) :
    (after.finish step.outcome?).Course whole := by
  obtain ⟨shown, steps, outcome, seen, no_result, no_failure⟩ :=
    course.exists_rest (isFinished_of_running running)
  cases advances with
  | @observes _ _ next session stepped observed eventful mirrors =>
    cases step with
    | enter site => cases eventful
    | exit site value => cases eventful
    | complete value =>
      rw [Evaluation.transcript_of_complete stepped] at steps outcome
      have all_shown : shown = whole.steps := (List.append_nil shown).symm.trans steps
      have valued : whole.outcome = .ok value := outcome.symm
      refine .ended ?_ ?_
      · rw [valued]
        exact ⟨rfl, rfl, no_failure⟩
      · have last : session.seen = (before.session.seen.observe (.complete value)).2 := by
          rw [← Session.seen_observe, observed]
        rw [Session.conclude, valued, ← all_shown, ← seen]
        exact last

/-- Where the transcript fails, the debugger fails with its error. -/
theorem Course.fail (course : before.Course whole) (running : before.state = .running)
    {error : DebugError} (advances : before.Advances (.error error) after) :
    (after.fail error).Course whole := by
  obtain ⟨shown, steps, outcome, seen, no_result, no_failure⟩ :=
    course.exists_rest (isFinished_of_running running)
  cases advances with
  | @fails error next foreseen stepped =>
    rw [Evaluation.transcript_of_error stepped] at steps outcome
    have all_shown : shown = whole.steps := (List.append_nil shown).symm.trans steps
    have failed : whole.outcome = .error error := outcome.symm
    refine .ended ?_ ?_
    · rw [failed]
      exact ⟨rfl, no_result, rfl⟩
    · rw [Session.conclude, failed, ← all_shown, ← seen]
      rfl

/-- **Every reached debugger is on the one course of its formula.** -/
theorem Reached.course (reached : Reached formula environment debugger) :
    debugger.Course ((Evaluation.ready formula).transcript environment) := by
  induction reached with
  | start => exact .onward [] rfl rfl rfl rfl rfl rfl
  | arm breakpoint reached unfinished ih =>
    obtain ⟨shown, steps, outcome, seen, no_result, no_failure⟩ := ih.exists_rest unfinished
    exact .onward shown steps outcome seen rfl no_result no_failure
  | advance reached running advanced ih =>
    exact ih.advance running (reached.advances running advanced)
  | suspend breakpoint reached running ih =>
    obtain ⟨shown, steps, outcome, seen, no_result, no_failure⟩ :=
      ih.exists_rest (isFinished_of_running running)
    exact .onward shown steps outcome seen rfl no_result no_failure
  | finish reached running advanced ih =>
    exact ih.finish running (reached.advances running advanced)
  | fail reached running advanced ih =>
    exact ih.fail running (reached.advances running advanced)

end Courses

/-! ## The end of a run -/

section Ends

variable {formula : Node} {environment : Environment} {debugger : Debugger}

theorem active_advance {before after : Debugger}
    {answer : Except DebugError (Step × Option Event)}
    (advanced : before.advance = (answer, after)) :
    after.session.active = before.session.active := by
  unfold advance at advanced
  split at advanced
  · cases advanced
    rfl
  · next step next stepped =>
    cases advanced
    exact Session.active_observe before.session step

/-- Nothing suspends a run to the end. -/
theorem isFinished_runTo {breakpoint : Breakpoint}
    (to_end : debugger.session.active = some .continueToEnd) :
    (debugger.runTo breakpoint).2.isFinished = true := by
  induction debugger using Debugger.runTo.induct with
  | case1 debugger error after advanced => rw [runTo_of_error advanced]; rfl
  | case2 debugger step after advanced => rw [runTo_of_complete advanced]; rfl
  | case3 debugger step event after advanced fewer leaves ih =>
    rw [runTo_of_event advanced, if_pos leaves]
    exact ih ((active_advance advanced).trans to_end)
  | case4 debugger step event after advanced fewer stays suspends =>
    rw [Session.shouldSuspend, active_advance advanced, to_end] at suspends
    cases suspends
  | case5 debugger step event after advanced fewer stays passes ih =>
    rw [runTo_of_event advanced, if_neg stays, if_neg passes]
    exact ih ((active_advance advanced).trans to_end)

/-- A debugger that is launched without a stop comes to its end. -/
theorem isFinished_launch (formula : Node) (environment : Environment) :
    ((start formula environment).launch false).2.isFinished = true := by
  have armed : (start formula environment).launch false =
      ((start formula environment).armed .continueToEnd).runTo .continueToEnd := rfl
  rw [armed]
  exact isFinished_runTo rfl

/-- The same state, result, failure, trace and stack. -/
structure Agrees (first second : Debugger) : Prop where
  state : first.state = second.state
  result : first.result = second.result
  failure : first.failure = second.failure
  trace : first.session.trace = second.session.trace
  stack : first.session.stack = second.session.stack

/-- A debugger at its end stands as the transcript says. -/
theorem Course.ends {whole : Account Value} (course : debugger.Course whole)
    (finished : debugger.isFinished = true) :
    debugger.Ends whole.outcome ∧ debugger.session.seen = Session.empty.conclude whole := by
  cases course with
  | onward _ _ _ _ unfinished _ _ =>
    rw [finished] at unfinished
    cases unfinished
  | ended ends seen => exact ⟨ends, seen⟩

/-- A debugger at its end has the value or the error of the formula. -/
theorem Reached.ends (reached : Reached formula environment debugger)
    (finished : debugger.isFinished = true) : debugger.Ends (formula.evaluate environment) := by
  rw [Node.evaluate_eq_transcript]
  exact (reached.course.ends finished).1

theorem Ends.unique {first second : Debugger} {outcome : Except EvalError Value}
    (one : first.Ends outcome) (other : second.Ends outcome) :
    first.state = second.state ∧ first.result = second.result ∧
      first.failure = second.failure := by
  cases outcome with
  | ok value =>
    obtain ⟨state, result, failure⟩ := one
    obtain ⟨state', result', failure'⟩ := other
    exact ⟨state.trans state'.symm, result.trans result'.symm, failure.trans failure'.symm⟩
  | error error =>
    obtain ⟨state, result, failure⟩ := one
    obtain ⟨state', result', failure'⟩ := other
    exact ⟨state.trans state'.symm, result.trans result'.symm, failure.trans failure'.symm⟩

theorem Course.agrees {whole : Account Value} {first second : Debugger}
    (one : first.Course whole) (other : second.Course whole)
    (finished : first.isFinished = true) (finished' : second.isFinished = true) :
    first.Agrees second := by
  obtain ⟨ends, seen⟩ := one.ends finished
  obtain ⟨ends', seen'⟩ := other.ends finished'
  obtain ⟨state, result, failure⟩ := ends.unique ends'
  have same : first.session.seen = second.session.seen := seen.trans seen'.symm
  refine ⟨state, result, failure, ?_, ?_⟩
  · change first.session.seen.trace = second.session.seen.trace
    rw [same]
  · change first.session.seen.stack = second.session.seen.stack
    rw [same]

/-- The trace of a debugger is a first part of the trace of the evaluation
without breakpoints. -/
theorem Course.isPrefix_trace
    (course : debugger.Course ((Evaluation.ready formula).transcript environment)) :
    debugger.session.trace.entries.toList <+:
      (formula.evaluateTraced environment .empty).2.trace.entries.toList := by
  have traced : (formula.evaluateTraced environment .empty).2 =
      Session.empty.conclude ((Evaluation.ready formula).transcript environment) :=
    Session.watch_eq (Evaluation.within_ready formula) (mirrors_empty formula)
  rw [traced]
  have same_trace : debugger.session.seen.trace = debugger.session.trace := rfl
  cases course with
  | onward shown steps outcome seen _ _ _ =>
    rw [← same_trace, seen]
    exact Session.isPrefix_trace_conclude _ steps
  | ended ends seen =>
    have whole : debugger.session.trace =
        (Session.empty.conclude ((Evaluation.ready formula).transcript environment)).trace :=
      same_trace.symm.trans (congrArg Session.trace seen)
    exact whole ▸ List.prefix_rfl

/-- **Commands do not change the evaluation.** After any commands the trace is a
first part of the trace that the evaluation without breakpoints leaves in a new
session. Debuggers of one formula at their end agree, whatever their commands
were; they agree with one that was launched without a stop, which comes to its
end, and they end with the value or the error of the formula. -/
theorem commands_independent (formula : Node) (environment : Environment) :
    (∀ commands,
      ((start formula environment).performAll commands).session.trace.entries.toList <+:
        (formula.evaluateTraced environment .empty).2.trace.entries.toList) ∧
    (∀ first second,
      ((start formula environment).performAll first).isFinished = true →
      ((start formula environment).performAll second).isFinished = true →
      ((start formula environment).performAll first).Agrees
        ((start formula environment).performAll second)) ∧
    ((start formula environment).launch false).2.isFinished = true ∧
    ∀ commands, ((start formula environment).performAll commands).isFinished = true →
      ((start formula environment).performAll commands).Agrees
        ((start formula environment).launch false).2 ∧
      ((start formula environment).performAll commands).Ends (formula.evaluate environment) := by
  have course (commands : List Command) :
      ((start formula environment).performAll commands).Course
        ((Evaluation.ready formula).transcript environment) :=
    (Reached.start.performAll commands).course
  have launched : ((start formula environment).launch false).2 =
      (start formula environment).performAll [.launch false] := rfl
  refine ⟨fun commands => (course commands).isPrefix_trace,
    fun first second finished finished' => (course first).agrees (course second) finished finished',
    isFinished_launch formula environment, fun commands finished => ⟨?_, ?_⟩⟩
  · rw [launched]
    refine (course commands).agrees (course _) finished ?_
    rw [← launched]
    exact isFinished_launch formula environment
  · rw [Node.evaluate, Evaluation.run_eq_outcome]
    exact ((course commands).ends finished).1

end Ends

end Debugger

end FormulaStepper
