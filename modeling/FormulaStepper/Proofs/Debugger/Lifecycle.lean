import FormulaStepper.Proofs.Debugger.Independence

/-!
# Where a debugger stands

Between commands a debugger is idle, suspended, finished or failed, and never
running. The state goes with the breakpoints, the frames, the result and the
failure (`Debugger.Settled`). The condition on a suspended debugger speaks of
the event that its session observed last (`Debugger.LastObserved`): this event
made the active breakpoint suspend the evaluation. A failed debugger has the
stack and the trace that the last event left, since the step that failed was
not observed.

A debugger at its end refuses every command and stays as it is.
-/

set_option autoImplicit false

namespace FormulaStepper

open Formula

namespace Debugger

/-- The last event that a session observed: when it was observed, the session
became what it is now, but for its breakpoints. -/
def LastObserved (formula : Node) (environment : Environment) (session : Session)
    (event : Event) : Prop :=
  ∃ before step after, Reached formula environment before ∧ before.state = .running ∧
    before.advance = (.ok (step, some event), after) ∧ session.seen = after.session.seen

/-- A suspended debugger was suspended by its active breakpoint, at the last
event. That event is not the exit of the root, and its frame is on top. -/
structure SuspendedAt (formula : Node) (environment : Environment) (debugger : Debugger)
    (breakpoint : Breakpoint) (event : Event) : Prop where
  active : debugger.session.active = some breakpoint
  current : debugger.session.current = some breakpoint
  observed : LastObserved formula environment debugger.session event
  not_root : leavesRoot event = false
  suspends : breakpoint.suspendsAt event = true
  innermost : ∃ top below, debugger.session.stack.frames = top :: below ∧
    (top.isEvaluated = true ↔ event.kind = .exit)
  no_result : debugger.result = none
  no_failure : debugger.failure = none

/-- A failed debugger met an error when it advanced after the last event, and
has the stack and the trace of that time. -/
structure FailedBy (formula : Node) (environment : Environment) (debugger : Debugger)
    (error : DebugError) (event : Event) : Prop where
  current : debugger.session.current = none
  failure : debugger.failure = some error
  no_result : debugger.result = none
  observed : LastObserved formula environment debugger.session event
  failed : ∃ before after, Reached formula environment before ∧ before.state = .running ∧
    before.advance = (.error error, after) ∧ debugger.session.seen = before.session.seen

/-- Where a debugger can stand between commands. -/
inductive Settled (formula : Node) (environment : Environment) (debugger : Debugger) : Prop where
  | idle (state : debugger.state = .idle) (active : debugger.session.active = none)
      (current : debugger.session.current = none) (stack : debugger.session.stack.frames = [])
      (trace : debugger.session.trace.history = [])
  | suspended (state : debugger.state = .suspended) (breakpoint : Breakpoint) (event : Event)
      (at_event : debugger.SuspendedAt formula environment breakpoint event)
  | finished (state : debugger.state = .finished)
      (current : debugger.session.current = some .finished)
      (stack : debugger.session.stack.frames = []) (value : Value)
      (result : debugger.result = some value) (no_failure : debugger.failure = none)
  | failed (state : debugger.state = .failed) (error : DebugError) (event : Event)
      (by_error : debugger.FailedBy formula environment error event)

section Observations

variable {formula : Node} {environment : Environment} {before after debugger : Debugger}

/-- An evaluation that has not begun can take a step. -/
theorem Advances.ne_ready {error : DebugError} (advances : before.Advances (.error error) after) :
    before.evaluation ≠ .ready formula := by
  intro ready
  cases advances with
  | fails foreseen stepped =>
    rw [ready] at stepped
    cases stepped

theorem Ends.result_of_failed {outcome : Except EvalError Value} (ends : debugger.Ends outcome)
    (failed : debugger.state = .failed) : debugger.result = none := by
  cases outcome with
  | ok value => cases failed.symm.trans ends.1
  | error error => exact ends.2.1

theorem Ends.result_of_finished {outcome : Except EvalError Value} (ends : debugger.Ends outcome)
    (finished : debugger.state = .finished) :
    ∃ value, debugger.result = some value ∧ debugger.failure = none := by
  cases outcome with
  | ok value => exact ⟨value, ends.2⟩
  | error error => cases finished.symm.trans ends.1

/-- Until a debugger finishes, nothing was done yet, or there is an event that
was observed last. -/
theorem Reached.exists_lastObserved (reached : Reached formula environment debugger)
    (unfinished : debugger.state ≠ .finished) :
    debugger.evaluation = .ready formula ∨
      ∃ event, LastObserved formula environment debugger.session event := by
  induction reached with
  | start => exact .inl rfl
  | arm breakpoint reached unended ih => exact ih (ne_finished_of_isFinished unended)
  | @advance before after step event reached running advanced ih =>
    exact .inr ⟨event, before, step, after, reached, running, advanced, rfl⟩
  | suspend breakpoint reached running ih => exact ih (ne_finished_of_running running)
  | finish reached running advanced ih => exact absurd rfl unfinished
  | @fail before after error reached running advanced ih =>
    have advances := reached.advances running advanced
    have same := advances.session_of_error
    rcases ih (ne_finished_of_running running) with ready | ⟨event, observed⟩
    · exact absurd ready advances.ne_ready
    · refine .inr ⟨event, ?_⟩
      rw [← same] at observed
      exact observed

/-- The debugger that a run suspends has just observed an event. -/
theorem Reached.suspendedAt {step : Step} {event : Event} {breakpoint : Breakpoint}
    (reached : Reached formula environment before) (running : before.state = .running)
    (armed : before.session.active = some breakpoint)
    (advanced : before.advance = (.ok (step, some event), after))
    (stays : ¬leavesRoot event = true) (suspends : after.session.shouldSuspend event = true) :
    (after.suspend breakpoint).SuspendedAt formula environment breakpoint event := by
  have still := running_of_advance running advanced
  have active : after.session.active = some breakpoint := (active_advance advanced).trans armed
  obtain ⟨frame, below, frames, -, seen⟩ :=
    (reached.advances running advanced).session_of_ok.exists_frame
  obtain ⟨-, -, -, -, no_result, no_failure⟩ :=
    (reached.advance running advanced).course.exists_rest (isFinished_of_running still)
  refine ⟨active, rfl, ⟨before, step, after, reached, running, advanced, rfl⟩,
    Bool.eq_false_iff.mpr stays, ?_, ⟨frame, below, frames, ?_⟩, no_result, no_failure⟩
  · rw [Session.shouldSuspend, active] at suspends
    exact suspends
  · rw [seen]
    cases frame.isEvaluated <;> simp

/-- The debugger that cannot advance has failed after the last event. -/
theorem Reached.failedBy {error : DebugError} (reached : Reached formula environment before)
    (running : before.state = .running) (advanced : before.advance = (.error error, after)) :
    ∃ event, (after.fail error).FailedBy formula environment error event := by
  have advances := reached.advances running advanced
  have same := advances.session_of_error
  have no_result : (after.fail error).result = none :=
    ((reached.fail running advanced).course.ends rfl).1.result_of_failed rfl
  rcases reached.exists_lastObserved (ne_finished_of_running running) with
    ready | ⟨event, observed⟩
  · exact absurd ready advances.ne_ready
  · refine ⟨event, rfl, rfl, no_result, ?_, before, after, reached, running, advanced, ?_⟩
    · rw [← same] at observed
      exact observed
    · rw [← same]
      rfl

/-- The debugger that finds the evaluation complete has its value, and no frame
is left. -/
theorem Reached.settled_finish {step : Step} (reached : Reached formula environment before)
    (running : before.state = .running) (advanced : before.advance = (.ok (step, none), after)) :
    (after.finish step.outcome?).Settled formula environment := by
  have finished := reached.finish running advanced
  obtain ⟨value, result, no_failure⟩ := (finished.course.ends rfl).1.result_of_finished rfl
  exact .finished rfl rfl (finished.frames.2 rfl) value result no_failure

end Observations

section Commands

variable {formula : Node} {environment : Environment} {debugger : Debugger}

/-- A run comes to an end or is suspended, and leaves the debugger settled. -/
theorem Reached.settled_runTo {breakpoint : Breakpoint}
    (reached : Reached formula environment debugger) (running : debugger.state = .running)
    (armed : debugger.session.active = some breakpoint) :
    (debugger.runTo breakpoint).2.Settled formula environment := by
  induction debugger using Debugger.runTo.induct with
  | case1 debugger error after advanced =>
    obtain ⟨event, by_error⟩ := reached.failedBy running advanced
    rw [runTo_of_error advanced]
    exact .failed rfl error event by_error
  | case2 debugger step after advanced =>
    rw [runTo_of_complete advanced]
    exact reached.settled_finish running advanced
  | case3 debugger step event after advanced fewer leaves ih =>
    rw [runTo_of_event advanced, if_pos leaves]
    exact ih (reached.advance running advanced) (running_of_advance running advanced)
      ((active_advance advanced).trans armed)
  | case4 debugger step event after advanced fewer stays suspends =>
    rw [runTo_of_event advanced, if_neg stays, if_pos suspends]
    exact .suspended rfl breakpoint event
      (reached.suspendedAt running armed advanced stays suspends)
  | case5 debugger step event after advanced fewer stays passes ih =>
    rw [runTo_of_event advanced, if_neg stays, if_neg passes]
    exact ih (reached.advance running advanced) (running_of_advance running advanced)
      ((active_advance advanced).trans armed)

/-- A debugger at its end refuses every command, and stays as it is. -/
theorem perform_of_isFinished (finished : debugger.isFinished = true) (command : Command) :
    debugger.perform command = (.error .sessionFinished, debugger) := by
  obtain ⟨breakpoint, same⟩ := exists_perform_eq_resume debugger command
  rw [same, resume, if_pos finished]

theorem performAll_of_isFinished (finished : debugger.isFinished = true)
    (commands : List Command) : debugger.performAll commands = debugger := by
  induction commands with
  | nil => rfl
  | cons command commands ih =>
    have refused : (debugger.perform command).2 = debugger :=
      congrArg Prod.snd (perform_of_isFinished finished command)
    exact (congrArg (performAll · commands) refused).trans ih

theorem Reached.perform (reached : Reached formula environment debugger) (command : Command) :
    Reached formula environment (debugger.perform command).2 := by
  obtain ⟨breakpoint, same⟩ := exists_perform_eq_resume debugger command
  rw [same]
  exact (reached.resume breakpoint).1

/-- A command leaves a settled debugger settled. -/
theorem Settled.perform (settled : debugger.Settled formula environment)
    (reached : Reached formula environment debugger) (command : Command) :
    (debugger.perform command).2.Settled formula environment := by
  cases finished : debugger.isFinished with
  | true =>
    rw [perform_of_isFinished finished]
    exact settled
  | false =>
    obtain ⟨breakpoint, same⟩ := exists_perform_eq_resume debugger command
    rw [same, resume, if_neg (by rw [finished]; exact Bool.false_ne_true)]
    exact (Reached.arm breakpoint reached finished).settled_runTo rfl rfl

theorem Settled.performAll (settled : debugger.Settled formula environment)
    (reached : Reached formula environment debugger) (commands : List Command) :
    (debugger.performAll commands).Settled formula environment := by
  induction commands generalizing debugger with
  | nil => exact settled
  | cons command commands ih => exact ih (settled.perform reached command) (reached.perform command)

/-- **After any commands a debugger is settled**: idle and untouched, suspended
by its active breakpoint at the event that was observed last, finished with a
value and no frames, or failed with the stack and the trace of the last event.
Once it has finished or failed, it refuses every further command and stays as
it is. -/
theorem settled_after_commands (formula : Node) (environment : Environment)
    (commands : List Command) :
    let debugger := (start formula environment).performAll commands
    debugger.Settled formula environment ∧
    (debugger.isFinished = true → ∀ command,
      debugger.perform command = (.error .sessionFinished, debugger)) := by
  intro debugger
  have settled : (start formula environment).Settled formula environment :=
    .idle rfl rfl rfl rfl rfl
  exact ⟨settled.performAll .start commands, perform_of_isFinished⟩

end Commands

end Debugger

end FormulaStepper
