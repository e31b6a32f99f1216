import FormulaStepper.Proofs.Debugger.Events

/-!
# Where a command stops

A command is a search in the events of the formula. It begins after the events
that the debugger has seen, and passes those at which its breakpoint does not
stop. At the first event at which it does, the debugger is suspended
(`Debugger.Reached.stopsAfter`). If there is none, the debugger comes to its end
(`Debugger.Reached.runsOut`). The events do not depend on the commands, so what a
command does depends only on how many events came before it and on the depth
that its breakpoint took from the stack.

A breakpoint stops at the events that it matches (`Breakpoint.Matches`), but
never at the exit of the root.
-/

set_option autoImplicit false

namespace FormulaStepper

open Formula

namespace Breakpoint

/-- The events that a breakpoint matches. For stepping out these are the exits
after which fewer frames are left than its depth, but some. -/
def Matches : Breakpoint → Event → Prop
  | .stepInto, _ => True
  | .stepOut depth, event =>
    event.kind = .exit ∧ ∃ left, event.depth = left + 1 ∧ 0 < left ∧ left < depth
  | .next depth, event => event.depth = depth
  | .continueToEnd, _ => False
  | .finished, _ => False

/-- The events at which a breakpoint stops a run. -/
def StopsAt (breakpoint : Breakpoint) (event : Event) : Prop :=
  event ≠ .rootExit ∧ breakpoint.Matches event

theorem suspendsAt_iff {breakpoint : Breakpoint} {event : Event} :
    breakpoint.suspendsAt event = true ↔ breakpoint.Matches event := by
  cases breakpoint with
  | stepInto => simp [suspendsAt, Matches]
  | stepOut depth =>
    simp only [suspendsAt, Matches, Bool.and_eq_true, decide_eq_true_iff, and_assoc]
    refine and_congr_right fun _ => ⟨?_, ?_⟩
    · rintro ⟨fewer, some_left⟩
      exact ⟨event.depth - 1, by omega, some_left, fewer⟩
    · rintro ⟨left, depth, some_left, fewer⟩
      omega
  | next depth => simp [suspendsAt, Matches]
  | continueToEnd => simp [suspendsAt, Matches]
  | finished => simp [suspendsAt, Matches]

instance (breakpoint : Breakpoint) : DecidablePred breakpoint.StopsAt := fun event =>
  decidable_of_iff (event ≠ .rootExit ∧ breakpoint.suspendsAt event = true)
    (and_congr_right' suspendsAt_iff)

end Breakpoint

/-- The command to go on that a client's command amounts to. -/
def Command.mode : Command → RunMode
  | .launch stopOnEntry => if stopOnEntry then .stepInto else .continue
  | .run mode => mode

/-- What an evaluation without breakpoints has left in a session after its first
events. -/
def Formula.Node.sessionAfter (environment : Environment) (formula : Node) (count : Nat) :
    Session :=
  Session.empty.observeAll (((Evaluation.ready formula).transcript environment).steps.take count)

namespace Debugger

variable {formula : Node} {environment : Environment} {before after debugger : Debugger}
  {breakpoint : Breakpoint} {step : Step} {event : Event} {count : Nat}

theorem perform_eq_resume (debugger : Debugger) (command : Command) :
    debugger.perform command = debugger.resume (debugger.breakpoint command.mode) := by
  cases command with
  | launch stopOnEntry => rfl
  | run mode => rfl

/-- The debugger has seen this number of events of the formula: its trace has
recorded the first ones, each once and in order, as without breakpoints. -/
structure HasSeen (formula : Node) (environment : Environment) (debugger : Debugger)
    (count : Nat) : Prop where
  size : debugger.session.trace.size = count
  events : debugger.session.trace.history.map Frame.event =
    (formula.events environment).take count
  trace : debugger.session.trace = (formula.sessionAfter environment count).trace

/-- A command has suspended the debugger after this number of events, with the
stack of that time. -/
structure StopsAfter (formula : Node) (environment : Environment) (count : Nat)
    (breakpoint : Breakpoint) (answer : Except DebugError Unit × Debugger) : Prop where
  succeeds : answer.1 = .ok ()
  state : answer.2.state = .suspended
  current : answer.2.current = some breakpoint
  seen : answer.2.HasSeen formula environment count
  stack : answer.2.session.stack = (formula.sessionAfter environment count).stack

/-- A command has passed all events that were left. The debugger has finished
with the value of the formula and no frames, or failed with its error and the
frames of the last event. -/
structure RunsOut (formula : Node) (environment : Environment)
    (answer : Except DebugError Unit × Debugger) : Prop where
  seen : answer.2.HasSeen formula environment (formula.events environment).length
  ends : answer.2.Ends (formula.evaluate environment)
  finished : ∀ value, formula.evaluate environment = .ok value →
    answer.1 = .ok () ∧ answer.2.current = some .finished ∧ answer.2.session.stack.frames = []
  failed : ∀ error, formula.evaluate environment = .error error →
    answer.1 = .error (.evaluation error) ∧ answer.2.current = none ∧
      answer.2.session.stack =
        (formula.sessionAfter environment (formula.events environment).length).stack

/-! ## What was seen -/

theorem HasSeen.of_trace (seen : before.HasSeen formula environment count)
    (same : after.session.trace = before.session.trace) :
    after.HasSeen formula environment count := by
  constructor
  · rw [same, seen.size]
  · rw [same, seen.events]
  · rw [same, seen.trace]

/-- Until its end, a debugger has seen as many events as its trace is long, has
the stack of that time, and has the other events ahead. -/
theorem Reached.hasSeen (reached : Reached formula environment debugger)
    (unfinished : debugger.isFinished = false) :
    debugger.HasSeen formula environment debugger.session.trace.size ∧
      debugger.session.stack =
        (formula.sessionAfter environment debugger.session.trace.size).stack ∧
      debugger.ahead = (formula.events environment).drop debugger.session.trace.size := by
  have whole := reached.recorded_append_ahead unfinished
  have length : (debugger.session.trace.history.map Frame.event).length =
      debugger.session.trace.size := List.length_map _
  obtain ⟨shown, steps, -, seen, -⟩ := reached.course.exists_rest unfinished
  -- the steps behind the recorded events are as many, so they are the first ones
  have shown_events : shown.filterMap Step.event? =
      debugger.session.trace.history.map Frame.event := by
    have extended : shown.filterMap Step.event? ++ debugger.ahead =
        debugger.session.trace.history.map Frame.event ++ debugger.ahead := by
      rw [whole, Node.events, Account.events, ← steps, List.filterMap_append]
      rfl
    exact List.append_cancel_right extended
  have shown_length : shown.length = debugger.session.trace.size := by
    rw [← length, ← shown_events, eq_comm, List.filterMap_length_eq_length]
    intro step member
    obtain ⟨event, own⟩ := Step.exists_event
      (Evaluation.showsNode_of_mem_transcript environment (.ready formula) step
        (steps ▸ List.mem_append_left _ member))
    rw [own]
    rfl
  have same : Session.empty.observeAll shown =
      formula.sessionAfter environment debugger.session.trace.size := by
    rw [Node.sessionAfter, ← steps, List.take_left' shown_length]
  rw [same] at seen
  refine ⟨⟨rfl, ?_, ?_⟩, ?_, ?_⟩
  · rw [← whole, List.take_left' length]
  · change debugger.session.seen.trace = _
    rw [seen]
  · change debugger.session.seen.stack = _
    rw [seen]
  · rw [← whole, List.drop_left' length]

/-! ## Runs -/

/-- A debugger with an event ahead advances through it. -/
theorem Reached.exists_advance (reached : Reached formula environment debugger)
    (running : debugger.state = .running) {rest : List Event}
    (ahead : debugger.ahead = event :: rest) :
    ∃ step after, debugger.advance = (.ok (step, some event), after) ∧ after.ahead = rest := by
  generalize advanced : debugger.advance = outcome
  obtain ⟨answer, after⟩ := outcome
  have advances := reached.advances running advanced
  cases answer with
  | error error =>
    rw [advances.ahead_of_error] at ahead
    cases ahead
  | ok seen =>
    obtain ⟨step, observed⟩ := seen
    cases observed with
    | none =>
      rw [advances.ahead_of_none] at ahead
      cases ahead
    | some other =>
      rw [reached.ahead_of_event running advanced] at ahead
      obtain ⟨rfl, rest_ahead⟩ := List.cons.inj ahead
      exact ⟨step, after, rfl, rest_ahead⟩

theorem runTo_of_stop (advanced : before.advance = (.ok (step, some event), after))
    (armed : before.session.active = some breakpoint) (stop : breakpoint.StopsAt event) :
    before.runTo breakpoint = (.ok (), after.suspend breakpoint) := by
  have not_root : ¬leavesRoot event = true := fun leaves => stop.1 (leavesRoot_iff.mp leaves)
  have suspends : after.session.shouldSuspend event = true := by
    rw [Session.shouldSuspend, active_advance advanced, armed]
    exact Breakpoint.suspendsAt_iff.mpr stop.2
  rw [runTo_of_event advanced, if_neg not_root, if_pos suspends]

theorem runTo_of_pass (advanced : before.advance = (.ok (step, some event), after))
    (armed : before.session.active = some breakpoint) (pass : ¬breakpoint.StopsAt event) :
    before.runTo breakpoint = after.runTo breakpoint := by
  rw [runTo_of_event advanced]
  by_cases leaves : leavesRoot event = true
  · rw [if_pos leaves]
  · have passes : ¬after.session.shouldSuspend event = true := by
      rw [Session.shouldSuspend, active_advance advanced, armed]
      exact fun suspends => pass
        ⟨fun root => leaves (leavesRoot_iff.mpr root), Breakpoint.suspendsAt_iff.mp suspends⟩
    rw [if_neg leaves, if_neg passes]

/-- A run passes events up to the first one at which its breakpoint stops it. -/
theorem Reached.runTo_eq_suspend {passed rest : List Event}
    (reached : Reached formula environment debugger) (running : debugger.state = .running)
    (armed : debugger.session.active = some breakpoint)
    (ahead : debugger.ahead = passed ++ event :: rest)
    (pass : ∀ other ∈ passed, ¬breakpoint.StopsAt other) (stop : breakpoint.StopsAt event) :
    ∃ after, Reached formula environment after ∧ after.state = .running ∧ after.ahead = rest ∧
      debugger.runTo breakpoint = (.ok (), after.suspend breakpoint) := by
  induction passed generalizing debugger with
  | nil =>
    obtain ⟨step, after, advanced, onward⟩ := reached.exists_advance running ahead
    exact ⟨after, reached.advance running advanced, running_of_advance running advanced, onward,
      runTo_of_stop advanced armed stop⟩
  | cons first passed ih =>
    obtain ⟨step, middle, advanced, onward⟩ := reached.exists_advance running ahead
    rw [runTo_of_pass advanced armed (pass first List.mem_cons_self)]
    exact ih (reached.advance running advanced) (running_of_advance running advanced)
      ((active_advance advanced).trans armed) onward
      fun other member => pass other (List.mem_cons_of_mem first member)

/-- A run that nothing stops comes to a debugger without events ahead. -/
theorem Reached.exists_last (reached : Reached formula environment debugger)
    (running : debugger.state = .running) (armed : debugger.session.active = some breakpoint)
    (pass : ∀ event ∈ debugger.ahead, ¬breakpoint.StopsAt event) :
    ∃ last, Reached formula environment last ∧ last.state = .running ∧ last.ahead = [] ∧
      debugger.runTo breakpoint = last.runTo breakpoint := by
  generalize same : debugger.ahead = events at pass
  induction events generalizing debugger with
  | nil => exact ⟨debugger, reached, running, same, rfl⟩
  | cons first events ih =>
    obtain ⟨step, middle, advanced, onward⟩ := reached.exists_advance running same
    rw [runTo_of_pass advanced armed (pass first List.mem_cons_self)]
    exact ih (reached.advance running advanced) (running_of_advance running advanced)
      ((active_advance advanced).trans armed) onward
      fun other member => pass other (List.mem_cons_of_mem first member)

/-- Without events ahead, a run finishes or fails, as the formula does. -/
theorem Reached.runsOut_of_last (reached : Reached formula environment debugger)
    (running : debugger.state = .running) (none_ahead : debugger.ahead = []) :
    RunsOut formula environment (debugger.runTo breakpoint) := by
  obtain ⟨seen, stack, rest⟩ := reached.hasSeen (isFinished_of_running running)
  have all : debugger.session.trace.size = (formula.events environment).length := by
    have whole := reached.recorded_append_ahead (isFinished_of_running running)
    rw [none_ahead, List.append_nil] at whole
    rw [← whole, List.length_map]
    rfl
  rw [all] at seen stack
  generalize advanced : debugger.advance = outcome
  obtain ⟨answer, after⟩ := outcome
  have advances := reached.advances running advanced
  cases answer with
  | error error =>
    have ends := (reached.fail running advanced).ends rfl
    have same := advances.session_of_error
    have same_trace : (after.fail error).session.trace = debugger.session.trace := by
      rw [← same]
      rfl
    rw [runTo_of_error advanced]
    refine ⟨seen.of_trace same_trace, ends, fun value valued => ?_,
      fun cause failed => ⟨?_, rfl, ?_⟩⟩
    · rw [valued] at ends
      cases ends.1
    · rw [failed] at ends
      exact congrArg Except.error (Option.some.inj ends.2.2)
    · rw [← stack, ← same]
      rfl
  | ok shown =>
    obtain ⟨step, observed⟩ := shown
    cases observed with
    | some event =>
      rw [reached.ahead_of_event running advanced] at none_ahead
      cases none_ahead
    | none =>
      have ends := (reached.finish running advanced).ends rfl
      have same : after.session.trace = debugger.session.trace ∧
          after.session.stack.frames = [] := by
        have observes := advances.session_of_ok
        refine ⟨?_, observes.frames_of_none⟩
        generalize after.session = last at observes
        cases observes with
        | completes none_open => rfl
      rw [runTo_of_complete advanced]
      refine ⟨seen.of_trace same.1, ends, fun value valued => ⟨rfl, rfl, same.2⟩,
        fun cause failed => ?_⟩
      rw [failed] at ends
      cases ends.1

/-! ## Commands -/

/-- **A command stops at the first event ahead at which its breakpoint stops.** -/
theorem Reached.stopsAfter {passed rest : List Event}
    (reached : Reached formula environment debugger) (unfinished : debugger.isFinished = false)
    (split : (formula.events environment).drop debugger.session.trace.size =
      passed ++ event :: rest)
    (pass : ∀ other ∈ passed, ¬breakpoint.StopsAt other) (stop : breakpoint.StopsAt event) :
    StopsAfter formula environment (debugger.session.trace.size + passed.length + 1) breakpoint
      (debugger.resume breakpoint) := by
  have armed := Reached.arm breakpoint reached unfinished
  have ahead : (debugger.armed breakpoint).ahead = passed ++ event :: rest :=
    (reached.hasSeen unfinished).2.2.trans split
  obtain ⟨after, still_reached, still_running, onward, suspends⟩ :=
    armed.runTo_eq_suspend rfl rfl ahead pass stop
  obtain ⟨seen, stack, further⟩ := still_reached.hasSeen (isFinished_of_running still_running)
  have later : after.session.trace.size = debugger.session.trace.size + passed.length + 1 := by
    have whole := still_reached.recorded_append_ahead (isFinished_of_running still_running)
    have total := congrArg List.length
      ((reached.recorded_append_ahead unfinished).trans whole.symm)
    rw [onward, (reached.hasSeen unfinished).2.2, split] at total
    simp only [List.length_append, List.length_map, List.length_cons] at total
    change after.session.trace.history.length = debugger.session.trace.history.length + _ + 1
    omega
  rw [later] at seen stack
  rw [resume_of_unfinished unfinished, suspends]
  exact ⟨rfl, rfl, rfl, seen.of_trace rfl, stack⟩

/-- **A command that no event ahead stops runs to the end.** -/
theorem Reached.runsOut (reached : Reached formula environment debugger)
    (unfinished : debugger.isFinished = false)
    (pass : ∀ event ∈ (formula.events environment).drop debugger.session.trace.size,
      ¬breakpoint.StopsAt event) :
    RunsOut formula environment (debugger.resume breakpoint) := by
  have armed := Reached.arm breakpoint reached unfinished
  obtain ⟨last, still_reached, still_running, none_ahead, same⟩ :=
    armed.exists_last rfl rfl (by
      rw [← (reached.hasSeen unfinished).2.2] at pass
      exact pass)
  rw [resume_of_unfinished unfinished, same]
  exact still_reached.runsOut_of_last still_running none_ahead

end Debugger

end FormulaStepper
