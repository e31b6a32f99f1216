import FormulaStepper.Debugger.Control
import FormulaStepper.Proofs.Debugger.Mirror
import FormulaStepper.Proofs.Evaluation.Correspondence

/-!
# What commands reach

A client gives a debugger commands, any number of them in any order. A command
runs the evaluation through many steps, so the debuggers that matter are those
between commands and those within them: `Debugger.Reached` begins with a
debugger to which no command was given and allows whatever a run does next,
where it does it. Every list of commands stays among them
(`reached_performAll`).

In all of them the call stack mirrors the evaluation, but for a failed one: its
session stays as it was, while the evaluation has taken a last value over.
The frames are a path in the formula all the same.
-/

set_option autoImplicit false

namespace FormulaStepper

open Formula

/-- What a client can ask of a debugger. -/
inductive Command where
  | launch (stopOnEntry : Bool)
  | run (mode : RunMode)
deriving Repr, DecidableEq

namespace Debugger

/-- Carries out any command. -/
def perform (debugger : Debugger) : Command → Except DebugError Unit × Debugger
  | .launch stopOnEntry => debugger.launch stopOnEntry
  | .run mode => debugger.run mode

/-- The debugger after commands, refused and failed ones included. -/
def performAll (debugger : Debugger) (commands : List Command) : Debugger :=
  commands.foldl (fun debugger command => (debugger.perform command).2) debugger

/-- The debugger at the beginning of a run. -/
def armed (debugger : Debugger) (breakpoint : Breakpoint) : Debugger :=
  { debugger with
    session := debugger.session.setBreakpoint breakpoint
    state := .running }

/-- The debuggers of a formula, between commands and within them. -/
inductive Reached (formula : Node) (environment : Environment) : Debugger → Prop where
  | start : Reached formula environment (start formula environment)
  | arm {before : Debugger} (breakpoint : Breakpoint)
      (reached : Reached formula environment before) (unfinished : before.isFinished = false) :
      Reached formula environment (before.armed breakpoint)
  | advance {before after : Debugger} {step : Step} {event : Event}
      (reached : Reached formula environment before) (running : before.state = .running)
      (advanced : before.advance = (.ok (step, some event), after)) :
      Reached formula environment after
  | suspend {before : Debugger} (breakpoint : Breakpoint)
      (reached : Reached formula environment before) (running : before.state = .running) :
      Reached formula environment (before.suspend breakpoint)
  | finish {before after : Debugger} {step : Step}
      (reached : Reached formula environment before) (running : before.state = .running)
      (advanced : before.advance = (.ok (step, none), after)) :
      Reached formula environment (after.finish step.outcome?)
  | fail {before after : Debugger} {error : DebugError}
      (reached : Reached formula environment before) (running : before.state = .running)
      (advanced : before.advance = (.error error, after)) :
      Reached formula environment (after.fail error)

section Commands

variable {formula : Node} {environment : Environment} {before after debugger : Debugger}
  {breakpoint : Breakpoint}

/-- Every command makes some breakpoint active and goes on. -/
theorem exists_perform_eq_resume (debugger : Debugger) (command : Command) :
    ∃ breakpoint, debugger.perform command = debugger.resume breakpoint := by
  cases command with
  | launch stopOnEntry => exact ⟨_, rfl⟩
  | run mode => exact ⟨_, rfl⟩

theorem state_advance (debugger : Debugger) : debugger.advance.2.state = debugger.state := by
  unfold advance
  split <;> rfl

theorem running_of_advance (running : before.state = .running)
    {answer : Except DebugError (Step × Option Event)}
    (advanced : before.advance = (answer, after)) : after.state = .running := by
  have same := state_advance before
  rw [advanced] at same
  exact same.trans running

theorem ne_failed_of_running (running : debugger.state = .running) :
    debugger.state ≠ .failed := by
  rw [running]
  exact DebugState.noConfusion

theorem ne_finished_of_running (running : debugger.state = .running) :
    debugger.state ≠ .finished := by
  rw [running]
  exact DebugState.noConfusion

theorem ne_finished_of_isFinished (unfinished : debugger.isFinished = false) :
    debugger.state ≠ .finished := by
  intro finished
  rw [isFinished, finished] at unfinished
  cases unfinished

/-! ## Runs -/

theorem runTo_of_error {error : DebugError} (advanced : before.advance = (.error error, after)) :
    before.runTo breakpoint = (.error error, after.fail error) := by
  rw [runTo]
  split <;> simp_all

theorem runTo_of_complete {step : Step} (advanced : before.advance = (.ok (step, none), after)) :
    before.runTo breakpoint = (.ok (), after.finish step.outcome?) := by
  rw [runTo]
  split <;> simp_all

theorem runTo_of_event {step : Step} {event : Event}
    (advanced : before.advance = (.ok (step, some event), after)) :
    before.runTo breakpoint =
      if leavesRoot event then after.runTo breakpoint
      else if after.session.shouldSuspend event then (.ok (), after.suspend breakpoint)
      else after.runTo breakpoint := by
  rw [runTo]
  split <;> simp_all

/-- A command that is not refused makes its breakpoint active and runs. -/
theorem resume_of_unfinished (unfinished : debugger.isFinished = false)
    (breakpoint : Breakpoint) :
    debugger.resume breakpoint = (debugger.armed breakpoint).runTo breakpoint := by
  rw [resume, unfinished]
  rfl

/-- A run stays among the reached debuggers, and fails only where one of them
cannot advance. -/
theorem Reached.runTo (reached : Reached formula environment debugger)
    (running : debugger.state = .running) :
    Reached formula environment (debugger.runTo breakpoint).2 ∧
      ∀ error, (debugger.runTo breakpoint).1 = .error error →
        ∃ before, Reached formula environment before ∧ before.state = .running ∧
          before.advance.1 = .error error := by
  induction debugger using Debugger.runTo.induct with
  | case1 debugger error after advanced =>
    rw [runTo_of_error advanced]
    refine ⟨.fail reached running advanced, fun other failed => ?_⟩
    cases failed
    exact ⟨debugger, reached, running, by rw [advanced]⟩
  | case2 debugger step after advanced =>
    rw [runTo_of_complete advanced]
    exact ⟨.finish reached running advanced, fun error failed => by cases failed⟩
  | case3 debugger step event after advanced fewer leaves ih =>
    rw [runTo_of_event advanced, if_pos leaves]
    exact ih (.advance reached running advanced) (running_of_advance running advanced)
  | case4 debugger step event after advanced fewer stays suspends =>
    rw [runTo_of_event advanced, if_neg stays, if_pos suspends]
    have next := Reached.advance reached running advanced
    exact ⟨.suspend _ next (running_of_advance running advanced),
      fun error failed => by cases failed⟩
  | case5 debugger step event after advanced fewer stays passes ih =>
    rw [runTo_of_event advanced, if_neg stays, if_neg passes]
    exact ih (.advance reached running advanced) (running_of_advance running advanced)

theorem Reached.resume (reached : Reached formula environment debugger)
    (breakpoint : Breakpoint) :
    Reached formula environment (debugger.resume breakpoint).2 ∧
      ∀ error, (debugger.resume breakpoint).1 = .error error → error = .sessionFinished ∨
        ∃ before, Reached formula environment before ∧ before.state = .running ∧
          before.advance.1 = .error error := by
  unfold Debugger.resume
  by_cases finished : debugger.isFinished = true
  · rw [if_pos finished]
    refine ⟨reached, fun error failed => ?_⟩
    cases failed
    exact .inl rfl
  · rw [if_neg finished]
    obtain ⟨result, failure⟩ :=
      (Reached.arm breakpoint reached (Bool.eq_false_iff.mpr finished)).runTo rfl
    exact ⟨result, fun error failed => .inr (failure error failed)⟩

/-- **Commands stay among the reached debuggers.** -/
theorem Reached.performAll (reached : Reached formula environment debugger)
    (commands : List Command) : Reached formula environment (debugger.performAll commands) := by
  induction commands generalizing debugger with
  | nil => exact reached
  | cons command commands ih =>
    obtain ⟨breakpoint, same⟩ := exists_perform_eq_resume debugger command
    have next : Reached formula environment (debugger.perform command).2 := by
      rw [same]
      exact (reached.resume breakpoint).1
    exact ih next

end Commands

/-! ## The stack in reached debuggers -/

/-- What one observed step of the evaluation can do to a debugger. -/
inductive Advances (before : Debugger) : Except DebugError (Step × Option Event) → Debugger → Prop
  where
  /-- The evaluation fails. The session does not see it. -/
  | fails {error : EvalError} {next : Evaluation} (foreseen : error ≠ .stackExhausted)
      (stepped : before.evaluation.step before.environment = (.error error, next)) :
      Advances before (.error (.evaluation error)) { before with evaluation := next }
  /-- The session observes the step, and mirrors the evaluation again. -/
  | observes {step : Step} {event : Option Event} {next : Evaluation} {session : Session}
      (stepped : before.evaluation.step before.environment = (.ok step, next))
      (observed : before.session.observe step = (.ok event, session))
      (eventful : event.isSome = step.showsNode) (mirrors : Mirrors next session) :
      Advances before (.ok (step, event)) { before with evaluation := next, session }

/-- What a debugger keeps through every command: its evaluation is that of the
formula after some steps, its frames are a path, and until it fails they mirror
the evaluation. -/
structure Coupled (formula : Node) (environment : Environment) (debugger : Debugger) : Prop where
  fixed : debugger.environment = environment
  course : ∃ count, debugger.evaluation = (Evaluation.ready formula).after environment count
  path : debugger.session.stack.IsPath formula
  levelled : debugger.session.stack.Levelled
  mirrors : debugger.state ≠ .failed → Mirrors debugger.evaluation debugger.session

section Coupling

variable {formula : Node} {environment : Environment} {before after debugger : Debugger}
  {answer : Except DebugError (Step × Option Event)}

theorem Coupled.within (coupled : Coupled formula environment debugger) :
    debugger.evaluation.Within formula := by
  obtain ⟨count, same⟩ := coupled.course
  rw [same]
  exact (Evaluation.within_ready formula).after count

/-- **A debugger advances with its evaluation**, and the session sees every
step that succeeds. -/
theorem Coupled.advances (coupled : Coupled formula environment before)
    (unfailed : before.state ≠ .failed) (advanced : before.advance = (answer, after)) :
    Advances before answer after := by
  unfold advance at advanced
  split at advanced
  · next error next stepped =>
    cases advanced
    have moves := coupled.within.moves stepped
    cases moves with
    | fails foreseen _ => exact .fails foreseen stepped
  · next step next stepped =>
    obtain ⟨event, session, observed, eventful, mirrors⟩ :=
      (coupled.mirrors unfailed).observe (coupled.within.moves stepped)
    rw [observed] at advanced
    cases advanced
    exact .observes stepped observed eventful mirrors

theorem coupled_start (formula : Node) (environment : Environment) :
    Coupled formula environment (start formula environment) where
  fixed := rfl
  course := ⟨0, rfl⟩
  path := CallStack.isPath_of_mirrors (Evaluation.within_ready formula) (mirrors_empty formula) rfl
  levelled := rfl
  mirrors := fun _ => mirrors_empty formula

/-- A step that the session observes keeps the coupling. -/
theorem Coupled.observes {step : Step} {event : Option Event}
    (coupled : Coupled formula environment before) (unfailed : before.state ≠ .failed)
    (advanced : before.advance = (.ok (step, event), after)) :
    Coupled formula environment after := by
  have advances := coupled.advances unfailed advanced
  have levelled := Session.levelled_observe coupled.levelled step
  obtain ⟨count, same⟩ := coupled.course
  have within := coupled.within
  cases advances with
  | @observes _ _ next session stepped observed eventful mirrors =>
    rw [observed] at levelled
    refine ⟨coupled.fixed, ⟨count + 1, ?_⟩, ?_, levelled, fun _ => mirrors⟩
    · rw [Evaluation.after_succ, ← same, ← coupled.fixed, stepped]
    · exact CallStack.isPath_of_mirrors (within.moves stepped).within mirrors levelled

/-- A step that fails leaves the session as it was. -/
theorem Coupled.fails {error : DebugError} (coupled : Coupled formula environment before)
    (unfailed : before.state ≠ .failed) (advanced : before.advance = (.error error, after)) :
    Coupled formula environment (after.fail error) := by
  obtain ⟨count, same⟩ := coupled.course
  have advances := coupled.advances unfailed advanced
  cases advances with
  | @fails error next foreseen stepped =>
    refine ⟨coupled.fixed, ⟨count + 1, ?_⟩, coupled.path, coupled.levelled,
      fun unfailed => absurd rfl unfailed⟩
    rw [Evaluation.after_succ, ← same, ← coupled.fixed, stepped]
    rfl

theorem Reached.coupled (reached : Reached formula environment debugger) :
    Coupled formula environment debugger := by
  induction reached with
  | start => exact coupled_start formula environment
  | arm breakpoint reached unfinished ih =>
    refine ⟨ih.fixed, ih.course, ih.path, ih.levelled, fun _ => ih.mirrors fun failed => ?_⟩
    rw [isFinished, failed] at unfinished
    cases unfinished
  | advance reached running advanced ih =>
    exact ih.observes (ne_failed_of_running running) advanced
  | suspend breakpoint reached running ih =>
    exact ⟨ih.fixed, ih.course, ih.path, ih.levelled,
      fun _ => ih.mirrors (ne_failed_of_running running)⟩
  | finish reached running advanced ih =>
    have next := ih.observes (ne_failed_of_running running) advanced
    have unfailed := ne_failed_of_running (running_of_advance running advanced)
    exact ⟨next.fixed, next.course, next.path, next.levelled, fun _ => next.mirrors unfailed⟩
  | fail reached running advanced ih =>
    exact ih.fails (ne_failed_of_running running) advanced

theorem Reached.advances (reached : Reached formula environment before)
    (running : before.state = .running) (advanced : before.advance = (answer, after)) :
    before.Advances answer after :=
  reached.coupled.advances (ne_failed_of_running running) advanced

/-- A reached debugger that cannot advance has met an error of the evaluation. -/
theorem Reached.exists_of_advance_error (reached : Reached formula environment before)
    (running : before.state = .running) {error : DebugError}
    (fault : before.advance.1 = .error error) :
    ∃ cause, error = .evaluation cause ∧ cause ≠ .stackExhausted ∧
      (formula.WellFormed → cause.isFault = false) := by
  obtain ⟨count, same⟩ := reached.coupled.course
  generalize advanced : before.advance = result at fault
  obtain ⟨answer, after⟩ := result
  cases fault
  have advances := reached.advances running advanced
  cases advances with
  | @fails cause next foreseen stepped =>
    refine ⟨cause, rfl, foreseen, fun well_formed => ?_⟩
    refine Evaluation.faultless_step environment well_formed count cause ?_
    rw [← same, ← reached.coupled.fixed, stepped]

/-- **The call stack mirrors the evaluation.** All lists of commands lead to
reached debuggers. Where one of these advances with success, frames and nodes
agree afterwards, in order and with their values, and they agree wherever no
step has failed. The frames are always a path in the formula, no longer than the
formula is tall. A command fails because the debugger is finished or because the
evaluation fails, and never for want of an active node; if the formula is well
formed, it does not fail for want of an operand either. -/
theorem stack_mirrors_evaluation (formula : Node) (environment : Environment) :
    (∀ commands, Reached formula environment
      ((start formula environment).performAll commands)) ∧
    ∀ debugger, Reached formula environment debugger →
      (∀ answer after, debugger.state = .running → debugger.advance = (.ok answer, after) →
        Mirrors after.evaluation after.session) ∧
      (debugger.state ≠ .failed → Mirrors debugger.evaluation debugger.session) ∧
      debugger.session.stack.IsPath formula ∧
      ∀ command error, (debugger.perform command).1 = .error error →
        error = .sessionFinished ∨
          ∃ cause, error = .evaluation cause ∧ cause ≠ .stackExhausted ∧
            (formula.WellFormed → cause.isFault = false) := by
  refine ⟨Reached.start.performAll, fun debugger reached =>
    ⟨?_, reached.coupled.mirrors, reached.coupled.path, ?_⟩⟩
  · rintro ⟨step, event⟩ after running advanced
    have next := reached.coupled.observes (ne_failed_of_running running) advanced
    exact next.mirrors (ne_failed_of_running (running_of_advance running advanced))
  · intro command error failed
    obtain ⟨breakpoint, same⟩ := exists_perform_eq_resume debugger command
    rw [same] at failed
    rcases (reached.resume breakpoint).2 error failed with
      finished | ⟨before, there, running, fault⟩
    · exact .inl finished
    · exact .inr (there.exists_of_advance_error running fault)

end Coupling

end Debugger

end FormulaStepper
