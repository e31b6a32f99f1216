import FormulaStepper.Proofs.Debugger.Independence
import FormulaStepper.Proofs.Debugger.Truth

/-!
# How a frame is left

A run passes events until its breakpoint suspends it or the evaluation ends.
What it passes does not depend on the breakpoint (`Debugger.Passes.rearmed`), and
events at which the breakpoint does not suspend do not change where the run
comes to (`Debugger.Passes.runTo`).

While a frame without a result is open, every event is inside it, that is,
deeper than its own, until its node is left or the evaluation fails
(`Debugger.Reached.concludes`). The frames around it stay as they are in the
meantime. If the evaluation fails inside the frame, the frame's own node fails
with the same error, since every node around a failing one waits for it.
-/

set_option autoImplicit false

namespace FormulaStepper

open Formula

variable {environment : Environment} {formula : Node}

namespace Evaluation

/-- The nodes around one that fails fail with the same error. -/
theorem Awaited.error_of_mem {inside : Site} {around : List Activation} {error : EvalError}
    (awaited : Awaited environment inside around)
    (failed : inside.node.evaluate environment = .error error) :
    ∀ activation ∈ around, activation.site.node.evaluate environment = .error error := by
  induction around generalizing inside with
  | nil => intro activation member; cases member
  | cons parent rest ih =>
    obtain ⟨comes_to, further⟩ := awaited
    rw [failed] at comes_to
    intro activation member
    rcases List.mem_cons.mp member with rfl | outside
    · exact comes_to
    · exact ih further comes_to activation outside

/-- Where a step of a truthful evaluation fails, every active node fails with
the same error. -/
theorem Truthful.error_of_live {before next : Evaluation} {error : EvalError}
    (truthful : before.Truthful environment) (within : before.Within formula)
    (stepped : before.step environment = (.error error, next)) :
    ∀ site ∈ before.live, site.node.evaluate environment = .error error := by
  rw [← live_of_error stepped]
  have shows_truth := truthful.step within.active stepped
  cases shows_truth with
  | @fails _ top below own still =>
    intro site member
    rcases List.mem_cons.mp member with rfl | around
    · exact own
    · obtain ⟨activation, among, rfl⟩ := List.mem_map.mp around
      exact still.2.error_of_mem own activation among

end Evaluation

/-- The event at which a frame was recorded. -/
def Frame.event (frame : Frame) : Event :=
  ⟨if frame.isEvaluated then .exit else .enter, frame.level + 1⟩

theorem Session.observe_setBreakpoint (session : Session) (breakpoint : Breakpoint) (step : Step) :
    (session.setBreakpoint breakpoint).observe step =
      ((session.observe step).1, (session.observe step).2.setBreakpoint breakpoint) := by
  have own := observe_marked session session.active session.current step
  have same : (session.observe step).2 =
      (session.observe step).2.marked session.active session.current := congrArg Prod.snd own
  have other := observe_marked session (some breakpoint) session.current step
  rw [same]
  exact other

namespace Debugger

variable {before middle after debugger : Debugger} {breakpoint : Breakpoint}

/-- A debugger advances through events to become another. -/
inductive Passes : Debugger → List Event → Debugger → Prop where
  | none {debugger : Debugger} : Passes debugger [] debugger
  | next {before middle after : Debugger} {step : Step} {event : Event} {events : List Event}
      (advanced : before.advance = (.ok (step, some event), middle))
      (onward : Passes middle events after) : Passes before (event :: events) after

/-! ## Breakpoints and events -/

/-- The debugger with another active breakpoint. -/
def rearmed (debugger : Debugger) (breakpoint : Breakpoint) : Debugger :=
  { debugger with session := debugger.session.setBreakpoint breakpoint }

/-- A breakpoint does not change how a debugger advances. -/
theorem advance_rearmed (debugger : Debugger) (breakpoint : Breakpoint) :
    (debugger.rearmed breakpoint).advance =
      (debugger.advance.1, debugger.advance.2.rearmed breakpoint) := by
  unfold advance rearmed
  cases stepped : debugger.evaluation.step debugger.environment with
  | mk shown next =>
    cases shown with
    | error error => rfl
    | ok step => simp only [Session.observe_setBreakpoint]

theorem advance_rearmed_of {answer : Except DebugError (Step × Option Event)}
    (advanced : before.advance = (answer, after)) (breakpoint : Breakpoint) :
    (before.rearmed breakpoint).advance = (answer, after.rearmed breakpoint) := by
  rw [advance_rearmed, advanced]

namespace Passes

variable {events : List Event}

/-- What is passed does not depend on the breakpoint. -/
theorem rearmed (passes : Passes before events after) (breakpoint : Breakpoint) :
    Passes (before.rearmed breakpoint) events (after.rearmed breakpoint) := by
  induction passes with
  | none => exact .none
  | next advanced onward ih => exact .next (advance_rearmed_of advanced breakpoint) ih

/-- A run goes on through events at which its breakpoint does not suspend it. -/
theorem runTo (passes : Passes before events after)
    (armed : before.session.active = some breakpoint)
    (unsuspended : ∀ event ∈ events, breakpoint.suspendsAt event = false) :
    before.runTo breakpoint = after.runTo breakpoint := by
  induction passes with
  | none => rfl
  | @next before middle after step event events advanced onward ih =>
    have active := (active_advance advanced).trans armed
    have passed : middle.session.shouldSuspend event = false := by
      rw [Session.shouldSuspend, active]
      exact unsuspended event List.mem_cons_self
    have rest := ih active fun event member => unsuspended event (List.mem_cons_of_mem _ member)
    rw [runTo_of_event advanced, passed, rest]
    exact ite_self _

theorem reached (passes : Passes before events after) (running : before.state = .running)
    (reached : Reached formula environment before) :
    Reached formula environment after ∧ after.state = .running := by
  induction passes with
  | none => exact ⟨reached, running⟩
  | next advanced onward ih =>
    exact ih (running_of_advance running advanced) (.advance reached running advanced)

end Passes

/-- An event is that of the frame that it leaves on top, and this frame is
recorded. -/
theorem Reached.exists_record {step : Step} {event : Event}
    (reached : Reached formula environment before) (running : before.state = .running)
    (advanced : before.advance = (.ok (step, some event), after)) :
    ∃ frame below, after.session.stack.frames = frame :: below ∧
      after.session.trace.history = before.session.trace.history ++ [frame] ∧
      event = frame.event := by
  obtain ⟨frame, below, frames, recorded, seen⟩ :=
    (reached.advances running advanced).session_of_ok.exists_frame
  have levelled := (Reached.advance reached running advanced).coupled.levelled
  have whole : after.session.stack = ⟨frame :: below, after.session.stack.counter⟩ := by
    rw [← frames]
  rw [whole] at levelled
  refine ⟨frame, below, frames, recorded, ?_⟩
  rw [seen, Frame.event, (CallStack.levelled_cons.mp levelled).1]

/-- The events that are passed are those of the frames that are recorded. -/
theorem Passes.exists_records {events : List Event} (passes : Passes before events after)
    (running : before.state = .running) (reached : Reached formula environment before) :
    ∃ records, after.session.trace.history = before.session.trace.history ++ records ∧
      records.map Frame.event = events := by
  induction passes with
  | none => exact ⟨[], (List.append_nil _).symm, rfl⟩
  | next advanced onward ih =>
    obtain ⟨frame, _, _, recorded, seen⟩ := reached.exists_record running advanced
    obtain ⟨records, rest, events⟩ :=
      ih (running_of_advance running advanced) (.advance reached running advanced)
    refine ⟨frame :: records, ?_, ?_⟩
    · rw [rest, recorded, List.append_assoc]
      rfl
    · rw [List.map_cons, events, seen]

/-! ## Inside a frame -/

/-- What one step can do while a frame without a result is open. -/
inductive Proceeds (environment : Environment) (frame : Frame) (around : List Frame)
    (before : Debugger) : Prop where
  /-- An event deeper than the frame, which stays open. -/
  | inside {step : Step} {event : Event} {after : Debugger} (inner : List Frame)
      (advanced : before.advance = (.ok (step, some event), after))
      (deeper : around.length + 1 < event.depth)
      (live : after.session.stack.dropEvaluated.frames = inner ++ frame :: around)
  /-- The frame's node is left. -/
  | leaves {step : Step} {value : Value} {after : Debugger}
      (advanced : before.advance = (.ok (step, some ⟨.exit, around.length + 1⟩), after))
      (frames : after.session.stack.frames = { frame with result := some value } :: around)
  /-- The evaluation fails, and so does the frame's node. -/
  | fails {error : EvalError} {after : Debugger}
      (advanced : before.advance = (.error (.evaluation error), after))
      (own : frame.site.node.evaluate environment = .error error)

/-- A step inside an open frame is deeper than the frame, leaves it or fails. -/
theorem Reached.proceeds {inner around : List Frame} {frame : Frame}
    (reached : Reached formula environment before) (running : before.state = .running)
    (live : before.session.stack.dropEvaluated.frames = inner ++ frame :: around) :
    before.Proceeds environment frame around := by
  generalize advanced : before.advance = outcome
  obtain ⟨answer, after⟩ := outcome
  have advances := reached.advances running advanced
  cases advances with
  | @fails error next foreseen stepped =>
    have mirrored := (reached.coupled.mirrors (ne_failed_of_running running)).dropEvaluated
    have active : frame.site ∈ before.evaluation.live := by
      have member : frame.shown ∈ before.evaluation.live.map fun site => (site, none) := by
        rw [← mirrored, live]
        exact List.mem_map_of_mem (List.mem_append_right _ List.mem_cons_self)
      obtain ⟨site, among, same⟩ := List.mem_map.mp member
      have same_site : site = frame.site := congrArg Prod.fst same
      exact same_site ▸ among
    rw [reached.coupled.fixed] at stepped
    exact .fails advanced
      (reached.evaluation_truthful.error_of_live reached.coupled.within stepped _ active)
  | @observes step event next session stepped observed eventful mirrors =>
    have observes : before.session.Observes (.ok event) session :=
      (reached.advances running advanced).session_of_ok
    cases observes with
    | enters site =>
      refine .inside (before.session.stack.dropEvaluated.opened site :: inner) advanced ?_ ?_
      · change around.length + 1 < before.session.stack.dropEvaluated.frames.length + 1
        rw [live, List.length_append, List.length_cons]
        omega
      · rw [CallStack.dropEvaluated_frames]
        exact congrArg _ live
    | leaves top below value innermost =>
      rw [live] at innermost
      cases inner with
      | nil =>
        cases innermost
        exact .leaves advanced rfl
      | cons first inner =>
        obtain ⟨rfl, rfl⟩ := List.cons.inj innermost
        refine .inside inner advanced ?_ ?_
        · change around.length + 1 < (inner ++ frame :: around).length + 1
          rw [List.length_append, List.length_cons]
          omega
        · rw [CallStack.dropEvaluated_frames]
          rfl
    | completes none_open =>
      rw [live] at none_open
      cases inner <;> cases none_open

/-- How a run comes to the end of an open frame: it passes events inside it, and
then the frame's node is left or the evaluation fails. -/
inductive Concludes (environment : Environment) (frame : Frame) (around : List Frame)
    (before : Debugger) : Prop where
  | leaves {events : List Event} {last after : Debugger} {step : Step} {value : Value}
      (passes : Passes before events last)
      (deeper : ∀ event ∈ events, around.length + 1 < event.depth)
      (advanced : last.advance = (.ok (step, some ⟨.exit, around.length + 1⟩), after))
      (frames : after.session.stack.frames = { frame with result := some value } :: around)
      (own : frame.site.node.evaluate environment = .ok value)
  | fails {events : List Event} {last after : Debugger} {error : EvalError}
      (passes : Passes before events last)
      (deeper : ∀ event ∈ events, around.length + 1 < event.depth)
      (advanced : last.advance = (.error (.evaluation error), after))
      (own : frame.site.node.evaluate environment = .error error)

/-- **A frame is left where its node has its value, and nothing before that is
outside it.** The frames around it are the same then, and the value is that of
the node. If the node fails, nothing outside it comes before the failure. -/
theorem Reached.concludes {before : Debugger} {around : List Frame} {frame : Frame}
    (reached : Reached formula environment before) (running : before.state = .running)
    (inner : List Frame)
    (live : before.session.stack.dropEvaluated.frames = inner ++ frame :: around) :
    before.Concludes environment frame around := by
  have proceeds := reached.proceeds running live
  cases proceeds with
  | @inside step event after inner advanced deeper live =>
    have fewer := remaining_lt_of_advance advanced
    have rest := (Reached.advance reached running advanced).concludes
      (running_of_advance running advanced) inner live
    have all_deeper {events : List Event}
        (others : ∀ event ∈ events, around.length + 1 < event.depth) :
        ∀ other ∈ event :: events, around.length + 1 < other.depth := by
      intro other member
      rcases List.mem_cons.mp member with rfl | later
      · exact deeper
      · exact others other later
    cases rest with
    | leaves passes others last frames own =>
      exact .leaves (.next advanced passes) (all_deeper others) last frames own
    | fails passes others last own =>
      exact .fails (.next advanced passes) (all_deeper others) last own
  | @leaves step value after advanced frames =>
    have truthful := (Reached.advance reached running advanced).truthful.stack
    rw [frames] at truthful
    refine .leaves .none (fun _ member => (by cases member)) advanced frames ?_
    exact truthful _ List.mem_cons_self value rfl
  | fails advanced own => exact .fails .none (fun _ member => (by cases member)) advanced own
termination_by before.evaluation.remaining
decreasing_by exact fewer

end Debugger

end FormulaStepper
