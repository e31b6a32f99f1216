import FormulaStepper.Proofs.Debugger.Lifecycle
import FormulaStepper.Proofs.Debugger.Passage

/-!
# Stepping out of a node and over it

A breakpoint sees the depth of an event and not its node. It finds the right
exit all the same, because whatever happens before a node is left is deeper
(`Debugger.Reached.concludes`): a breakpoint that lets deeper events pass and
suspends at an exit of the depth of a frame (`Breakpoint.Awaits`) suspends where
that frame's node is left, or the node fails. Stepping out awaits the innermost
frame without a result, stepping over the innermost frame, and these are the
same where a node was just entered.

Two cases are apart. Leaving the root never suspends, so that stepping out of it
or over it goes on to the end. After an exit the depth of stepping over is that
of a frame which is about to be dropped, and its place is taken by the next
child of the same parent.
-/

set_option autoImplicit false

namespace FormulaStepper

open Formula

namespace Breakpoint

/-- The breakpoint suspends at the exit of a frame of this depth, and not at an
event inside it. -/
structure Awaits (breakpoint : Breakpoint) (depth : Nat) : Prop where
  inside : ∀ event : Event, depth < event.depth → breakpoint.suspendsAt event = false
  exit : breakpoint.suspendsAt ⟨.exit, depth⟩ = true

theorem awaits_stepOut {depth : Nat} (called : 2 ≤ depth) : (stepOut depth).Awaits depth where
  inside event deeper := by
    have beyond : ¬event.depth - 1 < depth := by omega
    simp [suspendsAt, beyond]
  exit := by
    have returns : depth - 1 < depth ∧ 0 < depth - 1 := by omega
    simp [suspendsAt, returns]

theorem awaits_next (depth : Nat) : (next depth).Awaits depth where
  inside event deeper := decide_eq_false (by omega)
  exit := decide_eq_true rfl

/-- There is no caller to return to from a depth of one. -/
theorem suspendsAt_stepOut_of_le_one {depth : Nat} (uncalled : depth ≤ 1) (event : Event) :
    (stepOut depth).suspendsAt event = false := by
  have outermost : ¬(event.depth - 1 < depth ∧ 0 < event.depth - 1) := by omega
  simp only [suspendsAt, Bool.and_assoc]
  rw [← Bool.decide_and, decide_eq_false outermost, Bool.and_false]

end Breakpoint

namespace Debugger

variable {formula : Node} {environment : Environment} {before after debugger : Debugger}
  {breakpoint : Breakpoint} {frame : Frame} {around : List Frame}

theorem leavesRoot_exit_iff {depth : Nat} : leavesRoot ⟨.exit, depth⟩ = true ↔ depth = 1 := by
  simp [leavesRoot]

/-- What a command has done that suspends a debugger where the node of a frame
is left: the frame has the value and those around it are the same, and every
event before that is deeper than the frame. -/
structure LeavesAt (before : Debugger) (frame : Frame) (around : List Frame) (value : Value)
    (breakpoint : Breakpoint) (answer : Except DebugError Unit × Debugger) : Prop where
  succeeds : answer.1 = .ok ()
  state : answer.2.state = .suspended
  current : answer.2.current = some breakpoint
  frames : answer.2.session.stack.frames = { frame with result := some value } :: around
  history : ∃ inside, (∀ record ∈ inside, around.length + 1 < record.event.depth) ∧
    answer.2.session.trace.history =
      before.session.trace.history ++ inside ++ [{ frame with result := some value }]

/-- What a command has done that meets an error of the evaluation. -/
structure FailsWith (error : EvalError) (answer : Except DebugError Unit × Debugger) : Prop where
  refuses : answer.1 = .error (.evaluation error)
  state : answer.2.state = .failed
  failure : answer.2.failure = some (.evaluation error)

/-- Where a run comes to that goes on until an open frame is left. Its
breakpoint matters only in that it stays active. -/
inductive Returns (environment : Environment) (frame : Frame) (around : List Frame)
    (before : Debugger) : Prop where
  | leaves {value : Value} (after : Debugger)
      (own : frame.site.node.evaluate environment = .ok value)
      (resumed : ∀ breakpoint : Breakpoint, breakpoint.Awaits (around.length + 1) →
        before.resume breakpoint = (.ok (), (after.rearmed breakpoint).suspend breakpoint))
      (frames : after.session.stack.frames = { frame with result := some value } :: around)
      (inside : List Frame)
      (deeper : ∀ record ∈ inside, around.length + 1 < record.event.depth)
      (history : after.session.trace.history =
        before.session.trace.history ++ inside ++ [{ frame with result := some value }])
  | fails {error : EvalError} (after : Debugger)
      (own : frame.site.node.evaluate environment = .error error)
      (resumed : ∀ breakpoint : Breakpoint, breakpoint.Awaits (around.length + 1) →
        before.resume breakpoint =
          (.error (.evaluation error), (after.rearmed breakpoint).fail (.evaluation error)))

/-- **A breakpoint that awaits a frame finds its exit**, if the frame is not that
of the root. -/
theorem Reached.returns (reached : Reached formula environment before)
    (unfinished : before.isFinished = false)
    (live : before.session.stack.dropEvaluated.frames = frame :: around) (called : around ≠ []) :
    before.Returns environment frame around := by
  -- which breakpoint is active does not matter until the frame's node is left
  have armed := Reached.arm .stepInto reached unfinished
  have passed {events : List Event} {last : Debugger} {breakpoint : Breakpoint}
      (passes : Passes (before.armed .stepInto) events last)
      (deeper : ∀ event ∈ events, around.length + 1 < event.depth)
      (awaits : breakpoint.Awaits (around.length + 1)) :
      before.resume breakpoint = (last.rearmed breakpoint).runTo breakpoint := by
    rw [resume_of_unfinished unfinished]
    exact (passes.rearmed breakpoint).runTo rfl fun event member =>
      awaits.inside event (deeper event member)
  have concludes := armed.concludes rfl [] live
  cases concludes with
  | @leaves events last after step value passes deeper advanced frames own =>
    obtain ⟨records, earlier, same_events⟩ := passes.exists_records rfl armed
    obtain ⟨still_reached, still_running⟩ := passes.reached rfl armed
    obtain ⟨top, below, on_top, recorded, -⟩ := still_reached.exists_record still_running advanced
    have same_top : top = { frame with result := some value } :=
      (List.cons.inj (on_top.symm.trans frames)).1
    refine .leaves after own (fun breakpoint awaits => ?_) frames records ?_ ?_
    · have not_root : ¬leavesRoot ⟨.exit, around.length + 1⟩ = true := by
        have nested := List.length_pos_iff.mpr called
        rw [leavesRoot_exit_iff]
        omega
      rw [passed passes deeper awaits, runTo_of_event (advance_rearmed_of advanced breakpoint),
        if_neg not_root]
      exact if_pos awaits.exit
    · intro record member
      exact deeper _ (same_events ▸ List.mem_map_of_mem member)
    · rw [recorded, earlier, same_top]
      rfl
  | @fails events last after error passes deeper advanced own =>
    refine .fails after own fun breakpoint awaits => ?_
    rw [passed passes deeper awaits]
    exact runTo_of_error (advance_rearmed_of advanced breakpoint)

/-- Breakpoints that await the same frame lead to the same. -/
theorem Returns.agrees (returns : before.Returns environment frame around)
    {first second : Breakpoint} (one : first.Awaits (around.length + 1))
    (other : second.Awaits (around.length + 1)) :
    (before.resume first).2.Agrees (before.resume second).2 := by
  cases returns with
  | leaves after own resumed frames inside deeper history =>
    rw [resumed first one, resumed second other]
    exact ⟨rfl, rfl, rfl, rfl, rfl⟩
  | fails after own resumed =>
    rw [resumed first one, resumed second other]
    exact ⟨rfl, rfl, rfl, rfl, rfl⟩

theorem Returns.leavesAt (returns : before.Returns environment frame around)
    (awaits : breakpoint.Awaits (around.length + 1)) {value : Value}
    (valued : frame.site.node.evaluate environment = .ok value) :
    before.LeavesAt frame around value breakpoint (before.resume breakpoint) := by
  cases returns with
  | leaves after own resumed frames inside deeper history =>
    cases valued.symm.trans own
    rw [resumed breakpoint awaits]
    exact ⟨rfl, rfl, rfl, frames, inside, deeper, history⟩
  | fails after own resumed => cases valued.symm.trans own

theorem Returns.failsWith (returns : before.Returns environment frame around)
    (awaits : breakpoint.Awaits (around.length + 1)) {error : EvalError}
    (failed : frame.site.node.evaluate environment = .error error) :
    FailsWith error (before.resume breakpoint) := by
  cases returns with
  | leaves after own resumed frames inside deeper history => cases failed.symm.trans own
  | fails after own resumed =>
    cases failed.symm.trans own
    rw [resumed breakpoint awaits]
    exact ⟨rfl, rfl, rfl⟩

/-! ## Running to the end -/

/-- A run that its breakpoint never suspends is a run to the end. -/
theorem runTo_rearmed (never : ∀ event, breakpoint.suspendsAt event = false)
    (to_end : debugger.session.active = some .continueToEnd) :
    (debugger.rearmed breakpoint).runTo breakpoint =
      ((debugger.runTo .continueToEnd).1,
        (debugger.runTo .continueToEnd).2.rearmed breakpoint) := by
  induction debugger using Debugger.runTo.induct with
  | case1 debugger error after advanced =>
    rw [runTo_of_error advanced, runTo_of_error (advance_rearmed_of advanced breakpoint)]
    rfl
  | case2 debugger step after advanced =>
    rw [runTo_of_complete advanced, runTo_of_complete (advance_rearmed_of advanced breakpoint)]
    rfl
  | case3 debugger step event after advanced fewer leaves ih =>
    rw [runTo_of_event advanced, runTo_of_event (advance_rearmed_of advanced breakpoint),
      if_pos leaves, if_pos leaves]
    exact ih ((active_advance advanced).trans to_end)
  | case4 debugger step event after advanced fewer stays suspends =>
    rw [Session.shouldSuspend, active_advance advanced, to_end] at suspends
    cases suspends
  | case5 debugger step event after advanced fewer stays passes ih =>
    have unsuspended : ¬(after.rearmed breakpoint).session.shouldSuspend event = true :=
      Bool.eq_false_iff.mp (never event)
    rw [runTo_of_event advanced, runTo_of_event (advance_rearmed_of advanced breakpoint),
      if_neg stays, if_neg stays, if_neg passes, if_neg unsuspended]
    exact ih ((active_advance advanced).trans to_end)

/-- A breakpoint that never suspends does what running to the end does, but for
which breakpoint is active. -/
theorem resume_of_never (unfinished : debugger.isFinished = false)
    (never : ∀ event, breakpoint.suspendsAt event = false) :
    debugger.resume breakpoint =
        ((debugger.run .continue).1, (debugger.run .continue).2.rearmed breakpoint) ∧
      (debugger.resume breakpoint).2.isFinished = true := by
  have to_end : (debugger.armed .continueToEnd).session.active = some .continueToEnd := rfl
  have same : debugger.resume breakpoint =
      ((debugger.run .continue).1, (debugger.run .continue).2.rearmed breakpoint) := by
    rw [run, Debugger.breakpoint, resume_of_unfinished unfinished,
      resume_of_unfinished unfinished]
    exact runTo_rearmed never to_end
  refine ⟨same, ?_⟩
  rw [same, run, Debugger.breakpoint, resume_of_unfinished unfinished]
  exact isFinished_runTo to_end

/-- After the exit of the root nothing is left but completion. -/
theorem Reached.isFinished_runTo_of_root {value : Value}
    (reached : Reached formula environment debugger) (running : debugger.state = .running)
    (frames : debugger.session.stack.frames = [{ frame with result := some value }]) :
    (debugger.runTo breakpoint).2.isFinished = true := by
  have mirrors := reached.coupled.mirrors (ne_failed_of_running running)
  rw [Mirrors, frames] at mirrors
  have last := Evaluation.eq_left_of_nodes mirrors.symm
  generalize advanced : debugger.advance = outcome
  obtain ⟨answer, after⟩ := outcome
  have advances := reached.advances running advanced
  cases advances with
  | fails foreseen stepped =>
    rw [runTo_of_error advanced]
    rfl
  | @observes step event next session stepped observed eventful mirrored =>
    rw [last] at stepped
    cases stepped
    cases event with
    | none =>
      rw [runTo_of_complete advanced]
      rfl
    | some event => cases eventful

/-- **A breakpoint that lets everything inside the root pass runs to the end.** -/
theorem Reached.isFinished_resume (reached : Reached formula environment debugger)
    (unfinished : debugger.isFinished = false)
    (live : debugger.session.stack.dropEvaluated.frames = [frame])
    (inside : ∀ event : Event, 1 < event.depth → breakpoint.suspendsAt event = false) :
    (debugger.resume breakpoint).2.isFinished = true := by
  have armed := Reached.arm breakpoint reached unfinished
  have concludes := armed.concludes rfl [] live
  cases concludes with
  | leaves passes deeper advanced frames own =>
    obtain ⟨still_reached, still_running⟩ := passes.reached rfl armed
    have root : leavesRoot ⟨.exit, ([] : List Frame).length + 1⟩ = true := rfl
    rw [resume_of_unfinished unfinished,
      passes.runTo rfl fun event member => inside event (deeper event member),
      runTo_of_event advanced, if_pos root]
    exact (Reached.advance still_reached still_running advanced).isFinished_runTo_of_root
      (running_of_advance still_running advanced) frames
  | fails passes deeper advanced own =>
    rw [resume_of_unfinished unfinished,
      passes.runTo rfl fun event member => inside event (deeper event member),
      runTo_of_error advanced]
    rfl

/-! ## The commands -/

/-- Before the first command there are no frames. -/
theorem Reached.liveDepth_of_idle (reached : Reached formula environment debugger)
    (idle : debugger.state = .idle) : debugger.session.stack.liveDepth = 0 := by
  cases reached with
  | start => rfl
  | advance reached running advanced =>
    cases (running_of_advance running advanced).symm.trans idle
  | arm => cases idle
  | suspend => cases idle
  | finish => cases idle
  | fail => cases idle

/-- The innermost frame without a result, and its place. -/
theorem Reached.innermostLive (reached : Reached formula environment debugger)
    (live : debugger.session.stack.dropEvaluated.frames = frame :: around) :
    debugger.session.stack.InnermostLive frame ∧
      debugger.session.stack.liveDepth = around.length + 1 := by
  have unevaluated : frame.isEvaluated = false := by
    refine reached.recorded.unevaluated frame ?_
    rw [live]
    exact List.mem_cons_self
  refine ⟨CallStack.innermostLive live (Option.not_isSome_iff_eq_none.mp ?_), ?_⟩
  · exact Bool.eq_false_iff.mp unevaluated
  · rw [CallStack.liveDepth_eq_length, live, List.length_cons]

/-- **Stepping out returns from the innermost frame without a result.** If that
frame has another around it, the debugger is suspended where the frame's node is
left, with the same frames and after nothing but deeper events; if the node
fails, so does the debugger. Without such a frame, stepping out is running to the
end, but for which breakpoint is active. -/
theorem step_out_returns (formula : Node) (environment : Environment) (commands : List Command) :
    let debugger := (start formula environment).performAll commands
    let depth := debugger.session.stack.liveDepth
    (debugger.state = .suspended → 2 ≤ depth →
      ∃ frame around, debugger.session.stack.dropEvaluated.frames = frame :: around ∧
        debugger.session.stack.InnermostLive frame ∧ depth = around.length + 1 ∧
        (∀ value, frame.site.node.evaluate environment = .ok value →
          debugger.LeavesAt frame around value (.stepOut depth) (debugger.run .stepOut)) ∧
        ∀ error, frame.site.node.evaluate environment = .error error →
          FailsWith error (debugger.run .stepOut)) ∧
    (debugger.state = .idle ∨ debugger.state = .suspended ∧ depth ≤ 1 →
      debugger.run .stepOut = ((debugger.run .continue).1,
        (debugger.run .continue).2.rearmed (.stepOut depth)) ∧
      (debugger.run .stepOut).2.Ends (formula.evaluate environment)) := by
  intro debugger depth
  have reached : Reached formula environment debugger := Reached.start.performAll commands
  constructor
  · intro suspended called
    cases live : debugger.session.stack.dropEvaluated.frames with
    | nil =>
      have none_live : depth = 0 :=
        (CallStack.liveDepth_eq_length _).trans (congrArg List.length live)
      omega
    | cons frame around =>
      obtain ⟨innermost, place⟩ := reached.innermostLive live
      have nested : around ≠ [] := by
        rintro rfl
        rw [List.length_nil] at place
        omega
      have returns := reached.returns (isFinished_of_suspended suspended) live nested
      have awaits : (Breakpoint.stepOut depth).Awaits (around.length + 1) :=
        place ▸ Breakpoint.awaits_stepOut called
      exact ⟨frame, around, rfl, innermost, place, fun value => returns.leavesAt awaits,
        fun error => returns.failsWith awaits⟩
  · intro stands
    obtain ⟨unfinished, uncalled⟩ : debugger.isFinished = false ∧ depth ≤ 1 := by
      rcases stands with idle | ⟨suspended, uncalled⟩
      · refine ⟨?_, (reached.liveDepth_of_idle idle).trans_le (Nat.zero_le 1)⟩
        rw [isFinished, idle]
        rfl
      · exact ⟨isFinished_of_suspended suspended, uncalled⟩
    obtain ⟨same, finished⟩ :=
      resume_of_never unfinished (Breakpoint.suspendsAt_stepOut_of_le_one uncalled)
    exact ⟨same, (reached.perform (.run .stepOut)).ends finished⟩

/-- Where the number in `-1 + 2` has its value, its frame is on top. Stepping out
leaves the sign around it. -/
theorem step_out_of_negatedSum :
    let debugger := (start negatedSum fun _ => none).performAll
      [.launch true, .run .stepInto, .run .stepInto, .run .stepInto]
    debugger.state = .suspended ∧ debugger.session.stack.depth = 3 ∧
      debugger.session.stack.liveDepth = 2 ∧
      ∃ frame around value, debugger.LeavesAt frame around value (.stepOut 2)
        (debugger.run .stepOut) := by
  intro debugger
  have suspended : debugger.state = .suspended := by decide +kernel
  have live : debugger.session.stack.liveDepth = 2 := by decide +kernel
  refine ⟨suspended, by decide +kernel, live, ?_⟩
  obtain ⟨frame, around, -, -, -, leaves, fails⟩ := (step_out_returns negatedSum (fun _ => none)
    [.launch true, .run .stepInto, .run .stepInto, .run .stepInto]).1 suspended live.ge
  rw [← live]
  cases valued : frame.site.node.evaluate fun _ => none with
  | ok value => exact ⟨frame, around, value, leaves value valued⟩
  | error error =>
    have failed : (debugger.run .stepOut).2.state = .failed := (fails error valued).state
    have unfailed : (debugger.run .stepOut).2.state = .suspended := by decide +kernel
    cases failed.symm.trans unfailed

/-- What a command has done that suspends a debugger where a child of a frame's
node is entered. Nothing else has happened. -/
structure EntersAt (before : Debugger) (parent : Frame) (around : List Frame) (child : Site)
    (breakpoint : Breakpoint) (answer : Except DebugError Unit × Debugger) : Prop where
  succeeds : answer.1 = .ok ()
  state : answer.2.state = .suspended
  current : answer.2.current = some breakpoint
  inside : ∃ position, parent.site.child? position = some child
  frames : answer.2.session.stack.frames =
    ⟨before.session.stack.counter + 1, around.length + 1, child, none⟩ :: parent :: around
  history : answer.2.session.trace.history = before.session.trace.history ++
    [⟨before.session.stack.counter + 1, around.length + 1, child, none⟩]

/-- Where the evaluation enters a node, the session opens a frame for it. -/
theorem advance_of_enter (debugger : Debugger) {child : Site}
    (entered : (debugger.evaluation.step debugger.environment).1 = .ok (.enter child)) :
    ∃ after, debugger.advance = (.ok (.enter child,
        some ⟨.enter, debugger.session.stack.dropEvaluated.depth + 1⟩), after) ∧
      after.session.stack = debugger.session.stack.dropEvaluated.push child ∧
      after.session.trace.history = debugger.session.trace.history ++
        [debugger.session.stack.dropEvaluated.opened child] := by
  unfold advance
  generalize debugger.evaluation.step debugger.environment = outcome at entered
  obtain ⟨answer, next⟩ := outcome
  cases entered
  exact ⟨_, rfl, rfl, Trace.history_recordEnter _ _⟩

/-- The frame on top stands for a child of the node of the frame below it. -/
theorem Reached.exists_child? {top parent : Frame}
    (reached : Reached formula environment debugger) (unfailed : debugger.state ≠ .failed)
    (frames : debugger.session.stack.frames = top :: parent :: around) :
    ∃ position, parent.site.child? position = some top.site := by
  have path := CallStack.descends_of_mirrors reached.coupled.within
    (reached.coupled.mirrors unfailed)
  rw [frames] at path
  exact (List.isChain_cons_cons.mp path.isChain).1

/-- Where the next step enters a node inside a frame, a breakpoint for the depth
of that node suspends there. -/
theorem Reached.entersAt {parent : Frame} {child : Site}
    (reached : Reached formula environment debugger) (unfinished : debugger.isFinished = false)
    (live : debugger.session.stack.dropEvaluated.frames = parent :: around)
    (entered : (debugger.evaluation.step environment).1 = .ok (.enter child)) :
    debugger.EntersAt parent around child (.next (around.length + 2))
      (debugger.resume (.next (around.length + 2))) := by
  have armed := Reached.arm (.next (around.length + 2)) reached unfinished
  rw [← reached.coupled.fixed] at entered
  obtain ⟨after, advanced, stack, recorded⟩ :=
    advance_of_enter (debugger.armed (.next (around.length + 2))) entered
  have next := Reached.advance armed rfl advanced
  have depth : debugger.session.stack.dropEvaluated.depth = around.length + 1 :=
    congrArg List.length live
  have opened : debugger.session.stack.dropEvaluated.opened child =
      ⟨debugger.session.stack.counter + 1, around.length + 1, child, none⟩ := by
    rw [CallStack.opened, depth, CallStack.counter_dropEvaluated]
  have frames : after.session.stack.frames =
      ⟨debugger.session.stack.counter + 1, around.length + 1, child, none⟩ :: parent :: around := by
    rw [stack, ← opened, ← live]
    rfl
  have not_root : ¬leavesRoot
      ⟨.enter, (debugger.armed (.next (around.length + 2))).session.stack.dropEvaluated.depth + 1⟩ =
        true := Bool.false_ne_true
  have suspends : after.session.shouldSuspend
      ⟨.enter, (debugger.armed (.next (around.length + 2))).session.stack.dropEvaluated.depth + 1⟩ =
        true := by
    rw [Session.shouldSuspend, active_advance advanced]
    exact decide_eq_true (congrArg (· + 1) depth)
  rw [resume_of_unfinished unfinished, runTo_of_event advanced, if_neg not_root, if_pos suspends]
  refine ⟨rfl, rfl, rfl, ?_, frames, ?_⟩
  · exact next.exists_child? (ne_failed_of_running (running_of_advance rfl advanced)) frames
  · rw [← opened]
    exact recorded

/-- A suspended debugger has a frame on top. -/
theorem exists_top_of_suspended {commands : List Command}
    (suspended : ((start formula environment).performAll commands).state = .suspended) :
    ∃ top around, ((start formula environment).performAll commands).session.stack.frames =
      top :: around := by
  have untouched : (start formula environment).Settled formula environment :=
    .idle rfl rfl rfl rfl rfl
  cases untouched.performAll .start commands with
  | suspended state breakpoint event at_event =>
    obtain ⟨top, around, frames, -⟩ := at_event.innermost
    exact ⟨top, around, frames⟩
  | idle state => cases suspended.symm.trans state
  | finished state => cases suspended.symm.trans state
  | failed state => cases suspended.symm.trans state

/-- **Stepping over stays at the depth of the stack.** Where a node was just
entered, it does what stepping out does: the debugger is suspended where that
node is left, with the same frames around it, or fails with the node's error.
From the entry of the root it goes on to the end. Where a node was just left and
the one around it goes on to another child, the debugger is suspended where that
child is entered, and the frame around it is the same. -/
theorem next_steps_over (formula : Node) (environment : Environment) (commands : List Command) :
    let debugger := (start formula environment).performAll commands
    debugger.state = .suspended →
      ∃ top around, debugger.session.stack.frames = top :: around ∧
        (top.result = none → around ≠ [] →
          (∀ value, top.site.node.evaluate environment = .ok value →
            debugger.LeavesAt top around value (.next (around.length + 1))
              (debugger.run .stepOver)) ∧
          (∀ error, top.site.node.evaluate environment = .error error →
            FailsWith error (debugger.run .stepOver)) ∧
          (debugger.run .stepOver).2.Agrees (debugger.run .stepOut).2) ∧
        (top.result = none → around = [] →
          (debugger.run .stepOver).2.Ends (formula.evaluate environment)) ∧
        ∀ value parent further child, top.result = some value → around = parent :: further →
          (debugger.evaluation.step environment).1 = .ok (.enter child) →
            debugger.EntersAt parent further child (.next (around.length + 1))
              (debugger.run .stepOver) := by
  intro debugger suspended
  have reached : Reached formula environment debugger := Reached.start.performAll commands
  have unfinished := isFinished_of_suspended suspended
  obtain ⟨top, around, frames⟩ := exists_top_of_suspended suspended
  have asked : debugger.run .stepOver = debugger.resume (.next (around.length + 1)) := by
    have depth : debugger.session.stack.depth = around.length + 1 := congrArg List.length frames
    rw [← depth]
    rfl
  have dropped := debugger.session.stack.dropEvaluated_frames
  rw [frames, Frame.dropEvaluated, Frame.isEvaluated] at dropped
  rw [asked]
  refine ⟨top, around, frames, fun entered nested => ?_, fun entered outermost => ?_, ?_⟩
  · rw [entered] at dropped
    have returns := reached.returns unfinished dropped nested
    have awaits := Breakpoint.awaits_next (around.length + 1)
    refine ⟨fun value => returns.leavesAt awaits, fun error => returns.failsWith awaits, ?_⟩
    have out : debugger.run .stepOut = debugger.resume (.stepOut (around.length + 1)) := by
      rw [← (reached.innermostLive dropped).2]
      rfl
    rw [out]
    refine returns.agrees awaits (Breakpoint.awaits_stepOut ?_)
    exact Nat.succ_le_succ (List.length_pos_iff.mpr nested)
  · subst outermost
    rw [entered] at dropped
    refine (reached.resume _).1.ends (reached.isFinished_resume unfinished dropped ?_)
    exact (Breakpoint.awaits_next 1).inside
  · rintro value parent further child left rfl entered
    rw [left] at dropped
    exact reached.entersAt unfinished dropped entered

/-- At the entry of the sign in `-1 + 2`, stepping over suspends where the sign
is left. -/
theorem next_of_negatedSum :
    let debugger := (start negatedSum fun _ => none).performAll [.launch true, .run .stepInto]
    debugger.state = .suspended ∧
      debugger.session.stack.frames.map Frame.isEvaluated = [false, false] ∧
      ∃ top around value, debugger.session.stack.frames = top :: around ∧
        debugger.LeavesAt top around value (.next (around.length + 1))
          (debugger.run .stepOver) := by
  intro debugger
  have suspended : debugger.state = .suspended := by decide +kernel
  have shown : debugger.session.stack.frames.map Frame.isEvaluated = [false, false] := by
    decide +kernel
  obtain ⟨top, around, frames, at_entry, -, -⟩ :=
    next_steps_over negatedSum (fun _ => none) [.launch true, .run .stepInto] suspended
  have parts := shown
  rw [frames, List.map_cons, List.cons.injEq] at parts
  have entered : top.result = none :=
    Option.not_isSome_iff_eq_none.mp (Bool.eq_false_iff.mp parts.1)
  have nested : around ≠ [] := by
    rintro rfl
    cases parts.2
  obtain ⟨leaves, fails, -⟩ := at_entry entered nested
  refine ⟨suspended, shown, top, around, ?_⟩
  cases valued : top.site.node.evaluate fun _ => none with
  | ok value => exact ⟨value, frames, leaves value valued⟩
  | error error =>
    have failed : (debugger.run .stepOver).2.state = .failed := (fails error valued).state
    have unfailed : (debugger.run .stepOver).2.state = .suspended := by decide +kernel
    cases failed.symm.trans unfailed

end Debugger

end FormulaStepper
