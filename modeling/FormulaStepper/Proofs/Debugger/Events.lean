import FormulaStepper.Proofs.Debugger.Passage

/-!
# The events of a formula

Before any debugger runs it is settled which entries and exits there are, and
how deep each of them is: they are those of the transcript of the formula, and
the depth of an event is the depth of its node in the tree
(`Formula.Node.events`). A well-formed formula has the events of its recursive
account.

There are at most two events for each node. If the formula has a value, the exit
of the root is the last event and no other (`Formula.Node.exists_events_eq`). If
it fails, the root is not left, and there is one event less.

A debugger sees these events one by one. What its trace has recorded and what
its evaluation has still to show are together all the events of the formula
(`Debugger.Reached.recorded_append_ahead`).
-/

set_option autoImplicit false

namespace FormulaStepper

open Formula

/-- The entry or exit that a step shows, at the depth of its node in the tree. -/
def Step.event? : Step → Option Event
  | .enter site => some ⟨.enter, site.path.length + 1⟩
  | .exit site _ => some ⟨.exit, site.path.length + 1⟩
  | .complete _ => none

/-- The exit of the root. -/
def Event.rootExit : Event := ⟨.exit, 1⟩

theorem Debugger.leavesRoot_iff {event : Event} :
    leavesRoot event = true ↔ event = .rootExit := by
  obtain ⟨kind, depth⟩ := event
  simp [leavesRoot, Event.rootExit]

/-- The entries and exits of an account. -/
def Account.events {α : Type} (account : Account α) : List Event :=
  account.steps.filterMap Step.event?

/-- All entries and exits of the evaluation of a formula, in order. -/
def Formula.Node.events (environment : Environment) (formula : Node) : List Event :=
  ((Evaluation.ready formula).transcript environment).events

theorem Account.events_shows {α : Type} {step : Step} {event : Event}
    (shown : step.event? = some event) (next : Unit → Account α) :
    (shows step >>= next).events = event :: (next ()).events :=
  List.filterMap_cons_some shown

theorem Step.exists_event {step : Step} (node : step.showsNode = true) :
    ∃ event, step.event? = some event := by
  cases step with
  | enter site => exact ⟨_, rfl⟩
  | exit site value => exact ⟨_, rfl⟩
  | complete value => cases node

namespace Evaluation

variable {environment : Environment} {formula : Node} {evaluation next : Evaluation}

/-- A transcript holds entries and exits only. -/
theorem showsNode_of_mem_transcript (environment : Environment) (evaluation : Evaluation) :
    ∀ step ∈ (evaluation.transcript environment).steps, step.showsNode = true := by
  induction evaluation using step_induction environment with
  | fails before next error stepped =>
    rw [transcript_of_error stepped]
    exact fun step member => by cases member
  | completes before next value stepped =>
    rw [transcript_of_complete stepped]
    exact fun step member => by cases member
  | shows before next shown stepped node ih =>
    rw [transcript_of_shown stepped node]
    intro step member
    rcases List.mem_cons.mp member with rfl | later
    · exact node
    · exact ih step later

theorem length_events_transcript (environment : Environment) (evaluation : Evaluation) :
    (evaluation.transcript environment).events.length =
      (evaluation.transcript environment).steps.length := by
  refine List.filterMap_length_eq_length.mpr fun step member => ?_
  obtain ⟨event, shown⟩ :=
    Step.exists_event (showsNode_of_mem_transcript environment evaluation step member)
  rw [shown]
  rfl

/-! ## How many events there are -/

/-- An evaluation that fails has an active node, so there was a step to come. -/
theorem Within.remaining_pos (within : evaluation.Within formula) {error : EvalError}
    (stepped : evaluation.step environment = (.error error, next)) : 0 < evaluation.remaining := by
  have positive (top : Activation) (below : List Activation) :
      0 < Activation.remainingOfStack (top :: below) := by
    simp only [Activation.remainingOfStack, Activation.remaining]
    omega
  cases evaluation with
  | ready other => cases stepped
  | complete value => cases stepped
  | active stack =>
    cases stack with
    | nil => exact absurd rfl within.active
    | cons top below => exact positive top below
  | left site value below =>
    cases below with
    | nil => cases stepped
    | cons parent rest => exact positive parent rest

/-- A transcript is not longer than the bound on the steps to come, and shorter
if it fails. -/
theorem Within.length_steps_le (within : evaluation.Within formula) :
    (evaluation.transcript environment).steps.length ≤ evaluation.remaining ∧
      ∀ error, (evaluation.transcript environment).outcome = .error error →
        (evaluation.transcript environment).steps.length < evaluation.remaining := by
  induction evaluation using step_induction environment with
  | fails before next error stepped =>
    rw [transcript_of_error stepped]
    exact ⟨Nat.zero_le _, fun _ _ => within.remaining_pos stepped⟩
  | completes before next value stepped =>
    rw [transcript_of_complete stepped]
    exact ⟨Nat.zero_le _, fun error failed => by cases failed⟩
  | shows before next shown stepped node ih =>
    have fewer := remaining_lt_of_step stepped node
    obtain ⟨bound, strict⟩ := ih (within.moves stepped).within
    have length : (before.transcript environment).steps.length =
        (next.transcript environment).steps.length + 1 := by
      rw [transcript_of_shown stepped node]
      rfl
    refine ⟨by omega, fun error failed => ?_⟩
    rw [transcript_of_shown stepped node, Account.outcome_shows] at failed
    have shorter := strict error failed
    omega

/-! ## The last event -/

/-- Where a node is active, or nothing was done yet, the next step does not find
the evaluation complete. -/
theorem Within.showsNode_of_ongoing (within : evaluation.Within formula)
    (ongoing : evaluation = .ready formula ∨ evaluation.live ≠ []) {step : Step}
    (stepped : evaluation.step environment = (.ok step, next)) : step.showsNode = true := by
  have moves := within.moves stepped
  cases moves with
  | enters within nodes => rfl
  | leaves within innermost nodes => rfl
  | completes within none_live nodes =>
    rcases ongoing with rfl | some_live
    · cases stepped
    · exact absurd none_live some_live

/-- An evaluation that comes to a value ends with the exit of the root, which is
its only one. -/
theorem Within.exists_events_eq (within : evaluation.Within formula)
    (ongoing : evaluation = .ready formula ∨ evaluation.live ≠ []) {value : Value}
    (valued : (evaluation.transcript environment).outcome = .ok value) :
    ∃ inside, (evaluation.transcript environment).events = inside ++ [.rootExit] ∧
      .rootExit ∉ inside := by
  induction evaluation using step_induction environment with
  | fails before next error stepped =>
    rw [transcript_of_error stepped] at valued
    cases valued
  | completes before next value stepped =>
    cases within.showsNode_of_ongoing ongoing stepped
  | shows before next shown stepped node ih =>
    rw [transcript_of_shown stepped node, Account.outcome_shows] at valued
    rw [transcript_of_shown stepped node]
    have moves := within.moves stepped
    cases moves with
    | @enters site next within nodes =>
      obtain ⟨inside, events, others⟩ :=
        ih within (.inr (by rw [live_of_entered nodes]; exact List.cons_ne_nil _ _)) valued
      refine ⟨⟨.enter, site.path.length + 1⟩ :: inside, ?_, ?_⟩
      · rw [Account.events_shows rfl, events, List.cons_append]
      · exact List.not_mem_cons_of_ne_of_not_mem (fun same => by cases same) others
    | @leaves site value around next within innermost nodes =>
      have depth := within.length_path nodes
      rw [List.length_map] at depth
      rw [Account.events_shows rfl, depth]
      cases around with
      | nil =>
        have last := eq_left_of_nodes nodes
        rw [last, transcript_left_nil]
        exact ⟨[], rfl, List.not_mem_nil⟩
      | cons parent further =>
        obtain ⟨inside, events, others⟩ :=
          ih within (.inr (by rw [live_of_left nodes]; exact List.cons_ne_nil _ _)) valued
        refine ⟨⟨.exit, further.length + 2⟩ :: inside, ?_, ?_⟩
        · rw [events]
          rfl
        · exact List.not_mem_cons_of_ne_of_not_mem (fun same => by cases same) others
    | completes within none_live nodes => cases node

end Evaluation

namespace Formula.Node

variable {environment : Environment} {formula : Node}

/-- **There are at most two events for each node**, and one less if the formula
fails. -/
theorem length_events_le (environment : Environment) (formula : Node) :
    (formula.events environment).length ≤ 2 * formula.size ∧
      ∀ error, formula.evaluate environment = .error error →
        (formula.events environment).length < 2 * formula.size := by
  rw [events, Evaluation.length_events_transcript, evaluate_eq_transcript]
  exact (Evaluation.within_ready formula).length_steps_le

/-- **The last event of a formula with a value is the exit of its root**, and no
other event is. -/
theorem exists_events_eq {value : Value} (valued : formula.evaluate environment = .ok value) :
    ∃ inside, formula.events environment = inside ++ [.rootExit] ∧ .rootExit ∉ inside := by
  rw [evaluate_eq_transcript] at valued
  exact (Evaluation.within_ready formula).exists_events_eq (.inl rfl) valued

end Formula.Node

/-! ## The events of a debugger -/

namespace Debugger

variable {formula : Node} {environment : Environment} {before after debugger : Debugger}
  {step : Step} {event : Event}

/-- The events that the evaluation of a debugger has still to show. -/
def ahead (debugger : Debugger) : List Event :=
  (debugger.evaluation.transcript debugger.environment).events

/-- **The event that a session sees is that of the step**, at the depth of its
node in the tree. -/
theorem Reached.event?_of_advance (reached : Reached formula environment before)
    (running : before.state = .running)
    (advanced : before.advance = (.ok (step, some event), after)) :
    step.event? = some event := by
  obtain ⟨frame, below, frames, -, seen⟩ :=
    (reached.advances running advanced).session_of_ok.exists_frame
  have advances := reached.advances running advanced
  cases advances with
  | @observes _ _ next session stepped observed eventful mirrors =>
    have moves := reached.coupled.within.moves stepped
    have shown : frame.shown :: below.map Frame.shown = next.nodes := by
      rw [← mirrors, ← List.map_cons, ← frames]
    have depth := moves.within.length_path shown.symm
    rw [List.length_map] at depth
    rw [seen, ← depth]
    cases moves with
    | enters within nodes =>
      have top : frame.shown = _ := (List.cons.inj (shown.trans nodes)).1
      cases frame
      cases top
      rfl
    | leaves within innermost nodes =>
      have top : frame.shown = _ := (List.cons.inj (shown.trans nodes)).1
      cases frame
      cases top
      rfl
    | completes within none_live nodes => cases eventful

/-- A debugger that advances through an event had it ahead. -/
theorem Reached.ahead_of_event (reached : Reached formula environment before)
    (running : before.state = .running)
    (advanced : before.advance = (.ok (step, some event), after)) :
    before.ahead = event :: after.ahead := by
  have own := reached.event?_of_advance running advanced
  have advances := reached.advances running advanced
  cases advances with
  | @observes _ _ next session stepped observed eventful mirrors =>
    rw [ahead, Evaluation.transcript_of_shown stepped eventful.symm, Account.events_shows own]
    rfl

/-- A debugger that finds the evaluation complete had no event ahead. -/
theorem Advances.ahead_of_none (advances : before.Advances (.ok (step, none)) after) :
    before.ahead = [] := by
  cases advances with
  | @observes _ _ next session stepped observed eventful mirrors =>
    cases step with
    | enter site => cases eventful
    | exit site value => cases eventful
    | complete value =>
      rw [ahead, Evaluation.transcript_of_complete stepped]
      rfl

/-- A debugger that meets an error had no event ahead. -/
theorem Advances.ahead_of_error {error : DebugError}
    (advances : before.Advances (.error error) after) : before.ahead = [] := by
  cases advances with
  | @fails error next foreseen stepped =>
    rw [ahead, Evaluation.transcript_of_error stepped]
    rfl

/-- **What is recorded and what is ahead are together all the events of the
formula**, until the debugger comes to its end. -/
theorem Reached.recorded_append_ahead (reached : Reached formula environment debugger)
    (unfinished : debugger.isFinished = false) :
    debugger.session.trace.history.map Frame.event ++ debugger.ahead =
      formula.events environment := by
  induction reached with
  | start => rfl
  | arm breakpoint reached unended ih => exact ih unended
  | @advance before after step event reached running advanced ih =>
    obtain ⟨frame, _, _, recorded, seen⟩ := reached.exists_record running advanced
    rw [← ih (isFinished_of_running running), reached.ahead_of_event running advanced, recorded,
      seen, List.map_append, List.append_assoc]
    rfl
  | suspend breakpoint reached running ih => exact ih (isFinished_of_running running)
  | finish reached running advanced ih => cases unfinished
  | fail reached running advanced ih => cases unfinished

end Debugger

end FormulaStepper
