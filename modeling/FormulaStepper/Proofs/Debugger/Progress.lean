import FormulaStepper.Proofs.Debugger.FirstMatch
import FormulaStepper.Proofs.Debugger.Lifecycle

/-!
# Debugging comes to an end

A command that suspends a debugger has passed at least one event, so the trace
grows with every such command. It cannot grow beyond the events of the formula,
and where it holds all of them the debugger is not suspended: the last event of
a formula with a value is the exit of the root, and a formula that fails has
fewer events than twice its nodes (`Debugger.length_le_size_trace`). So commands
can go on only for so long.

Stepping into every event of a formula with a value passes them one at a time
(`Debugger.stepInto_stands`).
-/

set_option autoImplicit false

namespace FormulaStepper

open Formula

/-- Among events there is a first one at which a breakpoint stops, or none. -/
theorem Breakpoint.exists_first_or_none (breakpoint : Breakpoint) (events : List Event) :
    (∃ passed event rest, events = passed ++ event :: rest ∧
      (∀ other ∈ passed, ¬breakpoint.StopsAt other) ∧ breakpoint.StopsAt event) ∨
    ∀ event ∈ events, ¬breakpoint.StopsAt event := by
  cases found : events.find? (breakpoint.StopsAt ·) with
  | none => exact .inr (by simpa using List.find?_eq_none.mp found)
  | some event =>
    obtain ⟨stop, passed, rest, split, pass⟩ := List.find?_eq_some_iff_append.mp found
    exact .inl ⟨passed, event, rest, split, by simpa using pass, by simpa using stop⟩

/-- Up to an event that is not the exit of the root there are fewer events than
twice the nodes of the formula. -/
theorem Formula.Node.length_succ_lt {environment : Environment} {formula : Node}
    {earlier rest : List Event} {event : Event}
    (split : formula.events environment = earlier ++ event :: rest)
    (inner : event ≠ .rootExit) : earlier.length + 1 < 2 * formula.size := by
  obtain ⟨bound, strict⟩ := formula.length_events_le environment
  have length : (formula.events environment).length = earlier.length + (rest.length + 1) := by
    rw [split, List.length_append, List.length_cons]
  cases outcome : formula.evaluate environment with
  | error error =>
    have fewer := strict error outcome
    omega
  | ok value =>
    obtain ⟨inside, events, -⟩ := exists_events_eq outcome
    cases rest with
    | nil =>
      have last := List.append_inj_right' (split.symm.trans events) rfl
      exact absurd (List.cons.inj last).1 inner
    | cons next rest =>
      rw [List.length_cons] at length
      omega

namespace Debugger

variable {formula : Node} {environment : Environment} {debugger : Debugger}
  {commands : List Command}

theorem performAll_concat (debugger : Debugger) (commands : List Command) (command : Command) :
    debugger.performAll (commands ++ [command]) =
      ((debugger.performAll commands).perform command).2 :=
  List.foldl_concat ..

/-- **A command passes at least one event before it suspends the debugger**, and
leaves fewer than twice the nodes of the formula behind it. -/
theorem Reached.progress (reached : Reached formula environment debugger)
    (unfinished : debugger.isFinished = false) (breakpoint : Breakpoint) :
    (debugger.resume breakpoint).2.isFinished = true ∨
      (debugger.resume breakpoint).2.state = .suspended ∧
        debugger.session.trace.size < (debugger.resume breakpoint).2.session.trace.size ∧
        (debugger.resume breakpoint).2.session.trace.size < 2 * formula.size := by
  rcases breakpoint.exists_first_or_none
      ((formula.events environment).drop debugger.session.trace.size) with
    ⟨passed, event, rest, split, pass, stop⟩ | pass
  · have stops := reached.stopsAfter unfinished split pass stop
    have whole : formula.events environment =
        ((formula.events environment).take debugger.session.trace.size ++ passed) ++
          event :: rest := by
      rw [List.append_assoc, ← split, List.take_append_drop]
    have bound := Node.length_succ_lt whole stop.1
    have seen : ((formula.events environment).take debugger.session.trace.size).length =
        debugger.session.trace.size := by
      rw [← (reached.hasSeen unfinished).1.events, List.length_map]
      rfl
    rw [List.length_append, seen] at bound
    refine .inr ⟨stops.state, ?_, ?_⟩
    · rw [stops.seen.size]
      omega
    · rw [stops.seen.size]
      omega
  · exact .inl (reached.runsOut unfinished pass).ends.isFinished

/-- A debugger that commands have not brought to its end has at least one entry
in its trace for each of them, and fewer than twice the nodes of the formula. -/
theorem length_le_size_trace (commands : List Command)
    (unfinished : ((start formula environment).performAll commands).isFinished = false) :
    commands.length ≤ ((start formula environment).performAll commands).session.trace.size ∧
      ((start formula environment).performAll commands).session.trace.size < 2 * formula.size := by
  induction commands using List.reverseRecOn with
  | nil =>
    have some_node := formula.size_eq
    refine ⟨Nat.le_refl 0, ?_⟩
    change 0 < 2 * formula.size
    omega
  | append_singleton earlier command ih =>
    rw [performAll_concat] at unfinished ⊢
    cases ended : ((start formula environment).performAll earlier).isFinished with
    | true =>
      rw [perform_of_isFinished ended, ended] at unfinished
      cases unfinished
    | false =>
      have reached : Reached formula environment ((start formula environment).performAll earlier) :=
        Reached.start.performAll earlier
      rw [perform_eq_resume] at unfinished ⊢
      rcases reached.progress ended _ with finished | ⟨-, more, bound⟩
      · rw [finished] at unfinished
        cases unfinished
      · refine ⟨?_, bound⟩
        rw [List.length_append, List.length_singleton]
        exact Nat.lt_of_le_of_lt (ih ended).1 more

/-! ## Stepping into every event -/

theorem perform_of_stepInto (debugger : Debugger) {command : Command}
    (into : command.mode = .stepInto) :
    debugger.perform command = debugger.resume .stepInto := by
  rw [perform_eq_resume, into]
  rfl

/-- Stepping into an event that is not the last one stops right there. -/
theorem Reached.stopsAfter_stepInto (reached : Reached formula environment debugger)
    (unfinished : debugger.isFinished = false) {inside : List Event}
    (events : formula.events environment = inside ++ [.rootExit])
    (others : .rootExit ∉ inside) (more : debugger.session.trace.size < inside.length) :
    StopsAfter formula environment (debugger.session.trace.size + 1) .stepInto
      (debugger.resume .stepInto) := by
  have ahead : (formula.events environment).drop debugger.session.trace.size =
      [] ++ inside[debugger.session.trace.size] ::
        (inside.drop (debugger.session.trace.size + 1) ++ [.rootExit]) := by
    rw [events, List.drop_append_of_le_length (Nat.le_of_lt more), List.drop_eq_getElem_cons more]
    rfl
  have inner : inside[debugger.session.trace.size] ≠ .rootExit := fun same =>
    others (same ▸ List.getElem_mem more)
  exact reached.stopsAfter unfinished ahead (fun _ member => by cases member) ⟨inner, trivial⟩

/-- Stepping into the last event of a formula with a value finishes. -/
theorem Reached.runsOut_stepInto (reached : Reached formula environment debugger)
    (unfinished : debugger.isFinished = false) {inside : List Event}
    (events : formula.events environment = inside ++ [.rootExit])
    (last : debugger.session.trace.size = inside.length) :
    RunsOut formula environment (debugger.resume .stepInto) := by
  refine reached.runsOut unfinished fun event member stop => stop.1 ?_
  rw [events, last, List.drop_left] at member
  exact List.mem_singleton.mp member

/-- Where a debugger stands that has only stepped into events: it has seen as many
as there were commands. -/
theorem stepInto_stands (commands : List Command) {inside : List Event}
    (events : formula.events environment = inside ++ [.rootExit])
    (others : .rootExit ∉ inside) (stepping : ∀ command ∈ commands, command.mode = .stepInto)
    (more : commands.length ≤ inside.length) :
    let debugger := (start formula environment).performAll commands
    debugger.isFinished = false ∧ debugger.session.trace.size = commands.length ∧
      (0 < commands.length → debugger.state = .suspended) := by
  induction commands using List.reverseRecOn with
  | nil => exact ⟨rfl, rfl, fun some_command => absurd some_command (Nat.lt_irrefl 0)⟩
  | append_singleton earlier command ih =>
    intro debugger
    rw [List.length_append, List.length_singleton] at more
    obtain ⟨unfinished, size, -⟩ := ih
      (fun other member => stepping other (List.mem_append_left _ member)) (Nat.le_of_lt more)
    have reached : Reached formula environment ((start formula environment).performAll earlier) :=
      Reached.start.performAll earlier
    have stops := reached.stopsAfter_stepInto unfinished events others (by omega)
    have into : command.mode = .stepInto :=
      stepping command (List.mem_append_right _ (List.mem_singleton_self command))
    have performed : debugger =
        (((start formula environment).performAll earlier).resume .stepInto).2 := by
      rw [← perform_of_stepInto _ into]
      exact performAll_concat _ _ _
    rw [performed]
    refine ⟨isFinished_of_suspended stops.state, ?_, fun _ => stops.state⟩
    rw [stops.seen.size, size, List.length_append, List.length_singleton]

/-- One more command than that finishes. -/
theorem stepInto_finishes {value : Value} {inside : List Event}
    (valued : formula.evaluate environment = .ok value)
    (events : formula.events environment = inside ++ [.rootExit])
    (others : .rootExit ∉ inside) (stepping : ∀ command ∈ commands, command.mode = .stepInto)
    (all : commands.length = inside.length + 1) :
    let debugger := (start formula environment).performAll commands
    debugger.state = .finished ∧
      debugger.session.trace.size = (formula.events environment).length ∧
      debugger.session.stack.frames = [] := by
  intro debugger
  rcases List.eq_nil_or_concat commands with rfl | ⟨earlier, command, rfl⟩
  · cases all
  · rw [List.concat_eq_append] at stepping all
    rw [List.length_append, List.length_singleton] at all
    obtain ⟨unfinished, size, -⟩ := stepInto_stands earlier events others
      (fun other member => stepping other (List.mem_append_left _ member)) (by omega)
    have reached : Reached formula environment ((start formula environment).performAll earlier) :=
      Reached.start.performAll earlier
    have runs := reached.runsOut_stepInto unfinished events (by omega)
    have into : command.mode = .stepInto :=
      stepping command (List.mem_append_right _ (List.mem_singleton_self command))
    have performed : debugger =
        (((start formula environment).performAll earlier).resume .stepInto).2 := by
      rw [← perform_of_stepInto _ into, ← performAll_concat, ← List.concat_eq_append]
    have ends := runs.ends
    rw [valued] at ends
    rw [performed]
    exact ⟨ends.1, runs.seen.size, (runs.finished value valued).2.2⟩

/-- **Debugging always makes progress.** A command that suspends a debugger adds
to its trace, and the trace of a suspended debugger has fewer entries than twice
the nodes of the formula, so no debugger can take twice as many commands as there
are nodes without coming to its end. If the formula has a value, stepping into its
events suspends the debugger once for each of them but the last, with one more
entry each time, and then finishes with all entries and no frames. -/
theorem commands_make_progress (formula : Node) (environment : Environment) :
    (∀ commands command,
      let debugger := (start formula environment).performAll commands
      debugger.isFinished = false → (debugger.perform command).2.state = .suspended →
        debugger.session.trace.size < (debugger.perform command).2.session.trace.size) ∧
    (∀ commands, ((start formula environment).performAll commands).state = .suspended →
      ((start formula environment).performAll commands).session.trace.size ≤
        2 * formula.size - 1) ∧
    (∀ commands, 2 * formula.size ≤ commands.length →
      ((start formula environment).performAll commands).isFinished = true) ∧
    ∀ value, formula.evaluate environment = .ok value →
      ∀ commands, (∀ command ∈ commands, command.mode = .stepInto) →
        let debugger := (start formula environment).performAll commands
        let count := (formula.events environment).length
        (0 < commands.length → commands.length < count →
          debugger.state = .suspended ∧ debugger.session.trace.size = commands.length) ∧
        (commands.length = count →
          debugger.state = .finished ∧ debugger.session.trace.size = count ∧
            debugger.session.stack.frames = []) := by
  refine ⟨?_, ?_, ?_, ?_⟩
  · intro commands command debugger unfinished suspended
    have reached : Reached formula environment debugger := Reached.start.performAll commands
    rw [perform_eq_resume] at suspended ⊢
    rcases reached.progress unfinished _ with finished | ⟨-, more, -⟩
    · rw [isFinished_of_suspended suspended] at finished
      cases finished
    · exact more
  · intro commands suspended
    exact Nat.le_pred_of_lt (length_le_size_trace commands (isFinished_of_suspended suspended)).2
  · intro commands many
    refine Bool.of_not_eq_false fun unfinished => ?_
    obtain ⟨more, bound⟩ := length_le_size_trace commands unfinished
    omega
  · intro value valued commands stepping debugger count
    obtain ⟨inside, events, others⟩ := Node.exists_events_eq valued
    have total : count = inside.length + 1 := by
      change (formula.events environment).length = _
      rw [events, List.length_append, List.length_singleton]
    refine ⟨fun some_command fewer => ?_, fun all => ?_⟩
    · obtain ⟨-, size, suspended⟩ :=
        stepInto_stands commands events others stepping (by omega)
      exact ⟨suspended some_command, size⟩
    · exact stepInto_finishes valued events others stepping (all.trans total)

/-- The formula `-1 + 2` has eight events, and the eighth step finishes. -/
theorem eighth_step_finishes :
    let debugger := (start negatedSum fun _ => none).performAll
      (List.replicate 8 (.run .stepInto))
    debugger.state = .finished ∧ debugger.session.trace.size = 8 ∧
      debugger.session.stack.frames = [] := by
  intro debugger
  have valued : negatedSum.evaluate (fun _ => none) = .ok (.int 1) := by
    rw [Node.evaluate_eq_transcript,
      Evaluation.transcript_ready _ (wellFormed_of_parse parse_negatedSum)]
    rfl
  have count : (negatedSum.events fun _ => none).length = 8 := by decide +kernel
  have finishes := ((commands_make_progress negatedSum fun _ => none).2.2.2 _ valued
    (List.replicate 8 (.run .stepInto)) fun command member => by
      rw [List.eq_of_mem_replicate member]; rfl).2
  rw [count] at finishes
  exact finishes List.length_replicate

end Debugger

end FormulaStepper
