import FormulaStepper.Proofs.Evaluation.Retrying
import FormulaStepper.Proofs.Evaluation.Visits

/-!
# Evaluation is bounded

The steps of an evaluation under a history of environments, one for each step,
are a walk through the tree of the formula (`Visits.Walk`): the record of the
visits is kept from step to step (`Evaluation.visited_shown`), and so is the
bound on the steps to come (`Evaluation.length_shown_le`). No account of the
formula is followed here, since each step may see other variables. Hence no
loop over the steps goes on for ever (`Evaluation.evaluation_is_bounded`).
-/

set_option autoImplicit false

namespace FormulaStepper

open Formula Visits

namespace Evaluation

/-- What the steps under the environments show, without their failures. -/
def shown (evaluation : Evaluation) (history : List Environment) : List Step :=
  (evaluation.answers history).filterMap Except.toOption

section Histories

variable {environment : Environment} {formula : Node} {evaluation next : Evaluation}
  {steps : List Step} {history : List Environment}

theorem shown_of_error {error : EvalError}
    (stepped : evaluation.step environment = (.error error, next)) (later : List Environment) :
    evaluation.shown (environment :: later) = next.shown later := by
  rw [shown, answers, stepped]
  rfl

theorem shown_of_ok {step : Step} (stepped : evaluation.step environment = (.ok step, next))
    (later : List Environment) :
    evaluation.shown (environment :: later) = step :: next.shown later := by
  rw [shown, answers, stepped]
  rfl

theorem afterAll_of_step {answer : Except EvalError Step}
    (stepped : evaluation.step environment = (answer, next)) (later : List Environment) :
    evaluation.afterAll (environment :: later) = next.afterAll later := by
  rw [afterAll, stepped]

/-- **The record of the walk is kept under any variables.** -/
theorem visited_shown (visited : Visited formula steps evaluation) (history : List Environment) :
    Visited formula (steps ++ evaluation.shown history) (evaluation.afterAll history) := by
  induction history generalizing evaluation steps with
  | nil => exact (List.append_nil steps).symm ▸ visited
  | cons environment later ih =>
    generalize stepped : evaluation.step environment = answered
    obtain ⟨answer, next⟩ := answered
    rw [afterAll_of_step stepped]
    cases answer with
    | error error =>
      rw [shown_of_error stepped]
      exact ih (visited.fail stepped)
    | ok step =>
      rw [shown_of_ok stepped, List.append_cons]
      exact ih (visited.step stepped)

/-- Every step of a walk continues what was walked before it. -/
theorem continues_shown (visited : Visited formula steps evaluation) {earlier later : List Step}
    {step : Step} (split : evaluation.shown history = earlier ++ step :: later) :
    step.Continues formula (steps ++ earlier) := by
  induction history generalizing evaluation steps earlier with
  | nil => cases earlier <;> cases split
  | cons environment rest ih =>
    generalize stepped : evaluation.step environment = answered
    obtain ⟨answer, next⟩ := answered
    cases answer with
    | error error =>
      rw [shown_of_error stepped] at split
      exact ih (visited.fail stepped) split
    | ok first =>
      rw [shown_of_ok stepped] at split
      cases earlier with
      | nil =>
        obtain ⟨rfl, -⟩ := List.cons.inj split
        rw [List.append_nil]
        exact visited.continues stepped
      | cons head earlier =>
        obtain ⟨rfl, further⟩ := List.cons.inj split
        rw [List.append_cons]
        exact ih (visited.step stepped) further

theorem eq_complete_of_step (within : evaluation.Within formula) {value : Value}
    (stepped : evaluation.step environment = (.ok (.complete value), next)) :
    next = .complete value := by
  cases within.treads stepped with
  | ends none_active => rfl

/-- Every step that shows a node is one less to come, under any variables. -/
theorem length_shown_le (within : evaluation.Within formula) (history : List Environment) :
    ((evaluation.shown history).filter Step.showsNode).length +
      (evaluation.afterAll history).remaining ≤ evaluation.remaining := by
  induction history generalizing evaluation with
  | nil => exact Nat.le_of_eq (Nat.zero_add _)
  | cons environment later ih =>
    generalize stepped : evaluation.step environment = answered
    obtain ⟨answer, next⟩ := answered
    have rest := ih (within.moves stepped).within
    rw [afterAll_of_step stepped]
    cases answer with
    | error error =>
      have same : next.remaining = evaluation.remaining := by
        rw [eq_handedOver_of_error stepped, remaining_handedOver]
      rw [shown_of_error stepped]
      exact same ▸ rest
    | ok step =>
      rw [shown_of_ok stepped, List.filter_cons]
      split
      · next node =>
        have fewer := remaining_lt_of_step stepped node
        rw [List.length_cons]
        omega
      · next other =>
        cases step with
        | enter site => exact absurd rfl other
        | exit site value => exact absurd rfl other
        | complete value =>
          obtain rfl := eq_complete_of_step within stepped
          exact Nat.le_trans rest (Nat.zero_le _)

/-- The value of a complete evaluation is shown by every further step. -/
theorem answers_complete (value : Value) (history : List Environment) :
    ∀ answer ∈ (Evaluation.complete value).answers history, answer = .ok (.complete value) := by
  induction history with
  | nil => intro answer member; cases member
  | cons environment later ih => exact List.forall_mem_cons.mpr ⟨rfl, ih⟩

/-- After completion nothing but completion is shown. -/
theorem completion_lasts (within : evaluation.Within formula) {value : Value}
    {earlier later : List (Except EvalError Step)}
    (split : evaluation.answers history = earlier ++ .ok (.complete value) :: later) :
    ∀ answer ∈ later, answer = .ok (.complete value) := by
  induction history generalizing evaluation earlier with
  | nil => cases earlier <;> cases split
  | cons environment rest ih =>
    generalize stepped : evaluation.step environment = answered
    obtain ⟨answer, next⟩ := answered
    rw [answers, stepped] at split
    cases earlier with
    | nil =>
      obtain ⟨rfl, rfl⟩ := List.cons.inj split
      obtain rfl := eq_complete_of_step within stepped
      exact answers_complete value rest
    | cons first earlier => exact ih (within.moves stepped).within (List.cons.inj split).2

/-- As long as every step shows a node, as many nodes are shown as steps are taken. -/
theorem length_shown_of_ongoing (evaluation : Evaluation) (history : List Environment)
    (ongoing : ∀ answer ∈ evaluation.answers history, ∃ step, answer = .ok step ∧
      step.showsNode = true) :
    ((evaluation.shown history).filter Step.showsNode).length = history.length := by
  induction history generalizing evaluation with
  | nil => rfl
  | cons environment later ih =>
    generalize stepped : evaluation.step environment = answered
    obtain ⟨answer, next⟩ := answered
    rw [answers, stepped] at ongoing
    obtain ⟨⟨step, rfl, node⟩, rest⟩ := List.forall_mem_cons.mp ongoing
    rw [shown_of_ok stepped, List.filter_cons_of_pos node, List.length_cons, List.length_cons,
      ih next rest]

end Histories

/-- The loop over the steps ends with the first one that fails or completes, and
that is one of the steps to come. -/
theorem exists_last_of_run (environment : Environment) (evaluation : Evaluation) :
    ∃ count, count ≤ evaluation.remaining ∧
      (∀ earlier, earlier < count → ∃ step,
        ((evaluation.after environment earlier).step environment).1 = .ok step ∧
          step.showsNode = true) ∧
      ((evaluation.after environment count).step environment).1 =
        (evaluation.run environment).1.map .complete := by
  induction evaluation using step_induction environment with
  | fails before next error stepped =>
    refine ⟨0, Nat.zero_le _, fun earlier none => absurd none (Nat.not_lt_zero _), ?_⟩
    rw [after, run_eq_outcome, transcript_of_error stepped, stepped]
    rfl
  | completes before next value stepped =>
    refine ⟨0, Nat.zero_le _, fun earlier none => absurd none (Nat.not_lt_zero _), ?_⟩
    rw [after, run_eq_outcome, transcript_of_complete stepped, stepped]
    rfl
  | shows before next shown stepped node ih =>
    obtain ⟨count, bound, ongoing, last⟩ := ih
    have fewer := remaining_lt_of_step stepped node
    refine ⟨count + 1, by omega, fun earlier less => ?_, ?_⟩
    · cases earlier with
      | zero => exact ⟨shown, by rw [after, stepped], node⟩
      | succ earlier =>
        rw [after, stepped]
        exact ongoing earlier (Nat.lt_of_succ_lt_succ less)
    · rw [after, stepped, last, run_eq_outcome, run_eq_outcome, transcript_of_shown stepped node,
        Account.outcome_shows]

end Evaluation

/-- The steps are a walk through the tree of the formula: they enter and leave
nodes of the tree, each of them at most once; a node is left after it was
entered; a node that is not the root is entered as a child of a node that was
entered and not left; and at completion every node that was entered was left. -/
structure Visits.Walk (formula : Node) (steps : List Step) : Prop where
  known : ∀ site ∈ entries steps, formula.at? site.path = some site.node
  entered_once : ((entries steps).map Site.path).Nodup
  left_once : ((exits steps).map Site.path).Nodup
  left_after_entry : ∀ earlier site value later, steps = earlier ++ .exit site value :: later →
    site ∈ entries earlier
  entered_inside : ∀ earlier site later, steps = earlier ++ .enter site :: later →
    site = Site.root formula ∨
      ∃ parent position, parent.child? position = some site ∧ parent ∈ entries earlier ∧
        parent.path ∉ (exits earlier).map Site.path
  complete_after_exits : ∀ earlier value later, steps = earlier ++ .complete value :: later →
    (entries earlier).Perm (exits earlier)

namespace Evaluation

/-- **Evaluation is bounded whatever the variables do.** Under any history of
environments, one for each step, the steps are a walk through the tree, with at
most two of them for each node. After completion every further step shows
completion. So among more than twice as many steps as there are nodes one fails
or completes; and wherever the history has led, the loop over the steps ends
with the first step that fails or completes, within that bound. -/
theorem evaluation_is_bounded (formula : Node) (history : List Environment) :
    let state := (ready formula).afterAll history
    Walk formula ((ready formula).shown history) ∧
    (((ready formula).shown history).filter Step.showsNode).length ≤ 2 * formula.size ∧
    (∀ earlier value later,
      (ready formula).answers history = earlier ++ .ok (.complete value) :: later →
        ∀ answer ∈ later, answer = .ok (.complete value)) ∧
    (2 * formula.size < history.length →
      ∃ answer ∈ (ready formula).answers history,
        ∀ step, answer = .ok step → step.showsNode = false) ∧
    ∀ environment, ∃ count, count ≤ 2 * formula.size ∧
      (∀ earlier, earlier < count → ∃ step,
        ((state.after environment earlier).step environment).1 = .ok step ∧
          step.showsNode = true) ∧
      ((state.after environment count).step environment).1 =
        (state.run environment).1.map .complete := by
  intro state
  have visited : Visited formula ((ready formula).shown history) state :=
    visited_shown (Visited.ready formula) history
  have few := length_shown_le (within_ready formula) history
  have all : (ready formula).remaining = 2 * formula.size := rfl
  have left_paths := ((visited.balance.map Site.path).nodup_iff.mp visited.once)
  rw [List.map_append] at left_paths
  refine ⟨?_, by omega, fun _ _ _ => completion_lasts (within_ready formula), ?_, ?_⟩
  · exact
      { known := visited.known
        entered_once := visited.once
        left_once := (List.nodup_append.mp left_paths).1
        left_after_entry := fun earlier site value later split =>
          (continues_shown (Visited.ready formula) split).1
        entered_inside := fun earlier site later split =>
          (continues_shown (Visited.ready formula) split).imp_left And.right
        complete_after_exits := fun earlier value later split =>
          continues_shown (Visited.ready formula) split }
  · intro long
    by_contra ongoing
    have every : ∀ answer ∈ (ready formula).answers history, ∃ step, answer = .ok step ∧
        step.showsNode = true := by
      intro answer member
      by_contra other
      refine ongoing ⟨answer, member, fun step here => ?_⟩
      exact Bool.eq_false_iff.mpr fun node => other ⟨step, here, node⟩
    have length := length_shown_of_ongoing (ready formula) history every
    omega
  · intro environment
    obtain ⟨count, bound, ongoing, last⟩ := exists_last_of_run environment state
    have within_bound : state.remaining ≤ 2 * formula.size :=
      (Nat.le_add_left _ _).trans (few.trans (Nat.le_of_eq all))
    exact ⟨count, bound.trans within_bound, ongoing, last⟩

/-- The evaluation of `1 + x` ends, though its variable is unset where it is first
asked for. -/
theorem successor_ends_under_changing_variables :
    let unset : Environment := fun _ => none
    let two : Environment := fun _ => some (.int 2)
    let history := [unset, unset, unset, unset, unset, two, unset, unset, two]
    2 * successor.size < history.length ∧
      (∃ answer ∈ (ready successor).answers history,
        ∀ step, answer = .ok step → step.showsNode = false) ∧
      ((ready successor).answers history)[7]? = some (.ok (.complete (.int 3))) := by
  intro unset two history
  have long : 2 * successor.size < history.length := by decide
  exact ⟨long, (evaluation_is_bounded successor history).2.2.2.1 long, rfl⟩

end Evaluation

end FormulaStepper
