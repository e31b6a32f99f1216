import FormulaStepper.Proofs.Evaluation.Transcript

/-!
# Failed steps and changing variables

Each step of an evaluation is taken under variables of its own, so a history of
environments leads to a state of the machine (`Evaluation.afterAll`) and to an
answer for each step (`Evaluation.answers`).

A step may have handed a value over to the node around before it fails. The
next step would have begun with the same hand-over, so the failure is not
noticed by any later step, whatever its variables are
(`Evaluation.unnoticed_of_error`). A whole history therefore gives the answers
and the state of its steps that did not fail
(`Evaluation.failed_step_leaves_no_trace`).
-/

set_option autoImplicit false

namespace FormulaStepper

open Formula

namespace Evaluation

/-- The evaluation after one step under each of the environments. -/
def afterAll : Evaluation → List Environment → Evaluation
  | evaluation, [] => evaluation
  | evaluation, environment :: later => (evaluation.step environment).2.afterAll later

/-- What the steps under the environments answer. -/
def answers : Evaluation → List Environment → List (Except EvalError Step)
  | _, [] => []
  | evaluation, environment :: later =>
    (evaluation.step environment).1 :: (evaluation.step environment).2.answers later

/-- The environments under which the steps do not fail. -/
def withoutFailures : Evaluation → List Environment → List Environment
  | _, [] => []
  | evaluation, environment :: later =>
    match evaluation.step environment with
    | (.error _, next) => next.withoutFailures later
    | (.ok _, next) => environment :: next.withoutFailures later

/-- The values that wait for a node to be done, those of the outermost node
first. -/
def waiting : Evaluation → List Value
  | .ready _ => []
  | .active stack => stack.reverse.flatMap Activation.values
  | .left _ value below => below.reverse.flatMap Activation.values ++ [value]
  | .complete value => [value]

/-- The hand-over neither loses nor doubles a value. -/
theorem waiting_handedOver (evaluation : Evaluation) :
    evaluation.handedOver.waiting = evaluation.waiting := by
  cases evaluation with
  | left site value below =>
    cases below with
    | nil => rfl
    | cons parent rest =>
      simp only [handedOver, waiting, Activation.accept, List.reverse_cons, List.flatMap_append,
        List.flatMap_singleton, List.append_assoc]
  | _ => rfl

theorem isComplete_handedOver (evaluation : Evaluation) :
    evaluation.handedOver.isComplete = evaluation.isComplete := by
  cases evaluation with
  | left site value below => cases below <;> rfl
  | _ => rfl

theorem handedOver_handedOver (evaluation : Evaluation) :
    evaluation.handedOver.handedOver = evaluation.handedOver := by
  cases evaluation with
  | left site value below => cases below <;> rfl
  | _ => rfl

/-- The hand-over changes no answer. -/
theorem answers_handedOver (evaluation : Evaluation) (history : List Environment) :
    evaluation.handedOver.answers history = evaluation.answers history := by
  cases history with
  | nil => rfl
  | cons environment later => rw [answers, answers, step_handedOver]

/-- The hand-over changes no state after a further step. -/
theorem afterAll_handedOver (evaluation : Evaluation) {history : List Environment}
    (some_step : history ≠ []) :
    evaluation.handedOver.afterAll history = evaluation.afterAll history := by
  cases history with
  | nil => exact absurd rfl some_step
  | cons environment later => rw [afterAll, afterAll, step_handedOver]

theorem run_handedOver (environment : Environment) (evaluation : Evaluation) :
    evaluation.handedOver.run environment = evaluation.run environment := by
  rw [run, run]
  have same := step_handedOver environment evaluation
  split <;> split <;> simp_all

/-- The hand-over before a history is the hand-over after it, if there is no step
in between. -/
theorem handedOver_afterAll (evaluation : Evaluation) (history : List Environment) :
    (evaluation.handedOver.afterAll history).handedOver =
      (evaluation.afterAll history).handedOver := by
  cases history with
  | nil => exact handedOver_handedOver evaluation
  | cons environment later => rw [afterAll_handedOver evaluation (List.cons_ne_nil _ _)]

/-- A step that fails goes on failing under the same variables. -/
theorem after_of_error {environment : Environment} {before next : Evaluation} {error : EvalError}
    (failed : before.step environment = (.error error, next)) (count : Nat) :
    next.after environment count = next := by
  induction count with
  | zero => rfl
  | succ count ih => rw [after, step_of_error failed, ih]

/-- An evaluation under a step that fails is not complete. -/
theorem isComplete_of_error {environment : Environment} {before next : Evaluation}
    {error : EvalError} (failed : before.step environment = (.error error, next)) :
    before.isComplete = false := by
  cases before with
  | complete value => cases failed
  | _ => rfl

/-- A step that fails with an error leads from one state to the next, and no later
step, run or history notices: the waiting values are kept, and the step can be
repeated any number of times. -/
structure Unnoticed (environment : Environment) (error : EvalError)
    (before next : Evaluation) : Prop where
  step : ∀ later, next.step later = before.step later
  run : ∀ later, next.run later = before.run later
  answers : ∀ history, next.answers history = before.answers history
  afterAll : ∀ history, history ≠ [] → next.afterAll history = before.afterAll history
  repeats : ∀ count, (next.after environment count).step environment = (.error error, next)
  incomplete : before.isComplete = false ∧
    ∀ count, (next.after environment count).isComplete = false
  waiting : next.waiting = before.waiting

/-- **A step that fails is not noticed.** -/
theorem unnoticed_of_error {environment : Environment} {before next : Evaluation}
    {error : EvalError} (failed : before.step environment = (.error error, next)) :
    Unnoticed environment error before next := by
  have done : next = before.handedOver := eq_handedOver_of_error failed
  have incomplete := isComplete_of_error failed
  constructor
  · intro later
    rw [done, step_handedOver]
  · intro later
    rw [done, run_handedOver]
  · intro history
    rw [done, answers_handedOver]
  · intro history some_step
    rw [done, afterAll_handedOver before some_step]
  · intro count
    rw [after_of_error failed count]
    exact step_of_error failed
  · refine ⟨incomplete, fun count => ?_⟩
    rw [after_of_error failed count, done, isComplete_handedOver, incomplete]
  · rw [done, waiting_handedOver]

/-! ## Histories without their failures -/

/-- The steps that do not fail answer as they do in the whole history. -/
theorem answers_withoutFailures (evaluation : Evaluation) (history : List Environment) :
    evaluation.answers (evaluation.withoutFailures history) =
      (evaluation.answers history).filter (·.isOk) := by
  induction history generalizing evaluation with
  | nil => rfl
  | cons environment later ih =>
    rw [withoutFailures, answers]
    generalize stepped : evaluation.step environment = answered
    obtain ⟨shown, next⟩ := answered
    cases shown with
    | error error =>
      -- the state before the failure is not the one after it, but both go on alike
      have waited := answers_handedOver evaluation (next.withoutFailures later)
      rw [← eq_handedOver_of_error stepped] at waited
      exact waited.symm.trans (ih next)
    | ok shown =>
      simp only [answers, stepped, ih next]
      rfl

/-- They lead to the state of the whole history, up to the hand-over that a failed
step may have done. -/
theorem handedOver_withoutFailures (evaluation : Evaluation) (history : List Environment) :
    (evaluation.afterAll (evaluation.withoutFailures history)).handedOver =
      (evaluation.afterAll history).handedOver := by
  induction history generalizing evaluation with
  | nil => rfl
  | cons environment later ih =>
    rw [withoutFailures, afterAll]
    generalize stepped : evaluation.step environment = answered
    obtain ⟨shown, next⟩ := answered
    cases shown with
    | error error =>
      have waited := handedOver_afterAll evaluation (next.withoutFailures later)
      rw [← eq_handedOver_of_error stepped] at waited
      exact waited.symm.trans (ih next)
    | ok shown =>
      simp only [afterAll, stepped]
      exact ih next

/-- **A failed step leaves no trace.** In every state that an evaluation comes to,
under whatever variables, a step that fails is not noticed later, and under the
same variables it fails with the same error forever. The history up to there has
the answers of its steps that did not fail, and the next step cannot tell them
apart. -/
theorem failed_step_leaves_no_trace (formula : Node) (history : List Environment) :
    let state := (ready formula).afterAll history
    let fruitful := (ready formula).withoutFailures history
    (∀ environment error next, state.step environment = (.error error, next) →
      Unnoticed environment error state next) ∧
    (ready formula).answers fruitful = ((ready formula).answers history).filter (·.isOk) ∧
    ((ready formula).afterAll fruitful).waiting = state.waiting ∧
    ∀ environment,
      ((ready formula).afterAll fruitful).step environment = state.step environment := by
  intro state fruitful
  have same : ((ready formula).afterAll fruitful).handedOver = state.handedOver :=
    handedOver_withoutFailures (ready formula) history
  refine ⟨fun environment error next => unnoticed_of_error,
    answers_withoutFailures (ready formula) history, ?_, ?_⟩
  · rw [← waiting_handedOver, same, waiting_handedOver]
  · intro environment
    rw [← step_handedOver, same, step_handedOver]

/-- The formula `1 + x`. -/
def successor : Node :=
  .mk (.binary .add)
    [.mk (.integer 1) [] "1" ⟨0, 1⟩, .mk (.identifier "x") [] "x" ⟨4, 5⟩] "1 + x" ⟨0, 5⟩

/-- The evaluation of `1 + x` waits at `x` until the variable has a value, and then
goes on to the sum. -/
theorem successor_waits_for_its_variable :
    let unset : Environment := fun _ => none
    let two : Environment := fun _ => some (.int 2)
    let state := (ready successor).afterAll [unset, unset, unset, unset]
    let next := (state.step unset).2
    (∀ count, ((next.after unset count).step unset).1 = .error (.undefinedVariable "x")) ∧
      next.answers [two, two, two] = state.answers [two, two, two] ∧
      (next.answers [two, two, two])[2]? = some (.ok (.complete (.int 3))) := by
  intro unset two state next
  have failed : state.step unset = (.error (.undefinedVariable "x"), next) := rfl
  have unnoticed :=
    (failed_step_leaves_no_trace successor [unset, unset, unset, unset]).1 unset _ next failed
  exact ⟨fun count => congrArg Prod.fst (unnoticed.repeats count), unnoticed.answers _, rfl⟩

end Evaluation

end FormulaStepper
