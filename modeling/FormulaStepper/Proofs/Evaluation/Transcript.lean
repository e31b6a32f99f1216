import FormulaStepper.Proofs.Evaluation.Account

/-!
# What a machine shows

The transcript of an evaluation is the account that its steps give when they
are taken until completion or the first failure, under unchanging variables.
One step takes the first entry off the transcript and leaves the rest to the
state after it (`transcript_of_shown`), so the transcript of a state determines
every answer of the machine, those after completion or failure included
(`answer_after`), and the value that running it gives (`run_eq_outcome`).

The lemmas on an active node say how its transcript goes on: with the child
that it plans for, with its own exit, or with the failure of its operation.
-/

set_option autoImplicit false

namespace FormulaStepper

open Formula

namespace Evaluation

/-- The steps of an evaluation up to completion or the first failure. -/
def transcript (environment : Environment) (evaluation : Evaluation) : Account Value :=
  match stepped : evaluation.step environment with
  | (.error error, _) => Account.ofExcept (.error error)
  | (.ok (.complete value), _) => pure value
  | (.ok (.enter site), after) =>
    have := remaining_lt_of_step stepped rfl
    Account.shows (.enter site) >>= fun _ => after.transcript environment
  | (.ok (.exit site value), after) =>
    have := remaining_lt_of_step stepped rfl
    Account.shows (.exit site value) >>= fun _ => after.transcript environment
termination_by evaluation.remaining
decreasing_by all_goals assumption

/-- The evaluation after a number of steps. -/
def after (environment : Environment) (evaluation : Evaluation) : Nat → Evaluation
  | 0 => evaluation
  | count + 1 => (evaluation.step environment).2.after environment count

theorem after_succ (environment : Environment) (evaluation : Evaluation) (count : Nat) :
    evaluation.after environment (count + 1) =
      ((evaluation.after environment count).step environment).2 := by
  induction count generalizing evaluation with
  | zero => rfl
  | succ count ih => exact ih (evaluation.step environment).2

/-- The evaluation with the value of the node left last handed over to the node
around it. Every step begins with this. -/
def handedOver : Evaluation → Evaluation
  | .left _ value (parent :: rest) => .active (parent.accept value :: rest)
  | evaluation => evaluation

/-- The hand-over can be done before the step or by the step. -/
theorem step_handedOver (environment : Environment) (evaluation : Evaluation) :
    evaluation.handedOver.step environment = evaluation.step environment := by
  cases evaluation with
  | left site value below => cases below <;> rfl
  | _ => rfl

section Steps

variable {environment : Environment} {before next : Evaluation}

theorem transcript_of_error {error : EvalError}
    (stepped : before.step environment = (.error error, next)) :
    before.transcript environment = Account.ofExcept (.error error) := by
  rw [transcript]
  split <;> simp_all

theorem transcript_of_complete {value : Value}
    (stepped : before.step environment = (.ok (.complete value), next)) :
    before.transcript environment = pure value := by
  rw [transcript]
  split <;> simp_all

/-- A step that shows a node is the first one of the transcript. -/
theorem transcript_of_shown {shown : Step}
    (stepped : before.step environment = (.ok shown, next)) (node : shown.showsNode = true) :
    before.transcript environment =
      Account.shows shown >>= fun _ => next.transcript environment := by
  cases shown with
  | complete value => cases node
  | enter site =>
    rw [transcript]
    split <;> simp_all
  | exit site value =>
    rw [transcript]
    split <;> simp_all

/-- The transcript depends on what the next step does, and on nothing else. -/
theorem transcript_congr {first second : Evaluation}
    (same : first.step environment = second.step environment) :
    first.transcript environment = second.transcript environment := by
  rw [transcript, transcript]
  split <;> split <;> simp_all

/-- Completion is kept. -/
theorem step_of_complete {value : Value}
    (stepped : before.step environment = (.ok (.complete value), next)) :
    next.step environment = (.ok (.complete value), next) := by
  have never : ∀ stack, advance environment stack ≠ (.ok (.complete value), next) := by
    intro stack advanced
    cases stack with
    | nil => cases advanced
    | cons top below =>
      simp only [advance] at advanced
      split at advanced
      · cases advanced
      · cases advanced
      · split at advanced <;> cases advanced
  cases before with
  | ready formula => cases stepped
  | complete value => cases stepped; rfl
  | active stack => exact absurd stepped (never stack)
  | left site value below =>
    cases below with
    | nil => cases stepped; rfl
    | cons parent rest => exact absurd stepped (never (parent.accept _ :: rest))

/-- A step that fails does the hand-over, and nothing else. -/
theorem eq_handedOver_of_error {error : EvalError}
    (stepped : before.step environment = (.error error, next)) : next = before.handedOver := by
  have kept : ∀ stack, advance environment stack = (.error error, next) →
      next = .active stack := by
    intro stack failed
    cases stack with
    | nil => cases failed; rfl
    | cons top below =>
      simp only [advance] at failed
      split at failed
      · cases failed; rfl
      · cases failed
      · split at failed <;> cases failed
        rfl
  cases before with
  | ready formula => cases stepped
  | complete value => cases stepped
  | active stack => exact kept stack stepped
  | left site value below =>
    cases below with
    | nil => cases stepped
    | cons parent rest => exact kept (parent.accept value :: rest) stepped

/-- A failed step can be repeated: it fails again, and changes nothing more. -/
theorem step_of_error {error : EvalError}
    (stepped : before.step environment = (.error error, next)) :
    next.step environment = (.error error, next) := by
  have again := before.step_handedOver environment
  rw [← eq_handedOver_of_error stepped] at again
  exact again.trans stepped

end Steps

/-- Induction over the steps that an evaluation takes until it is complete or
fails. -/
theorem step_induction (environment : Environment) {motive : Evaluation → Prop}
    (fails : ∀ (before next : Evaluation) (error : EvalError),
      before.step environment = (.error error, next) → motive before)
    (completes : ∀ (before next : Evaluation) (value : Value),
      before.step environment = (.ok (.complete value), next) → motive before)
    (shows : ∀ (before next : Evaluation) (shown : Step),
      before.step environment = (.ok shown, next) → shown.showsNode = true → motive next →
        motive before)
    (evaluation : Evaluation) : motive evaluation := by
  induction evaluation using run.induct environment with
  | case1 evaluation error next stepped => exact fails evaluation next error stepped
  | case2 evaluation value next stepped => exact completes evaluation next value stepped
  | case3 evaluation site next stepped fewer ih => exact shows evaluation next _ stepped rfl ih
  | case4 evaluation site value next stepped fewer ih => exact shows evaluation next _ stepped rfl ih

/-- **The transcript of a state determines all its answers.** After its last
entry the machine repeats the value of the formula, or the failure. -/
theorem answer_after (environment : Environment) (evaluation : Evaluation) (count : Nat) :
    ((evaluation.after environment count).step environment).1 =
      (evaluation.transcript environment).answer count := by
  induction count generalizing evaluation with
  | zero =>
    generalize stepped : evaluation.step environment = answered
    obtain ⟨shown, next⟩ := answered
    rw [after, stepped]
    cases shown with
    | error error => rw [transcript_of_error stepped]; rfl
    | ok shown =>
      cases shown with
      | complete value => rw [transcript_of_complete stepped]; rfl
      | enter site =>
        rw [transcript_of_shown stepped rfl, Account.answer_shows_zero]
      | exit site value =>
        rw [transcript_of_shown stepped rfl, Account.answer_shows_zero]
  | succ count ih =>
    generalize stepped : evaluation.step environment = answered
    obtain ⟨shown, next⟩ := answered
    rw [after, stepped, ih next]
    cases shown with
    | error error =>
      rw [transcript_of_error stepped, transcript_of_error (step_of_error stepped)]
      rfl
    | ok shown =>
      cases shown with
      | complete value =>
        rw [transcript_of_complete stepped, transcript_of_complete (step_of_complete stepped)]
        rfl
      | enter site => rw [transcript_of_shown stepped rfl, Account.answer_shows_succ]
      | exit site value => rw [transcript_of_shown stepped rfl, Account.answer_shows_succ]

/-- Running an evaluation gives the outcome of its transcript. -/
theorem run_eq_outcome (environment : Environment) (evaluation : Evaluation) :
    (evaluation.run environment).1 = (evaluation.transcript environment).outcome := by
  induction evaluation using run.induct environment with
  | case1 evaluation error next stepped =>
    rw [transcript_of_error stepped, run]
    split <;> simp_all [Account.ofExcept]
  | case2 evaluation value next stepped =>
    rw [transcript_of_complete stepped, run]
    split <;> simp_all
    rfl
  | case3 evaluation site next stepped fewer ih =>
    rw [transcript_of_shown stepped rfl, Account.outcome_shows, ← ih, run]
    split <;> simp_all
  | case4 evaluation site value next stepped fewer ih =>
    rw [transcript_of_shown stepped rfl, Account.outcome_shows, ← ih, run]
    split <;> simp_all

/-! ## How the transcript of an active node goes on -/

section Active

variable {environment : Environment} {top : Activation} {below : List Activation}

theorem transcript_of_plan_error {error : EvalError}
    (planned : top.plan environment = .error error) :
    (active (top :: below)).transcript environment = Account.ofExcept (.error error) := by
  apply transcript_of_error
  simp only [step, advance, planned]
  rfl

/-- A node that is done is left. -/
theorem transcript_of_plan_done {value : Value}
    (planned : top.plan environment = .ok (.done value)) :
    (active (top :: below)).transcript environment =
      Account.shows (.exit top.site value) >>= fun _ =>
        (left top.site value below).transcript environment :=
  transcript_of_shown (by simp only [step, advance, planned]) rfl

/-- A child that is planned for is entered. -/
theorem transcript_of_plan_child {position : Nat} {child : Site}
    (planned : top.plan environment = .ok (.child position))
    (found : top.site.child? position = some child) :
    (active (top :: below)).transcript environment =
      Account.shows (.enter child) >>= fun _ =>
        (active (Activation.enter child :: { top with next := position + 1 } :: below)).transcript
          environment :=
  transcript_of_shown (by simp only [step, advance, planned, found]) rfl

/-- The value of a node that was left is handed over to the node around it. -/
theorem transcript_left_cons (site : Site) (value : Value) (parent : Activation)
    (rest : List Activation) :
    (left site value (parent :: rest)).transcript environment =
      (active (parent.accept value :: rest)).transcript environment :=
  transcript_congr rfl

/-- Where the root was left, the formula has its value. -/
theorem transcript_left_nil (site : Site) (value : Value) :
    (left site value []).transcript environment = pure value :=
  transcript_of_complete rfl

end Active

end Evaluation

/-- A formula has the outcome of its transcript. -/
theorem Formula.Node.evaluate_eq_transcript (environment : Environment) (formula : Node) :
    formula.evaluate environment = ((Evaluation.ready formula).transcript environment).outcome :=
  Evaluation.run_eq_outcome environment (.ready formula)

end FormulaStepper
