import FormulaStepper.Proofs.Evaluation.Transcript

/-!
# Nodes on their own

The machine goes on with the innermost active node and does not look at the
nodes around it, nor at the place of a node in the formula. So what a node
comes to inside an evaluation is what it comes to as a formula of its own, and
the nodes around it go on with that (`outcome_enter`). This holds of every
tree, also of one that is not well formed.

Hence every state of an evaluation is truthful: a node that was left has the
value that it has on its own, and the active nodes wait for what they come to
on their own (`Truthful`). A step keeps this. The value that it shows is the
node's own, and the error that it fails with is that of the innermost active
node.
-/

set_option autoImplicit false

namespace FormulaStepper

open Formula

namespace Activation

/-- The activation of the same node further inside a formula. -/
def relocate (path : List Nat) (activation : Activation) : Activation :=
  { activation with site := ⟨path ++ activation.site.path, activation.site.node⟩ }

/-- A plan does not depend on the place of the node. -/
theorem plan_relocate (environment : Environment) (path : List Nat) (activation : Activation) :
    (activation.relocate path).plan environment = activation.plan environment := rfl

theorem child?_relocate (path : List Nat) (activation : Activation) (position : Nat) :
    (activation.relocate path).site.child? position =
      (activation.site.child? position).map fun child => ⟨path ++ child.path, child.node⟩ := by
  unfold relocate Site.child?
  cases activation.site.node.children[position]? with
  | none => rfl
  | some child => simp only [Option.map_some, List.append_assoc]

end Activation

namespace Evaluation

variable {environment : Environment}

/-- The value that a node was left with is handed over, whichever node it was. -/
theorem transcript_left_congr (first second : Site) (value : Value) (below : List Activation) :
    (left first value below).transcript environment =
      (left second value below).transcript environment := by
  cases below with
  | nil => rw [transcript_left_nil, transcript_left_nil]
  | cons parent rest => rw [transcript_left_cons, transcript_left_cons]

/-- A child that is planned for but does not exist is a missing operand. -/
theorem transcript_of_missing_child {top : Activation} {below : List Activation} {position : Nat}
    (planned : top.plan environment = .ok (.child position))
    (missing : top.site.child? position = none) :
    (active (top :: below)).transcript environment =
      Account.ofExcept (.error (.missingOperand position)) := by
  apply transcript_of_error
  simp only [step, advance, planned, missing]
  rfl

/-- **Active nodes come to the same further inside a formula**: with other nodes
around them, those go on with the value. -/
theorem outcome_around (path : List Nat) (site : Site) (below : List Activation)
    (top : Activation) (stack : List Activation) :
    ((active ((top :: stack).map (Activation.relocate path) ++ below)).transcript
        environment).outcome =
      ((active (top :: stack)).transcript environment).outcome >>= fun value =>
        ((left site value below).transcript environment).outcome := by
  rw [List.map_cons, List.cons_append]
  have same_plan := Activation.plan_relocate environment path top
  cases planned : top.plan environment with
  | error error =>
    have planned' := same_plan.trans planned
    rw [transcript_of_plan_error planned, transcript_of_plan_error planned']
    rfl
  | ok plan =>
    have planned' := same_plan.trans planned
    cases plan with
    | done value =>
      rw [transcript_of_plan_done planned, transcript_of_plan_done planned',
        Account.outcome_shows, Account.outcome_shows]
      cases stack with
      | nil =>
        rw [transcript_left_nil, List.map_nil, List.nil_append, transcript_left_congr _ site]
        rfl
      | cons parent rest =>
        have fewer : (active (parent.accept value :: rest)).remaining <
            (active (top :: parent :: rest)).remaining := by
          simp only [remaining, Activation.remainingOfStack, Activation.remaining,
            Activation.accept]
          omega
        rw [transcript_left_cons, List.map_cons, List.cons_append, transcript_left_cons]
        exact outcome_around path site below (parent.accept value) rest
    | child position =>
      cases found : top.site.child? position with
      | none =>
        have missing := (Activation.child?_relocate path top position).trans
          (congrArg _ found)
        rw [transcript_of_missing_child planned found,
          transcript_of_missing_child planned' missing]
        rfl
      | some child =>
        have found' := (Activation.child?_relocate path top position).trans
          (congrArg _ found)
        have entered : advance environment (top :: stack) =
            (.ok (.enter child),
              active (Activation.enter child :: { top with next := position + 1 } :: stack)) := by
          simp only [advance, planned, found]
        have fewer := remaining_lt_of_advance entered
        rw [transcript_of_plan_child planned found, transcript_of_plan_child planned' found',
          Account.outcome_shows, Account.outcome_shows]
        exact outcome_around path site below (Activation.enter child)
          ({ top with next := position + 1 } :: stack)
termination_by (active (top :: stack)).remaining

/-- The value of a formula is what its root comes to. -/
theorem evaluate_eq_outcome {formula : Node} :
    formula.evaluate environment =
      ((active [Activation.enter (Site.root formula)]).transcript environment).outcome := by
  have entered : (ready formula).step environment =
      (.ok (.enter (Site.root formula)), active [Activation.enter (Site.root formula)]) := rfl
  rw [Node.evaluate_eq_transcript, transcript_of_shown entered rfl, Account.outcome_shows]

/-- **A node that is entered comes to what it comes to as a formula**, and the
nodes around it go on with that. -/
theorem outcome_enter (child : Site) (site : Site) (below : List Activation) :
    ((active (Activation.enter child :: below)).transcript environment).outcome =
      child.node.evaluate environment >>= fun value =>
        ((left site value below).transcript environment).outcome := by
  have moved : Activation.enter child =
      (Activation.enter (Site.root child.node)).relocate child.path := by
    simp only [Activation.relocate, Activation.enter, Site.root, List.append_nil]
  rw [moved, evaluate_eq_outcome]
  exact outcome_around child.path site below (Activation.enter (Site.root child.node)) []

end Evaluation

/-- What an active node comes to on its own. -/
def Activation.outcome (environment : Environment) (activation : Activation) :
    Except EvalError Value :=
  ((Evaluation.active [activation]).transcript environment).outcome

namespace Evaluation

/-- The nodes around a node come to what they come to with that node's own
value, and each of them is waited for in turn. -/
def Awaited (environment : Environment) (inside : Site) : List Activation → Prop
  | [] => True
  | parent :: rest =>
    parent.site.node.evaluate environment =
        (inside.node.evaluate environment >>= fun value =>
          (parent.accept value).outcome environment) ∧
      Awaited environment parent.site rest

/-- A node that was left has its own value, and the innermost active node comes
to its own. -/
def Truthful (environment : Environment) : Evaluation → Prop
  | .ready _ | .complete _ | .active [] => True
  | .active (top :: below) =>
    top.outcome environment = top.site.node.evaluate environment ∧
      Awaited environment top.site below
  | .left site value below =>
    site.node.evaluate environment = .ok value ∧ Awaited environment site below

section Truth

variable {environment : Environment} {before next : Evaluation}
  {answer : Except EvalError Step}

/-- What a truthful evaluation can show by a step: an exit has the node's own
value, and a failure is that of the innermost active node. -/
inductive ShowsTruth (environment : Environment) : Except EvalError Step → Evaluation → Prop where
  | enters {site : Site} {next : Evaluation} (truthful : next.Truthful environment) :
      ShowsTruth environment (.ok (.enter site)) next
  | leaves {site : Site} {value : Value} {next : Evaluation}
      (own : site.node.evaluate environment = .ok value) (truthful : next.Truthful environment) :
      ShowsTruth environment (.ok (.exit site value)) next
  | completes {value : Value} {next : Evaluation} (truthful : next.Truthful environment) :
      ShowsTruth environment (.ok (.complete value)) next
  | fails {error : EvalError} {top : Activation} {below : List Activation}
      (own : top.site.node.evaluate environment = .error error)
      (truthful : (active (top :: below)).Truthful environment) :
      ShowsTruth environment (.error error) (active (top :: below))

/-- An active node that was just entered comes to its own. -/
theorem outcome_activation_enter (site : Site) :
    (Activation.enter site).outcome environment = site.node.evaluate environment := by
  rw [Activation.outcome, outcome_enter site site]
  simp only [transcript_left_nil]
  exact bind_pure _

theorem showsTruth_of_advance {top : Activation} {below : List Activation}
    (own : top.outcome environment = top.site.node.evaluate environment)
    (awaited : Awaited environment top.site below)
    (advanced : advance environment (top :: below) = (answer, next)) :
    ShowsTruth environment answer next := by
  unfold Activation.outcome at own
  cases planned : top.plan environment with
  | error error =>
    simp only [advance, planned] at advanced
    cases advanced
    refine .fails ?_ ⟨own, awaited⟩
    rw [← own, transcript_of_plan_error planned]
    rfl
  | ok plan =>
    cases plan with
    | done value =>
      simp only [advance, planned] at advanced
      cases advanced
      have valued : top.site.node.evaluate environment = .ok value := by
        rw [← own, transcript_of_plan_done planned, Account.outcome_shows, transcript_left_nil]
        rfl
      exact .leaves valued ⟨valued, awaited⟩
    | child position =>
      cases found : top.site.child? position with
      | none =>
        simp only [advance, planned, found] at advanced
        cases advanced
        refine .fails ?_ ⟨own, awaited⟩
        rw [← own, transcript_of_missing_child planned found]
        rfl
      | some child =>
        simp only [advance, planned, found] at advanced
        cases advanced
        refine .enters ⟨outcome_activation_enter child, ?_, awaited⟩
        rw [← own, transcript_of_plan_child planned found, Account.outcome_shows,
          outcome_enter child child]
        simp only [transcript_left_cons]
        rfl

/-- **A truthful evaluation shows the truth**, and stays truthful. -/
theorem Truthful.step (truthful : before.Truthful environment) (some_active : before ≠ active [])
    (stepped : before.step environment = (answer, next)) :
    ShowsTruth environment answer next := by
  cases before with
  | ready formula =>
    cases stepped
    exact .enters ⟨outcome_activation_enter _, trivial⟩
  | complete value =>
    cases stepped
    exact .completes trivial
  | active stack =>
    cases stack with
    | nil => exact absurd rfl some_active
    | cons top below => exact showsTruth_of_advance truthful.1 truthful.2 stepped
  | left site value below =>
    obtain ⟨valued, awaited⟩ := truthful
    cases below with
    | nil =>
      cases stepped
      exact .completes trivial
    | cons parent rest =>
      obtain ⟨comes_to, around⟩ := awaited
      rw [valued] at comes_to
      exact showsTruth_of_advance comes_to.symm around stepped

theorem ShowsTruth.truthful (shows_truth : ShowsTruth environment answer next) :
    next.Truthful environment := by
  cases shows_truth with
  | enters truthful => exact truthful
  | leaves own truthful => exact truthful
  | completes truthful => exact truthful
  | fails own truthful => exact truthful

end Truth

end Evaluation

end FormulaStepper
