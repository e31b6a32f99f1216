import FormulaStepper.Proofs.Evaluation.Transcript

/-!
# The shape of a formula

A machine looks at the kinds of nodes and at their children, and neither at the
texts that nodes were read from nor at where they stood. So a formula has the
value of its bare tree, without texts and spans (`Formula.Node.evaluate_bare`),
and two formulas with the same bare tree have the same value or the same error.
-/

set_option autoImplicit false

namespace FormulaStepper

open Formula

namespace Formula.Node

mutual

/-- The tree without texts and spans. -/
def bare : Node → Node
  | .mk kind children _ _ => .mk kind (bareOfList children) "" ⟨0, 0⟩

/-- The trees without texts and spans. -/
def bareOfList : List Node → List Node
  | [] => []
  | node :: nodes => bare node :: bareOfList nodes

end

theorem bareOfList_eq_map (nodes : List Node) : bareOfList nodes = nodes.map bare := by
  induction nodes with
  | nil => rfl
  | cons node nodes ih => rw [bareOfList, ih, List.map_cons]

@[simp] theorem kind_bare (node : Node) : node.bare.kind = node.kind := by
  cases node; rfl

@[simp] theorem children_bare (node : Node) : node.bare.children = node.children.map bare := by
  obtain ⟨kind, children, text, span⟩ := node
  exact bareOfList_eq_map children

@[simp] theorem bare_widen (span : Text.Span) (node : Node) :
    (node.widen span).bare = node.bare := by
  cases node; rfl

end Formula.Node

/-- The site of the same node in the bare tree. -/
def Formula.Site.bare (site : Site) : Site :=
  ⟨site.path, site.node.bare⟩

/-- The same step in the bare tree. -/
def Step.bare : Step → Step
  | .enter site => .enter site.bare
  | .exit site value => .exit site.bare value
  | .complete value => .complete value

theorem Step.showsNode_bare (step : Step) : step.bare.showsNode = step.showsNode := by
  cases step <;> rfl

namespace Activation

/-- The activation of the same node in the bare tree. -/
def bare (activation : Activation) : Activation :=
  { activation with site := activation.site.bare }

@[simp] theorem arity_bare (activation : Activation) : activation.bare.arity = activation.arity := by
  simp [arity, bare, Site.bare]

theorem planChoice_bare (activation : Activation) :
    activation.bare.planChoice = activation.planChoice := by
  simp only [planChoice, arity_bare]
  rfl

theorem planStrict_bare (activation : Activation) (combine : Except EvalError Value) :
    activation.bare.planStrict combine = activation.planStrict combine := by
  simp only [planStrict, arity_bare]
  rfl

/-- A node of the bare tree needs what the node needs. -/
theorem plan_bare (environment : Environment) (activation : Activation) :
    activation.bare.plan environment = activation.plan environment := by
  have same : activation.bare.site.node.kind = activation.site.node.kind := Node.kind_bare _
  simp only [plan, same, planChoice_bare, planStrict_bare]
  rfl

theorem child?_bare (site : Site) (position : Nat) :
    site.bare.child? position = (site.child? position).map Site.bare := by
  simp only [Site.child?, Site.bare, Node.children_bare, List.getElem?_map, Option.map_map]
  rfl

end Activation

namespace Evaluation

/-- The evaluation of the bare tree that has come as far. -/
def bare : Evaluation → Evaluation
  | .ready formula => .ready formula.bare
  | .active stack => .active (stack.map Activation.bare)
  | .left site value below => .left site.bare value (below.map Activation.bare)
  | .complete value => .complete value

theorem advance_bare (environment : Environment) (stack : List Activation) :
    advance environment (stack.map Activation.bare) =
      ((advance environment stack).1.map Step.bare, (advance environment stack).2.bare) := by
  cases stack with
  | nil => rfl
  | cons top below =>
    rw [List.map_cons, advance, advance, top.plan_bare]
    cases top.plan environment with
    | error error => rfl
    | ok plan =>
      cases plan with
      | done value => rfl
      | child position =>
        have found : top.bare.site.child? position =
            (top.site.child? position).map Site.bare :=
          Activation.child?_bare top.site position
        simp only [found]
        cases top.site.child? position <;> rfl

/-- A step of the bare tree is the step of the tree. -/
theorem step_bare (environment : Environment) (evaluation : Evaluation) :
    evaluation.bare.step environment =
      ((evaluation.step environment).1.map Step.bare, (evaluation.step environment).2.bare) := by
  cases evaluation with
  | ready formula => rfl
  | active stack => exact advance_bare environment stack
  | left site value below =>
    cases below with
    | nil => rfl
    | cons parent rest => exact advance_bare environment (parent.accept value :: rest)
  | complete value => rfl

/-- The evaluation of the bare tree comes to the same. -/
theorem outcome_bare (environment : Environment) (evaluation : Evaluation) :
    (evaluation.bare.transcript environment).outcome =
      (evaluation.transcript environment).outcome := by
  induction evaluation using step_induction environment with
  | fails before next error stepped =>
    have bare_stepped := before.step_bare environment
    rw [stepped] at bare_stepped
    rw [transcript_of_error stepped, transcript_of_error bare_stepped]
  | completes before next value stepped =>
    have bare_stepped := before.step_bare environment
    rw [stepped] at bare_stepped
    rw [transcript_of_complete stepped, transcript_of_complete bare_stepped]
  | shows before next shown stepped node ih =>
    have bare_stepped := before.step_bare environment
    rw [stepped] at bare_stepped
    rw [transcript_of_shown stepped node,
      transcript_of_shown bare_stepped (shown.showsNode_bare ▸ node), Account.outcome_shows,
      Account.outcome_shows, ih]

end Evaluation

/-- **A formula has the value of its bare tree.** -/
theorem Formula.Node.evaluate_bare (environment : Environment) (formula : Node) :
    formula.bare.evaluate environment = formula.evaluate environment := by
  rw [evaluate_eq_transcript, evaluate_eq_transcript]
  exact Evaluation.outcome_bare environment (.ready formula)

end FormulaStepper
