import FormulaStepper.Evaluation.Operation

/-!
# Evaluation in steps

A formula is evaluated by a machine that can stop after every step. A step
enters a node, leaves a node with its value, or finds the evaluation complete.
The nodes that were entered and have no value yet are active; the innermost
one is at the front of the list. A node that has just got its value is not
active any more, but its parent takes the value over only when the next step
begins.

A step that fails changes nothing but that hand-over, so it can be repeated
with other variables (`Evaluation.step`). Every other step before completion
makes `Evaluation.remaining` smaller, whatever the variables are, so running
to the end needs no other bound.
-/

set_option autoImplicit false

namespace FormulaStepper

open Formula

/-- The values of variables, by name. -/
abbrev Environment := String → Option Value

/-- What one step of the machine shows. -/
inductive Step where
  /-- The node begins; it is now the innermost active one. -/
  | enter (site : Site)
  /-- The node has its value; it stays innermost until the next step. -/
  | exit (site : Site) (value : Value)
  /-- The root has been left. -/
  | complete (value : Value)
deriving Inhabited

/-- A node under evaluation: the values of the children left so far, and the
position of the first child that was not passed yet. -/
structure Activation where
  site : Site
  values : List Value
  next : Nat
deriving Inhabited

/-- What an active node needs next. -/
inductive Plan where
  | child (position : Nat)
  | done (value : Value)

/-- Whether the left operand of a connective decides its value. -/
def Formula.Connective.decides (op : Connective) (left : Value) : Bool :=
  match op with
  | .and => !left.isTruthy
  | .or => left.isTruthy

namespace Activation

/-- A node that was just entered. -/
def enter (site : Site) : Activation :=
  ⟨site, [], 0⟩

/-- The node after a child handed its value over. -/
def accept (activation : Activation) (value : Value) : Activation :=
  { activation with values := activation.values ++ [value] }

/-- The number of children of the node. -/
def arity (activation : Activation) : Nat :=
  activation.site.node.children.length

/-- A connective evaluates its right operand only if the left one does not
decide, and gives one or zero. -/
def planLogical (op : Connective) (activation : Activation) : Plan :=
  match activation.next, activation.values with
  | 0, _ => .child 0
  | 1, [left] => if op.decides left then .done (.ofBool left.isTruthy) else .child 1
  | _, values => .done (.ofBool (values.getLast?.any Value.isTruthy))

/-- A conditional evaluates its conditions in order up to the first true one,
and then the value that belongs to it. A last child without a value after it
is evaluated if no condition was true. -/
def planChoice (activation : Activation) : Plan :=
  match activation.next with
  | 0 => .child 0
  | last + 1 =>
    let value := activation.values.getLast?.getD .null
    if last % 2 = 0 ∧ last + 1 < activation.arity then
      if value.isTruthy then .child (last + 1)
      else if last + 2 < activation.arity then .child (last + 2)
      else .done .null
    else .done value

/-- The value at a position among those of the children. -/
def operand (activation : Activation) (position : Nat) : Except EvalError Value :=
  match activation.values[position]? with
  | some value => .ok value
  | none => .error (.missingOperand position)

/-- A node with all its children's values gives its own. -/
def planStrict (activation : Activation) (combine : Except EvalError Value) :
    Except EvalError Plan :=
  if activation.next < activation.arity then .ok (.child activation.next)
  else combine.map .done

/-- What a node needs next, under the values of the variables. -/
def plan (environment : Environment) (activation : Activation) : Except EvalError Plan :=
  match activation.site.node.kind with
  | .integer n => .ok (.done (.int n))
  | .decimal x => .ok (.done (.decimal x))
  | .string text => .ok (.done (.string text))
  | .identifier name =>
    match environment name with
    | some value => .ok (.done value)
    | none => .error (.undefinedVariable name)
  | .logical op => .ok (activation.planLogical op)
  | .call .choose => .ok activation.planChoice
  | .list => activation.planStrict (.ok (.list activation.values))
  | .unary op => activation.planStrict do
      let operand ← activation.operand 0
      op.apply operand
  | .binary op => activation.planStrict do
      let left ← activation.operand 0
      let right ← activation.operand 1
      op.apply left right
  | .call function => activation.planStrict (function.apply activation.values)

end Activation

/-- How far the evaluation of a formula has come. -/
inductive Evaluation where
  /-- Nothing was done yet. -/
  | ready (formula : Node)
  /-- These nodes are active, the innermost one first. -/
  | active (stack : List Activation)
  /-- A node has its value, and these nodes around it are active. -/
  | left (site : Site) (value : Value) (below : List Activation)
  /-- The formula has this value. -/
  | complete (value : Value)
deriving Inhabited

namespace Evaluation

/-- Whether the evaluation has come to its end. -/
def isComplete : Evaluation → Bool
  | .complete _ => true
  | _ => false

/-- Goes on with the innermost active node. -/
def advance (environment : Environment) :
    List Activation → Except EvalError Step × Evaluation
  | [] => (.error .stackExhausted, .active [])
  | top :: below =>
    match top.plan environment with
    | .error error => (.error error, .active (top :: below))
    | .ok (.done value) => (.ok (.exit top.site value), .left top.site value below)
    | .ok (.child position) =>
      match top.site.child? position with
      | none => (.error (.missingOperand position), .active (top :: below))
      | some child =>
        (.ok (.enter child),
          .active (Activation.enter child :: { top with next := position + 1 } :: below))

/-- One step of the evaluation. -/
def step (environment : Environment) :
    Evaluation → Except EvalError Step × Evaluation
  | .ready formula =>
    (.ok (.enter (Site.root formula)), .active [Activation.enter (Site.root formula)])
  | .active stack => advance environment stack
  | .left _ value [] => (.ok (.complete value), .complete value)
  | .left _ value (parent :: rest) => advance environment (parent.accept value :: rest)
  | .complete value => (.ok (.complete value), .complete value)

end Evaluation

/-- How many steps an active node may still show: those of the children not
passed yet, and its own exit. -/
def Activation.remaining (activation : Activation) : Nat :=
  2 * Node.sizeOfList (activation.site.node.children.drop activation.next) + 1

/-- How many steps several active nodes may still show. -/
def Activation.remainingOfStack : List Activation → Nat
  | [] => 0
  | activation :: below => activation.remaining + remainingOfStack below

/-- A bound on the steps before completion. -/
def Evaluation.remaining : Evaluation → Nat
  | .ready formula => 2 * formula.size
  | .active stack => Activation.remainingOfStack stack
  | .left _ _ below => Activation.remainingOfStack below
  | .complete _ => 0

/-- Whether a step shows a node, and not completion. -/
def Step.showsNode : Step → Bool
  | .complete _ => false
  | _ => true

/-- The value of the formula, if a step shows completion. -/
def Step.outcome? : Step → Option Value
  | .complete value => some value
  | _ => none

namespace Formula.Node

theorem sizeOfList_drop_of_getElem? {nodes : List Node} {position : Nat} {node : Node}
    (found : nodes[position]? = some node) :
    sizeOfList (nodes.drop position) = node.size + sizeOfList (nodes.drop (position + 1)) := by
  obtain ⟨bound, rfl⟩ := List.getElem?_eq_some_iff.mp found
  rw [List.drop_eq_getElem_cons bound, sizeOfList]

theorem sizeOfList_drop_le (nodes : List Node) {first second : Nat} (order : first ≤ second) :
    sizeOfList (nodes.drop second) ≤ sizeOfList (nodes.drop first) := by
  obtain ⟨distance, rfl⟩ := Nat.exists_eq_add_of_le order
  rw [← List.drop_drop]
  generalize nodes.drop first = left
  induction distance generalizing left with
  | zero => exact Nat.le_refl _
  | succ distance ih =>
    cases left with
    | nil => simp
    | cons node rest =>
      rw [List.drop_succ_cons, sizeOfList]
      exact Nat.le_trans (ih (Nat.le_add_right _ _) rest) (Nat.le_add_left _ _)

end Formula.Node

/-- A node never plans for a child that it has passed. -/
theorem Activation.next_le_of_plan {environment : Environment} {activation : Activation}
    {position : Nat} (planned : activation.plan environment = .ok (.child position)) :
    activation.next ≤ position := by
  have strict : ∀ combine : Except EvalError Value,
      activation.planStrict combine = .ok (.child position) → activation.next ≤ position := by
    intro combine planned
    unfold planStrict at planned
    split at planned
    · cases planned; exact Nat.le_refl _
    · cases combine <;> simp [Except.map] at planned
  unfold plan at planned
  split at planned
  case h_1 | h_2 | h_3 => cases planned
  case h_4 => split at planned <;> cases planned
  case h_5 =>
    simp only [Except.ok.injEq] at planned
    unfold planLogical at planned
    split at planned
    · next none => omega
    · next one _ => split at planned <;> cases planned; omega
    · cases planned
  case h_6 =>
    simp only [Except.ok.injEq] at planned
    unfold planChoice at planned
    split at planned
    · next none => omega
    · next last passed =>
      simp only at planned
      repeat' split at planned
      all_goals cases planned
      all_goals omega
  all_goals exact strict _ planned

/-- Going on with the innermost node leaves fewer steps to come. -/
theorem Evaluation.remaining_lt_of_advance {environment : Environment} {stack : List Activation}
    {shown : Step} {after : Evaluation}
    (advanced : advance environment stack = (.ok shown, after)) :
    after.remaining < (Evaluation.active stack).remaining := by
  cases stack with
  | nil => cases advanced
  | cons top below =>
    simp only [advance] at advanced
    split at advanced
    · cases advanced
    · cases advanced
      simp only [Evaluation.remaining, Activation.remainingOfStack, Activation.remaining]
      omega
    · next position planned =>
      split at advanced
      · cases advanced
      · next child found =>
        cases advanced
        unfold Site.child? at found
        obtain ⟨node, known, rfl⟩ := Option.map_eq_some_iff.mp found
        have passed := Activation.next_le_of_plan planned
        have sizes := Node.sizeOfList_drop_of_getElem? known
        have fewer := Node.sizeOfList_drop_le top.site.node.children passed
        have own := node.size_eq
        simp only [Evaluation.remaining, Activation.remainingOfStack, Activation.remaining,
          Activation.enter, List.drop_zero]
        omega

/-- A step that shows a node leaves fewer steps to come. -/
theorem Evaluation.remaining_lt_of_step {environment : Environment} {before after : Evaluation}
    {shown : Step} (stepped : before.step environment = (.ok shown, after))
    (node : shown.showsNode = true) : after.remaining < before.remaining := by
  cases before with
  | complete value => cases stepped; cases node
  | ready formula =>
    cases stepped
    have own := formula.size_eq
    simp only [Evaluation.remaining, Activation.remainingOfStack,
      Activation.remaining, Activation.enter, Site.root, List.drop_zero]
    omega
  | active stack => exact remaining_lt_of_advance stepped
  | left site value below =>
    cases below with
    | nil => cases stepped; cases node
    | cons parent rest =>
      have advanced : advance environment (parent.accept value :: rest) = (.ok shown, after) :=
        stepped
      have fewer := remaining_lt_of_advance advanced
      exact fewer

/-- Steps until the formula has its value or a step fails. -/
def Evaluation.run (environment : Environment) (evaluation : Evaluation) :
    Except EvalError Value × Evaluation :=
  match stepped : evaluation.step environment with
  | (.error error, after) => (.error error, after)
  | (.ok (.complete value), after) => (.ok value, after)
  | (.ok (.enter _), after) =>
    have := Evaluation.remaining_lt_of_step stepped rfl
    after.run environment
  | (.ok (.exit _ _), after) =>
    have := Evaluation.remaining_lt_of_step stepped rfl
    after.run environment
termination_by evaluation.remaining
decreasing_by all_goals assumption

/-- The value of a formula. -/
def Formula.Node.evaluate (environment : Environment) (formula : Node) : Except EvalError Value :=
  ((Evaluation.ready formula).run environment).1

end FormulaStepper
