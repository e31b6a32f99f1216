import Mathlib.Data.List.Basic
import FormulaStepper.Evaluation.Machine

/-!
# Evaluation by recursion

What a formula means, without a machine: its value or the first error, and the
entries and exits on the way. An account holds both. Accounts follow one
another until one of them fails, so they form a monad, and the account of a
node is written by recursion on the tree (`Node.account`).

A node whose operands are all needed has the accounts of its children, from
left to right, and then its operation. A connective leaves the right operand
out when the left one decides, and a conditional goes through its conditions
up to the first true one. A tree in which some node has a number of children
that its kind does not admit has no meaning; `Node.WellFormed` excludes it.
-/

set_option autoImplicit false

namespace FormulaStepper

open Formula

/-- The steps that are shown, and how it ends. -/
structure Account (α : Type) where
  steps : List Step
  outcome : Except EvalError α

namespace Account

variable {α β : Type}

/-- One account and then another, unless the first one fails. -/
def andThen (first : Account α) (next : α → Account β) : Account β :=
  match first.outcome with
  | .ok value => ⟨first.steps ++ (next value).steps, (next value).outcome⟩
  | .error error => ⟨first.steps, .error error⟩

instance : Monad Account where
  pure value := ⟨[], .ok value⟩
  bind := andThen

/-- A step is shown. -/
def shows (step : Step) : Account Unit :=
  ⟨[step], .ok ()⟩

/-- Nothing is shown. -/
def ofExcept (outcome : Except EvalError α) : Account α :=
  ⟨[], outcome⟩

/-- A node is entered, and left with the value that the account inside gives. -/
def visit (site : Site) (inside : Account Value) : Account Value := do
  shows (.enter site)
  let value ← inside
  shows (.exit site value)
  pure value

/-- What is seen when the account is read step by step: its steps, and from
then on its outcome. -/
def answer (account : Account Value) (count : Nat) : Except EvalError Step :=
  match account.steps[count]? with
  | some step => .ok step
  | none => account.outcome.map .complete

theorem andThen_pure (account : Account α) : account.andThen pure = account := by
  obtain ⟨steps, outcome⟩ := account
  cases outcome with
  | ok value => exact congrArg (Account.mk · _) (List.append_nil steps)
  | error error => rfl

theorem andThen_assoc {γ : Type} (account : Account α) (next : α → Account β)
    (last : β → Account γ) :
    (account.andThen next).andThen last =
      account.andThen fun value => (next value).andThen last := by
  obtain ⟨steps, outcome⟩ := account
  cases outcome with
  | error error => rfl
  | ok value =>
    simp only [andThen]
    generalize next value = second
    obtain ⟨more, outcome⟩ := second
    cases outcome with
    | error error => rfl
    | ok value => simp only [List.append_assoc]

instance : LawfulMonad Account :=
  LawfulMonad.mk' Account andThen_pure (fun _ _ => rfl) andThen_assoc

/-- Two accounts give a value together if both do. -/
theorem exists_of_bind_eq_ok {first : Account α} {next : α → Account β} {result : β}
    (succeeded : (first >>= next).outcome = .ok result) :
    ∃ value, first.outcome = .ok value ∧ (next value).outcome = .ok result := by
  obtain ⟨steps, outcome⟩ := first
  cases outcome with
  | error error => cases succeeded
  | ok value => exact ⟨value, rfl, succeeded⟩

theorem answer_shows_zero (step : Step) (next : Unit → Account Value) :
    (shows step >>= next).answer 0 = .ok step := rfl

theorem answer_shows_succ (step : Step) (next : Unit → Account Value) (count : Nat) :
    (shows step >>= next).answer (count + 1) = (next ()).answer count := rfl

/-- An account that fails at some point ends with that failure. -/
theorem outcome_of_answer {account : Account Value} {count : Nat} {error : EvalError}
    (failed : account.answer count = .error error) : account.outcome = .error error := by
  obtain ⟨steps, outcome⟩ := account
  unfold answer at failed
  split at failed
  · cases failed
  · cases outcome with
    | error error => cases failed; rfl
    | ok value => cases failed

theorem outcome_shows (step : Step) (next : Unit → Account α) :
    (shows step >>= next).outcome = (next ()).outcome := rfl

end Account

/-- What a node does with the values of all its children. -/
def Formula.NodeKind.combine (kind : NodeKind) (values : List Value) : Except EvalError Value :=
  match kind, values with
  | .list, items => .ok (.list items)
  | .unary op, [operand] => op.apply operand
  | .binary op, [left, right] => op.apply left right
  | .call function, arguments => function.apply arguments
  | _, _ => .error (.missingOperand values.length)

namespace Formula.Node

variable (environment : Environment)

mutual

/-- The account of the node at a path. -/
def account (path : List Nat) : Node → Account Value
  | .mk kind children text span =>
    Account.visit ⟨path, .mk kind children text span⟩
      (match kind with
      | .integer n => pure (.int n)
      | .decimal x => pure (.decimal x)
      | .string text => pure (.string text)
      | .identifier name =>
        match environment name with
        | some value => pure value
        | none => Account.ofExcept (.error (.undefinedVariable name))
      | .logical op => connective op path children
      | .call .choose => choice path 0 children
      | kind => do
        let values ← operands path 0 children
        Account.ofExcept (kind.combine values))

/-- The children from a position on, from left to right. -/
def operands (path : List Nat) (position : Nat) : List Node → Account (List Value)
  | [] => pure []
  | child :: rest => do
    let value ← account (path ++ [position]) child
    let values ← operands path (position + 1) rest
    pure (value :: values)

/-- The left operand, and the right one if the left one does not decide. The
value is one or zero. -/
def connective (op : Connective) (path : List Nat) : List Node → Account Value
  | [left, right] => do
    let first ← account (path ++ [0]) left
    if op.decides first then pure (.ofBool first.isTruthy)
    else do
      let second ← account (path ++ [1]) right
      pure (.ofBool second.isTruthy)
  | children => Account.ofExcept (.error (.missingOperand children.length))

/-- The conditions from a position on, up to the first true one, and the value
after it. A last child without a value after it stands for the case that no
condition is true; without it the value is null. -/
def choice (path : List Nat) (position : Nat) : List Node → Account Value
  | [] => pure .null
  | [otherwise] => account (path ++ [position]) otherwise
  | condition :: chosen :: rest => do
    let decision ← account (path ++ [position]) condition
    if decision.isTruthy then account (path ++ [position + 1]) chosen
    else choice path (position + 2) rest

end

end Formula.Node

/-- Whether a node of this kind needs all its children before it has a value. -/
def Formula.NodeKind.isStrict : NodeKind → Bool
  | .list | .unary _ | .binary _ => true
  | .call function => function ≠ .choose
  | _ => false

theorem Formula.Node.account_of_isStrict (environment : Environment) {path : List Nat}
    {kind : NodeKind} {children : List Node} {text : String} {span : Text.Span}
    (strict : kind.isStrict = true) :
    (Node.mk kind children text span).account environment path =
      Account.visit ⟨path, .mk kind children text span⟩
        (operands environment path 0 children >>= fun values =>
          Account.ofExcept (kind.combine values)) := by
  cases kind with
  | integer n => cases strict
  | decimal x => cases strict
  | string text => cases strict
  | identifier name => cases strict
  | logical op => cases strict
  | list => rfl
  | unary op => rfl
  | binary op => rfl
  | call function =>
    cases function with
    | choose => cases strict
    | abs | min | max | size | sum | null => rfl

/-- Whether a node of this kind can have this number of children. -/
def Formula.NodeKind.admits (kind : NodeKind) (count : Nat) : Bool :=
  match kind with
  | .integer _ | .decimal _ | .string _ | .identifier _ => count = 0
  | .list => true
  | .unary _ => count = 1
  | .binary _ | .logical _ => count = 2
  | .call function => function.arity.admits count

/-- A tree in which every node has a number of children that its kind admits. -/
inductive Formula.Node.WellFormed : Node → Prop where
  | mk {kind : NodeKind} {children : List Node} {text : String} {span : Text.Span}
      (admitted : kind.admits children.length = true)
      (below : ∀ child ∈ children, WellFormed child) :
      WellFormed (.mk kind children text span)

end FormulaStepper
