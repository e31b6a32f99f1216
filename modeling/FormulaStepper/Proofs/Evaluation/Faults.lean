import FormulaStepper.Proofs.Evaluation.Account

/-!
# Evaluation has no faults of its own

Two errors would be faults of the evaluator and not of the formula: no active
node is left to go on with, or an operand is asked for that was never supplied.
No operation on values fails like that, and since a well-formed node always
hands all its operands to its operation, neither does the account of a
well-formed formula (`faultless_account`).
-/

set_option autoImplicit false

namespace FormulaStepper

open Formula

/-- Whether an error is a fault of the evaluator. -/
def EvalError.isFault : EvalError → Bool
  | .stackExhausted | .missingOperand _ => true
  | _ => false

/-- If the outcome is an error, it is not a fault of the evaluator. -/
def Faultless {α : Type} (outcome : Except EvalError α) : Prop :=
  ∀ error, outcome = .error error → error.isFault = false

section Outcomes

variable {α β : Type}

theorem faultless_ok (value : α) : Faultless (.ok value) := by
  intro error failed
  cases failed

theorem faultless_error {error : EvalError} (foreseen : error.isFault = false) :
    Faultless (.error error : Except EvalError α) := by
  intro error failed
  cases failed
  exact foreseen

theorem Faultless.bind {outcome : Except EvalError α} {next : α → Except EvalError β}
    (first : Faultless outcome) (second : ∀ value, Faultless (next value)) :
    Faultless (outcome >>= next) := by
  cases outcome with
  | error error => exact faultless_error (first error rfl)
  | ok value => exact second value

theorem Account.faultless_bind {account : Account α} {next : α → Account β}
    (first : Faultless account.outcome)
    (second : ∀ value, account.outcome = .ok value → Faultless (next value).outcome) :
    Faultless (account >>= next).outcome := by
  obtain ⟨steps, outcome⟩ := account
  cases outcome with
  | error error => exact faultless_error (first error rfl)
  | ok value => exact second value rfl

end Outcomes

/-! ## Operations on values -/

namespace Value

theorem faultless_exact (operation : String) (n : Int) : Faultless (exact operation n) := by
  unfold exact
  split
  · exact faultless_ok _
  · exact faultless_error rfl

theorem faultless_floating (operation : String) (compute : Float → Float → Float)
    (left right : Value) : Faultless (floating operation compute left right) := by
  unfold floating
  split
  · exact faultless_ok _
  · exact faultless_error rfl

theorem faultless_add (left right : Value) : Faultless (left.add right) := by
  unfold add
  split
  · exact faultless_exact _ _
  · exact faultless_ok _
  · exact faultless_ok _
  · exact faultless_ok _
  · exact faultless_floating _ _ _ _

theorem faultless_sub (left right : Value) : Faultless (left.sub right) := by
  unfold sub
  split
  · exact faultless_exact _ _
  · exact faultless_floating _ _ _ _

theorem faultless_mul (left right : Value) : Faultless (left.mul right) := by
  unfold mul
  split
  · exact faultless_exact _ _
  · exact faultless_floating _ _ _ _

theorem faultless_div (left right : Value) : Faultless (left.div right) := by
  unfold div
  split
  · exact faultless_error rfl
  · split
    · exact faultless_exact _ _
    · exact faultless_floating _ _ _ _

theorem faultless_rem (left right : Value) : Faultless (left.rem right) := by
  unfold rem
  split
  · split
    · exact faultless_error rfl
    · split
      · exact faultless_exact _ _
      · exact faultless_error rfl
  · exact faultless_error rfl

theorem faultless_intPower (base : Int) (exponent : Nat) : Faultless (intPower base exponent) := by
  unfold intPower
  split
  · exact faultless_error rfl
  · split
    · exact faultless_exact _ _
    · split
      · exact faultless_exact _ _
      · exact faultless_error rfl

theorem faultless_pow (left right : Value) : Faultless (left.pow right) := by
  unfold pow
  split
  · split
    · exact faultless_intPower _ _
    · exact faultless_floating _ _ _ _
  · exact faultless_floating _ _ _ _

theorem faultless_neg (value : Value) : Faultless value.neg := by
  unfold neg
  split
  · exact faultless_exact _ _
  · exact faultless_ok _
  · exact faultless_error rfl

theorem faultless_abs (value : Value) : Faultless value.abs := by
  unfold abs
  split
  · exact faultless_exact _ _
  · exact faultless_ok _
  · exact faultless_error rfl

theorem faultless_length (value : Value) : Faultless value.length := by
  unfold length
  split
  · exact faultless_ok _
  · exact faultless_ok _
  · exact faultless_error rfl

theorem faultless_sumFrom (total : Value) (items : List Value) :
    Faultless (sumFrom total items) := by
  induction items generalizing total with
  | nil => exact faultless_ok total
  | cons item items ih => exact (faultless_add total item).bind ih

theorem faultless_sum (value : Value) : Faultless value.sum := by
  unfold sum
  split
  · exact faultless_sumFrom _ _
  · exact faultless_error rfl

theorem faultless_compare (operation : String) (left right : Value) :
    Faultless (compare operation left right) := by
  unfold compare
  split
  · exact faultless_ok _
  · split
    · split
      · exact faultless_ok _
      · exact faultless_error rfl
    · exact faultless_error rfl

theorem faultless_bestOf (operation : String) (better : Ordering) (best : Value)
    (candidates : List Value) : Faultless (bestOf operation better best candidates) := by
  induction candidates generalizing best with
  | nil => exact faultless_ok best
  | cons candidate rest ih =>
    exact (faultless_compare operation candidate best).bind fun order => ih _

theorem faultless_extreme (operation : String) (better : Ordering) (arguments : List Value) :
    Faultless (extreme operation better arguments) := by
  unfold extreme
  split
  · exact faultless_ok _
  · exact faultless_bestOf _ _ _ _

end Value

theorem Formula.UnaryOp.faultless_apply (op : UnaryOp) (operand : Value) :
    Faultless (op.apply operand) := by
  cases op with
  | neg => exact Value.faultless_neg operand
  | not => exact faultless_ok _

theorem Formula.BinaryOp.faultless_comparing (op : BinaryOp) (accepts : Ordering → Bool)
    (left right : Value) : Faultless (op.comparing accepts left right) :=
  (Value.faultless_compare _ left right).bind fun _ => faultless_ok _

theorem Formula.BinaryOp.faultless_apply (op : BinaryOp) (left right : Value) :
    Faultless (op.apply left right) := by
  cases op with
  | add => exact Value.faultless_add left right
  | sub => exact Value.faultless_sub left right
  | mul => exact Value.faultless_mul left right
  | div => exact Value.faultless_div left right
  | rem => exact Value.faultless_rem left right
  | pow => exact Value.faultless_pow left right
  | equal | notEqual => exact faultless_ok _
  | less | lessEqual | greater | greaterEqual => exact faultless_comparing _ _ left right

/-- A function that has an argument whenever it looks at one does not miss it. -/
theorem Formula.Function.faultless_apply {function : Function} {arguments : List Value}
    (admitted : function.arity.admits arguments.length = true) :
    Faultless (function.apply arguments) := by
  have first (operation : Value → Except EvalError Value)
      (foreseen : ∀ value, Faultless (operation value)) (some_argument : arguments ≠ []) :
      Faultless (applyToFirst operation arguments) := by
    cases arguments with
    | nil => exact absurd rfl some_argument
    | cons value rest => exact foreseen value
  cases function with
  | choose | null => exact faultless_ok _
  | min | max => exact Value.faultless_extreme _ _ arguments
  | abs => exact first Value.abs Value.faultless_abs (by rintro rfl; cases admitted)
  | size => exact first Value.length Value.faultless_length (by rintro rfl; cases admitted)
  | sum => exact first Value.sum Value.faultless_sum (by rintro rfl; cases admitted)

/-! ## Plans

A plan can miss an operand where the tree is not well formed, but it never
fails for want of an active node. -/

theorem Faultless.ne_stackExhausted {α : Type} {outcome : Except EvalError α}
    (faultless : Faultless outcome) : outcome ≠ .error .stackExhausted := by
  intro failed
  cases faultless _ failed

theorem Formula.Function.apply_ne_stackExhausted (function : Function) (arguments : List Value) :
    function.apply arguments ≠ .error .stackExhausted := by
  have first (operation : Value → Except EvalError Value)
      (foreseen : ∀ value, Faultless (operation value)) :
      applyToFirst operation arguments ≠ .error .stackExhausted := by
    cases arguments with
    | nil => exact fun failed => by cases failed
    | cons value rest => exact (foreseen value).ne_stackExhausted
  cases function with
  | choose | null => exact (faultless_ok _).ne_stackExhausted
  | min | max => exact (Value.faultless_extreme _ _ arguments).ne_stackExhausted
  | abs => exact first Value.abs Value.faultless_abs
  | size => exact first Value.length Value.faultless_length
  | sum => exact first Value.sum Value.faultless_sum

namespace Activation

variable {activation : Activation}

theorem operand_bind_ne_stackExhausted {position : Nat} {next : Value → Except EvalError Value}
    (foreseen : ∀ value, next value ≠ .error .stackExhausted) :
    activation.operand position >>= next ≠ .error .stackExhausted := by
  unfold operand
  cases activation.values[position]? with
  | none => exact fun failed => by cases failed
  | some value => exact foreseen value

theorem planStrict_ne_stackExhausted {combine : Except EvalError Value}
    (foreseen : combine ≠ .error .stackExhausted) :
    activation.planStrict combine ≠ .error .stackExhausted := by
  unfold planStrict
  split
  · exact fun failed => by cases failed
  · cases combine with
    | ok value => exact fun failed => by cases failed
    | error error =>
      intro failed
      cases failed
      exact foreseen rfl

theorem plan_ne_stackExhausted (environment : Environment) (activation : Activation) :
    activation.plan environment ≠ .error .stackExhausted := by
  unfold plan
  split
  · exact fun failed => by cases failed
  · exact fun failed => by cases failed
  · exact fun failed => by cases failed
  · split <;> exact fun failed => by cases failed
  · exact fun failed => by cases failed
  · exact fun failed => by cases failed
  · exact planStrict_ne_stackExhausted fun failed => by cases failed
  · next op _ =>
    exact planStrict_ne_stackExhausted (operand_bind_ne_stackExhausted fun value =>
      (op.faultless_apply value).ne_stackExhausted)
  · next op _ =>
    exact planStrict_ne_stackExhausted (operand_bind_ne_stackExhausted fun left =>
      operand_bind_ne_stackExhausted fun right =>
        (op.faultless_apply left right).ne_stackExhausted)
  · next function _ _ =>
    exact planStrict_ne_stackExhausted (function.apply_ne_stackExhausted activation.values)

end Activation

/-! ## Accounts of formulas -/

theorem Formula.NodeKind.faultless_combine {kind : NodeKind} {values : List Value}
    (strict : kind.isStrict = true) (admitted : kind.admits values.length = true) :
    Faultless (kind.combine values) := by
  cases kind with
  | integer n => cases strict
  | decimal x => cases strict
  | string text => cases strict
  | identifier name => cases strict
  | logical op => cases strict
  | list => exact faultless_ok _
  | unary op =>
    obtain ⟨operand, rfl⟩ := List.length_eq_one_iff.mp (of_decide_eq_true admitted)
    exact op.faultless_apply operand
  | binary op =>
    obtain ⟨left, right, rfl⟩ := List.length_eq_two.mp (of_decide_eq_true admitted)
    exact op.faultless_apply left right
  | call function => exact function.faultless_apply admitted

/-- A node that is visited fails like what is inside. -/
theorem Account.faultless_visit {site : Site} {inside : Account Value}
    (foreseen : Faultless inside.outcome) : Faultless (visit site inside).outcome :=
  faultless_bind (faultless_ok ()) fun _ _ => faultless_bind foreseen fun _ _ => faultless_ok _

namespace Formula.Node

variable {environment : Environment}

/-- Children that all have a value have as many values as there are. -/
theorem length_of_operands {path : List Nat} {position : Nat} {nodes : List Node}
    {values : List Value}
    (evaluated : (operands environment path position nodes).outcome = .ok values) :
    values.length = nodes.length := by
  induction nodes generalizing position values with
  | nil => cases evaluated; rfl
  | cons child rest ih =>
    rw [operands] at evaluated
    obtain ⟨value, _, evaluated⟩ := Account.exists_of_bind_eq_ok evaluated
    obtain ⟨others, evaluated_others, together⟩ := Account.exists_of_bind_eq_ok evaluated
    cases together
    exact congrArg Nat.succ (ih evaluated_others)

section Children

variable {nodes : List Node}
  (foreseen : ∀ child ∈ nodes, ∀ path, Faultless (child.account environment path).outcome)
include foreseen

theorem faultless_operands (path : List Nat) (position : Nat) :
    Faultless (operands environment path position nodes).outcome := by
  induction nodes generalizing position with
  | nil => exact faultless_ok _
  | cons child rest ih =>
    rw [operands]
    refine Account.faultless_bind (foreseen child List.mem_cons_self _) fun value _ => ?_
    refine Account.faultless_bind (ih (fun other member => ?_) (position + 1)) fun _ _ =>
      faultless_ok _
    exact foreseen other (List.mem_cons_of_mem child member)

theorem faultless_connective (op : Connective) (path : List Nat) (two : nodes.length = 2) :
    Faultless (connective environment op path nodes).outcome := by
  obtain ⟨left, right, rfl⟩ := List.length_eq_two.mp two
  rw [connective]
  refine Account.faultless_bind (foreseen left (by simp) _) fun decision _ => ?_
  split
  · exact faultless_ok _
  · exact Account.faultless_bind (foreseen right (by simp) _) fun _ _ => faultless_ok _

end Children

theorem faultless_choice : ∀ (nodes : List Node) (path : List Nat) (position : Nat),
    (∀ child ∈ nodes, ∀ path, Faultless (child.account environment path).outcome) →
    Faultless (choice environment path position nodes).outcome
  | [], _, _, _ => faultless_ok _
  | [otherwise], _, _, foreseen => by
    rw [choice]
    exact foreseen otherwise List.mem_cons_self _
  | condition :: chosen :: rest, path, position, foreseen => by
    rw [choice]
    refine Account.faultless_bind (foreseen condition List.mem_cons_self _) fun decision _ => ?_
    split
    · exact foreseen chosen (by simp) _
    · refine faultless_choice rest path (position + 2) fun child member => foreseen child ?_
      exact List.mem_cons_of_mem _ (List.mem_cons_of_mem _ member)

/-- **A well-formed formula fails only as its operations do.** -/
theorem faultless_account {node : Node} (well_formed : node.WellFormed) :
    ∀ path : List Nat, Faultless (node.account environment path).outcome := by
  induction well_formed with
  | @mk kind children text span admitted below ih =>
    intro path
    have strictly (strict : kind.isStrict = true) :
        Faultless ((Node.mk kind children text span).account environment path).outcome := by
      rw [account_of_isStrict environment strict]
      refine Account.faultless_visit (Account.faultless_bind (faultless_operands ih path 0) ?_)
      intro values evaluated
      refine NodeKind.faultless_combine strict ?_
      rwa [length_of_operands evaluated]
    cases kind with
    | list => exact strictly rfl
    | unary op => exact strictly rfl
    | binary op => exact strictly rfl
    | integer n => exact Account.faultless_visit (faultless_ok _)
    | decimal x => exact Account.faultless_visit (faultless_ok _)
    | string text => exact Account.faultless_visit (faultless_ok _)
    | identifier name =>
      rw [account]
      refine Account.faultless_visit ?_
      cases environment name with
      | none => exact faultless_error rfl
      | some value => exact faultless_ok _
    | logical op =>
      exact Account.faultless_visit
        (faultless_connective ih op path (of_decide_eq_true admitted))
    | call function =>
      cases function with
      | choose => exact Account.faultless_visit (faultless_choice children path 0 ih)
      | abs | min | max | size | sum | null => exact strictly rfl

end Formula.Node

end FormulaStepper
