import FormulaStepper.Proofs.Evaluation.Faults
import FormulaStepper.Proofs.Evaluation.Transcript
import FormulaStepper.Proofs.Grammar.Reading

/-!
# The machine follows the recursive account

The transcript of a machine that begins with a well-formed formula is the
account of the formula by recursion (`transcript_ready`). The statement for a
single node holds under any nodes around it: from its entry on, the machine
shows the account of the node and then goes on as from the state in which the
node was just left (`Follows`). That is proved by recursion on the tree, with
one statement for each way in which a node goes through its children.
-/

set_option autoImplicit false

namespace FormulaStepper

open Formula

/-- What remains of a list after some elements begins with the next one. -/
theorem getElem?_of_drop_eq_cons {α : Type} {items rest : List α} {position : Nat} {item : α}
    (remaining : items.drop position = item :: rest) :
    items[position]? = some item ∧ items.drop (position + 1) = rest := by
  constructor
  · rw [← List.head?_drop, remaining]
    rfl
  · rw [← List.tail_drop, remaining]
    rfl

/-- A child lies one position below its node. -/
theorem Formula.Site.child?_eq_some {site : Site} {position : Nat} {child : Node}
    (found : site.node.children[position]? = some child) :
    site.child? position = some ⟨site.path ++ [position], child⟩ := by
  rw [child?, found]
  rfl

namespace Activation

variable {environment : Environment}

/-- A strict node plans for its children from left to right. -/
theorem plan_child_of_isStrict {activation : Activation}
    (strict : activation.site.node.kind.isStrict = true)
    (more : activation.next < activation.arity) :
    activation.plan environment = .ok (.child activation.next) := by
  obtain ⟨⟨path, node⟩, values, next⟩ := activation
  obtain ⟨kind, children, text, span⟩ := node
  cases kind with
  | integer n => cases strict
  | decimal x => cases strict
  | string text => cases strict
  | identifier name => cases strict
  | logical op => cases strict
  | list => exact if_pos more
  | unary op => exact if_pos more
  | binary op => exact if_pos more
  | call function =>
    cases function with
    | choose => cases strict
    | abs | min | max | size | sum | null => exact if_pos more

/-- A strict node with the values of all its children plans for its operation
on them. -/
theorem plan_done_of_isStrict {activation : Activation}
    (strict : activation.site.node.kind.isStrict = true)
    (admitted : activation.site.node.kind.admits activation.arity = true)
    (all : activation.values.length = activation.arity)
    (passed : activation.values.length = activation.next) :
    activation.plan environment =
      (activation.site.node.kind.combine activation.values).map .done := by
  have no_more : ¬ activation.next < activation.arity := by omega
  obtain ⟨⟨path, node⟩, values, next⟩ := activation
  obtain ⟨kind, children, text, span⟩ := node
  cases kind with
  | integer n => cases strict
  | decimal x => cases strict
  | string text => cases strict
  | identifier name => cases strict
  | logical op => cases strict
  | list => exact if_neg no_more
  | unary op =>
    have one : children.length = 1 := of_decide_eq_true admitted
    obtain ⟨operand, rfl⟩ := List.length_eq_one_iff.mp (all.trans one)
    exact if_neg no_more
  | binary op =>
    have two : children.length = 2 := of_decide_eq_true admitted
    obtain ⟨left, right, rfl⟩ := List.length_eq_two.mp (all.trans two)
    exact if_neg no_more
  | call function =>
    cases function with
    | choose => cases strict
    | abs | min | max | size | sum | null => exact if_neg no_more

section Conditional

variable {site : Site} (conditional : site.node.kind = .call .choose)
include conditional

theorem plan_of_choose (activation : Activation) (here : activation.site = site) :
    activation.plan environment = .ok activation.planChoice := by
  subst here
  simp only [plan, conditional]

theorem plan_enter_choose (some_children : 0 < site.node.children.length) :
    plan environment (enter site) =
      .ok (if 0 < site.node.children.length then .child 0 else .done .null) := by
  rw [plan_of_choose conditional _ rfl, if_pos some_children]
  rfl

/-- After a condition comes the value that belongs to it if the condition is
true, and otherwise the next child if there is one. -/
theorem plan_after_condition {values : List Value} {value : Value} {position : Nat}
    (even : position % 2 = 0) (more : position + 1 < site.node.children.length) :
    plan environment ⟨site, values ++ [value], position + 1⟩ =
      .ok (if value.isTruthy then .child (position + 1)
        else if position + 2 < site.node.children.length then .child (position + 2)
        else .done .null) := by
  rw [plan_of_choose conditional _ rfl]
  simp only [planChoice, arity, even, more, and_self, if_true, List.getLast?_append,
    List.getLast?_singleton, Option.some_or, Option.getD_some]
  rfl

/-- After a value that was chosen, or a last child alone, the conditional has
that value. -/
theorem plan_after_chosen {values : List Value} {value : Value} {position : Nat}
    (chosen : ¬(position % 2 = 0 ∧ position + 1 < site.node.children.length)) :
    plan environment ⟨site, values ++ [value], position + 1⟩ = .ok (.done value) := by
  rw [plan_of_choose conditional _ rfl]
  simp only [planChoice, arity, if_neg chosen, List.getLast?_append, List.getLast?_singleton,
    Option.some_or, Option.getD_some]

end Conditional

end Activation

namespace Evaluation

variable (environment : Environment)

/-- From the entry of a node on, whatever is around it, the machine shows the
account of the node and goes on as if the node was just left. -/
def Follows (site : Site) : Prop :=
  ∀ below : List Activation,
    (Account.shows (.enter site) >>= fun _ =>
        (active (Activation.enter site :: below)).transcript environment) =
      site.node.account environment site.path >>= fun value =>
        (left site value below).transcript environment

variable {environment}

/-- A child that is planned for is visited, and its value handed over. -/
theorem transcript_of_follows {top : Activation} {below : List Activation} {position : Nat}
    {child : Site} (planned : top.plan environment = .ok (.child position))
    (found : top.site.child? position = some child) (follows : Follows environment child) :
    (active (top :: below)).transcript environment =
      child.node.account environment child.path >>= fun value =>
        (active (⟨top.site, top.values ++ [value], position + 1⟩ :: below)).transcript
          environment := by
  rw [transcript_of_plan_child planned found, follows]
  simp only [transcript_left_cons]
  rfl

/-- A node follows its account if, once entered, it shows what the account has
between entry and exit. -/
theorem follows_of_inside {site : Site} {inside : Account Value}
    (account : site.node.account environment site.path = Account.visit site inside)
    (shown : ∀ below : List Activation,
      (active (Activation.enter site :: below)).transcript environment =
        inside >>= fun value => Account.shows (.exit site value) >>= fun _ =>
          (left site value below).transcript environment) :
    Follows environment site := by
  intro below
  rw [account, shown below]
  simp only [Account.visit, bind_assoc, pure_bind]

/-- A strict node with the values of some children goes on with the others. -/
theorem transcript_operands (site : Site) (strict : site.node.kind.isStrict = true)
    (admitted : site.node.kind.admits site.node.children.length = true)
    (follow : ∀ child ∈ site.node.children, ∀ path, Follows environment ⟨path, child⟩)
    (below : List Activation) (rest : List Node) (values : List Value) (position : Nat)
    (passed : values.length = position) (inside : position ≤ site.node.children.length)
    (left_over : site.node.children.drop position = rest) :
    (active (⟨site, values, position⟩ :: below)).transcript environment =
      Node.operands environment site.path position rest >>= fun more =>
        Account.ofExcept (site.node.kind.combine (values ++ more)) >>= fun value =>
          Account.shows (.exit site value) >>= fun _ =>
            (left site value below).transcript environment := by
  induction rest generalizing values position with
  | nil =>
    have all := List.drop_eq_nil_iff.mp left_over
    have planned : Activation.plan environment ⟨site, values, position⟩ =
        (site.node.kind.combine values).map .done :=
      Activation.plan_done_of_isStrict strict admitted
        (passed.trans (Nat.le_antisymm inside all)) passed
    simp only [Node.operands, pure_bind, List.append_nil]
    cases combined : site.node.kind.combine values with
    | error error => exact transcript_of_plan_error (planned.trans (by rw [combined]; rfl))
    | ok value => exact transcript_of_plan_done (planned.trans (by rw [combined]; rfl))
  | cons child rest ih =>
    obtain ⟨here, after⟩ := getElem?_of_drop_eq_cons left_over
    have more : position < site.node.children.length := (List.getElem?_eq_some_iff.mp here).1
    have planned : Activation.plan environment ⟨site, values, position⟩ =
        .ok (.child position) :=
      Activation.plan_child_of_isStrict strict more
    rw [transcript_of_follows planned (Site.child?_eq_some here)
      (follow child (List.mem_of_getElem? here) _)]
    simp only [Node.operands, bind_assoc, pure_bind]
    congr 1
    funext value
    rw [ih (values ++ [value]) (position + 1) (by simp [passed]) more after]
    simp only [List.append_assoc, List.singleton_append]

/-- A conditional that has passed some conditions, all of them false, goes on
with the other children. -/
theorem transcript_choice (site : Site) (conditional : site.node.kind = .call .choose)
    (follow : ∀ child ∈ site.node.children, ∀ path, Follows environment ⟨path, child⟩)
    (below : List Activation) : ∀ (rest : List Node) (top : Activation) (position : Nat),
      position % 2 = 0 → site.node.children.drop position = rest → top.site = site →
      top.plan environment =
        .ok (if position < site.node.children.length then .child position else .done .null) →
      (active (top :: below)).transcript environment =
        Node.choice environment site.path position rest >>= fun value =>
          Account.shows (.exit site value) >>= fun _ =>
            (left site value below).transcript environment
  | [], top, position, even, left_over, here, planned => by
    subst here
    have all := List.drop_eq_nil_iff.mp left_over
    rw [if_neg (Nat.not_lt.mpr all)] at planned
    exact transcript_of_plan_done planned
  | [otherwise], top, position, even, left_over, here, planned => by
    subst here
    obtain ⟨found, after⟩ := getElem?_of_drop_eq_cons left_over
    have inside : position < top.site.node.children.length := (List.getElem?_eq_some_iff.mp found).1
    have last := List.drop_eq_nil_iff.mp after
    rw [if_pos inside] at planned
    rw [transcript_of_follows planned (Site.child?_eq_some found)
      (follow otherwise (List.mem_of_getElem? found) _), Node.choice]
    congr 1
    funext value
    exact transcript_of_plan_done (Activation.plan_after_chosen conditional (by omega))
  | condition :: chosen :: rest, top, position, even, left_over, here, planned => by
    subst here
    obtain ⟨found, after⟩ := getElem?_of_drop_eq_cons left_over
    obtain ⟨found_chosen, after_chosen⟩ := getElem?_of_drop_eq_cons after
    have inside : position + 1 < top.site.node.children.length :=
      (List.getElem?_eq_some_iff.mp found_chosen).1
    rw [if_pos (Nat.lt_of_succ_lt inside)] at planned
    rw [transcript_of_follows planned (Site.child?_eq_some found)
      (follow condition (List.mem_of_getElem? found) _), Node.choice, bind_assoc]
    congr 1
    funext decision
    have onward : Activation.plan environment
        ⟨top.site, top.values ++ [decision], position + 1⟩ = _ :=
      Activation.plan_after_condition conditional even inside
    by_cases holds : decision.isTruthy = true
    · rw [if_pos holds] at onward ⊢
      rw [transcript_of_follows onward (Site.child?_eq_some found_chosen)
        (follow chosen (List.mem_of_getElem? found_chosen) _)]
      congr 1
      funext value
      exact transcript_of_plan_done (Activation.plan_after_chosen conditional (by omega))
    · rw [if_neg holds] at onward ⊢
      exact transcript_choice top.site conditional follow below rest
        ⟨top.site, top.values ++ [decision], position + 1⟩ (position + 2) (by omega)
        after_chosen rfl onward

/-- A connective evaluates its left operand, and its right one if the left one
does not decide. -/
theorem transcript_connective (site : Site) {op : Connective}
    (connects : site.node.kind = .logical op) {first second : Node}
    (operands : site.node.children = [first, second])
    (follow : ∀ child ∈ site.node.children, ∀ path, Follows environment ⟨path, child⟩)
    (below : List Activation) :
    (active (Activation.enter site :: below)).transcript environment =
      Node.connective environment op site.path site.node.children >>= fun value =>
        Account.shows (.exit site value) >>= fun _ =>
          (left site value below).transcript environment := by
  have plan_logical : ∀ activation : Activation, activation.site = site →
      activation.plan environment = .ok (activation.planLogical op) := by
    intro activation here
    subst here
    simp only [Activation.plan, connects]
  have left_found : site.child? 0 = some ⟨site.path ++ [0], first⟩ :=
    Site.child?_eq_some (by rw [operands]; rfl)
  have right_found : site.child? 1 = some ⟨site.path ++ [1], second⟩ :=
    Site.child?_eq_some (by rw [operands]; rfl)
  rw [transcript_of_follows (plan_logical (Activation.enter site) rfl) left_found
    (follow first (by simp [operands]) _), operands, Node.connective, bind_assoc]
  congr 1
  funext decision
  have onward := plan_logical ⟨site, [decision], 1⟩ rfl
  simp only [Activation.planLogical] at onward
  by_cases decided : op.decides decision = true
  · rw [if_pos decided] at onward ⊢
    exact transcript_of_plan_done onward
  · rw [if_neg decided] at onward ⊢
    simp only [Activation.enter, List.nil_append, Nat.zero_add]
    rw [transcript_of_follows onward right_found (follow second (by simp [operands]) _),
      bind_assoc]
    congr 1
    funext value
    exact transcript_of_plan_done (plan_logical ⟨site, [decision, value], 2⟩ rfl)

/-- A literal or a variable has its value, or none, right after its entry. -/
theorem transcript_immediate {site : Site} {outcome : Except EvalError Value}
    (immediate : (Activation.enter site).plan environment = outcome.map .done)
    (below : List Activation) :
    (active (Activation.enter site :: below)).transcript environment =
      Account.ofExcept outcome >>= fun value =>
        Account.shows (.exit site value) >>= fun _ =>
          (left site value below).transcript environment := by
  cases outcome with
  | error error => exact transcript_of_plan_error immediate
  | ok value => exact transcript_of_plan_done immediate

/-- **The machine follows the account of every node of a well-formed tree**,
whatever nodes are active around it. -/
theorem follows (environment : Environment) {node : Node} (well_formed : node.WellFormed) :
    ∀ path : List Nat, Follows environment ⟨path, node⟩ := by
  induction well_formed with
  | @mk kind children text span admitted below ih =>
    intro path
    have immediately (outcome : Except EvalError Value)
        (account : (Node.mk kind children text span).account environment path =
          Account.visit ⟨path, .mk kind children text span⟩ (Account.ofExcept outcome))
        (planned : (Activation.enter ⟨path, .mk kind children text span⟩).plan environment =
          outcome.map .done) :
        Follows environment ⟨path, .mk kind children text span⟩ :=
      follows_of_inside account (transcript_immediate planned)
    have strictly (strict : kind.isStrict = true) :
        Follows environment ⟨path, .mk kind children text span⟩ := by
      refine follows_of_inside (Node.account_of_isStrict environment strict) fun around => ?_
      rw [bind_assoc]
      exact transcript_operands ⟨path, .mk kind children text span⟩ strict admitted ih around
        children [] 0 rfl (Nat.zero_le _) rfl
    cases kind with
    | integer n => exact immediately (.ok (.int n)) (by rw [Node.account]; rfl) rfl
    | decimal x => exact immediately (.ok (.decimal x)) (by rw [Node.account]; rfl) rfl
    | string text => exact immediately (.ok (.string text)) (by rw [Node.account]; rfl) rfl
    | identifier name =>
      cases known : environment name with
      | none =>
        refine immediately (.error (.undefinedVariable name)) (by rw [Node.account, known]) ?_
        simp only [Activation.plan, Activation.enter, Node.kind, known]
        rfl
      | some value =>
        refine immediately (.ok value) (by rw [Node.account, known]; rfl) ?_
        simp only [Activation.plan, Activation.enter, Node.kind, known]
        rfl
    | list => exact strictly rfl
    | unary op => exact strictly rfl
    | binary op => exact strictly rfl
    | logical op =>
      have two : children.length = 2 := of_decide_eq_true admitted
      obtain ⟨first, second, rfl⟩ := List.length_eq_two.mp two
      exact follows_of_inside (by rw [Node.account]; rfl)
        (transcript_connective ⟨path, .mk (.logical op) [first, second] text span⟩ rfl rfl ih)
    | call function =>
      cases function with
      | abs | min | max | size | sum | null => exact strictly rfl
      | choose =>
        have some_children : 0 < children.length :=
          Nat.lt_of_lt_of_le Nat.zero_lt_two
            (of_decide_eq_true ((Bool.and_eq_true_iff.mp admitted).1))
        exact follows_of_inside (by rw [Node.account]) fun around =>
          transcript_choice ⟨path, .mk (.call .choose) children text span⟩ rfl ih around children
            _ 0 rfl rfl rfl (Activation.plan_enter_choose rfl some_children)

/-- **The transcript of a well-formed formula is its account.** -/
theorem transcript_ready (environment : Environment) {formula : Node}
    (well_formed : formula.WellFormed) :
    (ready formula).transcript environment = formula.account environment [] := by
  calc (ready formula).transcript environment
      = Account.shows (.enter (Site.root formula)) >>= fun _ =>
          (active [Activation.enter (Site.root formula)]).transcript environment :=
        transcript_of_shown rfl rfl
    _ = formula.account environment [] >>= fun value =>
          (left (Site.root formula) value []).transcript environment :=
        follows environment well_formed [] []
    _ = formula.account environment [] := by
        simp only [transcript_left_nil, bind_pure]

theorem answer_ready (environment : Environment) {formula : Node}
    (well_formed : formula.WellFormed) (count : Nat) :
    (((ready formula).after environment count).step environment).1 =
      (formula.account environment []).answer count := by
  rw [answer_after, transcript_ready environment well_formed]

/-- No step of a well-formed formula fails through a fault of the evaluator. -/
theorem faultless_step (environment : Environment) {formula : Node}
    (well_formed : formula.WellFormed) (count : Nat) :
    Faultless (((ready formula).after environment count).step environment).1 := by
  intro error failed
  rw [answer_ready environment well_formed] at failed
  exact Node.faultless_account well_formed [] error (Account.outcome_of_answer failed)

end Evaluation

end FormulaStepper
