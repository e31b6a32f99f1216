import FormulaStepper.Proofs.Evaluation.Correspondence
import FormulaStepper.Proofs.Evaluation.Nesting

/-!
# What is not entered does not matter

A machine looks at the children of a node only to enter them, and at a variable
only where it is entered. So a run that never enters some node shows the same
steps when the subtree there is replaced, and when variables get other values,
or none, that no entered node stands for
(`Evaluation.unreached_subtree_is_irrelevant`).

The replaced run is in step with the other one: the same nodes are under
evaluation, with the replacement inside those around it (`step_replaceAt`).
The two shows differ in the trees below the nodes only, so they are compared
with the children of every node left out (`Step.alone`).
-/

set_option autoImplicit false

namespace FormulaStepper

open Formula

/-! ## Replacing a subtree -/

namespace Formula.Node

/-- The tree with another subtree at a path. If there is no node at the path, the
tree stays as it is. -/
def replaceAt : Node → List Nat → Node → Node
  | _, [], new => new
  | .mk kind children text span, position :: inside, new =>
    .mk kind (children.modify position (·.replaceAt inside new)) text span

variable {node old new : Node}

@[simp] theorem replaceAt_nil (node new : Node) : node.replaceAt [] new = new := by
  cases node; rfl

@[simp] theorem children_replaceAt_cons (node new : Node) (position : Nat) (inside : List Nat) :
    (node.replaceAt (position :: inside) new).children =
      node.children.modify position (·.replaceAt inside new) := by
  cases node; rfl

/-- The replacement is where the subtree was. -/
theorem at?_replaceAt {place : List Nat} (found : node.at? place = some old) :
    (node.replaceAt place new).at? place = some new := by
  induction place generalizing node with
  | nil => rw [replaceAt_nil, at?]
  | cons position inside ih =>
    rw [at?] at found ⊢
    obtain ⟨child, known, below⟩ := Option.bind_eq_some_iff.mp found
    simp only [children_replaceAt_cons, List.getElem?_modify, known, if_true, Option.map_eq_map,
      Option.map_some, Option.bind_some, ih below]

/-- Arities stay admitted if those of the replacement are. -/
theorem WellFormed.replaceAt (well_formed : node.WellFormed) (admitted : new.WellFormed)
    (place : List Nat) : (node.replaceAt place new).WellFormed := by
  induction place generalizing node with
  | nil => rw [replaceAt_nil]; exact admitted
  | cons position inside ih =>
    cases well_formed with
    | @mk kind children text span arity below =>
      refine .mk (by rw [List.length_modify]; exact arity) fun child member => ?_
      obtain ⟨other, known⟩ := List.getElem?_of_mem member
      rw [List.getElem?_modify] at known
      obtain ⟨child, found, rfl⟩ := Option.map_eq_some_iff.mp known
      have fine := below child (List.mem_of_getElem? found)
      split
      · exact ih fine
      · exact fine

end Formula.Node

namespace Formula.Site

/-- The site of the same node in the tree with another subtree at a path. -/
def replaceAt (site : Site) (place : List Nat) (new : Node) : Site :=
  if site.path <+: place then ⟨site.path, site.node.replaceAt (place.drop site.path.length) new⟩
  else site

/-- The node of a site without its children. -/
def alone (site : Site) : Site :=
  ⟨site.path, .mk site.node.kind [] site.node.text site.node.span⟩

/-- A node that is not replaced, and that has the same value if it stands for a
variable. -/
structure Untouched (place : List Nat) (environment changed : Environment) (site : Site) :
    Prop where
  elsewhere : site.path ≠ place
  agrees : ∀ name, site.node.kind = .identifier name → changed name = environment name

variable {site : Site} {place : List Nat}

theorem replaceAt_append (site : Site) (inside : List Nat) (new : Node) :
    site.replaceAt (site.path ++ inside) new = ⟨site.path, site.node.replaceAt inside new⟩ := by
  rw [replaceAt, if_pos (List.prefix_append _ _), List.drop_left]

theorem replaceAt_root (formula : Node) (place : List Nat) (new : Node) :
    (root formula).replaceAt place new = root (formula.replaceAt place new) :=
  replaceAt_append (root formula) place new

theorem replaceAt_of_not_prefix (new : Node) (apart : ¬site.path <+: place) :
    site.replaceAt place new = site :=
  if_neg apart

/-- A node that is not replaced has the replacement below a child, or not at all. -/
theorem replaceAt_cases (new : Node) (elsewhere : site.path ≠ place) :
    (∃ next inside, place = site.path ++ next :: inside ∧
      site.replaceAt place new = ⟨site.path, site.node.replaceAt (next :: inside) new⟩) ∨
    (¬site.path <+: place ∧ site.replaceAt place new = site) := by
  by_cases around : site.path <+: place
  · obtain ⟨inside, rfl⟩ := around
    cases inside with
    | nil => exact absurd (List.append_nil _).symm elsewhere
    | cons next inside => exact .inl ⟨next, inside, rfl, replaceAt_append site _ new⟩
  · exact .inr ⟨around, replaceAt_of_not_prefix new around⟩

theorem alone_replaceAt (new : Node) (elsewhere : site.path ≠ place) :
    (site.replaceAt place new).alone = site.alone := by
  rcases replaceAt_cases new elsewhere with ⟨next, inside, -, same⟩ | ⟨-, same⟩
  · rw [same]
    obtain ⟨path, ⟨kind, children, text, span⟩⟩ := site
    rfl
  · rw [same]

theorem kind_replaceAt (new : Node) (elsewhere : site.path ≠ place) :
    (site.replaceAt place new).node.kind = site.node.kind :=
  congrArg (·.node.kind) (alone_replaceAt new elsewhere)

theorem length_children_replaceAt (new : Node) (elsewhere : site.path ≠ place) :
    (site.replaceAt place new).node.children.length = site.node.children.length := by
  rcases replaceAt_cases new elsewhere with ⟨next, inside, -, same⟩ | ⟨-, same⟩
  · rw [same, Node.children_replaceAt_cons, List.length_modify]
  · rw [same]

/-- The children of a node that is not replaced are those of the tree, with the
replacement at its place. -/
theorem child?_replaceAt (new : Node) (elsewhere : site.path ≠ place) (position : Nat) :
    (site.replaceAt place new).child? position =
      (site.child? position).map (·.replaceAt place new) := by
  cases found : site.node.children[position]? with
  | none =>
    have beyond : (site.replaceAt place new).node.children[position]? = none := by
      rw [List.getElem?_eq_none_iff] at found ⊢
      rwa [length_children_replaceAt new elsewhere]
    rw [child?, child?, beyond, found]
    rfl
  | some child =>
    rw [child?_eq_some found, Option.map_some]
    rcases replaceAt_cases new elsewhere with ⟨next, inside, split, same⟩ | ⟨apart, same⟩
    · have children : (site.replaceAt place new).node.children[position]? =
          some (if next = position then child.replaceAt inside new else child) := by
        rw [same, Node.children_replaceAt_cons, List.getElem?_modify, found]
        rfl
      rw [child?_eq_some children, same, split]
      by_cases here : next = position
      · subst here
        have inner : (Site.mk (site.path ++ [next]) child).replaceAt (site.path ++ next :: inside)
            new = ⟨site.path ++ [next], child.replaceAt inside new⟩ := by
          rw [List.append_cons site.path next inside]
          exact replaceAt_append _ inside new
        rw [if_pos rfl, inner]
      · have aside : ¬(Site.mk (site.path ++ [position]) child).path <+:
            site.path ++ next :: inside := by
          rw [List.prefix_append_right_inj, List.cons_prefix_cons]
          exact fun start => here start.1.symm
        rw [if_neg here, replaceAt_of_not_prefix new aside]
    · have aside : ¬(Site.mk (site.path ++ [position]) child).path <+: place := fun around =>
        apart ((List.prefix_append _ _).trans around)
      rw [same, replaceAt_of_not_prefix new aside, child?_eq_some found]

end Formula.Site

/-- The same step in the tree with another subtree at a path. -/
def Step.replaceAt (step : Step) (place : List Nat) (new : Node) : Step :=
  match step with
  | .enter site => .enter (site.replaceAt place new)
  | .exit site value => .exit (site.replaceAt place new) value
  | .complete value => .complete value

/-- The step with the children of the node left out. -/
def Step.alone : Step → Step
  | .enter site => .enter site.alone
  | .exit site value => .exit site.alone value
  | .complete value => .complete value

/-- The account with the children of all nodes left out. -/
def Account.alone {α : Type} (account : Account α) : Account α :=
  ⟨account.steps.map Step.alone, account.outcome⟩

theorem Step.showsNode_replaceAt (step : Step) (place : List Nat) (new : Node) :
    (step.replaceAt place new).showsNode = step.showsNode := by
  cases step <;> rfl

theorem Account.alone_shows {α : Type} (step : Step) (next : Unit → Account α) :
    (shows step >>= next).alone = shows step.alone >>= fun _ => (next ()).alone := rfl

theorem Account.answer_alone (account : Account Value) (count : Nat) :
    account.alone.answer count = (account.answer count).map Step.alone := by
  rw [answer, answer, alone, List.getElem?_map]
  cases account.steps[count]? with
  | some step => rfl
  | none => cases account.outcome <;> rfl

namespace Activation

/-- The activation of the same node in the tree with another subtree at a path. -/
def replaceAt (activation : Activation) (place : List Nat) (new : Node) : Activation :=
  { activation with site := activation.site.replaceAt place new }

variable {activation : Activation} {place : List Nat} {environment changed : Environment}

/-- A node that is not touched needs what it needed before. -/
theorem plan_replaceAt (new : Node)
    (untouched : activation.site.Untouched place environment changed) :
    (activation.replaceAt place new).plan changed = activation.plan environment := by
  have kinds : (activation.replaceAt place new).site.node.kind = activation.site.node.kind :=
    Site.kind_replaceAt new untouched.elsewhere
  have arities : (activation.replaceAt place new).arity = activation.arity :=
    Site.length_children_replaceAt new untouched.elsewhere
  have choice : (activation.replaceAt place new).planChoice = activation.planChoice := by
    simp only [planChoice, arities]
    rfl
  have strict (combine : Except EvalError Value) :
      (activation.replaceAt place new).planStrict combine = activation.planStrict combine := by
    simp only [planStrict, arities]
    rfl
  simp only [plan, kinds, choice, strict]
  cases kind : activation.site.node.kind with
  | identifier name => simp only [untouched.agrees name kind]
  | call function => cases function <;> rfl
  | _ => rfl

end Activation

namespace Evaluation

/-- The evaluation of the tree with another subtree at a path that has come as
far. -/
def replaceAt (evaluation : Evaluation) (place : List Nat) (new : Node) : Evaluation :=
  match evaluation with
  | .ready formula => .ready (formula.replaceAt place new)
  | .active stack => .active (stack.map (·.replaceAt place new))
  | .left site value below =>
    .left (site.replaceAt place new) value (below.map (·.replaceAt place new))
  | .complete value => .complete value

section Replacing

variable {environment changed : Environment} {place : List Nat}

theorem advance_replaceAt (new : Node) (stack : List Activation)
    (untouched : ∀ site ∈ stack.map Activation.site, site.Untouched place environment changed) :
    advance changed (stack.map (·.replaceAt place new)) =
      ((advance environment stack).1.map (·.replaceAt place new),
        (advance environment stack).2.replaceAt place new) := by
  cases stack with
  | nil => rfl
  | cons top below =>
    have innermost := untouched top.site (List.mem_cons_self ..)
    rw [List.map_cons, advance, advance, Activation.plan_replaceAt new innermost]
    cases top.plan environment with
    | error error => rfl
    | ok plan =>
      cases plan with
      | done value => rfl
      | child position =>
        have found : (top.replaceAt place new).site.child? position =
            (top.site.child? position).map (·.replaceAt place new) :=
          Site.child?_replaceAt new innermost.elsewhere position
        simp only [found]
        cases top.site.child? position with
        | none => rfl
        | some child => rfl

/-- A step of the replaced evaluation is the step of the evaluation, as long as no
active node is touched. -/
theorem step_replaceAt (new : Node) {evaluation : Evaluation}
    (untouched : ∀ site ∈ evaluation.live, site.Untouched place environment changed) :
    (evaluation.replaceAt place new).step changed =
      ((evaluation.step environment).1.map (·.replaceAt place new),
        (evaluation.step environment).2.replaceAt place new) := by
  cases evaluation with
  | ready formula =>
    simp only [replaceAt, step, ← Site.replaceAt_root]
    rfl
  | active stack => exact advance_replaceAt new stack untouched
  | left site value below =>
    cases below with
    | nil => rfl
    | cons parent rest => exact advance_replaceAt new (parent.accept value :: rest) untouched
  | complete value => rfl

/-- **As long as no entered node is touched, the replaced evaluation shows the same
steps and comes to the same end.** -/
theorem alone_transcript_replaceAt (new : Node) {formula : Node} {evaluation : Evaluation}
    (within : evaluation.Within formula)
    (active : ∀ site ∈ evaluation.live, site.Untouched place environment changed)
    (entered : ∀ site, .enter site ∈ (evaluation.transcript environment).steps →
      site.Untouched place environment changed) :
    ((evaluation.replaceAt place new).transcript changed).alone =
      (evaluation.transcript environment).alone := by
  induction evaluation using step_induction environment with
  | fails before next error stepped =>
    have replaced := step_replaceAt new active
    rw [stepped] at replaced
    rw [transcript_of_error stepped, transcript_of_error replaced]
  | completes before next value stepped =>
    have replaced := step_replaceAt new active
    rw [stepped] at replaced
    rw [transcript_of_complete stepped, transcript_of_complete replaced]
  | shows before next shown stepped node ih =>
    have replaced := step_replaceAt new active
    rw [stepped] at replaced
    rw [transcript_of_shown stepped node] at entered ⊢
    have later (site : Site) (member : .enter site ∈ (next.transcript environment).steps) :=
      entered site (List.mem_cons_of_mem _ member)
    -- a node that is entered is untouched by assumption, one that is left was active before
    obtain ⟨same, still⟩ : (shown.replaceAt place new).alone = shown.alone ∧
        ∀ site ∈ next.live, site.Untouched place environment changed := by
      cases within.moves stepped with
      | @enters site _ _ nodes =>
        have here := entered site (List.mem_cons_self ..)
        rw [live_of_entered nodes]
        exact ⟨congrArg Step.enter (Site.alone_replaceAt new here.elsewhere),
          List.forall_mem_cons.mpr ⟨here, active⟩⟩
      | @leaves site value around _ _ innermost nodes =>
        rw [innermost] at active
        obtain ⟨here, outside⟩ := List.forall_mem_cons.mp active
        rw [live_of_left nodes]
        exact ⟨congrArg (Step.exit · value) (Site.alone_replaceAt new here.elsewhere), outside⟩
      | completes _ _ _ => cases node
    rw [transcript_of_shown replaced (shown.showsNode_replaceAt place new ▸ node),
      Account.alone_shows, Account.alone_shows, same, ih (within.moves stepped).within still later]

end Replacing

end Evaluation

/-! ## Runs that never enter a node -/

/-- Some step of the evaluation of a formula enters the node. -/
def Formula.Node.Enters (environment : Environment) (formula : Node) (site : Site) : Prop :=
  ∃ count, (((Evaluation.ready formula).after environment count).step environment).1 =
    .ok (.enter site)

/-- The transcript holds the entries of all nodes that are entered. -/
theorem Formula.Node.enters_iff {environment : Environment} {formula : Node} {site : Site} :
    formula.Enters environment site ↔
      .enter site ∈ ((Evaluation.ready formula).transcript environment).steps := by
  rw [List.mem_iff_getElem?]
  refine exists_congr fun count => ?_
  rw [Evaluation.answer_after, Account.answer]
  generalize (Evaluation.ready formula).transcript environment = account
  cases account.steps[count]? with
  | some step => simp
  | none => cases account.outcome <;> simp [Except.map]

namespace Evaluation

/-- **Laziness is noninterference.** If the evaluation of a formula never enters the
node at a path, then the subtree there can be replaced by any other one, and all
variables for which no entered node stands can get any other value or none: every
step shows the node at the same path, with the same kind, text and span, and the
same value, and the formula has the same value or the same error. -/
theorem unreached_subtree_is_irrelevant (formula new : Node) (place : List Nat)
    (environment changed : Environment)
    (unreached : ∀ site, formula.Enters environment site → site.path ≠ place)
    (agrees : ∀ site name, formula.Enters environment site →
      site.node.kind = .identifier name → changed name = environment name) :
    (∀ count,
      (((ready (formula.replaceAt place new)).after changed count).step changed).1.map Step.alone =
        (((ready formula).after environment count).step environment).1.map Step.alone) ∧
      (formula.replaceAt place new).evaluate changed = formula.evaluate environment := by
  have same : ((ready (formula.replaceAt place new)).transcript changed).alone =
      ((ready formula).transcript environment).alone := by
    refine alone_transcript_replaceAt new (within_ready formula)
      (fun site member => by cases member) fun site member => ?_
    have entered := Node.enters_iff.mpr member
    exact ⟨unreached site entered, fun name => agrees site name entered⟩
  constructor
  · intro count
    rw [answer_after, answer_after, ← Account.answer_alone, same, Account.answer_alone]
  · rw [Node.evaluate_eq_transcript, Node.evaluate_eq_transcript]
    have outcome := congrArg Account.outcome same
    exact outcome

/-- The formula `x and y`. -/
def guard : Node :=
  .mk (.logical .and)
    [.mk (.identifier "x") [] "x" ⟨0, 1⟩, .mk (.identifier "y") [] "y" ⟨6, 7⟩] "x and y" ⟨0, 7⟩

/-- The formula `1 % z`. -/
def remainder : Node :=
  .mk (.binary .rem)
    [.mk (.integer 1) [] "1" ⟨0, 1⟩, .mk (.identifier "z") [] "z" ⟨4, 5⟩] "1 % z" ⟨0, 5⟩

/-- Where `x` is zero, the right operand of `x and y` can be replaced by one that
fails, and `y` can get a value. -/
theorem guard_leaves_out_right_operand :
    let environment : Environment := fun name => if name = "x" then some (.int 0) else none
    let changed : Environment := fun name =>
      if name = "x" then some (.int 0) else if name = "y" then some (.int 1) else none
    (guard.replaceAt [1] remainder).WellFormed ∧
      (guard.replaceAt [1] remainder).at? [1] = some remainder ∧
      (guard.replaceAt [1] remainder).evaluate changed = guard.evaluate environment ∧
      guard.evaluate environment = .ok (.int 0) := by
  intro environment changed
  have leaf (kind : NodeKind) (alone : kind.admits 0 = true) (text : String) (span : Text.Span) :
      (Node.mk kind [] text span).WellFormed :=
    .mk alone fun _ member => by cases member
  have guard_admitted : guard.WellFormed :=
    .mk rfl (by simp only [List.forall_mem_cons]; exact ⟨leaf _ rfl _ _, leaf _ rfl _ _, by simp⟩)
  have remainder_admitted : remainder.WellFormed :=
    .mk rfl (by simp only [List.forall_mem_cons]; exact ⟨leaf _ rfl _ _, leaf _ rfl _ _, by simp⟩)
  have account := transcript_ready environment guard_admitted
  have entered (site : Site) (enters : guard.Enters environment site) :
      site = Site.root guard ∨ site = ⟨[0], .mk (.identifier "x") [] "x" ⟨0, 1⟩⟩ := by
    rw [Node.enters_iff, account] at enters
    have steps : (guard.account environment []).steps =
        [.enter (Site.root guard), .enter ⟨[0], .mk (.identifier "x") [] "x" ⟨0, 1⟩⟩,
          .exit ⟨[0], .mk (.identifier "x") [] "x" ⟨0, 1⟩⟩ (.int 0),
          .exit (Site.root guard) (.int 0)] := rfl
    simpa [steps] using enters
  obtain ⟨-, same⟩ := unreached_subtree_is_irrelevant guard remainder [1] environment changed
    (fun site enters => by rcases entered site enters with rfl | rfl <;> decide)
    (fun site name enters kind => by
      rcases entered site enters with rfl | rfl <;> cases kind; rfl)
  refine ⟨guard_admitted.replaceAt remainder_admitted [1], Node.at?_replaceAt rfl, same, ?_⟩
  rw [Node.evaluate_eq_transcript, account]
  rfl

end Evaluation

end FormulaStepper
