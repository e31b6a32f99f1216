import Mathlib.Data.List.Chain
import FormulaStepper.Proofs.Evaluation.Faults
import FormulaStepper.Proofs.Evaluation.Transcript

/-!
# The nodes under evaluation

The nodes of an evaluation form a path in the formula, from the root on
(`Site.Descends`), since a node is entered only as the root or as a child of
the innermost active node. What a step can do to them is said once, by
`Evaluation.Moves`: it enters such a node, leaves the innermost one, ends, or
fails (`Evaluation.Within.moves`).
-/

set_option autoImplicit false

namespace FormulaStepper

open Formula

/-! ## Paths in a formula -/

/-- The nodes lie on a path from the root of the formula, innermost first. -/
inductive Formula.Site.Descends (formula : Node) : List Site → Prop where
  | nil : Descends formula []
  | root : Descends formula [Site.root formula]
  | child {parent child : Site} {above : List Site} {position : Nat}
      (path : Descends formula (parent :: above))
      (found : parent.child? position = some child) :
      Descends formula (child :: parent :: above)

namespace Formula.Site.Descends

variable {formula : Node}

theorem tail {site : Site} {above : List Site} (path : Descends formula (site :: above)) :
    Descends formula above := by
  cases path with
  | root => exact .nil
  | child path found => exact path

/-- Every node but the outermost is a child of the one around it. -/
theorem isChain {sites : List Site} (path : Descends formula sites) :
    sites.IsChain fun child parent => ∃ position, parent.child? position = some child := by
  induction path with
  | nil => exact .nil
  | root => exact .singleton _
  | child path found ih => exact .cons_cons ⟨_, found⟩ ih

/-- The outermost node is the root. -/
theorem getLast? {sites : List Site} (path : Descends formula sites) :
    ∀ site ∈ sites.getLast?, site = Site.root formula := by
  induction path with
  | nil => intro site last; cases last
  | root => intro site last; cases last; rfl
  | child path found ih =>
    intro site last
    rw [List.getLast?_cons_cons] at last
    exact ih site last

end Formula.Site.Descends

/-- A child is less tall than its node. -/
theorem Formula.Site.height_lt_of_child? {site child : Site} {position : Nat}
    (found : site.child? position = some child) : child.node.height < site.node.height := by
  unfold child? at found
  obtain ⟨node, known, rfl⟩ := Option.map_eq_some_iff.mp found
  exact Node.height_lt_of_mem (List.mem_of_getElem? known)

/-- Below the nodes of a path there is less and less to descend to. -/
theorem Formula.Site.Descends.length_add_height_le {formula : Node} {site : Site}
    {above : List Site} (path : Descends formula (site :: above)) :
    above.length + site.node.height ≤ formula.height := by
  generalize same : site :: above = sites at path
  induction path generalizing site above with
  | nil => cases same
  | root => cases same; exact Nat.le_of_eq (Nat.zero_add _)
  | child path found ih =>
    cases same
    have bound := ih rfl
    have smaller := Site.height_lt_of_child? found
    rw [List.length_cons]
    omega

/-- A node on a path lies as deep in the tree as there are nodes around it. -/
theorem Formula.Site.Descends.length_path {formula : Node} {site : Site} {above : List Site}
    (path : Descends formula (site :: above)) : site.path.length = above.length := by
  generalize same : site :: above = sites at path
  induction path generalizing site above with
  | nil => cases same
  | root => cases same; rfl
  | child path found ih =>
    cases same
    unfold child? at found
    obtain ⟨node, known, rfl⟩ := Option.map_eq_some_iff.mp found
    rw [List.length_append, ih rfl]
    rfl

/-- **No path is longer than the formula is tall.** -/
theorem Formula.Site.Descends.length_le_height {formula : Node} {sites : List Site}
    (path : Descends formula sites) : sites.length ≤ formula.height := by
  cases sites with
  | nil => exact Nat.zero_le _
  | cons site above =>
    have bound := path.length_add_height_le
    have positive : 0 < site.node.height := by
      rw [Node.height_eq]
      omega
    rw [List.length_cons]
    omega

/-! ## The nodes of an evaluation -/

namespace Evaluation

/-- The active nodes, innermost first. -/
def live : Evaluation → List Site
  | .ready _ | .complete _ => []
  | .active stack | .left _ _ stack => stack.map Activation.site

/-- The nodes that have not handed their values over, innermost first: the one
that was just left and the active ones. -/
def sites : Evaluation → List Site
  | .left site value below => site :: (left site value below).live
  | other => other.live

/-- The same nodes, each with its value if it has one. -/
def nodes : Evaluation → List (Site × Option Value)
  | .left site value below =>
    (site, some value) :: (left site value below).live.map fun site => (site, none)
  | other => other.live.map fun site => (site, none)

/-- The evaluation is one of the formula: its nodes lie on a path from the root,
and some node is active as long as it goes on. -/
structure Within (formula : Node) (evaluation : Evaluation) : Prop where
  ready : ∀ other, evaluation = .ready other → other = formula
  path : Site.Descends formula evaluation.sites
  active : evaluation ≠ .active []

/-- What one step can do to the nodes. -/
inductive Moves (formula : Node) (before : Evaluation) :
    Except EvalError Step → Evaluation → Prop where
  /-- The step fails, and the values stay as they were handed over. -/
  | fails {error : EvalError} {next : Evaluation} (foreseen : error ≠ .stackExhausted)
      (within : next.Within formula) : Moves formula before (.error error) next
  /-- A node is entered inside the active ones. -/
  | enters {site : Site} {next : Evaluation} (within : next.Within formula)
      (nodes : next.nodes = (site, none) :: before.live.map fun site => (site, none)) :
      Moves formula before (.ok (.enter site)) next
  /-- The innermost active node is left. -/
  | leaves {site : Site} {value : Value} {around : List Site} {next : Evaluation}
      (within : next.Within formula) (innermost : before.live = site :: around)
      (nodes : next.nodes = (site, some value) :: around.map fun site => (site, none)) :
      Moves formula before (.ok (.exit site value)) next
  /-- No node is active any more. -/
  | completes {value : Value} {next : Evaluation} (within : next.Within formula)
      (none_live : before.live = []) (nodes : next.nodes = []) :
      Moves formula before (.ok (.complete value)) next

section Steps

variable {environment : Environment} {formula : Node} {before next : Evaluation}
  {answer : Except EvalError Step}

theorem within_ready (formula : Node) : (ready formula).Within formula :=
  ⟨fun _ same => (Evaluation.ready.inj same).symm, .nil, Evaluation.noConfusion⟩

theorem within_complete (formula : Node) (value : Value) : (complete value).Within formula :=
  ⟨fun _ same => (by cases same), .nil, Evaluation.noConfusion⟩

theorem within_active {top : Activation} {below : List Activation}
    (path : Site.Descends formula (top.site :: below.map Activation.site)) :
    (active (top :: below)).Within formula :=
  ⟨fun _ same => (by cases same), path, fun same => by cases same⟩

theorem within_left {site : Site} {value : Value} {below : List Activation}
    (path : Site.Descends formula (site :: below.map Activation.site)) :
    (left site value below).Within formula :=
  ⟨fun _ same => (by cases same), path, Evaluation.noConfusion⟩

/-- Going on with an innermost node enters a child of it, leaves it, or fails
and changes nothing. -/
theorem moves_of_advance {top : Activation} {below : List Activation}
    (path : Site.Descends formula (top.site :: below.map Activation.site))
    (live : before.live = top.site :: below.map Activation.site)
    (advanced : advance environment (top :: below) = (answer, next)) :
    Moves formula before answer next := by
  cases planned : top.plan environment with
  | error error =>
    simp only [advance, planned] at advanced
    cases advanced
    refine .fails ?_ (within_active path)
    rintro rfl
    exact Activation.plan_ne_stackExhausted environment top planned
  | ok plan =>
    cases plan with
    | done value =>
      simp only [advance, planned] at advanced
      cases advanced
      exact .leaves (within_left path) live rfl
    | child position =>
      cases found : top.site.child? position with
      | none =>
        simp only [advance, planned, found] at advanced
        cases advanced
        exact .fails EvalError.noConfusion (within_active path)
      | some child =>
        simp only [advance, planned, found] at advanced
        cases advanced
        refine .enters (within_active (.child path found)) ?_
        rw [live]
        rfl

/-- **A step enters the root or a child of the innermost active node, leaves
that node, or ends.** -/
theorem Within.moves (within : before.Within formula)
    (stepped : before.step environment = (answer, next)) : Moves formula before answer next := by
  cases before with
  | ready other =>
    cases stepped
    cases within.ready other rfl
    exact .enters (within_active .root) rfl
  | complete value =>
    cases stepped
    exact .completes (within_complete formula value) rfl rfl
  | active stack =>
    cases stack with
    | nil => exact absurd rfl within.active
    | cons top below => exact moves_of_advance within.path rfl stepped
  | left site value below =>
    cases below with
    | nil =>
      cases stepped
      exact .completes (within_complete formula value) rfl rfl
    | cons parent rest =>
      have path : Site.Descends formula
          ((parent.accept value).site :: rest.map Activation.site) := within.path.tail
      exact moves_of_advance path rfl stepped

theorem Moves.within (moves : Moves formula before answer next) : next.Within formula := by
  cases moves with
  | fails _ within => exact within
  | enters within _ => exact within
  | leaves within _ _ => exact within
  | completes within _ _ => exact within

/-- An evaluation of the formula stays one, whatever its steps give. -/
theorem Within.after (within : before.Within formula) (count : Nat) :
    (before.after environment count).Within formula := by
  induction count generalizing before with
  | zero => exact within
  | succ count ih => exact ih (within.moves rfl).within

end Steps

section Nodes

variable {formula : Node} {evaluation : Evaluation} {site : Site} {around : List Site}

theorem map_fst_nodes (evaluation : Evaluation) :
    evaluation.nodes.map Prod.fst = evaluation.sites := by
  have firsts (sites : List Site) :
      (sites.map fun site => (site, (none : Option Value))).map Prod.fst = sites := by
    rw [List.map_map]
    exact List.map_id sites
  cases evaluation with
  | ready formula => rfl
  | complete value => rfl
  | active stack => exact firsts _
  | left site value below => exact congrArg (site :: ·) (firsts _)

theorem eq_of_map_valueless {first second : List Site}
    (same : (first.map fun site => (site, (none : Option Value))) =
      second.map fun site => (site, none)) : first = second :=
  List.map_injective_iff.mpr (fun _ _ pair => congrArg Prod.fst pair) same

/-- Where the innermost node has no value, it is active. -/
theorem live_of_entered (nodes : evaluation.nodes =
      (site, none) :: around.map fun site => (site, none)) : evaluation.live = site :: around := by
  apply eq_of_map_valueless
  cases evaluation with
  | ready formula => exact nodes
  | active stack => exact nodes
  | left other value below => cases nodes
  | complete value => exact nodes

/-- Where the innermost node has its value, those around it are active. -/
theorem live_of_left {value : Value} (nodes : evaluation.nodes =
      (site, some value) :: around.map fun site => (site, none)) : evaluation.live = around := by
  cases evaluation with
  | ready formula => cases nodes
  | active stack => cases stack <;> cases nodes
  | complete value => cases nodes
  | left other value below => exact eq_of_map_valueless (List.cons.inj nodes).2

/-- Where the root alone has its value, it was just left. -/
theorem eq_left_of_nodes {value : Value} (nodes : evaluation.nodes = [(site, some value)]) :
    evaluation = .left site value [] := by
  cases evaluation with
  | ready formula => cases nodes
  | complete value => cases nodes
  | active stack => cases stack <;> cases nodes
  | left site value below =>
    cases below with
    | nil => cases nodes; rfl
    | cons parent rest => cases nodes

/-- The depth of a node in the tree is the number of nodes around it. -/
theorem Within.length_path (within : evaluation.Within formula) {result : Option Value}
    {around : List (Site × Option Value)} (nodes : evaluation.nodes = (site, result) :: around) :
    site.path.length = around.length := by
  have path := within.path
  rw [← map_fst_nodes, nodes, List.map_cons] at path
  rw [path.length_path, List.length_map]

end Nodes

end Evaluation

end FormulaStepper
