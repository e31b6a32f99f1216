import FormulaStepper.Proofs.Evaluation.Nesting

/-!
# Visits of nodes

Each step may be taken under variables of its own. Then the evaluation follows
no single account of the formula: a variable may be read as true in one place
and as false in the next. What keeps it bounded is that an active node never
goes back to a child that it has passed (`Evaluation.Treads`).

So no node is entered twice, and the nodes that were entered are those that were
left together with the active ones. `Visited` is this record of the steps so
far. A failed step leaves it as it is (`Visited.fail`), and any other step
continues it (`Visited.continues`, `Visited.step`).
-/

set_option autoImplicit false

namespace FormulaStepper

open Formula

/-! ## Entries and exits -/

/-- The node that a step enters. -/
def Step.entered? : Step → Option Site
  | .enter site => some site
  | _ => none

/-- The node that a step leaves. -/
def Step.left? : Step → Option Site
  | .exit site _ => some site
  | _ => none

namespace Visits

/-- The nodes that steps enter, in order. -/
def entries (steps : List Step) : List Site :=
  steps.filterMap Step.entered?

/-- The nodes that steps leave, in order. -/
def exits (steps : List Step) : List Site :=
  steps.filterMap Step.left?

theorem entries_append (first second : List Step) :
    entries (first ++ second) = entries first ++ entries second :=
  List.filterMap_append

theorem exits_append (first second : List Step) :
    exits (first ++ second) = exits first ++ exits second :=
  List.filterMap_append

end Visits

open Visits

/-! ## Paths -/

theorem Formula.Node.at?_append (node : Node) (path inside : List Nat) :
    node.at? (path ++ inside) = (node.at? path).bind fun below => below.at? inside := by
  induction path generalizing node with
  | nil => rfl
  | cons position path ih =>
    rw [List.cons_append, at?, at?, Option.bind_assoc]
    exact congrArg _ (funext fun child => ih child)

namespace Formula.Site

variable {formula : Node}

theorem path_of_child? {parent child : Site} {position : Nat}
    (found : parent.child? position = some child) : child.path = parent.path ++ [position] := by
  obtain ⟨node, -, rfl⟩ := Option.map_eq_some_iff.mp found
  rfl

/-- A child of a node of the formula is a node of the formula. -/
theorem at?_of_child? {parent child : Site} {position : Nat}
    (found : parent.child? position = some child)
    (known : formula.at? parent.path = some parent.node) :
    formula.at? child.path = some child.node := by
  obtain ⟨node, below, rfl⟩ := Option.map_eq_some_iff.mp found
  rw [Node.at?_append, known, Option.bind_some, Node.at?, below]
  rfl

/-- The nodes of a path are nodes of the formula. -/
theorem Descends.at? {sites : List Site} (path : Descends formula sites) :
    ∀ site ∈ sites, formula.at? site.path = some site.node := by
  induction path with
  | nil => intro site member; cases member
  | root => intro site member; rw [List.mem_singleton.mp member]; rfl
  | child path found ih =>
    intro site member
    rcases List.mem_cons.mp member with rfl | above
    · exact at?_of_child? found (ih _ List.mem_cons_self)
    · exact ih site above

/-- The nodes around a node of a path have shorter paths. -/
theorem Descends.length_path_lt {site : Site} {above : List Site}
    (path : Descends formula (site :: above)) :
    ∀ outer ∈ above, outer.path.length < site.path.length := by
  intro outer member
  obtain ⟨between, around, rfl⟩ := List.append_of_mem member
  have deeper : Descends formula (outer :: around) := by
    clear member
    induction between generalizing site with
    | nil => exact path.tail
    | cons inner between ih => exact ih path.tail
  rw [path.length_path, deeper.length_path, List.length_append, List.length_cons]
  omega

end Formula.Site

/-! ## One step -/

namespace Evaluation

/-- The active nodes, innermost first, each with the position of its first child
that was not passed yet. -/
def progress : Evaluation → List (Site × Nat)
  | .ready _ | .complete _ => []
  | .active stack | .left _ _ stack =>
    stack.map fun activation => (activation.site, activation.next)

theorem map_fst_progress (evaluation : Evaluation) :
    evaluation.progress.map Prod.fst = evaluation.live := by
  cases evaluation <;> simp [progress, live]

theorem remaining_handedOver (evaluation : Evaluation) :
    evaluation.handedOver.remaining = evaluation.remaining := by
  cases evaluation with
  | left site value below => cases below <;> rfl
  | _ => rfl

/-- What a step does to the active nodes. It never goes back to a child that was
passed. -/
inductive Treads (formula : Node) (before : Evaluation) :
    Except EvalError Step → Evaluation → Prop where
  | waits {error : EvalError} {next : Evaluation} (progress : next.progress = before.progress) :
      Treads formula before (.error error) next
  | begins {next : Evaluation} (fresh : before = .ready formula)
      (progress : next.progress = [(Site.root formula, 0)]) :
      Treads formula before (.ok (.enter (Site.root formula))) next
  | descends {parent child : Site} {passed position : Nat} {around : List (Site × Nat)}
      {next : Evaluation} (innermost : before.progress = (parent, passed) :: around)
      (ahead : passed ≤ position) (found : parent.child? position = some child)
      (progress : next.progress = (child, 0) :: (parent, position + 1) :: around) :
      Treads formula before (.ok (.enter child)) next
  | ascends {site : Site} {passed : Nat} {value : Value} {around : List (Site × Nat)}
      {next : Evaluation} (innermost : before.progress = (site, passed) :: around)
      (progress : next.progress = around) :
      Treads formula before (.ok (.exit site value)) next
  | ends {value : Value} (none_active : before.progress = []) :
      Treads formula before (.ok (.complete value)) (.complete value)

section Steps

variable {environment : Environment} {formula : Node} {before next : Evaluation}
  {answer : Except EvalError Step}

theorem treads_of_advance {top : Activation} {below : List Activation}
    (innermost : before.progress = (active (top :: below)).progress)
    (advanced : advance environment (top :: below) = (answer, next)) :
    Treads formula before answer next := by
  cases planned : top.plan environment with
  | error error =>
    simp only [advance, planned] at advanced
    cases advanced
    exact .waits innermost.symm
  | ok plan =>
    cases plan with
    | done value =>
      simp only [advance, planned] at advanced
      cases advanced
      exact .ascends innermost rfl
    | child position =>
      cases found : top.site.child? position with
      | none =>
        simp only [advance, planned, found] at advanced
        cases advanced
        exact .waits innermost.symm
      | some child =>
        simp only [advance, planned, found] at advanced
        cases advanced
        exact .descends innermost (Activation.next_le_of_plan planned) found rfl

theorem Within.treads (within : before.Within formula)
    (stepped : before.step environment = (answer, next)) : Treads formula before answer next := by
  cases before with
  | ready other =>
    cases stepped
    cases within.ready other rfl
    exact .begins rfl rfl
  | complete value =>
    cases stepped
    exact .ends rfl
  | active stack =>
    cases stack with
    | nil => exact absurd rfl within.active
    | cons top below => exact treads_of_advance rfl stepped
  | left site value below =>
    cases below with
    | nil =>
      cases stepped
      exact .ends rfl
    | cons parent rest =>
      have advanced : advance environment (parent.accept value :: rest) = (answer, next) := stepped
      have innermost : (left site value (parent :: rest)).progress =
          (Evaluation.active (parent.accept value :: rest)).progress := rfl
      exact treads_of_advance innermost advanced

/-- A step is behind the beginning. -/
theorem ne_ready_of_step (stepped : before.step environment = (answer, next)) (other : Node) :
    next ≠ .ready other := by
  have never (stack : List Activation) : (advance environment stack).2 ≠ .ready other := by
    unfold advance
    split
    · exact Evaluation.noConfusion
    · split
      · exact Evaluation.noConfusion
      · exact Evaluation.noConfusion
      · split <;> exact Evaluation.noConfusion
  have same := congrArg Prod.snd stepped
  rintro rfl
  cases before with
  | ready formula => cases same
  | complete value => cases same
  | active stack => exact never stack same
  | left site value below =>
    cases below with
    | nil => cases same
    | cons parent rest => exact never (parent.accept value :: rest) same

end Steps

end Evaluation

/-! ## The walk so far -/

/-- The evaluation of the formula has shown these steps. -/
structure Visited (formula : Node) (steps : List Step) (evaluation : Evaluation) : Prop where
  within : evaluation.Within formula
  fresh : ∀ other, evaluation = .ready other → steps = []
  known : ∀ site ∈ entries steps, formula.at? site.path = some site.node
  once : ((entries steps).map Site.path).Nodup
  balance : (entries steps).Perm (exits steps ++ evaluation.live)
  passed : ∀ site next, (site, next) ∈ evaluation.progress → ∀ visited ∈ entries steps,
    ∀ position, site.path ++ [position] <+: visited.path → position < next

/-- A step continues the walk: what it enters is the root, at the beginning, or a
child of a node that was entered and not left, and what it leaves was entered
and not left. -/
def Step.Continues (formula : Node) (earlier : List Step) : Step → Prop
  | .enter site => (earlier = [] ∧ site = Site.root formula) ∨
      ∃ parent position, parent.child? position = some site ∧ parent ∈ entries earlier ∧
        parent.path ∉ (exits earlier).map Site.path
  | .exit site _ => site ∈ entries earlier ∧ site.path ∉ (exits earlier).map Site.path
  | .complete _ => (entries earlier).Perm (exits earlier)

namespace Visited

variable {environment : Environment} {formula : Node} {steps : List Step}
  {before next : Evaluation} {shown : Step} {error : EvalError}

theorem ready (formula : Node) : Visited formula [] (.ready formula) where
  within := Evaluation.within_ready formula
  fresh := fun _ _ => rfl
  known := fun _ member => by cases member
  once := .nil
  balance := .refl []
  passed := fun _ _ member => by cases member

/-- An active node was entered and not left. -/
theorem of_live (visited : Visited formula steps before) {site : Site} (live : site ∈ before.live) :
    site ∈ entries steps ∧ site.path ∉ (exits steps).map Site.path := by
  refine ⟨visited.balance.mem_iff.mpr (List.mem_append_right _ live), ?_⟩
  have apart : ((exits steps ++ before.live).map Site.path).Nodup :=
    (visited.balance.map Site.path).nodup_iff.mp visited.once
  rw [List.map_append] at apart
  exact fun left => (List.nodup_append.mp apart).2.2 _ left _ (List.mem_map_of_mem live) rfl

theorem live_of_progress {site : Site} {passed : Nat} {around : List (Site × Nat)}
    (innermost : before.progress = (site, passed) :: around) :
    before.live = site :: around.map Prod.fst := by
  rw [← Evaluation.map_fst_progress, innermost, List.map_cons]

/-- **A step continues the walk.** -/
theorem continues (visited : Visited formula steps before)
    (stepped : before.step environment = (.ok shown, next)) : shown.Continues formula steps := by
  cases visited.within.treads stepped with
  | begins fresh progress => exact .inl ⟨visited.fresh formula fresh, rfl⟩
  | descends innermost ahead found progress =>
    have live := live_of_progress innermost
    obtain ⟨entered, open_still⟩ := visited.of_live (live ▸ List.mem_cons_self)
    exact .inr ⟨_, _, found, entered, open_still⟩
  | ascends innermost progress =>
    have live := live_of_progress innermost
    exact visited.of_live (live ▸ List.mem_cons_self)
  | ends none_active =>
    have balance := visited.balance
    rw [← Evaluation.map_fst_progress, none_active, List.map_nil, List.append_nil] at balance
    exact balance

/-- A step that fails shows nothing and is no visit. -/
theorem fail (visited : Visited formula steps before)
    (stepped : before.step environment = (.error error, next)) : Visited formula steps next := by
  have same : next.progress = before.progress := by
    cases visited.within.treads stepped with
    | waits progress => exact progress
  have live : next.live = before.live := by
    rw [← Evaluation.map_fst_progress, same, Evaluation.map_fst_progress]
  exact
    { within := (visited.within.moves stepped).within
      fresh := fun other here => absurd here (Evaluation.ne_ready_of_step stepped other)
      known := visited.known
      once := visited.once
      balance := live ▸ visited.balance
      passed := same ▸ visited.passed }

/-- The child that is entered next was not entered before, nor anything inside it. -/
theorem not_prefix_of_ahead (visited : Visited formula steps before) {parent child : Site}
    {passed position : Nat} {around : List (Site × Nat)}
    (innermost : before.progress = (parent, passed) :: around) (ahead : passed ≤ position)
    (found : parent.child? position = some child) {visit : Site} (member : visit ∈ entries steps) :
    ¬child.path <+: visit.path := by
  intro inside
  rw [Site.path_of_child? found] at inside
  have behind : position < passed :=
    visited.passed parent passed (innermost ▸ List.mem_cons_self) visit member position inside
  omega

/-- The active nodes around an active node lie on a path. -/
theorem path_of_innermost (visited : Visited formula steps before) {site : Site} {passed : Nat}
    {around : List (Site × Nat)} (innermost : before.progress = (site, passed) :: around) :
    Site.Descends formula (site :: around.map Prod.fst) := by
  have live := live_of_progress innermost
  have path := visited.within.path
  cases before with
  | ready other => cases innermost
  | complete value => cases innermost
  | active stack => rw [← live]; exact path
  | left site value below => rw [← live]; exact path.tail

/-- After a child is entered, no active node has a visited child ahead of it. -/
theorem passed_descend (visited : Visited formula steps before) {parent child : Site}
    {passed position : Nat} {around : List (Site × Nat)}
    (innermost : before.progress = (parent, passed) :: around) (ahead : passed ≤ position)
    (found : parent.child? position = some child) {site : Site} {next index : Nat} {visit : Site}
    (member : (site, next) ∈ (child, 0) :: (parent, position + 1) :: around)
    (among : visit ∈ entries steps ++ [child]) (inside : site.path ++ [index] <+: visit.path) :
    index < next := by
  have child_path := Site.path_of_child? found
  have old_visits {site : Site} {next : Nat} (outer : (site, next) ∈ (parent, passed) :: around) :=
    visited.passed site next (innermost ▸ outer)
  rcases List.mem_append.mp among with old | new
  · -- the visits so far are those to children that were passed
    rcases List.mem_cons.mp member with same | same_or_around
    · cases same
      have below := (List.prefix_append child.path [index]).trans inside
      exact absurd below (visited.not_prefix_of_ahead innermost ahead found old)
    · rcases List.mem_cons.mp same_or_around with same | outer
      · cases same
        have behind := old_visits List.mem_cons_self visit old index inside
        omega
      · exact old_visits (List.mem_cons_of_mem _ outer) visit old index inside
  · obtain rfl := List.mem_singleton.mp new
    rcases List.mem_cons.mp member with same | same_or_around
    · cases same
      have longer := inside.length_le
      rw [List.length_append, List.length_singleton] at longer
      omega
    · rw [child_path] at inside
      rcases List.mem_cons.mp same_or_around with same | outer
      · cases same
        have last := (List.prefix_append_right_inj _).mp inside
        have same := (List.cons_prefix_cons.mp last).1
        omega
      · -- the new visit is inside the parent, which was visited before
        have shorter := (visited.path_of_innermost innermost).length_path_lt site
          (List.mem_map_of_mem (f := Prod.fst) outer)
        have parent_visit := (visited.of_live (live_of_progress innermost ▸ List.mem_cons_self)).1
        have within_parent : site.path ++ [index] <+: parent.path :=
          List.prefix_of_prefix_length_le inside (List.prefix_append _ _) (by simp; omega)
        exact old_visits (List.mem_cons_of_mem _ outer) parent parent_visit index within_parent

/-- Entering a child keeps the record of the walk. -/
theorem descend (visited : Visited formula steps before)
    (stepped : before.step environment = (.ok shown, next)) {parent child : Site}
    {passed position : Nat} {around : List (Site × Nat)} (here : shown = .enter child)
    (innermost : before.progress = (parent, passed) :: around) (ahead : passed ≤ position)
    (found : parent.child? position = some child)
    (progress : next.progress = (child, 0) :: (parent, position + 1) :: around) :
    Visited formula (steps ++ [shown]) next := by
  subst here
  have entered : entries (steps ++ [.enter child]) = entries steps ++ [child] :=
    entries_append steps _
  have left : exits (steps ++ [.enter child]) = exits steps := by
    rw [exits_append]
    exact List.append_nil _
  have live := live_of_progress innermost
  have next_live := live_of_progress progress
  rw [List.map_cons] at next_live
  have path := visited.path_of_innermost innermost
  exact
    { within := (visited.within.moves stepped).within
      fresh := fun other here => absurd here (Evaluation.ne_ready_of_step stepped other)
      known := by
        rw [entered]
        intro site member
        rcases List.mem_append.mp member with old | new
        · exact visited.known site old
        · rw [List.mem_singleton.mp new]
          exact Site.at?_of_child? found (path.at? parent List.mem_cons_self)
      once := by
        rw [entered, List.map_append]
        refine List.nodup_append.mpr ⟨visited.once, List.pairwise_singleton _ _, ?_⟩
        intro old among new here same
        obtain ⟨visit, member, rfl⟩ := List.mem_map.mp among
        rw [List.mem_singleton.mp here] at same
        exact visited.not_prefix_of_ahead innermost ahead found member (same ▸ List.prefix_refl _)
      balance := by
        rw [entered, left, next_live]
        have balance := visited.balance.append_right [child]
        rw [live, List.append_assoc] at balance
        refine balance.trans (List.Perm.append_left _ ?_)
        exact List.perm_append_comm
      passed := by
        rw [entered, progress]
        exact fun site next member visit among index inside =>
          visited.passed_descend innermost ahead found member among inside }

/-- Leaving the innermost node keeps the record of the walk. -/
theorem ascend (visited : Visited formula steps before)
    (stepped : before.step environment = (.ok shown, next)) {site : Site} {value : Value}
    {passed : Nat} {around : List (Site × Nat)} (here : shown = .exit site value)
    (innermost : before.progress = (site, passed) :: around) (progress : next.progress = around) :
    Visited formula (steps ++ [shown]) next := by
  subst here
  have entered : entries (steps ++ [.exit site value]) = entries steps := by
    rw [entries_append]
    exact List.append_nil _
  have left : exits (steps ++ [.exit site value]) = exits steps ++ [site] :=
    exits_append steps _
  have next_live : next.live = around.map Prod.fst := by
    rw [← Evaluation.map_fst_progress, progress]
  exact
    { within := (visited.within.moves stepped).within
      fresh := fun other here => absurd here (Evaluation.ne_ready_of_step stepped other)
      known := entered ▸ visited.known
      once := entered ▸ visited.once
      balance := by
        have balance := visited.balance
        rw [live_of_progress innermost] at balance
        rw [entered, left, next_live, List.append_assoc]
        exact balance
      passed := by
        rw [entered, progress]
        exact fun outer next member =>
          visited.passed outer next (innermost ▸ List.mem_cons_of_mem _ member) }

/-- The first step begins the walk at the root. -/
theorem begin (visited : Visited formula steps (.ready formula))
    (progress : next.progress = [(Site.root formula, 0)]) (within : next.Within formula)
    (behind : ∀ other, next ≠ .ready other) :
    Visited formula (steps ++ [.enter (Site.root formula)]) next := by
  obtain rfl := visited.fresh formula rfl
  have live : next.live = [Site.root formula] := live_of_progress progress
  exact
    { within
      fresh := fun other here => absurd here (behind other)
      known := fun site member => List.mem_singleton.mp member ▸ rfl
      once := List.pairwise_singleton _ _
      balance := live ▸ .refl _
      passed := by
        rw [progress]
        intro site next member visit among position inside
        cases List.mem_singleton.mp member
        rw [List.mem_singleton.mp among] at inside
        exact absurd inside.length_le (Nat.not_succ_le_zero _) }

/-- Completion is no visit. -/
theorem complete (visited : Visited formula steps before) (none_active : before.progress = [])
    (value : Value) : Visited formula (steps ++ [.complete value]) (.complete value) := by
  have live : before.live = [] := by rw [← Evaluation.map_fst_progress, none_active, List.map_nil]
  have entered : entries (steps ++ [.complete value]) = entries steps := by
    rw [entries_append]
    exact List.append_nil _
  have left : exits (steps ++ [.complete value]) = exits steps := by
    rw [exits_append]
    exact List.append_nil _
  exact
    { within := Evaluation.within_complete formula value
      fresh := fun _ here => Evaluation.noConfusion here
      known := entered ▸ visited.known
      once := entered ▸ visited.once
      balance := by
        have balance := visited.balance
        rw [live] at balance
        rw [entered, left]
        exact balance
      passed := fun _ _ member => by cases member }

/-- **A step keeps the record of the walk.** -/
theorem step (visited : Visited formula steps before)
    (stepped : before.step environment = (.ok shown, next)) :
    Visited formula (steps ++ [shown]) next := by
  have treads := visited.within.treads stepped
  cases treads with
  | begins fresh progress =>
    subst fresh
    exact visited.begin progress (visited.within.moves stepped).within
      (Evaluation.ne_ready_of_step stepped)
  | descends innermost ahead found progress =>
    exact visited.descend stepped rfl innermost ahead found progress
  | ascends innermost progress => exact visited.ascend stepped rfl innermost progress
  | ends none_active => exact visited.complete none_active _

end Visited

end FormulaStepper
