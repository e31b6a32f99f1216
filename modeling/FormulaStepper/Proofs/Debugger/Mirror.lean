import FormulaStepper.Debugger.Session
import FormulaStepper.Proofs.Evaluation.Nesting

/-!
# The call stack mirrors the evaluation

The machine and the session keep separate stacks. A node that was left stays on
both until the next step begins, but the machine hands its value over inside
the step, and the session drops its frame only when it observes the step. The
two stacks agree again after every step that succeeds (`Mirrors.observe`), so
the session never refuses a step of the evaluation that it follows, and its
frames form a path in the formula, as the nodes under evaluation do
(`CallStack.IsPath`).
-/

set_option autoImplicit false

namespace FormulaStepper

open Formula

/-! ## The frames of a session -/

/-- The node of a frame, with its value if it has one. -/
def Frame.shown (frame : Frame) : Site × Option Value :=
  (frame.site, frame.result)

/-- The frames of the session stand for the nodes of the evaluation, in order,
and hold the same values. -/
def Mirrors (evaluation : Evaluation) (session : Session) : Prop :=
  session.stack.frames.map Frame.shown = evaluation.nodes

section Frames

variable {formula : Node} {before next : Evaluation} {session : Session} {stack : CallStack}

theorem mirrors_empty (formula : Node) : Mirrors (.ready formula) .empty := rfl

/-- The session without an evaluated frame on top. -/
def Session.dropEvaluated (session : Session) : Session :=
  { session with stack := session.stack.dropEvaluated }

/-- What observing the exit of a node can do: the frame of the node, on top
once an evaluated one is dropped, gets the value, or the step is refused. -/
theorem Session.observe_exit_cases (session : Session) (site : Site) (value : Value) :
    (∃ top below, session.stack.dropEvaluated.frames = top :: below ∧
      top.site.path = site.path ∧
      session.observe (.exit site value) =
        (.ok (some ⟨.exit, below.length + 1⟩),
          { session with
            stack := ⟨{ top with result := some value } :: below,
              session.stack.dropEvaluated.counter⟩
            trace := session.trace.recordResult top value })) ∨
    (∀ top below, session.stack.dropEvaluated.frames = top :: below →
        top.site.path ≠ site.path) ∧
      ∃ error, session.observe (.exit site value) = (.error error, session.dropEvaluated) := by
  simp only [observe, exit, Session.dropEvaluated]
  cases session.stack.dropEvaluated.frames with
  | nil => exact .inr ⟨fun _ _ same => (by cases same), _, rfl⟩
  | cons top below =>
    by_cases here : top.site.path = site.path
    · simp only [if_pos here]
      exact .inl ⟨top, below, rfl, here, rfl⟩
    · simp only [if_neg here]
      refine .inr ⟨fun other rest same => ?_, _, rfl⟩
      cases same
      exact here

/-- Where the innermost frame without a result is that of the node, its exit is
observed. -/
theorem Session.observe_exit_of_shown {site : Site} {rest : List (Site × Option Value)}
    (session : Session) (value : Value)
    (innermost : session.stack.dropEvaluated.frames.map Frame.shown = (site, none) :: rest) :
    ∃ top below, top.site = site ∧ below.map Frame.shown = rest ∧
      session.observe (.exit site value) =
        (.ok (some ⟨.exit, below.length + 1⟩),
          { session with
            stack := ⟨{ top with result := some value } :: below,
              session.stack.dropEvaluated.counter⟩
            trace := session.trace.recordResult top value }) := by
  obtain ⟨top, below, same, shown, others⟩ := List.map_eq_cons_iff.mp innermost
  have same_site : top.site = site := congrArg Prod.fst shown
  rcases session.observe_exit_cases site value with
    ⟨other, rest, same', -, observed⟩ | ⟨elsewhere, -⟩
  · obtain ⟨rfl, rfl⟩ := List.cons.inj (same.symm.trans same')
    exact ⟨top, below, same_site, others, observed⟩
  · exact absurd (congrArg Site.path same_site) (elsewhere top below same)

/-- Where no frame has a result, none is dropped. -/
theorem CallStack.dropEvaluated_of_live {sites : List Site}
    (live : stack.frames.map Frame.shown = sites.map fun site => (site, none)) :
    stack.dropEvaluated = stack := by
  unfold dropEvaluated
  split
  · rfl
  · next top below same =>
    rw [same] at live
    cases sites with
    | nil => cases live
    | cons site sites =>
      have unevaluated : top.result = none := congrArg Prod.snd (List.cons.inj live).1
      rw [Frame.isEvaluated, unevaluated]
      rfl

/-- A frame with a result on top is dropped. -/
theorem CallStack.frames_dropEvaluated {site : Site} {value : Value}
    {around : List (Site × Option Value)}
    (left : stack.frames.map Frame.shown = (site, some value) :: around) :
    stack.dropEvaluated.frames.map Frame.shown = around := by
  unfold dropEvaluated
  split
  · next same => rw [same] at left; cases left
  · next top below same =>
    rw [same] at left
    have evaluated : top.result = some value := congrArg Prod.snd (List.cons.inj left).1
    rw [Frame.isEvaluated, evaluated]
    exact (List.cons.inj left).2

/-- Once the evaluated frame is dropped, the frames are those of the active nodes. -/
theorem Mirrors.dropEvaluated (mirrors : Mirrors before session) :
    session.stack.dropEvaluated.frames.map Frame.shown =
      before.live.map fun site => (site, none) := by
  cases before with
  | ready formula => rw [CallStack.dropEvaluated_of_live mirrors]; exact mirrors
  | active stack => rw [CallStack.dropEvaluated_of_live mirrors]; exact mirrors
  | complete value => rw [CallStack.dropEvaluated_of_live mirrors]; exact mirrors
  | left site value below => exact CallStack.frames_dropEvaluated mirrors

/-- **The session accepts every step of the evaluation that it mirrors, and
mirrors the evaluation after it.** There is an event unless the step shows
completion. -/
theorem Mirrors.observe {step : Step} (mirrors : Mirrors before session)
    (moves : before.Moves formula (.ok step) next) :
    ∃ event after, session.observe step = (.ok event, after) ∧
      event.isSome = step.showsNode ∧ Mirrors next after := by
  have dropped := mirrors.dropEvaluated
  cases moves with
  | enters within nodes =>
    refine ⟨_, _, rfl, rfl, ?_⟩
    rw [Mirrors, nodes, ← dropped]
    rfl
  | @leaves site value around next within innermost nodes =>
    rw [innermost] at dropped
    obtain ⟨top, below, same_site, others, observed⟩ :=
      session.observe_exit_of_shown value dropped
    refine ⟨_, _, observed, rfl, ?_⟩
    rw [Mirrors, nodes, ← same_site, ← others]
    rfl
  | completes within none_live nodes =>
    rw [none_live] at dropped
    have no_frames : session.stack.dropEvaluated.frames = [] := List.map_eq_nil_iff.mp dropped
    simp only [Session.observe, CallStack.top?, no_frames, List.head?_nil]
    refine ⟨_, _, rfl, rfl, ?_⟩
    rw [Mirrors, nodes, no_frames]
    rfl

/-! ## Levels -/

/-- The frames are numbered by their place from the outside. -/
def CallStack.Levelled (stack : CallStack) : Prop :=
  stack.outermostFirst.map Frame.level = List.range stack.depth

theorem CallStack.levelled_cons {top : Frame} {below : List Frame} {counter : Nat} :
    (⟨top :: below, counter⟩ : CallStack).Levelled ↔
      top.level = below.length ∧ (⟨below, counter⟩ : CallStack).Levelled := by
  simp only [Levelled, outermostFirst, depth, List.reverse_cons, List.map_append, List.map_cons,
    List.map_nil, List.length_cons, List.range_succ]
  constructor
  · intro same
    have parts := List.append_inj' same rfl
    exact ⟨(List.cons.inj parts.2).1, parts.1⟩
  · rintro ⟨level, levels⟩
    rw [level, levels]

/-- A frame has the number of its place, from the outside, as its level. -/
theorem CallStack.Levelled.level_eq (levelled : stack.Levelled) {place : Nat} {frame : Frame}
    (found : stack.outermostFirst[place]? = some frame) : frame.level = place := by
  have numbered : (stack.outermostFirst.map Frame.level)[place]? = some frame.level := by
    rw [List.getElem?_map, found]
    rfl
  rw [levelled] at numbered
  obtain ⟨inside, same⟩ := List.getElem?_eq_some_iff.mp numbered
  rw [← same, List.getElem_range]

theorem CallStack.Levelled.dropEvaluated (levelled : stack.Levelled) :
    stack.dropEvaluated.Levelled := by
  unfold CallStack.dropEvaluated
  obtain ⟨frames, counter⟩ := stack
  cases frames with
  | nil => exact levelled
  | cons top below =>
    by_cases evaluated : top.isEvaluated = true
    · simp only [if_pos evaluated]
      exact (levelled_cons.mp levelled).2
    · simp only [if_neg evaluated]
      exact levelled

theorem CallStack.Levelled.push (levelled : stack.Levelled) (site : Site) :
    (stack.push site).Levelled :=
  levelled_cons.mpr ⟨rfl, levelled⟩

theorem CallStack.Levelled.withResult {top : Frame} {below : List Frame} {counter : Nat}
    (levelled : (⟨top :: below, counter⟩ : CallStack).Levelled) (result : Option Value) :
    (⟨{ top with result } :: below, counter⟩ : CallStack).Levelled := by
  obtain ⟨level, levels⟩ := levelled_cons.mp levelled
  exact levelled_cons.mpr ⟨level, levels⟩

/-- Observing a step leaves the frames numbered. -/
theorem Session.levelled_observe (levelled : session.stack.Levelled) (step : Step) :
    (session.observe step).2.stack.Levelled := by
  have dropped := levelled.dropEvaluated
  cases step with
  | enter site => exact dropped.push site
  | exit site value =>
    rcases session.observe_exit_cases site value with
      ⟨top, below, same, -, observed⟩ | ⟨-, error, observed⟩
    · have whole : session.stack.dropEvaluated =
          ⟨top :: below, session.stack.dropEvaluated.counter⟩ := by rw [← same]
      rw [whole] at dropped
      rw [observed]
      exact dropped.withResult (some value)
    · rw [observed]
      exact dropped
  | complete value =>
    simp only [observe]
    split <;> exact dropped

end Frames

/-! ## The frames as a path -/

/-- The frames lie on a path of the formula: the outermost one stands for the
root, every other for a child of the node of the frame around it, and each has
the level of its place. -/
structure CallStack.IsPath (formula : Node) (stack : CallStack) : Prop where
  root : ∀ frame : Frame, stack.outermostFirst[0]? = some frame → frame.site = Site.root formula
  child : ∀ place (outer inner : Frame), stack.outermostFirst[place]? = some outer →
    stack.outermostFirst[place + 1]? = some inner →
    ∃ position, outer.site.child? position = some inner.site
  level : ∀ place (frame : Frame), stack.outermostFirst[place]? = some frame →
    frame.level = place
  depth : stack.depth ≤ formula.height

theorem CallStack.descends_of_mirrors {formula : Node} {evaluation : Evaluation}
    {session : Session} (within : evaluation.Within formula)
    (mirrors : Mirrors evaluation session) :
    Site.Descends formula (session.stack.frames.map Frame.site) := by
  have sites : session.stack.frames.map Frame.site = evaluation.sites := by
    rw [← evaluation.map_fst_nodes, ← mirrors, List.map_map]
    rfl
  rw [sites]
  exact within.path

/-- **Frames that mirror an evaluation of the formula form a path in it.** -/
theorem CallStack.isPath_of_mirrors {formula : Node} {evaluation : Evaluation}
    {session : Session} (within : evaluation.Within formula)
    (mirrors : Mirrors evaluation session) (levelled : session.stack.Levelled) :
    session.stack.IsPath formula := by
  have path := descends_of_mirrors within mirrors
  constructor
  · intro frame outermost
    have last : session.stack.frames.getLast? = some frame := by
      rw [← List.head?_reverse, List.head?_eq_getElem?]
      exact outermost
    refine path.getLast? frame.site ?_
    rw [List.getLast?_map, last]
    rfl
  · intro place outer inner found_outer found_inner
    have chain : (session.stack.outermostFirst.map Frame.site).IsChain
        fun parent child => ∃ position, parent.child? position = some child := by
      rw [outermostFirst, List.map_reverse, List.isChain_reverse]
      exact path.isChain
    obtain ⟨inside, rfl⟩ := List.getElem?_eq_some_iff.mp found_inner
    obtain ⟨-, rfl⟩ := List.getElem?_eq_some_iff.mp found_outer
    have next := List.isChain_iff_getElem.mp chain place (by rwa [List.length_map])
    rwa [List.getElem_map, List.getElem_map] at next
  · exact fun place frame found => levelled.level_eq found
  · rw [depth, ← List.length_map Frame.site]
    exact path.length_le_height

end FormulaStepper
