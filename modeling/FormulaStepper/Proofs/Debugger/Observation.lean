import FormulaStepper.Proofs.Debugger.History

/-!
# Sessions under arbitrary steps

A session does not trust the steps that it observes. Here they need not come from
an evaluation: any steps in any order, over any nodes, refused ones included
(`Session.observeAll`). The trace is well bracketed all the same, and the frames
keep their levels and the order of their numbers (`Session.Sound.observeAll`). The
number of a new frame is greater than all before it, so the frames are numbered
upwards from the outermost one (`CallStack.Numbered`), also where some of the
numbers in between were given out and left again.

An evaluated frame on top is dropped before a step is looked at. So a refused step
may change the stack too, but nothing else (`Session.refuses_of_error`).
-/

set_option autoImplicit false

namespace FormulaStepper

open Formula

/-! ## The numbers of frames -/

/-- The numbers of the frames increase from the outermost one, and the stack has given
them out. -/
structure CallStack.Numbered (stack : CallStack) : Prop where
  decreasing : stack.frames.Pairwise fun inner outer => outer.counter < inner.counter
  le_counter : ∀ frame ∈ stack.frames, frame.counter ≤ stack.counter

namespace CallStack

variable {stack : CallStack}

theorem dropEvaluated_suffix (stack : CallStack) : stack.dropEvaluated.frames <:+ stack.frames := by
  rw [dropEvaluated_frames]
  cases stack.frames with
  | nil => exact List.suffix_rfl
  | cons top below =>
    rw [Frame.dropEvaluated]
    split
    · exact List.suffix_cons top below
    · exact List.suffix_rfl

/-- All frames but the innermost one are left when an evaluated one is dropped. -/
theorem tail_subset_dropEvaluated (stack : CallStack) :
    stack.frames.tail ⊆ stack.dropEvaluated.frames := by
  rw [dropEvaluated_frames]
  cases stack.frames with
  | nil => exact List.Subset.refl _
  | cons top below =>
    rw [Frame.dropEvaluated]
    split
    · exact List.Subset.refl _
    · exact List.subset_cons_self top below

theorem numbered_empty : empty.Numbered :=
  ⟨List.Pairwise.nil, fun _ member => (by cases member)⟩

namespace Numbered

theorem dropEvaluated (numbered : stack.Numbered) : stack.dropEvaluated.Numbered := by
  have left := stack.dropEvaluated_suffix.sublist
  refine ⟨numbered.decreasing.sublist left, fun frame member => ?_⟩
  rw [counter_dropEvaluated]
  exact numbered.le_counter frame (left.subset member)

/-- A new frame has a greater number than any frame on the stack. -/
theorem push (numbered : stack.Numbered) (site : Site) : (stack.push site).Numbered := by
  refine ⟨List.pairwise_cons.mpr ⟨fun frame member => ?_, numbered.decreasing⟩, ?_⟩
  · exact Nat.lt_succ_of_le (numbered.le_counter frame member)
  · intro frame member
    rcases List.mem_cons.mp member with rfl | below
    · exact Nat.le_refl _
    · exact Nat.le_succ_of_le (numbered.le_counter frame below)

theorem withResult {top : Frame} {below : List Frame} {counter : Nat}
    (numbered : (⟨top :: below, counter⟩ : CallStack).Numbered) (result : Option Value) :
    (⟨{ top with result } :: below, counter⟩ : CallStack).Numbered := by
  obtain ⟨decreasing, le_counter⟩ := numbered
  rw [List.pairwise_cons] at decreasing
  rw [List.forall_mem_cons] at le_counter
  exact ⟨List.pairwise_cons.mpr decreasing, List.forall_mem_cons.mpr le_counter⟩

end Numbered

/-- Where only the innermost frame can have a value, the live depth counts those
without. -/
theorem liveDepth_eq_countP (live : ∀ frame ∈ stack.frames.tail, frame.isEvaluated = false) :
    stack.liveDepth = stack.frames.countP fun frame => !frame.isEvaluated := by
  rw [liveDepth_eq_length, dropEvaluated_frames]
  cases same : stack.frames with
  | nil => rfl
  | cons top below =>
    rw [same, List.tail_cons] at live
    have all_live : below.countP (fun frame => !frame.isEvaluated) = below.length :=
      List.countP_eq_length.mpr fun frame member => by rw [live frame member]; rfl
    rw [List.countP_cons, all_live, Frame.dropEvaluated]
    cases top.isEvaluated <;> rfl

end CallStack

/-! ## What every observation keeps -/

namespace Session

variable {before after session : Session}

/-- The trace is well bracketed and has the frames without a result as its open nodes,
and the frames have the levels of their places and increasing numbers. -/
structure Sound (session : Session) : Prop where
  recorded : session.Recorded
  levelled : session.stack.Levelled
  numbered : session.stack.Numbered

/-- A session that has seen nothing, with any breakpoints. -/
def fresh (active current : Option Breakpoint) : Session := ⟨.empty, .empty, active, current⟩

theorem sound_fresh (active current : Option Breakpoint) : (fresh active current).Sound where
  recorded := ⟨History.wellBracketed_nil, rfl, rfl⟩
  levelled := rfl
  numbered := CallStack.numbered_empty

/-- An observation keeps the numbers of the frames in order. -/
theorem Observes.numbered {answer : Except DebugError (Option Event)}
    (observes : before.Observes answer after) (numbered : before.stack.Numbered) :
    after.stack.Numbered := by
  have dropped := numbered.dropEvaluated
  cases observes with
  | enters site => exact dropped.push site
  | leaves top below value innermost =>
    have whole : before.stack.dropEvaluated =
        ⟨top :: below, before.stack.dropEvaluated.counter⟩ := by rw [← innermost]
    rw [whole] at dropped
    exact dropped.withResult (some value)
  | completes none_open => exact dropped
  | refuses error => exact dropped

/-- **Every observation keeps a session sound.** -/
theorem Sound.observe (sound : session.Sound) (step : Step) : (session.observe step).2.Sound where
  recorded := sound.recorded.observe (session.observes step)
  levelled := levelled_observe sound.levelled step
  numbered := (session.observes step).numbered sound.numbered

theorem Sound.observeAll (sound : session.Sound) (steps : List Step) :
    (session.observeAll steps).Sound := by
  induction steps generalizing session with
  | nil => exact sound
  | cons step steps ih => exact ih (sound.observe step)

/-! ## What an observation changes -/

/-- A session accepts the entry of any node, the exit of the node of its innermost
frame without a value, and completion where every frame has its value. -/
def Accepts (session : Session) : Step → Prop
  | .enter _ => True
  | .exit site _ => ∃ top, session.stack.dropEvaluated.top? = some top ∧ top.site.path = site.path
  | .complete _ => session.stack.liveDepth = 0

theorem observe_ok_iff (session : Session) (step : Step) :
    (∃ event, (session.observe step).1 = .ok event) ↔ session.Accepts step := by
  cases step with
  | enter site => exact iff_of_true ⟨_, rfl⟩ trivial
  | exit site value =>
    rcases session.observe_exit_cases site value with
      ⟨top, below, innermost, here, observed⟩ | ⟨elsewhere, error, observed⟩
    · rw [observed]
      refine iff_of_true ⟨_, rfl⟩ ⟨top, ?_, here⟩
      rw [CallStack.top?, innermost, List.head?_cons]
    · rw [observed]
      refine iff_of_false ?_ ?_
      · rintro ⟨event, same⟩
        cases same
      · rintro ⟨top, innermost, here⟩
        obtain ⟨below, frames⟩ := List.head?_eq_some_iff.mp innermost
        exact elsewhere top below frames here
  | complete value =>
    rw [Accepts, CallStack.liveDepth_eq_length, List.length_eq_zero_iff, observe]
    cases same : session.stack.dropEvaluated.frames with
    | nil =>
      simp only [CallStack.top?, same, List.head?_nil]
      exact iff_of_true ⟨_, rfl⟩ trivial
    | cons top below =>
      simp only [CallStack.top?, same, List.head?_cons]
      refine iff_of_false ?_ (List.cons_ne_nil _ _)
      rintro ⟨event, other⟩
      cases other

/-- Nothing has changed but for an evaluated frame on top, which may be gone. -/
structure Refuses (before after : Session) : Prop where
  trace : after.trace = before.trace
  counter : after.stack.counter = before.stack.counter
  active : after.active = before.active
  current : after.current = before.current
  frames : after.stack.frames = before.stack.frames ∨
    ∃ top, before.stack.frames = top :: after.stack.frames ∧ top.isEvaluated = true

theorem refuses_dropEvaluated (session : Session) : session.Refuses session.dropEvaluated where
  trace := rfl
  counter := CallStack.counter_dropEvaluated session.stack
  active := rfl
  current := rfl
  frames := by
    change session.stack.dropEvaluated.frames = _ ∨ _
    rw [dropEvaluated, CallStack.dropEvaluated_frames]
    cases session.stack.frames with
    | nil => exact .inl rfl
    | cons top below =>
      rw [Frame.dropEvaluated]
      cases evaluated : top.isEvaluated with
      | true => exact .inr ⟨top, rfl, evaluated⟩
      | false => exact .inl rfl

theorem Observes.refuses_of_error {error : DebugError}
    (observes : before.Observes (.error error) after) : before.Refuses after := by
  cases observes with
  | refuses => exact before.refuses_dropEvaluated

/-! ## The invariants -/

/-- Entries are numbered in order and no number has two results. The frames have
the levels of their places, counted from the outside, and increasing numbers; only
the innermost can have a value, so the live depth counts those without. -/
structure Consistent (session : Session) : Prop where
  entries : session.trace.history.entered.counters =
    List.range' 1 session.trace.history.entered.length
  one_result : ∀ counter, session.trace.history.results.counters.count counter ≤ 1
  level : ∀ place (frame : Frame), session.stack.outermostFirst[place]? = some frame →
    frame.level = place
  increasing : (session.stack.outermostFirst.map Frame.counter).Pairwise (· < ·)
  live : ∀ frame ∈ session.stack.frames.tail, frame.isEvaluated = false
  liveDepth : session.stack.liveDepth =
    session.stack.frames.countP fun frame => !frame.isEvaluated

/-- Only the innermost frame can have a value. -/
theorem Sound.live (sound : session.Sound) :
    ∀ frame ∈ session.stack.frames.tail, frame.isEvaluated = false := fun frame member =>
  sound.recorded.unevaluated frame (session.stack.tail_subset_dropEvaluated member)

theorem Sound.consistent (sound : session.Sound) : session.Consistent where
  entries := sound.recorded.bracketed.counters_entered
  one_result := List.nodup_iff_count_le_one.mp sound.recorded.bracketed.nodup_counters_results
  level place frame found := sound.levelled.level_eq found
  increasing := by
    rw [CallStack.outermostFirst, List.map_reverse, List.pairwise_reverse, List.pairwise_map]
    exact sound.numbered.decreasing
  live := sound.live
  liveDepth := CallStack.liveDepth_eq_countP sound.live

/-- **A session stays consistent whatever it observes.** After any steps in any order
its trace and its stack are consistent, and whatever comes after only adds to the
trace. A step is refused exactly where the session does not accept it, and then the
trace, the numbers and the breakpoints stay as they are, and the stack but for an
evaluated frame on top. -/
theorem consistent_after_observations (active current : Option Breakpoint) (steps : List Step) :
    let session := (fresh active current).observeAll steps
    session.Consistent ∧
    (∀ later, ∃ added, (session.observeAll later).trace.history =
      session.trace.history ++ added ∧ added.length ≤ later.length) ∧
    ∀ step, ((∃ event, (session.observe step).1 = .ok event) ↔ session.Accepts step) ∧
      ∀ error, (session.observe step).1 = .error error →
        session.Refuses (session.observe step).2 := by
  intro session
  have sound : session.Sound := (sound_fresh active current).observeAll steps
  refine ⟨sound.consistent, session.exists_added_observeAll, fun step => ?_⟩
  refine ⟨session.observe_ok_iff step, fun error refused => ?_⟩
  have observes := session.observes step
  rw [refused] at observes
  exact observes.refuses_of_error

/-- A node that is left twice has no frame the second time. The exit is refused, and
the frame of the first is gone. -/
theorem second_exit_is_refused :
    let site := Site.root Debugger.negatedSum
    let session := (fresh none none).observeAll [.enter site, .exit site (.int 1)]
    let second := session.observe (.exit site (.int 1))
    second.1 = .error .stackUnderflow ∧ session.Refuses second.2 ∧
      session.stack.depth = 1 ∧ second.2.stack.depth = 0 := by
  intro site session second
  have underflow : second.1 = .error .stackUnderflow := rfl
  obtain ⟨-, -, steps⟩ := consistent_after_observations none none [.enter site, .exit site (.int 1)]
  exact ⟨underflow, (steps (.exit site (.int 1))).2 _ underflow, rfl, rfl⟩

end Session

end FormulaStepper
