import FormulaStepper.Proofs.Debugger.Passage

/-!
# Several formulas in one session

A session can observe one evaluation after another. An evaluation that comes to
its value takes its frames off the stack again. One that fails leaves the frames of
the nodes that were active, and nothing removes them: a later evaluation opens
its frames above them, and is observed as if they were not there
(`Session.Holds.observe`), but at completion it finds a stack that is not empty.

So up to and including the first formula that fails, the session reports what
each formula comes to. After that it does so only for formulas that fail. The
value of any other is lost to a frame mismatch, which names the node that the
last failure was in (`Session.reports_in_turn`).
-/

set_option autoImplicit false

namespace FormulaStepper

open Formula

variable {environment : Environment} {formula : Node}

namespace Session

variable {session : Session} {sites around : List Site}

/-- Once an evaluated frame on top is dropped, the frames are those of these
nodes, innermost first, and none has a result. -/
def Holds (session : Session) (sites : List Site) : Prop :=
  session.stack.dropEvaluated.frames.map Frame.shown = sites.map fun site => (site, none)

theorem holds_empty : empty.Holds [] := rfl

theorem holds_of_frames
    (frames : session.stack.frames.map Frame.shown = sites.map fun site => (site, none)) :
    session.Holds sites := by
  rw [Holds, CallStack.dropEvaluated_of_live frames]
  exact frames

namespace Holds

theorem dropEvaluated (holds : session.Holds sites) : session.dropEvaluated.Holds sites :=
  holds_of_frames holds

/-- A step that shows a node is observed, whatever the frames around are. -/
theorem observe {before next : Evaluation} {step : Step}
    (holds : session.Holds (before.live ++ around))
    (moves : before.Moves formula (.ok step) next) (node : step.showsNode = true) :
    ∃ event after, session.observe step = (.ok event, after) ∧
      after.Holds (next.live ++ around) := by
  cases moves with
  | enters within nodes =>
    refine ⟨_, _, rfl, holds_of_frames ?_⟩
    rw [Evaluation.live_of_entered nodes, List.cons_append, List.map_cons, ← holds]
    rfl
  | @leaves site value rest next within innermost nodes =>
    rw [innermost, List.cons_append] at holds
    obtain ⟨top, below, -, others, observed⟩ := session.observe_exit_of_shown value holds
    refine ⟨_, _, observed, ?_⟩
    rw [Evaluation.live_of_left nodes, Holds, ← others]
    rfl
  | completes within none_live nodes => cases node

/-- Completion is accepted where no frame is left. -/
theorem observe_complete_of_nil (holds : session.Holds []) (value : Value) :
    session.observe (.complete value) = (.ok none, session.dropEvaluated) := by
  have none_left : session.stack.dropEvaluated.frames = [] := List.map_eq_nil_iff.mp holds
  simp only [Session.observe, CallStack.top?, none_left, List.head?_nil]
  rfl

/-- Completion is refused where a frame is left, and the frames stay. -/
theorem observe_complete_of_cons {site : Site} (holds : session.Holds (site :: sites))
    (value : Value) :
    session.observe (.complete value) =
      (.error (.frameMismatch emptyStackName site.node.name), session.dropEvaluated) := by
  obtain ⟨top, below, same, shown, -⟩ := List.map_eq_cons_iff.mp holds
  have same_site : top.site = site := congrArg Prod.fst shown
  simp only [Session.observe, CallStack.top?, same, List.head?_cons, Frame.name, same_site]
  rfl

end Holds

/-! ## One formula -/

theorem watch_of_refused {evaluation next : Evaluation} {value : Value} {error : DebugError}
    {after : Session} (stepped : evaluation.step environment = (.ok (.complete value), next))
    (observed : session.observe (.complete value) = (.error error, after)) :
    session.watch environment evaluation = (.error error, after) := by
  rw [watch]
  split <;> simp_all

/-- What a session reports on a formula with this outcome, and what it holds after
that, if it held the nodes around before. -/
inductive Reports (environment : Environment) (formula : Node) (around : List Site) :
    Except EvalError Value → Except DebugError Value × Session → Prop where
  | value {value : Value} {after : Session} (none_around : around = [])
      (holds : after.Holds around) :
      Reports environment formula around (.ok value) (.ok value, after)
  | refused {value : Value} {after : Session} {site : Site} {further : List Site}
      (still_around : around = site :: further) (holds : after.Holds around) :
      Reports environment formula around (.ok value)
        (.error (.frameMismatch emptyStackName site.node.name), after)
  | fails {error : EvalError} {after : Session} {site : Site} {above : List Site}
      (path : Site.Descends formula (site :: above))
      (own : ∀ node ∈ site :: above, node.node.evaluate environment = .error error)
      (holds : after.Holds (site :: above ++ around)) :
      Reports environment formula around (.error error) (.error (.evaluation error), after)

/-- Where a step of an evaluation fails, its active nodes stay behind. They all
fail with the same error. -/
theorem Holds.reports_error {evaluation next : Evaluation} {error : EvalError}
    (holds : session.Holds (evaluation.live ++ around)) (within : evaluation.Within formula)
    (truthful : evaluation.Truthful environment)
    (stepped : evaluation.step environment = (.error error, next)) :
    Reports environment formula around (.error error) (.error (.evaluation error), session) := by
  have own := truthful.error_of_live within stepped
  have path := (within.moves stepped).within.path
  rw [← Evaluation.live_of_error stepped] at holds own
  have shows_truth := truthful.step within.active stepped
  cases shows_truth with
  | @fails _ top below _ _ => exact .fails path own holds

/-- **An evaluation is observed to its end above the frames that were left
before it.** By induction on the steps: each one that shows a node is observed. -/
theorem Holds.reports {evaluation : Evaluation}
    (holds : session.Holds (evaluation.live ++ around)) (within : evaluation.Within formula)
    (truthful : evaluation.Truthful environment) :
    Reports environment formula around (evaluation.transcript environment).outcome
      (session.watch environment evaluation) := by
  induction evaluation using Evaluation.step_induction environment generalizing session with
  | fails before next error stepped =>
    rw [Evaluation.transcript_of_error stepped, watch_of_error stepped]
    exact holds.reports_error within truthful stepped
  | completes before next value stepped =>
    have moves := within.moves stepped
    cases moves with
    | completes _ none_live _ =>
      rw [none_live, List.nil_append] at holds
      rw [Evaluation.transcript_of_complete stepped]
      cases around with
      | nil =>
        rw [watch_of_complete stepped (holds.observe_complete_of_nil value)]
        exact .value rfl holds.dropEvaluated
      | cons site further =>
        rw [watch_of_refused stepped (holds.observe_complete_of_cons value)]
        exact .refused rfl holds.dropEvaluated
  | shows before next shown stepped node ih =>
    obtain ⟨event, after, observed, holds_next⟩ := holds.observe (within.moves stepped) node
    rw [Evaluation.transcript_of_shown stepped node, Account.outcome_shows,
      watch_of_shown stepped node observed]
    exact ih holds_next (within.moves stepped).within
      (truthful.step within.active stepped).truthful

/-- What a session that holds nodes reports on another formula. -/
theorem Holds.reports_evaluateTraced (holds : session.Holds around) (environment : Environment)
    (formula : Node) :
    Reports environment formula around (formula.evaluate environment)
      (formula.evaluateTraced environment session) := by
  rw [Node.evaluate_eq_transcript]
  exact holds.reports (Evaluation.within_ready formula) trivial

/-! ## Several formulas -/

/-- The session after it has observed formulas one after the other. -/
def evaluateAll (environment : Environment) (session : Session) (formulas : List Node) : Session :=
  formulas.foldl (fun session formula => (formula.evaluateTraced environment session).2) session

/-- The nodes that formulas leave behind, one after the other. -/
inductive Leaves (environment : Environment) : List Node → List Site → Prop where
  | none : Leaves environment [] []
  | value {formulas : List Node} {sites : List Site} {formula : Node} {value : Value}
      (before : Leaves environment formulas sites)
      (own : formula.evaluate environment = .ok value) :
      Leaves environment (formulas ++ [formula]) sites
  | fails {formulas : List Node} {sites : List Site} {formula : Node} {error : EvalError}
      {site : Site} {above : List Site} (before : Leaves environment formulas sites)
      (failed : formula.evaluate environment = .error error)
      (path : Site.Descends formula (site :: above))
      (own : ∀ node ∈ site :: above, node.node.evaluate environment = .error error) :
      Leaves environment (formulas ++ [formula]) (site :: above ++ sites)

/-- A session holds what the formulas that it has observed leave behind. -/
theorem exists_leaves (environment : Environment) (formulas : List Node) :
    ∃ sites, Leaves environment formulas sites ∧
      (empty.evaluateAll environment formulas).Holds sites := by
  induction formulas using List.reverseRecOn with
  | nil => exact ⟨[], .none, holds_empty⟩
  | append_singleton formulas formula ih =>
    obtain ⟨sites, leaves, holds⟩ := ih
    have last : empty.evaluateAll environment (formulas ++ [formula]) =
        (formula.evaluateTraced environment (empty.evaluateAll environment formulas)).2 :=
      List.foldl_append
    have reports := holds.reports_evaluateTraced environment formula
    rw [last]
    generalize formula.evaluateTraced environment (empty.evaluateAll environment formulas) =
      answer at reports
    generalize own : formula.evaluate environment = outcome at reports
    cases reports with
    | value none_around holds => exact ⟨sites, leaves.value own, holds⟩
    | refused still_around holds => exact ⟨sites, leaves.value own, holds⟩
    | fails path inside holds => exact ⟨_, leaves.fails own path inside, holds⟩

namespace Leaves

variable {formulas : List Node}

/-- Nothing is left behind if every formula has a value, and only then. -/
theorem eq_nil_iff (leaves : Leaves environment formulas sites) :
    sites = [] ↔ ∀ other ∈ formulas, ∃ value, other.evaluate environment = .ok value := by
  induction leaves with
  | none => simp
  | value before own ih =>
    rw [ih, List.forall_mem_append, List.forall_mem_singleton]
    exact (and_iff_left ⟨_, own⟩).symm
  | @fails formulas sites formula error site above before failed path own ih =>
    refine ⟨fun none_left => (by cases none_left), fun valued => ?_⟩
    obtain ⟨value, own⟩ := valued formula (List.mem_append_right _ List.mem_cons_self)
    cases failed.symm.trans own

/-- The innermost node that was left behind is one that the last failure was in. -/
theorem exists_failed {site : Site} {further : List Site}
    (leaves : Leaves environment formulas (site :: further)) :
    ∃ before failed after error above, formulas = before ++ failed :: after ∧
      failed.evaluate environment = .error error ∧
      (∀ other ∈ after, ∃ value, other.evaluate environment = .ok value) ∧
      Site.Descends failed (site :: above) ∧ site.node.evaluate environment = .error error := by
  generalize same : site :: further = left at leaves
  induction leaves with
  | none => cases same
  | @value formulas sites formula value before own ih =>
    obtain ⟨first, failed, after, error, above, rfl, why, valued, inside⟩ := ih same
    refine ⟨first, failed, after ++ [formula], error, above, ?_, why, ?_, inside⟩
    · rw [List.append_assoc, List.cons_append]
    · rw [List.forall_mem_append, List.forall_mem_singleton]
      exact ⟨valued, value, own⟩
  | @fails formulas sites formula error site above before failed path own ih =>
    cases same
    exact ⟨formulas, formula, [], error, above, rfl, failed, fun _ member => (by cases member),
      path, own site List.mem_cons_self⟩

end Leaves

/-- **What a session reports on formulas in turn.** It reports what a formula
comes to if the formula fails or no formula before it has failed, and only then.
Otherwise the value is lost: the report is that the stack is out of sync, and the
node it names is that of the innermost frame of the last formula that failed, a
node that fails with the error of that formula. -/
theorem reports_in_turn (environment : Environment) (earlier : List Node) (formula : Node) :
    let report := (formula.evaluateTraced environment
      (empty.evaluateAll environment earlier)).1
    (report = (formula.evaluate environment).mapError .evaluation ↔
      (∃ error, formula.evaluate environment = .error error) ∨
        ∀ other ∈ earlier, ∃ value, other.evaluate environment = .ok value) ∧
    (report ≠ (formula.evaluate environment).mapError .evaluation →
      ∃ before failed after error site above, earlier = before ++ failed :: after ∧
        failed.evaluate environment = .error error ∧
        (∀ other ∈ after, ∃ value, other.evaluate environment = .ok value) ∧
        Site.Descends failed (site :: above) ∧ site.node.evaluate environment = .error error ∧
        report = .error (.frameMismatch emptyStackName site.node.name)) := by
  obtain ⟨sites, leaves, holds⟩ := exists_leaves environment earlier
  have reports := holds.reports_evaluateTraced environment formula
  generalize formula.evaluateTraced environment (empty.evaluateAll environment earlier) =
    answer at reports
  generalize formula.evaluate environment = outcome at reports
  cases reports with
  | value none_around _ =>
    exact ⟨iff_of_true rfl (.inr (leaves.eq_nil_iff.mp none_around)), fun lost => absurd rfl lost⟩
  | fails _ _ _ =>
    exact ⟨iff_of_true rfl (.inl ⟨_, rfl⟩), fun lost => absurd rfl lost⟩
  | @refused value after site further still_around _ =>
    subst still_around
    refine ⟨iff_of_false (fun same => by cases same) ?_, fun _ => ?_⟩
    · rintro (⟨error, failed⟩ | valued)
      · cases failed
      · cases leaves.eq_nil_iff.mpr valued
    · obtain ⟨before, failed, after, error, above, split, why, valued, path, inside⟩ :=
        leaves.exists_failed
      exact ⟨before, failed, after, error, site, above, split, why, valued, path, inside, rfl⟩

/-- The formula `x`. -/
def unsetName : Node :=
  .over "x".toList (.identifier "x") [] ⟨0, 1⟩

/-- The formula `1`. -/
def literalOne : Node :=
  .over "1".toList (.integer 1) [] ⟨0, 1⟩

/-- The formula `1` has its value under all variables, but a session that has
observed the failure of `x` does not report it. -/
theorem literalOne_after_unsetName :
    let environment : Environment := fun _ => none
    let report := (literalOne.evaluateTraced environment
      (empty.evaluateAll environment [unsetName])).1
    parse "x" = .ok unsetName ∧ parse "1" = .ok literalOne ∧
      unsetName.evaluate environment = .error (.undefinedVariable "x") ∧
      literalOne.evaluate environment = .ok (.int 1) ∧
      report = .error (.frameMismatch emptyStackName "x") ∧
      report ≠ (literalOne.evaluate environment).mapError .evaluation := by
  intro environment report
  have lost : report = .error (.frameMismatch emptyStackName "x") := by with_unfolding_all rfl
  have value : literalOne.evaluate environment = .ok (.int 1) := by with_unfolding_all rfl
  refine ⟨by with_unfolding_all rfl, by with_unfolding_all rfl, by with_unfolding_all rfl, value,
    lost, ?_⟩
  rw [lost, value]
  exact fun same => by cases same

end Session

end FormulaStepper
