import Mathlib.Data.List.Nodup
import FormulaStepper.Proofs.Debugger.Commands

/-!
# The trace as a history

A trace lists entries and results. It is well bracketed: entries are numbered
in order, the level of an entry is the number of nodes that are open at that
time, and a result belongs to the node that was opened last among those still
open (`History.WellBracketed`). So every number has one entry and at most one
result (`History.WellBracketed.count_counters`).

A session keeps its trace well bracketed whatever steps it observes, refused
ones included, and the open nodes of the trace are its frames without a result
(`Session.Recorded`). While a debugger has not finished, its stack is what is
left when the trace is replayed. In a replay, as in a session, an evaluated
frame on top is dropped at the next record of either kind; if a result were to
leave it there, it would be taken for the frame that the result belongs to
(`Debugger.replayKeeping_ne_frames`).
-/

set_option autoImplicit false

namespace FormulaStepper

open Formula

/-- The frames without an innermost one that is evaluated. -/
def Frame.dropEvaluated : List Frame → List Frame
  | [] => []
  | top :: below => if top.isEvaluated then below else top :: below

theorem CallStack.dropEvaluated_frames (stack : CallStack) :
    stack.dropEvaluated.frames = Frame.dropEvaluated stack.frames := by
  obtain ⟨frames, counter⟩ := stack
  cases frames with
  | nil => rfl
  | cons top below => cases evaluated : top.isEvaluated <;> simp [dropEvaluated,
      Frame.dropEvaluated, evaluated]

theorem CallStack.counter_dropEvaluated (stack : CallStack) :
    stack.dropEvaluated.counter = stack.counter := by
  obtain ⟨frames, counter⟩ := stack
  cases frames with
  | nil => rfl
  | cons top below => cases evaluated : top.isEvaluated <;> simp [dropEvaluated, evaluated]

theorem CallStack.dropEvaluated_of_unevaluated {stack : CallStack}
    (unevaluated : ∀ frame ∈ stack.frames, frame.isEvaluated = false) :
    stack.dropEvaluated = stack := by
  obtain ⟨frames, counter⟩ := stack
  cases frames with
  | nil => rfl
  | cons top below => simp [dropEvaluated, unevaluated top List.mem_cons_self]

/-- The live depth is the number of frames that are left when an evaluated one is
dropped. -/
theorem CallStack.liveDepth_eq_length (stack : CallStack) :
    stack.liveDepth = stack.dropEvaluated.frames.length := by
  obtain ⟨frames, counter⟩ := stack
  cases frames with
  | nil => rfl
  | cons top below =>
    rw [dropEvaluated_frames]
    simp only [liveDepth, Frame.dropEvaluated]
    cases top.isEvaluated <;> rfl

/-- Frames as they were recorded: an entry has no result. -/
abbrev History := List Frame

/-- What a trace has recorded. -/
def Trace.history (trace : Trace) : History :=
  trace.entries.toList

theorem Trace.history_recordEnter (trace : Trace) (frame : Frame) :
    (trace.recordEnter frame).history = trace.history ++ [{ frame with result := none }] :=
  trace.toList_recordEnter frame

theorem Trace.history_recordResult (trace : Trace) (frame : Frame) (value : Value) :
    (trace.recordResult frame value).history =
      trace.history ++ [{ frame with result := some value }] :=
  trace.toList_recordResult frame value

namespace History

/-- The entries. -/
def entered (history : History) : History :=
  history.filter fun record => !record.isEvaluated

/-- The results. -/
def results (history : History) : History :=
  history.filter fun record => record.isEvaluated

/-- The numbers of the records. -/
def counters (history : History) : List Nat :=
  history.map Frame.counter

/-- The entries of the nodes that are open, in the order in which they were
opened: there is no result for them. -/
def opened (history : History) : History :=
  history.entered.filter fun record => record.counter ∉ history.results.counters

/-- What the next record may be: an entry with the next number and with the
number of open nodes as its level, or a result of the node opened last. -/
inductive Extends (history : History) (record : Frame) : Prop where
  | enters (new : record.isEvaluated = false)
      (counter : record.counter = history.entered.length + 1)
      (level : record.level = history.opened.length)
  | closes (done : record.isEvaluated = true) (entry : Frame)
      (innermost : history.opened.getLast? = some entry)
      (counter : entry.counter = record.counter) (site : entry.site = record.site)
      (level : entry.level = record.level)

/-- Every record is one that may come after those before it. -/
def WellBracketed (history : History) : Prop :=
  ∀ earlier record later, history = earlier ++ record :: later → Extends earlier record

/-- The frames after one more record: an evaluated one on top is dropped, and
then an entry is pushed, or the frame on top marked with the result. -/
def replayRecord (frames : List Frame) (record : Frame) : List Frame :=
  match record.result, Frame.dropEvaluated frames with
  | none, frames => record :: frames
  | some _, [] => []
  | some value, top :: below => { top with result := some value } :: below

/-- The frames that are left when the records are replayed. -/
def replay (history : History) : List Frame :=
  history.foldl replayRecord []

/-- The frames after one more record, if only an entry dropped an evaluated
frame on top, and a result marked whichever frame is there. -/
def replayRecordKeeping (frames : List Frame) (record : Frame) : List Frame :=
  match record.result, frames with
  | none, frames => record :: Frame.dropEvaluated frames
  | some _, [] => []
  | some value, top :: below => { top with result := some value } :: below

/-- What such a replay would leave. -/
def replayKeeping (history : History) : List Frame :=
  history.foldl replayRecordKeeping []

variable {history : History} {record : Frame}

theorem entered_append (first second : History) :
    entered (first ++ second) = first.entered ++ second.entered :=
  List.filter_append first second

theorem results_append (first second : History) :
    results (first ++ second) = first.results ++ second.results :=
  List.filter_append first second

theorem counters_append (first second : History) :
    counters (first ++ second) = first.counters ++ second.counters :=
  List.map_append

theorem replay_append_singleton (history : History) (record : Frame) :
    replay (history ++ [record]) = replayRecord history.replay record :=
  List.foldl_append

theorem entered_singleton_of_new (new : record.isEvaluated = false) :
    entered [record] = [record] ∧ results [record] = [] := by
  simp [entered, results, new]

theorem entered_singleton_of_done (done : record.isEvaluated = true) :
    entered [record] = [] ∧ results [record] = [record] := by
  simp [entered, results, done]

theorem wellBracketed_nil : WellBracketed [] := by
  intro earlier record later split
  cases earlier <;> cases split

theorem wellBracketed_append_singleton :
    WellBracketed (history ++ [record]) ↔ history.WellBracketed ∧ history.Extends record := by
  constructor
  · intro bracketed
    refine ⟨fun earlier other later split => ?_, bracketed history record [] rfl⟩
    refine bracketed earlier other (later ++ [record]) ?_
    rw [split, List.append_assoc, List.cons_append]
  · rintro ⟨bracketed, extension⟩ earlier other later split
    rcases List.eq_nil_or_concat later with rfl | ⟨before, last, rfl⟩
    · obtain ⟨rfl, same⟩ := List.append_inj' split rfl
      cases same
      exact extension
    · rw [List.concat_eq_append, ← List.cons_append, ← List.append_assoc] at split
      exact bracketed earlier other before (List.append_inj' split rfl).1

/-- Well-bracketed histories grow by one record at a time. -/
theorem WellBracketed.induction {motive : ∀ history : History, history.WellBracketed → Prop}
    (nil : motive [] wellBracketed_nil)
    (append : ∀ (history : History) (record : Frame) (bracketed : history.WellBracketed)
      (extension : history.Extends record), motive history bracketed →
        motive (history ++ [record]) (wellBracketed_append_singleton.mpr ⟨bracketed, extension⟩))
    {history : History} (bracketed : history.WellBracketed) : motive history bracketed := by
  induction history using List.reverseRecOn with
  | nil => exact nil
  | append_singleton history record ih =>
    obtain ⟨before, extension⟩ := wellBracketed_append_singleton.mp bracketed
    exact append history record before extension (ih before)

theorem mem_entered_of_mem_opened {entry : Frame} (open_ : entry ∈ history.opened) :
    entry ∈ history.entered ∧ entry.counter ∉ history.results.counters := by
  obtain ⟨entered, unclosed⟩ := List.mem_filter.mp open_
  exact ⟨entered, of_decide_eq_true unclosed⟩

/-- The entries are numbered in order. -/
theorem WellBracketed.counters_entered (bracketed : history.WellBracketed) :
    history.entered.counters = List.range' 1 history.entered.length := by
  induction bracketed using WellBracketed.induction with
  | nil => rfl
  | append history record bracketed extension ih =>
    rw [entered_append]
    cases extension with
    | enters new counter level =>
      rw [(entered_singleton_of_new new).1, counters_append, List.length_append,
        List.length_singleton, List.range'_1_concat, ← ih, Nat.add_comm 1, ← counter]
      rfl
    | closes done entry innermost counter site level =>
      rw [(entered_singleton_of_done done).1, List.append_nil]
      exact ih

/-- A result has the number of an entry. -/
theorem WellBracketed.mem_counters_entered (bracketed : history.WellBracketed) :
    ∀ counter ∈ history.results.counters, counter ∈ history.entered.counters := by
  induction bracketed using WellBracketed.induction with
  | nil => intro counter member; cases member
  | append history record bracketed extension ih =>
    intro counter member
    rw [results_append, counters_append, List.mem_append] at member
    rw [entered_append, counters_append, List.mem_append]
    rcases member with earlier | last
    · exact .inl (ih counter earlier)
    · cases extension with
      | enters new _ _ =>
        rw [(entered_singleton_of_new new).2] at last
        cases last
      | closes done entry innermost same site level =>
        rw [(entered_singleton_of_done done).2] at last
        have same_counter : counter = record.counter := List.mem_singleton.mp last
        have open_ := mem_entered_of_mem_opened (List.mem_of_getLast? innermost)
        rw [same_counter, ← same]
        exact .inl (List.mem_map_of_mem open_.1)

theorem WellBracketed.nodup_counters_entered (bracketed : history.WellBracketed) :
    history.entered.counters.Nodup := by
  rw [bracketed.counters_entered]
  exact List.nodup_range'

/-- After an entry one more node is open. -/
theorem WellBracketed.opened_of_new (bracketed : history.WellBracketed)
    (new : record.isEvaluated = false) (counter : record.counter = history.entered.length + 1) :
    opened (history ++ [record]) = history.opened ++ [record] := by
  have fresh : record.counter ∉ history.results.counters := by
    intro closed
    have known := bracketed.mem_counters_entered _ closed
    rw [bracketed.counters_entered, List.mem_range'_1] at known
    omega
  obtain ⟨entry, no_result⟩ := entered_singleton_of_new new
  rw [opened, entered_append, results_append, entry, no_result, List.append_nil,
    List.filter_append]
  simp only [opened, List.filter_cons, fresh, not_false_eq_true, decide_true, if_true,
    List.filter_nil]

/-- After a result the node opened last is not open any more. -/
theorem WellBracketed.opened_of_done (bracketed : history.WellBracketed)
    (done : record.isEvaluated = true) {entry : Frame} {around : History}
    (innermost : history.opened = around ++ [entry]) (counter : entry.counter = record.counter) :
    opened (history ++ [record]) = around := by
  obtain ⟨no_entry, result⟩ := entered_singleton_of_done done
  have distinct : (around ++ [entry]).counters.Nodup := by
    rw [← innermost]
    exact (List.filter_sublist.map Frame.counter).nodup bracketed.nodup_counters_entered
  have others : ∀ other ∈ around, other.counter ≠ record.counter := by
    intro other member same
    rw [counters_append, List.nodup_append] at distinct
    refine distinct.2.2 _ (List.mem_map_of_mem member) _ (List.mem_singleton_self _) ?_
    rw [same, counter]
  have unclosed : opened (history ++ [record]) =
      history.opened.filter fun other => other.counter ≠ record.counter := by
    rw [opened, entered_append, results_append, no_entry, result, List.append_nil, opened,
      List.filter_filter]
    refine List.filter_congr fun other _ => Bool.eq_iff_iff.mpr ?_
    rw [decide_eq_true_iff, Bool.and_eq_true, decide_eq_true_iff, decide_eq_true_iff,
      counters_append, List.mem_append, not_or, and_comm]
    exact and_congr_left' (not_congr List.mem_singleton)
  rw [unclosed, innermost, List.filter_append, List.filter_eq_self.mpr (fun other member =>
    decide_eq_true (others other member))]
  simp [counter]

/-- No number has two results. -/
theorem WellBracketed.nodup_counters_results (bracketed : history.WellBracketed) :
    history.results.counters.Nodup := by
  induction bracketed using WellBracketed.induction with
  | nil => exact List.nodup_nil
  | append history record bracketed extension ih =>
    rw [results_append]
    cases extension with
    | enters new counter level =>
      rw [(entered_singleton_of_new new).2, List.append_nil]
      exact ih
    | closes done entry innermost counter site level =>
      have open_ := mem_entered_of_mem_opened (List.mem_of_getLast? innermost)
      rw [(entered_singleton_of_done done).2, counters, List.map_append, List.map_singleton,
        ← List.concat_eq_append, List.nodup_concat, ← counter]
      exact ⟨open_.2, ih⟩

/-- Every number has an entry. -/
theorem WellBracketed.exists_entry (bracketed : history.WellBracketed) :
    ∀ record ∈ history, record.counter ∈ history.entered.counters := by
  intro record member
  cases evaluated : record.isEvaluated with
  | false => exact List.mem_map_of_mem (List.mem_filter.mpr ⟨member, by rw [evaluated]; rfl⟩)
  | true =>
    refine bracketed.mem_counters_entered _ ?_
    exact List.mem_map_of_mem (List.mem_filter.mpr ⟨member, evaluated⟩)

/-- **Every number has one entry and at most one result.** -/
theorem WellBracketed.count_counters (bracketed : history.WellBracketed) :
    ∀ record ∈ history, history.entered.counters.count record.counter = 1 ∧
      history.results.counters.count record.counter ≤ 1 := fun record member =>
  ⟨List.count_eq_one_of_mem bracketed.nodup_counters_entered
      (bracketed.exists_entry record member),
    List.nodup_iff_count_le_one.mp bracketed.nodup_counters_results _⟩

/-- Where no node is open, every number has its result. -/
theorem WellBracketed.count_results_of_opened_eq_nil (bracketed : history.WellBracketed)
    (none_opened : history.opened = []) :
    ∀ record ∈ history, history.results.counters.count record.counter = 1 := by
  intro record member
  obtain ⟨entry, entered, same⟩ := List.mem_map.mp (bracketed.exists_entry record member)
  have closed := List.filter_eq_nil_iff.mp none_opened entry entered
  rw [decide_eq_true_iff, not_not, same] at closed
  exact List.count_eq_one_of_mem bracketed.nodup_counters_results closed

end History

/-! ## What sessions record -/

/-- What observing a step can do to a session. In each case an evaluated frame
on top is dropped first. -/
inductive Session.Observes (before : Session) :
    Except DebugError (Option Event) → Session → Prop where
  /-- A frame is opened, and recorded. -/
  | enters (site : Site) :
      Observes before (.ok (some ⟨.enter, before.stack.dropEvaluated.depth + 1⟩))
        { before with
          stack := before.stack.dropEvaluated.push site
          trace := before.trace.recordEnter (before.stack.dropEvaluated.opened site) }
  /-- The frame on top gets its result, and is recorded with it. -/
  | leaves (top : Frame) (below : List Frame) (value : Value)
      (innermost : before.stack.dropEvaluated.frames = top :: below) :
      Observes before (.ok (some ⟨.exit, below.length + 1⟩))
        { before with
          stack := ⟨{ top with result := some value } :: below,
            before.stack.dropEvaluated.counter⟩
          trace := before.trace.recordResult top value }
  /-- No frame is open any more. -/
  | completes (none_open : before.stack.dropEvaluated.frames = []) :
      Observes before (.ok none) before.dropEvaluated
  /-- The step is refused, and not recorded. -/
  | refuses (error : DebugError) : Observes before (.error error) before.dropEvaluated

/-- The open nodes of a trace are the frames without a result. -/
structure Session.Recorded (session : Session) : Prop where
  bracketed : session.trace.history.WellBracketed
  counter : session.stack.counter = session.trace.history.entered.length
  opened : session.trace.history.opened = session.stack.dropEvaluated.outermostFirst

namespace Session

variable {before after session : Session} {answer : Except DebugError (Option Event)}

theorem observes (session : Session) (step : Step) :
    session.Observes (session.observe step).1 (session.observe step).2 := by
  cases step with
  | enter site => exact .enters site
  | exit site value =>
    rcases session.observe_exit_cases site value with
      ⟨top, below, innermost, -, observed⟩ | ⟨-, error, observed⟩
    · rw [observed]
      exact .leaves top below value innermost
    · rw [observed]
      exact .refuses error
  | complete value =>
    simp only [observe]
    cases same : session.stack.dropEvaluated.frames with
    | nil =>
      simp only [CallStack.top?, same, List.head?_nil]
      exact .completes same
    | cons top below =>
      simp only [CallStack.top?, same, List.head?_cons]
      exact .refuses _

/-- An observation adds at most one record to the trace. -/
theorem Observes.exists_added (observes : before.Observes answer after) :
    ∃ added, after.trace.history = before.trace.history ++ added ∧ added.length ≤ 1 := by
  cases observes with
  | enters site => exact ⟨[_], Trace.history_recordEnter _ _, Nat.le_refl _⟩
  | leaves top below value innermost => exact ⟨[_], Trace.history_recordResult _ _ _, Nat.le_refl _⟩
  | completes none_open => exact ⟨[], (List.append_nil _).symm, Nat.zero_le _⟩
  | refuses error => exact ⟨[], (List.append_nil _).symm, Nat.zero_le _⟩

/-- The session after it has observed steps in turn, refused ones included. -/
def observeAll (session : Session) (steps : List Step) : Session :=
  steps.foldl (fun session step => (session.observe step).2) session

theorem observeAll_append (session : Session) (first second : List Step) :
    session.observeAll (first ++ second) = (session.observeAll first).observeAll second :=
  List.foldl_append

/-- The trace of a session only grows, and by no more records than steps are observed. -/
theorem exists_added_observeAll (session : Session) (steps : List Step) :
    ∃ added, (session.observeAll steps).trace.history = session.trace.history ++ added ∧
      added.length ≤ steps.length := by
  induction steps generalizing session with
  | nil => exact ⟨[], (List.append_nil _).symm, Nat.le_refl _⟩
  | cons step steps ih =>
    obtain ⟨first, grows, one⟩ := (session.observes step).exists_added
    obtain ⟨others, grows_on, few⟩ := ih (session.observe step).2
    refine ⟨first ++ others, ?_, ?_⟩
    · rw [← List.append_assoc, ← grows]
      exact grows_on
    · rw [List.length_append, List.length_cons]
      omega

theorem recorded_empty : empty.Recorded :=
  ⟨History.wellBracketed_nil, rfl, rfl⟩

/-- Once an evaluated frame on top is dropped, no frame is evaluated. -/
theorem Recorded.unevaluated (recorded : session.Recorded) :
    ∀ frame ∈ session.stack.dropEvaluated.frames, frame.isEvaluated = false := by
  intro frame member
  have open_ : frame ∈ session.trace.history.opened := by
    rw [recorded.opened]
    exact List.mem_reverse.mpr member
  have entry := (List.mem_filter.mp (History.mem_entered_of_mem_opened open_).1).2
  rwa [Bool.not_eq_true'] at entry

/-- A session that only drops an evaluated frame has the same open nodes. -/
theorem Recorded.dropEvaluated (recorded : session.Recorded) :
    session.dropEvaluated.Recorded := by
  refine ⟨recorded.bracketed, ?_, ?_⟩
  · exact (CallStack.counter_dropEvaluated _).trans recorded.counter
  · have twice : session.stack.dropEvaluated.dropEvaluated = session.stack.dropEvaluated :=
      CallStack.dropEvaluated_of_unevaluated recorded.unevaluated
    exact recorded.opened.trans (congrArg CallStack.outermostFirst twice.symm)

/-- **Every observation keeps the trace well bracketed**, and its open nodes
those of the stack. -/
theorem Recorded.observe (recorded : before.Recorded) (observes : before.Observes answer after) :
    after.Recorded := by
  have last_number := (CallStack.counter_dropEvaluated before.stack).trans recorded.counter
  cases observes with
  | enters site =>
    have record := Trace.history_recordEnter before.trace (before.stack.dropEvaluated.opened site)
    have new : (before.stack.dropEvaluated.opened site).isEvaluated = false := rfl
    have numbered : (before.stack.dropEvaluated.opened site).counter =
        before.trace.history.entered.length + 1 := congrArg (· + 1) last_number
    have levelled : (before.stack.dropEvaluated.opened site).level =
        before.trace.history.opened.length := by
      rw [recorded.opened, CallStack.outermostFirst, List.length_reverse]
      rfl
    constructor
    · rw [record]
      exact History.wellBracketed_append_singleton.mpr
        ⟨recorded.bracketed, .enters new numbered levelled⟩
    · rw [record, History.entered_append, (History.entered_singleton_of_new rfl).1,
        List.length_append]
      exact numbered
    · rw [record]
      refine (recorded.bracketed.opened_of_new new numbered).trans ?_
      rw [recorded.opened]
      exact List.reverse_cons.symm
  | leaves top below value innermost =>
    have record := Trace.history_recordResult before.trace top value
    have done : ({ top with result := some value } : Frame).isEvaluated = true := rfl
    have opened : before.trace.history.opened = below.reverse ++ [top] := by
      rw [recorded.opened, CallStack.outermostFirst, innermost, List.reverse_cons]
    constructor
    · rw [record]
      refine History.wellBracketed_append_singleton.mpr
        ⟨recorded.bracketed, .closes done top ?_ rfl rfl rfl⟩
      rw [opened, List.getLast?_concat]
    · rw [record, History.entered_append, (History.entered_singleton_of_done done).1,
        List.append_nil]
      exact last_number
    · rw [record]
      exact recorded.bracketed.opened_of_done done opened rfl
  | completes none_open => exact recorded.dropEvaluated
  | refuses error => exact recorded.dropEvaluated

/-- An event has the frame on top that was recorded last. -/
theorem Observes.exists_frame {event : Event} (observes : before.Observes (.ok (some event)) after) :
    ∃ frame below, after.stack.frames = frame :: below ∧
      after.trace.history = before.trace.history ++ [frame] ∧
      event = ⟨if frame.isEvaluated then .exit else .enter, below.length + 1⟩ := by
  cases observes with
  | enters site => exact ⟨_, _, rfl, Trace.history_recordEnter _ _, rfl⟩
  | leaves top below value innermost => exact ⟨_, _, rfl, Trace.history_recordResult _ _ _, rfl⟩

/-- At completion no frame is left. -/
theorem Observes.frames_of_none (observes : before.Observes (.ok none) after) :
    after.stack.frames = [] := by
  cases observes with
  | completes none_open => exact none_open

/-- The frames are those that a replay of the trace leaves. -/
def Replays (session : Session) : Prop :=
  session.stack.frames = session.trace.history.replay

/-- After an event the frames are those of a replay if they were before. -/
theorem Replays.observe {event : Event} (replays : before.Replays)
    (observes : before.Observes (.ok (some event)) after) : after.Replays := by
  have dropped := before.stack.dropEvaluated_frames
  rw [replays] at dropped
  cases observes with
  | enters site =>
    rw [Replays, Trace.history_recordEnter, History.replay_append_singleton,
      History.replayRecord, ← dropped]
    rfl
  | leaves top below value innermost =>
    rw [Replays, Trace.history_recordResult, History.replay_append_singleton,
      History.replayRecord, ← dropped, innermost]

end Session

/-! ## The traces of debuggers -/

namespace Debugger

variable {formula : Node} {environment : Environment} {before after debugger : Debugger}

/-- Where a debugger advances, its session observes a step or stays as it is. -/
theorem Advances.session_of_ok {step : Step} {event : Option Event}
    (advances : before.Advances (.ok (step, event)) after) :
    before.session.Observes (.ok event) after.session := by
  cases advances with
  | @observes _ _ next session stepped observed eventful mirrors =>
    have observes := before.session.observes step
    rwa [observed] at observes

theorem Advances.session_of_error {error : DebugError}
    (advances : before.Advances (.error error) after) : after.session = before.session := by
  cases advances with
  | fails foreseen stepped => rfl

/-- What holds of the empty session, does not depend on breakpoints and is kept
by every observation holds of the session of every debugger that is reached. -/
theorem Reached.session_invariant {holds : Session → Prop} (empty : holds .empty)
    (shown : ∀ {first second : Session}, holds first → first.stack = second.stack →
      first.trace = second.trace → holds second)
    (observed : ∀ {before after : Debugger} {step : Step} {event : Option Event},
      Reached formula environment before → before.Advances (.ok (step, event)) after →
        holds before.session → holds after.session)
    (reached : Reached formula environment debugger) : holds debugger.session := by
  induction reached with
  | start => exact empty
  | arm breakpoint reached unfinished ih => exact shown ih rfl rfl
  | advance reached running advanced ih =>
    exact observed reached (reached.advances running advanced) ih
  | suspend breakpoint reached running ih => exact shown ih rfl rfl
  | finish reached running advanced ih =>
    exact shown (observed reached (reached.advances running advanced) ih) rfl rfl
  | fail reached running advanced ih =>
    rw [← (reached.advances running advanced).session_of_error] at ih
    exact shown ih rfl rfl

theorem Reached.recorded (reached : Reached formula environment debugger) :
    debugger.session.Recorded := by
  refine reached.session_invariant Session.recorded_empty ?_ fun _ advances before =>
    before.observe advances.session_of_ok
  rintro first second recorded stack trace
  exact ⟨trace ▸ recorded.bracketed, stack ▸ trace ▸ recorded.counter,
    stack ▸ trace ▸ recorded.opened⟩

/-- A debugger has the frames of a replay until it finishes; then it has none. -/
theorem Reached.frames (reached : Reached formula environment debugger) :
    (debugger.state ≠ .finished → debugger.session.Replays) ∧
      (debugger.state = .finished → debugger.session.stack.frames = []) := by
  induction reached with
  | start => exact ⟨fun _ => rfl, fun finished => by cases finished⟩
  | arm breakpoint reached unfinished ih =>
    exact ⟨fun _ => ih.1 (ne_finished_of_isFinished unfinished), fun finished => by cases finished⟩
  | advance reached running advanced ih =>
    have still := ne_finished_of_running (running_of_advance running advanced)
    have replays := ih.1 (ne_finished_of_running running)
    exact ⟨fun _ => replays.observe (reached.advances running advanced).session_of_ok,
      fun finished => absurd finished still⟩
  | suspend breakpoint reached running ih =>
    exact ⟨fun _ => ih.1 (ne_finished_of_running running), fun finished => by cases finished⟩
  | finish reached running advanced ih =>
    exact ⟨fun unfinished => absurd rfl unfinished,
      fun _ => (reached.advances running advanced).session_of_ok.frames_of_none⟩
  | fail reached running advanced ih =>
    have same := (reached.advances running advanced).session_of_error
    have replays := ih.1 (ne_finished_of_running running)
    rw [← same] at replays
    exact ⟨fun _ => replays, fun finished => by cases finished⟩

/-- **The trace is a well-bracketed history and determines the stack.** After
any commands the entries are numbered in order and have the number of open
nodes as their levels, and a result belongs to the node opened last. So every
number has one entry and at most one result. Until the debugger finishes, its
frames are those that a replay of the trace leaves; once it has finished, there
are none, and every number has its result. -/
theorem trace_determines_stack (formula : Node) (environment : Environment)
    (commands : List Command) :
    let debugger := (start formula environment).performAll commands
    let history := debugger.session.trace.history
    history.WellBracketed ∧
    (∀ record ∈ history, history.entered.counters.count record.counter = 1 ∧
      history.results.counters.count record.counter ≤ 1) ∧
    (debugger.state ≠ .finished → debugger.session.stack.frames = history.replay) ∧
    (debugger.state = .finished → debugger.session.stack.frames = [] ∧
      ∀ record ∈ history, history.results.counters.count record.counter = 1) := by
  intro debugger history
  have reached : Reached formula environment debugger := Reached.start.performAll commands
  have recorded := reached.recorded
  refine ⟨recorded.bracketed, recorded.bracketed.count_counters, reached.frames.1,
    fun finished => ?_⟩
  have no_frames := reached.frames.2 finished
  have none_opened : history.opened = [] := by
    rw [recorded.opened, CallStack.outermostFirst, CallStack.dropEvaluated_frames, no_frames]
    rfl
  exact ⟨no_frames, recorded.bracketed.count_results_of_opened_eq_nil none_opened⟩

/-- The formula `-1 + 2`. -/
def negatedSum : Node :=
  .over "-1 + 2".toList (.binary .add)
    [.over "-1 + 2".toList (.unary .neg)
        [.over "-1 + 2".toList (.integer 1) [] ⟨1, 2⟩] ⟨0, 2⟩,
      .over "-1 + 2".toList (.integer 2) [] ⟨5, 6⟩] ⟨0, 6⟩

theorem parse_negatedSum : parse "-1 + 2" = .ok negatedSum := by
  -- the lexer recurses on the length of the rest, so its part is unfolded on its own
  have lexed : tokensFrom 0 "-1 + 2".toList =
      .ok [⟨.symbol .minus, ⟨0, 1⟩⟩, ⟨.integer 1, ⟨1, 2⟩⟩, ⟨.symbol .plus, ⟨3, 4⟩⟩,
        ⟨.integer 2, ⟨5, 6⟩⟩] := by
    with_unfolding_all rfl
  rw [parse, lexed]
  rfl

/-- A result drops an evaluated frame as well. Where the sign has just got its
value, its frame is on top; a replay in which only entries drop a frame would
have marked the frame of the number, and kept it. -/
theorem replayKeeping_ne_frames :
    let debugger := (start negatedSum fun _ => none).performAll
      (List.replicate 5 (.run .stepInto))
    parse "-1 + 2" = .ok negatedSum ∧ debugger.state = .suspended ∧
      debugger.session.stack.frames ≠ debugger.session.trace.history.replayKeeping := by
  intro debugger
  refine ⟨parse_negatedSum, by decide +kernel, fun same => ?_⟩
  have counters : [2, 1] = [3, 2, 1] := by
    calc [2, 1] = debugger.session.stack.frames.map Frame.counter := by decide +kernel
      _ = debugger.session.trace.history.replayKeeping.map Frame.counter := by rw [same]
      _ = [3, 2, 1] := by decide +kernel
  cases counters

end Debugger

end FormulaStepper
