import FormulaStepper.Proofs.Debugger.Observation
import FormulaStepper.Proofs.Text.Digits
import FormulaStepper.Adapter.Server

/-!
# The views of a session agree

The stack is shown frame by frame, indented by the places of the frames. The trace
is shown entry by entry, indented by the levels that the frames had when they were
opened. A client is shown the entries one by one, each without the blanks at its
end. These are the same lines: the frames of a session are the last entries under
their numbers (`Session.Current.observe`), at the levels of their places; and no
line ends in a blank before its line feed, since a text ends in a parenthesis and
the form of a value in a digit, a letter, a quote or a bracket
(`Value.endsVisibly_debugText`), so trimming takes the line feed away and nothing
else.
-/

set_option autoImplicit false

namespace FormulaStepper

open Formula Text

/-! ## Ends of lines -/

namespace Text

/-- The text has a last character, which is not blank. -/
def EndsVisibly (text : List Char) : Prop :=
  ∃ front last, text = front ++ [last] ∧ isBlank last = false

theorem EndsVisibly.append {text : List Char} (ends : EndsVisibly text) (before : List Char) :
    EndsVisibly (before ++ text) := by
  obtain ⟨front, last, rfl, visible⟩ := ends
  exact ⟨before ++ front, last, (List.append_assoc ..).symm, visible⟩

/-- The text is not empty, and no character in it is blank. -/
structure Solid (text : List Char) : Prop where
  nonempty : text ≠ []
  visible : ∀ c ∈ text, isBlank c = false

theorem visible_of_all {text : List Char} (all : (text.all fun c => !isBlank c) = true) :
    ∀ c ∈ text, isBlank c = false := by
  intro c member
  rw [← Bool.not_eq_true']
  exact List.all_eq_true.mp all c member

theorem Solid.endsVisibly {text : List Char} (solid : Solid text) : EndsVisibly text := by
  obtain ⟨nonempty, visible⟩ := solid
  rcases List.eq_nil_or_concat text with rfl | ⟨front, last, rfl⟩
  · exact absurd rfl nonempty
  · rw [List.concat_eq_append] at visible ⊢
    exact ⟨front, last, rfl, visible last (List.mem_append_right _ (List.mem_singleton_self last))⟩

theorem solid_toDigits (n : Nat) : Solid (Nat.toDigits 10 n) where
  nonempty := Nat.toDigits_ne_nil
  visible _ member := isBlank_of_isDigit (isDigit_of_mem_toDigits member)

theorem solid_toString_int (n : Int) : Solid (toString n).toList := by
  rw [toList_toString_int]
  refine ⟨List.append_ne_nil_of_right_ne_nil _ Nat.toDigits_ne_nil, ?_⟩
  refine List.forall_mem_append.mpr ⟨visible_of_all ?_, (solid_toDigits _).visible⟩
  split <;> decide

/-- Only the line feed is trimmed. -/
theorem EndsVisibly.trimEnd_line {text : List Char} (ends : EndsVisibly text) :
    trimEnd (text ++ ['\n']) = text := by
  obtain ⟨front, last, rfl, visible⟩ := ends
  rw [trimEnd, trimEndBy_append_blank (by decide), trimEndBy_append_kept visible]

end Text

namespace Decimal

theorem isDigit_of_mem_ofScaled {coefficient : Nat} {exponent : Int} :
    ∀ c ∈ (Digits.ofScaled coefficient exponent).digits, c.isDigit = true := by
  intro c member
  have written := (List.dropWhile_sublist _).subset (List.mem_reverse.mp member)
  exact isDigit_of_mem_toDigits (List.mem_reverse.mp written)

theorem isDigit_of_mem_shortest {tie : Tie} {x : Dyadic} :
    ∀ c ∈ (x.shortest tie).digits, c.isDigit = true := by
  rw [Dyadic.shortest]
  generalize attempted : List.findSome? _ _ = attempt
  cases attempt with
  | none => simp
  | some digits =>
    obtain ⟨count, -, found⟩ := List.exists_of_findSome?_eq_some attempted
    obtain ⟨coefficient, -, rfl⟩ := Option.map_eq_some_iff.mp found
    exact isDigit_of_mem_ofScaled

theorem solid_positional {number : Digits} {wholeMark : List Char}
    (all : ∀ c ∈ number.digits, c.isDigit = true) (mark : Solid wholeMark) :
    Solid (number.positional wholeMark) := by
  have visible : ∀ c ∈ number.digits, isBlank c = false := fun c member =>
    isBlank_of_isDigit (all c member)
  have zeros (count : Nat) : ∀ c ∈ List.replicate count '0', isBlank c = false := by
    intro c member
    rw [(List.mem_replicate.mp member).2]
    rfl
  rw [Digits.positional]
  split
  · refine ⟨List.cons_ne_nil _ _, ?_⟩
    rw [List.forall_mem_append, List.forall_mem_append]
    exact ⟨⟨visible_of_all (by decide), zeros _⟩, visible⟩
  · dsimp only
    split
    · refine ⟨List.append_ne_nil_of_right_ne_nil _ mark.nonempty, ?_⟩
      rw [List.forall_mem_append, List.forall_mem_append]
      exact ⟨⟨visible, zeros _⟩, mark.visible⟩
    · refine ⟨by simp, ?_⟩
      rw [List.forall_mem_append, List.forall_mem_append]
      exact ⟨⟨fun c member => visible c (List.mem_of_mem_take member),
        visible_of_all (by decide)⟩, fun c member => visible c (List.mem_of_mem_drop member)⟩

/-- Where all numbers are set out positionally, the text of a float has no blanks. -/
theorem solid_writeFloat {layout : Layout} (positional : ∀ point, layout.positional point = true)
    (mark : Solid layout.wholeMark) (x : Float) : Solid (layout.writeFloat x).toList := by
  have written {number : Digits} (all : ∀ c ∈ number.digits, c.isDigit = true) :
      Solid (layout.write number) := by
    rw [Layout.write, if_pos (positional _)]
    exact solid_positional all mark
  have magnitude (x : Dyadic) : Solid (layout.writeDyadic x) := by
    rw [Layout.writeDyadic]
    split
    · exact written (List.all_eq_true.mp (by decide))
    · split
      · refine ⟨List.append_ne_nil_of_right_ne_nil _ mark.nonempty, ?_⟩
        exact List.forall_mem_append.mpr ⟨(solid_toDigits _).visible, mark.visible⟩
      · exact written isDigit_of_mem_shortest
  rw [Layout.writeFloat]
  split
  · exact ⟨by decide, visible_of_all (by decide)⟩
  · split <;> exact ⟨by decide, visible_of_all (by decide)⟩
  · rw [String.toList_ofList]
    refine ⟨List.append_ne_nil_of_right_ne_nil _ (magnitude _).nonempty, ?_⟩
    refine List.forall_mem_append.mpr ⟨visible_of_all ?_, (magnitude _).visible⟩
    split <;> decide

end Decimal

/-- **No text of a value ends in a blank**, whatever its strings hold. -/
theorem Value.endsVisibly_debugText (value : Value) : EndsVisibly value.debugText.toList := by
  have closed (last : Char) (visible : isBlank last = false) (front : String) (mark : String)
      (one : mark.toList = [last]) : EndsVisibly (front ++ mark).toList := by
    rw [String.toList_append, one]
    exact ⟨front.toList, last, rfl, visible⟩
  cases value with
  | null => exact ⟨"null(".toList, ')', by decide, by decide⟩
  | int n => exact (solid_toString_int n.toInt).endsVisibly
  | decimal x =>
    have mark : Solid Value.decimalLayout.wholeMark := ⟨by decide, visible_of_all (by decide)⟩
    exact (Decimal.solid_writeFloat (fun _ => rfl) mark x).endsVisibly
  | string text => exact closed quote (by decide) _ _ rfl
  | list items => exact closed ']' (by decide) _ _ rfl

/-- A frame in words ends in a parenthesis or in its value. -/
theorem Frame.endsVisibly_describe (frame : Frame) : EndsVisibly frame.describe.toList := by
  rw [Frame.describe, String.toList_append]
  cases frame.result with
  | none =>
    rw [String.toList_append]
    exact ⟨_, ')', (List.append_nil _).trans rfl, by decide⟩
  | some value =>
    have result : EndsVisibly (" = " ++ value.debugText).toList := by
      rw [String.toList_append]
      exact value.endsVisibly_debugText.append _
    exact result.append _

/-! ## The stack in the trace -/

namespace History

/-- The record that was made last under a number. -/
def last? (history : History) (counter : Nat) : Option Frame :=
  (history.filter fun record => record.counter = counter).getLast?

variable {history : History} {record : Frame} {counter : Nat}

theorem last?_append_singleton :
    last? (history ++ [record]) counter =
      if record.counter = counter then some record else history.last? counter := by
  rw [last?, List.filter_append, List.filter_singleton]
  by_cases same : record.counter = counter
  · simp [same]
  · simp [same, last?]

end History

/-- The line of the entry that was made last under a number, as the trace shows it. -/
def Trace.lastLine? (trace : Trace) (counter : Nat) : Option String :=
  (trace.history.last? counter).map fun entry => Trace.render ⟨#[entry]⟩

theorem Trace.render_singleton (entry : Frame) :
    Trace.render ⟨#[entry]⟩ = entry.line entry.level := by
  rw [Trace.render, List.map_singleton, String.join_cons, String.join_nil, String.append_empty]

/-- Frames whose levels are successive are shown at their levels. -/
theorem Frame.linesFrom_eq_map {frames : List Frame} {level : Nat}
    (levels : frames.map Frame.level = List.range' level frames.length) :
    Frame.linesFrom level frames = frames.map fun frame => frame.line frame.level := by
  induction frames generalizing level with
  | nil => rfl
  | cons frame frames ih =>
    rw [List.map_cons, List.length_cons, List.range'_succ, List.cons.injEq] at levels
    rw [Frame.linesFrom, ih levels.2, List.map_cons, levels.1]

namespace Session

variable {before after session : Session}

/-- The frames have increasing numbers, and are the last records under them. -/
structure Current (session : Session) : Prop where
  numbered : session.stack.Numbered
  last : ∀ frame ∈ session.stack.frames, session.trace.history.last? frame.counter = some frame

theorem current_empty : empty.Current :=
  ⟨CallStack.numbered_empty, fun _ member => (by cases member)⟩

/-- Frames without the one on top have lower numbers than a record of that one, so the
record leaves them the last under theirs. -/
theorem last?_of_lt {history : History} {record : Frame} {frames : List Frame}
    (lower : ∀ frame ∈ frames, frame.counter < record.counter)
    (current : ∀ frame ∈ frames, history.last? frame.counter = some frame) :
    ∀ frame ∈ record :: frames, History.last? (history ++ [record]) frame.counter = some frame := by
  intro frame member
  rw [History.last?_append_singleton]
  rcases List.mem_cons.mp member with rfl | below
  · rw [if_pos rfl]
  · rw [if_neg (Nat.ne_of_gt (lower frame below)), current frame below]

/-- **Every observation keeps the frames the last records under their numbers.** -/
theorem Current.observe {answer : Except DebugError (Option Event)} (current : before.Current)
    (observes : before.Observes answer after) : after.Current := by
  refine ⟨observes.numbered current.numbered, ?_⟩
  have dropped := current.numbered.dropEvaluated
  have still : ∀ frame ∈ before.stack.dropEvaluated.frames,
      before.trace.history.last? frame.counter = some frame := fun frame member =>
    current.last frame (before.stack.dropEvaluated_suffix.subset member)
  cases observes with
  | enters site =>
    rw [Trace.history_recordEnter]
    refine last?_of_lt (fun frame member => ?_) still
    exact Nat.lt_succ_of_le (dropped.le_counter frame member)
  | leaves top below value innermost =>
    have decreasing := dropped.decreasing
    rw [innermost, List.pairwise_cons] at decreasing
    rw [innermost, List.forall_mem_cons] at still
    rw [Trace.history_recordResult]
    exact last?_of_lt decreasing.1 still.2
  | completes none_open => exact still
  | refuses error => exact still

/-- The frames are shown in the lines of their last entries. -/
theorem Current.exists_lines (current : session.Current) (levelled : session.stack.Levelled) :
    ∃ lines : List String,
      session.stack.outermostFirst.map (fun frame => session.trace.lastLine? frame.counter) =
        lines.map some ∧
      session.stack.render = String.join lines := by
  refine ⟨session.stack.outermostFirst.map fun frame => frame.line frame.level, ?_, ?_⟩
  · rw [List.map_map]
    refine List.map_congr_left fun frame member => ?_
    rw [Trace.lastLine?, current.last frame (List.mem_reverse.mp member), Option.map_some,
      Trace.render_singleton]
    rfl
  · rw [CallStack.Levelled, List.range_eq_range', CallStack.depth, ← List.length_reverse]
      at levelled
    rw [CallStack.render, Frame.linesFrom_eq_map levelled]

end Session

theorem Debugger.Reached.current {formula : Node} {environment : Environment}
    {debugger : Debugger} (reached : Reached formula environment debugger) :
    debugger.session.Current := by
  refine reached.session_invariant Session.current_empty ?_ fun _ advances current =>
    current.observe advances.session_of_ok
  rintro first second current stack trace
  exact ⟨stack ▸ current.numbered, stack ▸ trace ▸ current.last⟩

/-! ## The trace as a client sees it -/

namespace Adapter

open Json

/-- A line of the trace is what a client is shown for it, and a line feed. -/
theorem traceLine_append_lineFeed (entry : Frame) :
    traceLine entry ++ "\n" = entry.line entry.level := by
  have ends := entry.endsVisibly_describe.append (List.replicate (2 * entry.level) ' ')
  have line : (entry.line entry.level).toList =
      List.replicate (2 * entry.level) ' ' ++ entry.describe.toList ++ ['\n'] := by
    rw [Frame.line, String.toList_append, String.toList_append, String.toList_ofList]
    rfl
  rw [← String.toList_inj, traceLine, String.toList_append, String.toList_ofList, line,
    ends.trimEnd_line]
  rfl

/-- The texts that an answer lists as the values of variables. -/
def Content.listedValues? : Content → Option (List String)
  | .response _ true _ _ (some body) => do
    let items ← (body.member? "variables").bind Json.items?
    items.mapM fun item => (item.member? "value").bind Json.string?
  | _ => none

theorem string?_value_traceEntry (entry : Frame × Nat) :
    ((traceEntry entry).member? "value").bind Json.string? = some (traceLine entry.1) := by
  change ((Dictionary.insert "variablesReference" _ (Dictionary.insert "value" _ _)).lookup
    "value").bind Json.string? = _
  rw [Dictionary.lookup_insert_of_ne (by decide), Dictionary.lookup_insert_self]
  rfl

theorem mapM_traceEntry (entries : List (Frame × Nat)) :
    (entries.map traceEntry).mapM (fun item => (item.member? "value").bind Json.string?) =
      some (entries.map fun entry => traceLine entry.1) := by
  rw [List.mapM_map, Function.comp_def, funext string?_value_traceEntry]
  exact List.mapM_pure

/-- The answer for the scope of the trace lists its lines without their line feeds. -/
theorem listedValues?_traceScope {server : Server} {debugger : Debugger} {bindings : Variables}
    {message : Message} {arguments : Option Json}
    (target : server.target = some (debugger, bindings))
    (asked : message.content = .request "variables" arguments)
    (scope : (argument? arguments "variablesReference").bind Json.nat? = some traceScope) :
    (server.respond message).2.map Content.listedValues? =
      [some (debugger.session.trace.entries.toList.map traceLine)] := by
  have answer : (server.respond message).2 =
      [.success message.seq "variables" (some (scopeVariables debugger bindings arguments))] := by
    rw [Server.respond, asked, target]
    rfl
  rw [answer, scopeVariables, scope, Option.getD_some, scopeEntries, if_neg (by decide), if_pos rfl]
  refine congrArg (fun values => [values]) ?_
  refine (mapM_traceEntry _).trans ?_
  rw [← Function.comp_def, ← List.map_map, List.zipIdx_map_fst]

/-- **The views of a session agree.** After any commands the rendering of the stack is
the lines, from the outermost frame to the innermost, that the trace shows for the last
entries under the frames' numbers. A client that asks for the scope of the trace is
shown values that, each with a line feed after it, make up the rendering of the trace. -/
theorem views_agree (formula : Node) (environment : Environment) (commands : List Command) :
    let debugger := (Debugger.start formula environment).performAll commands
    let session := debugger.session
    (∃ lines : List String,
      session.stack.outermostFirst.map (fun frame => session.trace.lastLine? frame.counter) =
        lines.map some ∧
      session.stack.render = String.join lines) ∧
    ∀ (server : Server) (bindings : Variables) (message : Message) (arguments : Option Json),
      server.target = some (debugger, bindings) →
      message.content = .request "variables" arguments →
      (argument? arguments "variablesReference").bind Json.nat? = some traceScope →
      ∃ values : List String,
        (server.respond message).2.map Content.listedValues? = [some values] ∧
        String.join (values.map (· ++ "\n")) = session.trace.render := by
  intro debugger session
  have reached : Debugger.Reached formula environment debugger :=
    Debugger.Reached.start.performAll commands
  refine ⟨reached.current.exists_lines reached.coupled.levelled, ?_⟩
  intro server bindings message arguments target asked scope
  refine ⟨_, listedValues?_traceScope target asked scope, ?_⟩
  rw [List.map_map, Trace.render]
  exact congrArg String.join (List.map_congr_left fun entry _ => traceLine_append_lineFeed entry)

/-- In the middle of `-1 + 2` three nodes are open, the innermost with its value. A
client that asks for the trace is shown its entries. -/
theorem views_of_negatedSum :
    let debugger := (Debugger.start Debugger.negatedSum fun _ => none).performAll
      (List.replicate 4 (.run .stepInto))
    let server : Server := { Server.start with target := some (debugger, .empty) }
    let message : Message :=
      .request 5 "variables" (some (record [("variablesReference", .nat traceScope)]))
    debugger.session.stack.render =
        "#1: \"+\": (-1 + 2)\n  #2: \"-\": (-1)\n    #3: \"1\": (1) = 1\n" ∧
      ∃ values : List String, values.length = 4 ∧
        (server.respond message).2.map Content.listedValues? = [some values] ∧
        String.join (values.map (· ++ "\n")) = debugger.session.trace.render := by
  intro debugger server message
  obtain ⟨-, shown⟩ := views_agree Debugger.negatedSum (fun _ => none)
    (List.replicate 4 (.run .stepInto))
  obtain ⟨values, listed, joined⟩ := shown server .empty message _ rfl rfl rfl
  have four : (server.respond message).2.map (fun content =>
      content.listedValues?.map List.length) = [some 4] := by decide +kernel
  refine ⟨by decide +kernel, values, ?_, listed, joined⟩
  rw [← Function.comp_def, ← List.map_map, listed] at four
  exact Option.some.inj (List.cons.inj four).1

end Adapter

end FormulaStepper
