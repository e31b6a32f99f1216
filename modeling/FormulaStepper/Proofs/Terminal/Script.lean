import FormulaStepper.Proofs.Debugger.Lifecycle
import FormulaStepper.Terminal

/-!
# A session at a terminal is its debugger

A script is a list of lines. A line gives the debugger a command, or quits, or
does neither: it looks, or it cannot be understood, and then it is as if the line
were not there. So a session leaves the debugger that is launched and then given
the commands of the lines before the first one that quits
(`Terminal.session_follows_script`). Commands after the end are refused and
change nothing, so it makes no difference that the session does not take them.

What a session has printed last says where its debugger stands. This is kept line
by line: a line that is answered without a command repeats the prompt, and one
that quits prints nothing.
-/

set_option autoImplicit false

namespace FormulaStepper

open Formula

namespace Text

/-- The lines of the bytes, each with the line feed that ends it. -/
def lines : List UInt8 → List (List UInt8)
  | [] => []
  | byte :: more => (nextLine (byte :: more)).1 :: lines (nextLine (byte :: more)).2
termination_by bytes => bytes.length
decreasing_by exact length_nextLine_lt byte more

end Text

namespace Terminal

/-! ## What a line asks for -/

/-- The first word of a line, which is empty if there is none. A line with an
open quote has no words. -/
def firstWord? (line : List Char) : Option String :=
  (Text.Words.split? (Text.trim line)).map fun words => String.ofList (words.headD [])

/-- The command that a line gives the debugger. -/
def lineMode? (line : List Char) : Option RunMode :=
  (firstWord? line).bind runMode?

/-- Whether a line quits. -/
def quits (line : List Char) : Bool :=
  (firstWord? line).any isQuit

/-- The commands that the lines of a script give the debugger before one of them
quits. -/
def scriptModes (lines : List (List Char)) : List RunMode :=
  (lines.takeWhile fun line => !quits line).filterMap lineMode?

/-- The first words of the lines that look. -/
def looks : List String := ["stack", "trace", "p", "print", "h", "help"]

/-- A word that quits is no command for the debugger. -/
theorem runMode?_of_isQuit {command : String} (quit : isQuit command = true) :
    runMode? command = none := by
  simp only [isQuit, Bool.or_eq_true, beq_iff_eq] at quit
  rcases quit with rfl | rfl <;> rfl

theorem quits_of_lineMode? {line : List Char} {mode : RunMode}
    (asked : lineMode? line = some mode) : quits line = false := by
  obtain ⟨command, word, known⟩ := Option.bind_eq_some_iff.mp asked
  refine Bool.eq_false_iff.mpr fun quit => ?_
  rw [quits, word] at quit
  rw [runMode?_of_isQuit quit] at known
  cases known

/-- A line that looks, or has an open quote, neither gives a command nor quits. -/
theorem lineMode?_of_looks {line : List Char}
    (looking : firstWord? line = none ∨ ∃ command ∈ looks, firstWord? line = some command) :
    lineMode? line = none ∧ quits line = false := by
  rcases looking with unreadable | ⟨command, known, word⟩
  · rw [lineMode?, quits, unreadable]
    exact ⟨rfl, rfl⟩
  · have each : ∀ command ∈ looks, runMode? command = none ∧ isQuit command = false := by decide
    rw [lineMode?, quits, word]
    exact each command known

section Lines

variable {line : List Char} {lines : List (List Char)}

theorem scriptModes_of_quits (quit : quits line = true) : scriptModes (line :: lines) = [] := by
  simp [scriptModes, quit]

theorem scriptModes_of_mode {mode : RunMode} (asked : lineMode? line = some mode) :
    scriptModes (line :: lines) = mode :: scriptModes lines := by
  simp [scriptModes, quits_of_lineMode? asked, asked]

theorem scriptModes_of_other (stays : quits line = false) (unasked : lineMode? line = none) :
    scriptModes (line :: lines) = scriptModes lines := by
  simp [scriptModes, stays, unasked]

/-- A line that neither gives a command nor quits can be left out. -/
theorem scriptModes_append_other (stays : quits line = false) (unasked : lineMode? line = none)
    (before after : List (List Char)) :
    scriptModes (before ++ line :: after) = scriptModes (before ++ after) := by
  induction before with
  | nil => exact scriptModes_of_other stays unasked
  | cons first before ih =>
    rw [List.cons_append, List.cons_append]
    cases quit : quits first with
    | true => rw [scriptModes_of_quits quit, scriptModes_of_quits quit]
    | false =>
      cases asked : lineMode? first with
      | some mode => rw [scriptModes_of_mode asked, scriptModes_of_mode asked, ih]
      | none => rw [scriptModes_of_other quit asked, scriptModes_of_other quit asked, ih]

end Lines

/-! ## What is printed last -/

/-- The line that shows the value of a formula. -/
def resultLine (value : Value) : String :=
  "\n✅ Result: " ++ value.debugText ++ "\n"

/-- The line that shows why a formula has no value. -/
def failureLine (error : DebugError) : String :=
  "\n❌ Evaluation failed: " ++ error.message ++ "\n"

/-- The output has this at its end. -/
def EndsWith (output last : String) : Prop :=
  ∃ earlier, output = earlier ++ last

/-- What a session prints last: how the formula ended, or another prompt. -/
def closing (debugger : Debugger) : String :=
  if debugger.isFinished then ending debugger else prompt

/-- A session is open unless its debugger is at its end, and has printed last
where that stands. -/
structure Stands (terminal : Terminal) (output : String) : Prop where
  isOpen : terminal.isOpen = !terminal.debugger.isFinished
  shows : EndsWith output (closing terminal.debugger)

theorem settle_debugger (debugger : Debugger) : (settle debugger).1.debugger = debugger := by
  unfold settle
  cases debugger.isFinished <;> rfl

theorem stands_settle (debugger : Debugger) (earlier : String) :
    (settle debugger).1.Stands (earlier ++ (settle debugger).2) := by
  cases finished : debugger.isFinished with
  | true =>
    rw [settle, if_pos finished]
    refine ⟨congrArg not finished.symm, ?_⟩
    rw [closing, if_pos finished]
    exact ⟨_, String.append_assoc.symm⟩
  | false =>
    rw [settle, finished, if_neg Bool.false_ne_true]
    refine ⟨congrArg not finished.symm, ?_⟩
    rw [closing, finished, if_neg Bool.false_ne_true]
    exact ⟨_, String.append_assoc.symm⟩

section Answers

variable {terminal : Terminal} {line : List Char}

/-- The words of a line are obeyed by the first of them. -/
theorem answer_of_words (terminal : Terminal) {words : List (List Char)}
    (split : Text.Words.split? (Text.trim line) = some words) :
    firstWord? line = some ((words.map String.ofList).headD "") ∧
      terminal.answer line = terminal.obey (words.map String.ofList) := by
  rw [firstWord?, answer, split]
  refine ⟨?_, rfl⟩
  cases words <;> rfl

/-- A line with a command gives it to the debugger. -/
theorem answer_of_mode {mode : RunMode} (asked : lineMode? line = some mode) :
    terminal.answer line = settle (terminal.debugger.run mode).2 := by
  cases split : Text.Words.split? (Text.trim line) with
  | none =>
    rw [lineMode?, firstWord?, split] at asked
    cases asked
  | some words =>
    obtain ⟨word, obeyed⟩ := answer_of_words terminal split
    have known : runMode? ((words.map String.ofList).headD "") = some mode := by
      rw [lineMode?, word] at asked
      exact asked
    rw [obeyed, obey]
    simp only [known]

/-- A line that quits closes the session, and nothing is printed. -/
theorem answer_of_quits (quit : quits line = true) :
    terminal.answer line = (⟨terminal.debugger, false⟩, "") := by
  cases split : Text.Words.split? (Text.trim line) with
  | none =>
    rw [quits, firstWord?, split] at quit
    cases quit
  | some words =>
    obtain ⟨word, obeyed⟩ := answer_of_words terminal split
    have known : isQuit ((words.map String.ofList).headD "") = true := by
      rw [quits, word] at quit
      exact quit
    rw [obeyed, obey]
    simp only [runMode?_of_isQuit known, if_pos known]

/-- Any other line is answered with another prompt, and changes nothing. -/
theorem answer_of_other (terminal : Terminal) (unasked : lineMode? line = none)
    (stays : quits line = false) :
    ∃ shown, terminal.answer line = (terminal, shown ++ prompt) := by
  cases split : Text.Words.split? (Text.trim line) with
  | none =>
    rw [answer, split]
    exact ⟨_, rfl⟩
  | some words =>
    obtain ⟨word, obeyed⟩ := answer_of_words terminal split
    have unknown : runMode? ((words.map String.ofList).headD "") = none := by
      rw [lineMode?, word] at unasked
      exact unasked
    have known : ¬isQuit ((words.map String.ofList).headD "") = true := by
      rw [quits, word] at stays
      exact Bool.eq_false_iff.mp stays
    rw [obeyed, obey]
    simp only [unknown, if_neg known]
    exact ⟨_, rfl⟩

end Answers

section Conversations

variable {terminal : Terminal} {input : List UInt8}

theorem converse_of_closed (closed : terminal.isOpen = false) :
    terminal.converse input = (terminal, "", true) := by
  rw [converse.eq_def, closed]
  rfl

theorem converse_nil : terminal.converse [] = (terminal, "", true) := by
  rw [converse.eq_def]
  split <;> rfl

/-- A line that can be read is answered, and then the lines after it. -/
theorem converse_of_line {byte : UInt8} {more : List UInt8} {line : List Char}
    {next final : Terminal} {shown after : String} {readable : Bool}
    (isOpen : terminal.isOpen = true)
    (read : Text.Utf8.decode? (Text.nextLine (byte :: more)).1 = some line)
    (answered : terminal.answer line = (next, shown))
    (rest : next.converse (Text.nextLine (byte :: more)).2 = (final, after, readable)) :
    terminal.converse (byte :: more) = (final, shown ++ after, readable) := by
  rw [converse, if_pos isOpen]
  simp only [read, answered, rest]

/-- A conversation is read to its end, gives the debugger these commands, and
closes as the debugger then stands. -/
def Follows (terminal : Terminal) (output : String) (input : List UInt8) (modes : List RunMode) :
    Prop :=
  ∃ final shown, terminal.converse input = (final, shown, true) ∧
    final.debugger = terminal.debugger.performAll (modes.map .run) ∧
    EndsWith (output ++ shown) (closing final.debugger)

section Follows

variable {output : String} {modes : List RunMode}

/-- Where nothing more is read, commands must do nothing. -/
theorem follows_of_silent (silent : terminal.converse input = (terminal, "", true))
    (shows : EndsWith output (closing terminal.debugger))
    (nothing : terminal.debugger.performAll (modes.map .run) = terminal.debugger) :
    terminal.Follows output input modes :=
  ⟨terminal, "", silent, nothing.symm, String.append_empty.symm ▸ shows⟩

/-- One line, and then the rest. -/
theorem Follows.of_answer {byte : UInt8} {more : List UInt8} {line : List Char} {next : Terminal}
    {shown : String} {rest : List RunMode}
    (follows : next.Follows (output ++ shown) (Text.nextLine (byte :: more)).2 rest)
    (isOpen : terminal.isOpen = true)
    (read : Text.Utf8.decode? (Text.nextLine (byte :: more)).1 = some line)
    (answered : terminal.answer line = (next, shown))
    (given : next.debugger.performAll (rest.map .run) =
      terminal.debugger.performAll (modes.map .run)) :
    terminal.Follows output (byte :: more) modes := by
  obtain ⟨final, after, goes_on, obeys, ends⟩ := follows
  refine ⟨final, _, converse_of_line isOpen read answered goes_on, obeys.trans given, ?_⟩
  rwa [← String.append_assoc]

/-- **A conversation follows its lines.** The debugger is given their commands up
to the first line that quits. By induction on the lines, with what was printed
last as the invariant. -/
theorem Stands.follows {texts : List (List Char)} (stands : terminal.Stands output)
    (readable : (Text.lines input).map Text.Utf8.decode? = texts.map some) :
    terminal.Follows output input (scriptModes texts) := by
  induction input using Text.lines.induct generalizing terminal texts output with
  | case1 =>
    rw [Text.lines, List.map_nil] at readable
    rw [List.map_eq_nil_iff.mp readable.symm]
    exact follows_of_silent converse_nil stands.shows rfl
  | case2 byte more ih =>
    cases isOpen : terminal.isOpen with
    | false =>
      have finished : terminal.debugger.isFinished = true := by simpa [isOpen] using stands.isOpen
      exact follows_of_silent (converse_of_closed isOpen) stands.shows
        (Debugger.performAll_of_isFinished finished _)
    | true =>
      have unfinished : terminal.debugger.isFinished = false := by
        simpa [isOpen] using stands.isOpen
      rw [Text.lines, List.map_cons] at readable
      cases texts with
      | nil => cases readable
      | cons line texts =>
        obtain ⟨read, rest⟩ := List.cons.inj readable
        cases quit : quits line with
        | true =>
          have same : EndsWith (output ++ "") (closing terminal.debugger) :=
            String.append_empty.symm ▸ stands.shows
          have closed : Follows ⟨terminal.debugger, false⟩ (output ++ "")
              (Text.nextLine (byte :: more)).2 [] :=
            follows_of_silent (converse_of_closed rfl) same rfl
          rw [scriptModes_of_quits quit]
          exact closed.of_answer isOpen read (answer_of_quits quit) rfl
        | false =>
          cases asked : lineMode? line with
          | some mode =>
            rw [scriptModes_of_mode asked]
            refine (ih (stands_settle (terminal.debugger.run mode).2 output) rest).of_answer isOpen
              read (answer_of_mode asked) ?_
            rw [settle_debugger]
            rfl
          | none =>
            obtain ⟨shown, answered⟩ := answer_of_other terminal asked quit
            have prompts : terminal.Stands (output ++ (shown ++ prompt)) := by
              refine ⟨stands.isOpen, ?_⟩
              rw [closing, unfinished, if_neg Bool.false_ne_true]
              exact ⟨_, String.append_assoc.symm⟩
            rw [scriptModes_of_other quit asked]
            exact (ih prompts rest).of_answer isOpen read answered rfl

end Follows

end Conversations

/-! ## Whole sessions -/

section Sessions

variable {debugger : Debugger} {formula : Node} {environment : Environment}

/-- Output that ends with a prompt does not end with a whole line. -/
theorem EndsWith.ne_line {output text : String} (prompts : EndsWith output prompt) :
    ¬EndsWith output (text ++ "\n") := by
  rintro ⟨earlier, line⟩
  obtain ⟨before, same⟩ := prompts
  have blank : output.toList.getLast? = some ' ' := by
    rw [same, prompt, ← String.append_assoc, String.toList_append, List.getLast?_append]
    rfl
  rw [line, ← String.append_assoc, String.toList_append, List.getLast?_append] at blank
  cases blank

/-- How a session closes, by the state of its debugger: with the line of the
result, with the line of the failure, or with a prompt, which is at the end of
neither line. -/
structure Closes (debugger : Debugger) (output : String) : Prop where
  finished : debugger.state = .finished ↔
    ∃ value, debugger.result = some value ∧ EndsWith output (resultLine value)
  failed : debugger.state = .failed ↔
    ∃ error, debugger.failure = some error ∧ EndsWith output (failureLine error)
  unfinished : debugger.isFinished = false → EndsWith output prompt ∧
    (∀ value, ¬EndsWith output (resultLine value)) ∧ ∀ error, ¬EndsWith output (failureLine error)

/-- A debugger at its end has closed with its result, or with its failure. -/
theorem closes_of_ends {output : String} {outcome : Except EvalError Value}
    (stands : debugger.Ends outcome) (ends : EndsWith output (ending debugger)) :
    Closes debugger output := by
  have never (unfinished : debugger.isFinished = false) : False :=
    Bool.noConfusion (unfinished.symm.trans stands.isFinished)
  rw [ending] at ends
  cases outcome with
  | ok value =>
    obtain ⟨state, result, no_failure⟩ := stands
    simp only [state, result] at ends
    refine ⟨⟨fun _ => ⟨value, result, ends⟩, fun _ => state⟩, ⟨?_, ?_⟩,
      fun unfinished => (never unfinished).elim⟩
    · intro failed
      cases failed.symm.trans state
    · rintro ⟨error, failure, -⟩
      cases failure.symm.trans no_failure
  | error error =>
    obtain ⟨state, no_result, failure⟩ := stands
    simp only [state, failure] at ends
    refine ⟨⟨?_, ?_⟩, ⟨fun _ => ⟨_, failure, ends⟩, fun _ => state⟩,
      fun unfinished => (never unfinished).elim⟩
    · intro finished
      cases finished.symm.trans state
    · rintro ⟨value, result, -⟩
      cases result.symm.trans no_result

/-- The last words of a debugger are those that its state asks for. -/
theorem closes_of_reached {output : String}
    (reached : Debugger.Reached formula environment debugger)
    (ends : EndsWith output (closing debugger)) : Closes debugger output := by
  cases finished : debugger.isFinished with
  | true =>
    rw [closing, if_pos finished] at ends
    exact closes_of_ends (reached.ends finished) ends
  | false =>
    obtain ⟨-, -, -, -, no_result, no_failure⟩ := reached.course.exists_rest finished
    rw [closing, finished, if_neg Bool.false_ne_true] at ends
    refine ⟨⟨?_, ?_⟩, ⟨?_, ?_⟩, fun _ => ⟨ends, fun _ => ends.ne_line, fun _ => ends.ne_line⟩⟩
    · intro state
      exact absurd state (Debugger.ne_finished_of_isFinished finished)
    · rintro ⟨value, result, -⟩
      cases result.symm.trans no_result
    · intro state
      rw [Debugger.isFinished, state] at finished
      cases finished
    · rintro ⟨error, failure, -⟩
      cases failure.symm.trans no_failure

end Sessions

theorem session_of_converse {debugger : Debugger} {stopOnEntry readable : Bool}
    {script : List UInt8} {final : Terminal} {after : String}
    (goes_on : (start debugger stopOnEntry).1.converse script = (final, after, readable)) :
    session debugger stopOnEntry script =
      (final, (start debugger stopOnEntry).2 ++ after, readable) := by
  rw [session]
  simp only [goes_on]

/-- **A session follows its script.** It leaves the debugger that is launched and
then given the commands of the lines before the first one that quits. A debugger
at its end refuses commands, so those that the session does not come to read
make no difference. The output closes as the state of the debugger asks for. A
line that neither gives a command nor quits can be left out, and every line that
looks or has an open quote is of that kind. -/
theorem session_follows_script (formula : Node) (environment : Environment) (stopOnEntry : Bool)
    {script : List UInt8} {texts : List (List Char)}
    (readable : (Text.lines script).map Text.Utf8.decode? = texts.map some) :
    (∃ final output,
      session (Debugger.start formula environment) stopOnEntry script = (final, output, true) ∧
      final.debugger = (Debugger.start formula environment).performAll
        (.launch stopOnEntry :: (scriptModes texts).map .run) ∧
      Closes final.debugger output) ∧
    (∀ before line after, texts = before ++ line :: after →
      lineMode? line = none → quits line = false →
        scriptModes texts = scriptModes (before ++ after)) ∧
    ∀ line, (firstWord? line = none ∨ ∃ command ∈ looks, firstWord? line = some command) →
      lineMode? line = none ∧ quits line = false := by
  refine ⟨?_, ?_, fun line => lineMode?_of_looks⟩
  · let launched := ((Debugger.start formula environment).launch stopOnEntry).2
    have stands := stands_settle launched ("🐞 Debugging: " ++ formula.text ++ "\n")
    obtain ⟨final, after, goes_on, follows, ends⟩ := stands.follows readable
    rw [settle_debugger] at follows
    have reached : Debugger.Reached formula environment final.debugger :=
      follows ▸ Debugger.Reached.start.performAll
        (.launch stopOnEntry :: (scriptModes texts).map .run)
    exact ⟨final, _, session_of_converse goes_on, follows, closes_of_reached reached ends⟩
  · rintro before line after rfl unasked stays
    exact scriptModes_append_other stays unasked before after

/-- The lines of a user who steps, looks, mistypes, steps over and quits. -/
def typing : List String :=
  ["s\n", "print \"1 + 1\"\n", "say 'it\n", "\n", "n\n", "q\n", "c\n"]

/-- The launch of `-1 + 2`, a step, an empty line and a step over are all that
the debugger is told. -/
theorem session_of_typing :
    let script := Text.Utf8.encode (typing.flatMap String.toList)
    (Text.lines script).map Text.Utf8.decode? = (typing.map String.toList).map some ∧
      scriptModes (typing.map String.toList) = [.stepInto, .stepInto, .stepOver] ∧
      ∃ final output,
        session (Debugger.start Debugger.negatedSum fun _ => none) true script =
          (final, output, true) ∧
        final.debugger = (Debugger.start Debugger.negatedSum fun _ => none).performAll
          [.launch true, .run .stepInto, .run .stepInto, .run .stepOver] ∧
        final.debugger.state = .suspended ∧ EndsWith output prompt := by
  intro script
  have readable : (Text.lines script).map Text.Utf8.decode? =
      (typing.map String.toList).map some := by decide +kernel
  have modes : scriptModes (typing.map String.toList) = [.stepInto, .stepInto, .stepOver] := by
    decide +kernel
  obtain ⟨⟨final, output, goes_on, follows, closes⟩, -⟩ :=
    session_follows_script Debugger.negatedSum (fun _ => none) true readable
  rw [modes] at follows
  have suspended : final.debugger.state = .suspended := by
    rw [follows]
    decide +kernel
  exact ⟨readable, modes, final, output, goes_on, follows, suspended,
    (closes.unfinished (Debugger.isFinished_of_suspended suspended)).1⟩

end Terminal

end FormulaStepper
