import FormulaStepper.Debugger.Control
import FormulaStepper.Debugger.View
import FormulaStepper.Evaluation.Immediate
import FormulaStepper.Text.Line
import FormulaStepper.Text.Utf8
import FormulaStepper.Text.Words

/-!
# Debugging at a terminal

A terminal session shows where the debugger stands, prompts for a command, and
goes on until the formula has come to its end or the user quits. A line
without words steps into. Commands that only look, and lines that cannot be
understood, are answered and followed by another prompt.
-/

set_option autoImplicit false

namespace FormulaStepper

/-- A debugger at a terminal, and whether it still takes commands. -/
structure Terminal where
  debugger : Debugger
  isOpen : Bool

namespace Terminal

/-- The commands, in a line. -/
def help : String :=
  "Commands: (s)tep/stepIn, (o)ut/stepOut, (n)ext, (c)ontinue, stack, trace, " ++
    "(p)rint \"<formula>\", (q)uit"

/-- What is printed before a command is read. -/
def prompt : String :=
  "\n" ++ help ++ "\n> "

/-- Stack and trace. -/
def views (debugger : Debugger) : String :=
  let stack := debugger.session.stack
  let heading :=
    if stack.frames.isEmpty then "\n=== Call Stack: <empty> ===\n"
    else "\n=== Call Stack (" ++ toString stack.depth ++ " frames) ===\n"
  heading ++ stack.render ++ "\n=== Execution Trace ===\n" ++ debugger.session.trace.render

/-- The line that a debugger which has come to its end is closed with. -/
def ending (debugger : Debugger) : String :=
  match debugger.state with
  | .finished =>
    match debugger.result with
    | some value => "\n✅ Result: " ++ value.debugText ++ "\n"
    | none => "\n✅ Evaluation completed\n"
  | _ =>
    match debugger.failure with
    | some error => "\n❌ Evaluation failed: " ++ error.message ++ "\n"
    | none => "\n❌ Evaluation failed\n"

/-- Shows where the debugger stands, and prompts unless it has come to its
end. -/
def settle (debugger : Debugger) : Terminal × String :=
  if debugger.isFinished then (⟨debugger, false⟩, views debugger ++ ending debugger)
  else
    (⟨debugger, true⟩,
      "\n🔍 Stopped (" ++ Breakpoint.label debugger.current ++ ")\n" ++ views debugger ++ prompt)

/-- Begins the evaluation. -/
def start (debugger : Debugger) (stopOnEntry : Bool) : Terminal × String :=
  let (terminal, shown) := settle (debugger.launch stopOnEntry).2
  (terminal, "🐞 Debugging: " ++ debugger.formula.text ++ "\n" ++ shown)

/-- The value of a formula under the session's variables, without stepping. -/
def printFormula (environment : Environment) (formula : String) : String :=
  if formula.toList.all Text.isBlank then "❌ Usage: print \"<formula>\"\n"
  else
    match evaluateText environment formula with
    | .error error => "❌ " ++ error.message ++ "\n"
    | .ok value => value.debugText ++ "\n"

/-- What a command that looks, or is not known, prints. -/
def look (debugger : Debugger) (command : String) (arguments : List String) : String :=
  match command with
  | "stack" => debugger.session.stack.render
  | "trace" => debugger.session.trace.render
  | "p" | "print" => printFormula debugger.environment (" ".intercalate arguments)
  | "h" | "help" => ""
  | _ => "❓ Unknown command: " ++ command ++ "\n"

/-- Whether a command quits. -/
def isQuit (command : String) : Bool :=
  command == "q" || command == "quit"

/-- The command of a line's first word. A line without one steps into. -/
def runMode? (command : String) : Option RunMode :=
  if command.isEmpty then some .stepInto else RunMode.ofCommand? command

/-- Carries out the words of a line. -/
def obey (terminal : Terminal) (words : List String) : Terminal × String :=
  let command := words.headD ""
  match runMode? command with
  | some mode => settle (terminal.debugger.run mode).2
  | none =>
    if isQuit command then (⟨terminal.debugger, false⟩, "")
    else (terminal, look terminal.debugger command (words.drop 1) ++ prompt)

/-- Takes a line. -/
def answer (terminal : Terminal) (line : List Char) : Terminal × String :=
  match Text.Words.split? (Text.trim line) with
  | none => (terminal, "❌ Unbalanced quotes\n" ++ prompt)
  | some words => terminal.obey (words.map String.ofList)

/-- Takes lines until the session or the input ends. A line that is not UTF-8
ends the session too, and the last component says so. -/
def converse (terminal : Terminal) (input : List UInt8) : Terminal × String × Bool :=
  if terminal.isOpen then
    match input with
    | [] => (terminal, "", true)
    | byte :: more =>
      match Text.Utf8.decode? (Text.nextLine (byte :: more)).1 with
      | none => (terminal, "", false)
      | some line =>
        let (terminal, shown) := terminal.answer line
        let (terminal, after, readable) :=
          terminal.converse (Text.nextLine (byte :: more)).2
        (terminal, shown ++ after, readable)
  else (terminal, "", true)
termination_by input.length
decreasing_by exact Text.length_nextLine_lt byte more

/-- A whole session with its input given beforehand. -/
def session (debugger : Debugger) (stopOnEntry : Bool) (input : List UInt8) :
    Terminal × String × Bool :=
  let (terminal, shown) := start debugger stopOnEntry
  let (terminal, after, readable) := terminal.converse input
  (terminal, shown ++ after, readable)

end Terminal

end FormulaStepper
