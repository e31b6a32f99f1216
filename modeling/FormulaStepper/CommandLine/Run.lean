import FormulaStepper.Adapter.Server
import FormulaStepper.CommandLine.Options
import FormulaStepper.CommandLine.Report
import FormulaStepper.Launch.Assignment
import FormulaStepper.Terminal

/-!
# Running the program

The program debugs a formula at the terminal, or serves a debug client. The
formula and its variables come from a configuration file and from the
arguments; the arguments win. What is run is decided here; reading files and
streams is left to the caller.
-/

set_option autoImplicit false

namespace FormulaStepper.CommandLine

/-- The program's name and version. -/
def versionLine : String := "formula-debugger 0.1.0\n"

/-- The usage of the program. -/
def usageLine : String :=
  "Usage: formula-debugger [OPTIONS] [FORMULA]\n\n" ++
    "Options: --var <NAME=VALUE>, --config <CONFIG>, --no-stop-on-entry, --dap, --help, --version\n"

/-- A terminal session to begin. -/
structure Launch where
  debugger : Debugger
  stopOnEntry : Bool

/-- The failure of a configuration in a file. -/
def configFailure (file : String) (error : ConfigError) : Failure :=
  ⟨"loading " ++ file, error.message :: error.cause?.toList⟩

/-- The configuration of the arguments, given what reading a file brings. -/
def configOf (options : Options) (contents : Except FileError (List UInt8)) :
    Except Failure LaunchConfig := do
  let config ← match options.config with
    | none => .ok (LaunchConfig.ofFormula "")
    | some file => (LaunchConfig.ofFile contents).mapError (configFailure file)
  .ok
    { config with
      formula := options.formula.getD config.formula
      stopOnEntry := config.stopOnEntry && !options.noStopOnEntry }

/-- Adds assignments to variables, one after the other. -/
def assign : Variables → List String → Except ConfigError Variables
  | bindings, [] => .ok bindings
  | bindings, assignment :: rest => do
    let (name, value) ← parseAssignment assignment
    assign (bindings.insert name value) rest

/-- The terminal session that options ask for. -/
def launchOf (options : Options) (contents : Except FileError (List UInt8)) :
    Except Failure Launch := do
  let config ← configOf options contents
  if config.formula.toList.all Text.isBlank then
    .error ⟨"no formula given; pass one as an argument or through --config", []⟩
  else
    let bindings ← (do assign (← config.toVariables) options.assignments).mapError
      fun (error : ConfigError) => Failure.mk error.message []
    match Formula.parse config.formula with
    | .error error => .error ⟨"parsing '" ++ config.formula ++ "'", [error.message]⟩
    | .ok formula => .ok ⟨Debugger.start formula bindings.environment, config.stopOnEntry⟩

/-- The failure that a terminal session ends in, if it does: input that is
not UTF-8, or a formula without value. -/
def sessionFailure? (debugger : Debugger) (readable : Bool) : Option Failure :=
  if readable then debugger.failure.map fun error => ⟨error.message, []⟩
  else some ⟨FileError.invalidUtf8.message, []⟩

/-- The failure of serving a client. -/
def servingFailure (error : Adapter.InputError) : Failure :=
  ⟨"dap server failed", [error.message]⟩

/-- What a run of the program leaves: the exit code and the two outputs. -/
structure Outcome where
  code : Nat
  output : String
  errors : String
deriving Repr, DecidableEq

/-- The outcome of a run that printed this before it ended. -/
def Outcome.ofFailure (output : String) : Option Failure → Outcome
  | none => ⟨0, output, ""⟩
  | some failure => ⟨1, output, failure.report⟩

/-- A run as a terminal session, with all of its input given. -/
def runTerminal (options : Options) (contents : Except FileError (List UInt8))
    (input : List UInt8) : Outcome :=
  match launchOf options contents with
  | .error failure => .ofFailure "" (some failure)
  | .ok launch =>
    let (terminal, shown, readable) := Terminal.session launch.debugger launch.stopOnEntry input
    .ofFailure shown (sessionFailure? terminal.debugger readable)

/-- A run as a server, with all of its input given. -/
def runServer (input : List UInt8) : Outcome :=
  let served := Adapter.Server.start.serve input
  let output := String.join (served.sent.map Adapter.Message.wire)
  match served.outcome with
  | .ok _ => .ofFailure output none
  | .error error => .ofFailure output (some (servingFailure error))

/-- A run of the program, given the contents of files and all of its input. -/
def run (arguments : List String) (contents : String → Except FileError (List UInt8))
    (input : List UInt8) : Outcome :=
  match read arguments with
  | .unusable => ⟨2, "", usageLine⟩
  | .showVersion => ⟨0, versionLine, ""⟩
  | .showHelp => ⟨0, usageLine, ""⟩
  | .run options =>
    if options.adapter then runServer input
    else runTerminal options (contents (options.config.getD "")) input

end FormulaStepper.CommandLine
