import FormulaStepper.Adapter.Framing
import FormulaStepper.Debugger.Control
import FormulaStepper.Debugger.View
import FormulaStepper.Evaluation.Immediate
import FormulaStepper.Launch.Config
import FormulaStepper.Text.Blank

/-!
# Serving a debug client

The server answers every request with one response, and reports by events how
the debugged formula is getting on. A launch is accepted at any time before a
formula is debugged, and begins once the client has declared its configuration
done; a formula that cannot be debugged is reported as terminated at once.
After that the server debugs the formula until the client disconnects.

What to say to a message does not depend on the numbers of the messages sent
before. So `Server.respond` gives the contents of the answers, and
`Server.handle` numbers them.
-/

set_option autoImplicit false

namespace FormulaStepper.Adapter

open Json

/-- A JSON object with its members in the order of their names. -/
def record (members : List (String × Json)) : Json :=
  .object (Dictionary.ofList members)

/-- The state of a server. Once a formula is debugged, its debugger and
variables are the target. -/
structure Server where
  seq : Nat
  pending : Option LaunchConfig
  configured : Bool
  target : Option (Debugger × Variables)
  isOpen : Bool

/-- A server that has received nothing. -/
def Server.start : Server := ⟨0, none, false, none, true⟩

namespace Content

/-- The response to a request that was carried out. -/
def success (requestSeq : Nat) (command : String) (body : Option Json) : Content :=
  .response requestSeq true command none body

/-- The response to a request that was refused. -/
def failure (requestSeq : Nat) (command reason : String) : Content :=
  .response requestSeq false command (some reason) none

/-- The event that no more will come from the formula. -/
def terminated : Content := .event "terminated" none

/-- The event that carries output. -/
def output (category text : String) : Content :=
  .event "output" (some (record [("category", .string category), ("output", .string text)]))

end Content

/-- The number of the only thread. -/
def threadId : Nat := 1

/-- The reference of the scope of variables. -/
def variablesScope : Nat := 1

/-- The reference of the scope of trace entries. -/
def traceScope : Nat := 2

/-- What the server can do. -/
def capabilities : Json :=
  record
    [("supportsConfigurationDoneRequest", .bool true), ("supportsEvaluateForHovers", .bool true),
      ("supportsStepBack", .bool false), ("supportsFunctionBreakpoints", .bool false),
      ("supportsConditionalBreakpoints", .bool false), ("supportsSetVariable", .bool false)]

/-- The only thread. -/
def threads : Json :=
  record [("threads", .array [record [("id", .nat threadId), ("name", .string "Formula")]])]

/-- A scope under a reference. -/
def scope (name : String) (reference : Nat) : Json :=
  record
    [("name", .string name), ("variablesReference", .nat reference), ("expensive", .bool false)]

/-- The two scopes. -/
def scopes : Json :=
  record
    [("scopes", .array [scope "Variables" variablesScope, scope "Execution Trace" traceScope])]

/-- A formula has no lines, so no breakpoint of a client can be set. -/
def unverified : Json :=
  record
    [("verified", .bool false),
      ("message", .string "formulas have no line breakpoints; use the stepping commands")]

/-- The member of a request's arguments under a name. -/
def argument? (arguments : Option Json) (name : String) : Option Json :=
  arguments.bind (·.member? name)

/-- The answer for the breakpoints that a client asks for. -/
def breakpoints (arguments : Option Json) : Json :=
  let requested := ((argument? arguments "breakpoints").bind Json.items?).getD []
  record [("breakpoints", .array (requested.map fun _ => unverified))]

/-- A frame as a client shows it. -/
def stackFrame (frame : Frame) : Json :=
  let label := frame.name ++ ": (" ++ frame.text ++ ")" ++
    match frame.result with
    | none => ""
    | some value => " = " ++ value.debugText
  record
    [("id", .nat frame.counter), ("name", .string label), ("line", .nat 1),
      ("column", .nat (frame.site.node.span.start + 1))]

/-- The open frames, the innermost first. -/
def stackTrace (debugger : Debugger) : Json :=
  let frames := debugger.session.stack.frames.map stackFrame
  record [("totalFrames", .nat frames.length), ("stackFrames", .array frames)]

/-- A variable as a client shows it. -/
def variableEntry (entry : String × Value) : Json :=
  record
    [("name", .string entry.1), ("value", .string entry.2.debugText),
      ("type", .string entry.2.type.name), ("variablesReference", .nat 0)]

/-- A line of the trace without the blanks at its end. -/
def traceLine (entry : Frame) : String :=
  String.ofList (Text.trimEnd (entry.line entry.level).toList)

/-- An entry of the trace as a client shows it. -/
def traceEntry (entry : Frame × Nat) : Json :=
  record
    [("name", .string (toString entry.2)), ("value", .string (traceLine entry.1)),
      ("variablesReference", .nat 0)]

/-- What stands in the scope of a reference. -/
def scopeEntries (debugger : Debugger) (bindings : Variables) (reference : Nat) : List Json :=
  if reference = variablesScope then bindings.entries.map variableEntry
  else if reference = traceScope then debugger.session.trace.entries.toList.zipIdx.map traceEntry
  else []

/-- The answer for the scope that a client asks for. -/
def scopeVariables (debugger : Debugger) (bindings : Variables) (arguments : Option Json) :
    Json :=
  let reference := ((argument? arguments "variablesReference").bind Json.nat?).getD 0
  record [("variables", .array (scopeEntries debugger bindings reference))]

/-- The answer for a formula that a client wants to know the value of. -/
def evaluate (requestSeq : Nat) (command : String) (bindings : Variables)
    (arguments : Option Json) : Content :=
  let formula := ((argument? arguments "expression").bind Json.string?).getD ""
  match evaluateText bindings.environment formula with
  | .ok value =>
    .success requestSeq command
      (some (record [("result", .string value.debugText), ("variablesReference", .nat 0)]))
  | .error error => .failure requestSeq command error.message

/-- How a debugger is getting on after a command. -/
def report (debugger : Debugger) (reason : String) : List Content :=
  match debugger.state with
  | .finished =>
    let text := (debugger.result.map Value.debugText).getD ""
    [.output "stdout" (text ++ "\n"), .terminated]
  | .failed =>
    let text := (debugger.failure.map DebugError.message).getD "evaluation failed"
    [.output "stderr" (text ++ "\n"), .terminated]
  | .idle | .running | .suspended =>
    [.event "stopped" (some (record
      [("reason", .string reason), ("description", .string (Breakpoint.label debugger.current)),
        ("threadId", .nat threadId), ("allThreadsStopped", .bool true)]))]

/-- The report on a launch that cannot be carried out. -/
def aborted (reason : String) : List Content :=
  [.output "stderr" (reason ++ "\n"), .terminated]

/-- A step command is refused after the end. Otherwise it is answered before
it is carried out, and its outcome is reported after. -/
def stepTarget (requestSeq : Nat) (command : String) (debugger : Debugger) :
    Debugger × List Content :=
  match RunMode.ofCommand? command with
  | none => (debugger, [.failure requestSeq command "unknown step command"])
  | some mode =>
    if debugger.isFinished then
      (debugger, [.failure requestSeq command DebugError.sessionFinished.message])
    else
      let body := if mode = .continue then some (record [("allThreadsContinued", .bool true)])
        else none
      let debugger := (debugger.run mode).2
      (debugger, .success requestSeq command body :: report debugger "step")

namespace Server

/-- Sends nothing more and receives nothing more. -/
def disconnect (server : Server) : Server :=
  { server with isOpen := false }

/-- The answer to a request while no formula is debugged. -/
def respondIdle (server : Server) (requestSeq : Nat) (command : String)
    (arguments : Option Json) : Server × List Content :=
  match command with
  | "initialize" =>
    (server, [.success requestSeq command (some capabilities), .event "initialized" none])
  | "launch" =>
    match LaunchConfig.ofJson (arguments.getD .null) with
    | .ok config =>
      ({ server with pending := some config }, [.success requestSeq command none])
    | .error error => (server, [.failure requestSeq command error.message])
  | "configurationDone" =>
    ({ server with configured := true }, [.success requestSeq command none])
  | "setBreakpoints" => (server, [.success requestSeq command (some (breakpoints arguments))])
  | "threads" => (server, [.success requestSeq command (some threads)])
  | "disconnect" => (server.disconnect, [.success requestSeq command none])
  | _ => (server, [.failure requestSeq command "no formula has been launched"])

/-- Begins to debug the formula of a configuration. -/
def beginTarget (server : Server) (config : LaunchConfig) : Server × List Content :=
  match config.toVariables with
  | .error error => (server, aborted error.message)
  | .ok bindings =>
    match Formula.parse config.formula with
    | .error error => (server, aborted error.message)
    | .ok formula =>
      let debugger :=
        ((Debugger.start formula bindings.environment).launch config.stopOnEntry).2
      ({ server with target := some (debugger, bindings) }, report debugger "entry")

/-- Takes up a pending launch once the client is done with its configuration. -/
def takeUp (server : Server) : Server × List Content :=
  match server.isOpen && server.configured, server.pending with
  | true, some config => beginTarget { server with pending := none } config
  | _, _ => (server, [])

/-- The answer to a request while a formula is debugged. -/
def respondDebugging (server : Server) (debugger : Debugger) (bindings : Variables)
    (requestSeq : Nat) (command : String) (arguments : Option Json) : Server × List Content :=
  match command with
  | "threads" => (server, [.success requestSeq command (some threads)])
  | "stackTrace" => (server, [.success requestSeq command (some (stackTrace debugger))])
  | "scopes" => (server, [.success requestSeq command (some scopes)])
  | "variables" =>
    (server,
      [.success requestSeq command (some (scopeVariables debugger bindings arguments))])
  | "evaluate" => (server, [evaluate requestSeq command bindings arguments])
  | "continue" | "next" | "stepIn" | "stepOut" =>
    let (debugger, contents) := stepTarget requestSeq command debugger
    ({ server with target := some (debugger, bindings) }, contents)
  | "setBreakpoints" => (server, [.success requestSeq command (some (breakpoints arguments))])
  | "configurationDone" => (server, [.success requestSeq command none])
  | "disconnect" => (server.disconnect, [.success requestSeq command none])
  | _ => (server, [.failure requestSeq command "unsupported request"])

/-- The answer to a message. Only requests are answered. -/
def respond (server : Server) (message : Message) : Server × List Content :=
  match message.content with
  | .request command arguments =>
    match server.target with
    | some (debugger, bindings) =>
      server.respondDebugging debugger bindings message.seq command arguments
    | none =>
      let (server, answer) := server.respondIdle message.seq command arguments
      let (server, events) := server.takeUp
      (server, answer ++ events)
  | _ => (server, [])

/-- Numbers contents after the last number used. -/
def numbered (last : Nat) : List Content → List Message
  | [] => []
  | content :: contents => ⟨last + 1, content.type, content⟩ :: numbered (last + 1) contents

/-- Sends contents as messages. -/
def send (server : Server) (contents : List Content) : Server × List Message :=
  ({ server with seq := server.seq + contents.length }, numbered server.seq contents)

/-- Receives a message and sends the answer. -/
def handle (server : Server) (message : Message) : Server × List Message :=
  let (server, contents) := server.respond message
  server.send contents

end Server

/-- What serving an input came to: the messages sent, and either the bytes
left after the client disconnected or the input ended, or an error. -/
structure Served where
  sent : List Message
  outcome : Except InputError (List UInt8)

/-- Serves messages until the client disconnects, the input ends or cannot be
read. -/
def Server.serve (server : Server) (bytes : List UInt8) : Served :=
  if server.isOpen then
    match read : readMessage bytes with
    | .error error => ⟨[], .error error⟩
    | .ok none => ⟨[], .ok []⟩
    | .ok (some (message, rest)) =>
      have := length_lt_of_readMessage read
      let (server, sent) := server.handle message
      let served := server.serve rest
      { served with sent := sent ++ served.sent }
  else ⟨[], .ok bytes⟩
termination_by bytes.length
decreasing_by assumption

end FormulaStepper.Adapter
