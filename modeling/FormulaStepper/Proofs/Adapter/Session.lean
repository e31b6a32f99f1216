import FormulaStepper.Proofs.Adapter.Conversation
import FormulaStepper.Proofs.Debugger.History
import FormulaStepper.Proofs.Debugger.Lifecycle

/-!
# A session is its debugger

Once a formula is debugged, a client drives its debugger by requests to step,
and looks at it by other requests. Looking changes nothing: what a message does
to the debugger, and the events that it brings about, depend on nothing but the
step that it asks for (`Server.drives_respond`). A whole session then is a
debugger under the commands of its step requests, by induction on the messages
received, and sessions with the same step requests have the same events
(`session_is_its_debugger`).
-/

set_option autoImplicit false

namespace FormulaStepper

namespace Debugger

/-- The debugger after commands to run. -/
def runAll (debugger : Debugger) (modes : List RunMode) : Debugger :=
  debugger.performAll (modes.map .run)

theorem runAll_append (debugger : Debugger) (first second : List RunMode) :
    debugger.runAll (first ++ second) = (debugger.runAll first).runAll second := by
  simp only [runAll, performAll, List.map_append, List.foldl_append]

theorem runAll_of_isFinished {debugger : Debugger} (finished : debugger.isFinished = true)
    (modes : List RunMode) : debugger.runAll modes = debugger :=
  performAll_of_isFinished finished (modes.map .run)

end Debugger

namespace Adapter

open Json

/-! ## Both sides -/

/-- The requests to step. -/
def stepCommands : List String := ["continue", "next", "stepIn", "stepOut"]

/-- The number of a request to step, and the command that it gives the
debugger. -/
def Message.step? (message : Message) : Option (Nat × RunMode) :=
  match message.content with
  | .request command _ =>
    if command ∈ stepCommands then (RunMode.ofCommand? command).map fun mode => (message.seq, mode)
    else none
  | .response .. | .event .. => none

/-- The requests to step among messages. -/
def steps (messages : List Message) : List (Nat × RunMode) :=
  messages.filterMap Message.step?

/-- The commands that messages give the debugger. -/
def modes (messages : List Message) : List RunMode :=
  (steps messages).map Prod.snd

/-- The number of a request to step, and whether the response to it is a
success. -/
def Content.verdict? : Content → Option (Nat × Bool)
  | .response requestSeq success command _ _ =>
    if command ∈ stepCommands then some (requestSeq, success) else none
  | .event .. | .request .. => none

/-- The responses to requests to step among contents. -/
def verdicts (contents : List Content) : List (Nat × Bool) :=
  contents.filterMap Content.verdict?

/-- The reports on a debugger that is given commands until it is at its end. -/
def stepReports (debugger : Debugger) : List RunMode → List Content
  | [] => []
  | mode :: modes =>
    if debugger.isFinished then []
    else report (debugger.run mode).2 "step" ++ stepReports (debugger.run mode).2 modes

/-- A request to step succeeds if the debugger is not at its end before it. -/
def stepVerdicts (debugger : Debugger) : List (Nat × RunMode) → List (Nat × Bool)
  | [] => []
  | (requestSeq, mode) :: steps =>
    (requestSeq, !debugger.isFinished) :: stepVerdicts (debugger.run mode).2 steps

section Sides

variable {requestSeq : Nat} {command : String}

theorem stepReports_of_isFinished {debugger : Debugger} (finished : debugger.isFinished = true)
    (modes : List RunMode) : stepReports debugger modes = [] := by
  cases modes with
  | nil => rfl
  | cons mode modes => rw [stepReports, if_pos finished]

theorem stepReports_append (debugger : Debugger) (first second : List RunMode) :
    stepReports debugger (first ++ second) =
      stepReports debugger first ++ stepReports (debugger.runAll first) second := by
  induction first generalizing debugger with
  | nil => rfl
  | cons mode first ih =>
    cases finished : debugger.isFinished with
    | true =>
      rw [stepReports_of_isFinished finished, stepReports_of_isFinished finished,
        Debugger.runAll_of_isFinished finished, stepReports_of_isFinished finished]
      rfl
    | false =>
      rw [List.cons_append, stepReports, stepReports, finished, ih, if_neg Bool.false_ne_true,
        if_neg Bool.false_ne_true, List.append_assoc]
      rfl

theorem stepVerdicts_append (debugger : Debugger) (first second : List (Nat × RunMode)) :
    stepVerdicts debugger (first ++ second) =
      stepVerdicts debugger first ++
        stepVerdicts (debugger.runAll (first.map Prod.snd)) second := by
  induction first generalizing debugger with
  | nil => rfl
  | cons step first ih =>
    rw [List.cons_append, stepVerdicts, stepVerdicts, ih]
    rfl

theorem steps_cons (message : Message) (messages : List Message) :
    steps (message :: messages) = steps [message] ++ steps messages := by
  rw [← List.singleton_append, steps, List.filterMap_append]
  rfl

theorem modes_cons (message : Message) (messages : List Message) :
    modes (message :: messages) = modes [message] ++ modes messages := by
  rw [modes, steps_cons, List.map_append]
  rfl

@[simp] theorem verdicts_append (first second : List Content) :
    verdicts (first ++ second) = verdicts first ++ verdicts second :=
  List.filterMap_append

@[simp] theorem verdicts_report (debugger : Debugger) (reason : String) :
    verdicts (report debugger reason) = [] := by
  rw [report]
  split <;> rfl

end Sides

/-! ## One message -/

/-- What a message comes to in a session: the debugger is given the command of
the message, if it is a request to step, and nothing else happens to it. -/
structure Drives (debugger : Debugger) (bindings : Variables) (message : Message)
    (reply : Server × List Content) : Prop where
  target : reply.1.target = some (debugger.runAll (modes [message]), bindings)
  events : events reply.2 = stepReports debugger (modes [message])
  verdicts : verdicts reply.2 = stepVerdicts debugger (steps [message])

section Session

variable {server : Server} {debugger : Debugger} {bindings : Variables} {message : Message}

theorem steps_of_other (other : message.step? = none) : steps [message] = [] := by
  rw [steps, List.filterMap_cons, other]
  rfl

theorem steps_of_step {step : Nat × RunMode} (asked : message.step? = some step) :
    steps [message] = [step] := by
  rw [steps, List.filterMap_cons, asked]
  rfl

/-- Anything but a request to step does nothing to the debugger. -/
theorem Drives.of_other {reply : Server × List Content} (other : message.step? = none)
    (target : reply.1.target = some (debugger, bindings)) (silent : Adapter.events reply.2 = [])
    (unjudged : Adapter.verdicts reply.2 = []) : Drives debugger bindings message reply where
  target := by rw [modes, steps_of_other other, target]; rfl
  events := by rw [modes, steps_of_other other, silent]; rfl
  verdicts := by rw [steps_of_other other, unjudged]; rfl

/-- A request that is no request to step gets a response, and nothing else. -/
theorem Drives.of_response {command : String} {arguments : Option Json} {content : Content}
    {next : Server} (asked : message.content = .request command arguments)
    (other : command ∉ stepCommands) (target : next.target = some (debugger, bindings))
    (response : content.response? = some (message.seq, command)) :
    Drives debugger bindings message (next, [content]) := by
  cases content with
  | response requestSeq success answered text body =>
    obtain ⟨rfl, rfl⟩ : requestSeq = message.seq ∧ answered = command := by
      simpa [Content.response?] using response
    refine .of_other ?_ target rfl ?_
    · simp only [Message.step?, asked, if_neg other]
    · simp [Adapter.verdicts, Content.verdict?, other]
  | event name body => cases response
  | request command arguments => cases response

/-- A request to step gives the debugger its command. -/
theorem drives_stepTarget {command : String} {arguments : Option Json} {mode : RunMode}
    (asked : message.content = .request command arguments) (known : command ∈ stepCommands)
    (means : RunMode.ofCommand? command = some mode) :
    Drives debugger bindings message
      ({ server with target := some ((stepTarget message.seq command debugger).1, bindings) },
        (stepTarget message.seq command debugger).2) := by
  have step : steps [message] = [(message.seq, mode)] :=
    steps_of_step (by simp only [Message.step?, asked, if_pos known, means, Option.map_some])
  have verdict_success (body : Option Json) (contents : List Content) :
      verdicts (.success message.seq command body :: contents) =
        (message.seq, true) :: verdicts contents := by
    simp [verdicts, Content.verdict?, Content.success, known]
  have verdict_failure (reason : String) :
      verdicts [.failure message.seq command reason] = [(message.seq, false)] := by
    simp [verdicts, Content.verdict?, Content.failure, known]
  rw [stepTarget, means]
  cases finished : debugger.isFinished with
  | true =>
    have same : debugger.runAll [mode] = debugger := Debugger.runAll_of_isFinished finished _
    refine ⟨?_, ?_, ?_⟩
    · simp only [modes, step, List.map_cons, List.map_nil, same, if_true]
    · simp only [modes, step, List.map_cons, List.map_nil, if_true,
        stepReports_of_isFinished finished, events_failure, events_nil]
    · simp only [step, if_true, verdict_failure, stepVerdicts, finished, Bool.not_true]
  | false =>
    refine ⟨?_, ?_, ?_⟩
    · simp only [modes, step, List.map_cons, List.map_nil, Bool.false_eq_true, if_false]
      rfl
    · simp only [modes, step, List.map_cons, List.map_nil, Bool.false_eq_true, if_false,
        stepReports, finished, events_success, events_report, List.append_nil]
    · simp only [step, Bool.false_eq_true, if_false, verdict_success, verdicts_report,
        stepVerdicts, finished, Bool.not_false]

theorem Server.drives_respondDebugging {command : String} {arguments : Option Json}
    (asked : message.content = .request command arguments)
    (target : server.target = some (debugger, bindings)) :
    Drives debugger bindings message
      (server.respondDebugging debugger bindings message.seq command arguments) := by
  unfold respondDebugging
  split
  case h_5 =>
    refine .of_response asked (by decide) target ?_
    rw [evaluate]
    split <;> rfl
  case h_6 | h_7 | h_8 | h_9 => exact drives_stepTarget asked (by decide) rfl
  case h_13 =>
    exact .of_response asked (by simp_all [stepCommands]) target rfl
  all_goals exact .of_response asked (by decide) target rfl

/-- What a message comes to in a session. -/
theorem Server.drives_respond (target : server.target = some (debugger, bindings))
    (message : Message) : Drives debugger bindings message (server.respond message) := by
  obtain ⟨seq, type, content⟩ := message
  cases content with
  | request command arguments =>
    simp only [respond, target]
    exact drives_respondDebugging rfl target
  | response requestSeq success command text body => exact .of_other rfl target rfl rfl
  | event name body => exact .of_other rfl target rfl rfl

/-- A session has no end but that of the conversation. -/
theorem Server.target_handle (begun : server.target ≠ none) :
    (server.handle message).1.target ≠ none := by
  obtain ⟨⟨debugger, bindings⟩, target⟩ := Option.ne_none_iff_exists'.mp begun
  rw [handle_eq, (drives_respond target message).target]
  exact Option.some_ne_none _

end Session

/-! ## A whole session -/

/-- What messages come to in a session. -/
structure DrivesAll (server : Server) (debugger : Debugger) (bindings : Variables)
    (messages : List Message) : Prop where
  target : (server.after messages).target = some (debugger.runAll (modes messages), bindings)
  events : events (server.tells messages) = stepReports debugger (modes messages)
  verdicts : verdicts (server.tells messages) = stepVerdicts debugger (steps messages)

/-- By induction on the messages: the debugger that one message leaves is the
one that the next begins with. -/
theorem Server.drivesAll {server : Server} {debugger : Debugger} {bindings : Variables}
    (target : server.target = some (debugger, bindings)) (messages : List Message) :
    DrivesAll server debugger bindings messages := by
  induction messages generalizing server debugger with
  | nil => exact ⟨target, rfl, rfl⟩
  | cons message messages ih =>
    have drives := drives_respond target message
    have rest : DrivesAll (server.handle message).1 _ bindings messages := ih drives.target
    refine ⟨?_, ?_, ?_⟩
    · rw [after_cons, rest.target, modes_cons message messages, Debugger.runAll_append]
    · rw [tells, events_append, drives.events, rest.events, modes_cons message messages,
        stepReports_append]
    · rw [tells, verdicts_append, drives.verdicts, rest.verdicts,
        steps_cons message messages, stepVerdicts_append]
      rfl

/-- What a valid launch comes to when it is taken up: its debugger has been
launched, and there was no other event than the report on that. -/
theorem Server.Waits.started {server : Server} {message : Message} {config : LaunchConfig}
    {bindings : Variables} {formula : Formula.Node} (waits : server.Waits)
    (taken : server.takenUp? message = some config) (valid : config.toVariables = .ok bindings)
    (parsed : Formula.parse config.formula = .ok formula) :
    let debugger := ((Debugger.start formula bindings.environment).launch config.stopOnEntry).2
    (server.respond message).1.target = some (debugger, bindings) ∧
    (server.respond message).1.isOpen = true ∧
    Adapter.events (server.respond message).2 = report debugger "entry" := by
  intro debugger
  have turns := waits.turns message
  generalize server.respond message = reply at turns
  cases turns with
  | waits settles not_taken not_due => rw [taken] at not_taken; cases not_taken
  | @begins answer reply other settles taken_too due begins =>
    obtain rfl : config = other := Option.some.inj (taken.symm.trans taken_too)
    rw [events_append, waits.silent settles due, List.nil_append]
    cases begins with
    | unset invalid => rw [valid] at invalid; cases invalid
    | unread also_valid refused => rw [parsed] at refused; cases refused
    | started also_valid also_parsed launched =>
      cases valid.symm.trans also_valid
      cases parsed.symm.trans also_parsed
      cases launched
      exact ⟨rfl, (due?_eq_some_iff.mp due).1, events_report _ _⟩

/-- **A session is its debugger.** Once a waiting server takes up a valid
launch, the events are the report on the launch of the debugger, and then the
reports on the commands of the requests to step, one after the other, until the
debugger is at its end. A request to step succeeds if the debugger was not at
its end before it. Hence sessions with the same commands have the same events,
whatever else the client asks for. -/
theorem session_is_its_debugger {server : Server} {message : Message} {config : LaunchConfig}
    {bindings : Variables} {formula : Formula.Node} (waits : server.Waits)
    (taken : server.takenUp? message = some config) (valid : config.toVariables = .ok bindings)
    (parsed : Formula.parse config.formula = .ok formula) :
    let debugger := ((Debugger.start formula bindings.environment).launch config.stopOnEntry).2
    let begun := (server.handle message).2.map Message.content
    let session := fun bytes : List UInt8 =>
      ((server.handle message).1.serve bytes).sent.map Message.content
    (∀ bytes : List UInt8,
      events (begun ++ session bytes) =
        report debugger "entry" ++ stepReports debugger (modes (receive bytes).messages) ∧
      verdicts (session bytes) = stepVerdicts debugger (steps (receive bytes).messages)) ∧
    ∀ first second : List UInt8,
      modes (receive first).messages = modes (receive second).messages →
      events (begun ++ session first) = events (begun ++ session second) := by
  intro debugger begun session
  obtain ⟨target, isOpen, entry⟩ := waits.started taken valid parsed
  have each (bytes : List UInt8) :
      events (begun ++ session bytes) =
        report debugger "entry" ++ stepReports debugger (modes (receive bytes).messages) ∧
      verdicts (session bytes) = stepVerdicts debugger (steps (receive bytes).messages) := by
    have drives := (server.handle message).1.drivesAll target (receive bytes).messages
    have told : session bytes = (server.handle message).1.tells (receive bytes).messages :=
      (server.handle message).1.content_serve bytes isOpen
    have answered : begun = (server.respond message).2 := server.content_handle message
    rw [told, events_append, answered, entry]
    exact ⟨congrArg _ drives.events, drives.verdicts⟩
  refine ⟨each, fun first second same => ?_⟩
  rw [(each first).1, (each second).1, same]

/-- A server whose client is done with its configuration. -/
def Server.declared : Server :=
  { Server.start with configured := true }

/-- A request to launch `-1 + 2`. -/
def launching : Message :=
  .request 2 "launch" (some (record [("formula", .string "-1 + 2")]))

/-- A client that steps, looks, goes on to the end, and tries to step again. -/
def stepping : List UInt8 :=
  [(3, "stepIn"), (4, "stackTrace"), (5, "continue"), (6, "next")].flatMap fun request =>
    framed (Message.request request.1 request.2 none).body

/-- The debugger of `-1 + 2` stops twice and comes to its end, so the last
request to step is refused. -/
theorem session_of_negatedSum :
    Server.declared.Waits ∧
    Server.declared.takenUp? launching = some ⟨"-1 + 2", [], true⟩ ∧
    Formula.parse "-1 + 2" = .ok Debugger.negatedSum ∧
    events ((Server.declared.handle launching).2.map Message.content ++
      ((Server.declared.handle launching).1.serve stepping).sent.map Message.content) =
      report ((Debugger.start Debugger.negatedSum Variables.empty.environment).launch true).2 "entry" ++
        stepReports ((Debugger.start Debugger.negatedSum Variables.empty.environment).launch true).2
          [.stepInto, .continue, .stepOver] ∧
    verdicts (((Server.declared.handle launching).1.serve stepping).sent.map Message.content) =
      [(3, true), (5, true), (6, false)] := by
  have waits : Server.declared.Waits := ⟨rfl, rfl⟩
  have taken : Server.declared.takenUp? launching = some ⟨"-1 + 2", [], true⟩ := by rfl
  have asked : steps (receive stepping).messages =
      [(3, .stepInto), (5, .continue), (6, .stepOver)] := by decide +kernel
  obtain ⟨each, -⟩ := session_is_its_debugger waits taken rfl Debugger.parse_negatedSum
  obtain ⟨reports, judged⟩ := each stepping
  refine ⟨waits, taken, Debugger.parse_negatedSum, ?_, ?_⟩
  · rw [reports, modes, asked]
    rfl
  · rw [judged, asked]
    decide +kernel

end Adapter

end FormulaStepper
