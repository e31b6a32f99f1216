import FormulaStepper.Proofs.Adapter.Session
import Mathlib.Computability.Language

/-!
# The order of events

What a server may still send, as a language of event names, depends on nothing
but where it stands (`Server.remaining`): before a session, greetings and
aborted launches and then perhaps a session; in one, stops and then perhaps the
end; and nothing once the debugger is at its end. The answer to a message,
followed by what is allowed after it, is allowed before it
(`Server.append_mem_remaining`), and so the events of a conversation are in
order (`Server.names_mem_remaining`).
-/

set_option autoImplicit false

namespace FormulaStepper.Adapter

open Computability

/-- The name of an event. -/
def Content.eventName? : Content → Option String
  | .event name _ => some name
  | .response .. | .request .. => none

/-- The names of the events among contents. -/
def eventNames (contents : List Content) : List String :=
  contents.filterMap Content.eventName?

/-- What comes at the end of a formula, or instead of its beginning. -/
def ending : Language String := {["output", "terminated"]}

/-- What may come before a session. -/
def preamble : Language String := {["initialized"]} + ending

/-- What may come after a stop of a session. -/
def afterStop : Language String := {["stopped"]}∗ * (1 + ending)

/-- The events of a session: an end at once, or stops that an end may follow. -/
def session : Language String := ending + {["stopped"]} * afterStop

/-- The events that a server may send. -/
def eventOrder : Language String := preamble∗ * (1 + session)

section Names

@[simp] theorem eventNames_append (first second : List Content) :
    eventNames (first ++ second) = eventNames first ++ eventNames second :=
  List.filterMap_append

theorem eventNames_events (contents : List Content) :
    eventNames (events contents) = eventNames contents := by
  rw [eventNames, events, List.filterMap_filter]
  refine congrArg (List.filterMap · contents) (funext fun content => ?_)
  cases content <;> rfl

theorem eventNames_of_silent {contents : List Content} (silent : events contents = []) :
    eventNames contents = [] := by
  rw [← eventNames_events, silent]
  rfl

/-- A report says that the debugger stopped, or that it is at its end. -/
theorem eventNames_report (debugger : Debugger) (reason : String) :
    eventNames (report debugger reason) =
      if debugger.isFinished then ["output", "terminated"] else ["stopped"] := by
  rw [report, Debugger.isFinished]
  cases debugger.state <;> rfl

end Names

section Order

variable {names rest : List String}

theorem nil_mem_afterStop : [] ∈ afterStop :=
  Language.append_mem_mul (Language.nil_mem_kstar _) (.inl rfl)

theorem ending_mem_afterStop : ["output", "terminated"] ∈ afterStop :=
  Language.append_mem_mul (Language.nil_mem_kstar _) (.inr rfl)

theorem stopped_mem_afterStop (allowed : rest ∈ afterStop) : ["stopped"] ++ rest ∈ afterStop := by
  rw [afterStop, ← Language.one_add_self_mul_kstar_eq_kstar, add_mul, mul_assoc]
  exact .inr (Language.append_mem_mul rfl allowed)

theorem nil_mem_eventOrder : [] ∈ eventOrder :=
  Language.append_mem_mul (Language.nil_mem_kstar _) (.inl rfl)

theorem session_mem_eventOrder (allowed : rest ∈ session) : rest ∈ eventOrder :=
  Language.append_mem_mul (Language.nil_mem_kstar _) (.inr allowed)

theorem preamble_mem_eventOrder (first : names ∈ preamble) (allowed : rest ∈ eventOrder) :
    names ++ rest ∈ eventOrder := by
  rw [eventOrder, ← Language.one_add_self_mul_kstar_eq_kstar, add_mul, mul_assoc]
  exact .inr (Language.append_mem_mul first allowed)

end Order

/-- The events that a server may still send: in a session, none once the
debugger is at its end. -/
def Server.remaining (server : Server) : Language String :=
  match server.target with
  | none => eventOrder
  | some (debugger, _) => if debugger.isFinished then 1 else afterStop

section Steps

variable {server : Server} {message : Message} {rest : List String}

theorem remaining_of_waiting (target : server.target = none) : server.remaining = eventOrder := by
  rw [Server.remaining, target]

theorem remaining_of_session {debugger : Debugger} {bindings : Variables}
    (target : server.target = some (debugger, bindings)) :
    server.remaining = if debugger.isFinished then 1 else afterStop := by
  rw [Server.remaining, target]

/-- The report on a command says what its debugger allows after it. -/
theorem report_mem_afterStop {debugger : Debugger} (reason : String)
    (allowed : rest ∈ (if debugger.isFinished then 1 else afterStop : Language String)) :
    eventNames (report debugger reason) ++ rest ∈ afterStop := by
  rw [eventNames_report]
  cases finished : debugger.isFinished with
  | true =>
    obtain rfl : rest = [] := by simpa [finished] using allowed
    exact ending_mem_afterStop
  | false => exact stopped_mem_afterStop (by simpa [finished] using allowed)

theorem report_mem_session {debugger : Debugger} (reason : String)
    (allowed : rest ∈ (if debugger.isFinished then 1 else afterStop : Language String)) :
    eventNames (report debugger reason) ++ rest ∈ session := by
  rw [eventNames_report]
  cases finished : debugger.isFinished with
  | true =>
    obtain rfl : rest = [] := by simpa [finished] using allowed
    exact .inl rfl
  | false => exact .inr (Language.append_mem_mul rfl (by simpa [finished] using allowed))

/-- In a session a request to step is reported on, and nothing else is. -/
theorem Drives.append_mem_remaining {debugger : Debugger} {bindings : Variables}
    {reply : Server × List Content} (drives : Drives debugger bindings message reply)
    (allowed : rest ∈ reply.1.remaining) :
    eventNames reply.2 ++ rest ∈
      (if debugger.isFinished then 1 else afterStop : Language String) := by
  rw [remaining_of_session drives.target] at allowed
  rw [← eventNames_events, drives.events]
  cases finished : debugger.isFinished with
  | true =>
    rw [Debugger.runAll_of_isFinished finished, finished] at allowed
    rw [stepReports_of_isFinished finished]
    exact allowed
  | false =>
    cases asked : message.step? with
    | none =>
      have no_step : modes [message] = [] := congrArg _ (steps_of_other asked)
      rw [no_step, show debugger.runAll [] = debugger from rfl, finished] at allowed
      rw [no_step]
      exact allowed
    | some step =>
      have one_step : modes [message] = [step.2] := congrArg _ (steps_of_step asked)
      rw [one_step, show debugger.runAll [step.2] = (debugger.run step.2).2 from rfl] at allowed
      rw [one_step, stepReports, finished, stepReports, List.append_nil]
      exact report_mem_afterStop _ allowed

/-- What becomes of a launch is the beginning of a session, or comes before
one. -/
theorem Server.Begins.append_mem {config : LaunchConfig} {reply : Server × List Content}
    (begins : server.Begins config reply) (target : server.target = none)
    (allowed : rest ∈ reply.1.remaining) : eventNames reply.2 ++ rest ∈ eventOrder := by
  cases begins with
  | unset invalid | unread valid refused =>
    rw [remaining_of_waiting target] at allowed
    exact preamble_mem_eventOrder (.inr rfl) allowed
  | started valid parsed launched =>
    rw [remaining_of_session rfl] at allowed
    exact session_mem_eventOrder (report_mem_session _ allowed)

/-- The answer to a message, and what is allowed after it, are allowed before
it. -/
theorem Server.append_mem_remaining (ready : server.target = none → server.Waits)
    (allowed : rest ∈ (server.respond message).1.remaining) :
    eventNames (server.respond message).2 ++ rest ∈ server.remaining := by
  cases target : server.target with
  | some pair =>
    rw [remaining_of_session target]
    exact (drives_respond target message).append_mem_remaining allowed
  | none =>
    rw [remaining_of_waiting target]
    have turns := (ready target).turns message
    generalize server.respond message = reply at turns allowed
    cases turns with
    | @waits answer settles not_taken not_due =>
      rw [remaining_of_waiting (settles.target.trans target)] at allowed
      rw [← eventNames_events, settles.events]
      split
      · exact preamble_mem_eventOrder (.inl rfl) allowed
      · exact allowed
    | @begins answer reply config settles taken due begins =>
      rw [eventNames_append, eventNames_of_silent ((ready target).silent settles due)]
      exact begins.append_mem (settles.target.trans target) allowed

/-- By induction on the messages: what is told of the first and what is told
of the others are in order. -/
theorem Server.names_mem_remaining (ready : server.target = none → server.Waits)
    (messages : List Message) : eventNames (server.tells messages) ∈ server.remaining := by
  induction messages generalizing server with
  | nil =>
    rw [remaining]
    split
    · exact nil_mem_eventOrder
    · split
      · exact Language.nil_mem_one
      · exact nil_mem_afterStop
  | cons message messages ih =>
    rw [tells, eventNames_append]
    have later : eventNames ((server.handle message).1.tells messages) ∈
        (server.handle message).1.remaining := by
      refine ih fun target => ?_
      cases begun : server.target with
      | none => exact (ready begun).handle target
      | some pair => exact absurd target (target_handle (begun ▸ Option.some_ne_none pair))
    exact append_mem_remaining ready later

theorem isFinished_of_terminated {debugger : Debugger} {reason : String}
    (ended : "terminated" ∈ eventNames (report debugger reason)) : debugger.isFinished = true := by
  rw [eventNames_report] at ended
  split at ended
  · assumption
  · simp at ended

/-- The event that no more will come is sent in a session only when the
debugger is at its end. -/
theorem Server.isFinished_of_terminated (ready : server.target = none → server.Waits)
    {debugger : Debugger} {bindings : Variables}
    (begun : (server.respond message).1.target = some (debugger, bindings))
    (ended : "terminated" ∈ eventNames (server.respond message).2) :
    debugger.isFinished = true := by
  cases target : server.target with
  | some pair =>
    obtain ⟨before, bindings⟩ := pair
    have drives := drives_respond target message
    rw [drives.target] at begun
    rw [← eventNames_events, drives.events] at ended
    cases begun
    cases asked : message.step? with
    | none =>
      rw [modes, steps_of_other asked] at ended
      cases ended
    | some step =>
      rw [modes, steps_of_step asked] at ended ⊢
      rw [List.map_cons, List.map_nil, stepReports] at ended
      split at ended
      · cases ended
      · rw [stepReports, List.append_nil] at ended
        exact Adapter.isFinished_of_terminated ended
  | none =>
    have turns := (ready target).turns message
    generalize server.respond message = reply at turns begun ended
    cases turns with
    | waits settles not_taken not_due =>
      rw [settles.target, target] at begun
      cases begun
    | begins settles taken due begins =>
      rw [eventNames_append, eventNames_of_silent ((ready target).silent settles due)] at ended
      cases begins with
      | unset invalid => cases (settles.target.trans target).symm.trans begun
      | unread valid refused => cases (settles.target.trans target).symm.trans begun
      | started valid parsed launched =>
        cases begun
        exact Adapter.isFinished_of_terminated ended

end Steps

end FormulaStepper.Adapter
