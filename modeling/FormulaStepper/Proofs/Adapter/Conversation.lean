import FormulaStepper.Proofs.Adapter.Exchange

/-!
# Conversations

What a server tells depends on the messages that it receives, and not on
the bytes that carry them (`Server.content_serve`): a conversation is the state
of the server after messages (`Server.after`) and what it tells in answer
(`Server.tells`).

While no formula is debugged, a request is answered first, and then a launch
may be taken up (`Server.takenUp?`). Between messages such a server waits: it
has no launch that it should have taken up (`Server.Waits`). What a message
comes to then is listed once, in `Server.Turns`.
-/

set_option autoImplicit false

namespace FormulaStepper.Adapter

open Json

/-- Whether a content is an event. -/
def Content.isEvent : Content → Bool
  | .event .. => true
  | .response .. | .request .. => false

/-- The events among contents. -/
def events (contents : List Content) : List Content :=
  contents.filter Content.isEvent

section Events

variable {requestSeq : Nat} {command : String}

@[simp] theorem events_nil : events [] = [] := rfl

@[simp] theorem events_append (first second : List Content) :
    events (first ++ second) = events first ++ events second :=
  List.filter_append first second

@[simp] theorem events_success (body : Option Json) (contents : List Content) :
    events (.success requestSeq command body :: contents) = events contents := rfl

@[simp] theorem events_failure (reason : String) (contents : List Content) :
    events (.failure requestSeq command reason :: contents) = events contents := rfl

@[simp] theorem events_event (name : String) (body : Option Json) (contents : List Content) :
    events (.event name body :: contents) = .event name body :: events contents := rfl

@[simp] theorem events_report (debugger : Debugger) (reason : String) :
    events (report debugger reason) = report debugger reason := by
  rw [report]
  split <;> rfl

end Events

namespace Server

variable (server : Server)

/-- The server after messages. -/
def after (messages : List Message) : Server :=
  messages.foldl (fun server message => (server.handle message).1) server

/-- What a server tells in answer to messages. -/
def tells (server : Server) : List Message → List Content
  | [] => []
  | message :: messages =>
    (server.respond message).2 ++ (server.handle message).1.tells messages

theorem after_cons (message : Message) (messages : List Message) :
    server.after (message :: messages) = (server.handle message).1.after messages := rfl

theorem after_concat (messages : List Message) (message : Message) :
    server.after (messages ++ [message]) = ((server.after messages).handle message).1 := by
  rw [after, List.foldl_append]
  rfl

theorem content_numbered (last : Nat) (contents : List Content) :
    (numbered last contents).map Message.content = contents := by
  induction contents generalizing last with
  | nil => rfl
  | cons content contents ih => rw [numbered, List.map_cons, ih]

theorem content_handle (message : Message) :
    (server.handle message).2.map Message.content = (server.respond message).2 :=
  content_numbered _ _

/-- Numbering the answer changes nothing else in the server. -/
theorem handle_eq (message : Message) :
    (server.handle message).1 =
      { (server.respond message).1 with
        seq := (server.respond message).1.seq + (server.respond message).2.length } := rfl

/-- A conversation over bytes is one over the messages received. -/
theorem content_serve (bytes : List UInt8) (isOpen : server.isOpen = true) :
    (server.serve bytes).sent.map Message.content = server.tells (receive bytes).messages := by
  fun_induction receive bytes generalizing server with
  | case1 bytes error read => rw [serve_of_error isOpen read]; rfl
  | case2 bytes read => rw [serve_of_end isOpen read]; rfl
  | case3 bytes message rest read disconnects =>
    have closed : (server.handle message).1.isOpen = false := by
      rw [(server.handles_handle message).isOpen, disconnects, Bool.not_true, Bool.and_false]
    rw [serve_of_message isOpen read, serve_of_closed closed, List.append_nil, content_handle,
      tells, tells, List.append_nil]
  | case4 bytes message rest read stays fewer received ih =>
    have still : (server.handle message).1.isOpen = true := by
      rw [(server.handles_handle message).isOpen, isOpen, Bool.eq_false_of_not_eq_true stays]
      rfl
    rw [serve_of_message isOpen read, List.map_append, content_handle, ih _ still, tells]

end Server

/-! ## Before a formula is debugged -/

/-- Whether a message is a request of a command. -/
def Message.asks (message : Message) (command : String) : Bool :=
  match message.content with
  | .request asked _ => asked = command
  | .response .. | .event .. => false

/-- The configuration of a request to launch that is accepted. -/
def Message.launch? (message : Message) : Option LaunchConfig :=
  match message.content with
  | .request "launch" arguments => (LaunchConfig.ofJson (arguments.getD .null)).toOption
  | _ => none

theorem Message.asks_unique {message : Message} {first second : String}
    (asks_first : message.asks first = true) (asks_second : message.asks second = true) :
    first = second := by
  unfold asks at asks_first asks_second
  split at asks_first
  · simp_all
  · cases asks_first
  · cases asks_first

theorem Message.asks_launch {message : Message} {config : LaunchConfig}
    (launches : message.launch? = some config) : message.asks "launch" = true := by
  unfold launch? at launches
  split at launches
  · next asked => simp [asks, asked]
  · cases launches

namespace Server

variable (server : Server)

/-- What the answer to a request does while no formula is debugged. A launch
becomes the pending one if it is accepted, and a declaration is kept. -/
structure Settles (message : Message) (reply : Server × List Content) : Prop where
  target : reply.1.target = server.target
  pending : reply.1.pending = message.launch?.or server.pending
  configured : reply.1.configured = (server.configured || message.asks "configurationDone")
  isOpen : reply.1.isOpen = (server.isOpen && !message.isDisconnect)
  events : events reply.2 = if message.asks "initialize" then [.event "initialized" none] else []

theorem settles_respondIdle {message : Message} {command : String} {arguments : Option Json}
    (asked : message.content = .request command arguments) :
    server.Settles message (server.respondIdle message.seq command arguments) := by
  obtain ⟨seq, type, content⟩ := message
  cases asked
  have isOpen := (server.replies_respondIdle seq command arguments).isOpen
  unfold respondIdle at isOpen ⊢
  split
  case h_2 =>
    cases read : LaunchConfig.ofJson (arguments.getD .null) <;>
      constructor <;> simp [Message.launch?, Message.asks, Message.isDisconnect, read, Except.toOption]
  case h_6 => constructor <;> simp [Message.launch?, Message.asks, Message.isDisconnect, disconnect]
  all_goals constructor <;> simp_all [Message.launch?, Message.asks, Message.isDisconnect]

/-- The launch that is to be taken up: a pending one, once the configuration
is declared. -/
def due? : Option LaunchConfig :=
  if server.isOpen && server.configured then server.pending else none

theorem takeUp_of_due {config : LaunchConfig} (due : server.due? = some config) :
    server.takeUp = beginTarget { server with pending := none } config := by
  rw [due?] at due
  split at due
  · next declared => rw [takeUp, declared, due]
  · cases due

theorem takeUp_of_not_due (none_due : server.due? = none) : server.takeUp = (server, []) := by
  rw [due?] at none_due
  rw [takeUp]
  split
  · simp_all
  · rfl

/-- The launch that is taken up after the answer to a message. -/
def takenUp? (message : Message) : Option LaunchConfig :=
  match server.target, message.content with
  | none, .request command arguments =>
    (server.respondIdle message.seq command arguments).1.due?
  | _, _ => none

/-- The server debugs no formula, and has no launch that is to be taken up. -/
structure Waits : Prop where
  target : server.target = none
  not_due : server.due? = none

theorem waits_start : Server.start.Waits := ⟨rfl, rfl⟩

/-- What becomes of a launch that is taken up: a session begins, or the launch
is aborted because a variable cannot be set or the formula cannot be read. -/
inductive Begins (config : LaunchConfig) : Server × List Content → Prop where
  | unset {error : ConfigError} (invalid : config.toVariables = .error error) :
      Begins config (server, aborted error.message)
  | unread {bindings : Variables} {error : Formula.ParseError}
      (valid : config.toVariables = .ok bindings)
      (refused : Formula.parse config.formula = .error error) :
      Begins config (server, aborted error.message)
  | started {bindings : Variables} {formula : Formula.Node} {debugger : Debugger}
      (valid : config.toVariables = .ok bindings)
      (parsed : Formula.parse config.formula = .ok formula)
      (launched : ((Debugger.start formula bindings.environment).launch config.stopOnEntry).2 =
        debugger) :
      Begins config ({ server with target := some (debugger, bindings) }, report debugger "entry")

theorem begins_beginTarget (config : LaunchConfig) :
    server.Begins config (server.beginTarget config) := by
  unfold beginTarget
  split
  · next invalid => exact .unset invalid
  · next valid =>
    split
    · next refused => exact .unread valid refused
    · next parsed => exact .started valid parsed rfl

/-- What a message comes to while a server waits: an answer, and then perhaps
the beginning of what was launched. -/
inductive Turns (message : Message) : Server × List Content → Prop where
  | waits {answer : Server × List Content} (settles : server.Settles message answer)
      (not_taken : server.takenUp? message = none) (not_due : answer.1.due? = none) :
      Turns message answer
  | begins {answer reply : Server × List Content} {config : LaunchConfig}
      (settles : server.Settles message answer) (taken : server.takenUp? message = some config)
      (due : answer.1.due? = some config)
      (begins : Begins { answer.1 with pending := none } config reply) :
      Turns message (reply.1, answer.2 ++ reply.2)

/-- A server that waits does something about a message only if it is a
request. -/
theorem Waits.turns {server : Server} (waits : server.Waits) (message : Message) :
    server.Turns message (server.respond message) := by
  obtain ⟨seq, type, content⟩ := message
  cases content with
  | request command arguments =>
    have settles : server.Settles ⟨seq, type, .request command arguments⟩
        (server.respondIdle seq command arguments) := server.settles_respondIdle rfl
    have taken : server.takenUp? ⟨seq, type, .request command arguments⟩ =
        (server.respondIdle seq command arguments).1.due? := by rw [takenUp?, waits.target]
    simp only [respond, waits.target]
    cases due : (server.respondIdle seq command arguments).1.due? with
    | none =>
      rw [takeUp_of_not_due _ due, List.append_nil]
      exact .waits settles (taken.trans due) due
    | some config =>
      rw [takeUp_of_due _ due]
      exact .begins settles (taken.trans due) due (begins_beginTarget _ config)
  | response requestSeq success command text body =>
    refine .waits ⟨rfl, rfl, (Bool.or_false _).symm, (Bool.and_true _).symm, rfl⟩ ?_ waits.not_due
    rw [takenUp?, waits.target]
  | event name body =>
    refine .waits ⟨rfl, rfl, (Bool.or_false _).symm, (Bool.and_true _).symm, rfl⟩ ?_ waits.not_due
    rw [takenUp?, waits.target]

section Due

variable {server : Server} {message : Message} {answer : Server × List Content}
  {config : LaunchConfig}

theorem due?_eq_some_iff :
    server.due? = some config ↔
      server.isOpen = true ∧ server.configured = true ∧ server.pending = some config := by
  rw [due?]
  split <;> simp_all

/-- What an open server waits for is a launch or the declaration. -/
theorem Waits.untaken (waits : server.Waits) (isOpen : server.isOpen = true)
    (configured : server.configured = true) : server.pending = none := by
  have not_due := waits.not_due
  rwa [due?, isOpen, configured, Bool.and_self, if_pos rfl] at not_due

/-- The message that makes a waiting server take a launch up is the launch
itself, or the declaration. -/
theorem Waits.cause (waits : server.Waits) (settles : server.Settles message answer)
    (due : answer.1.due? = some config) :
    message.asks "launch" = true ∨ message.asks "configurationDone" = true := by
  obtain ⟨isOpen, configured, pending⟩ := due?_eq_some_iff.mp due
  rw [settles.isOpen, Bool.and_eq_true] at isOpen
  rw [settles.configured] at configured
  rw [settles.pending] at pending
  cases launches : message.launch? with
  | some config => exact .inl (Message.asks_launch launches)
  | none =>
    cases declared : server.configured with
    | true => simp [launches, waits.untaken isOpen.1 declared] at pending
    | false => exact .inr (by simpa [declared] using configured)

/-- The answer before a launch is taken up has no event. -/
theorem Waits.silent (waits : server.Waits) (settles : server.Settles message answer)
    (due : answer.1.due? = some config) : Adapter.events answer.2 = [] := by
  rw [settles.events, if_neg]
  intro greets
  rcases waits.cause settles due with launches | declares
  · exact absurd (Message.asks_unique greets launches) (by decide)
  · exact absurd (Message.asks_unique greets declares) (by decide)

end Due

section Next

variable {server : Server} {message : Message} {config : LaunchConfig}

/-- Once a launch is aborted, the server waits again. -/
theorem Begins.waits {reply : Server × List Content} (begins : server.Begins config reply)
    (used : server.pending = none) (target : reply.1.target = none) : reply.1.Waits := by
  have not_due : server.due? = none := by
    rw [Server.due?, used, ite_self]
  cases begins with
  | unset invalid => exact ⟨target, not_due⟩
  | unread valid refused => exact ⟨target, not_due⟩
  | started valid parsed launched => cases target

theorem Begins.pending {reply : Server × List Content} (begins : server.Begins config reply) :
    reply.1.pending = server.pending := by
  cases begins <;> rfl

theorem Begins.configured {reply : Server × List Content}
    (begins : server.Begins config reply) : reply.1.configured = server.configured := by
  cases begins <;> rfl

/-- A server without a session waits after every message. -/
theorem Waits.handle (waits : server.Waits)
    (target : (server.handle message).1.target = none) : (server.handle message).1.Waits := by
  have turns := waits.turns message
  rw [handle_eq] at target ⊢
  generalize server.respond message = reply at turns target ⊢
  cases turns with
  | waits settles not_taken not_due => exact ⟨target, not_due⟩
  | begins settles taken due begins =>
    have waits := begins.waits rfl target
    exact ⟨waits.target, waits.not_due⟩

end Next

end Server

end FormulaStepper.Adapter
