import FormulaStepper.Adapter.Server
import FormulaStepper.Proofs.Adapter.Frames

/-!
# One response for each request

A server is a loop around `Server.respond`. Whatever it is in the middle of,
it answers a request with contents of which exactly one is a response, to that
request (`Server.responds_respond`), and answers nothing else. A whole exchange
follows by induction on the messages that it receives: those up to the first
request to disconnect, or up to the end of the input or an error (`receive`).
Responses then correspond to requests one by one and in order, the numbers of
the messages sent are consecutive, and the bytes sent are frames.
-/

set_option autoImplicit false

namespace FormulaStepper.Adapter

open Json Text

section Sides

/-- The number and the command of the request that a content answers. -/
def Content.response? : Content → Option (Nat × String)
  | .response requestSeq _ command _ _ => some (requestSeq, command)
  | .event .. | .request .. => none

/-- The number and the command of the request that a message answers. -/
def Message.response? (message : Message) : Option (Nat × String) :=
  message.content.response?

/-- The number and the command of a request. -/
def Message.request? (message : Message) : Option (Nat × String) :=
  match message.content with
  | .request command _ => some (message.seq, command)
  | .response .. | .event .. => none

/-- Whether a message is the request to disconnect. -/
def Message.isDisconnect (message : Message) : Bool :=
  match message.content with
  | .request command _ => command = "disconnect"
  | .response .. | .event .. => false

/-- What a server receives from an input: messages, and then either the bytes
left after the request to disconnect or at the end of the input, or an error. -/
structure Received where
  messages : List Message
  outcome : Except InputError (List UInt8)

/-- Reads messages up to the first request to disconnect, the end of the input
or an error. -/
def receive (bytes : List UInt8) : Received :=
  match read : readMessage bytes with
  | .error error => ⟨[], .error error⟩
  | .ok none => ⟨[], .ok []⟩
  | .ok (some (message, rest)) =>
    if message.isDisconnect then ⟨[message], .ok rest⟩
    else
      have := length_lt_of_readMessage read
      let received := receive rest
      { received with messages := message :: received.messages }
termination_by bytes.length
decreasing_by assumption

end Sides

/-- The requests that contents answer. -/
def answered (contents : List Content) : List (Nat × String) :=
  contents.filterMap Content.response?

section Contents

variable {requestSeq : Nat} {command : String}

@[simp] theorem answered_append (first second : List Content) :
    answered (first ++ second) = answered first ++ answered second :=
  List.filterMap_append

@[simp] theorem answered_success (body : Option Json) (contents : List Content) :
    answered (.success requestSeq command body :: contents) =
      (requestSeq, command) :: answered contents := rfl

@[simp] theorem answered_failure (reason : String) (contents : List Content) :
    answered (.failure requestSeq command reason :: contents) =
      (requestSeq, command) :: answered contents := rfl

@[simp] theorem answered_nil : answered [] = [] := rfl

@[simp] theorem answered_report (debugger : Debugger) (reason : String) :
    answered (report debugger reason) = [] := by
  rw [report]
  split <;> rfl

@[simp] theorem answered_evaluate (bindings : Variables) (arguments : Option Json)
    (contents : List Content) :
    answered (evaluate requestSeq command bindings arguments :: contents) =
      (requestSeq, command) :: answered contents := by
  rw [evaluate]
  split <;> rfl

@[simp] theorem answered_stepTarget (debugger : Debugger) :
    answered (stepTarget requestSeq command debugger).2 = [(requestSeq, command)] := by
  rw [stepTarget]
  split
  · rfl
  · split <;> simp

end Contents

/-- The server answers a request with one response, and is closed after it if
it is to disconnect. -/
structure Server.Replies (server : Server) (requestSeq : Nat) (command : String)
    (reply : Server × List Content) : Prop where
  seq : reply.1.seq = server.seq
  isOpen : reply.1.isOpen = (server.isOpen && command ≠ "disconnect")
  answered : answered reply.2 = [(requestSeq, command)]

/-- The server goes on, and what it says meanwhile is no response. -/
structure Server.Proceeds (server : Server) (reply : Server × List Content) : Prop where
  seq : reply.1.seq = server.seq
  isOpen : reply.1.isOpen = server.isOpen
  answered : answered reply.2 = []

namespace Server

variable (server : Server)

@[simp] theorem isOpen_disconnect : server.disconnect.isOpen = false := rfl

theorem replies_respondIdle (requestSeq : Nat) (command : String) (arguments : Option Json) :
    server.Replies requestSeq command (server.respondIdle requestSeq command arguments) := by
  unfold respondIdle
  split
  -- the configuration of a launch may be refused
  case h_2 => split <;> exact ⟨rfl, by simp, rfl⟩
  all_goals exact ⟨rfl, by simp_all, rfl⟩

theorem replies_respondDebugging (debugger : Debugger) (bindings : Variables) (requestSeq : Nat)
    (command : String) (arguments : Option Json) :
    server.Replies requestSeq command
      (server.respondDebugging debugger bindings requestSeq command arguments) := by
  unfold respondDebugging
  -- only the step commands and `evaluate` build their answers elsewhere
  split <;> exact ⟨rfl, by simp_all, by simp⟩

/-- A launch is taken up, or aborted, without a further response. -/
theorem proceeds_takeUp : server.Proceeds server.takeUp := by
  unfold takeUp
  split
  · unfold beginTarget
    split
    · exact ⟨rfl, rfl, rfl⟩
    · split
      · exact ⟨rfl, rfl, rfl⟩
      · exact ⟨rfl, rfl, answered_report _ _⟩
  · exact ⟨rfl, rfl, rfl⟩

/-- A reply is still one when the server proceeds. -/
theorem Replies.proceed {server : Server} {requestSeq : Nat} {command : String}
    {reply further : Server × List Content} (replies : server.Replies requestSeq command reply)
    (proceeds : reply.1.Proceeds further) :
    server.Replies requestSeq command (further.1, reply.2 ++ further.2) where
  seq := proceeds.seq.trans replies.seq
  isOpen := proceeds.isOpen.trans replies.isOpen
  answered := by
    rw [answered_append, replies.answered, proceeds.answered, List.append_nil]

/-- A request gets a reply, whatever the server is in the middle of. -/
theorem replies_respond (message : Message) {command : String} {arguments : Option Json}
    (asked : message.content = .request command arguments) :
    server.Replies message.seq command (server.respond message) := by
  simp only [respond, asked]
  cases server.target with
  | some target => exact server.replies_respondDebugging ..
  | none => exact (server.replies_respondIdle ..).proceed (proceeds_takeUp _)

/-- What a server does with a message: to a request there is one response, and
anything else is ignored. -/
structure Responds (message : Message) (reply : Server × List Content) : Prop where
  seq : reply.1.seq = server.seq
  isOpen : reply.1.isOpen = (server.isOpen && !message.isDisconnect)
  answered : answered reply.2 = message.request?.toList
  silent : message.request? = none → reply.2 = []

theorem responds_respond (message : Message) : server.Responds message (server.respond message) := by
  obtain ⟨seq, type, content⟩ := message
  cases content with
  | request command arguments =>
    have replies := server.replies_respond ⟨seq, type, .request command arguments⟩ rfl
    exact ⟨replies.seq, by simpa [Message.isDisconnect] using replies.isOpen, replies.answered,
      fun other => (by cases other)⟩
  | response requestSeq success command text body =>
    exact ⟨rfl, (Bool.and_true _).symm, rfl, fun _ => rfl⟩
  | event name body => exact ⟨rfl, (Bool.and_true _).symm, rfl, fun _ => rfl⟩

end Server

section Numbers

@[simp] theorem length_numbered (last : Nat) (contents : List Content) :
    (Server.numbered last contents).length = contents.length := by
  induction contents generalizing last with
  | nil => rfl
  | cons content contents ih => rw [Server.numbered, List.length_cons, ih, List.length_cons]

/-- Numbers follow one another after the last number used. -/
theorem seq_numbered (last : Nat) (contents : List Content) :
    (Server.numbered last contents).map Message.seq = List.range' (last + 1) contents.length := by
  induction contents generalizing last with
  | nil => rfl
  | cons content contents ih =>
    rw [Server.numbered, List.map_cons, ih, List.length_cons, List.range'_succ]

theorem response?_numbered (last : Nat) (contents : List Content) :
    (Server.numbered last contents).filterMap Message.response? = answered contents := by
  induction contents generalizing last with
  | nil => rfl
  | cons content contents ih =>
    rw [Server.numbered, List.filterMap_cons, ih]
    rfl

theorem type_numbered (last : Nat) (contents : List Content) :
    ∀ message ∈ Server.numbered last contents, message.type = message.content.type := by
  induction contents generalizing last with
  | nil => exact fun message member => (by cases member)
  | cons content contents ih =>
    intro message member
    rcases List.mem_cons.mp member with rfl | further
    · rfl
    · exact ih _ message further

end Numbers

/-- What is sent for a message: to a request, messages of which one is the
response to it; to anything else, nothing. -/
structure Answers (message : Message) (sent : List Message) : Prop where
  response : sent.filterMap Message.response? = message.request?.toList
  silent : message.request? = none → sent = []

/-- What handling a message comes to: the messages sent have the next numbers
and answer it, and the server is closed after it if it was to disconnect. -/
structure Server.Handles (server : Server) (message : Message) (reply : Server × List Message) :
    Prop where
  seq : reply.1.seq = server.seq + reply.2.length
  isOpen : reply.1.isOpen = (server.isOpen && !message.isDisconnect)
  numbers : reply.2.map Message.seq = List.range' (server.seq + 1) reply.2.length
  typed : ∀ sent ∈ reply.2, sent.type = sent.content.type
  answers : Answers message reply.2

theorem Server.handles_handle (server : Server) (message : Message) :
    server.Handles message (server.handle message) := by
  have responds := server.responds_respond message
  rw [handle]
  generalize server.respond message = reply at responds
  obtain ⟨next, contents⟩ := reply
  have same : next.seq = server.seq := responds.seq
  exact {
    seq := by simp [send, same]
    isOpen := responds.isOpen
    numbers := by simp [send, same, seq_numbered]
    typed := type_numbered _ _
    answers :=
      { response := (response?_numbered _ _).trans responds.answered
        silent := fun other => congrArg (numbered next.seq) (responds.silent other) } }

section Serving

variable {server : Server} {bytes rest : List UInt8}

theorem Server.serve_of_closed (closed : server.isOpen = false) :
    server.serve bytes = ⟨[], .ok bytes⟩ := by
  rw [serve, if_neg (by rw [closed]; exact Bool.false_ne_true)]

theorem Server.serve_of_error {error : InputError} (isOpen : server.isOpen = true)
    (read : readMessage bytes = .error error) : server.serve bytes = ⟨[], .error error⟩ := by
  rw [serve, if_pos isOpen]
  split <;> simp_all

theorem Server.serve_of_end (isOpen : server.isOpen = true)
    (read : readMessage bytes = .ok none) : server.serve bytes = ⟨[], .ok []⟩ := by
  rw [serve, if_pos isOpen]
  split <;> simp_all

theorem Server.serve_of_message {message : Message} (isOpen : server.isOpen = true)
    (read : readMessage bytes = .ok (some (message, rest))) :
    server.serve bytes =
      ⟨(server.handle message).2 ++ ((server.handle message).1.serve rest).sent,
        ((server.handle message).1.serve rest).outcome⟩ := by
  rw [serve, if_pos isOpen]
  split <;> simp_all

/-- What is sent corresponds to what is received. Serving ends where receiving
does, the messages sent have the numbers after the last one used, and they are
the answers to the messages received, one answer after the other. -/
structure Corresponds (last : Nat) (received : Received) (served : Served) : Prop where
  outcome : served.outcome = received.outcome
  numbers : served.sent.map Message.seq = List.range' (last + 1) served.sent.length
  typed : ∀ message ∈ served.sent, message.type = message.content.type
  answers : ∃ answers, answers.flatten = served.sent ∧
    List.Forall₂ Answers received.messages answers

theorem Corresponds.nil (last : Nat) (outcome : Except InputError (List UInt8)) :
    Corresponds last ⟨[], outcome⟩ ⟨[], outcome⟩ :=
  ⟨rfl, rfl, fun _ member => (by cases member), [], rfl, .nil⟩

/-- The correspondence is kept when one more message is handled before. -/
theorem Corresponds.handle {message : Message} {reply : Server × List Message}
    {received : Received} {served : Served} (handles : server.Handles message reply)
    (corresponds : Corresponds reply.1.seq received served) :
    Corresponds server.seq ⟨message :: received.messages, received.outcome⟩
      ⟨reply.2 ++ served.sent, served.outcome⟩ := by
  obtain ⟨answers, sent_after, each⟩ := corresponds.answers
  refine ⟨corresponds.outcome, ?_, ?_, reply.2 :: answers, ?_, .cons handles.answers each⟩
  · have next : reply.1.seq + 1 = server.seq + 1 + reply.2.length := by
      rw [handles.seq, Nat.add_right_comm]
    rw [List.map_append, handles.numbers, corresponds.numbers, next, List.range'_append_1,
      List.length_append]
  · intro other member
    rcases List.mem_append.mp member with here | later
    · exact handles.typed other here
    · exact corresponds.typed other later
  · rw [List.flatten_cons, sent_after]

/-- By induction on the messages received: the server is open until it has
handled the request to disconnect. -/
theorem Server.corresponds_serve (server : Server) (bytes : List UInt8)
    (isOpen : server.isOpen = true) :
    Corresponds server.seq (receive bytes) (server.serve bytes) := by
  fun_induction receive bytes generalizing server with
  | case1 bytes error read =>
    rw [serve_of_error isOpen read]
    exact .nil _ _
  | case2 bytes read =>
    rw [serve_of_end isOpen read]
    exact .nil _ _
  | case3 bytes message rest read disconnects =>
    have handles := server.handles_handle message
    have closed : (server.handle message).1.isOpen = false := by
      rw [handles.isOpen, disconnects, Bool.not_true, Bool.and_false]
    have ended : Corresponds (server.handle message).1.seq ⟨[], .ok rest⟩
        ((server.handle message).1.serve rest) := by
      rw [serve_of_closed closed]
      exact .nil _ _
    rw [serve_of_message isOpen read]
    exact ended.handle handles
  | case4 bytes message rest read stays fewer received ih =>
    have handles := server.handles_handle message
    have still : (server.handle message).1.isOpen = true := by
      rw [handles.isOpen, isOpen, Bool.eq_false_of_not_eq_true stays]
      rfl
    rw [serve_of_message isOpen read]
    exact (ih _ still).handle handles

/-- Responses correspond to requests, one by one and in order. -/
theorem responses_of_answers {messages : List Message} {answers : List (List Message)}
    (each : List.Forall₂ Answers messages answers) :
    answers.flatten.filterMap Message.response? = messages.filterMap Message.request? := by
  induction each with
  | nil => rfl
  | @cons message answer messages answers one each ih =>
    rw [List.flatten_cons, List.filterMap_append, ih, one.response]
    cases asked : message.request? <;> simp [asked]

end Serving

/-- The bytes sent. -/
def Served.output (served : Served) : List UInt8 :=
  served.sent.flatMap fun message => Utf8.encode message.wire.toList

theorem output_eq_framed (served : Served) :
    served.output = (served.sent.map Message.body).flatMap framed := by
  simp only [Served.output, encode_wire, List.flatMap_map]

/-- **Each request gets one response.** Whatever a server is in the middle of
and whatever its input is, what it sends corresponds to what it receives up to
the first request to disconnect, the end of the input or an error. The
responses among it carry the numbers and commands of the requests received,
one by one and in order. It sends its messages as frames, which a reader of
headers takes apart again as long as their lengths are sizes. -/
theorem one_response_for_each_request (server : Server) (bytes : List UInt8)
    (isOpen : server.isOpen = true) :
    let received := receive bytes
    let served := server.serve bytes
    Corresponds server.seq received served ∧
    served.sent.filterMap Message.response? = received.messages.filterMap Message.request? ∧
    served.output = (served.sent.map Message.body).flatMap framed ∧
    ((∀ message ∈ served.sent, message.body.length ≤ greatestSize) →
      Frames served.output (served.sent.map Message.body)) := by
  intro received served
  have corresponds : Corresponds server.seq received served :=
    server.corresponds_serve bytes isOpen
  obtain ⟨answers, sent, each⟩ := corresponds.answers
  refine ⟨corresponds, ?_, output_eq_framed served, fun fit => ?_⟩
  · rw [← sent]
    exact responses_of_answers each
  · rw [output_eq_framed]
    refine frames_flatMap_framed _ fun body member => ?_
    obtain ⟨message, inside, rfl⟩ := List.mem_map.mp member
    exact fit message inside

/-- A client that greets the server and leaves, and a byte after that. -/
def greeting : List UInt8 :=
  framed (Message.request 1 "initialize" none).body ++
    framed (Message.request 2 "disconnect" none).body ++ [33]

/-- A server that has received nothing responds to the greeting and to the
leave, and reads nothing after it. -/
theorem one_response_for_greeting :
    Server.start.isOpen = true ∧
    Corresponds 0 (receive greeting) (Server.start.serve greeting) ∧
    (Server.start.serve greeting).sent.filterMap Message.response? =
      [(1, "initialize"), (2, "disconnect")] ∧
    (Server.start.serve greeting).sent.map Message.seq = [1, 2, 3] ∧
    (Server.start.serve greeting).outcome = .ok [33] ∧
    Frames (Server.start.serve greeting).output
      ((Server.start.serve greeting).sent.map Message.body) := by
  obtain ⟨corresponds, responses, -, frames⟩ :=
    one_response_for_each_request Server.start greeting rfl
  have requests : (receive greeting).messages.filterMap Message.request? =
      [(1, "initialize"), (2, "disconnect")] := by decide +kernel
  have count : (Server.start.serve greeting).sent.length = 3 := by decide +kernel
  have outcome : (receive greeting).outcome = .ok [33] := by decide +kernel
  refine ⟨rfl, corresponds, responses.trans requests, ?_, corresponds.outcome.trans outcome,
    frames ?_⟩
  · rw [corresponds.numbers, count]
    rfl
  · decide +kernel

end FormulaStepper.Adapter
