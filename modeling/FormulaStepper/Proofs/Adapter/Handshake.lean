import FormulaStepper.Proofs.Adapter.Delivery
import FormulaStepper.Proofs.Adapter.EventOrder

/-!
# Launches and declarations

A client asks for launches and declares its configuration done, in any order.
A waiting server keeps of its history whether the configuration is declared,
and if not, the last launch that was accepted (`Server.Recalls`). So a launch is
taken up right after the message that brings the second of the two, later
launches replace earlier ones until then, refused ones change nothing, and none
is taken up twice (`Server.Waits.sublist_taken`). The main statement is
`launch_handshake`, with the order of the events.
-/

set_option autoImplicit false

namespace FormulaStepper.Adapter

/-! ## Launches -/

namespace Server

variable (server : Server)

/-- Whether the configuration is declared, at first or in a history. -/
def declares (history : List Message) : Bool :=
  server.configured || history.any (·.asks "configurationDone")

/-- The last launch that was accepted in a history, or is pending at first. -/
def latest? (history : List Message) : Option LaunchConfig :=
  (history.filterMap Message.launch?).getLast?.or server.pending

/-- The launches that are taken up in answer to messages. -/
def taken (server : Server) : List Message → List LaunchConfig
  | [] => []
  | message :: messages =>
    (server.takenUp? message).toList ++ (server.handle message).1.taken messages

/-- A launch is used up by a message: after the answer nothing is pending, and
a session begins or the launch is aborted. -/
inductive Consumes (message : Message) (config : LaunchConfig) : Prop where
  | intro {idle : Server} {answer : List Content} {reply : Server × List Content}
      (used : idle.pending = none) (silent : Adapter.events answer = [])
      (begins : idle.Begins config reply)
      (responds : server.respond message = (reply.1, answer ++ reply.2))

end Server

section Launches

variable {server : Server} {message : Message} {config : LaunchConfig}

theorem Server.taken_of_session (begun : server.target ≠ none) (messages : List Message) :
    server.taken messages = [] := by
  induction messages generalizing server with
  | nil => rfl
  | cons message messages ih =>
    obtain ⟨pair, target⟩ := Option.ne_none_iff_exists'.mp begun
    rw [taken, ih (target_handle begun), takenUp?, target]
    rfl

/-- A launch that is accepted replaces the pending one. -/
theorem sublist_of_or (accepted pending : Option LaunchConfig) :
    (accepted.or pending).toList.Sublist (pending.toList ++ accepted.toList) := by
  cases accepted with
  | none => rw [Option.none_or]; exact List.sublist_append_left _ _
  | some config => rw [Option.some_or]; exact List.sublist_append_right _ _

/-- A launch is either taken up by a message or pending after it, not both, and
it was pending before or is accepted with the message. -/
theorem Server.Waits.sublist_takenUp (waits : server.Waits) :
    ((server.takenUp? message).toList ++ (server.handle message).1.pending.toList).Sublist
      (server.pending.toList ++ message.launch?.toList) := by
  have latest := sublist_of_or message.launch? server.pending
  have turns := waits.turns message
  rw [handle_eq]
  generalize server.respond message = reply at turns ⊢
  cases turns with
  | waits settles not_taken not_due =>
    rw [← settles.pending] at latest
    rwa [not_taken]
  | @begins answer reply config settles taken due begins =>
    have used : reply.1.pending = none := begins.pending
    rw [← settles.pending, (due?_eq_some_iff.mp due).2.2] at latest
    rwa [taken, used]

/-- No launch is taken up twice: those that are taken up are among those that
were accepted, each at most once and in their order. -/
theorem Server.Waits.sublist_taken (waits : server.Waits) (messages : List Message) :
    (server.taken messages).Sublist
      (server.pending.toList ++ messages.filterMap Message.launch?) := by
  induction messages generalizing server with
  | nil => exact List.nil_sublist _
  | cons message messages ih =>
    have later : ((server.handle message).1.taken messages).Sublist
        ((server.handle message).1.pending.toList ++ messages.filterMap Message.launch?) := by
      cases target : (server.handle message).1.target with
      | none => exact ih (waits.handle target)
      | some pair =>
        rw [taken_of_session (target ▸ Option.some_ne_none pair)]
        exact List.nil_sublist _
    have accepted : (message :: messages).filterMap Message.launch? =
        message.launch?.toList ++ messages.filterMap Message.launch? := by
      rw [List.filterMap_cons]
      cases message.launch? <;> rfl
    rw [taken, accepted, ← List.append_assoc]
    refine (later.append_left _).trans ?_
    rw [← List.append_assoc]
    exact waits.sublist_takenUp.append_right _

end Launches

section Recall

variable {server now : Server} {message : Message} {config : LaunchConfig}

/-- What an open server that waits keeps of a history: whether the
configuration is declared, and if not, the last launch. -/
structure Server.Recalls (server : Server) (history : List Message) (now : Server) : Prop where
  waits : now.Waits
  isOpen : now.isOpen = true
  configured : now.configured = server.declares history
  pending : server.declares history = false → now.pending = server.latest? history

/-- Without a session after a history there was none before its last
message. -/
theorem Server.target_of_concat {history : List Message}
    (target : (server.after (history ++ [message])).target = none) :
    (server.after history).target = none := by
  by_contra begun
  rw [after_concat] at target
  exact target_handle begun target

theorem Server.declares_concat (history : List Message) :
    server.declares (history ++ [message]) =
      (server.declares history || message.asks "configurationDone") := by
  simp [declares, Bool.or_assoc]

theorem Server.latest?_concat (history : List Message) :
    server.latest? (history ++ [message]) = message.launch?.or (server.latest? history) := by
  rw [latest?, latest?, List.filterMap_append, List.filterMap_cons, List.filterMap_nil]
  cases message.launch? with
  | none => rw [List.append_nil, Option.none_or]
  | some config => rw [List.getLast?_concat, Option.some_or, Option.some_or]

/-- A request of another command is no request to disconnect. -/
theorem Message.isDisconnect_of_asks {command : String} (asks : message.asks command = true)
    (other : command ≠ "disconnect") : message.isDisconnect = false := by
  have same : message.isDisconnect = message.asks "disconnect" := by
    obtain ⟨seq, type, content⟩ := message
    cases content <;> rfl
  rw [same, Bool.eq_false_iff]
  exact fun leaves => other (asks_unique asks leaves)

/-- A waiting server takes up the last launch with the message that brings it
or the declaration. -/
theorem Server.Recalls.due_iff {history : List Message} {answer : Server × List Content}
    (recalls : server.Recalls history now) (settles : now.Settles message answer) :
    answer.1.due? = some config ↔
      server.declares (history ++ [message]) = true ∧
      server.latest? (history ++ [message]) = some config ∧
      (message.launch?.isSome = true ∨ server.declares history = false) := by
  rw [due?_eq_some_iff, settles.isOpen, settles.configured, settles.pending, recalls.isOpen,
    recalls.configured, latest?_concat, declares_concat, Bool.true_and]
  cases launches : message.launch? with
  | some other =>
    have stays : message.isDisconnect = false :=
      Message.isDisconnect_of_asks (Message.asks_launch launches) (by decide)
    simp [stays]
  | none =>
    cases declared : server.declares history with
    | true => simp [recalls.waits.untaken recalls.isOpen (recalls.configured.trans declared)]
    | false =>
      cases declares : message.asks "configurationDone" with
      | true =>
        have stays : message.isDisconnect = false :=
          Message.isDisconnect_of_asks declares (by decide)
        simp [stays, recalls.pending declared]
      | false => simp

theorem Server.Waits.recalls (waits : server.Waits) (isOpen : server.isOpen = true) :
    server.Recalls [] server :=
  ⟨waits, isOpen, (Bool.or_false _).symm, fun _ => rfl⟩

theorem Server.Recalls.handle {history : List Message} (recalls : server.Recalls history now)
    (stays : message.isDisconnect = false) (target : (now.handle message).1.target = none) :
    server.Recalls (history ++ [message]) (now.handle message).1 := by
  have waits := recalls.waits.handle target
  have isOpen : (now.handle message).1.isOpen = true := by
    rw [(now.handles_handle message).isOpen, recalls.isOpen, stays]
    rfl
  have turns := recalls.waits.turns message
  rw [handle_eq] at waits isOpen ⊢
  generalize now.respond message = reply at turns waits isOpen ⊢
  cases turns with
  | waits settles not_taken not_due =>
    refine ⟨waits, isOpen, ?_, fun undeclared => ?_⟩
    · rw [declares_concat, ← recalls.configured]
      exact settles.configured
    · rw [declares_concat, Bool.or_eq_false_iff] at undeclared
      rw [latest?_concat, ← recalls.pending undeclared.1]
      exact settles.pending
  | @begins answer reply config settles taken due begins =>
    have declared : reply.1.configured = server.declares (history ++ [message]) := by
      rw [begins.configured, declares_concat, ← recalls.configured]
      exact settles.configured
    refine ⟨waits, isOpen, declared, fun undeclared => ?_⟩
    have configured := (due?_eq_some_iff.mp due).2.1
    rw [← declared, begins.configured, configured] at undeclared
    cases undeclared

/-- By induction on the history, from its end. -/
theorem Server.Waits.recalls_after (waits : server.Waits) (isOpen : server.isOpen = true)
    (history : List Message) (stays : ∀ message ∈ history, message.isDisconnect = false)
    (target : (server.after history).target = none) :
    server.Recalls history (server.after history) := by
  induction history using List.reverseRecOn with
  | nil => exact waits.recalls isOpen
  | append_singleton history message ih =>
    have before := ih (fun other member => stays other (List.mem_append_left _ member))
      (target_of_concat target)
    rw [after_concat] at target ⊢
    exact before.handle (stays message (by simp)) target

/-- Nothing is received after a request to disconnect. -/
theorem stays_of_received {bytes : List UInt8} (before later : List Message)
    (received : (receive bytes).messages = before ++ message :: later) :
    ∀ other ∈ before, other.isDisconnect = false := by
  fun_induction receive bytes generalizing before with
  | case1 bytes error read => simp at received
  | case2 bytes read => simp at received
  | case3 bytes first rest read disconnects =>
    cases before with
    | nil => simp
    | cons other before => simp at received
  | case4 bytes first rest read stays fewer more ih =>
    cases before with
    | nil => simp
    | cons other before =>
      obtain ⟨rfl, further⟩ := List.cons.inj received
      exact List.forall_mem_cons.mpr ⟨Bool.eq_false_of_not_eq_true stays, ih before further⟩

end Recall

/-! ## Whole conversations -/

section Conversation

variable {server : Server} {message : Message}

/-- How a message takes part in the launch and the events of a conversation:
`history` came before it, and `later` after it. -/
structure Moment (server : Server) (history : List Message) (message : Message)
    (later : List Message) : Prop where
  /-- A launch is taken up after the message if it is the last one accepted,
  the configuration is declared, and the message brought one of the two. -/
  taken_iff : (server.after history).target = none → ∀ config,
    (server.after history).takenUp? message = some config ↔
      server.declares (history ++ [message]) = true ∧
      server.latest? (history ++ [message]) = some config ∧
      (message.launch?.isSome = true ∨ server.declares history = false)
  /-- A launch that is taken up is used up. -/
  consumed : ∀ config, (server.after history).takenUp? message = some config →
    (server.after history).Consumes message config
  /-- No session begins otherwise. -/
  idle : (server.after history).target = none → (server.after history).takenUp? message = none →
    (server.after (history ++ [message])).target = none
  /-- In a session no launch and no greeting is accepted. -/
  refused : (server.after history).target ≠ none → ∀ command arguments,
    message.content = .request command arguments → command ∈ ["launch", "initialize"] →
    (server.after history).respond message =
      (server.after history, [.failure message.seq command "unsupported request"])
  /-- Nothing more is reported once a session is over. -/
  ended : (server.after (history ++ [message])).target ≠ none →
    "terminated" ∈ eventNames ((server.after history).respond message).2 →
    eventNames ((server.after (history ++ [message])).tells later) = []

theorem Server.Waits.consumes (waits : server.Waits) {config : LaunchConfig}
    (taken : server.takenUp? message = some config) : server.Consumes message config := by
  have turns := waits.turns message
  generalize told : server.respond message = reply at turns
  cases turns with
  | waits settles not_taken not_due => rw [taken] at not_taken; cases not_taken
  | begins settles taken_too due begins =>
    cases taken.symm.trans taken_too
    exact .intro rfl (waits.silent settles due) begins told

theorem Server.Waits.target_of_not_taken (waits : server.Waits)
    (not_taken : server.takenUp? message = none) : (server.handle message).1.target = none := by
  have turns := waits.turns message
  rw [handle_eq]
  generalize server.respond message = reply at turns ⊢
  cases turns with
  | waits settles not_taken not_due => exact settles.target.trans waits.target
  | begins settles taken due begins => rw [taken] at not_taken; cases not_taken

theorem Server.Recalls.taken_iff {now : Server} {history : List Message} {config : LaunchConfig}
    (recalls : server.Recalls history now) :
    now.takenUp? message = some config ↔
      server.declares (history ++ [message]) = true ∧
      server.latest? (history ++ [message]) = some config ∧
      (message.launch?.isSome = true ∨ server.declares history = false) := by
  have turns := recalls.waits.turns message
  generalize now.respond message = reply at turns
  cases turns with
  | waits settles not_taken not_due => rw [not_taken, ← recalls.due_iff settles, not_due]
  | begins settles taken due begins => rw [taken, ← recalls.due_iff settles, due]

/-- A server without a session waits after every history. -/
theorem Server.Waits.after (waits : server.Waits) (history : List Message)
    (target : (server.after history).target = none) : (server.after history).Waits := by
  induction history using List.reverseRecOn with
  | nil => exact waits
  | append_singleton history message ih =>
    have before := ih (target_of_concat target)
    rw [after_concat] at target ⊢
    exact before.handle target

theorem Server.Waits.moment (waits : server.Waits) (isOpen : server.isOpen = true)
    {history : List Message} (stays : ∀ message ∈ history, message.isDisconnect = false)
    (message : Message) (later : List Message) : Moment server history message later where
  taken_iff target config := (waits.recalls_after isOpen history stays target).taken_iff
  consumed config taken := by
    have target : (server.after history).target = none := by
      by_contra begun
      obtain ⟨pair, target⟩ := Option.ne_none_iff_exists'.mp begun
      rw [takenUp?, target] at taken
      cases taken
    exact (waits.after history target).consumes taken
  idle target not_taken := by
    rw [after_concat]
    exact (waits.after history target).target_of_not_taken not_taken
  refused begun command arguments asked known := by
    obtain ⟨pair, target⟩ := Option.ne_none_iff_exists'.mp begun
    simp only [respond, asked, target]
    rcases List.mem_pair.mp known with rfl | rfl <;> rfl
  ended begun ended := by
    have ready := waits.after history
    rw [after_concat] at begun ⊢
    obtain ⟨⟨debugger, bindings⟩, target⟩ := Option.ne_none_iff_exists'.mp begun
    have finished : debugger.isFinished = true := isFinished_of_terminated ready target ended
    have none_left := names_mem_remaining (fun none_begun => absurd none_begun begun) later
    rw [remaining_of_session target, if_pos finished] at none_left
    exact none_left

/-- **Launches and the order of events.** However a client mixes launches and
the declaration, a launch is taken up right after the message that brings the
second of the two, and only then, and none is taken up twice. The events of a
conversation are greetings and aborted launches, and then at most one session,
after which nothing more is accepted or reported. -/
theorem launch_handshake {server : Server} (waits : server.Waits) (isOpen : server.isOpen = true)
    (bytes : List UInt8) :
    let messages := (receive bytes).messages
    (∀ history message later, messages = history ++ message :: later →
      Moment server history message later) ∧
    (server.taken messages).Sublist
      (server.pending.toList ++ messages.filterMap Message.launch?) ∧
    eventNames ((server.serve bytes).sent.map Message.content) ∈ eventOrder := by
  intro messages
  refine ⟨fun history message later received => ?_, waits.sublist_taken messages, ?_⟩
  · exact waits.moment isOpen (stays_of_received history later received) message later
  · rw [server.content_serve bytes isOpen, ← remaining_of_waiting waits.target]
    exact Server.names_mem_remaining (fun _ => waits) messages

end Conversation

/-! ## A launch before the declaration -/

theorem receive_framed {message : Message} (sendable : message.Sendable)
    (stays : message.isDisconnect = false) (rest : List UInt8) :
    (receive (framed message.body ++ rest)).messages = message :: (receive rest).messages := by
  have read := readMessage_framed sendable rest
  rw [receive]
  split <;> simp_all

/-- The request that declares the configuration done. -/
def declaring : Message := .request 3 "configurationDone" none

theorem sendable_launching : launching.Sendable := by
  refine ⟨by decide, fun number known => (by cases known), fun json carried => ?_,
    by decide +kernel⟩
  cases carried
  exact ⟨nofun, ⟨trivial, trivial⟩, ⟨List.pairwise_singleton _ _, trivial, trivial⟩, by decide⟩

theorem sendable_declaring : declaring.Sendable :=
  ⟨by decide, fun number known => (by cases known), fun json carried => (by cases carried),
    by decide +kernel⟩

/-- A launch that comes before the declaration is taken up after it. -/
theorem launch_before_declaration :
    Server.start.Waits ∧ Server.start.isOpen = true ∧
    (Server.start.after [launching]).takenUp? declaring = some ⟨"-1 + 2", [], true⟩ ∧
    (Server.start.after [launching]).Consumes declaring ⟨"-1 + 2", [], true⟩ ∧
    eventNames ((Server.start.serve
      (framed launching.body ++ framed declaring.body)).sent.map Message.content) ∈
      eventOrder := by
  obtain ⟨moments, -, order⟩ := launch_handshake Server.waits_start rfl
    (framed launching.body ++ framed declaring.body)
  have received : (receive (framed launching.body ++ framed declaring.body)).messages =
      [launching] ++ declaring :: (receive []).messages := by
    rw [receive_framed sendable_launching (by rfl), ← List.append_nil (framed declaring.body),
      receive_framed sendable_declaring (by rfl)]
    rfl
  have moment := moments _ _ _ received
  have taken : (Server.start.after [launching]).takenUp? declaring = some ⟨"-1 + 2", [], true⟩ :=
    (moment.taken_iff rfl _).mpr ⟨rfl, rfl, .inr rfl⟩
  exact ⟨Server.waits_start, rfl, taken, moment.consumed _ taken, order⟩

end FormulaStepper.Adapter
