import FormulaStepper.Proofs.Adapter.Frames
import FormulaStepper.Proofs.Json.RoundTrip

/-!
# Messages are delivered

A message that is sent is read back as it was, whichever shape it has: the
members that are written for a shape are those of no earlier one
(`content?_members`). A frame is read in front of any other bytes, so messages
that were sent one after the other are read one after the other, up to what
comes after the last (`messages_delivered`).

A frame that is cut short is never read as a message. If it is cut in the
header, the input ends among the headers, or the header is refused; if it is
cut after that, fewer bytes are left than the header announced
(`readMessage_of_cut`).

Numbers have to fit 64 bits. A body or arguments are read back if they are not
null, which would be read as none, and can be read back as JSON values
(`IsPayload`).
-/

set_option autoImplicit false

namespace FormulaStepper.Adapter

open Json Text

/-- A body or arguments that can be read back: not null, with exact numbers,
sorted, and no deeper than a reader of messages follows. -/
structure IsPayload (json : Json) : Prop where
  not_null : json ≠ .null
  exact_numbers : json.IsExact
  sorted : json.IsSorted
  shallow : json.depth ≤ Message.memberRoom

/-- The body or the arguments that a content carries. -/
def Content.payload? : Content → Option Json
  | .response _ _ _ _ body => body
  | .event _ body => body
  | .request _ arguments => arguments

/-- The number of the request that a content refers to. -/
def Content.requestSeq? : Content → Option Nat
  | .response requestSeq _ _ _ _ => some requestSeq
  | .event .. | .request .. => none

/-- A message that can be sent: its numbers and the length of its body fit 64
bits, and what it carries can be read back. -/
structure Message.Sendable (message : Message) : Prop where
  seq : message.seq ≤ greatestSize
  requestSeq : ∀ number, message.content.requestSeq? = some number → number ≤ greatestSize
  payload : ∀ json, message.content.payload? = some json → IsPayload json
  length : message.body.length ≤ greatestSize

/-! ## Members -/

/-- A member that a message can have besides its number and its type. -/
structure IsContentMember (member : String × Json) : Prop where
  name : member.1 ≠ "seq" ∧ member.1 ≠ "type"
  exact_numbers : member.2.IsExact
  sorted : member.2.IsSorted
  shallow : member.2.depth ≤ Message.memberRoom

theorem isContentMember_string {name : String} (other : name ≠ "seq" ∧ name ≠ "type")
    (text : String) : IsContentMember (name, .string text) :=
  ⟨other, trivial, trivial, Nat.zero_le _⟩

theorem isExact_nat {n : Nat} (fits : n ≤ greatestSize) : (Json.nat n).IsExact := by
  constructor
  · omega
  · exact Int.ofNat_le.mpr fits

theorem isContentMember_nat {name : String} (other : name ≠ "seq" ∧ name ≠ "type") {n : Nat}
    (fits : n ≤ greatestSize) : IsContentMember (name, .nat n) :=
  ⟨other, isExact_nat fits, trivial, Nat.zero_le _⟩

theorem IsPayload.isContentMember {json : Json} (payload : IsPayload json) {name : String}
    (other : name ≠ "seq" ∧ name ≠ "type") : IsContentMember (name, json) :=
  ⟨other, payload.exact_numbers, payload.sorted, payload.shallow⟩

theorem isContentMember_of_mem_optionalMember {name : String} {value : Option Json}
    {member : String × Json} (inside : member ∈ optionalMember name value)
    (each : ∀ json, value = some json → IsContentMember (name, json)) :
    IsContentMember member := by
  obtain ⟨json, found, rfl⟩ := List.mem_map.mp inside
  exact each json (Option.mem_toList.mp found)

/-- The members of a content can be read back. -/
theorem Message.Sendable.members {message : Message} (sendable : message.Sendable) :
    ∀ member ∈ message.content.members, IsContentMember member := by
  obtain ⟨seq, type, content⟩ := message
  have payload := sendable.payload
  intro member inside
  cases content with
  | response requestSeq success command text body =>
    simp only [Content.members, List.mem_append, List.mem_cons, List.not_mem_nil, or_false] at inside
    rcases inside with ((rfl | rfl | rfl) | inside) | inside
    · exact isContentMember_nat (by decide) (sendable.requestSeq requestSeq rfl)
    · exact ⟨⟨by simp, by simp⟩, trivial, trivial, Nat.zero_le _⟩
    · exact isContentMember_string (by decide) command
    · refine isContentMember_of_mem_optionalMember inside fun json found => ?_
      obtain ⟨reason, rfl, rfl⟩ := Option.map_eq_some_iff.mp found
      exact isContentMember_string (by decide) reason
    · exact isContentMember_of_mem_optionalMember inside fun json found =>
        (payload json found).isContentMember (by decide)
  | event name body =>
    rcases List.mem_cons.mp inside with rfl | inside
    · exact isContentMember_string (by decide) name
    · exact isContentMember_of_mem_optionalMember inside fun json found =>
        (payload json found).isContentMember (by decide)
  | request command arguments =>
    rcases List.mem_cons.mp inside with rfl | inside
    · exact isContentMember_string (by decide) command
    · exact isContentMember_of_mem_optionalMember inside fun json found =>
        (payload json found).isContentMember (by decide)

theorem membersAreExact_iff {members : List (String × Json)} :
    MembersAreExact members ↔ ∀ member ∈ members, member.2.IsExact := by
  induction members with
  | nil => exact ⟨fun _ _ inside => (by cases inside), fun _ => trivial⟩
  | cons member members ih =>
    obtain ⟨name, value⟩ := member
    rw [MembersAreExact, ih, List.forall_mem_cons]

theorem Message.Sendable.isExact {message : Message} (sendable : message.Sendable) :
    message.toJson.IsExact := by
  refine membersAreExact_iff.mpr fun member inside => ?_
  rcases List.mem_append.mp inside with front | inside
  · rcases List.mem_pair.mp front with rfl | rfl
    · exact isExact_nat sendable.seq
    · exact trivial
  · exact (sendable.members member inside).exact_numbers

theorem readMembers_cons {before after : Message.Partial} {name : String} {value : Draft}
    (read : Message.readMember before name value = .ok after)
    (members : List (Option String × Draft)) :
    Message.readMembers before ((some name, value) :: members) =
      Message.readMembers after members := by
  rw [Message.readMembers]
  change (Message.readMember before name value >>= _) = _
  rw [read]
  rfl

/-- The members of a content are collected in order. -/
theorem readMembers_ofMembers {members : List (String × Json)} {seq : Nat} {type : String}
    (each : ∀ member ∈ members, IsContentMember member) :
    ∀ before : Members,
      Message.readMembers ⟨some seq, some type, before⟩ (Draft.ofMembers members) =
        .ok ⟨some seq, some type, before ++ members⟩ := by
  induction members with
  | nil => intro before; rw [List.append_nil]; rfl
  | cons member members ih =>
    intro before
    obtain ⟨name, value⟩ := member
    rw [List.forall_mem_cons] at each
    obtain ⟨⟨⟨not_seq, not_type⟩, -, sorted, shallow⟩, others⟩ := each
    have read : Message.readMember ⟨some seq, some type, before⟩ name (.ofJson value) =
        .ok ⟨some seq, some type, before ++ [(name, value)]⟩ := by
      unfold Message.readMember
      split
      · exact absurd rfl not_seq
      · exact absurd rfl not_type
      · rw [Draft.asJson, Draft.toJson?_ofJson sorted shallow]
        rfl
    rw [List.append_cons before, Draft.ofMembers, readMembers_cons read]
    exact ih others _

/-! ## Shapes -/

/-- An optional member that is not null is found as it was written, or not at
all. -/
theorem getSome?_of_lookup {members : Members} {name : String} {value : Option Json}
    (not_null : ∀ json, value = some json → json ≠ .null)
    (found : members.lookup name = value) : members.getSome? name = value := by
  rw [Members.getSome?, found]
  split
  · exact absurd rfl (not_null .null rfl)
  · rfl

theorem nat?_nat (n : Nat) : (Json.nat n).nat? = some n := by
  simp [Json.nat, Json.int, Json.nat?]

theorem response?_members {requestSeq : Nat} {success : Bool} {command : String}
    {text : Option String} {body : Option Json} (not_null : ∀ json, body = some json → json ≠ .null) :
    let content := Content.response requestSeq success command text body
    Members.response? content.members = some content := by
  intro content
  have unrepeated : Members.unrepeated content.members
      ["request_seq", "success", "command", "message", "body"] = true := by
    cases text <;> cases body <;> rfl
  have number : Members.get? content.members "request_seq" = some (.nat requestSeq) := rfl
  have message : Members.optionalString? content.members "message" = some text := by
    cases text <;> cases body <;> rfl
  have carried : Members.getSome? content.members "body" = body :=
    getSome?_of_lookup not_null (by cases text <;> cases body <;> rfl)
  rw [Members.response?, if_pos unrepeated, number, message, carried]
  simp only [Option.bind_eq_bind, Option.bind_some, nat?_nat]
  rfl

theorem event?_members {name : String} {body : Option Json}
    (not_null : ∀ json, body = some json → json ≠ .null) :
    Members.event? (Content.event name body).members = some (.event name body) := by
  have unrepeated : Members.unrepeated (Content.event name body).members ["event", "body"] = true := by
    cases body <;> rfl
  have carried : Members.getSome? (Content.event name body).members "body" = body :=
    getSome?_of_lookup not_null (by cases body <;> rfl)
  rw [Members.event?, if_pos unrepeated, carried]
  rfl

theorem request?_members {command : String} {arguments : Option Json}
    (not_null : ∀ json, arguments = some json → json ≠ .null) :
    Members.request? (Content.request command arguments).members =
      some (.request command arguments) := by
  have unrepeated : Members.unrepeated (Content.request command arguments).members
      ["command", "arguments"] = true := by
    cases arguments <;> rfl
  have carried : Members.getSome? (Content.request command arguments).members "arguments" =
      arguments :=
    getSome?_of_lookup not_null (by cases arguments <;> rfl)
  rw [Members.request?, if_pos unrepeated, carried]
  rfl

/-- **The shapes are not mistaken for one another**: the members written for a
content are read as that content. Those of an event have no `request_seq`, and
those of a request have neither that nor `event`. -/
theorem content?_members {content : Content}
    (not_null : ∀ json, content.payload? = some json → json ≠ .null) :
    Members.content? content.members = some content := by
  cases content with
  | response requestSeq success command text body =>
    have carried : ∀ json, body = some json → json ≠ .null := not_null
    rw [Members.content?, response?_members carried]
    rfl
  | event name body =>
    have carried : ∀ json, body = some json → json ≠ .null := not_null
    have no_response : Members.response? (Content.event name body).members = none := by
      cases body <;> rfl
    rw [Members.content?, no_response, event?_members carried]
    rfl
  | request command arguments =>
    have carried : ∀ json, arguments = some json → json ≠ .null := not_null
    have no_response : Members.response? (Content.request command arguments).members = none := by
      cases arguments <;> rfl
    have no_event : Members.event? (Content.request command arguments).members = none := by
      cases arguments <;> rfl
    rw [Members.content?, no_response, no_event, request?_members carried]
    rfl

/-! ## Whole messages -/

section Whole

variable {message : Message} (sendable : message.Sendable)
include sendable

/-- The draft of a message is read as that message. -/
theorem read_ofJson : Message.read (.ofJson message.toJson) = .ok message := by
  obtain ⟨seq, type, content⟩ := message
  have not_null : ∀ json, content.payload? = some json → json ≠ .null :=
    fun json carried => (sendable.payload json carried).not_null
  have number : (Draft.ofJson (.nat seq)).asUnsigned = .ok seq := by
    simp [Json.nat, Json.int, Draft.ofJson, Draft.asUnsigned]
  have first : Message.readMember ⟨none, none, []⟩ "seq" (.ofJson (.nat seq)) =
      .ok ⟨some seq, none, []⟩ := by
    simp [Message.readMember, number, Except.map]
  have second : Message.readMember ⟨some seq, none, []⟩ "type" (.ofJson (.string type)) =
      .ok ⟨some seq, some type, []⟩ := by
    simp [Message.readMember, Draft.ofJson, Draft.asString, Except.map]
  have others : Message.readMembers ⟨some seq, some type, []⟩ (Draft.ofMembers content.members) =
      .ok ⟨some seq, some type, content.members⟩ := readMembers_ofMembers sendable.members []
  have collected : Message.readMembers ⟨none, none, []⟩
      (Draft.ofMembers (("seq", .nat seq) :: ("type", .string type) :: content.members)) =
        .ok ⟨some seq, some type, content.members⟩ := by
    rw [Draft.ofMembers, Draft.ofMembers, readMembers_cons first, readMembers_cons second, others]
  rw [Message.toJson, Draft.ofJson, Message.read, List.cons_append, List.singleton_append, collected]
  change Message.ofPartial ⟨some seq, some type, content.members⟩ = _
  rw [Message.ofPartial, content?_members not_null]

/-- **The body of a message is read as that message.** -/
theorem ofDocument_body : Message.ofDocument (documentOfBytes message.body) = .ok message := by
  have document : documentOfBytes message.body = ⟨.ofJson message.toJson, false⟩ := by
    rw [documentOfBytes, Message.body, Utf8.decodeLongest_encode]
    exact (congrArg Document.ofTokens (List.append_nil _)).trans
      (ofTokens_tokens_write sendable.isExact)
  rw [Message.ofDocument, document, read_ofJson sendable]
  rfl

/-- A message is read from its frame, in front of any other bytes. -/
theorem readMessage_framed (rest : List UInt8) :
    readMessage (framed message.body ++ rest) = .ok (some (message, rest)) := by
  have enough : ¬(message.body ++ rest).length < message.body.length := by
    rw [List.length_append]
    omega
  rw [readMessage, readHeaders_framed rest sendable.length]
  simp only [if_neg enough, List.take_left, List.drop_left, ofDocument_body sendable]

end Whole

/-! ## Frames that are cut short -/

/-- Without a line feed there is only one line. -/
theorem nextLine_of_no_lineFeed {bytes : List UInt8} (inside : 10 ∉ bytes) :
    nextLine bytes = (bytes, []) := by
  induction bytes with
  | nil => rfl
  | cons byte bytes ih =>
    rw [List.mem_cons, not_or] at inside
    rw [nextLine, if_neg (Ne.symm inside.1), ih inside.2]

/-- No message follows a single line, whatever the line says. -/
theorem readHeaders_of_no_lineFeed {bytes : List UInt8} (inside : 10 ∉ bytes) :
    readHeaders none bytes = .ok none ∨ ∃ error, readHeaders none bytes = .error error := by
  have line := nextLine_of_no_lineFeed inside
  have ended (length : Option Nat) : readHeaders length [] = .ok none := by rw [readHeaders]
  rw [readHeaders.eq_def]
  split
  · exact .inl rfl
  · simp only [line, ended]
    split
    · exact .inr ⟨_, rfl⟩
    · next known => cases known
    all_goals exact .inl rfl

/-- A reader that has a length stops at a last line that is empty. -/
theorem readHeaders_of_last_blank (size : Nat) :
    readHeaders (some size) [13] = .ok (some (size, [])) := by
  have blank : readHeader [13] = .ok .blank := by decide
  have line : nextLine [13] = ([13], []) := rfl
  rw [readHeaders.eq_def]
  simp only [line, blank]

/-- A header line that is cut short has no line feed. -/
theorem lineFeed_not_mem_of_cut {text : List Char} (inside : '\n' ∉ text)
    {part missing : List UInt8} (cut : part ++ missing = Utf8.encode (text ++ lineEnd))
    (missed : missing ≠ []) : 10 ∉ part := by
  have lineFeed : Utf8.encode ['\n'] = [10] := by decide
  obtain ⟨others, last, rfl⟩ := List.eq_nil_or_concat missing |>.resolve_left missed
  rw [append_lineEnd, Utf8.encode_append, lineFeed, List.concat_eq_append,
    ← List.append_assoc] at cut
  have front := (List.append_inj' cut rfl).1
  intro member
  have found : 10 ∈ Utf8.encode (text ++ ['\x0d']) := front ▸ List.mem_append_left others member
  exact absurd (Utf8.lineFeed_mem_of_mem_encode found) (by simp [inside])

/-- The headers of a frame that is cut short: the input ends there, or they are
refused, or fewer bytes are left after them than they announce. -/
theorem readHeaders_of_cut {body part missing : List UInt8} (fits : body.length ≤ greatestSize)
    (nonempty : body ≠ []) (cut : part ++ missing = framed body) (missed : missing ≠ []) :
    readHeaders none part = .ok none ∨ (∃ error, readHeaders none part = .error error) ∨
      ∃ left, readHeaders none part = .ok (some (body.length, left)) ∧
        left.length < body.length := by
  have inside : '\n' ∉ announcement body.length := fun member =>
    absurd (isLineEnd_announcement '\n' member) (by decide)
  have after_header (after : List UInt8) :=
    readHeaders_of_length inside after none (readHeader_announcement fits)
  rcases List.append_eq_append_iff.mp cut with ⟨lacking, first, -⟩ | ⟨after, rfl, second⟩
  · by_cases whole : lacking = []
    · -- the first header is there, and nothing after it
      rw [whole, List.append_nil] at first
      rw [← first, ← List.append_nil (Utf8.encode _), after_header, readHeaders]
      exact .inl rfl
    · have one_line := lineFeed_not_mem_of_cut inside first.symm whole
      rcases readHeaders_of_no_lineFeed one_line with ended | refused
      · exact .inl ended
      · exact .inr (.inl refused)
  · have crlf : Utf8.encode lineEnd = [13, 10] := by decide
    rw [after_header]
    rw [crlf] at second
    rcases after with _ | ⟨byte, _ | ⟨next, after⟩⟩
    · exact .inl (by rw [readHeaders])
    · obtain rfl : (13 : UInt8) = byte := (List.cons.inj second).1
      exact .inr (.inr ⟨[], readHeaders_of_last_blank _, List.length_pos_iff.mpr nonempty⟩)
    · simp only [List.cons_append, List.nil_append, List.cons.injEq] at second
      obtain ⟨rfl, rfl, rfl⟩ := second
      have blank : readHeader (Utf8.encode ([] ++ lineEnd)) = .ok .blank := by decide
      have found := readHeaders_of_blank List.not_mem_nil after (after ++ missing).length blank
      rw [List.nil_append, crlf] at found
      have positive := List.length_pos_iff.mpr missed
      exact .inr (.inr ⟨after, found, by rw [List.length_append]; omega⟩)

/-- **A frame that is cut short is never read as a message.** -/
theorem readMessage_of_cut {body part missing : List UInt8} (fits : body.length ≤ greatestSize)
    (nonempty : body ≠ []) (cut : part ++ missing = framed body) (missed : missing ≠ []) :
    readMessage part = .ok none ∨ ∃ error, readMessage part = .error error := by
  rw [readMessage]
  rcases readHeaders_of_cut fits nonempty cut missed with
    ended | ⟨error, refused⟩ | ⟨left, found, fewer⟩
  · exact .inl (by rw [ended])
  · exact .inr ⟨error, by rw [refused]⟩
  · refine .inr ⟨.truncated, ?_⟩
    rw [found]
    exact if_pos fewer

theorem body_ne_nil (message : Message) : message.body ≠ [] := by
  intro empty
  have opened : ∃ rest, message.toJson.write = '\x7b' :: rest := ⟨_, rfl⟩
  obtain ⟨rest, written⟩ := opened
  rw [Message.body, written, Utf8.encode_cons, List.append_eq_nil_iff] at empty
  exact absurd empty.1 (by decide)

/-! ## Streams of messages -/

/-- Reading one message after the other from the bytes gives these messages,
and leaves the rest. -/
inductive Delivers : List UInt8 → List Message → List UInt8 → Prop where
  | done {rest : List UInt8} : Delivers rest [] rest
  | next {bytes after rest : List UInt8} {message : Message} {messages : List Message}
      (read : readMessage bytes = .ok (some (message, after)))
      (further : Delivers after messages rest) : Delivers bytes (message :: messages) rest

/-- **Messages are delivered.** Whatever messages are sent one after the other,
and whatever comes after them, reading as many messages gives just these and
stands at what comes after; at the end of the input there is no further
message. No proper first part of the frame of one message is read as a
message. -/
theorem messages_delivered (messages : List Message)
    (sendable : ∀ message ∈ messages, message.Sendable) (rest : List UInt8) :
    Delivers (messages.flatMap (fun message => Utf8.encode message.wire.toList) ++ rest) messages
      rest ∧
    readMessage [] = .ok none ∧
    ∀ message ∈ messages, ∀ part missing, missing ≠ [] →
      part ++ missing = Utf8.encode message.wire.toList →
      readMessage part = .ok none ∨ ∃ error, readMessage part = .error error := by
  refine ⟨?_, by rw [readMessage, readHeaders], fun message member part missing missed cut => ?_⟩
  · induction messages with
    | nil => exact .done
    | cons message messages ih =>
      rw [List.forall_mem_cons] at sendable
      rw [List.flatMap_cons, List.append_assoc, encode_wire]
      exact .next (readMessage_framed sendable.1 _) (ih sendable.2)
  · rw [encode_wire] at cut
    exact readMessage_of_cut (sendable message member).length (body_ne_nil message) cut missed

/-- A request, its response and an event, one of each shape, with texts that
look like headers and characters that need escapes. -/
def conversation : List Message :=
  [⟨3, "request", .request "evaluate" (some (.object [("expression", .string "'é\n\x01' = \"x\"")]))⟩,
    ⟨0xFFFFFFFFFFFFFFFF, "response",
      .response 3 false "evaluate" (some "Content-Length: 1\x0d\n\x0d\n") none⟩,
    ⟨0, "", .event "öutput" (some (.array [.null, .int (-5), .object [], .bool true]))⟩]

/-- The conversation is delivered in front of another byte. -/
theorem conversation_delivered :
    (∀ message ∈ conversation, message.Sendable) ∧
    Delivers (conversation.flatMap (fun message => Utf8.encode message.wire.toList) ++ [33])
      conversation [33] := by
  have sendable : ∀ message ∈ conversation, message.Sendable := by
    intro message member
    simp only [conversation, List.mem_cons, List.not_mem_nil, or_false] at member
    rcases member with rfl | rfl | rfl
    · refine ⟨by decide, fun number known => (by cases known), fun json carried => ?_,
        by decide +kernel⟩
      cases carried
      exact ⟨nofun, ⟨trivial, trivial⟩, ⟨by simp, trivial, trivial⟩, by decide⟩
    · refine ⟨by decide, fun number known => ?_, fun json carried => (by cases carried),
        by decide +kernel⟩
      cases known
      decide
    · refine ⟨by decide, fun number known => (by cases known), fun json carried => ?_,
        by decide +kernel⟩
      cases carried
      exact ⟨nofun, ⟨trivial, ⟨by decide, by decide⟩, trivial, trivial, trivial⟩,
        ⟨trivial, trivial, ⟨.nil, trivial⟩, trivial, trivial⟩, by decide⟩
  exact ⟨sendable, (messages_delivered conversation sendable [33]).1⟩

end FormulaStepper.Adapter
