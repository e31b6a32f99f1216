import FormulaStepper.Json.Reading

/-!
# Messages of the debug adapter protocol

A message is a numbered JSON object of one of three shapes. A response answers
a request and carries its number, an event stands alone, and a request is what
has the members of neither. The shapes are tried in that order; members that a
shape does not know are skipped, and one that is repeated makes the shape
fail. An optional member may also be null.
-/

set_option autoImplicit false

namespace FormulaStepper.Adapter

open Json

/-- What a message says. -/
inductive Content where
  | response (requestSeq : Nat) (success : Bool) (command : String) (message : Option String)
      (body : Option Json)
  | event (name : String) (body : Option Json)
  | request (command : String) (arguments : Option Json)
deriving Inhabited

/-- A numbered message. -/
structure Message where
  seq : Nat
  type : String
  content : Content
deriving Inhabited

/-- The type under which a content is sent. -/
def Content.type : Content → String
  | .response .. => "response"
  | .event .. => "event"
  | .request .. => "request"

/-- An optional member. -/
def optionalMember (name : String) (value : Option Json) : List (String × Json) :=
  value.toList.map fun json => (name, json)

/-- The members of a content, in the order in which they are written. -/
def Content.members : Content → List (String × Json)
  | .response requestSeq success command message body =>
    [("request_seq", .nat requestSeq), ("success", .bool success), ("command", .string command)] ++
      optionalMember "message" (message.map .string) ++ optionalMember "body" body
  | .event name body => ("event", .string name) :: optionalMember "body" body
  | .request command arguments =>
    ("command", .string command) :: optionalMember "arguments" arguments

/-- A message as JSON. -/
def Message.toJson (message : Message) : Json :=
  .object
    ([("seq", .nat message.seq), ("type", .string message.type)] ++ message.content.members)

/-- The members of a message that belong to its content. -/
abbrev Members := List (String × Json)

namespace Members

/-- Whether no member of these names is repeated. -/
def unrepeated (members : Members) (names : List String) : Bool :=
  names.all fun name => (members.filter (·.1 = name)).length ≤ 1

/-- A member that has to be there. -/
def get? (members : Members) (name : String) : Option Json :=
  members.lookup name

/-- An optional member: null is none. -/
def getSome? (members : Members) (name : String) : Option Json :=
  match members.lookup name with
  | some .null => none
  | found => found

/-- An optional string. The result is `none` for anything else. -/
def optionalString? (members : Members) (name : String) : Option (Option String) :=
  match members.getSome? name with
  | none => some none
  | some json => json.string?.map some

/-- A truth value. -/
def bool? (members : Members) (name : String) : Option Bool :=
  match members.get? name with
  | some (.bool holds) => some holds
  | _ => none

/-- The members as a response. -/
def response? (members : Members) : Option Content :=
  if members.unrepeated ["request_seq", "success", "command", "message", "body"] then do
    let requestSeq ← (← members.get? "request_seq").nat?
    let success ← members.bool? "success"
    let command ← (← members.get? "command").string?
    let message ← members.optionalString? "message"
    some (.response requestSeq success command message (members.getSome? "body"))
  else none

/-- The members as an event. -/
def event? (members : Members) : Option Content :=
  if members.unrepeated ["event", "body"] then do
    let name ← (← members.get? "event").string?
    some (.event name (members.getSome? "body"))
  else none

/-- The members as a request. -/
def request? (members : Members) : Option Content :=
  if members.unrepeated ["command", "arguments"] then do
    let command ← (← members.get? "command").string?
    some (.request command (members.getSome? "arguments"))
  else none

/-- The members as the content of a message. -/
def content? (members : Members) : Option Content :=
  members.response? <|> members.event? <|> members.request?

end Members

namespace Message

/-- The members of a message that were read so far. -/
structure Partial where
  seq : Option Nat
  type : Option String
  rest : Members

/-- The depth that is left for the members of a message. -/
def memberRoom : Nat := maxDepth - 1

/-- Reads one member. -/
def readMember (before : Partial) (name : String) (value : Draft) :
    Except ReadError Partial :=
  match name with
  | "seq" =>
    if before.seq.isSome then .error (.duplicateField name)
    else value.asUnsigned.map fun seq => { before with seq := some seq }
  | "type" =>
    if before.type.isSome then .error (.duplicateField name)
    else value.asString.map fun type => { before with type := some type }
  | _ =>
    (value.asJson memberRoom).map fun json =>
      { before with rest := before.rest ++ [(name, json)] }

/-- Reads the members one after the other. -/
def readMembers : Partial → List (Option String × Draft) → Except ReadError Partial
  | before, [] => .ok before
  | before, (name, value) :: members => do
    let name ← Draft.asName name
    let before ← readMember before name value
    readMembers before members

/-- The message of members. -/
def ofPartial (read : Partial) : Except ReadError Message :=
  match read.seq, read.type, read.rest.content? with
  | none, _, _ => .error (.missingField "seq")
  | _, none, _ => .error (.missingField "type")
  | _, _, none => .error (.noShape "DapMessageContent")
  | some seq, some type, some content => .ok ⟨seq, type, content⟩

/-- Reads a message. -/
def read (draft : Draft) : Except ReadError Message :=
  match draft with
  | .object members closed => do
    let read ← readMembers ⟨none, none, []⟩ members
    Draft.expectClosed closed
    ofPartial read
  | _ => .error (draft.unexpected "struct DapMessage")

/-- The message of a whole text. -/
def ofDocument (document : Document) : Except ReadError Message := do
  let message ← read document.draft
  if document.trailing then .error .notJson else .ok message

end Message

/-- A request to send. -/
def Message.request (seq : Nat) (command : String) (arguments : Option Json) : Message :=
  ⟨seq, "request", .request command arguments⟩

end FormulaStepper.Adapter
