import FormulaStepper.Dictionary
import FormulaStepper.Json.Token

/-!
# JSON text as far as it can be read

Who reads a configuration or a message from text looks at it piece by piece,
and reports the first thing wrong in the order of the text: a member of the
wrong kind before a comma that is missing further on. A draft is the tree of a
text up to the first fault of syntax. What was open there is marked as not
closed, and a value that was due there is `Draft.broken`.

Drafts are built from tokens by a reader that knows what may stand next and
which arrays and objects are open. A draft without marks is a JSON value
(`Draft.toJson?`), and every JSON value is one (`Draft.ofJson`).
-/

set_option autoImplicit false

namespace FormulaStepper.Json

/-- A JSON text as far as it could be read. Numbers and strings without value,
and names without value, are kept as such. -/
inductive Draft where
  | null
  | bool (holds : Bool)
  | number (value : Option Number)
  | string (content : Option String)
  | array (items : List Draft) (closed : Bool)
  | object (members : List (Option String × Draft)) (closed : Bool)
  | broken
deriving Inhabited

namespace Draft

/-- An array or object that is open while reading, with what it holds so far.
The name of a member waits for its value. -/
inductive Container where
  | array (items : List Draft)
  | object (members : List (Option String × Draft))
  | member (members : List (Option String × Draft)) (name : Option String)

/-- What may stand next. -/
inductive Need where
  | value
  | itemOrEnd
  | nameOrEnd
  | name
  | colon
  | more

/-- How far a text was read: inside these open containers, innermost first, to
the end of the value, past it, or up to a fault. -/
inductive Reader where
  | inside (need : Need) (stack : List Container)
  | closed (draft : Draft)
  | trailing (draft : Draft)
  | stopped (draft : Draft)

/-- A container without its end. -/
def Container.unclosed (container : Container) (last : Option Draft) : Draft :=
  match container with
  | .array items => .array (items ++ last.toList) false
  | .object members => .object members false
  | .member members name => .object (members ++ [(name, last.getD .broken)]) false

/-- The draft of what was read when the text stops making sense. -/
def abandon : Option Draft → List Container → Draft
  | last, [] => last.getD .broken
  | last, container :: stack => abandon (some (container.unclosed last)) stack

/-- The reader after a value. -/
def Reader.afterValue (value : Draft) : List Container → Reader
  | [] => .closed value
  | .array items :: stack => .inside .more (.array (items ++ [value]) :: stack)
  | .member members name :: stack => .inside .more (.object (members ++ [(name, value)]) :: stack)
  | .object members :: stack => .stopped (abandon (some value) (.object members :: stack))

/-- The reader at the beginning of a value. -/
def Reader.atValue (stack : List Container) : Token → Reader
  | .null => afterValue .null stack
  | .bool holds => afterValue (.bool holds) stack
  | .number value => afterValue (.number value) stack
  | .string content => afterValue (.string (content.map String.ofList)) stack
  | .openBracket => .inside .itemOrEnd (.array [] :: stack)
  | .openBrace => .inside .nameOrEnd (.object [] :: stack)
  | _ => .stopped (abandon none stack)

/-- The reader at the name of a member. -/
def Reader.atName (stack : List Container) (token : Token) : Reader :=
  match stack, token with
  | .object members :: stack, .string name =>
    .inside .colon (.member members (name.map String.ofList) :: stack)
  | _, _ => .stopped (abandon none stack)

/-- The reader at the end of a container. -/
def Reader.atEnd (stack : List Container) (token : Token) : Reader :=
  match stack, token with
  | .array items :: stack, .closeBracket => afterValue (.array items true) stack
  | .object members :: stack, .closeBrace => afterValue (.object members true) stack
  | _, _ => .stopped (abandon none stack)

/-- The reader between two items or members. -/
def Reader.atComma (stack : List Container) : Reader :=
  match stack with
  | .array items :: stack => .inside .value (.array items :: stack)
  | .object members :: stack => .inside .name (.object members :: stack)
  | _ => .stopped (abandon none stack)

/-- Reads one more token. -/
def Reader.read (reader : Reader) (token : Token) : Reader :=
  match reader with
  | .closed draft => .trailing draft
  | .trailing draft => .trailing draft
  | .stopped draft => .stopped draft
  | .inside need stack =>
    match need, token with
    | .itemOrEnd, .closeBracket => atEnd stack token
    | .itemOrEnd, _ => atValue stack token
    | .nameOrEnd, .closeBrace => atEnd stack token
    | .nameOrEnd, _ => atName stack token
    | .more, .comma => atComma stack
    | .more, _ => atEnd stack token
    | .value, _ => atValue stack token
    | .name, _ => atName stack token
    | .colon, .colon => .inside .value stack
    | .colon, _ => .stopped (abandon none stack)

end Draft

/-- A whole text: its value as far as it could be read, and whether anything
stands after it. -/
structure Document where
  draft : Draft
  trailing : Bool
deriving Inhabited

/-- What was read when the text ends. -/
def Draft.Reader.document : Draft.Reader → Document
  | .inside _ stack => ⟨Draft.abandon none stack, false⟩
  | .closed draft => ⟨draft, false⟩
  | .trailing draft => ⟨draft, true⟩
  | .stopped draft => ⟨draft, false⟩

/-- The document of tokens. -/
def Document.ofTokens (tokens : List Token) : Document :=
  (tokens.foldl Draft.Reader.read (.inside .value [])).document

/-- Reads a text. -/
def Document.read (text : List Char) : Document :=
  .ofTokens (tokens text)

namespace Draft

mutual

/-- The value of a draft in which nothing is missing and no more than `room`
arrays and objects are nested. -/
def toJson? (room : Nat) : Draft → Option Json
  | .null => some .null
  | .bool holds => some (.bool holds)
  | .number value => value.map .number
  | .string content => content.map .string
  | .array items closed =>
    if closed ∧ 0 < room then (itemsToJson? (room - 1) items).map .array else none
  | .object members closed =>
    if closed ∧ 0 < room then (membersToJson? (room - 1) members []).map .object else none
  | .broken => none

/-- The values of items. -/
def itemsToJson? (room : Nat) : List Draft → Option (List Json)
  | [] => some []
  | item :: items => do
    let item ← toJson? room item
    let items ← itemsToJson? room items
    some (item :: items)

/-- The dictionary of members, added to those before them. -/
def membersToJson? (room : Nat) :
    List (Option String × Draft) → List (String × Json) → Option (List (String × Json))
  | [], before => some before
  | (name, value) :: members, before => do
    let name ← name
    let value ← toJson? room value
    membersToJson? room members (Dictionary.insert name value before)

end

mutual

/-- Whether the text of a draft was read to its end, whatever its numbers and
strings stand for. -/
def isWhole : Draft → Bool
  | .array items closed => closed && itemsAreWhole items
  | .object members closed => closed && membersAreWhole members
  | .broken => false
  | _ => true

/-- Whether all items were read to their ends. -/
def itemsAreWhole : List Draft → Bool
  | [] => true
  | item :: items => isWhole item && itemsAreWhole items

/-- Whether all members were read to their ends. -/
def membersAreWhole : List (Option String × Draft) → Bool
  | [] => true
  | (_, value) :: members => isWhole value && membersAreWhole members

end

mutual

/-- The draft of a value. -/
def ofJson : Json → Draft
  | .null => .null
  | .bool holds => .bool holds
  | .number value => .number (some value)
  | .string text => .string (some text)
  | .array items => .array (ofItems items) true
  | .object members => .object (ofMembers members) true

/-- The drafts of items. -/
def ofItems : List Json → List Draft
  | [] => []
  | item :: items => ofJson item :: ofItems items

/-- The drafts of members. -/
def ofMembers : List (String × Json) → List (Option String × Draft)
  | [] => []
  | (name, value) :: members => (some name, ofJson value) :: ofMembers members

end

end Draft

/-- The greatest number of nested arrays and objects. -/
def maxDepth : Nat := 127

/-- The value of a whole text. -/
def parse? (text : List Char) : Option Json :=
  let document := Document.read text
  if document.trailing then none else document.draft.toJson? maxDepth

end FormulaStepper.Json
