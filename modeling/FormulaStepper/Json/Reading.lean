import FormulaStepper.Json.Draft
import FormulaStepper.Json.Text
import FormulaStepper.Text.Quoted

/-!
# Reading typed data from JSON

A configuration or a message is read from a draft. The first thing wrong
decides the error: a value of another kind than the one wanted, or a place
where the text cannot be read (`ReadError.notJson`).
-/

set_option autoImplicit false

namespace FormulaStepper.Json

/-- Why JSON is not what was wanted. -/
inductive ReadError where
  /-- The text is not JSON. -/
  | notJson
  /-- A value of another kind. -/
  | invalidType (found wanted : String)
  /-- A value of the right kind out of its range. -/
  | invalidValue (found wanted : String)
  | missingField (name : String)
  | duplicateField (name : String)
  /-- An array with too few or too many items. -/
  | invalidLength (length : Nat) (wanted : String)
  /-- An array with more items than can be used. -/
  | surplusItems (length : Nat)
  /-- An object with the members of no known shape. -/
  | noShape (name : String)
deriving Repr, DecidableEq

/-- The wording of a reading error. -/
def ReadError.message : ReadError → String
  | .notJson => "not JSON"
  | .invalidType found wanted => "invalid type: " ++ found ++ ", expected " ++ wanted
  | .invalidValue found wanted => "invalid value: " ++ found ++ ", expected " ++ wanted
  | .missingField name => "missing field `" ++ name ++ "`"
  | .duplicateField name => "duplicate field `" ++ name ++ "`"
  | .invalidLength length wanted =>
    "invalid length " ++ toString length ++ ", expected " ++ wanted
  | .surplusItems length =>
    "invalid length " ++ toString length ++ ", expected fewer elements in array"
  | .noShape name => "data did not match any variant of untagged enum " ++ name

/-- A number in a message. It is written as in a text. -/
def Number.describe : Number → String
  | .int n => "integer `" ++ toString n ++ "`"
  | .float x => "floating point `" ++ floatLayout.writeFloat x ++ "`"

namespace Draft

/-- A value in a message. A container is known by its beginning; a number or
string without value cannot be named. -/
def describe? : Draft → Option String
  | .null => some "null"
  | .bool holds => some ("boolean `" ++ toString holds ++ "`")
  | .number value => value.map Number.describe
  | .string content => content.map fun text =>
      "string " ++ String.ofList (Text.quoted text.toList)
  | .array _ _ => some "sequence"
  | .object _ _ => some "map"
  | .broken => none

/-- The refusal of a value where another kind is wanted. -/
def unexpected (draft : Draft) (wanted : String) : ReadError :=
  match draft.describe? with
  | some found => .invalidType found wanted
  | none => .notJson

/-- Reads a string. -/
def asString (draft : Draft) : Except ReadError String :=
  match draft with
  | .string (some text) => .ok text
  | _ => .error (draft.unexpected "a string")

/-- Reads a truth value. -/
def asBool (draft : Draft) : Except ReadError Bool :=
  match draft with
  | .bool holds => .ok holds
  | _ => .error (draft.unexpected "a boolean")

/-- Reads an unsigned 64-bit integer. -/
def asUnsigned (draft : Draft) : Except ReadError Nat :=
  match draft with
  | .number (some (.int n)) =>
    if 0 ≤ n then .ok n.toNat else .error (.invalidValue (Number.int n).describe "u64")
  | _ => .error (draft.unexpected "u64")

/-- Reads any value, with no more than `room` nested containers. -/
def asJson (room : Nat) (draft : Draft) : Except ReadError Json :=
  match draft.toJson? room with
  | some value => .ok value
  | none => .error .notJson

/-- Reads past a value. -/
def skip (draft : Draft) : Except ReadError Unit :=
  if draft.isWhole then .ok () else .error .notJson

/-- Reads the end of a container. -/
def expectClosed (closed : Bool) : Except ReadError Unit :=
  if closed then .ok () else .error .notJson

/-- Reads the name of a member. -/
def asName : Option String → Except ReadError String
  | some name => .ok name
  | none => .error .notJson

end Draft

end FormulaStepper.Json
