import FormulaStepper.Json.Basic
import FormulaStepper.Value.Arithmetic

/-!
# Values from JSON

Truth values become one and zero, integers beyond 64 bits decimals, and an
object the list of its members, each a list of name and value.
-/

set_option autoImplicit false

namespace FormulaStepper.Value

/-- The value of a JSON number. -/
def ofNumber : Json.Number → Value
  | .int n => if fits n then .int (Int64.ofInt n) else .decimal (Float.ofInt n)
  | .float x => .decimal x

mutual

/-- The value of a JSON value. -/
def ofJson : Json → Value
  | .null => .null
  | .bool holds => .ofBool holds
  | .number n => ofNumber n
  | .string text => .string text
  | .array items => .list (ofItems items)
  | .object members => .list (ofMembers members)

/-- The values of the items of an array. -/
def ofItems : List Json → List Value
  | [] => []
  | item :: items => ofJson item :: ofItems items

/-- The values of the members of an object. -/
def ofMembers : List (String × Json) → List Value
  | [] => []
  | (name, value) :: members => .list [.string name, ofJson value] :: ofMembers members

end

end FormulaStepper.Value
