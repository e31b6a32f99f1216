/-!
# JSON values

Numbers keep the distinction that the text makes: a numeral without point and
exponent that fits 64 bits is an integer, any other a float. The members of an
object are held as pairs; those of an object that was read stand in the order
of their names, each name once.
-/

set_option autoImplicit false

namespace FormulaStepper

/-- A JSON number. -/
inductive Json.Number where
  | int (n : Int)
  | float (x : Float)
deriving Inhabited

/-- A JSON value. -/
inductive Json where
  | null
  | bool (holds : Bool)
  | number (n : Json.Number)
  | string (text : String)
  | array (items : List Json)
  | object (members : List (String × Json))
deriving Inhabited

namespace Json

/-- An integer. -/
def int (n : Int) : Json := .number (.int n)

/-- A natural number. -/
def nat (n : Nat) : Json := .int n

/-- The member of an object under a name. -/
def member? (json : Json) (name : String) : Option Json :=
  match json with
  | .object members => members.lookup name
  | _ => none

/-- The text of a string. -/
def string? : Json → Option String
  | .string text => some text
  | _ => none

/-- A number that is not negative, of an integer. -/
def nat? : Json → Option Nat
  | .number (.int n) => if 0 ≤ n then some n.toNat else none
  | _ => none

/-- The items of an array. -/
def items? : Json → Option (List Json)
  | .array items => some items
  | _ => none

end Json

end FormulaStepper
