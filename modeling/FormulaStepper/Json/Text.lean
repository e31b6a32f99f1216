import FormulaStepper.Decimal.Layout
import FormulaStepper.Json.Basic

/-!
# JSON text

Values are written without blanks. In strings, quote and backslash are
escaped, the control characters that have a letter by that letter, the other
ones below the blank by four hexadecimal digits, and nothing else. Integers
are written plainly, floats with the fewest digits that read back.
-/

set_option autoImplicit false

namespace FormulaStepper.Json

/-- Floats are positional from `0.00001` up to sixteen digits before the
point, and scientific beyond, as in `1e+16` and `1e-6`; a whole positional one
ends in `.0`. -/
def floatLayout : Decimal.Layout where
  tie := .even
  exactWhole := false
  wholeMark := ['.', '0']
  positional := fun point => -5 < point && point ≤ 16
  powerSign := ['+']

/-- A hexadecimal digit. -/
def hexDigit (n : Nat) : Char :=
  Char.ofNat (if n < 10 then 0x30 + n else 0x57 + n)

/-- A character inside a string. -/
def escape (c : Char) : List Char :=
  if c = '\x22' then ['\\', '\x22']
  else if c = '\\' then ['\\', '\\']
  else if c = '\x08' then ['\\', 'b']
  else if c = '\x0c' then ['\\', 'f']
  else if c = '\n' then ['\\', 'n']
  else if c = '\x0d' then ['\\', 'r']
  else if c = '\t' then ['\\', 't']
  else if c.toNat < 0x20 then
    ['\\', 'u', '0', '0', hexDigit (c.toNat / 16), hexDigit (c.toNat % 16)]
  else [c]

/-- A string with its quotes. -/
def quoteText (text : List Char) : List Char :=
  '\x22' :: (text.flatMap escape ++ ['\x22'])

/-- A number. -/
def Number.write : Number → List Char
  | .int n => (toString n).toList
  | .float x => (floatLayout.writeFloat x).toList

mutual

/-- A value. -/
def write : Json → List Char
  | .null => ['n', 'u', 'l', 'l']
  | .bool true => ['t', 'r', 'u', 'e']
  | .bool false => ['f', 'a', 'l', 's', 'e']
  | .number n => n.write
  | .string text => quoteText text.toList
  | .array [] => ['[', ']']
  | .array (item :: items) => '[' :: (write item ++ writeItems items)
  | .object [] => ['\x7b', '\x7d']
  | .object ((name, value) :: members) =>
    '\x7b' :: (quoteText name.toList ++ ':' :: (write value ++ writeMembers members))

/-- The items after the first, and the end of the array. -/
def writeItems : List Json → List Char
  | [] => [']']
  | item :: items => ',' :: (write item ++ writeItems items)

/-- The members after the first, and the end of the object. -/
def writeMembers : List (String × Json) → List Char
  | [] => ['\x7d']
  | (name, value) :: members =>
    ',' :: (quoteText name.toList ++ ':' :: (write value ++ writeMembers members))

end

/-- A value as text. -/
def text (json : Json) : String :=
  String.ofList json.write

end FormulaStepper.Json
