/-!
# Names of variables

A variable can be set only under a name that a formula can refer to: ASCII
letters, digits and underscores, not beginning with a digit, and none of the
words that are operators.
-/

set_option autoImplicit false

namespace FormulaStepper

/-- Whether a character can begin a name. -/
def isNameStart (c : Char) : Bool :=
  c.isAlpha || c == '_'

/-- Whether a character can go on in a name. -/
def isNameChar (c : Char) : Bool :=
  c.isAlphanum || c == '_'

/-- The words that are operators. -/
def reservedWords : List String := ["and", "or", "not"]

/-- Whether characters have the form of a name. -/
def hasNameForm : List Char → Bool
  | [] => false
  | c :: rest => isNameStart c && rest.all isNameChar

/-- Whether a text is the name of a variable. -/
def isVariableName (name : String) : Bool :=
  hasNameForm name.toList && !reservedWords.contains name

/-- Why a name is refused. -/
def invalidNameReason : String := "not a valid identifier"

end FormulaStepper
