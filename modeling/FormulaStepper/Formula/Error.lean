import FormulaStepper.Formula.Function
import FormulaStepper.Formula.Token

/-!
# Errors in a formula

Why a text is not a formula. An error carries its cause; the wording is in
`ParseError.message`.
-/

set_option autoImplicit false

namespace FormulaStepper.Formula

/-- What a formula had to go on with. -/
inductive Expectation where
  | operand
  | endOfFormula
  | symbol (sign : Symbol)
deriving Repr, DecidableEq

/-- An expectation in words. -/
def Expectation.describe : Expectation → String
  | .operand => "an operand"
  | .endOfFormula => TokenKind.finish.describe
  | .symbol sign => (TokenKind.symbol sign).describe

/-- Why a text is not a formula. -/
inductive ParseError where
  /-- No token begins with this character. -/
  | unexpectedCharacter (character : Char) (offset : Nat)
  /-- The string that starts here has no closing quote. -/
  | unterminatedString (offset : Nat)
  /-- The digits stand for no 64-bit integer. -/
  | invalidNumber (written : String)
  /-- Another token had to stand here. -/
  | expected (expectation : Expectation) (found : TokenKind)
  /-- The formula stops where it had to go on. -/
  | unexpectedEnd
  /-- A call of a function that does not exist. -/
  | unknownFunction (name : String)
  /-- A call with a count of arguments that the function does not admit. -/
  | argumentCount (function : Function) (count : Nat)
  /-- The formula is nested deeper, or its tree is taller, than the limit. -/
  | nestingTooDeep (limit : Nat)

/-- The wording of a parse error. -/
def ParseError.message : ParseError → String
  | .unexpectedCharacter character offset =>
    "unexpected character '" ++ String.singleton character ++ "' at offset " ++ toString offset
  | .unterminatedString offset => "unterminated string starting at offset " ++ toString offset
  | .invalidNumber written => "invalid number literal '" ++ written ++ "'"
  | .expected expectation found =>
    "expected " ++ expectation.describe ++ ", found " ++ found.describe
  | .unexpectedEnd => "unexpected end of formula"
  | .unknownFunction name => "unknown function '" ++ name ++ "'"
  | .argumentCount function count =>
    "function '" ++ function.name ++ "' expects " ++ function.arity.describe ++
      " arguments, got " ++ toString count
  | .nestingTooDeep limit => "formula nests deeper than " ++ toString limit ++ " levels"

/-- Refuses an argument count that a function does not admit. -/
def Function.checkArity (function : Function) (count : Nat) : Except ParseError Unit :=
  if function.arity.admits count then .ok () else .error (.argumentCount function count)

end FormulaStepper.Formula
