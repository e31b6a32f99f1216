import FormulaStepper.Decimal.Layout
import FormulaStepper.Text.Source

/-!
# Tokens of a formula

A token is a literal, a name or a symbol, with its span in the formula. The
words `and`, `or` and `not` are symbols. A token list that was read to its end
closes with the token `finish`.
-/

set_option autoImplicit false

namespace FormulaStepper.Formula

/-- The fixed spellings of the language. -/
inductive Symbol where
  | and
  | or
  | not
  | leftParen
  | rightParen
  | leftBracket
  | rightBracket
  | comma
  | plus
  | minus
  | star
  | slash
  | percent
  | caret
  | equal
  | notEqual
  | less
  | lessEqual
  | greater
  | greaterEqual
deriving Repr, DecidableEq

namespace Symbol

/-- The characters of a symbol. -/
def spelling : Symbol → List Char
  | .and => ['a', 'n', 'd']
  | .or => ['o', 'r']
  | .not => ['n', 'o', 't']
  | .leftParen => ['(']
  | .rightParen => [')']
  | .leftBracket => ['[']
  | .rightBracket => [']']
  | .comma => [',']
  | .plus => ['+']
  | .minus => ['-']
  | .star => ['*']
  | .slash => ['/']
  | .percent => ['%']
  | .caret => ['^']
  | .equal => ['=']
  | .notEqual => ['!', '=']
  | .less => ['<']
  | .lessEqual => ['<', '=']
  | .greater => ['>']
  | .greaterEqual => ['>', '=']

/-- A symbol as text. -/
def text (symbol : Symbol) : String :=
  String.ofList symbol.spelling

theorem spelling_ne_nil (symbol : Symbol) : symbol.spelling ≠ [] := by
  cases symbol <;> simp [spelling]

end Symbol

/-- What a token is. -/
inductive TokenKind where
  | integer (n : Int64)
  | decimal (x : Float)
  | string (text : String)
  | identifier (name : String)
  | symbol (sign : Symbol)
  | finish
deriving Inhabited

/-- A token and the bytes it was read from. -/
structure Token where
  kind : TokenKind
  span : Text.Span
deriving Inhabited

/-- A decimal token is described with the fewest digits, and without a mark
when it is whole. -/
def TokenKind.decimalLayout : Decimal.Layout where
  tie := .up
  exactWhole := false
  wholeMark := []
  positional := fun _ => true
  powerSign := []

/-- How a token is called in a message. -/
def TokenKind.describe : TokenKind → String
  | .integer n => "integer " ++ toString n.toInt
  | .decimal x => "decimal " ++ decimalLayout.writeFloat x
  | .string text => "string '" ++ text ++ "'"
  | .identifier name => "identifier '" ++ name ++ "'"
  | .symbol sign => "'" ++ sign.text ++ "'"
  | .finish => "end of formula"

/-- The symbol that a token is. -/
def TokenKind.symbol? : TokenKind → Option Symbol
  | .symbol sign => some sign
  | _ => none

end FormulaStepper.Formula
