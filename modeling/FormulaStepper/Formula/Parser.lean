import FormulaStepper.Formula.Lexer
import FormulaStepper.Formula.Node

/-!
# Reading a formula

From the loosest to the tightest: `or`, `and`, the sign `not`, comparisons,
sums, products, the sign `-`, powers, operands. Chains of equal rank group to
the left; a power groups to the right, and its exponent may carry a sign.

Every parenthesis, bracket, call, sign and exponent opens a level, and no more
than `maxNesting` levels may be open at once. The rules for what stands inside
are those of the next level, so the rules are defined by recursion on the
number of levels left. The rules of one level do not call one another in
circles. Chains do not open levels but make the tree taller; no tree may be
taller than `maxHeight`. The rules take both limits from a `Reader`.
-/

set_option autoImplicit false

namespace FormulaStepper.Formula

/-- The greatest number of open levels. -/
def maxNesting : Nat := 64

/-- The greatest height of a tree. -/
def maxHeight : Nat := 1024

/-- The text that a formula is read from, and the limits that hold for it. -/
structure Reader where
  source : List Char
  nesting : Nat
  height : Nat

/-- A reader with the limits of the language. -/
def Reader.standard (source : List Char) : Reader :=
  ⟨source, maxNesting, maxHeight⟩

/-- Reads something from the front of a token list and returns the rest. -/
abbrev Rule (α : Type) := List Token → Except ParseError (α × List Token)

/-- A node that was read from `span`, if the tree is not too tall. -/
def build (reader : Reader) (kind : NodeKind) (children : List Node) (span : Text.Span) :
    Except ParseError Node :=
  let node := Node.mk kind children (String.ofList (Text.slice reader.source span)) span
  if node.height ≤ reader.height then .ok node else .error (.nestingTooDeep reader.height)

/-- A node without children. -/
def leaf (reader : Reader) (kind : NodeKind) (span : Text.Span) : Node :=
  .mk kind [] (String.ofList (Text.slice reader.source span)) span

/-- Reads one symbol that has to stand next, and returns its span. -/
def expect (symbol : Symbol) : Rule Text.Span
  | [] => .error .unexpectedEnd
  | ⟨kind, span⟩ :: rest =>
    match kind with
    | .finish => .error .unexpectedEnd
    | .symbol found =>
      if found = symbol then .ok (span, rest) else .error (.expected (.symbol symbol) kind)
    | _ => .error (.expected (.symbol symbol) kind)

/-- Goes on with a chain after its first operands: an operator of the chain,
an operand, and so on to the left. The count bounds the operators that can
follow. -/
def chainFrom (reader : Reader) (operator? : Symbol → Option NodeKind) (operand : Rule Node) :
    Nat → Node → Rule Node
  | 0, left, tokens => .ok (left, tokens)
  | _ + 1, left, [] => .ok (left, [])
  | count + 1, left, token :: rest =>
    match token.kind.symbol?.bind operator? with
    | none => .ok (left, token :: rest)
    | some kind => do
      let (right, rest) ← operand rest
      let node ← build reader kind [left, right] (left.span.through right.span)
      chainFrom reader operator? operand count node rest

/-- A chain of operands. There are no more operators than tokens. -/
def chain (reader : Reader) (operator? : Symbol → Option NodeKind) (operand : Rule Node) :
    Rule Node := fun tokens => do
  let (first, rest) ← operand tokens
  chainFrom reader operator? operand rest.length first rest

/-- Reads the items of a list after the first: a comma, an item, and so on.
The count bounds the items that can follow. -/
def itemsFrom (item : Rule Node) : Nat → List Node → Rule (List Node)
  | 0, items, tokens => .ok (items, tokens)
  | count + 1, items, ⟨.symbol .comma, _⟩ :: rest => do
    let (next, rest) ← item rest
    itemsFrom item count (items ++ [next]) rest
  | _ + 1, items, tokens => .ok (items, tokens)

/-- Reads the items of a list up to, but not including, its closing symbol.
There may be none. -/
def items (close : Symbol) (item : Rule Node) : Rule (List Node) := fun tokens =>
  match tokens with
  | ⟨.symbol found, _⟩ :: _ =>
    if found = close then .ok ([], tokens)
    else do
      let (first, rest) ← item tokens
      itemsFrom item rest.length [first] rest
  | _ => do
    let (first, rest) ← item tokens
    itemsFrom item rest.length [first] rest

/-- The rules that open a level: what stands in parentheses, after `not`,
after `-` or `^`, and between brackets or the parentheses of a call. -/
structure Level where
  expression : Rule Node
  negated : Rule Node
  signed : Rule Node
  arguments : Symbol → Rule (List Node)

namespace Level

/-- Where no level is left, nothing can be read. -/
def exhausted (reader : Reader) : Level where
  expression := fun _ => .error (.nestingTooDeep reader.nesting)
  negated := fun _ => .error (.nestingTooDeep reader.nesting)
  signed := fun _ => .error (.nestingTooDeep reader.nesting)
  arguments := fun _ _ => .error (.nestingTooDeep reader.nesting)

/-- A call, from its opening parenthesis on. The function is looked up before
its arguments are read, and their count is checked after. -/
def call (reader : Reader) (inner : Level) (name : String) (span : Text.Span) :
    Rule Node := fun tokens =>
  match Function.lookup? name with
  | none => .error (.unknownFunction name)
  | some function => do
    let (arguments, rest) ← inner.arguments .rightParen tokens
    let (close, rest) ← expect .rightParen rest
    function.checkArity arguments.length
    let node ← build reader (.call function) arguments (span.through close)
    .ok (node, rest)

/-- An operand: a literal, a variable, a call, a parenthesis or a list. -/
def operand (reader : Reader) (inner : Level) : Rule Node
  | [] => .error .unexpectedEnd
  | ⟨kind, span⟩ :: rest =>
    match kind with
    | .integer n => .ok (leaf reader (.integer n) span, rest)
    | .decimal x => .ok (leaf reader (.decimal x) span, rest)
    | .string text => .ok (leaf reader (.string text) span, rest)
    | .identifier name =>
      match rest with
      | ⟨.symbol .leftParen, _⟩ :: inside => call reader inner name span inside
      | _ => .ok (leaf reader (.identifier name) span, rest)
    | .symbol .leftParen => do
      let (node, rest) ← inner.expression rest
      let (close, rest) ← expect .rightParen rest
      .ok (node.widen (span.through close), rest)
    | .symbol .leftBracket => do
      let (elements, rest) ← inner.arguments .rightBracket rest
      let (close, rest) ← expect .rightBracket rest
      let node ← build reader .list elements (span.through close)
      .ok (node, rest)
    | .finish => .error .unexpectedEnd
    | _ => .error (.expected .operand kind)

/-- An operand, or a power of one. -/
def power (reader : Reader) (inner : Level) : Rule Node := fun tokens => do
  let (base, rest) ← operand reader inner tokens
  match rest with
  | ⟨.symbol .caret, _⟩ :: rest =>
    let (exponent, rest) ← inner.signed rest
    let node ← build reader (.binary .pow) [base, exponent] (base.span.through exponent.span)
    .ok (node, rest)
  | _ => .ok (base, rest)

/-- A sign before a signed operand of the next level. -/
def afterSign (reader : Reader) (op : UnaryOp) (sign : Text.Span) (operand : Rule Node) :
    Rule Node := fun tokens => do
  let (node, rest) ← operand tokens
  let node ← build reader (.unary op) [node] (sign.through node.span)
  .ok (node, rest)

/-- A power, or a sign `-` before one. -/
def signedRule (reader : Reader) (inner : Level) : Rule Node
  | ⟨.symbol .minus, sign⟩ :: rest => afterSign reader .neg sign inner.signed rest
  | tokens => power reader inner tokens

/-- The operators of products. -/
def productOperator? : Symbol → Option NodeKind
  | .star => some (.binary .mul)
  | .slash => some (.binary .div)
  | .percent => some (.binary .rem)
  | _ => none

/-- The operators of sums. -/
def sumOperator? : Symbol → Option NodeKind
  | .plus => some (.binary .add)
  | .minus => some (.binary .sub)
  | _ => none

/-- The operators of comparisons. -/
def comparisonOperator? : Symbol → Option NodeKind
  | .equal => some (.binary .equal)
  | .notEqual => some (.binary .notEqual)
  | .less => some (.binary .less)
  | .lessEqual => some (.binary .lessEqual)
  | .greater => some (.binary .greater)
  | .greaterEqual => some (.binary .greaterEqual)
  | _ => none

/-- The operator of conjunctions. -/
def conjunctionOperator? : Symbol → Option NodeKind
  | .and => some (.logical .and)
  | _ => none

/-- The operator of disjunctions. -/
def disjunctionOperator? : Symbol → Option NodeKind
  | .or => some (.logical .or)
  | _ => none

/-- A comparison of sums of products. -/
def comparison (reader : Reader) (inner : Level) : Rule Node :=
  chain reader comparisonOperator?
    (chain reader sumOperator? (chain reader productOperator? (signedRule reader inner)))

/-- A comparison, or a sign `not` before one. -/
def negatedRule (reader : Reader) (inner : Level) : Rule Node
  | ⟨.symbol .not, sign⟩ :: rest => afterSign reader .not sign inner.negated rest
  | tokens => comparison reader inner tokens

/-- A disjunction of conjunctions. -/
def expressionRule (reader : Reader) (inner : Level) : Rule Node :=
  chain reader disjunctionOperator? (chain reader conjunctionOperator? (negatedRule reader inner))

/-- The rules around those of the next level. -/
def around (reader : Reader) (inner : Level) : Level where
  expression := expressionRule reader inner
  negated := negatedRule reader inner
  signed := signedRule reader inner
  arguments := fun close => items close (expressionRule reader inner)

/-- The rules where this many levels may still be opened, the one at hand
included. -/
def rules (reader : Reader) : Nat → Level
  | 0 => exhausted reader
  | levels + 1 => around reader (rules reader levels)

end Level

/-- Reads a whole formula from its tokens. -/
def parseTokens (reader : Reader) (tokens : List Token) : Except ParseError Node := do
  let (node, rest) ← (Level.rules reader (reader.nesting + 1)).expression tokens
  match rest with
  | [] => .ok node
  | token :: _ => .error (.expected .endOfFormula token.kind)

/-- Reads a formula. -/
def parse (source : String) : Except ParseError Node := do
  let tokens ← tokensFrom 0 source.toList
  parseTokens (.standard source.toList) tokens

end FormulaStepper.Formula
