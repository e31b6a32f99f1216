import FormulaStepper.Formula.Function
import FormulaStepper.Formula.Token

/-!
# Formula trees

A node is a literal, a variable, a list, an operator or a call, with its
operands as children. It keeps the text it was read from, which is shown while
stepping, and a span in the formula, which also covers the parentheses around
it.

A place in a tree is a path, the list of child positions on the way from the
root. Two nodes of one tree are the same when their paths are equal, also
where the subtrees look alike. A `Site` is a node together with its path.
-/

set_option autoImplicit false

namespace FormulaStepper.Formula

/-- The operators with one operand. -/
inductive UnaryOp where
  | neg
  | not
deriving Repr, DecidableEq

/-- The operators with two operands that evaluate both. -/
inductive BinaryOp where
  | equal
  | notEqual
  | less
  | lessEqual
  | greater
  | greaterEqual
  | add
  | sub
  | mul
  | div
  | rem
  | pow
deriving Repr, DecidableEq

/-- The operators that evaluate their right operand only if the left one does
not decide. -/
inductive Connective where
  | and
  | or
deriving Repr, DecidableEq

/-- The symbol of a unary operator. -/
def UnaryOp.symbol : UnaryOp → Symbol
  | .neg => .minus
  | .not => .not

/-- The symbol of a binary operator. -/
def BinaryOp.symbol : BinaryOp → Symbol
  | .equal => .equal
  | .notEqual => .notEqual
  | .less => .less
  | .lessEqual => .lessEqual
  | .greater => .greater
  | .greaterEqual => .greaterEqual
  | .add => .plus
  | .sub => .minus
  | .mul => .star
  | .div => .slash
  | .rem => .percent
  | .pow => .caret

/-- The symbol of a connective. -/
def Connective.symbol : Connective → Symbol
  | .and => .and
  | .or => .or

/-- What a node is. -/
inductive NodeKind where
  | integer (n : Int64)
  | decimal (x : Float)
  | string (text : String)
  | identifier (name : String)
  | list
  | unary (op : UnaryOp)
  | binary (op : BinaryOp)
  | logical (op : Connective)
  | call (function : Function)
deriving Inhabited

/-- A formula tree. -/
inductive Node where
  | mk (kind : NodeKind) (children : List Node) (text : String) (span : Text.Span)
deriving Inhabited

namespace Node

/-- What a node is. -/
def kind : Node → NodeKind
  | .mk kind _ _ _ => kind

/-- The operands of a node. -/
def children : Node → List Node
  | .mk _ children _ _ => children

/-- The text that a node was read from, without parentheses around it. -/
def text : Node → String
  | .mk _ _ text _ => text

/-- The place of a node in the formula, with the parentheses around it. -/
def span : Node → Text.Span
  | .mk _ _ _ span => span

/-- The same node at a wider place. -/
def widen (span : Text.Span) : Node → Node
  | .mk kind children text _ => .mk kind children text span

/-- The label of a node: the literal, the variable, the operator or the
function. -/
def name (node : Node) : String :=
  match node.kind with
  | .integer _ | .decimal _ | .string _ => node.text
  | .identifier name => name
  | .list => "[]"
  | .unary op => op.symbol.text
  | .binary op => op.symbol.text
  | .logical op => op.symbol.text
  | .call function => function.name

mutual

/-- The number of nodes on the longest way from here to a leaf. -/
def height : Node → Nat
  | .mk _ children _ _ => 1 + heightOfList children

/-- The greatest height among trees. -/
def heightOfList : List Node → Nat
  | [] => 0
  | node :: nodes => max (height node) (heightOfList nodes)

end

mutual

/-- The number of nodes of a tree. -/
def size : Node → Nat
  | .mk _ children _ _ => 1 + sizeOfList children

/-- The number of nodes of several trees. -/
def sizeOfList : List Node → Nat
  | [] => 0
  | node :: nodes => size node + sizeOfList nodes

end

/-- The subtree at a path. -/
def at? (node : Node) : List Nat → Option Node
  | [] => some node
  | position :: path => (node.children[position]?).bind fun child => child.at? path

@[simp] theorem kind_widen (span : Text.Span) (node : Node) :
    (node.widen span).kind = node.kind := by
  cases node; rfl

@[simp] theorem children_widen (span : Text.Span) (node : Node) :
    (node.widen span).children = node.children := by
  cases node; rfl

@[simp] theorem text_widen (span : Text.Span) (node : Node) :
    (node.widen span).text = node.text := by
  cases node; rfl

@[simp] theorem span_widen (span : Text.Span) (node : Node) : (node.widen span).span = span := by
  cases node; rfl

theorem height_eq (node : Node) : node.height = 1 + heightOfList node.children := by
  cases node; simp [height, children]

theorem size_eq (node : Node) : node.size = 1 + sizeOfList node.children := by
  cases node; simp [size, children]

theorem height_le_heightOfList {node : Node} {nodes : List Node} (member : node ∈ nodes) :
    node.height ≤ heightOfList nodes := by
  induction nodes with
  | nil => cases member
  | cons first others ih =>
    rw [heightOfList]
    rcases List.mem_cons.mp member with rfl | among
    · exact Nat.le_max_left _ _
    · exact Nat.le_trans (ih among) (Nat.le_max_right _ _)

/-- A node is taller than its operands. -/
theorem height_lt_of_mem {node child : Node} (member : child ∈ node.children) :
    child.height < node.height := by
  rw [height_eq node, Nat.add_comm]
  exact Nat.lt_succ_of_le (height_le_heightOfList member)

end Node

/-- A node of a formula together with its path from the root. -/
structure Site where
  path : List Nat
  node : Node
deriving Inhabited

namespace Site

/-- The root of a formula. -/
def root (formula : Node) : Site :=
  ⟨[], formula⟩

/-- A child of a node, by its position. -/
def child? (site : Site) (position : Nat) : Option Site :=
  (site.node.children[position]?).map fun node => ⟨site.path ++ [position], node⟩

end Site

end FormulaStepper.Formula
