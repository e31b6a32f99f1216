import FormulaStepper.Proofs.Evaluation.Account

/-!
# The grammar of formulas

Which token lists are formulas, and as which trees. A phrase has a rank, from
`or`, the loosest, to a single operand. The productions are

  disjunction  →  conjunction  |  disjunction `or` conjunction
  conjunction  →  negation  |  conjunction `and` negation
  negation     →  comparison  |  `not` negation
  comparison   →  sum  |  comparison (`=` `!=` `<` `<=` `>` `>=`) sum
  sum          →  product  |  sum (`+` `-`) product
  product      →  sign  |  product (`*` `/` `%`) sign
  sign         →  power  |  `-` sign
  power        →  operand  |  operand `^` sign
  operand      →  literal  |  name  |  `(` disjunction `)`
                  |  `[` items `]`  |  name `(` items `)`
  items        →  nothing  |  disjunction  |  items `,` disjunction

where the items before a comma are not empty. So chains group to the left and
a power to the right. Parentheses leave no node behind; they widen the span of
the node inside. A call needs the name of a built-in function and a number of
arguments that the function admits.

A derivation also counts how deep its constructs lie in one another
(`Derives`). The lemmas say with which tokens a phrase can begin and which
tokens may not follow it, and that the trees of the grammar are well formed.
-/

set_option autoImplicit false

namespace FormulaStepper.Formula

/-- The ranks of phrases, the loosest first. -/
inductive Rank where
  | disjunction
  | conjunction
  | negation
  | comparison
  | sum
  | product
  | sign
  | power
  | operand
deriving Repr, DecidableEq

namespace Rank

/-- The next tighter rank; nothing is tighter than an operand. -/
def tighter : Rank → Rank
  | .disjunction => .conjunction
  | .conjunction => .negation
  | .negation => .comparison
  | .comparison => .sum
  | .sum => .product
  | .product => .sign
  | .sign => .power
  | .power | .operand => .operand

/-- The symbols that join phrases to a chain of a rank, and what the joined
phrases become. -/
inductive Joins : Rank → Symbol → NodeKind → Prop where
  | or : Joins .disjunction .or (.logical .or)
  | and : Joins .conjunction .and (.logical .and)
  | equal : Joins .comparison .equal (.binary .equal)
  | notEqual : Joins .comparison .notEqual (.binary .notEqual)
  | less : Joins .comparison .less (.binary .less)
  | lessEqual : Joins .comparison .lessEqual (.binary .lessEqual)
  | greater : Joins .comparison .greater (.binary .greater)
  | greaterEqual : Joins .comparison .greaterEqual (.binary .greaterEqual)
  | add : Joins .sum .plus (.binary .add)
  | sub : Joins .sum .minus (.binary .sub)
  | mul : Joins .product .star (.binary .mul)
  | div : Joins .product .slash (.binary .div)
  | rem : Joins .product .percent (.binary .rem)

end Rank

/-- The node over a span of a text. -/
def Node.over (source : List Char) (kind : NodeKind) (children : List Node) (span : Text.Span) :
    Node :=
  .mk kind children (String.ofList (Text.slice source span)) span

mutual

/-- The tokens are a phrase of this rank, which stands for this tree. Counting
parentheses, brackets, calls, prefix operators and exponents, the number is
that of the most such constructs in the phrase that lie in one another. -/
inductive Derives (source : List Char) : Rank → List Token → Node → Nat → Prop where
  | tighter {rank : Rank} {tokens : List Token} {tree : Node} {nesting : Nat}
      (phrase : Derives source rank.tighter tokens tree nesting) :
      Derives source rank tokens tree nesting
  | chain {rank : Rank} {symbol : Symbol} {kind : NodeKind} {first second : List Token}
      {left right : Node} {outer inner : Nat} {span : Text.Span}
      (joins : rank.Joins symbol kind) (before : Derives source rank first left outer)
      (after : Derives source rank.tighter second right inner) :
      Derives source rank (first ++ ⟨.symbol symbol, span⟩ :: second)
        (.over source kind [left, right] (left.span.through right.span)) (max outer inner)
  | negation {tokens : List Token} {tree : Node} {nesting : Nat} {span : Text.Span}
      (negated : Derives source .negation tokens tree nesting) :
      Derives source .negation (⟨.symbol .not, span⟩ :: tokens)
        (.over source (.unary .not) [tree] (span.through tree.span)) (nesting + 1)
  | sign {tokens : List Token} {tree : Node} {nesting : Nat} {span : Text.Span}
      (signed : Derives source .sign tokens tree nesting) :
      Derives source .sign (⟨.symbol .minus, span⟩ :: tokens)
        (.over source (.unary .neg) [tree] (span.through tree.span)) (nesting + 1)
  | power {first second : List Token} {base exponent : Node} {outer inner : Nat}
      {span : Text.Span} (below : Derives source .operand first base outer)
      (above : Derives source .sign second exponent inner) :
      Derives source .power (first ++ ⟨.symbol .caret, span⟩ :: second)
        (.over source (.binary .pow) [base, exponent] (base.span.through exponent.span))
        (max outer (inner + 1))
  | integer {n : Int64} {span : Text.Span} :
      Derives source .operand [⟨.integer n, span⟩] (.over source (.integer n) [] span) 0
  | decimal {x : Float} {span : Text.Span} :
      Derives source .operand [⟨.decimal x, span⟩] (.over source (.decimal x) [] span) 0
  | string {text : String} {span : Text.Span} :
      Derives source .operand [⟨.string text, span⟩] (.over source (.string text) [] span) 0
  | identifier {name : String} {span : Text.Span} :
      Derives source .operand [⟨.identifier name, span⟩]
        (.over source (.identifier name) [] span) 0
  | parentheses {tokens : List Token} {tree : Node} {nesting : Nat} {opening closing : Text.Span}
      (inside : Derives source .disjunction tokens tree nesting) :
      Derives source .operand
        (⟨.symbol .leftParen, opening⟩ :: tokens ++ [⟨.symbol .rightParen, closing⟩])
        (tree.widen (opening.through closing)) (nesting + 1)
  | list {tokens : List Token} {elements : List Node} {nesting : Nat}
      {opening closing : Text.Span} (inside : DerivesItems source tokens elements nesting) :
      Derives source .operand
        (⟨.symbol .leftBracket, opening⟩ :: tokens ++ [⟨.symbol .rightBracket, closing⟩])
        (.over source .list elements (opening.through closing)) (nesting + 1)
  | call {name : String} {function : Function} {tokens : List Token} {arguments : List Node}
      {nesting : Nat} {span opening closing : Text.Span}
      (named : Function.lookup? name = some function)
      (admitted : function.arity.admits arguments.length = true)
      (inside : DerivesItems source tokens arguments nesting) :
      Derives source .operand
        (⟨.identifier name, span⟩ :: ⟨.symbol .leftParen, opening⟩ :: tokens ++
          [⟨.symbol .rightParen, closing⟩])
        (.over source (.call function) arguments (span.through closing)) (nesting + 1)

/-- The tokens are items with commas between them. -/
inductive DerivesItems (source : List Char) : List Token → List Node → Nat → Prop where
  | none : DerivesItems source [] [] 0
  | one {tokens : List Token} {tree : Node} {nesting : Nat}
      (item : Derives source .disjunction tokens tree nesting) :
      DerivesItems source tokens [tree] nesting
  | more {first second : List Token} {item next : Node} {items : List Node} {outer inner : Nat}
      {span : Text.Span} (before : DerivesItems source first (item :: items) outer)
      (after : Derives source .disjunction second next inner) :
      DerivesItems source (first ++ ⟨.symbol .comma, span⟩ :: second) (item :: items ++ [next])
        (max outer inner)

end

/-! ## Beginnings and ends of phrases -/

namespace Rank

/-- The symbols with which a phrase can begin. -/
def openings : Rank → List Symbol
  | .operand | .power => [.leftParen, .leftBracket]
  | .sign | .product | .sum | .comparison => [.leftParen, .leftBracket, .minus]
  | .negation | .conjunction | .disjunction => [.leftParen, .leftBracket, .minus, .not]

/-- The symbols that carry a phrase on when they follow it. -/
def continuations : Rank → List Symbol
  | .operand => [.leftParen]
  | .power | .sign => [.leftParen, .caret]
  | .product => [.leftParen, .caret, .star, .slash, .percent]
  | .sum => [.leftParen, .caret, .star, .slash, .percent, .plus, .minus]
  | .comparison | .negation =>
    [.leftParen, .caret, .star, .slash, .percent, .plus, .minus,
      .equal, .notEqual, .less, .lessEqual, .greater, .greaterEqual]
  | .conjunction =>
    [.leftParen, .caret, .star, .slash, .percent, .plus, .minus,
      .equal, .notEqual, .less, .lessEqual, .greater, .greaterEqual, .and]
  | .disjunction =>
    [.leftParen, .caret, .star, .slash, .percent, .plus, .minus,
      .equal, .notEqual, .less, .lessEqual, .greater, .greaterEqual, .and, .or]

/-- The tokens begin like a phrase: with a literal, a name or an opening symbol. -/
def Begins (rank : Rank) (tokens : List Token) : Prop :=
  ∃ token rest, tokens = token :: rest ∧
    ∀ symbol, token.kind.symbol? = some symbol → symbol ∈ rank.openings

/-- The tokens do not carry on a phrase before them. -/
def Stops (rank : Rank) (tokens : List Token) : Prop :=
  ∀ token rest symbol, tokens = token :: rest → token.kind.symbol? = some symbol →
    symbol ∉ rank.continuations

theorem openings_tighter_subset (rank : Rank) : rank.tighter.openings ⊆ rank.openings := by
  cases rank <;> decide

theorem continuations_tighter_subset (rank : Rank) :
    rank.tighter.continuations ⊆ rank.continuations := by
  cases rank <;> decide

variable {rank : Rank}

theorem Begins.of_tighter {tokens : List Token} (begins : rank.tighter.Begins tokens) :
    rank.Begins tokens := by
  obtain ⟨token, rest, rfl, opening⟩ := begins
  exact ⟨token, rest, rfl, fun symbol known => openings_tighter_subset rank (opening symbol known)⟩

theorem Begins.append {first second : List Token} (begins : rank.Begins first) :
    rank.Begins (first ++ second) := by
  obtain ⟨token, rest, rfl, opening⟩ := begins
  exact ⟨token, rest ++ second, rfl, opening⟩

/-- A phrase does not begin with a symbol that is not among its openings. -/
theorem Begins.ne_symbol {tokens : List Token} (begins : rank.Begins tokens) {symbol : Symbol}
    (not_opening : symbol ∉ rank.openings) (span : Text.Span) (rest : List Token) :
    tokens ≠ ⟨.symbol symbol, span⟩ :: rest := by
  rintro rfl
  obtain ⟨token, others, same, opening⟩ := begins
  cases same
  exact not_opening (opening symbol rfl)

theorem begins_of_symbol {symbol : Symbol} (opening : symbol ∈ rank.openings) (span : Text.Span)
    (rest : List Token) : rank.Begins (⟨.symbol symbol, span⟩ :: rest) := by
  refine ⟨_, rest, rfl, fun other known => ?_⟩
  cases known
  exact opening

theorem Stops.tighter {tokens : List Token} (stops : rank.Stops tokens) :
    rank.tighter.Stops tokens := by
  intro token rest symbol here known continues
  exact stops token rest symbol here known (continuations_tighter_subset rank continues)

theorem stops_nil : rank.Stops [] := by
  intro token rest symbol here
  cases here

theorem stops_of_symbol {symbol : Symbol} (not_continuation : symbol ∉ rank.continuations)
    (span : Text.Span) (rest : List Token) : rank.Stops (⟨.symbol symbol, span⟩ :: rest) := by
  intro token others other here known
  cases here
  cases known
  exact not_continuation

/-- A phrase of the next tighter rank ends before the symbol that joins it to
the next one. -/
theorem Joins.stops {symbol : Symbol} {kind : NodeKind} (joins : rank.Joins symbol kind)
    (span : Text.Span) (rest : List Token) :
    rank.tighter.Stops (⟨.symbol symbol, span⟩ :: rest) := by
  refine stops_of_symbol ?_ span rest
  cases joins <;> decide

/-- Symbols that join phrases carry them on. -/
theorem Joins.mem_continuations {symbol : Symbol} {kind : NodeKind}
    (joins : rank.Joins symbol kind) : symbol ∈ rank.continuations := by
  cases joins <;> decide

end Rank

theorem Derives.begins {source : List Char} :
    ∀ {rank : Rank} {tokens : List Token} {tree : Node} {nesting : Nat},
      Derives source rank tokens tree nesting → rank.Begins tokens
  | _, _, _, _, .tighter phrase => phrase.begins.of_tighter
  | _, _, _, _, .chain _ before _ => before.begins.append
  | _, _, _, _, .negation _ => Rank.begins_of_symbol (by decide) _ _
  | _, _, _, _, .sign _ => Rank.begins_of_symbol (by decide) _ _
  | _, _, _, _, .power below _ => by
    have base : Rank.power.tighter.Begins _ := below.begins
    exact base.of_tighter.append
  | _, _, _, _, .integer => ⟨_, [], rfl, fun _ known => by cases known⟩
  | _, _, _, _, .decimal => ⟨_, [], rfl, fun _ known => by cases known⟩
  | _, _, _, _, .string => ⟨_, [], rfl, fun _ known => by cases known⟩
  | _, _, _, _, .identifier => ⟨_, [], rfl, fun _ known => by cases known⟩
  | _, _, _, _, .parentheses _ => Rank.begins_of_symbol (by decide) _ _
  | _, _, _, _, .list _ => Rank.begins_of_symbol (by decide) _ _
  | _, _, _, _, .call _ _ _ => ⟨_, _, rfl, fun _ known => by cases known⟩

/-- The tree of a phrase lies from the first token to the last. -/
theorem Derives.span_tree {source : List Char} :
    ∀ {rank : Rank} {tokens : List Token} {tree : Node} {nesting : Nat},
      Derives source rank tokens tree nesting →
      ∃ first last, tokens.head? = some first ∧ tokens.getLast? = some last ∧
        tree.span = first.span.through last.span
  | _, _, _, _, .tighter phrase => phrase.span_tree
  | _, _, _, _, .chain _ before after => by
    obtain ⟨first, _, begins, _, left⟩ := before.span_tree
    obtain ⟨_, last, _, ends, right⟩ := after.span_tree
    refine ⟨first, last, by simp [begins], by simp [List.getLast?_cons, ends], ?_⟩
    rw [Node.over, Node.span, left, right]
    rfl
  | _, _, _, _, .negation negated => by
    obtain ⟨_, last, _, ends, right⟩ := negated.span_tree
    refine ⟨_, last, rfl, by simp [List.getLast?_cons, ends], ?_⟩
    rw [Node.over, Node.span, right]
    rfl
  | _, _, _, _, .sign signed => by
    obtain ⟨_, last, _, ends, right⟩ := signed.span_tree
    refine ⟨_, last, rfl, by simp [List.getLast?_cons, ends], ?_⟩
    rw [Node.over, Node.span, right]
    rfl
  | _, _, _, _, .power below above => by
    obtain ⟨first, _, begins, _, left⟩ := below.span_tree
    obtain ⟨_, last, _, ends, right⟩ := above.span_tree
    refine ⟨first, last, by simp [begins], by simp [List.getLast?_cons, ends], ?_⟩
    rw [Node.over, Node.span, left, right]
    rfl
  | _, _, _, _, .integer => ⟨_, _, rfl, rfl, rfl⟩
  | _, _, _, _, .decimal => ⟨_, _, rfl, rfl, rfl⟩
  | _, _, _, _, .string => ⟨_, _, rfl, rfl, rfl⟩
  | _, _, _, _, .identifier => ⟨_, _, rfl, rfl, rfl⟩
  | _, _, _, _, .parentheses _ => ⟨_, _, rfl, List.getLast?_concat, Node.span_widen _ _⟩
  | _, _, _, _, .list _ => ⟨_, _, rfl, List.getLast?_concat, rfl⟩
  | _, _, _, _, .call _ _ _ => ⟨_, _, rfl, List.getLast?_concat, rfl⟩

/-! ## Trees of the grammar -/

@[simp] theorem Node.height_widen (span : Text.Span) (tree : Node) :
    (tree.widen span).height = tree.height := by
  rw [height_eq, height_eq, children_widen]

/-- The span of a node does not matter for its children. -/
theorem Node.WellFormed.widen {tree : Node} (well_formed : tree.WellFormed) (span : Text.Span) :
    (tree.widen span).WellFormed := by
  cases well_formed with
  | mk admitted below => exact .mk admitted below

mutual

/-- **The trees of the grammar are well formed.** -/
theorem Derives.wellFormed {source : List Char} :
    ∀ {rank : Rank} {tokens : List Token} {tree : Node} {nesting : Nat},
      Derives source rank tokens tree nesting → tree.WellFormed
  | _, _, _, _, .tighter phrase => phrase.wellFormed
  | _, _, _, _, .chain joins before after => by
    have left := before.wellFormed
    have right := after.wellFormed
    refine .mk (by cases joins <;> rfl) fun child member => ?_
    rcases List.mem_pair.mp member with rfl | rfl
    · exact left
    · exact right
  | _, _, _, _, .negation negated => by
    have operand := negated.wellFormed
    exact .mk rfl fun child member => List.mem_singleton.mp member ▸ operand
  | _, _, _, _, .sign signed => by
    have operand := signed.wellFormed
    exact .mk rfl fun child member => List.mem_singleton.mp member ▸ operand
  | _, _, _, _, .power below above => by
    have base := below.wellFormed
    have exponent := above.wellFormed
    refine .mk rfl fun child member => ?_
    rcases List.mem_pair.mp member with rfl | rfl
    · exact base
    · exact exponent
  | _, _, _, _, .integer => .mk rfl fun _ member => by cases member
  | _, _, _, _, .decimal => .mk rfl fun _ member => by cases member
  | _, _, _, _, .string => .mk rfl fun _ member => by cases member
  | _, _, _, _, .identifier => .mk rfl fun _ member => by cases member
  | _, _, _, _, .parentheses inside => inside.wellFormed.widen _
  | _, _, _, _, .list inside => .mk rfl inside.wellFormed
  | _, _, _, _, .call _ admitted inside => .mk admitted inside.wellFormed

theorem DerivesItems.wellFormed {source : List Char} :
    ∀ {tokens : List Token} {items : List Node} {nesting : Nat},
      DerivesItems source tokens items nesting → ∀ item ∈ items, item.WellFormed
  | _, _, _, .none => fun _ member => by cases member
  | _, _, _, .one item => by
    have only := item.wellFormed
    exact fun child member => List.mem_singleton.mp member ▸ only
  | _, _, _, .more before after => by
    have earlier := before.wellFormed
    have last := after.wellFormed
    intro child member
    rcases List.mem_append.mp member with among | among
    · exact earlier child among
    · exact List.mem_singleton.mp among ▸ last

end

end FormulaStepper.Formula
