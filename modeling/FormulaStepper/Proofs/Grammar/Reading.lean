import FormulaStepper.Formula.Parser
import FormulaStepper.Proofs.Grammar.Derivation

/-!
# What the rules read

Whatever a rule reads from the front of a token list is a phrase of the
grammar, and the tree it returns is the tree of that phrase
(`Level.reads_rule`). A rule never reads more levels than are left to it, nor
builds a tree that is taller than the limit. The rules of one level are
treated from the tightest to the loosest, on the assumption that the rules of
the next level keep to the grammar (`Level.Sound`), and the levels then by
induction.
-/

set_option autoImplicit false

namespace FormulaStepper.Formula

/-- Two readings succeed together if both do. -/
theorem exists_of_bind_eq_ok {ε α β : Type} {first : Except ε α} {next : α → Except ε β}
    {result : β} (succeeded : first >>= next = .ok result) :
    ∃ value, first = .ok value ∧ next value = .ok result := by
  cases first with
  | error error => cases succeeded
  | ok value => exact ⟨value, rfl, succeeded⟩

/-- A node is built where it is not too tall, and it is the node over its span. -/
theorem build_eq_ok_iff {reader : Reader} {kind : NodeKind} {children : List Node}
    {span : Text.Span} {node : Node} :
    build reader kind children span = .ok node ↔
      node = .over reader.source kind children span ∧ node.height ≤ reader.height := by
  unfold build
  by_cases within :
      (Node.mk kind children (String.ofList (Text.slice reader.source span)) span).height ≤
        reader.height
  · simp only [if_pos within, Except.ok.injEq]
    constructor
    · rintro rfl
      exact ⟨rfl, within⟩
    · rintro ⟨rfl, -⟩
      rfl
  · simp only [if_neg within, reduceCtorEq, false_iff]
    rintro ⟨rfl, fits⟩
    exact within fits

/-- A symbol that was expected stood at the front. -/
theorem eq_cons_of_expect {symbol : Symbol} {tokens rest : List Token} {span : Text.Span}
    (found : expect symbol tokens = .ok (span, rest)) :
    tokens = ⟨.symbol symbol, span⟩ :: rest := by
  cases tokens with
  | nil => cases found
  | cons token others =>
    obtain ⟨kind, place⟩ := token
    cases kind with
    | symbol sign =>
      simp only [expect] at found
      split at found
      · next same => cases found; rw [same]
      · cases found
    | integer | decimal | string | identifier | finish => cases found

namespace Rank

/-- The operators that the rule of a rank looks for. -/
def operator? : Rank → Symbol → Option NodeKind
  | .disjunction => Level.disjunctionOperator?
  | .conjunction => Level.conjunctionOperator?
  | .comparison => Level.comparisonOperator?
  | .sum => Level.sumOperator?
  | .product => Level.productOperator?
  | .negation | .sign | .power | .operand => fun _ => none

theorem operator?_eq_some_iff {rank : Rank} {symbol : Symbol} {kind : NodeKind} :
    rank.operator? symbol = some kind ↔ rank.Joins symbol kind := by
  constructor
  · intro known
    cases rank <;> cases symbol <;> cases known <;> constructor
  · intro joins
    cases joins <;> rfl

end Rank

/-- What a rule reads is a phrase of a rank in which fewer than `bound`
constructs lie in one another, and its tree is not too tall. -/
def Reads (reader : Reader) (rank : Rank) (bound : Nat) (rule : Rule Node) : Prop :=
  ∀ tokens tree rest, rule tokens = .ok (tree, rest) →
    ∃ read nesting, tokens = read ++ rest ∧ Derives reader.source rank read tree nesting ∧
      nesting < bound ∧ tree.height ≤ reader.height

/-- The same for the items between brackets or the parentheses of a call. -/
def ReadsItems (reader : Reader) (bound : Nat) (rule : Rule (List Node)) : Prop :=
  ∀ tokens items rest, rule tokens = .ok (items, rest) →
    ∃ read nesting, tokens = read ++ rest ∧ DerivesItems reader.source read items nesting ∧
      nesting < bound

section Chains

variable {reader : Reader} {rank : Rank} {bound : Nat} {rule : Rule Node}

theorem Reads.of_tighter (reads : Reads reader rank.tighter bound rule) :
    Reads reader rank bound rule := by
  intro tokens tree rest succeeded
  obtain ⟨read, nesting, split, phrase, few, low⟩ := reads tokens tree rest succeeded
  exact ⟨read, nesting, split, .tighter phrase, few, low⟩

/-- A chain that goes on after its first operands stays a chain. -/
theorem Reads.chainFrom (operand : Reads reader rank.tighter bound rule) (count : Nat) :
    ∀ {before : List Token} {left : Node} {nesting : Nat},
      Derives reader.source rank before left nesting → nesting < bound →
      left.height ≤ reader.height → ∀ tokens tree rest,
      chainFrom reader rank.operator? rule count left tokens = .ok (tree, rest) →
      ∃ read nesting, before ++ tokens = read ++ rest ∧
        Derives reader.source rank read tree nesting ∧ nesting < bound ∧
        tree.height ≤ reader.height := by
  induction count with
  | zero =>
    intro before left nesting phrase few low tokens tree rest succeeded
    cases succeeded
    exact ⟨before, nesting, rfl, phrase, few, low⟩
  | succ count ih =>
    intro before left nesting phrase few low tokens tree rest succeeded
    cases tokens with
    | nil =>
      cases succeeded
      exact ⟨before, nesting, rfl, phrase, few, low⟩
    | cons token others =>
      rw [Formula.chainFrom] at succeeded
      cases found : token.kind.symbol?.bind rank.operator? with
      | none =>
        rw [found] at succeeded
        cases succeeded
        exact ⟨before, nesting, rfl, phrase, few, low⟩
      | some kind =>
        rw [found] at succeeded
        obtain ⟨⟨right, later⟩, succeeded_operand, after_operand⟩ := exists_of_bind_eq_ok succeeded
        obtain ⟨node, built, continued⟩ := exists_of_bind_eq_ok after_operand
        obtain ⟨symbol, known, operator⟩ := Option.bind_eq_some_iff.mp found
        obtain ⟨rfl, low_node⟩ := build_eq_ok_iff.mp built
        obtain ⟨second, inner, rfl, after, few_second, -⟩ :=
          operand others right later succeeded_operand
        obtain ⟨token_kind, span⟩ := token
        cases token_kind with
        | symbol sign =>
          cases known
          have joined : Derives reader.source rank (before ++ ⟨.symbol symbol, span⟩ :: second)
              _ _ :=
            .chain (Rank.operator?_eq_some_iff.mp operator) phrase after
          obtain ⟨read, total, split, whole, few_total, low_tree⟩ :=
            ih joined (Nat.max_lt.mpr ⟨few, few_second⟩) low_node later tree rest continued
          refine ⟨read, total, ?_, whole, few_total, low_tree⟩
          rw [← split]
          simp only [List.append_assoc, List.cons_append]
        | integer | decimal | string | identifier | finish => cases known

/-- A chain of phrases of the next tighter rank. -/
theorem Reads.chain (operand : Reads reader rank.tighter bound rule) :
    Reads reader rank bound (chain reader rank.operator? rule) := by
  intro tokens tree rest succeeded
  obtain ⟨⟨first, later⟩, succeeded_first, continued⟩ := exists_of_bind_eq_ok succeeded
  obtain ⟨before, nesting, rfl, phrase, few, low⟩ := operand tokens first later succeeded_first
  exact operand.chainFrom later.length (.tighter phrase) few low later tree rest continued

/-- Items that go on after the first. -/
theorem Reads.itemsFrom (item : Reads reader .disjunction bound rule) (count : Nat) :
    ∀ {before : List Token} {first : Node} {others : List Node} {nesting : Nat},
      DerivesItems reader.source before (first :: others) nesting → nesting < bound →
      ∀ tokens items rest,
      itemsFrom rule count (first :: others) tokens = .ok (items, rest) →
      ∃ read nesting, before ++ tokens = read ++ rest ∧
        DerivesItems reader.source read items nesting ∧ nesting < bound := by
  induction count with
  | zero =>
    intro before first others nesting phrase few tokens items rest succeeded
    cases succeeded
    exact ⟨before, nesting, rfl, phrase, few⟩
  | succ count ih =>
    intro before first others nesting phrase few tokens items rest succeeded
    rw [Formula.itemsFrom.eq_def] at succeeded
    split at succeeded
    · next same => cases same
    · next fewer span later same =>
      cases same
      obtain ⟨⟨next, remaining⟩, succeeded_item, continued⟩ := exists_of_bind_eq_ok succeeded
      obtain ⟨second, inner, rfl, after, few_second, -⟩ :=
        item later next remaining succeeded_item
      have together : DerivesItems reader.source (before ++ ⟨.symbol .comma, span⟩ :: second)
          _ _ :=
        .more phrase after
      obtain ⟨read, total, split, whole, few_total⟩ :=
        ih together (Nat.max_lt.mpr ⟨few, few_second⟩) remaining items rest continued
      refine ⟨read, total, ?_, whole, few_total⟩
      rw [← split]
      simp only [List.append_assoc, List.cons_append]
    · cases succeeded
      exact ⟨before, nesting, rfl, phrase, few⟩

/-- Items, or none before the closing symbol. -/
theorem Reads.items (item : Reads reader .disjunction bound rule) (positive : 0 < bound)
    (close : Symbol) :
    ReadsItems reader bound (items close rule) := by
  have some_items : ∀ tokens nodes rest,
      (rule tokens >>= fun read => Formula.itemsFrom rule read.2.length [read.1] read.2) =
        .ok (nodes, rest) →
      ∃ read nesting, tokens = read ++ rest ∧ DerivesItems reader.source read nodes nesting ∧
        nesting < bound := by
    intro tokens nodes rest succeeded
    obtain ⟨⟨first, later⟩, succeeded_first, continued⟩ := exists_of_bind_eq_ok succeeded
    obtain ⟨before, nesting, rfl, phrase, few, -⟩ := item tokens first later succeeded_first
    exact item.itemsFrom later.length (.one phrase) few later nodes rest continued
  intro tokens nodes rest succeeded
  unfold Formula.items at succeeded
  split at succeeded
  · split at succeeded
    · cases succeeded
      exact ⟨[], 0, rfl, .none, positive⟩
    · exact some_items _ nodes rest succeeded
  · exact some_items tokens nodes rest succeeded

end Chains

namespace Level

/-- The rule for the phrases of a rank, around the rules of the next level. -/
def rule (reader : Reader) (inner : Level) : Rank → Rule Node
  | .disjunction => expressionRule reader inner
  | .conjunction => chain reader conjunctionOperator? (negatedRule reader inner)
  | .negation => negatedRule reader inner
  | .comparison => comparison reader inner
  | .sum => chain reader sumOperator? (chain reader productOperator? (signedRule reader inner))
  | .product => chain reader productOperator? (signedRule reader inner)
  | .sign => signedRule reader inner
  | .power => power reader inner
  | .operand => operand reader inner

/-- The rules of a level read only what the grammar derives, with fewer than
`bound` constructs in one another. -/
structure Sound (reader : Reader) (bound : Nat) (level : Level) : Prop where
  expression : Reads reader .disjunction bound level.expression
  negated : Reads reader .negation bound level.negated
  signed : Reads reader .sign bound level.signed
  arguments : ∀ close, ReadsItems reader bound (level.arguments close)

/-- A sign and its operand, where the operand is read on the next level. -/
theorem reads_afterSign {reader : Reader} {bound : Nat} {rank : Rank} {op : UnaryOp}
    {symbol : Symbol} {span : Text.Span} {operand : Rule Node}
    (reads : Reads reader rank bound operand)
    (derives : ∀ tokens node nesting, Derives reader.source rank tokens node nesting →
      Derives reader.source rank (⟨.symbol symbol, span⟩ :: tokens)
        (.over reader.source (.unary op) [node] (span.through node.span)) (nesting + 1))
    {tokens rest : List Token} {tree : Node}
    (succeeded : afterSign reader op span operand tokens = .ok (tree, rest)) :
    ∃ read nesting, ⟨.symbol symbol, span⟩ :: tokens = read ++ rest ∧
      Derives reader.source rank read tree nesting ∧ nesting < bound + 1 ∧
      tree.height ≤ reader.height := by
  obtain ⟨⟨node, later⟩, read_operand, after_operand⟩ := exists_of_bind_eq_ok succeeded
  obtain ⟨above, built, returned⟩ := exists_of_bind_eq_ok after_operand
  obtain ⟨rfl, low⟩ := build_eq_ok_iff.mp built
  obtain ⟨inside, nesting, rfl, phrase, few, -⟩ := reads _ _ _ read_operand
  cases returned
  exact ⟨_, nesting + 1, rfl, derives inside node nesting phrase, Nat.succ_lt_succ few, low⟩

section Rules

variable {reader : Reader} {bound : Nat} {inner : Level} (sound : inner.Sound reader bound)
include sound

/-- A call, from its name on. -/
theorem reads_call {name : String} {span opening : Text.Span} {tokens rest : List Token}
    {tree : Node} (succeeded : call reader inner name span tokens = .ok (tree, rest)) :
    ∃ read nesting,
      ⟨.identifier name, span⟩ :: ⟨.symbol .leftParen, opening⟩ :: tokens = read ++ rest ∧
        Derives reader.source .operand read tree nesting ∧ nesting < bound + 1 ∧
        tree.height ≤ reader.height := by
  unfold call at succeeded
  cases named : Function.lookup? name with
  | none =>
    rw [named] at succeeded
    cases succeeded
  | some function =>
    rw [named] at succeeded
    obtain ⟨⟨arguments, later⟩, read_arguments, after_items⟩ := exists_of_bind_eq_ok succeeded
    obtain ⟨⟨closing, later'⟩, closed, after_closing⟩ := exists_of_bind_eq_ok after_items
    obtain ⟨⟨⟩, checked, after_check⟩ := exists_of_bind_eq_ok after_closing
    obtain ⟨node, built, returned⟩ := exists_of_bind_eq_ok after_check
    obtain ⟨rfl, low⟩ := build_eq_ok_iff.mp built
    obtain ⟨inside, nesting, rfl, items, few⟩ := sound.arguments _ _ _ _ read_arguments
    cases eq_cons_of_expect closed
    cases returned
    have admitted : function.arity.admits arguments.length = true := by
      by_contra refused
      rw [Function.checkArity, if_neg refused] at checked
      cases checked
    refine ⟨⟨.identifier name, span⟩ :: ⟨.symbol .leftParen, opening⟩ ::
      inside ++ [⟨.symbol .rightParen, closing⟩], nesting + 1, ?_, .call named admitted items,
      Nat.succ_lt_succ few, low⟩
    simp only [List.append_assoc, List.cons_append, List.nil_append]

theorem reads_parentheses {opening : Text.Span} {tokens rest : List Token} {tree : Node}
    (succeeded : (do
      let (node, rest) ← inner.expression tokens
      let (closing, rest) ← expect .rightParen rest
      .ok (node.widen (opening.through closing), rest)) = Except.ok (tree, rest)) :
    ∃ read nesting, ⟨.symbol .leftParen, opening⟩ :: tokens = read ++ rest ∧
      Derives reader.source .operand read tree nesting ∧ nesting < bound + 1 ∧
      tree.height ≤ reader.height := by
  obtain ⟨⟨node, later⟩, read_inside, after_inside⟩ := exists_of_bind_eq_ok succeeded
  obtain ⟨⟨closing, later'⟩, closed, returned⟩ := exists_of_bind_eq_ok after_inside
  obtain ⟨inside, nesting, rfl, phrase, few, low⟩ := sound.expression _ _ _ read_inside
  cases eq_cons_of_expect closed
  cases returned
  refine ⟨_, nesting + 1, ?_, .parentheses phrase, Nat.succ_lt_succ few, ?_⟩
  · simp only [List.append_assoc, List.cons_append, List.nil_append]
  · rwa [Node.height_widen]

theorem reads_brackets {opening : Text.Span} {tokens rest : List Token} {tree : Node}
    (succeeded : (do
      let (elements, rest) ← inner.arguments .rightBracket tokens
      let (closing, rest) ← expect .rightBracket rest
      let node ← build reader .list elements (opening.through closing)
      .ok (node, rest)) = Except.ok (tree, rest)) :
    ∃ read nesting, ⟨.symbol .leftBracket, opening⟩ :: tokens = read ++ rest ∧
      Derives reader.source .operand read tree nesting ∧ nesting < bound + 1 ∧
      tree.height ≤ reader.height := by
  obtain ⟨⟨elements, later⟩, read_elements, after_items⟩ := exists_of_bind_eq_ok succeeded
  obtain ⟨⟨closing, later'⟩, closed, after_closing⟩ := exists_of_bind_eq_ok after_items
  obtain ⟨node, built, returned⟩ := exists_of_bind_eq_ok after_closing
  obtain ⟨rfl, low⟩ := build_eq_ok_iff.mp built
  obtain ⟨inside, nesting, rfl, items, few⟩ := sound.arguments _ _ _ _ read_elements
  cases eq_cons_of_expect closed
  cases returned
  refine ⟨_, nesting + 1, ?_, .list items, Nat.succ_lt_succ few, low⟩
  simp only [List.append_assoc, List.cons_append, List.nil_append]

theorem reads_operand (positive : 0 < reader.height) :
    Reads reader .operand (bound + 1) (operand reader inner) := by
  have low_leaf (kind : NodeKind) (span : Text.Span) :
      (Node.over reader.source kind [] span).height ≤ reader.height := positive
  intro tokens tree rest succeeded
  cases tokens with
  | nil => cases succeeded
  | cons token others =>
    obtain ⟨kind, span⟩ := token
    cases kind with
    | finish => cases succeeded
    | integer n =>
      cases succeeded
      exact ⟨[⟨.integer n, span⟩], 0, rfl, .integer, Nat.succ_pos bound, low_leaf _ span⟩
    | decimal x =>
      cases succeeded
      exact ⟨[⟨.decimal x, span⟩], 0, rfl, .decimal, Nat.succ_pos bound, low_leaf _ span⟩
    | string text =>
      cases succeeded
      exact ⟨[⟨.string text, span⟩], 0, rfl, .string, Nat.succ_pos bound, low_leaf _ span⟩
    | identifier name =>
      simp only [operand] at succeeded
      split at succeeded
      · exact reads_call sound succeeded
      · cases succeeded
        exact ⟨[⟨.identifier name, span⟩], 0, rfl, .identifier, Nat.succ_pos bound,
          low_leaf _ span⟩
    | symbol sign =>
      cases sign with
      | leftParen => exact reads_parentheses sound succeeded
      | leftBracket => exact reads_brackets sound succeeded
      | _ => cases succeeded

theorem reads_power (positive : 0 < reader.height) :
    Reads reader .power (bound + 1) (power reader inner) := by
  intro tokens tree rest succeeded
  obtain ⟨⟨base, later⟩, read_base, continued⟩ := exists_of_bind_eq_ok succeeded
  obtain ⟨first, outer, rfl, below, few, low⟩ := reads_operand sound positive _ _ _ read_base
  simp only at continued
  split at continued
  · next span above =>
    obtain ⟨⟨exponent, later'⟩, read_exponent, after_exponent⟩ := exists_of_bind_eq_ok continued
    obtain ⟨node, built, returned⟩ := exists_of_bind_eq_ok after_exponent
    obtain ⟨rfl, low_node⟩ := build_eq_ok_iff.mp built
    obtain ⟨second, nesting, rfl, phrase, few_second, -⟩ := sound.signed _ _ _ read_exponent
    cases returned
    refine ⟨first ++ ⟨.symbol .caret, span⟩ :: second, _, ?_, .power below phrase,
      Nat.max_lt.mpr ⟨few, Nat.succ_lt_succ few_second⟩, low_node⟩
    simp only [List.append_assoc, List.cons_append]
  · cases continued
    exact ⟨first, outer, rfl, .tighter below, few, low⟩

theorem reads_rule (positive : 0 < reader.height) (rank : Rank) :
    Reads reader rank (bound + 1) (rule reader inner rank) := by
  have operand : Reads reader .operand (bound + 1) (rule reader inner .operand) :=
    reads_operand sound positive
  have power : Reads reader .power (bound + 1) (rule reader inner .power) :=
    reads_power sound positive
  have sign : Reads reader .sign (bound + 1) (rule reader inner .sign) := by
    intro tokens tree rest succeeded
    rw [rule, signedRule.eq_def] at succeeded
    split at succeeded
    · exact reads_afterSign sound.signed (fun _ _ _ => .sign) succeeded
    · exact Reads.of_tighter power _ _ _ succeeded
  have product : Reads reader .product (bound + 1) (rule reader inner .product) :=
    Reads.chain sign
  have sum : Reads reader .sum (bound + 1) (rule reader inner .sum) :=
    Reads.chain product
  have comparison : Reads reader .comparison (bound + 1) (rule reader inner .comparison) :=
    Reads.chain sum
  have negation : Reads reader .negation (bound + 1) (rule reader inner .negation) := by
    intro tokens tree rest succeeded
    rw [rule, negatedRule.eq_def] at succeeded
    split at succeeded
    · exact reads_afterSign sound.negated (fun _ _ _ => .negation) succeeded
    · exact Reads.of_tighter comparison _ _ _ succeeded
  have conjunction : Reads reader .conjunction (bound + 1) (rule reader inner .conjunction) :=
    Reads.chain negation
  have disjunction : Reads reader .disjunction (bound + 1) (rule reader inner .disjunction) :=
    Reads.chain conjunction
  cases rank <;> assumption

end Rules

/-- **The rules of every level keep to the grammar.** -/
theorem sound_rules (reader : Reader) (positive : 0 < reader.height) (levels : Nat) :
    (rules reader levels).Sound reader levels := by
  induction levels with
  | zero =>
    constructor
    · intro tokens tree rest succeeded
      cases succeeded
    · intro tokens tree rest succeeded
      cases succeeded
    · intro tokens tree rest succeeded
      cases succeeded
    · intro close tokens items rest succeeded
      cases succeeded
  | succ levels ih =>
    have reads := reads_rule ih positive
    exact ⟨reads .disjunction, reads .negation, reads .sign,
      (reads .disjunction).items (Nat.succ_pos levels)⟩

end Level

/-- **A formula that was read is derived**, with no more nesting and height than
allowed. -/
theorem derives_of_parseTokens {reader : Reader} (positive : 0 < reader.height)
    {tokens : List Token} {tree : Node} (parsed : parseTokens reader tokens = .ok tree) :
    ∃ nesting, Derives reader.source .disjunction tokens tree nesting ∧
      nesting ≤ reader.nesting ∧ tree.height ≤ reader.height := by
  obtain ⟨⟨node, rest⟩, read_all, at_end⟩ := exists_of_bind_eq_ok parsed
  obtain ⟨read, nesting, rfl, phrase, few, low⟩ :=
    (Level.sound_rules reader positive (reader.nesting + 1)).expression _ _ _ read_all
  cases rest with
  | nil =>
    cases at_end
    rw [List.append_nil]
    exact ⟨nesting, phrase, Nat.le_of_lt_succ few, low⟩
  | cons token rest => cases at_end

/-- The formulas that are read are well formed. -/
theorem wellFormed_of_parse {source : String} {formula : Node}
    (parsed : parse source = .ok formula) : formula.WellFormed := by
  obtain ⟨tokens, _, parsed⟩ := exists_of_bind_eq_ok parsed
  have positive : 0 < (Reader.standard source.toList).height := Nat.succ_pos 1023
  obtain ⟨_, phrase, _, _⟩ := derives_of_parseTokens positive parsed
  exact phrase.wellFormed

end FormulaStepper.Formula
