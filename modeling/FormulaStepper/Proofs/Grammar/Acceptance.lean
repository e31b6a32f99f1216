import FormulaStepper.Proofs.Grammar.Reading

/-!
# What the rules accept

Every phrase of the grammar is read by the rule of its rank, if what follows
does not carry the phrase on and neither limit is in the way. The left operand
of a chain is followed by a symbol that does carry it on. So the induction over
derivations says more of a chain: having read the phrase, the rule goes on as a
chain that has the phrase as its first operands (`Level.GoesOn`).

Together with what the rules read, this makes the formulas that are accepted
those that the grammar derives within the limits (`parse_accepts_grammar`).
Since every derivation is within the limits of some reader, a token list has no
more than one tree in the grammar (`Derives.unique`).
-/

set_option autoImplicit false

namespace FormulaStepper.Formula

/-! ## Heights -/

/-- The operands of a tree that is not too tall are not too tall. -/
theorem Node.height_le_of_over {source : List Char} {kind : NodeKind} {children : List Node}
    {span : Text.Span} {limit : Nat}
    (low : (Node.over source kind children span).height ≤ limit) :
    ∀ child ∈ children, child.height ≤ limit := by
  intro child member
  have below : child ∈ (Node.over source kind children span).children := member
  exact Nat.le_trans (Nat.le_of_lt (Node.height_lt_of_mem below)) low

theorem build_over {reader : Reader} {kind : NodeKind} {children : List Node} {span : Text.Span}
    (low : (Node.over reader.source kind children span).height ≤ reader.height) :
    build reader kind children span = .ok (.over reader.source kind children span) :=
  build_eq_ok_iff.mpr ⟨rfl, low⟩

/-! ## Where a phrase ends -/

/-- A phrase of the rank can end before these tokens: they do not carry it on,
or they join another phrase to it. -/
def Rank.Resumes (rank : Rank) (tokens : List Token) : Prop :=
  rank.Stops tokens ∨ ∃ symbol kind span later,
    rank.Joins symbol kind ∧ tokens = ⟨.symbol symbol, span⟩ :: later

theorem Rank.Resumes.stops_tighter {rank : Rank} {tokens : List Token}
    (resumes : rank.Resumes tokens) : rank.tighter.Stops tokens := by
  rcases resumes with stops | ⟨symbol, kind, span, later, joins, rfl⟩
  · exact stops.tighter
  · exact joins.stops span later

/-- At a rank without chains, a phrase ends only where it stops. -/
theorem Rank.Resumes.stops {rank : Rank} {tokens : List Token} (resumes : rank.Resumes tokens)
    (no_chain : ∀ symbol, rank.operator? symbol = none) : rank.Stops tokens := by
  rcases resumes with stops | ⟨symbol, kind, span, later, joins, rfl⟩
  · exact stops
  · rw [← Rank.operator?_eq_some_iff, no_chain] at joins
    cases joins

theorem Rank.Stops.ne_symbol {rank : Rank} {tokens : List Token} (stops : rank.Stops tokens)
    {symbol : Symbol} (continues : symbol ∈ rank.continuations) (span : Text.Span)
    (rest : List Token) : tokens ≠ ⟨.symbol symbol, span⟩ :: rest := by
  rintro rfl
  exact stops _ rest symbol rfl rfl continues

/-- A chain ends where its rank stops. -/
theorem chainFrom_of_stops {reader : Reader} {rank : Rank} {operand : Rule Node} {count : Nat}
    {left : Node} {tokens : List Token} (stops : rank.Stops tokens) :
    chainFrom reader rank.operator? operand count left tokens = .ok (left, tokens) := by
  cases count with
  | zero => rfl
  | succ count =>
    cases tokens with
    | nil => rfl
    | cons token rest =>
      have no_operator : token.kind.symbol?.bind rank.operator? = none := by
        rw [Option.bind_eq_none_iff]
        intro symbol known
        cases found : rank.operator? symbol with
        | none => rfl
        | some kind =>
          have continues := (Rank.operator?_eq_some_iff.mp found).mem_continuations
          exact absurd continues (stops token rest symbol rfl known)
      rw [chainFrom, no_operator]

namespace Level

/-! ## One phrase -/

section Phrases

variable {reader : Reader} {inner : Level} {rank : Rank} {read : List Token} {tree : Node}

/-- The rule of a rank reads a phrase where the phrase stops. -/
def Ends (reader : Reader) (inner : Level) (rank : Rank) (read : List Token) (tree : Node) :
    Prop :=
  ∀ rest, rank.Stops rest → rule reader inner rank (read ++ rest) = .ok (tree, rest)

/-- Having read a phrase, the rule of its rank goes on as a chain that has the
phrase as its first operands. -/
def GoesOn (reader : Reader) (inner : Level) (rank : Rank) (read : List Token) (tree : Node) :
    Prop :=
  ∀ rest, rank.Resumes rest → ∃ count, rest.length ≤ count ∧
    rule reader inner rank (read ++ rest) =
      chainFrom reader rank.operator? (rule reader inner rank.tighter) count tree rest

theorem GoesOn.ends (goes_on : GoesOn reader inner rank read tree) :
    Ends reader inner rank read tree := by
  intro rest stops
  obtain ⟨count, -, continued⟩ := goes_on rest (.inl stops)
  rw [continued, chainFrom_of_stops stops]

/-- At a rank without chains, it is enough to read the phrase where it stops. -/
theorem Ends.goesOn (ends : Ends reader inner rank read tree)
    (no_chain : ∀ symbol, rank.operator? symbol = none) :
    GoesOn reader inner rank read tree := by
  intro rest resumes
  have stops := resumes.stops no_chain
  refine ⟨rest.length, Nat.le_refl _, ?_⟩
  rw [ends rest stops, chainFrom_of_stops stops]

theorem goesOn_operand (ends : Ends reader inner .operand read tree) :
    GoesOn reader inner .operand read tree :=
  ends.goesOn fun _ => rfl

/-- A chain begins with a phrase of the next tighter rank. -/
theorem Ends.chain (ends : Ends reader inner rank.tighter read tree)
    (is_chain : rule reader inner rank =
      chain reader rank.operator? (rule reader inner rank.tighter)) :
    GoesOn reader inner rank read tree := by
  intro rest resumes
  refine ⟨rest.length, Nat.le_refl _, ?_⟩
  rw [is_chain, Formula.chain, ends rest resumes.stops_tighter]
  rfl

/-- A phrase of the next tighter rank is one of the rank. -/
theorem Ends.of_tighter (begins : rank.tighter.Begins read)
    (ends : Ends reader inner rank.tighter read tree) : GoesOn reader inner rank read tree := by
  cases rank with
  | disjunction | conjunction | comparison | sum | product => exact ends.chain rfl
  | negation =>
    refine Ends.goesOn (fun rest stops => ?_) fun _ => rfl
    rw [rule, negatedRule.eq_def]
    split
    · next same => exact absurd same (begins.append.ne_symbol (by decide) _ _)
    · exact ends rest stops.tighter
  | sign =>
    refine Ends.goesOn (fun rest stops => ?_) fun _ => rfl
    rw [rule, signedRule.eq_def]
    split
    · next same => exact absurd same (begins.append.ne_symbol (by decide) _ _)
    · exact ends rest stops.tighter
  | power =>
    refine Ends.goesOn (fun rest stops => ?_) fun _ => rfl
    have read_base : operand reader inner (read ++ rest) = .ok (tree, rest) :=
      ends rest stops.tighter
    unfold rule power
    simp only [read_base, bind, Except.bind]
    split
    · exact absurd rfl (stops.ne_symbol (by decide) _ _)
    · rfl
  | operand => exact Ends.goesOn ends fun _ => rfl

/-- A chain goes on after each of its operators. -/
theorem GoesOn.chain {symbol : Symbol} {kind : NodeKind} {span : Text.Span}
    {second : List Token} {right : Node} (joins : rank.Joins symbol kind)
    (before : GoesOn reader inner rank read tree)
    (after : Ends reader inner rank.tighter second right)
    (low : (Node.over reader.source kind [tree, right]
      (tree.span.through right.span)).height ≤ reader.height) :
    GoesOn reader inner rank (read ++ ⟨.symbol symbol, span⟩ :: second)
      (.over reader.source kind [tree, right] (tree.span.through right.span)) := by
  intro rest resumes
  obtain ⟨count, enough, continued⟩ :=
    before (⟨.symbol symbol, span⟩ :: (second ++ rest)) (.inr ⟨symbol, kind, span, _, joins, rfl⟩)
  cases count with
  | zero => cases enough
  | succ count =>
    have operator :
        (⟨.symbol symbol, span⟩ : Token).kind.symbol?.bind rank.operator? = some kind :=
      Rank.operator?_eq_some_iff.mpr joins
    refine ⟨count, ?_, ?_⟩
    · rw [List.length_cons, List.length_append] at enough
      omega
    · rw [List.append_assoc, List.cons_append, continued, chainFrom]
      simp only [operator]
      rw [after rest resumes.stops_tighter]
      change (build reader kind [tree, right] (tree.span.through right.span) >>= _) = _
      rw [build_over low]
      rfl

end Phrases

/-! ## Phrases that open a level -/

section Constructs

variable {reader : Reader} {inner : Level} {read : List Token}

/-- The rules take the items up to a symbol that stops an expression, and go on
to the next item. -/
def ItemsGoOn (reader : Reader) (inner : Level) (read : List Token) (nodes : List Node) : Prop :=
  ∀ close rest, close ∉ Rank.disjunction.openings → Rank.disjunction.Stops rest →
    ∃ count, rest.length ≤ count ∧
      items close (rule reader inner .disjunction) (read ++ rest) =
        itemsFrom (rule reader inner .disjunction) count nodes rest

/-- The rules take all items up to the closing symbol. -/
def ItemsEnd (reader : Reader) (inner : Level) (read : List Token) (nodes : List Node) : Prop :=
  ∀ close rest span, close ∈ [Symbol.rightParen, .rightBracket] →
    items close (rule reader inner .disjunction) (read ++ ⟨.symbol close, span⟩ :: rest) =
      .ok (nodes, ⟨.symbol close, span⟩ :: rest)

theorem items_of_begins {close : Symbol} {item : Rule Node} {tokens : List Token}
    (begins : Rank.disjunction.Begins tokens)
    (not_opening : close ∉ Rank.disjunction.openings) :
    items close item tokens =
      item tokens >>= fun (first, rest) => itemsFrom item rest.length [first] rest := by
  unfold items
  split
  · next found span rest =>
    have other : found ≠ close := by
      rintro rfl
      exact begins.ne_symbol not_opening span rest rfl
    rw [if_neg other]
  · rfl

theorem itemsEnd_nil : ItemsEnd reader inner [] [] := by
  intro close rest span _
  rw [List.nil_append, items, if_pos rfl]

theorem ItemsGoOn.ends {nodes : List Node} (go_on : ItemsGoOn reader inner read nodes) :
    ItemsEnd reader inner read nodes := by
  intro close rest span closing
  have not_opening : close ∉ Rank.disjunction.openings := by
    rcases List.mem_pair.mp closing with rfl | rfl <;> decide
  have not_continuation : close ∉ Rank.disjunction.continuations := by
    rcases List.mem_pair.mp closing with rfl | rfl <;> decide
  obtain ⟨count, -, continued⟩ :=
    go_on close (⟨.symbol close, span⟩ :: rest) not_opening
      (Rank.stops_of_symbol not_continuation span rest)
  rw [continued]
  cases count with
  | zero => rfl
  | succ count => rcases List.mem_pair.mp closing with rfl | rfl <;> rfl

theorem itemsEnd_of_goesOn {nodes : List Node}
    (go_on : (read = [] ∧ nodes = []) ∨ ItemsGoOn reader inner read nodes) :
    ItemsEnd reader inner read nodes := by
  rcases go_on with ⟨rfl, rfl⟩ | go_on
  · exact itemsEnd_nil
  · exact go_on.ends

/-- The first item. -/
theorem Ends.items {tree : Node} (begins : Rank.disjunction.Begins read)
    (ends : Ends reader inner .disjunction read tree) :
    ItemsGoOn reader inner read [tree] := by
  intro close rest not_opening stops
  refine ⟨rest.length, Nat.le_refl _, ?_⟩
  rw [items_of_begins begins.append not_opening, ends rest stops]
  rfl

/-- One more item. -/
theorem ItemsGoOn.more {nodes : List Node} {next : Node} {span : Text.Span}
    {second : List Token} (go_on : ItemsGoOn reader inner read nodes)
    (ends : Ends reader inner .disjunction second next) :
    ItemsGoOn reader inner (read ++ ⟨.symbol .comma, span⟩ :: second) (nodes ++ [next]) := by
  intro close rest not_opening stops
  obtain ⟨count, enough, continued⟩ :=
    go_on close (⟨.symbol .comma, span⟩ :: (second ++ rest)) not_opening
      (Rank.stops_of_symbol (by decide) span _)
  cases count with
  | zero => cases enough
  | succ count =>
    refine ⟨count, ?_, ?_⟩
    · rw [List.length_cons, List.length_append] at enough
      omega
    · rw [List.append_assoc, List.cons_append, continued, itemsFrom, ends rest stops]
      rfl

theorem ends_afterSign {rank : Rank} {op : UnaryOp} {span : Text.Span} {tree : Node}
    (ends : Ends reader inner rank read tree)
    (low : (Node.over reader.source (.unary op) [tree] (span.through tree.span)).height ≤
      reader.height) {rest : List Token} (stops : rank.Stops rest) :
    afterSign reader op span (rule reader inner rank) (read ++ rest) =
      .ok (.over reader.source (.unary op) [tree] (span.through tree.span), rest) := by
  rw [afterSign, ends rest stops]
  change (build reader (.unary op) [tree] (span.through tree.span) >>= _) = _
  rw [build_over low]
  rfl

theorem ends_negation {span : Text.Span} {tree : Node}
    (ends : Ends reader inner .negation read tree)
    (low : (Node.over reader.source (.unary .not) [tree] (span.through tree.span)).height ≤
      reader.height) :
    Ends reader (around reader inner) .negation (⟨.symbol .not, span⟩ :: read)
      (.over reader.source (.unary .not) [tree] (span.through tree.span)) := by
  intro rest stops
  exact ends_afterSign ends low stops

theorem ends_sign {span : Text.Span} {tree : Node}
    (ends : Ends reader inner .sign read tree)
    (low : (Node.over reader.source (.unary .neg) [tree] (span.through tree.span)).height ≤
      reader.height) :
    Ends reader (around reader inner) .sign (⟨.symbol .minus, span⟩ :: read)
      (.over reader.source (.unary .neg) [tree] (span.through tree.span)) := by
  intro rest stops
  exact ends_afterSign ends low stops

theorem ends_power {second : List Token} {base exponent : Node} {span : Text.Span}
    (below : Ends reader (around reader inner) .operand read base)
    (above : Ends reader inner .sign second exponent)
    (low : (Node.over reader.source (.binary .pow) [base, exponent]
      (base.span.through exponent.span)).height ≤ reader.height) :
    Ends reader (around reader inner) .power (read ++ ⟨.symbol .caret, span⟩ :: second)
      (.over reader.source (.binary .pow) [base, exponent]
        (base.span.through exponent.span)) := by
  intro rest stops
  have read_base :
      operand reader (around reader inner) (read ++ ⟨.symbol .caret, span⟩ :: (second ++ rest)) =
        .ok (base, ⟨.symbol .caret, span⟩ :: (second ++ rest)) :=
    below _ (Rank.stops_of_symbol (by decide) span _)
  have read_exponent :
      (around reader inner).signed (second ++ rest) = .ok (exponent, rest) := above rest stops
  rw [List.append_assoc, List.cons_append, rule, power, read_base]
  change ((around reader inner).signed (second ++ rest) >>= _) = _
  rw [read_exponent]
  change (build reader (.binary .pow) [base, exponent] _ >>= _) = _
  rw [build_over low]
  rfl

theorem ends_parentheses {tree : Node} {opening closing : Text.Span}
    (inside : Ends reader inner .disjunction read tree) :
    Ends reader (around reader inner) .operand
      (⟨.symbol .leftParen, opening⟩ :: read ++ [⟨.symbol .rightParen, closing⟩])
      (tree.widen (opening.through closing)) := by
  intro rest _
  have read_inside :
      (around reader inner).expression (read ++ ⟨.symbol .rightParen, closing⟩ :: rest) =
        .ok (tree, ⟨.symbol .rightParen, closing⟩ :: rest) :=
    inside _ (Rank.stops_of_symbol (by decide) closing rest)
  rw [List.append_assoc, List.cons_append, List.singleton_append, rule, operand, read_inside]
  rfl

theorem ends_list {elements : List Node} {opening closing : Text.Span}
    (inside : ItemsEnd reader inner read elements)
    (low : (Node.over reader.source .list elements (opening.through closing)).height ≤
      reader.height) :
    Ends reader (around reader inner) .operand
      (⟨.symbol .leftBracket, opening⟩ :: read ++ [⟨.symbol .rightBracket, closing⟩])
      (.over reader.source .list elements (opening.through closing)) := by
  intro rest _
  have read_elements :
      (around reader inner).arguments .rightBracket
          (read ++ ⟨.symbol .rightBracket, closing⟩ :: rest) =
        .ok (elements, ⟨.symbol .rightBracket, closing⟩ :: rest) :=
    inside .rightBracket rest closing (by decide)
  rw [List.append_assoc, List.cons_append, List.singleton_append, rule, operand, read_elements]
  change (build reader .list elements (opening.through closing) >>= _) = _
  rw [build_over low]
  rfl

theorem ends_call {name : String} {function : Function} {arguments : List Node}
    {span opening closing : Text.Span} (named : Function.lookup? name = some function)
    (admitted : function.arity.admits arguments.length = true)
    (inside : ItemsEnd reader inner read arguments)
    (low : (Node.over reader.source (.call function) arguments (span.through closing)).height ≤
      reader.height) :
    Ends reader (around reader inner) .operand
      (⟨.identifier name, span⟩ :: ⟨.symbol .leftParen, opening⟩ :: read ++
        [⟨.symbol .rightParen, closing⟩])
      (.over reader.source (.call function) arguments (span.through closing)) := by
  intro rest _
  have read_arguments :
      (around reader inner).arguments .rightParen
          (read ++ ⟨.symbol .rightParen, closing⟩ :: rest) =
        .ok (arguments, ⟨.symbol .rightParen, closing⟩ :: rest) :=
    inside .rightParen rest closing (by decide)
  have checked : function.checkArity arguments.length = .ok () := by
    rw [Function.checkArity, if_pos admitted]
  rw [List.append_assoc, List.cons_append, List.cons_append, List.singleton_append, rule]
  change call reader (around reader inner) name span _ = _
  rw [call, named]
  change ((around reader inner).arguments .rightParen _ >>= _) = _
  rw [read_arguments]
  change (function.checkArity arguments.length >>= _) = _
  rw [checked]
  change (build reader (.call function) arguments (span.through closing) >>= _) = _
  rw [build_over low]
  rfl

end Constructs

end Level

/-! ## Every phrase is read -/

mutual

/-- **The rule of a rank reads every phrase of the rank** that is within the
limits. -/
theorem Derives.goesOn {reader : Reader} :
    ∀ {rank : Rank} {tokens : List Token} {tree : Node} {nesting : Nat},
      Derives reader.source rank tokens tree nesting → ∀ levels, nesting ≤ levels →
      tree.height ≤ reader.height →
      Level.GoesOn reader (Level.rules reader levels) rank tokens tree
  | _, _, _, _, .tighter phrase => by
    intro levels within low
    exact (phrase.goesOn levels within low).ends.of_tighter phrase.begins
  | _, _, _, _, .chain joins before after => by
    intro levels within low
    have low_operands := Node.height_le_of_over low
    have first := before.goesOn levels (Nat.le_trans (Nat.le_max_left _ _) within)
      (low_operands _ (by simp))
    have second := after.goesOn levels (Nat.le_trans (Nat.le_max_right _ _) within)
      (low_operands _ (by simp))
    exact first.chain joins second.ends low
  | _, _, _, _, .negation negated => by
    intro levels within low
    cases levels with
    | zero => cases within
    | succ levels =>
      have operand := negated.goesOn levels (Nat.le_of_succ_le_succ within)
        (Node.height_le_of_over low _ (by simp))
      exact (Level.ends_negation operand.ends low).goesOn fun _ => rfl
  | _, _, _, _, .sign signed => by
    intro levels within low
    cases levels with
    | zero => cases within
    | succ levels =>
      have operand := signed.goesOn levels (Nat.le_of_succ_le_succ within)
        (Node.height_le_of_over low _ (by simp))
      exact (Level.ends_sign operand.ends low).goesOn fun _ => rfl
  | _, _, _, _, .power below above => by
    intro levels within low
    cases levels with
    | zero => cases Nat.le_trans (Nat.le_max_right _ _) within
    | succ levels =>
      have low_operands := Node.height_le_of_over low
      have base := below.goesOn (levels + 1) (Nat.le_trans (Nat.le_max_left _ _) within)
        (low_operands _ (by simp))
      have exponent := above.goesOn levels
        (Nat.le_of_succ_le_succ (Nat.le_trans (Nat.le_max_right _ _) within))
        (low_operands _ (by simp))
      exact (Level.ends_power base.ends exponent.ends low).goesOn fun _ => rfl
  | _, _, _, _, .integer => by
    intro levels within low
    exact Level.goesOn_operand fun _ _ => rfl
  | _, _, _, _, .decimal => by
    intro levels within low
    exact Level.goesOn_operand fun _ _ => rfl
  | _, _, _, _, .string => by
    intro levels within low
    exact Level.goesOn_operand fun _ _ => rfl
  | _, _, _, _, .identifier => by
    intro levels within low
    refine Level.goesOn_operand fun rest stops => ?_
    rw [List.singleton_append, Level.rule, Level.operand]
    · rfl
    · exact fun span inside => stops.ne_symbol (by decide) span inside
  | _, _, _, _, .parentheses inside => by
    intro levels within low
    cases levels with
    | zero => cases within
    | succ levels =>
      rw [Node.height_widen] at low
      have expression := inside.goesOn levels (Nat.le_of_succ_le_succ within) low
      exact (Level.ends_parentheses expression.ends).goesOn fun _ => rfl
  | _, _, _, _, .list inside => by
    intro levels within low
    cases levels with
    | zero => cases within
    | succ levels =>
      have elements := Level.itemsEnd_of_goesOn (inside.goesOn levels
        (Nat.le_of_succ_le_succ within) (Node.height_le_of_over low))
      exact (Level.ends_list elements low).goesOn fun _ => rfl
  | _, _, _, _, .call named admitted inside => by
    intro levels within low
    cases levels with
    | zero => cases within
    | succ levels =>
      have arguments := Level.itemsEnd_of_goesOn (inside.goesOn levels
        (Nat.le_of_succ_le_succ within) (Node.height_le_of_over low))
      exact (Level.ends_call named admitted arguments low).goesOn fun _ => rfl

/-- Items are read, or there are none. -/
theorem DerivesItems.goesOn {reader : Reader} :
    ∀ {tokens : List Token} {items : List Node} {nesting : Nat},
      DerivesItems reader.source tokens items nesting → ∀ levels, nesting ≤ levels →
      (∀ item ∈ items, item.height ≤ reader.height) →
      (tokens = [] ∧ items = []) ∨
        Level.ItemsGoOn reader (Level.rules reader levels) tokens items
  | _, _, _, .none => fun _ _ _ => .inl ⟨rfl, rfl⟩
  | _, _, _, .one item => by
    intro levels within low
    have only := item.goesOn levels within (low _ (by simp))
    exact .inr (only.ends.items item.begins)
  | _, _, _, .more before after => by
    intro levels within low
    have last := after.goesOn levels (Nat.le_trans (Nat.le_max_right _ _) within)
      (low _ (by simp))
    rcases before.goesOn levels (Nat.le_trans (Nat.le_max_left _ _) within)
      fun item member => low item (List.mem_append_left _ member) with none | earlier
    · cases none.2
    · exact .inr (earlier.more last.ends)

end

/-- **The formulas that are read from tokens** are those that the grammar
derives with no more nesting and height than the reader allows. -/
theorem parseTokens_eq_ok_iff {reader : Reader} (positive : 0 < reader.height)
    {tokens : List Token} {tree : Node} :
    parseTokens reader tokens = .ok tree ↔
      ∃ nesting, Derives reader.source .disjunction tokens tree nesting ∧
        nesting ≤ reader.nesting ∧ tree.height ≤ reader.height := by
  constructor
  · exact derives_of_parseTokens positive
  · rintro ⟨nesting, phrase, within, low⟩
    have read_all : (Level.rules reader (reader.nesting + 1)).expression (tokens ++ []) =
        .ok (tree, []) :=
      (phrase.goesOn reader.nesting within low).ends [] Rank.stops_nil
    rw [List.append_nil] at read_all
    rw [parseTokens, read_all]
    rfl

/-- **A token list has no more than one tree in the grammar**, whatever the limits. -/
theorem Derives.unique {source : List Char} {tokens : List Token} {first second : Node}
    {outer inner : Nat} (one : Derives source .disjunction tokens first outer)
    (other : Derives source .disjunction tokens second inner) : first = second := by
  let reader : Reader := ⟨source, max outer inner, max 1 (max first.height second.height)⟩
  have positive : 0 < reader.height := Nat.le_max_left _ _
  have read_first : parseTokens reader tokens = .ok first :=
    (parseTokens_eq_ok_iff positive).mpr ⟨outer, one, Nat.le_max_left _ _,
      Nat.le_trans (Nat.le_max_left _ _) (Nat.le_max_right _ _)⟩
  have read_second : parseTokens reader tokens = .ok second :=
    (parseTokens_eq_ok_iff positive).mpr ⟨inner, other, Nat.le_max_right _ _,
      Nat.le_trans (Nat.le_max_right _ _) (Nat.le_max_right _ _)⟩
  rw [read_first] at read_second
  exact Except.ok.inj read_second

/-- **The texts that are read as formulas are those of the grammar.** A text
that falls into tokens is read as a tree if and only if the grammar derives the
tree from all of the tokens, with no more nesting and height than the language
allows. Every other text is refused with an error, and no token list has two
trees. -/
theorem parse_accepts_grammar (source : String) (tokens : List Token)
    (lexed : tokensFrom 0 source.toList = .ok tokens) :
    (∀ tree, parse source = .ok tree ↔
      ∃ nesting, Derives source.toList .disjunction tokens tree nesting ∧
        nesting ≤ maxNesting ∧ tree.height ≤ maxHeight) ∧
    ((¬ ∃ tree nesting, Derives source.toList .disjunction tokens tree nesting ∧
        nesting ≤ maxNesting ∧ tree.height ≤ maxHeight) →
      ∃ error, parse source = .error error) ∧
    ∀ first second outer inner, Derives source.toList .disjunction tokens first outer →
      Derives source.toList .disjunction tokens second inner → first = second := by
  have positive : 0 < (Reader.standard source.toList).height := Nat.succ_pos 1023
  have read_tokens : parse source = parseTokens (.standard source.toList) tokens := by
    rw [parse, lexed]
    rfl
  have accepted : ∀ tree, parse source = .ok tree ↔
      ∃ nesting, Derives source.toList .disjunction tokens tree nesting ∧
        nesting ≤ maxNesting ∧ tree.height ≤ maxHeight := by
    intro tree
    rw [read_tokens]
    exact parseTokens_eq_ok_iff positive
  refine ⟨accepted, fun underivable => ?_, fun _ _ _ _ one other => one.unique other⟩
  cases parsed : parse source with
  | error error => exact ⟨error, rfl⟩
  | ok tree => exact absurd ⟨tree, (accepted tree).mp parsed⟩ underivable

/-- A sign before a name is a formula of one construct. -/
theorem parse_negated_name :
    tokensFrom 0 "-x".toList =
      .ok [⟨.symbol .minus, ⟨0, 1⟩⟩, ⟨.identifier "x", ⟨1, 2⟩⟩] ∧
    parse "-x" = .ok (.over "-x".toList (.unary .neg)
      [.over "-x".toList (.identifier "x") [] ⟨1, 2⟩] ⟨0, 2⟩) := by
  have lexed : tokensFrom 0 "-x".toList =
      .ok [⟨.symbol .minus, ⟨0, 1⟩⟩, ⟨.identifier "x", ⟨1, 2⟩⟩] := by
    with_unfolding_all rfl
  have name : Derives "-x".toList .sign [⟨.identifier "x", ⟨1, 2⟩⟩]
      (.over "-x".toList (.identifier "x") [] ⟨1, 2⟩) 0 :=
    .tighter (.tighter .identifier)
  have negated : Derives "-x".toList .disjunction
      [⟨.symbol .minus, ⟨0, 1⟩⟩, ⟨.identifier "x", ⟨1, 2⟩⟩] _ 1 :=
    .tighter (.tighter (.tighter (.tighter (.tighter (.tighter (.sign name))))))
  exact ⟨lexed, ((parse_accepts_grammar "-x" _ lexed).1 _).mpr
    ⟨1, negated, by decide, by decide⟩⟩

end FormulaStepper.Formula
