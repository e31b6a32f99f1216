import FormulaStepper.Proofs.Evaluation.Correspondence
import FormulaStepper.Proofs.Grammar.Subformulas
import FormulaStepper.Proofs.Grammar.Writing
import FormulaStepper.Proofs.Value.Integers
import FormulaStepper.Proofs.Value.Notation

/-!
# Values as formulas

The text of a value is a formula for the value, if the value is plain and does not
contain the least integer (`text_is_formula`). Null is written as a call, a negative
integer as a sign before a positive one. The least integer has no such positive one,
and a quote in a string would end the string, so both are left out.

The induction is on how the value is made. Its text falls into tokens in front of
anything that parts tokens (`ReadsBack`), and whatever the text around them, the tokens
are a phrase whose tree comes to the value (`Denotes`). A phrase may lie one construct
deeper than its lists, because of the call for null and of the sign.
-/

set_option autoImplicit false

namespace FormulaStepper.Formula

open Text

/-! ## Trees that come to a value -/

section Trees

variable {value : Value} {values : List Value} {trees : List Node}

/-- The tree has the value in every environment, wherever it stands in a formula. -/
def Node.ComesTo (tree : Node) (value : Value) : Prop :=
  ∀ environment path, (tree.account environment path).outcome = .ok value

theorem Node.ComesTo.evaluate {tree : Node} (comes : tree.ComesTo value)
    (well_formed : tree.WellFormed) (environment : Environment) :
    tree.evaluate environment = .ok value := by
  rw [Node.evaluate_eq_transcript, Evaluation.transcript_ready environment well_formed]
  exact comes environment []

theorem outcome_operands (come : List.Forall₂ Node.ComesTo trees values)
    (environment : Environment) (path : List Nat) (position : Nat) :
    (Node.operands environment path position trees).outcome = .ok values := by
  induction come generalizing position with
  | nil => rfl
  | @cons tree value trees values first _ ih =>
    have own := first environment (path ++ [position])
    have others := ih (position + 1)
    simp only [Node.operands, bind, Account.andThen, own, others]
    rfl

theorem comesTo_of_isStrict {kind : NodeKind} {source : List Char} {span : Span}
    (strict : kind.isStrict = true) (come : List.Forall₂ Node.ComesTo trees values)
    (combined : kind.combine values = .ok value) :
    (Node.over source kind trees span).ComesTo value := by
  intro environment path
  have operands := outcome_operands come environment path 0
  rw [Node.over, Node.account_of_isStrict environment strict]
  simp only [Account.visit, Account.shows, Account.ofExcept, bind, Account.andThen, operands,
    combined]
  rfl

end Trees

/-! ## Phrases for values -/

section Phrases

variable {depth : Nat} {value item : Value} {items : List Value} {n : Int64}
  {tokens first second : List Token} {span opening closing : Span}

/-- The tokens are a phrase for the value, with constructs at most one deeper in one
another than so many lists. -/
def Denotes (depth : Nat) (tokens : List Token) (value : Value) : Prop :=
  ∀ source, ∃ tree nesting, Derives source .sign tokens tree nesting ∧
    nesting ≤ depth + 1 ∧ tree.height ≤ depth + 2 ∧ tree.ComesTo value

/-- The tokens are items for the values, in the same sense. -/
def DenotesItems (depth : Nat) (tokens : List Token) (values : List Value) : Prop :=
  ∀ source, ∃ trees nesting, DerivesItems source tokens trees nesting ∧
    nesting ≤ depth + 1 ∧ Node.heightOfList trees ≤ depth + 2 ∧
    List.Forall₂ Node.ComesTo trees values

theorem denotes_null :
    Denotes depth
      [⟨.identifier "null", span⟩, ⟨.symbol .leftParen, opening⟩, ⟨.symbol .rightParen, closing⟩]
      .null := by
  intro source
  have named : Function.lookup? "null" = some .null := rfl
  have call : Derives source .operand
      (⟨.identifier "null", span⟩ :: ⟨.symbol .leftParen, opening⟩ :: [] ++
        [⟨.symbol .rightParen, closing⟩])
      (.over source (.call .null) [] (span.through closing)) (0 + 1) :=
    .call named rfl .none
  exact ⟨_, _, .tighter (.tighter call), Nat.le_add_left 1 depth, Nat.le_add_left 1 (depth + 1),
    comesTo_of_isStrict rfl .nil rfl⟩

theorem denotes_integer : Denotes depth [⟨.integer n, span⟩] (.int n) :=
  fun _ => ⟨_, 0, .tighter (.tighter .integer), Nat.zero_le _, Nat.le_add_left 1 (depth + 1),
    fun _ _ => rfl⟩

theorem denotes_string {text : String} : Denotes depth [⟨.string text, span⟩] (.string text) :=
  fun _ => ⟨_, 0, .tighter (.tighter .string), Nat.zero_le _, Nat.le_add_left 1 (depth + 1),
    fun _ _ => rfl⟩

/-- A negative integer is the opposite of one that has a token. -/
theorem denotes_negative {m : Int64} (opposite : m.toInt = -n.toInt) :
    Denotes depth [⟨.symbol .minus, opening⟩, ⟨.integer m, span⟩] (.int n) := by
  intro source
  have negated : UnaryOp.neg.apply (.int m) = .ok (.int n) := by
    have back : -m.toInt = n.toInt := by rw [opposite, Int.neg_neg]
    have fits : Value.fits n.toInt = true := Value.fits_iff.mpr ⟨n, rfl⟩
    change Value.exact "-" (-m.toInt) = _
    rw [back, Value.exact, if_pos fits, Int64.ofInt_toInt]
  have operand : Derives source .sign [⟨.integer m, span⟩] (.over source (.integer m) [] span) 0 :=
    .tighter (.tighter .integer)
  have comes : Node.ComesTo (.over source (.integer m) [] span) (.int m) := fun _ _ => rfl
  exact ⟨_, _, .sign operand, Nat.le_add_left 1 depth, Nat.le_add_left 2 depth,
    comesTo_of_isStrict rfl (.cons comes .nil) negated⟩

theorem denotesItems_one (denotes : Denotes depth tokens value) :
    DenotesItems depth tokens [value] := by
  intro source
  obtain ⟨tree, nesting, phrase, few, low, comes⟩ := denotes source
  exact ⟨[tree], nesting, .one phrase.loosen, few, Nat.max_le.mpr ⟨low, Nat.zero_le _⟩,
    .cons comes .nil⟩

theorem Node.heightOfList_append (trees others : List Node) :
    heightOfList (trees ++ others) = max (heightOfList trees) (heightOfList others) := by
  induction trees with
  | nil => exact (Nat.zero_max _).symm
  | cons tree trees ih =>
    rw [List.cons_append, heightOfList, heightOfList, ih, Nat.max_assoc]

theorem DenotesItems.more (before : DenotesItems depth first (value :: items))
    (after : Denotes depth second item) :
    DenotesItems depth (first ++ ⟨.symbol .comma, span⟩ :: second) (value :: items ++ [item]) := by
  intro source
  obtain ⟨trees, outer, earlier, few, low, come⟩ := before source
  obtain ⟨tree, inner, phrase, fewer, lower, comes⟩ := after source
  cases come with
  | @cons own _ trees _ own_comes others_come =>
    refine ⟨_, _, .more earlier phrase.loosen, Nat.max_le.mpr ⟨few, fewer⟩, ?_, ?_⟩
    · rw [Node.heightOfList_append]
      exact Nat.max_le.mpr ⟨low, Nat.max_le.mpr ⟨lower, Nat.zero_le _⟩⟩
    · exact List.rel_append (.cons own_comes others_come) (.cons comes .nil)

theorem DenotesItems.list (inside : DenotesItems depth tokens items) :
    Denotes (depth + 1)
      (⟨.symbol .leftBracket, opening⟩ :: tokens ++ [⟨.symbol .rightBracket, closing⟩])
      (.list items) := by
  intro source
  obtain ⟨trees, nesting, phrase, few, low, come⟩ := inside source
  refine ⟨_, _, .tighter (.tighter (.list phrase)), Nat.succ_le_succ few, ?_,
    comesTo_of_isStrict rfl come rfl⟩
  rw [Node.height_eq, Nat.add_comm]
  exact Nat.succ_le_succ low

end Phrases

/-! ## Texts that fall into tokens -/

section Falling

variable {offset : Nat} {text first second rest : List Char} {tokens others : List Token}

/-- The text falls into the tokens when the rest stands behind it. -/
def Falls (offset : Nat) (text rest : List Char) (tokens : List Token) : Prop :=
  ∀ later, Lexes (offset + Utf8.size text) rest later →
    Lexes offset (text ++ rest) (tokens ++ later)

theorem Scans.falls {kind : TokenKind} (scans : Scans kind text rest) :
    Falls offset text rest [⟨kind, ⟨offset, offset + Utf8.size text⟩⟩] :=
  fun _ later => scans.lexes later

theorem falls_blank : Falls offset [' '] rest [] :=
  fun _ later => .blank (by decide) later

theorem falls_mark (symbol : Symbol) (single : symbol ∉ [.and, .or, .not, .less, .greater]) :
    Falls offset symbol.spelling rest
      [⟨.symbol symbol, ⟨offset, offset + Utf8.size symbol.spelling⟩⟩] :=
  (scans_mark single rest).falls

theorem Falls.append (front : Falls offset first (second ++ rest) tokens)
    (back : Falls (offset + Utf8.size first) second rest others) :
    Falls offset (first ++ second) rest (tokens ++ others) := by
  intro later lexes
  rw [Utf8.size_append, ← Nat.add_assoc] at lexes
  rw [List.append_assoc, List.append_assoc]
  exact front _ (back _ lexes)

end Falling

/-! ## The texts of values -/

section Reading

variable {depth : Nat} {value : Value} {n : Int64}

/-- In front of anything that parts tokens, the text of the value falls into tokens for
the value. -/
def ReadsBack (depth : Nat) (value : Value) : Prop :=
  ∀ offset rest, Separates rest →
    ∃ tokens, Denotes depth tokens value ∧ Falls offset value.debugText.toList rest tokens

theorem readsBack_null : ReadsBack depth .null := by
  intro offset rest _
  have writable : (TokenKind.identifier "null").Writable :=
    ⟨⟨'n', "ull".toList, rfl, by decide, List.all_eq_true.mp (by decide)⟩, by decide⟩
  have word := writable.scans.of_separates
    (separates_cons ⟨by decide, by decide⟩ : Separates ('(' :: ([')'] ++ rest)))
  have falls := (word.falls : Falls offset _ _ _).append
    ((falls_mark .leftParen (by decide)).append (falls_mark .rightParen (by decide)))
  have text : Value.null.debugText.toList =
      (TokenKind.identifier "null").write ++ (['('] ++ [')']) := by decide
  rw [text]
  exact ⟨_, denotes_null, falls⟩

theorem readsBack_nonneg (nonneg : 0 ≤ n.toInt) : ReadsBack depth (.int n) := by
  intro offset rest separates
  have writable : (TokenKind.integer n).Writable := nonneg
  exact ⟨_, denotes_integer, (writable.scans.of_separates separates).falls⟩

theorem readsBack_negative (negative : n.toInt < 0) (not_least : n ≠ Int64.minValue) :
    ReadsBack depth (.int n) := by
  intro offset rest separates
  have opposite : (-n).toInt = -n.toInt := by
    have least : n.toInt ≠ -2 ^ 63 := mt (fun same => Int64.toInt_inj.mp same) not_least
    have bound := n.le_toInt
    rw [Int64.toInt_neg]
    exact Int.bmod_eq_of_le (by omega) (by omega)
  have writable : (TokenKind.integer (-n)).Writable := by
    change 0 ≤ (-n).toInt
    omega
  have text : (Value.int n).debugText.toList = ['-'] ++ (TokenKind.integer (-n)).write := by
    change (toString n.toInt).toList = ['-'] ++ (toString (-n).toInt).toList
    rw [toList_toString_int, if_pos negative, toList_toString_int, if_neg (by omega), opposite,
      Int.natAbs_neg, List.nil_append]
  rw [text]
  exact ⟨_, denotes_negative opposite,
    (falls_mark .minus (by decide)).append (writable.scans.of_separates separates).falls⟩

theorem readsBack_string {text : String} (no_quote : quote ∉ text.toList) :
    ReadsBack depth (.string text) := by
  intro offset rest separates
  have writable : (TokenKind.string text).Writable := trivial
  have scans := writable.scans.of_separates separates
  rw [TokenKind.write, doubled_eq_self no_quote, ← Value.toList_debugText_string] at scans
  exact ⟨_, denotes_string, scans.falls⟩

theorem separates_closing (items : List Value) (rest : List Char) :
    Separates (Value.closing items ++ rest) := by
  intro c first
  rcases Value.eq_of_head_closing first with rfl | rfl <;> exact ⟨by decide, by decide⟩

/-- Behind the tokens of the first items, the text of the other ones falls into tokens
that carry the items on. -/
theorem exists_falls_closing {items before : List Value} {first : List Token}
    (read_back : ∀ item ∈ items, ReadsBack depth item)
    (earlier : DenotesItems depth first (value :: before)) (offset : Nat) (rest : List Char) :
    ∃ tokens closing, DenotesItems depth (first ++ tokens) (value :: before ++ items) ∧
      Falls offset (Value.closing items) rest (tokens ++ [⟨.symbol .rightBracket, closing⟩]) := by
  induction items generalizing before first offset with
  | nil =>
    refine ⟨[], _, ?_, falls_mark .rightBracket (by decide)⟩
    rwa [List.append_nil, List.append_nil]
  | cons item items ih =>
    obtain ⟨own, read_back⟩ := List.forall_mem_cons.mp read_back
    obtain ⟨tokens, denotes, falls⟩ := own (offset + 1 + 1) _ (separates_closing items rest)
    have carried : DenotesItems depth
        (first ++ ⟨.symbol .comma, ⟨offset, offset + 1⟩⟩ :: tokens) (value :: (before ++ [item])) :=
      earlier.more denotes
    obtain ⟨others, closing, items_denote, others_fall⟩ :=
      ih read_back carried (offset + 1 + 1 + Utf8.size item.debugText.toList)
    have fall := (falls_mark .comma (by decide) : Falls offset _ _ _).append
      (falls_blank.append (falls.append others_fall))
    have in_order : value :: (before ++ [item]) ++ items = value :: before ++ item :: items := by
      simp only [List.cons_append, List.append_assoc, List.nil_append]
    rw [List.append_assoc, in_order] at items_denote
    rw [Value.closing_cons]
    refine ⟨_, closing, items_denote, ?_⟩
    rw [List.append_assoc]
    exact fall

theorem readsBack_list {items : List Value} (read_back : ∀ item ∈ items, ReadsBack depth item) :
    ReadsBack (depth + 1) (.list items) := by
  intro offset rest separates
  cases items with
  | nil =>
    have falls : Falls offset (['['] ++ [']']) rest _ :=
      (falls_mark .leftBracket (by decide)).append (falls_mark .rightBracket (by decide))
    have none : DenotesItems depth [] [] :=
      fun _ => ⟨_, _, .none, Nat.zero_le _, Nat.zero_le _, .nil⟩
    rw [Value.toList_debugText_nil]
    exact ⟨_, none.list, falls⟩
  | cons item items =>
    obtain ⟨own, read_back⟩ := List.forall_mem_cons.mp read_back
    obtain ⟨tokens, denotes, falls⟩ := own (offset + 1) _ (separates_closing items rest)
    obtain ⟨others, closing, items_denote, others_fall⟩ :=
      exists_falls_closing read_back (denotesItems_one denotes)
        (offset + 1 + Utf8.size item.debugText.toList) rest
    have fall := (falls_mark .leftBracket (by decide) : Falls offset _ _ _).append
      (falls.append others_fall)
    rw [← List.append_assoc tokens] at fall
    rw [Value.toList_debugText_cons]
    exact ⟨_, items_denote.list, fall⟩

/-- **The text of a value falls into tokens for the value.** -/
theorem readsBack_of_plain (plain : Value.Plain (· ≠ Int64.minValue) depth value) :
    ReadsBack depth value := by
  induction plain with
  | null => exact readsBack_null
  | @int _ n not_least =>
    rcases Int.lt_or_le n.toInt 0 with negative | nonneg
    · exact readsBack_negative negative not_least
    · exact readsBack_nonneg nonneg
  | string no_quote => exact readsBack_string no_quote
  | list _ ih => exact readsBack_list ih

end Reading

/-! ## The notation -/

/-- **The text of a value is a formula for it.** The text of a plain value without the
least integer in it, with lists that lie in one another less deep than constructs may,
is read as a formula, and in every environment the formula has that value. Among all
plain values, with the least integer or without it, no two have the same text. -/
theorem text_is_formula :
    (∀ depth value, Value.Plain (· ≠ Int64.minValue) depth value → depth < maxNesting →
      ∃ tree, parse value.debugText = .ok tree ∧
        ∀ environment, tree.evaluate environment = .ok value) ∧
    ∀ depth value other_depth other, Value.Plain (fun _ => True) depth value →
      Value.Plain (fun _ => True) other_depth other → value.debugText = other.debugText →
      value = other := by
  constructor
  · intro depth value plain shallow
    obtain ⟨tokens, denotes, falls⟩ := readsBack_of_plain plain 0 [] separates_nil
    obtain ⟨tree, nesting, phrase, few, low, comes⟩ := denotes value.debugText.toList
    have lexes := falls [] .none
    rw [List.append_nil, List.append_nil] at lexes
    have limits : maxNesting + 1 ≤ maxHeight := by decide
    exact ⟨tree, parse_eq_ok_iff.mpr ⟨tokens, nesting, lexes, phrase.loosen, by omega, by omega⟩,
      comes.evaluate phrase.wellFormed⟩
  · intro depth value other_depth other plain also_plain same
    have texts : value.debugText.toList ++ [] = other.debugText.toList ++ [] := by rw [same]
    exact (plain.distinct also_plain (noneNext_nil _) (noneNext_nil _) texts).1

/-- A list of null, a negative integer, a string with a comma and an empty list. -/
def mixedList : Value :=
  .list [.null, .int (-7), .string "a, b", .list []]

theorem plain_mixedList : Value.Plain (· ≠ Int64.minValue) 2 mixedList := by
  refine .list ?_
  simp only [List.forall_mem_cons]
  exact ⟨.null, .int (by decide), .string (by decide), .list (List.forall_mem_nil _),
    List.forall_mem_nil _⟩

/-- The list is read back from its text, and the least integer does not have the text of
a string. -/
theorem text_of_mixedList :
    (∃ tree, parse "[null(), -7, 'a, b', []]" = .ok tree ∧
        ∀ environment, tree.evaluate environment = .ok mixedList) ∧
      (Value.int Int64.minValue).debugText ≠ (Value.string "-9223372036854775808").debugText := by
  have text : mixedList.debugText = "[null(), -7, 'a, b', []]" := by decide
  refine ⟨text ▸ text_is_formula.1 2 mixedList plain_mixedList (by decide), fun same => ?_⟩
  cases text_is_formula.2 0 _ 0 _ (.int trivial) (.string (by decide)) same

/-- A quote is not marked in the text of a string, and the least integer has no
formula. -/
theorem text_is_no_formula :
    parse (Value.string "it's").debugText = .error (.unterminatedString 5) ∧
      parse (Value.int Int64.minValue).debugText =
        .error (.invalidNumber "9223372036854775808") ∧
      (Value.list [.string "a', 'b"]).debugText =
        (Value.list [.string "a", .string "b"]).debugText ∧
      Value.list [.string "a', 'b"] ≠ .list [.string "a", .string "b"] :=
  ⟨by cbv, by cbv, by decide, by simp⟩

end FormulaStepper.Formula
