import FormulaStepper.Proofs.Evaluation.Shape
import FormulaStepper.Proofs.Grammar.Acceptance
import FormulaStepper.Proofs.Grammar.Lexing

/-!
# Subformulas

The text that a node keeps is a formula by itself, with the subtree at the node
as its tree (`text_is_self_contained`). The argument goes over the tokens. Each
node has a phrase of its own among the tokens of the formula
(`Derives.hasPhrase_at`), and the parentheses around the phrase can be left out
(`Derives.exists_core`). What is left begins with a token and ends with one, so
it covers a piece of the text that falls into just these tokens. A phrase is
also one of the piece, where the same tokens stand at other places
(`Derives.relocate`, `Derives.exists_copy`).
-/

set_option autoImplicit false

namespace FormulaStepper.Formula

open Text

/-! ## Trees at other places -/

namespace Node

mutual

/-- The same tree at other places. -/
def relocate (place : Nat → Nat) : Node → Node
  | .mk kind children text span =>
    .mk kind (relocateAll place children) text (span.relocate place)

/-- The same trees at other places. -/
def relocateAll (place : Nat → Nat) : List Node → List Node
  | [] => []
  | node :: nodes => relocate place node :: relocateAll place nodes

end

variable (place : Nat → Nat)

theorem relocateAll_eq_map (nodes : List Node) :
    relocateAll place nodes = nodes.map (relocate place) := by
  induction nodes with
  | nil => rfl
  | cons node nodes ih => rw [relocateAll, ih, List.map_cons]

@[simp] theorem span_relocate (node : Node) :
    (node.relocate place).span = node.span.relocate place := by
  cases node; rfl

@[simp] theorem children_relocate (node : Node) :
    (node.relocate place).children = node.children.map (relocate place) := by
  obtain ⟨kind, children, text, span⟩ := node
  exact relocateAll_eq_map place children

theorem through_relocate (span : Span) (node : Node) :
    (span.through node.span).relocate place =
      (span.relocate place).through (node.relocate place).span := by
  rw [span_relocate]; rfl

theorem span_through_relocate (left right : Node) :
    (left.span.through right.span).relocate place =
      (left.relocate place).span.through (right.relocate place).span := by
  rw [through_relocate, span_relocate place left]

mutual

theorem height_relocate : ∀ node : Node, (node.relocate place).height = node.height
  | .mk _ children _ _ => congrArg (1 + ·) (heightOfList_relocate children)

theorem heightOfList_relocate :
    ∀ nodes : List Node, heightOfList (relocateAll place nodes) = heightOfList nodes
  | [] => rfl
  | node :: nodes => congrArg₂ max (height_relocate node) (heightOfList_relocate nodes)

end

mutual

theorem bare_relocate : ∀ node : Node, (node.relocate place).bare = node.bare
  | .mk kind children _ _ => congrArg (Node.mk kind · _ _) (bareOfList_relocate children)

theorem bareOfList_relocate :
    ∀ nodes : List Node, bareOfList (relocateAll place nodes) = bareOfList nodes
  | [] => rfl
  | node :: nodes => congrArg₂ List.cons (bare_relocate node) (bareOfList_relocate nodes)

end

/-- What a node shows: its kind, its label, its text and its height. -/
def face (node : Node) : NodeKind × String × String × Nat :=
  (node.kind, node.name, node.text, node.height)

theorem face_relocate (node : Node) : (node.relocate place).face = node.face := by
  rw [face, height_relocate]
  cases node; rfl

theorem face_widen (span : Span) (node : Node) : (node.widen span).face = node.face := by
  cases node; rfl

theorem at?_relocate (node : Node) (path : List Nat) :
    (node.relocate place).at? path = (node.at? path).map (relocate place) := by
  induction path generalizing node with
  | nil => rfl
  | cons position path ih =>
    rw [at?, at?, children_relocate, List.getElem?_map, Option.bind_map, Option.map_bind]
    exact congrArg _ (funext ih)

/-- Trees at other places show the same nodes at the same paths. -/
theorem map_face_at?_relocate (node : Node) (path : List Nat) :
    ((node.relocate place).at? path).map face = (node.at? path).map face := by
  rw [at?_relocate, Option.map_map]
  exact congrArg (Option.map · _) (funext (face_relocate place))

theorem map_face_at?_widen (span : Span) (node : Node) (path : List Nat) :
    ((node.widen span).at? path).map face = (node.at? path).map face := by
  cases path with
  | nil => exact congrArg some (face_widen span node)
  | cons position path => rw [at?, at?, children_widen]

theorem widen_widen (first second : Span) (node : Node) :
    (node.widen first).widen second = node.widen second := by
  cases node; rfl

theorem relocate_widen (span : Span) (node : Node) :
    (node.widen span).relocate place = (node.relocate place).widen (span.relocate place) := by
  cases node; rfl

theorem relocate_over {source target : List Char} {kind : NodeKind} {children : List Node}
    {span : Span} (same : slice target (span.relocate place) = slice source span) :
    (Node.over source kind children span).relocate place =
      Node.over target kind (children.map (relocate place)) (span.relocate place) := by
  rw [Node.over, relocate, relocateAll_eq_map, Node.over, same]

end Node

/-! ## The same phrase in another text -/

section Relocation

variable {source target : List Char} {place : Nat → Nat}

/-- From one token to another of a list, one text has the slices that another
text has at other places. -/
def SlicesAgree (source target : List Char) (place : Nat → Nat) (tokens : List Token) : Prop :=
  ∀ first ∈ tokens, ∀ last ∈ tokens,
    slice target ((first.span.through last.span).relocate place) =
      slice source (first.span.through last.span)

theorem SlicesAgree.mono {tokens others : List Token}
    (agree : SlicesAgree source target place tokens) (among : others ⊆ tokens) :
    SlicesAgree source target place others :=
  fun first begins last ends => agree first (among begins) last (among ends)

/-- The text over a phrase is the same at other places. -/
theorem SlicesAgree.slice_eq {tokens : List Token} {first last : Token} {span : Span}
    (agree : SlicesAgree source target place tokens) (begins : tokens.head? = some first)
    (ends : tokens.getLast? = some last) (same : span = first.span.through last.span) :
    slice target (span.relocate place) = slice source span := by
  rw [same]
  exact agree first (List.mem_of_head? begins) last (List.mem_of_getLast? ends)

/-- A node over all of its tokens is the same node over the same text at other
places. -/
theorem Derives.relocate_over {rank : Rank} {tokens : List Token} {kind : NodeKind}
    {children : List Node} {span : Span} {nesting : Nat}
    (phrase : Derives source rank tokens (.over source kind children span) nesting)
    (agree : SlicesAgree source target place tokens) :
    (Node.over source kind children span).relocate place =
      .over target kind (children.map (Node.relocate place)) (span.relocate place) := by
  obtain ⟨first, last, begins, ends, same⟩ := phrase.span_tree
  exact Node.relocate_over place (agree.slice_eq begins ends same)

mutual

/-- **A phrase is one at other places of another text**, if that has the same
slices there. -/
theorem Derives.relocate :
    ∀ {rank : Rank} {tokens : List Token} {tree : Node} {nesting : Nat},
      Derives source rank tokens tree nesting → SlicesAgree source target place tokens →
      Derives target rank (tokens.map (Token.relocate place)) (tree.relocate place) nesting
  | _, _, _, _, .tighter phrase => fun agree => .tighter (phrase.relocate agree)
  | _, _, _, _, .chain joins before after => by
    intro agree
    have left := before.relocate (agree.mono (by simp))
    have right := after.relocate (agree.mono (by simp))
    rw [(Derives.chain joins before after).relocate_over agree, List.map_append,
      Node.span_through_relocate]
    exact .chain joins left right
  | _, _, _, _, .negation negated => by
    intro agree
    have operand := negated.relocate (agree.mono (by simp))
    rw [(Derives.negation negated).relocate_over agree, Node.through_relocate]
    exact .negation operand
  | _, _, _, _, .sign signed => by
    intro agree
    have operand := signed.relocate (agree.mono (by simp))
    rw [(Derives.sign signed).relocate_over agree, Node.through_relocate]
    exact .sign operand
  | _, _, _, _, .power below above => by
    intro agree
    have base := below.relocate (agree.mono (by simp))
    have exponent := above.relocate (agree.mono (by simp))
    rw [(Derives.power below above).relocate_over agree, List.map_append,
      Node.span_through_relocate]
    exact .power base exponent
  | _, _, _, _, .integer => fun agree => Derives.integer.relocate_over agree ▸ .integer
  | _, _, _, _, .decimal => fun agree => Derives.decimal.relocate_over agree ▸ .decimal
  | _, _, _, _, .string => fun agree => Derives.string.relocate_over agree ▸ .string
  | _, _, _, _, .identifier => fun agree => Derives.identifier.relocate_over agree ▸ .identifier
  | _, _, _, _, .parentheses inside => by
    intro agree
    have expression := inside.relocate (agree.mono (by simp))
    rw [Node.relocate_widen, List.map_append]
    exact .parentheses expression
  | _, _, _, _, .list inside => by
    intro agree
    have elements := inside.relocate (agree.mono (by simp))
    rw [(Derives.list inside).relocate_over agree, List.map_append]
    exact .list elements
  | _, _, _, _, .call named admitted inside => by
    intro agree
    have arguments := inside.relocate (agree.mono fun _ member => by simp [member])
    rw [(Derives.call named admitted inside).relocate_over agree, List.map_append]
    exact .call named (by rwa [List.length_map]) arguments

theorem DerivesItems.relocate :
    ∀ {tokens : List Token} {items : List Node} {nesting : Nat},
      DerivesItems source tokens items nesting → SlicesAgree source target place tokens →
      DerivesItems target (tokens.map (Token.relocate place)) (items.map (Node.relocate place))
        nesting
  | _, _, _, .none => fun _ => .none
  | _, _, _, .one item => fun agree => .one (item.relocate agree)
  | _, _, _, .more before after => by
    intro agree
    have earlier := before.relocate (agree.mono (by simp))
    have last := after.relocate (agree.mono (by simp))
    rw [List.map_append, List.map_append]
    exact .more earlier last

end

end Relocation

/-! ## The phrases of the nodes -/

section Nodes

variable {source : List Char}

/-- A phrase is also one of the loosest rank. -/
theorem Derives.loosen {tokens : List Token} {tree : Node} {nesting : Nat} :
    ∀ {rank : Rank}, Derives source rank tokens tree nesting →
      Derives source .disjunction tokens tree nesting
  | .disjunction, phrase => phrase
  | .conjunction, phrase => .tighter phrase
  | .negation, phrase => .tighter (.tighter phrase)
  | .comparison, phrase => .tighter (.tighter (.tighter phrase))
  | .sum, phrase => .tighter (.tighter (.tighter (.tighter phrase)))
  | .product, phrase => .tighter (.tighter (.tighter (.tighter (.tighter phrase))))
  | .sign, phrase => .tighter (.tighter (.tighter (.tighter (.tighter (.tighter phrase)))))
  | .power, phrase =>
    .tighter (.tighter (.tighter (.tighter (.tighter (.tighter (.tighter phrase))))))
  | .operand, phrase =>
    .tighter (.tighter (.tighter (.tighter (.tighter (.tighter (.tighter (.tighter phrase)))))))

/-- A tree has a phrase of its own among tokens. -/
def HasPhrase (source : List Char) (tokens : List Token) (nesting : Nat) (tree : Node) : Prop :=
  ∃ segment depth, segment <:+: tokens ∧ Derives source .disjunction segment tree depth ∧
    depth ≤ nesting

theorem HasPhrase.mono {tokens others : List Token} {nesting depth : Nat} {tree : Node}
    (has_phrase : HasPhrase source tokens nesting tree) (among : tokens <:+: others)
    (less : nesting ≤ depth) : HasPhrase source others depth tree := by
  obtain ⟨segment, own, inside, phrase, few⟩ := has_phrase
  exact ⟨segment, own, inside.trans among, phrase, Nat.le_trans few less⟩

theorem Derives.hasPhrase {rank : Rank} {tokens : List Token} {tree : Node} {nesting : Nat}
    (phrase : Derives source rank tokens tree nesting) : HasPhrase source tokens nesting tree :=
  ⟨tokens, nesting, List.infix_refl tokens, phrase.loosen, Nat.le_refl nesting⟩

theorem isInfix_append_cons (first second : List Token) (token : Token) :
    second <:+: first ++ token :: second :=
  (List.suffix_append_of_suffix (List.suffix_cons token second)).isInfix

theorem DerivesItems.hasPhrase :
    ∀ {tokens : List Token} {items : List Node} {nesting : Nat},
      DerivesItems source tokens items nesting →
      ∀ item ∈ items, HasPhrase source tokens nesting item
  | _, _, _, .none => fun _ member => by cases member
  | _, _, _, .one item => by
    have only := item.hasPhrase
    exact fun child member => List.mem_singleton.mp member ▸ only
  | _, _, _, .more before after => by
    have earlier := before.hasPhrase
    have last := after.hasPhrase
    intro child member
    rcases List.mem_append.mp member with among | among
    · exact (earlier child among).mono (List.prefix_append _ _).isInfix (Nat.le_max_left _ _)
    · rw [List.mem_singleton.mp among]
      exact last.mono (isInfix_append_cons _ _ _) (Nat.le_max_right _ _)

/-- The children of a tree have phrases of their own. -/
theorem Derives.hasPhrase_child :
    ∀ {rank : Rank} {tokens : List Token} {tree : Node} {nesting : Nat},
      Derives source rank tokens tree nesting →
      ∀ child ∈ tree.children, HasPhrase source tokens nesting child
  | _, _, _, _, .tighter phrase => phrase.hasPhrase_child
  | _, _, _, _, .chain joins before after => by
    intro child member
    rcases List.mem_pair.mp member with rfl | rfl
    · exact before.hasPhrase.mono (List.prefix_append _ _).isInfix (Nat.le_max_left _ _)
    · exact after.hasPhrase.mono (isInfix_append_cons _ _ _) (Nat.le_max_right _ _)
  | _, _, _, _, .negation negated => by
    intro child member
    rw [List.mem_singleton.mp member]
    exact negated.hasPhrase.mono (List.suffix_cons _ _).isInfix (Nat.le_succ _)
  | _, _, _, _, .sign signed => by
    intro child member
    rw [List.mem_singleton.mp member]
    exact signed.hasPhrase.mono (List.suffix_cons _ _).isInfix (Nat.le_succ _)
  | _, _, _, _, .power below above => by
    intro child member
    rcases List.mem_pair.mp member with rfl | rfl
    · exact below.hasPhrase.mono (List.prefix_append _ _).isInfix (Nat.le_max_left _ _)
    · exact above.hasPhrase.mono (isInfix_append_cons _ _ _)
        (Nat.le_trans (Nat.le_succ _) (Nat.le_max_right _ _))
  | _, _, _, _, .integer => fun _ member => by cases member
  | _, _, _, _, .decimal => fun _ member => by cases member
  | _, _, _, _, .string => fun _ member => by cases member
  | _, _, _, _, .identifier => fun _ member => by cases member
  | _, _, _, _, .parentheses inside => by
    intro child member
    rw [Node.children_widen] at member
    exact (inside.hasPhrase_child child member).mono ⟨[_], [_], rfl⟩ (Nat.le_succ _)
  | _, _, _, _, .list inside => fun child member =>
    (inside.hasPhrase child member).mono ⟨[_], [_], rfl⟩ (Nat.le_succ _)
  | _, _, _, _, .call _ _ inside => fun child member =>
    (inside.hasPhrase child member).mono ⟨[_, _], [_], rfl⟩ (Nat.le_succ _)

/-- Every node of a formula has a phrase of its own. -/
theorem Derives.hasPhrase_at {rank : Rank} {tokens : List Token} {tree node : Node} {nesting : Nat}
    (phrase : Derives source rank tokens tree nesting) {path : List Nat}
    (found : tree.at? path = some node) :
    HasPhrase source tokens nesting node ∧ node.height ≤ tree.height := by
  induction path generalizing rank tokens tree nesting with
  | nil =>
    cases found
    exact ⟨phrase.hasPhrase, Nat.le_refl _⟩
  | cons position path ih =>
    obtain ⟨child, known, below⟩ := Option.bind_eq_some_iff.mp found
    have member : child ∈ tree.children := List.mem_of_getElem? known
    obtain ⟨segment, depth, inside, own, few⟩ := phrase.hasPhrase_child child member
    obtain ⟨has_phrase, low⟩ := ih own below
    exact ⟨has_phrase.mono inside few, Nat.le_trans low (Nat.le_of_lt (Node.height_lt_of_mem member))⟩

/-- The phrase of a tree without the parentheses around it. -/
structure Core (source : List Char) (tokens : List Token) (tree : Node) (nesting : Nat)
    (opening segment closing : List Token) (span : Span) : Prop where
  split : tokens = opening ++ segment ++ closing
  opens : ∀ token ∈ opening, token.kind = .symbol .leftParen
  closes : ∀ token ∈ closing, token.kind = .symbol .rightParen
  text : tree.text = String.ofList (slice source span)
  phrase : ∃ depth ≤ nesting, Derives source .disjunction segment (tree.widen span) depth

theorem Derives.core_over {rank : Rank} {tokens : List Token} {kind : NodeKind}
    {children : List Node} {span : Span} {nesting : Nat}
    (phrase : Derives source rank tokens (.over source kind children span) nesting) :
    ∃ opening segment closing span', Core source tokens (.over source kind children span) nesting
      opening segment closing span' :=
  ⟨[], tokens, [], span, (List.append_nil _).symm, fun _ member => (by cases member),
    fun _ member => (by cases member), rfl, nesting, Nat.le_refl _, phrase.loosen⟩

/-- Parentheses around a phrase are further ones around its core. -/
theorem Core.parentheses {tokens opening segment closing : List Token} {tree : Node}
    {nesting : Nat} {span : Span} (core : Core source tokens tree nesting opening segment closing span)
    (left right : Span) :
    Core source (⟨.symbol .leftParen, left⟩ :: tokens ++ [⟨.symbol .rightParen, right⟩])
      (tree.widen (left.through right)) (nesting + 1) (⟨.symbol .leftParen, left⟩ :: opening) segment
      (closing ++ [⟨.symbol .rightParen, right⟩]) span := by
  obtain ⟨depth, few, phrase⟩ := core.phrase
  refine ⟨?_, List.forall_mem_cons.mpr ⟨rfl, core.opens⟩, ?_, ?_, depth, Nat.le_succ_of_le few, ?_⟩
  · rw [core.split]
    simp only [List.cons_append, List.append_assoc]
  · exact List.forall_mem_append.mpr ⟨core.closes, List.forall_mem_singleton.mpr rfl⟩
  · rw [Node.text_widen, core.text]
  · rwa [Node.widen_widen]

/-- The parentheses around a phrase can be left out. -/
theorem Derives.exists_core :
    ∀ {rank : Rank} {tokens : List Token} {tree : Node} {nesting : Nat},
      Derives source rank tokens tree nesting →
      ∃ opening segment closing span, Core source tokens tree nesting opening segment closing span
  | _, _, _, _, .tighter phrase => phrase.exists_core
  | _, _, _, _, .chain joins before after => (Derives.chain joins before after).core_over
  | _, _, _, _, .negation negated => (Derives.negation negated).core_over
  | _, _, _, _, .sign signed => (Derives.sign signed).core_over
  | _, _, _, _, .power below above => (Derives.power below above).core_over
  | _, _, _, _, .integer => Derives.integer.core_over
  | _, _, _, _, .decimal => Derives.decimal.core_over
  | _, _, _, _, .string => Derives.string.core_over
  | _, _, _, _, .identifier => Derives.identifier.core_over
  | _, _, _, _, .list inside => (Derives.list inside).core_over
  | _, _, _, _, .call named admitted inside => (Derives.call named admitted inside).core_over
  | _, _, _, _, .parentheses inside => by
    obtain ⟨_, _, _, _, core⟩ := inside.exists_core
    exact ⟨_, _, _, _, core.parentheses _ _⟩

end Nodes

/-! ## The text of a node -/

section Texts

variable {source : List Char}

theorem Derives.ne_nil {rank : Rank} {tokens : List Token} {tree : Node} {nesting : Nat}
    (phrase : Derives source rank tokens tree nesting) : tokens ≠ [] := by
  obtain ⟨token, rest, rfl, -⟩ := phrase.begins
  exact List.cons_ne_nil token rest

theorem Derives.span_eq {rank : Rank} {tokens : List Token} {tree : Node} {nesting start stop : Nat}
    (phrase : Derives source rank tokens tree nesting)
    (starts : ∀ token ∈ tokens.head?, token.span.start = start)
    (ends : ∀ token ∈ tokens.getLast?, token.span.stop = stop) : tree.span = ⟨start, stop⟩ := by
  obtain ⟨first, last, is_first, is_last, same⟩ := phrase.span_tree
  rw [same, Span.through, starts first is_first, ends last is_last]

/-- The texts that are read as formulas, with the tokens that they fall into. -/
theorem parse_eq_ok_iff {source : String} {tree : Node} :
    parse source = .ok tree ↔
      ∃ tokens nesting, Lexes 0 source.toList tokens ∧
        Derives source.toList .disjunction tokens tree nesting ∧
        nesting ≤ maxNesting ∧ tree.height ≤ maxHeight := by
  have positive : 0 < (Reader.standard source.toList).height := Nat.succ_pos 1023
  constructor
  · intro read
    rw [parse] at read
    obtain ⟨tokens, lexed, parsed⟩ := exists_of_bind_eq_ok read
    obtain ⟨nesting, phrase, few, low⟩ := (parseTokens_eq_ok_iff positive).mp parsed
    exact ⟨tokens, nesting, tokensFrom_eq_ok_iff.mp lexed, phrase, few, low⟩
  · rintro ⟨tokens, nesting, lexes, phrase, few, low⟩
    rw [parse, tokensFrom_eq_ok_iff.mpr lexes]
    exact (parseTokens_eq_ok_iff positive).mpr ⟨nesting, phrase, few, low⟩

variable {before piece after : List Char} {segment : List Token}

/-- A piece has the slices that the whole text has from where the piece begins. -/
theorem slicesAgree_piece (lexes : Lexes 0 piece segment) :
    SlicesAgree piece (before ++ piece ++ after) (Utf8.size before + ·) segment := by
  intro first begins last ends
  have cut : IsCut piece first.span.start := (lexes.lies first begins).cut
  have inside := (lexes.lies last ends).inside
  rw [Nat.zero_add] at inside
  exact slice_piece before after cut inside

theorem slicesAgree_of_piece (lexes : Lexes (Utf8.size before) piece segment) :
    SlicesAgree (before ++ piece ++ after) piece (· - Utf8.size before) segment := by
  intro first begins last ends
  have starts := lexes.lies first begins
  have stops := lexes.lies last ends
  have bounds : Utf8.size before ≤ last.span.stop := Nat.le_trans stops.after stops.forward
  have same := slice_piece before after starts.cut (Nat.sub_le_iff_le_add'.mpr stops.inside)
  rw [Nat.add_sub_cancel' starts.after, Nat.add_sub_cancel' bounds] at same
  exact same.symm

/-- Places that are counted from where a piece begins can be counted from where
the text begins again. -/
theorem relocate_relocate_of_lexes {offset : Nat} (lexes : Lexes offset piece segment) :
    (segment.map (Token.relocate (· - offset))).map (Token.relocate (offset + ·)) = segment := by
  rw [List.map_map]
  refine (List.map_congr_left fun token member => ?_).trans (List.map_id segment)
  have lies := lexes.lies token member
  have stop : offset ≤ token.span.stop := Nat.le_trans lies.after lies.forward
  simp only [Function.comp_apply, Token.relocate, Span.relocate, Nat.add_sub_cancel' lies.after,
    Nat.add_sub_cancel' stop, id_eq]

/-- **A phrase over a piece of a text** is a phrase of the piece, with the places
counted from where the piece begins. -/
theorem Derives.exists_copy {tree : Node} {nesting : Nat}
    (phrase : Derives (before ++ piece ++ after) .disjunction segment tree nesting)
    (lexes : Lexes (Utf8.size before) piece segment) :
    ∃ copied copy, Lexes 0 piece copied ∧ Derives piece .disjunction copied copy nesting ∧
      copy.relocate (Utf8.size before + ·) = tree := by
  have copied : Lexes 0 piece (segment.map (Token.relocate (· - Utf8.size before))) := lexes.rebase
  have copy := phrase.relocate (slicesAgree_of_piece lexes)
  -- back at its place, the copy is a tree over the same tokens, of which there is only one
  have back : Derives (before ++ piece ++ after) .disjunction _ _ nesting :=
    copy.relocate (slicesAgree_piece copied)
  rw [relocate_relocate_of_lexes lexes] at back
  exact ⟨_, _, copied, copy, back.unique phrase⟩

/-- A node stands in a text after some characters: the text that it keeps, with
blanks and parentheses around it, over the span of the node. -/
structure Node.Stands (node : Node) (source before opening closing after : List Char) : Prop where
  whole : source = before ++ (opening ++ node.text.toList ++ closing) ++ after
  span : node.span = ⟨Utf8.size before,
    Utf8.size before + Utf8.size (opening ++ node.text.toList ++ closing)⟩
  opens : ∀ c ∈ opening, isBlank c = true ∨ c = '('
  closes : ∀ c ∈ closing, isBlank c = true ∨ c = ')'

/-- The tree of the text that a node keeps is that of the node, with its places
counted from where the text begins. -/
theorem Derives.exists_text {node : Node} {nesting : Nat}
    (phrase : Derives (before ++ piece ++ after) .disjunction segment node nesting)
    (lexes : Lexes (Utf8.size before) piece segment)
    (spans : node.span = ⟨Utf8.size before, Utf8.size before + Utf8.size piece⟩) :
    ∃ opening closing tokens copy depth,
      node.Stands (before ++ piece ++ after) before opening closing after ∧
      Lexes 0 node.text.toList tokens ∧
      Derives node.text.toList .disjunction tokens copy depth ∧ depth ≤ nesting ∧
      copy.relocate (Utf8.size (before ++ opening) + ·) =
        node.widen ⟨Utf8.size (before ++ opening),
          Utf8.size (before ++ opening) + Utf8.size node.text.toList⟩ := by
  obtain ⟨opened, inner, closed, span, core⟩ := phrase.exists_core
  obtain ⟨depth, shallow, bare⟩ := core.phrase
  rw [core.split] at lexes
  obtain ⟨opening, text, closing, rfl, opens, inside, closes, starts, ends⟩ :=
    lexes.exists_piece bare.ne_nil
  rw [← Utf8.size_append] at inside starts ends
  have place := bare.span_eq starts ends
  rw [Node.span_widen] at place
  have parted : before ++ (opening ++ text ++ closing) ++ after =
      before ++ opening ++ text ++ (closing ++ after) := by
    simp only [List.append_assoc]
  have same : node.text.toList = text := by
    rw [core.text, String.toList_ofList, place, parted, slice_whole_piece]
  rw [parted, place] at bare
  obtain ⟨tokens, copy, lexed, copied, back⟩ := bare.exists_copy inside
  subst same
  exact ⟨opening, closing, tokens, copy, depth,
    ⟨rfl, spans, opens.isBlank_or_eq rfl core.opens, closes.isBlank_or_eq rfl core.closes⟩,
    lexed, copied, shallow, back⟩

/-- **The text that a node keeps is a formula by itself.** Where a text is read
as a formula, the text of each node stands in it, with nothing but blanks and
parentheses between it and the span of the node. It is read as a formula as
well. Its tree is the subtree at the node, with the places counted from where
the text begins, and without the parentheses at the root. So the trees show the
same nodes at the same paths and have the same value or the same error. -/
theorem text_is_self_contained {source : String} {tree node : Node} {path : List Nat}
    (read : parse source = .ok tree) (found : tree.at? path = some node) :
    ∃ before opening closing after copy,
      node.Stands source.toList before opening closing after ∧
      parse node.text = .ok copy ∧
      copy.relocate (Utf8.size (before ++ opening) + ·) =
        node.widen ⟨Utf8.size (before ++ opening),
          Utf8.size (before ++ opening) + Utf8.size node.text.toList⟩ ∧
      (∀ below, (copy.at? below).map Node.face = (node.at? below).map Node.face) ∧
      ∀ environment, copy.evaluate environment = node.evaluate environment := by
  obtain ⟨tokens, nesting, lexes, phrase, few, low⟩ := parse_eq_ok_iff.mp read
  obtain ⟨⟨segment, depth, ⟨first, later, split⟩, own, less⟩, lower⟩ := phrase.hasPhrase_at found
  rw [← split] at lexes
  obtain ⟨before, piece, after, text, -, inside, -, starts, ends⟩ := lexes.exists_piece own.ne_nil
  rw [Nat.zero_add] at inside starts ends
  rw [text] at own
  obtain ⟨opening, closing, copied, copy, level, stands, lexed, derived, shallow, same⟩ :=
    own.exists_text inside (own.span_eq starts ends)
  have height : copy.height = node.height := by
    rw [← Node.height_relocate (Utf8.size (before ++ opening) + ·) copy, same, Node.height_widen]
  have bare : copy.bare = node.bare := by
    rw [← Node.bare_relocate (Utf8.size (before ++ opening) + ·) copy, same, Node.bare_widen]
  refine ⟨before, opening, closing, after, copy, text ▸ stands, ?_, same, fun below => ?_,
    fun environment => ?_⟩
  · exact parse_eq_ok_iff.mpr ⟨copied, level, lexed, derived,
      Nat.le_trans shallow (Nat.le_trans less few), height ▸ Nat.le_trans lower low⟩
  · rw [← Node.map_face_at?_relocate (Utf8.size (before ++ opening) + ·) copy, same,
      Node.map_face_at?_widen]
  · rw [← copy.evaluate_bare, bare, node.evaluate_bare]

end Texts

/-- The sum in the formula `(1 + 2) * 3`. -/
def groupedSum : Node :=
  (Node.over "(1 + 2) * 3".toList (.binary .add)
    [.over "(1 + 2) * 3".toList (.integer 1) [] ⟨1, 2⟩,
      .over "(1 + 2) * 3".toList (.integer 2) [] ⟨5, 6⟩] ⟨1, 6⟩).widen ⟨0, 7⟩

/-- The formula `(1 + 2) * 3`. -/
def groupedProduct : Node :=
  .over "(1 + 2) * 3".toList (.binary .mul)
    [groupedSum, .over "(1 + 2) * 3".toList (.integer 3) [] ⟨10, 11⟩] ⟨0, 11⟩

theorem parse_groupedProduct : parse "(1 + 2) * 3" = .ok groupedProduct := by
  have lexed : tokensFrom 0 "(1 + 2) * 3".toList =
      .ok [⟨.symbol .leftParen, ⟨0, 1⟩⟩, ⟨.integer 1, ⟨1, 2⟩⟩, ⟨.symbol .plus, ⟨3, 4⟩⟩,
        ⟨.integer 2, ⟨5, 6⟩⟩, ⟨.symbol .rightParen, ⟨6, 7⟩⟩, ⟨.symbol .star, ⟨8, 9⟩⟩,
        ⟨.integer 3, ⟨10, 11⟩⟩] := by
    with_unfolding_all rfl
  have one : Derives "(1 + 2) * 3".toList .sum [⟨.integer 1, ⟨1, 2⟩⟩] _ 0 :=
    .tighter (.tighter (.tighter (.tighter .integer)))
  have two : Derives "(1 + 2) * 3".toList .product [⟨.integer 2, ⟨5, 6⟩⟩] _ 0 :=
    .tighter (.tighter (.tighter .integer))
  have three : Derives "(1 + 2) * 3".toList .sign [⟨.integer 3, ⟨10, 11⟩⟩] _ 0 :=
    .tighter (.tighter .integer)
  have sum : Derives "(1 + 2) * 3".toList .sum
      ([⟨.integer 1, ⟨1, 2⟩⟩] ++ ⟨.symbol .plus, ⟨3, 4⟩⟩ :: [⟨.integer 2, ⟨5, 6⟩⟩]) _ 0 :=
    .chain .add one two
  have product : Derives "(1 + 2) * 3".toList .product
      ((⟨.symbol .leftParen, ⟨0, 1⟩⟩ ::
          ([⟨.integer 1, ⟨1, 2⟩⟩] ++ ⟨.symbol .plus, ⟨3, 4⟩⟩ :: [⟨.integer 2, ⟨5, 6⟩⟩]) ++
            [⟨.symbol .rightParen, ⟨6, 7⟩⟩]) ++
        ⟨.symbol .star, ⟨8, 9⟩⟩ :: [⟨.integer 3, ⟨10, 11⟩⟩]) groupedProduct 1 :=
    .chain .mul (.tighter (.tighter (.tighter (.parentheses sum.loosen)))) three
  exact parse_eq_ok_iff.mpr
    ⟨_, 1, tokensFrom_eq_ok_iff.mp lexed, product.loosen, by decide, by decide⟩

/-- The sum in parentheses is read again from its text, without them. -/
theorem groupedSum_is_self_contained :
    parse "(1 + 2) * 3" = .ok groupedProduct ∧ groupedProduct.at? [0] = some groupedSum ∧
      ∃ copy, parse "1 + 2" = .ok copy ∧
        ∀ environment, copy.evaluate environment = groupedSum.evaluate environment := by
  have found : groupedProduct.at? [0] = some groupedSum := rfl
  have text : groupedSum.text = "1 + 2" := by decide
  obtain ⟨_, _, _, _, copy, -, read, -, -, same⟩ :=
    text_is_self_contained parse_groupedProduct found
  exact ⟨parse_groupedProduct, found, copy, text ▸ read, same⟩

end FormulaStepper.Formula
