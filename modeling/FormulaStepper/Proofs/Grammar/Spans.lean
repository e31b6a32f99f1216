import Mathlib.Data.List.Forall2
import FormulaStepper.Proofs.Grammar.Subformulas

/-!
# Spans

Where the nodes of a formula lie in its text. Tokens lie one after another
(`Lexes.pairwise`), and the children of a node have segments of its tokens to
themselves, one after another (`Derives.exists_segments`). So the children lie
one after another too, inside the text that the node keeps.

The span of a node also covers the parentheses around it, and blanks between
them, but nothing else (`Layers`). The induction is over the phrases of the
grammar: a phrase in parentheses is placed where the parentheses are, with one
layer more (`Node.Placed.parentheses`), and every other phrase covers its tokens
exactly (`Derives.placed_over`). This is so for any phrase among the tokens of a
text, also where the text is refused in the end (`Derives.exists_placed`,
`Derives.sliceable`). For an accepted text it comes to `spans_are_disciplined`.
-/

set_option autoImplicit false

namespace FormulaStepper.Formula

open Text

/-! ## Tokens in their order -/

section Tokens

variable {offset : Nat} {text : List Char} {tokens : List Token} {symbol : Symbol} {mark : Char}
  {span : Span}

theorem eq_nil_of_size_eq_zero (empty : Utf8.size text = 0) : text = [] := by
  cases text with
  | nil => rfl
  | cons c text =>
    have positive := c.utf8Size_pos
    rw [Utf8.size] at empty
    omega

/-- Every token ends before the next one begins. -/
theorem Lexes.pairwise (lexes : Lexes offset text tokens) :
    tokens.Pairwise fun first second => first.span.stop ≤ second.span.start := by
  induction lexes with
  | none => exact .nil
  | blank blank later ih => exact ih
  | token visible scans later ih =>
    exact .cons (fun token member => (later.lies token member).after) ih

/-- A text without tokens is blank. -/
theorem Lexes.isBlank (lexes : Lexes offset text []) : ∀ c ∈ text, isBlank c = true := by
  generalize none : ([] : List Token) = tokens at lexes
  induction lexes with
  | none => exact fun c member => (by cases member)
  | blank blank later ih => exact List.forall_mem_cons.mpr ⟨blank, ih none⟩
  | token visible scans later ih => cases none

theorem Lexes.text_ne_nil (lexes : Lexes offset text tokens) (some_tokens : tokens ≠ []) :
    text ≠ [] := by
  rintro rfl
  cases lexes
  exact some_tokens rfl

/-- A text that begins with a mark, its only token, is blank behind it. -/
theorem Lexes.exists_behind (lexes : Lexes offset text [⟨.symbol symbol, span⟩])
    (spelled : symbol.spelling = [mark]) (starts : span.start = offset) :
    ∃ blanks, text = mark :: blanks ∧ ∀ c ∈ blanks, Text.isBlank c = true := by
  generalize same : [(⟨.symbol symbol, span⟩ : Token)] = tokens at lexes
  cases lexes with
  | none => cases same
  | @blank _ c rest _ blank later =>
    subst same
    have positive := c.utf8Size_pos
    have after : offset + c.utf8Size ≤ span.start := (later.lies _ List.mem_cons_self).after
    omega
  | @token _ c more rest kind _ visible scans later =>
    cases same
    have written : c :: more = [mark] := scans.written_of_symbol.trans spelled
    obtain ⟨rfl, rfl⟩ := List.cons.inj written
    exact ⟨rest, rfl, later.isBlank⟩

/-- A text that ends with a mark, its only token, is blank before it. -/
theorem Lexes.exists_before (lexes : Lexes offset text [⟨.symbol symbol, span⟩])
    (spelled : symbol.spelling = [mark]) (ends : span.stop = offset + Utf8.size text) :
    ∃ blanks, text = blanks ++ [mark] ∧ ∀ c ∈ blanks, Text.isBlank c = true := by
  generalize same : [(⟨.symbol symbol, span⟩ : Token)] = tokens at lexes
  induction lexes with
  | none => cases same
  | @blank offset c rest _ blank later ih =>
    rw [Utf8.size, ← Nat.add_assoc] at ends
    obtain ⟨blanks, rfl, all⟩ := ih ends same
    exact ⟨c :: blanks, rfl, List.forall_mem_cons.mpr ⟨blank, all⟩⟩
  | @token offset c more rest kind _ visible scans later ih =>
    cases same
    have written : c :: more = [mark] := scans.written_of_symbol.trans spelled
    rw [Utf8.size_append, ← Nat.add_assoc] at ends
    obtain rfl : rest = [] := eq_nil_of_size_eq_zero (Nat.add_eq_left.mp ends.symm)
    exact ⟨[], (List.append_nil _).trans written, fun c member => by cases member⟩

end Tokens

/-! ## Segments of the children -/

section Segments

variable {source : List Char}

/-- A node lies from one token of a segment to another. -/
def Spans (node : Node) (segment : List Token) : Prop :=
  ∃ first ∈ segment, ∃ last ∈ segment, node.span = first.span.through last.span

theorem Derives.spans {rank : Rank} {tokens : List Token} {tree : Node} {nesting : Nat}
    (phrase : Derives source rank tokens tree nesting) : Spans tree tokens := by
  obtain ⟨first, last, begins, ends, same⟩ := phrase.span_tree
  exact ⟨first, List.mem_of_head? begins, last, List.mem_of_getLast? ends, same⟩

/-- Items have segments of their own, one after another. -/
theorem DerivesItems.exists_segments :
    ∀ {tokens : List Token} {items : List Node} {nesting : Nat},
      DerivesItems source tokens items nesting →
      ∃ segments, List.Forall₂ Spans items segments ∧ segments.flatten.Sublist tokens
  | tokens, _, _, .one item => by
    refine ⟨[tokens], .cons item.spans .nil, ?_⟩
    rw [List.flatten_singleton]
  | _, _, _, .more before after => by
    obtain ⟨segments, own, ordered⟩ := before.exists_segments
    refine ⟨segments ++ [_], List.rel_append own (.cons after.spans .nil), ?_⟩
    rw [List.flatten_append, List.flatten_singleton]
    exact ordered.append (List.sublist_cons_self _ _)
  | _, _, _, .none => ⟨[], .nil, .slnil⟩

/-- The children of a tree have segments of their own, one after another. -/
theorem Derives.exists_segments :
    ∀ {rank : Rank} {tokens : List Token} {tree : Node} {nesting : Nat},
      Derives source rank tokens tree nesting →
      ∃ segments, List.Forall₂ Spans tree.children segments ∧ segments.flatten.Sublist tokens
  | _, _, _, _, .tighter phrase => phrase.exists_segments
  | _, _, _, _, .integer => ⟨[], .nil, List.nil_sublist _⟩
  | _, _, _, _, .decimal => ⟨[], .nil, List.nil_sublist _⟩
  | _, _, _, _, .string => ⟨[], .nil, List.nil_sublist _⟩
  | _, _, _, _, .identifier => ⟨[], .nil, List.nil_sublist _⟩
  | _, _, _, _, .chain _ before after =>
    ⟨[_, _], .cons before.spans (.cons after.spans .nil), by simp⟩
  | _, _, _, _, .negation negated => ⟨[_], .cons negated.spans .nil, by simp⟩
  | _, _, _, _, .sign signed => ⟨[_], .cons signed.spans .nil, by simp⟩
  | _, _, _, _, .power below above =>
    ⟨[_, _], .cons below.spans (.cons above.spans .nil), by simp⟩
  | _, _, _, _, .parentheses inside => by
    obtain ⟨segments, own, ordered⟩ := inside.exists_segments
    rw [Node.children_widen]
    exact ⟨segments, own, (ordered.cons _).trans (List.sublist_append_left _ _)⟩
  | _, _, _, _, .list inside => by
    obtain ⟨segments, own, ordered⟩ := inside.exists_segments
    exact ⟨segments, own, (ordered.cons _).trans (List.sublist_append_left _ _)⟩
  | _, _, _, _, .call _ _ inside => by
    obtain ⟨segments, own, ordered⟩ := inside.exists_segments
    exact ⟨segments, own, ((ordered.cons _).cons _).trans (List.sublist_append_left _ _)⟩

theorem Spans.mono {node : Node} {segment tokens : List Token} (spans : Spans node segment)
    (among : segment ⊆ tokens) : Spans node tokens := by
  obtain ⟨first, begins, last, ends, same⟩ := spans
  exact ⟨first, among begins, last, among ends, same⟩

/-- Each of the nodes lies among the tokens of the segments. -/
theorem spans_of_mem {nodes : List Node} {segments : List (List Token)}
    (own : List.Forall₂ Spans nodes segments) : ∀ node ∈ nodes, Spans node segments.flatten := by
  induction own with
  | nil => exact fun node member => (by cases member)
  | cons spans others ih =>
    rw [List.flatten_cons]
    intro node member
    rcases List.mem_cons.mp member with rfl | further
    · exact spans.mono (List.subset_append_left _ _)
    · exact (ih node further).mono (List.subset_append_right _ _)

/-- Nodes with segments of their own lie one after another. -/
theorem pairwise_of_segments {nodes : List Node} {segments : List (List Token)}
    (own : List.Forall₂ Spans nodes segments)
    (ordered : segments.flatten.Pairwise fun first second => first.span.stop ≤ second.span.start) :
    nodes.Pairwise fun first second => first.span.stop ≤ second.span.start := by
  induction own with
  | nil => exact .nil
  | cons spans others ih =>
    rw [List.flatten_cons, List.pairwise_append] at ordered
    obtain ⟨-, later, between⟩ := ordered
    refine .cons (fun other member => ?_) (ih later)
    obtain ⟨_, -, last, ends, here⟩ := spans
    obtain ⟨first, begins, _, -, there⟩ := spans_of_mem others other member
    rw [here, there]
    exact between last ends first begins

end Segments

/-! ## Places of nodes -/

/-- A text can be cut at both ends of a span, the second of which does not come
before the first. -/
structure Sliceable (text : List Char) (span : Span) : Prop where
  forward : span.start ≤ span.stop
  cut_start : IsCut text span.start
  cut_stop : IsCut text span.stop

theorem sliceable_piece (before piece after : List Char) :
    Sliceable (before ++ piece ++ after)
      ⟨Utf8.size before, Utf8.size before + Utf8.size piece⟩ where
  forward := Nat.le_add_right _ _
  cut_start := ⟨before, piece ++ after, List.append_assoc .., rfl⟩
  cut_stop := ⟨before ++ piece, after, rfl, Utf8.size_append ..⟩

/-- What stands before and behind a text in layers of parentheses, with nothing
but blanks between the layers and the text. -/
inductive Layers : List Char → List Char → Prop where
  | none : Layers [] []
  | layer {before behind opening closing : List Char} (inside : Layers opening closing)
      (blank_before : ∀ c ∈ before, isBlank c = true)
      (blank_behind : ∀ c ∈ behind, isBlank c = true) :
      Layers ('(' :: before ++ opening) (closing ++ (behind ++ [')']))

/-- A node has its place in a source after some characters: the text that it
keeps, in layers of parentheses, over the span of the node. Its children lie
one after another inside the text. -/
structure Node.Placed (node : Node) (source before opening closing after : List Char) : Prop where
  whole : source = before ++ (opening ++ node.text.toList ++ closing) ++ after
  span : node.span = ⟨Utf8.size before,
    Utf8.size before + Utf8.size (opening ++ node.text.toList ++ closing)⟩
  layers : Layers opening closing
  some_text : node.text.toList ≠ []
  inside : ∀ child ∈ node.children, Utf8.size (before ++ opening) ≤ child.span.start ∧
    child.span.stop ≤ Utf8.size (before ++ opening) + Utf8.size node.text.toList
  apart : node.children.Pairwise fun first second => first.span.stop ≤ second.span.start

namespace Node.Placed

variable {node : Node} {source before opening closing after : List Char}
  (placed : node.Placed source before opening closing after)

include placed

theorem start_lt_stop : node.span.start < node.span.stop := by
  have some_text : Utf8.size node.text.toList ≠ 0 :=
    fun empty => placed.some_text (eq_nil_of_size_eq_zero empty)
  rw [placed.span, Utf8.size_append, Utf8.size_append]
  dsimp only
  omega

theorem sliceable : Sliceable source node.span := by
  rw [placed.span, placed.whole]
  exact sliceable_piece before _ after

theorem slice_span : slice source node.span = opening ++ node.text.toList ++ closing := by
  rw [placed.span, placed.whole]
  exact slice_whole_piece before _ after

end Node.Placed

section Places

variable {source before piece after : List Char} {tokens : List Token}

/-- The tokens of a piece of a source, from where it begins to where it ends. -/
structure Located (source before piece after : List Char) (tokens : List Token) : Prop where
  whole : source = before ++ piece ++ after
  lexes : Lexes (Utf8.size before) piece tokens
  starts : ∀ token ∈ tokens.head?, token.span.start = Utf8.size before
  ends : ∀ token ∈ tokens.getLast?, token.span.stop = Utf8.size before + Utf8.size piece

/-- A phrase that is not in parentheses covers its tokens. -/
theorem Derives.placed_over {rank : Rank} {kind : NodeKind} {children : List Node} {span : Span}
    {nesting : Nat} (phrase : Derives source rank tokens (.over source kind children span) nesting)
    (located : Located source before piece after tokens) :
    ∃ opening closing, (Node.over source kind children span).Placed source before opening closing
      after := by
  obtain ⟨rfl, lexes, starts, ends⟩ := located
  have place : span = ⟨Utf8.size before, Utf8.size before + Utf8.size piece⟩ :=
    phrase.span_eq starts ends
  have text : (Node.over (before ++ piece ++ after) kind children span).text.toList = piece := by
    rw [Node.over, Node.text, String.toList_ofList, place, slice_whole_piece]
  obtain ⟨segments, own, ordered⟩ := phrase.exists_segments
  refine ⟨[], [], ?_, ?_, .none, ?_, fun child member => ?_, ?_⟩
  · rw [text, List.nil_append, List.append_nil]
  · rw [text, List.nil_append, List.append_nil]
    exact place
  · rw [text]
    exact lexes.text_ne_nil phrase.ne_nil
  · obtain ⟨first, begins, last, stops, here⟩ := spans_of_mem own child member
    have front := lexes.lies first (ordered.subset begins)
    have back := lexes.lies last (ordered.subset stops)
    rw [text, List.append_nil, here]
    exact ⟨front.after, back.inside⟩
  · exact pairwise_of_segments own (lexes.pairwise.sublist ordered)

/-- The tokens between two parentheses are those of a piece between them, with
nothing but blanks around it. -/
theorem Located.inside_parentheses {left right : Span}
    (located : Located source before piece after
      (⟨.symbol .leftParen, left⟩ :: tokens ++ [⟨.symbol .rightParen, right⟩]))
    (some_tokens : tokens ≠ []) :
    ∃ outer middle inner, piece = '(' :: outer ++ middle ++ (inner ++ [')']) ∧
      (∀ c ∈ outer, isBlank c = true) ∧ (∀ c ∈ inner, isBlank c = true) ∧
      Located source (before ++ '(' :: outer) middle (inner ++ [')'] ++ after) tokens := by
  obtain ⟨whole, lexes, starts, ends⟩ := located
  have split : Lexes (Utf8.size before) piece
      ([⟨.symbol .leftParen, left⟩] ++ tokens ++ [⟨.symbol .rightParen, right⟩]) := lexes
  obtain ⟨front, middle, back, rfl, opens, inside, closes, inner_starts, inner_ends⟩ :=
    split.exists_piece some_tokens
  have right_ends := ends _ (List.getLast?_concat ..)
  rw [Utf8.size_append, Utf8.size_append, ← Nat.add_assoc, ← Nat.add_assoc] at right_ends
  obtain ⟨outer, rfl, blank_outer⟩ := opens.exists_behind rfl (starts _ rfl)
  obtain ⟨inner, rfl, blank_inner⟩ := closes.exists_before rfl right_ends
  rw [← Utf8.size_append] at inside inner_starts inner_ends
  refine ⟨outer, middle, inner, rfl, blank_outer, blank_inner, ?_, inside, inner_starts, inner_ends⟩
  rw [whole]
  simp only [List.append_assoc]

/-- Parentheses around a phrase are one layer more. -/
theorem Node.Placed.parentheses {node : Node} {opening closing outer inner : List Char}
    (placed : node.Placed source (before ++ '(' :: outer) opening closing (inner ++ [')'] ++ after))
    (blank_outer : ∀ c ∈ outer, isBlank c = true) (blank_inner : ∀ c ∈ inner, isBlank c = true)
    {span : Span} (place : span = ⟨Utf8.size before, Utf8.size before +
      Utf8.size ('(' :: outer ++ (opening ++ node.text.toList ++ closing) ++ (inner ++ [')']))⟩) :
    (node.widen span).Placed source before ('(' :: outer ++ opening) (closing ++ (inner ++ [')']))
      after := by
  have regroup : '(' :: outer ++ opening ++ node.text.toList ++ (closing ++ (inner ++ [')'])) =
      '(' :: outer ++ (opening ++ node.text.toList ++ closing) ++ (inner ++ [')']) := by
    simp only [List.append_assoc]
  refine ⟨?_, ?_, .layer placed.layers blank_outer blank_inner, ?_, ?_, ?_⟩
  · rw [Node.text_widen, regroup, placed.whole]
    simp only [List.append_assoc]
  · rw [Node.span_widen, Node.text_widen, regroup, place]
  · rw [Node.text_widen]
    exact placed.some_text
  · rw [Node.text_widen, Node.children_widen, ← List.append_assoc]
    exact placed.inside
  · rw [Node.children_widen]
    exact placed.apart

/-- **A phrase is placed where its tokens lie.** -/
theorem Derives.exists_placed :
    ∀ {rank : Rank} {tokens : List Token} {tree : Node} {nesting : Nat},
      Derives source rank tokens tree nesting →
      ∀ before piece after, Located source before piece after tokens →
      ∃ opening closing, tree.Placed source before opening closing after
  | _, _, _, _, .tighter phrase => phrase.exists_placed
  | _, _, _, _, .chain joins first second =>
    fun _ _ _ => (Derives.chain joins first second).placed_over
  | _, _, _, _, .negation negated => fun _ _ _ => (Derives.negation negated).placed_over
  | _, _, _, _, .sign signed => fun _ _ _ => (Derives.sign signed).placed_over
  | _, _, _, _, .power below above => fun _ _ _ => (Derives.power below above).placed_over
  | _, _, _, _, .integer => fun _ _ _ => Derives.integer.placed_over
  | _, _, _, _, .decimal => fun _ _ _ => Derives.decimal.placed_over
  | _, _, _, _, .string => fun _ _ _ => Derives.string.placed_over
  | _, _, _, _, .identifier => fun _ _ _ => Derives.identifier.placed_over
  | _, _, _, _, .list inside => fun _ _ _ => (Derives.list inside).placed_over
  | _, _, _, _, .call named admitted inside =>
    fun _ _ _ => (Derives.call named admitted inside).placed_over
  | _, _, _, _, @Derives.parentheses _ _ node _ _ _ inside => by
    intro before piece after located
    have place := (Derives.parentheses inside).span_eq located.starts located.ends
    obtain ⟨outer, middle, inner, rfl, blank_outer, blank_inner, between⟩ :=
      located.inside_parentheses inside.ne_nil
    obtain ⟨opening, closing, placed⟩ := inside.exists_placed _ _ _ between
    have same : opening ++ node.text.toList ++ closing = middle :=
      List.append_cancel_left (List.append_cancel_right (placed.whole.symm.trans between.whole))
    rw [← same, Node.span_widen] at place
    exact ⟨_, _, placed.parentheses blank_outer blank_inner place⟩

/-- A phrase among the tokens of a text has a piece of the text to itself. -/
theorem Derives.exists_located {rank : Rank} {segment : List Token} {tree : Node} {nesting : Nat}
    (phrase : Derives source rank segment tree nesting) (lexes : Lexes 0 source tokens)
    (among : segment <:+: tokens) :
    ∃ before piece after, Located source before piece after segment := by
  obtain ⟨front, later, rfl⟩ := among
  obtain ⟨before, piece, after, whole, -, inside, -, starts, ends⟩ :=
    lexes.exists_piece phrase.ne_nil
  rw [Nat.zero_add] at inside starts ends
  exact ⟨before, piece, after, whole, inside, starts, ends⟩

/-- Wherever the text of a node is cut out of a source, it can be: also in a
source that is refused in the end. -/
theorem Derives.sliceable {rank : Rank} {segment : List Token} {kind : NodeKind}
    {children : List Node} {span : Span} {nesting : Nat}
    (phrase : Derives source rank segment (.over source kind children span) nesting)
    (lexes : Lexes 0 source tokens) (among : segment <:+: tokens) : Sliceable source span := by
  obtain ⟨before, piece, after, rfl, -, starts, ends⟩ := phrase.exists_located lexes among
  have place : span = ⟨Utf8.size before, Utf8.size before + Utf8.size piece⟩ :=
    phrase.span_eq starts ends
  exact place ▸ sliceable_piece before piece after

end Places

/-- **The spans of a formula are disciplined.** The span of the tree runs from
the first token of the source to the last. The span of each node covers at
least one character, and the source can be cut at both of its ends. It covers
the text that the node keeps, in layers of parentheses with nothing but blanks
between the layers and the text, and the spans of the children lie inside that
text, one after another. Wherever a text is cut out for a node, it can be. -/
theorem spans_are_disciplined {source : String} {tree : Node} (read : parse source = .ok tree) :
    ∃ tokens, tokensFrom 0 source.toList = .ok tokens ∧
      (∃ first last, tokens.head? = some first ∧ tokens.getLast? = some last ∧
        tree.span = first.span.through last.span) ∧
      (∀ path node, tree.at? path = some node →
        node.span.start < node.span.stop ∧ Sliceable source.toList node.span ∧
          ∃ before opening closing after,
            node.Placed source.toList before opening closing after ∧
            slice source.toList node.span = opening ++ node.text.toList ++ closing) ∧
      ∀ rank segment kind children span nesting, segment <:+: tokens →
        Derives source.toList rank segment (.over source.toList kind children span) nesting →
        Sliceable source.toList span := by
  obtain ⟨tokens, nesting, lexes, phrase, -, -⟩ := parse_eq_ok_iff.mp read
  refine ⟨tokens, tokensFrom_eq_ok_iff.mpr lexes, phrase.span_tree, fun path node found => ?_,
    fun _ _ _ _ _ _ among own => own.sliceable lexes among⟩
  obtain ⟨⟨segment, depth, among, own, -⟩, -⟩ := phrase.hasPhrase_at found
  obtain ⟨before, piece, after, located⟩ := own.exists_located lexes among
  obtain ⟨opening, closing, placed⟩ := own.exists_placed before piece after located
  exact ⟨placed.start_lt_stop, placed.sliceable, before, opening, closing, after, placed,
    placed.slice_span⟩

/-- The span of the sum in `(1 + 2) * 3` covers its parentheses. -/
theorem groupedSum_covers_parentheses :
    parse "(1 + 2) * 3" = .ok groupedProduct ∧ groupedProduct.at? [0] = some groupedSum ∧
      Sliceable "(1 + 2) * 3".toList ⟨0, 7⟩ ∧
      ∃ opening closing, slice "(1 + 2) * 3".toList ⟨0, 7⟩ = opening ++ "1 + 2".toList ++ closing ∧
        Layers opening closing := by
  have found : groupedProduct.at? [0] = some groupedSum := rfl
  have text : groupedSum.text = "1 + 2" := by decide
  obtain ⟨_, -, -, nodes, -⟩ := spans_are_disciplined parse_groupedProduct
  obtain ⟨-, sliceable, _, opening, closing, _, placed, covered⟩ := nodes [0] groupedSum found
  rw [text] at covered
  exact ⟨parse_groupedProduct, found, sliceable, opening, closing, covered, placed.layers⟩

end FormulaStepper.Formula
