import Mathlib
import FormulaStepper.Proofs.Grammar.Spans

/-!
# Spacing

Tokens tile the text that they are read from: they lie one after another, and
what lies between them is blank (`Tiles`). Where the blanks are, and how many,
does not matter. A token looks at the next characters only to see whether it
goes on, and there are characters with which no token does, blanks among them
(`Scans.of_separates`). So a token alone is the same token in front of blanks, and
the tokens of a text can be spaced out anew, as long as blanks remain between them
(`exists_lexes_respaced`).
-/

set_option autoImplicit false

namespace FormulaStepper.Formula

open Text

/-! ## The end of a token -/

section Ends

variable {c : Char} {rest written : List Char} {kind : TokenKind}

theorem isWordChar_of_isBlank (blank : isBlank c = true) : isWordChar c = false := by
  rw [Bool.eq_false_iff]
  intro word
  have blank_code := toNat_of_isBlank blank
  simp only [isWordChar, Char.isAlphanum, Bool.or_eq_true, beq_iff_eq] at word
  rcases word with (letter | digit) | rfl
  · have letter_code := toNat_of_isAlpha letter
    omega
  · have digit_code := toNat_of_isDigit digit
    omega
  · exact absurd blank (by decide)

theorem isDigit_of_not_wordChar (no_word : isWordChar c = false) : c.isDigit = false := by
  simp only [isWordChar, Char.isAlphanum, Bool.or_eq_false_iff] at no_word
  exact no_word.1.2

/-- The character goes on with no token that stands before it. -/
def PartsTokens (c : Char) : Prop :=
  isWordChar c = false ∧ c ∉ ['.', '=', quote]

theorem partsTokens_of_isBlank (blank : isBlank c = true) : PartsTokens c := by
  refine ⟨isWordChar_of_isBlank blank, fun mark => ?_⟩
  simp only [List.mem_cons, List.not_mem_nil, or_false] at mark
  rcases mark with rfl | rfl | rfl <;> exact absurd blank (by decide)

/-- No token that stands before the text goes on in it. -/
def Separates (rest : List Char) : Prop :=
  ∀ c ∈ rest.head?, PartsTokens c

theorem separates_nil : Separates [] :=
  fun _ first => by cases first

theorem separates_cons (parts : PartsTokens c) : Separates (c :: rest) := by
  intro d first
  cases first
  exact parts

theorem Separates.noneNext_digit (separates : Separates rest) : NoneNext Char.isDigit rest :=
  fun c first => isDigit_of_not_wordChar (separates c first).1

theorem Separates.noneNext_mark {mark : Char} (separates : Separates rest)
    (among : mark ∈ ['.', '=', quote]) : NoneNext (· == mark) rest := by
  intro c first
  rw [beq_eq_false_iff_ne]
  rintro rfl
  exact (separates c first).2 among

theorem Separates.fraction (separates : Separates rest) : fraction rest = [] := by
  unfold Formula.fraction
  split
  · exact absurd (separates '.' rfl).2 (by decide)
  · rfl

/-- **A token ends where the next character parts tokens**, so one that stands
alone is the same token there. -/
theorem Scans.of_separates (scans : Scans kind written []) (separates : Separates rest) :
    Scans kind written rest := by
  cases scans with
  | symbol no_word _ => exact .symbol no_word fun _ => separates.noneNext_mark (by decide)
  | word start all _ => exact .word start all fun c first => (separates c first).1
  | integer some_digits all _ _ fits =>
    exact .integer some_digits all separates.noneNext_digit separates.fraction fits
  | decimal some_digits all some_places all_places _ =>
    exact .decimal some_digits all some_places all_places separates.noneNext_digit
  | string _ => exact .string (separates.noneNext_mark (by decide))

/-- A token does not begin with a blank. -/
theorem Scans.visible {more : List Char} (scans : Scans kind (c :: more) rest) :
    isBlank c = false := by
  have digit {digits after : List Char} (some_digits : digits ≠ [])
      (all : ∀ d ∈ digits, d.isDigit = true) (same : c :: more = digits ++ after) :
      isBlank c = false := by
    rw [Bool.eq_false_iff]
    intro blank
    have first := isDigit_of_digits some_digits all same
    rw [isDigit_of_not_wordChar (isWordChar_of_isBlank blank)] at first
    cases first
  generalize written : c :: more = text at scans
  cases scans with
  | @symbol symbol _ _ _ => cases symbol <;> cases written <;> decide
  | word start _ _ =>
    cases written
    rw [Bool.eq_false_iff]
    intro blank
    have own := isWordChar_of_isWordStart start
    rw [isWordChar_of_isBlank blank] at own
    cases own
  | integer some_digits all _ _ _ =>
    exact digit some_digits all (written.trans (List.append_nil _).symm)
  | decimal some_digits all _ _ _ => exact digit some_digits all written
  | string _ => cases written; decide

theorem Scans.written_ne_nil (scans : Scans kind written rest) : written ≠ [] := by
  cases scans with
  | @symbol symbol _ _ _ => exact symbol.spelling_ne_nil
  | word _ _ _ => exact List.cons_ne_nil _ _
  | integer some_digits _ _ _ _ => exact some_digits
  | decimal _ _ _ _ _ => simp
  | string _ => exact List.cons_ne_nil _ _

end Ends

section Lexes

variable {offset : Nat} {kind : TokenKind} {written rest blanks text : List Char}
  {tokens : List Token}

/-- A token in front of a text that falls into tokens. -/
theorem Scans.lexes (scans : Scans kind written rest)
    (later : Lexes (offset + Utf8.size written) rest tokens) :
    Lexes offset (written ++ rest) (⟨kind, ⟨offset, offset + Utf8.size written⟩⟩ :: tokens) := by
  cases written with
  | nil => exact absurd rfl scans.written_ne_nil
  | cons c more => exact .token scans.visible scans later

/-- Blanks in front of a text that falls into tokens. -/
theorem Lexes.after_blanks (all : ∀ c ∈ blanks, Text.isBlank c = true)
    (later : Lexes (offset + Utf8.size blanks) rest tokens) :
    Lexes offset (blanks ++ rest) tokens := by
  induction blanks generalizing offset with
  | nil => exact later
  | cons c blanks ih =>
    obtain ⟨blank, all⟩ := List.forall_mem_cons.mp all
    rw [Utf8.size, ← Nat.add_assoc] at later
    exact .blank blank (ih all later)

/-- Where a token stands, and what it is there. -/
theorem Lexes.exists_scans (lexes : Lexes offset text tokens) {token : Token}
    (member : token ∈ tokens) :
    ∃ before written after, text = before ++ written ++ after ∧
      Scans token.kind written after ∧
      token.span = ⟨offset + Utf8.size before, offset + Utf8.size before + Utf8.size written⟩ := by
  induction lexes with
  | none => cases member
  | @blank offset c rest tokens blank later ih =>
    obtain ⟨before, written, after, rfl, scans, place⟩ := ih member
    rw [Nat.add_assoc] at place
    exact ⟨c :: before, written, after, rfl, scans, place⟩
  | @token offset c more rest kind tokens visible scans later ih =>
    rcases List.mem_cons.mp member with rfl | member
    · exact ⟨[], c :: more, rest, rfl, scans, rfl⟩
    · obtain ⟨before, written, after, rfl, scans, place⟩ := ih member
      rw [Nat.add_assoc, ← Utf8.size_append] at place
      refine ⟨c :: more ++ before, written, after, ?_, scans, place⟩
      simp only [List.append_assoc]

end Lexes

/-! ## Tiling -/

/-- The place lies in the span. -/
def Token.Covers (token : Token) (place : Nat) : Prop :=
  token.span.start ≤ place ∧ place < token.span.stop

/-- The tokens lie one after another in a text. Each covers some characters of
it, and every character that none of them covers is blank. -/
structure Tiles (text : List Char) (tokens : List Token) : Prop where
  some_characters : ∀ token ∈ tokens, token.span.start < token.span.stop
  in_order : tokens.Pairwise fun first second => first.span.stop ≤ second.span.start
  sliceable : ∀ token ∈ tokens, Sliceable text token.span
  blank_between : ∀ before c after, text = before ++ c :: after →
    (∀ token ∈ tokens, ¬ token.Covers (Utf8.size before)) → isBlank c = true

section Tiling

variable {offset : Nat} {text : List Char} {tokens : List Token}

theorem Lexes.isBlank_of_uncovered (lexes : Lexes offset text tokens) {before after : List Char}
    {c : Char} (split : text = before ++ c :: after)
    (uncovered : ∀ token ∈ tokens, ¬ token.Covers (offset + Utf8.size before)) :
    Text.isBlank c = true := by
  induction lexes generalizing before with
  | none => simp at split
  | @blank offset d rest tokens blank later ih =>
    cases before with
    | nil =>
      cases split
      exact blank
    | cons e before =>
      obtain ⟨rfl, rfl⟩ := List.cons.inj split
      refine ih rfl ?_
      rwa [Nat.add_assoc]
  | @token offset d more rest kind tokens visible scans later ih =>
    obtain ⟨here, uncovered⟩ := List.forall_mem_cons.mp uncovered
    -- the character does not stand in the token, which would cover it
    have behind : Utf8.size (d :: more) ≤ Utf8.size before := by
      by_contra inside
      exact here ⟨Nat.le_add_right _ _, by dsimp only; omega⟩
    obtain ⟨gap, rfl, rfl⟩ | ⟨inner, whole, remains⟩ := List.append_eq_append_iff.mp split
    · refine ih rfl ?_
      rwa [Nat.add_assoc, ← Utf8.size_append]
    · rw [whole, Utf8.size_append] at behind
      obtain rfl : inner = [] := eq_nil_of_size_eq_zero (by omega)
      rw [List.append_nil] at whole
      have split : rest = [] ++ c :: after := remains.symm
      refine ih split ?_
      rwa [← whole] at uncovered

/-- **The tokens of a text tile it.** -/
theorem Lexes.tiles (lexes : Lexes 0 text tokens) : Tiles text tokens where
  some_characters token member := by
    obtain ⟨before, written, after, -, scans, place⟩ := lexes.exists_scans member
    have some_bytes : Utf8.size written ≠ 0 := mt eq_nil_of_size_eq_zero scans.written_ne_nil
    rw [place]
    dsimp only
    omega
  in_order := lexes.pairwise
  sliceable token member := by
    obtain ⟨before, written, after, rfl, -, place⟩ := lexes.exists_scans member
    rw [place, Nat.zero_add]
    exact sliceable_piece before written after
  blank_between before c after split uncovered := by
    refine lexes.isBlank_of_uncovered split ?_
    rwa [Nat.zero_add]

/-- What a token is written as, it is by itself. -/
theorem Lexes.scans_slice (lexes : Lexes 0 text tokens) {token : Token} (member : token ∈ tokens) :
    Scans token.kind (slice text token.span) [] := by
  obtain ⟨before, written, after, rfl, scans, place⟩ := lexes.exists_scans member
  rw [place, Nat.zero_add, slice_whole_piece]
  exact scans.of_append

end Tiling

/-! ## Tokens spaced out anew -/

/-- Blanks that can follow the tokens of a text: there are some between any two
tokens. -/
structure Spaces (gaps : List (List Char)) : Prop where
  blank : ∀ gap ∈ gaps, ∀ c ∈ gap, isBlank c = true
  between : ∀ gap ∈ gaps.dropLast, gap ≠ []

/-- Pieces of text, each with a gap behind it, after some blanks. -/
def respaced (blanks : List Char) (pieces gaps : List (List Char)) : List Char :=
  blanks ++ (List.zipWith (· ++ ·) pieces gaps).flatten

section Respacing

variable {gap blanks text : List Char} {gaps pieces : List (List Char)} {kinds : List TokenKind}

theorem Spaces.tail (spaces : Spaces (gap :: gaps)) : Spaces gaps where
  blank := (List.forall_mem_cons.mp spaces.blank).2
  between := by
    cases gaps with
    | nil => exact fun gap member => (by cases member)
    | cons next gaps => exact (List.forall_mem_cons.mp spaces.between).2

/-- A gap keeps the next token apart, if there is one. -/
theorem Spaces.separates (spaces : Spaces (gap :: gaps))
    (same_length : pieces.length = gaps.length) : Separates (respaced gap pieces gaps) := by
  have blank := (List.forall_mem_cons.mp spaces.blank).1
  cases gap with
  | cons c gap => exact separates_cons (partsTokens_of_isBlank (blank c List.mem_cons_self))
  | nil =>
    cases gaps with
    | nil =>
      rw [respaced, List.zipWith_nil_right]
      exact separates_nil
    | cons next gaps => exact absurd rfl ((List.forall_mem_cons.mp spaces.between).1)

/-- **Tokens that are spaced out anew are the same tokens**, at other places. -/
theorem exists_lexes_respaced {offset : Nat} (blank : ∀ c ∈ blanks, isBlank c = true)
    (scans : List.Forall₂ (Scans · · []) kinds pieces) (spaces : Spaces gaps)
    (same_length : pieces.length = gaps.length) :
    ∃ tokens, Lexes offset (respaced blanks pieces gaps) tokens ∧
      tokens.map Token.kind = kinds := by
  induction scans generalizing offset blanks gaps with
  | nil =>
    refine ⟨[], ?_, rfl⟩
    rw [respaced, List.zipWith_nil_left]
    exact .after_blanks blank .none
  | @cons kind piece kinds pieces scans _ ih =>
    cases gaps with
    | nil => cases same_length
    | cons gap gaps =>
      rw [List.length_cons, List.length_cons, Nat.succ_inj] at same_length
      obtain ⟨tokens, lexes, same_kinds⟩ :
          ∃ tokens, Lexes (offset + Utf8.size blanks + Utf8.size piece)
            (respaced gap pieces gaps) tokens ∧ tokens.map Token.kind = kinds :=
        ih (List.forall_mem_cons.mp spaces.blank).1 spaces.tail same_length
      have first := (scans.of_separates (spaces.separates same_length)).lexes lexes
      have parted : respaced blanks (piece :: pieces) (gap :: gaps) =
          blanks ++ (piece ++ respaced gap pieces gaps) := by
        simp only [respaced, List.zipWith_cons_cons, List.flatten_cons, List.append_assoc]
      rw [parted]
      exact ⟨_, .after_blanks blank first, congrArg (kind :: ·) same_kinds⟩

end Respacing

/-! ## The whole text -/

/-- The token that closes the tokens of a text. -/
def Token.ending (text : List Char) : Token :=
  ⟨.finish, ⟨Utf8.size text, Utf8.size text⟩⟩

theorem tokenize_eq_ok_iff {text : List Char} {tokens : List Token} :
    tokenize text = .ok tokens ↔ ∃ body, Lexes 0 text body ∧ tokens = body ++ [.ending text] := by
  simp only [← tokensFrom_eq_ok_iff, tokenize]
  cases tokensFrom 0 text with
  | error error => exact ⟨fun read => (by cases read), fun ⟨body, read, _⟩ => (by cases read)⟩
  | ok body =>
    constructor
    · intro read
      cases read
      exact ⟨body, rfl, rfl⟩
    · rintro ⟨_, read, rfl⟩
      cases read
      rfl

/-- **Tokens tile a text, and its spacing does not matter.** The tokens of a text
cover all of it but blanks, one after another, and the last token closes them at
the end of the text. When the pieces of text that the tokens cover are spaced out
anew, with blanks between any two of them and none or some at the ends, the text
has the same tokens again, at other places. -/
theorem tokens_tile_text {text : List Char} {tokens : List Token}
    (read : tokenize text = .ok tokens) :
    ∃ body, tokens = body ++ [⟨.finish, ⟨Utf8.size text, Utf8.size text⟩⟩] ∧ Tiles text body ∧
      ∀ blanks gaps, (∀ c ∈ blanks, isBlank c = true) → Spaces gaps → gaps.length = body.length →
        ∃ again, tokenize (respaced blanks (body.map fun token => slice text token.span) gaps) =
            .ok again ∧
          again.map Token.kind = tokens.map Token.kind := by
  obtain ⟨body, lexes, rfl⟩ := tokenize_eq_ok_iff.mp read
  refine ⟨body, rfl, lexes.tiles, fun blanks gaps blank spaces same_length => ?_⟩
  have scans : List.Forall₂ (Scans · · []) (body.map Token.kind)
      (body.map fun token => slice text token.span) := by
    rw [List.forall₂_map_left_iff, List.forall₂_map_right_iff, List.forall₂_same]
    exact fun token member => lexes.scans_slice member
  obtain ⟨again, lexed, same_kinds⟩ :=
    exists_lexes_respaced blank scans spaces (by rw [List.length_map, same_length])
  refine ⟨_, tokenize_eq_ok_iff.mpr ⟨again, lexed, rfl⟩, ?_⟩
  rw [List.map_append, List.map_append, same_kinds]
  rfl

/-- A comparison without blanks has the same tokens with blanks of several kinds. -/
theorem comparison_respaced :
    tokenize "x<='é'".toList =
      .ok [⟨.identifier "x", ⟨0, 1⟩⟩, ⟨.symbol .lessEqual, ⟨1, 3⟩⟩, ⟨.string "é", ⟨3, 7⟩⟩,
        ⟨.finish, ⟨7, 7⟩⟩] ∧
    ∃ again, tokenize " x\t<=\u00a0 'é'".toList = .ok again ∧
      again.map Token.kind =
        [.identifier "x", .symbol .lessEqual, .string "é", .finish] := by
  have read : tokenize "x<='é'".toList =
      .ok [⟨.identifier "x", ⟨0, 1⟩⟩, ⟨.symbol .lessEqual, ⟨1, 3⟩⟩, ⟨.string "é", ⟨3, 7⟩⟩,
        ⟨.finish, ⟨7, 7⟩⟩] := by
    cbv
  obtain ⟨body, tokens, -, respace⟩ := tokens_tile_text read
  have parted : [_, _, _] ++ [_] = body ++ [_] := tokens
  obtain ⟨rfl, -⟩ := List.append_inj' parted rfl
  have blank_front : ∀ c ∈ [' '], isBlank c = true := List.all_eq_true.mp (by decide)
  have blank : ∀ gap ∈ [['\t'], ['\u00a0', ' '], []], ∀ c ∈ gap, isBlank c = true := by
    have all : [['\t'], ['\u00a0', ' '], []].all (·.all isBlank) = true := by decide
    exact fun gap member => List.all_eq_true.mp (List.all_eq_true.mp all gap member)
  exact ⟨read, respace [' '] [['\t'], ['\u00a0', ' '], []] blank_front ⟨blank, by decide⟩ rfl⟩

end FormulaStepper.Formula
