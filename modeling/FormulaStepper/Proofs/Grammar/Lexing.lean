import FormulaStepper.Formula.Lexer
import FormulaStepper.Proofs.Text.Digits
import FormulaStepper.Proofs.Text.Slices
import Mathlib.Data.List.TakeWhile

/-!
# The tokens of a text

Which texts fall into which tokens. A token takes the longest run that it can
have, so what it is depends on the text after it, but only on the first
characters (`Scans`): a text that is cut behind a token leaves the token as it
is (`Scans.of_append`). Blanks may stand before and behind tokens (`Lexes`).

The tokens that are read are those of this relation (`tokensFrom_eq_ok_iff`).
So a piece of a text that begins with a token and ends with one falls into the
tokens in between, with their places counted from where the piece begins
(`Lexes.exists_piece`).
-/

set_option autoImplicit false

namespace FormulaStepper.Formula

open Text

/-! ## One token -/

/-- The next character, if there is one, fails a test. -/
def NoneNext (test : Char → Bool) (rest : List Char) : Prop :=
  ∀ c ∈ rest.head?, test c = false

/-- A text with each of its quotes doubled. -/
def doubled (content : List Char) : List Char :=
  content.flatMap fun c => if c = quote then [quote, quote] else [c]

theorem doubled_quote (content : List Char) :
    doubled (quote :: content) = quote :: quote :: doubled content :=
  rfl

theorem doubled_of_ne {c : Char} (other : c ≠ quote) (content : List Char) :
    doubled (c :: content) = c :: doubled content := by
  rw [doubled, List.flatMap_cons, if_neg other]
  rfl

/-- Characters in front of a rest are a token of this kind. -/
inductive Scans : TokenKind → List Char → List Char → Prop where
  | symbol {symbol : Symbol} {rest : List Char} (no_word : symbol ∉ [.and, .or, .not])
      (longest : symbol ∈ [.less, .greater] → NoneNext (· == '=') rest) :
      Scans (.symbol symbol) symbol.spelling rest
  | word {c : Char} {more rest : List Char} (start : isWordStart c = true)
      (all : ∀ d ∈ more, isWordChar d = true) (longest : NoneNext isWordChar rest) :
      Scans (wordKind (c :: more)) (c :: more) rest
  | integer {digits rest : List Char} (some_digits : digits ≠ [])
      (all : ∀ d ∈ digits, d.isDigit = true) (longest : NoneNext Char.isDigit rest)
      (no_places : fraction rest = []) (fits : ofDigits digits ≤ greatestLiteral) :
      Scans (.integer (Int64.ofNat (ofDigits digits))) digits rest
  | decimal {whole places rest : List Char} (some_digits : whole ≠ [])
      (all : ∀ d ∈ whole, d.isDigit = true) (some_places : places ≠ [])
      (all_places : ∀ d ∈ places, d.isDigit = true) (longest : NoneNext Char.isDigit rest) :
      Scans (.decimal (Float.ofScientific (ofDigits (whole ++ places)) true places.length))
        (whole ++ '.' :: places) rest
  | string {content rest : List Char} (longest : NoneNext (· == quote) rest) :
      Scans (.string (String.ofList content)) (quote :: (doubled content ++ [quote])) rest

section Runs

variable {test : Char → Bool} {run rest kept after : List Char}

theorem NoneNext.of_append (next : NoneNext test (kept ++ after)) : NoneNext test kept := by
  intro c first
  refine next c ?_
  rw [List.head?_append, first]
  rfl

theorem noneNext_nil (test : Char → Bool) : NoneNext test [] :=
  fun _ first => by cases first

theorem noneNext_dropWhile (text : List Char) : NoneNext test (text.dropWhile test) := by
  intro c first
  have failed := List.head?_dropWhile_not test text
  rw [first] at failed
  simpa using failed

theorem takeWhile_append_of_noneNext (all : ∀ c ∈ run, test c = true) (next : NoneNext test rest) :
    (run ++ rest).takeWhile test = run := by
  have none_taken : rest.takeWhile test = [] := by
    cases rest with
    | nil => rfl
    | cons c rest => rw [List.takeWhile_cons, next c rfl]; rfl
  rw [List.takeWhile_append_of_pos all, none_taken, List.append_nil]

theorem dropWhile_append_of_noneNext (all : ∀ c ∈ run, test c = true) (next : NoneNext test rest) :
    (run ++ rest).dropWhile test = rest := by
  have none_dropped : rest.dropWhile test = rest := by
    cases rest with
    | nil => rfl
    | cons c rest => rw [List.dropWhile_cons, next c rfl]; rfl
  rw [List.dropWhile_append_of_pos all, none_dropped]

/-- Where there are digits after a point, they are followed by no digit. -/
theorem exists_of_fraction {text : List Char} (some_digits : fraction text ≠ []) :
    ∃ rest, text = '.' :: rest ∧ fraction text = rest.takeWhile Char.isDigit ∧
      text.drop ((fraction text).length + 1) = rest.dropWhile Char.isDigit := by
  have whole := fraction_append_drop some_digits
  unfold fraction at some_digits whole ⊢
  split at some_digits
  · next rest =>
    refine ⟨rest, rfl, rfl, ?_⟩
    simp only [List.cons_append, List.cons.injEq, true_and] at whole
    exact List.append_cancel_left (whole.trans List.takeWhile_append_dropWhile.symm)
  · exact absurd rfl some_digits

theorem fraction_of_append (none_after : fraction (kept ++ after) = []) : fraction kept = [] := by
  unfold fraction at none_after ⊢
  split
  · next rest =>
    simp only [List.cons_append] at none_after
    cases rest with
    | nil => rfl
    | cons c rest =>
      rw [List.cons_append, List.takeWhile_cons] at none_after
      split at none_after
      · cases none_after
      · next other => rw [List.takeWhile_cons, if_neg other]
  · rfl

end Runs

/-- **What a token is does not depend on more than the next characters**, so it
stays when the text behind it is cut. -/
theorem Scans.of_append {kind : TokenKind} {written kept after : List Char}
    (scans : Scans kind written (kept ++ after)) : Scans kind written kept := by
  cases scans with
  | symbol no_word longest => exact .symbol no_word fun short => (longest short).of_append
  | word start all longest => exact .word start all longest.of_append
  | integer some_digits all longest no_places fits =>
    exact .integer some_digits all longest.of_append (fraction_of_append no_places) fits
  | decimal some_digits all some_places all_places longest =>
    exact .decimal some_digits all some_places all_places longest.of_append
  | string longest => exact .string longest.of_append

/-- A symbol is written with its spelling, also where it is a word. -/
theorem Scans.written_of_symbol {symbol : Symbol} {written rest : List Char}
    (scans : Scans (.symbol symbol) written rest) : written = symbol.spelling := by
  generalize same : TokenKind.symbol symbol = kind at scans
  cases scans with
  | symbol no_word longest => cases same; rfl
  | word start all longest =>
    unfold wordKind at same
    split at same
    · next spelled => cases same; exact spelled
    · split at same
      · next spelled => cases same; exact spelled
      · split at same
        · next spelled => cases same; exact spelled
        · cases same
  | integer some_digits all longest no_places fits => cases same
  | decimal some_digits all some_places all_places longest => cases same
  | string longest => cases same

/-! ## Lexemes -/

section Lexemes

variable {offset : Nat} {c : Char} {rest more : List Char} {kind : TokenKind}

theorem scans_of_punctuation {text : List Char} {found : Lexeme text}
    (read : punctuation? text = some found) : Scans found.kind found.written found.rest := by
  unfold punctuation? at read
  split at read
  -- `<` and `>` are read only where no `=` follows
  case h_15 rest shorter | h_17 rest shorter =>
    cases read
    refine .symbol (by decide) fun _ d first => ?_
    cases rest with
    | nil => cases first
    | cons other rest =>
      cases first
      exact beq_eq_false_iff_ne.mpr fun equal => shorter rest (equal ▸ rfl)
  case h_18 => cases read
  all_goals
    cases read
    exact .symbol (by decide) fun short => absurd short (by decide)

theorem scans_of_quoted {text : List Char} {inner : Quoted text} (read : quoted? text = some inner) :
    inner.written = doubled inner.content ++ [quote] ∧ NoneNext (· == quote) inner.rest := by
  fun_induction quoted? text with
  | case1 => cases read
  | case2 more ih =>
    obtain ⟨tail, found, rfl⟩ := Option.map_eq_some_iff.mp read
    obtain ⟨written, longest⟩ := ih found
    exact ⟨congrArg (quote :: quote :: ·) written, longest⟩
  | case3 d more single =>
    cases read
    refine ⟨rfl, fun other first => ?_⟩
    cases first
    exact beq_eq_false_iff_ne.mpr single
  | case4 =>
    cases read
    exact ⟨rfl, fun other first => (by cases first)⟩
  | case5 c rest other ih =>
    obtain ⟨tail, found, rfl⟩ := Option.map_eq_some_iff.mp read
    obtain ⟨written, longest⟩ := ih found
    refine ⟨?_, longest⟩
    rw [doubled_of_ne other]
    exact congrArg (c :: ·) written

theorem scans_of_number {first : c.isDigit = true} {found : Lexeme (c :: rest)}
    (read : number c rest first = .ok found) : Scans found.kind found.written found.rest := by
  have all {text : List Char} : ∀ d ∈ text.takeWhile Char.isDigit, d.isDigit = true :=
    fun d member => List.mem_takeWhile_imp member
  have some_digits : (c :: rest).takeWhile Char.isDigit ≠ [] := takeWhile_ne_nil first rest
  simp only [number] at read
  split at read
  · next some_places =>
    cases read
    obtain ⟨after, -, places, left⟩ := exists_of_fraction some_places
    have longest : NoneNext Char.isDigit (after.dropWhile Char.isDigit) := noneNext_dropWhile after
    rw [← left] at longest
    exact .decimal some_digits all some_places (fun d member => all d (places ▸ member)) longest
  · next no_places =>
    split at read
    · next fits =>
      cases read
      exact .integer some_digits all (noneNext_dropWhile _) (not_not.mp no_places) fits
    · cases read

/-- What is read as a token is one. -/
theorem scans_of_lexeme {found : Lexeme (c :: rest)} (read : lexeme offset c rest = .ok found) :
    Scans found.kind found.written found.rest := by
  unfold lexeme at read
  split at read
  · next punctuation => cases read; exact scans_of_punctuation punctuation
  · split at read
    · next quoted =>
      split at read
      · next string =>
        cases read
        obtain ⟨inner, found, rfl⟩ := Option.map_eq_some_iff.mp string
        obtain ⟨written, longest⟩ := scans_of_quoted found
        simp only [written, quoted]
        exact .string longest
      · cases read
    · split at read
      · exact scans_of_number read
      · split at read
        · next start =>
          cases read
          have own := isWordChar_of_isWordStart start
          simp only [word, List.takeWhile_cons, List.dropWhile_cons, own, if_true]
          exact .word start (fun d member => List.mem_takeWhile_imp member) (noneNext_dropWhile rest)
        · cases read

/-- A token of this kind is read, with these characters in front of this rest. -/
def Yields {text : List Char} (read : Except ParseError (Lexeme text)) (kind : TokenKind)
    (written rest : List Char) : Prop :=
  ∃ found, read = .ok found ∧ found.kind = kind ∧ found.written = written ∧ found.rest = rest

theorem punctuation_of_symbol {symbol : Symbol} (no_word : symbol ∉ [.and, .or, .not])
    (longest : symbol ∈ [.less, .greater] → NoneNext (· == '=') rest) :
    punctuation? (symbol.spelling ++ rest) = some (.ofSymbol symbol rest) := by
  cases symbol
  case and | or | not => exact absurd (by decide) no_word
  case less | greater =>
    have next := longest (by decide)
    have shorter : ∀ more, rest ≠ '=' :: more := by
      rintro more rfl
      exact absurd (next '=' rfl) (by decide)
    simp only [Symbol.spelling, List.cons_append, List.nil_append]
    rw [punctuation?]
    exact shorter
  all_goals rfl

/-- Punctuation does not begin with a character of another token. -/
theorem punctuation_eq_none {text : List Char} (first : text.head? = some c)
    (other : c = quote ∨ c.isDigit = true ∨ isWordStart c = true) : punctuation? text = none := by
  unfold punctuation?
  split
  case h_18 => rfl
  all_goals
    cases first
    exact absurd other (by decide)

theorem exists_quoted (content : List Char) (longest : NoneNext (· == quote) rest) {text : List Char}
    (same : text = doubled content ++ [quote] ++ rest) :
    ∃ inner : Quoted text, quoted? text = some inner ∧ inner.content = content ∧
      inner.written = doubled content ++ [quote] ∧ inner.rest = rest := by
  induction content generalizing text with
  | nil =>
    cases rest with
    | nil =>
      obtain rfl : text = [quote] := same
      exact ⟨_, rfl, rfl, rfl, rfl⟩
    | cons d rest =>
      obtain rfl : text = quote :: d :: rest := same
      have single : d ≠ quote := by simpa using longest d rfl
      simp only [quoted?, if_pos, if_neg single]
      exact ⟨_, rfl, rfl, rfl, rfl⟩
  | cons d content ih =>
    obtain ⟨inner, found, inside, written, left⟩ := ih rfl
    rw [doubled, List.flatMap_cons] at same ⊢
    split at same
    · next doubles =>
      obtain rfl : text = quote :: quote :: (doubled content ++ [quote] ++ rest) := same
      simp only [quoted?, if_pos, found, Option.map_some, if_pos doubles]
      exact ⟨_, rfl, by rw [inside, doubles], congrArg (quote :: quote :: ·) written, left⟩
    · next other =>
      obtain rfl : text = d :: (doubled content ++ [quote] ++ rest) := same
      unfold quoted?
      simp only [if_neg other, found, Option.map_some]
      exact ⟨_, rfl, congrArg (d :: ·) inside, congrArg (d :: ·) written, left⟩

theorem yields_integer {first : c.isDigit = true} {digits : List Char}
    (all : ∀ d ∈ digits, d.isDigit = true) (longest : NoneNext Char.isDigit rest)
    (no_places : fraction rest = []) (fits : ofDigits digits ≤ greatestLiteral)
    (same : c :: more = digits ++ rest) :
    Yields (number c more first) (.integer (Int64.ofNat (ofDigits digits))) digits rest := by
  have taken := takeWhile_append_of_noneNext all longest
  have dropped := dropWhile_append_of_noneNext all longest
  rw [← same] at taken dropped
  simp only [Yields, number]
  split
  · next some_places => rw [dropped] at some_places; exact absurd no_places some_places
  · rw [if_pos (by rwa [taken])]
    refine ⟨_, rfl, ?_, taken, dropped⟩
    simp only [taken]

theorem yields_decimal {first : c.isDigit = true} {whole places : List Char}
    (all : ∀ d ∈ whole, d.isDigit = true) (some_places : places ≠ [])
    (all_places : ∀ d ∈ places, d.isDigit = true) (longest : NoneNext Char.isDigit rest)
    (same : c :: more = whole ++ '.' :: places ++ rest) :
    Yields (number c more first)
      (.decimal (Float.ofScientific (ofDigits (whole ++ places)) true places.length))
      (whole ++ '.' :: places) rest := by
  have point : NoneNext Char.isDigit ('.' :: (places ++ rest)) := by
    intro d next
    cases next
    rfl
  have taken := takeWhile_append_of_noneNext all point
  have dropped := dropWhile_append_of_noneNext all point
  rw [List.append_assoc, List.cons_append] at same
  rw [← same] at taken dropped
  have read_places : fraction ('.' :: (places ++ rest)) = places :=
    takeWhile_append_of_noneNext all_places longest
  simp only [Yields, number]
  split
  · refine ⟨_, rfl, ?_, ?_, ?_⟩
    · simp only [taken, dropped, read_places]
    · simp only [taken, dropped, read_places]
    · simp only [dropped, read_places, List.drop_succ_cons, List.drop_left]
  · next no_places =>
    rw [dropped, read_places] at no_places
    exact absurd some_places no_places

theorem isDigit_of_isWordStart (start : isWordStart c = true) : c.isDigit = false := by
  rw [Bool.eq_false_iff]
  intro digit
  rcases Bool.or_eq_true_iff.mp start with letter | underscore
  · have letter_code := toNat_of_isAlpha letter
    have digit_code := toNat_of_isDigit digit
    omega
  · rw [beq_iff_eq.mp underscore] at digit
    exact absurd digit (by decide)

theorem ne_quote_of_isDigit (digit : c.isDigit = true) : c ≠ quote := by
  rintro rfl
  exact absurd digit (by decide)

theorem ne_quote_of_isWordStart (start : isWordStart c = true) : c ≠ quote := by
  rintro rfl
  exact absurd start (by decide)

theorem isDigit_of_digits {digits : List Char} (some_digits : digits ≠ [])
    (all : ∀ d ∈ digits, d.isDigit = true) (same : c :: more = digits ++ rest) :
    c.isDigit = true := by
  cases digits with
  | nil => exact absurd rfl some_digits
  | cons d digits => exact (List.cons.inj same).1 ▸ all d List.mem_cons_self

/-- A number is read where a digit comes first. -/
theorem lexeme_of_isDigit (digit : c.isDigit = true) :
    lexeme offset c more = number c more digit := by
  rw [lexeme, punctuation_eq_none rfl (.inr (.inl digit))]
  simp only [if_neg (ne_quote_of_isDigit digit), dif_pos digit]

/-- **Every token of the relation is read** from the front of its text. -/
theorem yields_of_scans {written : List Char} (scans : Scans kind written rest)
    (same : c :: more = written ++ rest) : Yields (lexeme offset c more) kind written rest := by
  cases scans with
  | @symbol symbol _ no_word longest =>
    have read : ∃ found : Lexeme (c :: more), punctuation? (c :: more) = some found ∧
        found.kind = .symbol symbol ∧ found.written = symbol.spelling ∧ found.rest = rest := by
      rw [same]
      exact ⟨_, punctuation_of_symbol no_word longest, rfl, rfl, rfl⟩
    obtain ⟨found, read, kind, written, left⟩ := read
    refine ⟨found, ?_, kind, written, left⟩
    rw [lexeme, read]
  | @word d tail _ start all longest =>
    obtain ⟨rfl, rfl⟩ := List.cons.inj same
    have own := isWordChar_of_isWordStart start
    have taken := takeWhile_append_of_noneNext all longest
    have dropped := dropWhile_append_of_noneNext all longest
    have read : lexeme offset c (tail ++ rest) = .ok (word c (tail ++ rest) own) := by
      rw [lexeme, punctuation_eq_none rfl (.inr (.inr start))]
      simp only [if_neg (ne_quote_of_isWordStart start), isDigit_of_isWordStart start, dif_pos start,
        Bool.false_eq_true, dif_neg, not_false_eq_true]
    refine ⟨_, read, ?_, ?_, ?_⟩ <;>
      simp only [word, List.takeWhile_cons, List.dropWhile_cons, own, if_true, taken, dropped]
  | integer some_digits all longest no_places fits =>
    rw [lexeme_of_isDigit (isDigit_of_digits some_digits all same)]
    exact yields_integer all longest no_places fits same
  | decimal some_digits all some_places all_places longest =>
    have whole_first := same.trans (List.append_assoc ..)
    rw [lexeme_of_isDigit (isDigit_of_digits some_digits all whole_first)]
    exact yields_decimal all some_places all_places longest same
  | @string content _ longest =>
    obtain ⟨rfl, text⟩ := List.cons.inj same
    obtain ⟨inner, found, inside, written, left⟩ := exists_quoted content longest text
    rw [lexeme, punctuation_eq_none rfl (.inl rfl)]
    simp only [if_pos, string?, found, Option.map_some]
    exact ⟨_, rfl, by rw [inside], congrArg (quote :: ·) written, left⟩

end Lexemes

/-! ## All tokens -/

/-- A text that begins at an offset falls into these tokens. -/
inductive Lexes : Nat → List Char → List Token → Prop where
  | none {offset : Nat} : Lexes offset [] []
  | blank {offset : Nat} {c : Char} {rest : List Char} {tokens : List Token}
      (blank : isBlank c = true) (later : Lexes (offset + c.utf8Size) rest tokens) :
      Lexes offset (c :: rest) tokens
  | token {offset : Nat} {c : Char} {more rest : List Char} {kind : TokenKind}
      {tokens : List Token} (visible : isBlank c = false) (scans : Scans kind (c :: more) rest)
      (later : Lexes (offset + Utf8.size (c :: more)) rest tokens) :
      Lexes offset (c :: more ++ rest)
        (⟨kind, ⟨offset, offset + Utf8.size (c :: more)⟩⟩ :: tokens)

section Lexes

variable {offset : Nat} {text : List Char} {tokens : List Token}

theorem lexes_of_tokensFrom (tokens : List Token) (read : tokensFrom offset text = .ok tokens) :
    Lexes offset text tokens := by
  fun_induction tokensFrom offset text generalizing tokens with
  | case1 => cases read; exact .none
  | case2 offset c rest blank ih => exact .blank blank (ih _ read)
  | case3 => cases read
  | case4 offset c rest visible found lexed stop ih =>
    have scans := scans_of_lexeme lexed
    obtain ⟨kind, written, left, whole, some_written⟩ := found
    cases written with
    | nil => exact absurd rfl some_written
    | cons d more =>
      obtain ⟨rfl, rfl⟩ := List.cons.inj whole
      generalize read_later : tokensFrom (offset + Utf8.size (d :: more)) left = later at read
      cases later with
      | error error => cases read
      | ok later =>
        cases read
        exact .token (Bool.eq_false_iff.mpr visible) scans (ih _ read_later)

theorem tokensFrom_of_lexes (lexes : Lexes offset text tokens) :
    tokensFrom offset text = .ok tokens := by
  induction lexes with
  | none => rw [tokensFrom]
  | blank blank later ih => rw [tokensFrom, if_pos blank, ih]
  | @token offset c more rest kind tokens visible scans later ih =>
    have yields : Yields (lexeme offset c (more ++ rest)) kind (c :: more) rest :=
      yields_of_scans scans rfl
    obtain ⟨found, read, named, written, left⟩ := yields
    rw [List.cons_append, tokensFrom, if_neg (by rw [visible]; exact Bool.false_ne_true)]
    simp only [read, named, written, left, ih]
    rfl

/-- **The tokens that are read** are those into which the text falls. -/
theorem tokensFrom_eq_ok_iff : tokensFrom offset text = .ok tokens ↔ Lexes offset text tokens :=
  ⟨lexes_of_tokensFrom tokens, tokensFrom_of_lexes⟩

end Lexes

/-! ## Pieces of a text -/

/-- The same token at another place. -/
def Token.relocate (place : Nat → Nat) (token : Token) : Token :=
  ⟨token.kind, token.span.relocate place⟩

/-- A token lies inside a text that begins at an offset, and the text can be cut
where the token begins. -/
structure Token.Lies (token : Token) (offset : Nat) (text : List Char) : Prop where
  after : offset ≤ token.span.start
  forward : token.span.start ≤ token.span.stop
  inside : token.span.stop ≤ offset + Utf8.size text
  cut : IsCut text (token.span.start - offset)

section Pieces

variable {offset : Nat} {text : List Char} {tokens first segment later : List Token} {token : Token}

/-- A text can be parted where a token begins. -/
theorem Lexes.exists_rest (lexes : Lexes offset text (first ++ token :: later)) :
    ∃ before rest, text = before ++ rest ∧ Lexes offset before first ∧
      Lexes (offset + Utf8.size before) rest (token :: later) ∧
      token.span.start = offset + Utf8.size before := by
  generalize same : first ++ token :: later = tokens at lexes
  induction lexes generalizing first with
  | none => simp at same
  | @blank offset c rest tokens blank lexed ih =>
    obtain ⟨before, rest, rfl, front, lexes, place⟩ := ih same
    rw [Nat.add_assoc] at lexes place
    exact ⟨c :: before, rest, rfl, .blank blank front, lexes, place⟩
  | @token offset c more rest kind tokens visible scans lexed ih =>
    cases first with
    | nil =>
      obtain ⟨rfl, rfl⟩ := List.cons.inj same
      exact ⟨[], _, rfl, .none, .token visible scans lexed, rfl⟩
    | cons other first =>
      obtain ⟨rfl, further⟩ := List.cons.inj same
      obtain ⟨before, rest, rfl, front, lexes, place⟩ := ih further
      rw [Nat.add_assoc, ← Utf8.size_append] at lexes place
      exact ⟨c :: more ++ before, rest, (List.append_assoc ..).symm,
        .token visible scans.of_append front, lexes, place⟩

/-- A text can be parted where a token ends, because a token stays when the
text behind it is cut. -/
theorem Lexes.exists_front (some_tokens : segment ≠ [])
    (lexes : Lexes offset text (segment ++ later)) :
    ∃ front after, text = front ++ after ∧ Lexes offset front segment ∧
      Lexes (offset + Utf8.size front) after later ∧
      ∀ last ∈ segment.getLast?, last.span.stop = offset + Utf8.size front := by
  generalize same : segment ++ later = tokens at lexes
  induction lexes generalizing segment with
  | none => exact absurd (List.append_eq_nil_iff.mp same).1 some_tokens
  | @blank offset c rest tokens blank lexed ih =>
    obtain ⟨front, after, rfl, lexes, behind, ends⟩ := ih some_tokens same
    rw [Nat.add_assoc] at behind ends
    exact ⟨c :: front, after, rfl, .blank blank lexes, behind, ends⟩
  | @token offset c more rest kind tokens visible scans lexed ih =>
    cases segment with
    | nil => exact absurd rfl some_tokens
    | cons only segment =>
      obtain ⟨rfl, further⟩ := List.cons.inj same
      by_cases single : segment = []
      · subst single
        have alone : Scans kind (c :: more) [] := Scans.of_append scans
        have lexes : Lexes offset (c :: more ++ [])
            [⟨kind, ⟨offset, offset + Utf8.size (c :: more)⟩⟩] := .token visible alone .none
        rw [List.append_nil] at lexes
        obtain rfl : later = tokens := further
        refine ⟨c :: more, rest, rfl, lexes, lexed, fun last known => ?_⟩
        cases known
        rfl
      · obtain ⟨front, after, rfl, lexes, behind, ends⟩ := ih single further
        rw [Nat.add_assoc, ← Utf8.size_append] at behind ends
        refine ⟨c :: more ++ front, after, (List.append_assoc ..).symm,
          .token visible scans.of_append lexes, behind, fun last known => ends last ?_⟩
        rwa [List.getLast?_cons_of_ne_nil single] at known

/-- **A piece of a text** that begins with a token and ends with one falls into
the tokens in between. -/
theorem Lexes.exists_piece (some_tokens : segment ≠ [])
    (lexes : Lexes offset text (first ++ segment ++ later)) :
    ∃ before piece after, text = before ++ piece ++ after ∧ Lexes offset before first ∧
      Lexes (offset + Utf8.size before) piece segment ∧
      Lexes (offset + Utf8.size before + Utf8.size piece) after later ∧
      (∀ token ∈ segment.head?, token.span.start = offset + Utf8.size before) ∧
      ∀ last ∈ segment.getLast?, last.span.stop = offset + Utf8.size before + Utf8.size piece := by
  cases segment with
  | nil => exact absurd rfl some_tokens
  | cons token segment =>
    rw [List.append_assoc] at lexes
    obtain ⟨before, rest, rfl, front, lexes, place⟩ := lexes.exists_rest
    obtain ⟨piece, after, rfl, lexes, behind, ends⟩ := Lexes.exists_front some_tokens lexes
    refine ⟨before, piece, after, (List.append_assoc ..).symm, front, lexes, behind, ?_, ends⟩
    intro head known
    cases known
    exact place

/-- Places can be counted from elsewhere. -/
theorem Lexes.rebase {start : Nat} (lexes : Lexes (start + offset) text tokens) :
    Lexes offset text (tokens.map (Token.relocate (· - start))) := by
  generalize same : start + offset = place at lexes
  induction lexes generalizing offset with
  | none => exact .none
  | @blank place c rest tokens blank lexed ih =>
    subst same
    exact .blank blank (ih (Nat.add_assoc ..).symm)
  | @token place c more rest kind tokens visible scans lexed ih =>
    subst same
    have lexes := Lexes.token visible scans (ih (Nat.add_assoc ..).symm)
    have here : Token.relocate (· - start)
        ⟨kind, ⟨start + offset, start + offset + Utf8.size (c :: more)⟩⟩ =
        ⟨kind, ⟨offset, offset + Utf8.size (c :: more)⟩⟩ := by
      simp only [Token.relocate, Span.relocate, Nat.add_assoc, Nat.add_sub_cancel_left]
    rwa [List.map_cons, here]

theorem Token.Lies.append {before : List Char} (lies : token.Lies (offset + Utf8.size before) text) :
    token.Lies offset (before ++ text) := by
  obtain ⟨begins, forward, inside, cut⟩ := lies
  refine ⟨by omega, forward, by rw [Utf8.size_append]; omega, ?_⟩
  have place : token.span.start - offset =
      Utf8.size before + (token.span.start - (offset + Utf8.size before)) := by omega
  rw [place]
  exact cut.append before

/-- Every token lies inside the text. -/
theorem Lexes.lies (lexes : Lexes offset text tokens) : ∀ token ∈ tokens, token.Lies offset text := by
  induction lexes with
  | none => exact fun token member => (by cases member)
  | @blank offset c rest tokens blank lexed ih =>
    intro token member
    have lies : token.Lies (offset + Utf8.size [c]) rest := ih token member
    exact lies.append
  | @token offset c more rest kind tokens visible scans lexed ih =>
    intro token member
    rcases List.mem_cons.mp member with rfl | further
    · refine ⟨Nat.le_refl _, Nat.le_add_right .., ?_, ?_⟩
      · rw [Utf8.size_append]
        exact Nat.add_le_add_left (Nat.le_add_right ..) offset
      · rw [Nat.sub_self]
        exact isCut_zero _
    · exact (ih token further).append

/-- A text of equal punctuation marks has no characters but those and blanks. -/
theorem Lexes.isBlank_or_eq {symbol : Symbol} {mark : Char} (spelled : symbol.spelling = [mark])
    (lexes : Lexes offset text tokens) (equal : ∀ token ∈ tokens, token.kind = .symbol symbol) :
    ∀ c ∈ text, isBlank c = true ∨ c = mark := by
  induction lexes with
  | none => exact fun c member => (by cases member)
  | @blank offset c rest tokens blank lexed ih =>
    exact List.forall_mem_cons.mpr ⟨.inl blank, ih equal⟩
  | @token offset c more rest kind tokens visible scans lexed ih =>
    obtain ⟨(here : kind = .symbol symbol), further⟩ := List.forall_mem_cons.mp equal
    have written : c :: more = [mark] := by
      rw [here] at scans
      exact scans.written_of_symbol.trans spelled
    rw [written]
    exact List.forall_mem_cons.mpr ⟨.inr rfl, ih further⟩

end Pieces

end FormulaStepper.Formula
