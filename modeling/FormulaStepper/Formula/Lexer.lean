import FormulaStepper.Formula.Error
import FormulaStepper.Text.Blank
import FormulaStepper.Text.Utf8

/-!
# Reading the tokens of a formula

Blanks separate tokens and are otherwise skipped. Each token takes the longest
run of characters that its first character allows: a word goes on while word
characters follow, a number may contain one point if a digit follows it, and a
string goes on to the first quote that is not doubled.

`Lexeme text` is a token at the front of `text`. It holds the characters that
were read and those that remain; the two make up the text again, and what was
read is never empty, so reading tokens comes to an end.
-/

set_option autoImplicit false

namespace FormulaStepper.Formula

/-- The quote around a string. -/
def quote : Char := '\x27'

/-- Whether a character can begin a word. -/
def isWordStart (c : Char) : Bool :=
  c.isAlpha || c == '_'

/-- Whether a character can go on in a word. -/
def isWordChar (c : Char) : Bool :=
  c.isAlphanum || c == '_'

theorem isWordChar_of_isWordStart {c : Char} (start : isWordStart c = true) :
    isWordChar c = true := by
  simp only [isWordStart, isWordChar, Char.isAlphanum, Bool.or_eq_true] at start ⊢
  exact start.imp_left Or.inl

/-- A token at the front of a text. -/
structure Lexeme (text : List Char) where
  kind : TokenKind
  written : List Char
  rest : List Char
  written_append_rest : written ++ rest = text
  written_ne_nil : written ≠ []

namespace Lexeme

/-- A symbol at the front of a text. -/
def ofSymbol (symbol : Symbol) (rest : List Char) : Lexeme (symbol.spelling ++ rest) :=
  ⟨.symbol symbol, symbol.spelling, rest, rfl, symbol.spelling_ne_nil⟩

/-- A lexeme leaves less text than there was. -/
theorem length_rest_lt {text : List Char} (lexeme : Lexeme text) :
    lexeme.rest.length < text.length := by
  have positive := List.length_pos_iff.mpr lexeme.written_ne_nil
  have total := congrArg List.length lexeme.written_append_rest
  rw [List.length_append] at total
  omega

end Lexeme

/-- The punctuation at the front of a text. -/
def punctuation? : (text : List Char) → Option (Lexeme text)
  | '(' :: rest => some (.ofSymbol .leftParen rest)
  | ')' :: rest => some (.ofSymbol .rightParen rest)
  | '[' :: rest => some (.ofSymbol .leftBracket rest)
  | ']' :: rest => some (.ofSymbol .rightBracket rest)
  | ',' :: rest => some (.ofSymbol .comma rest)
  | '+' :: rest => some (.ofSymbol .plus rest)
  | '-' :: rest => some (.ofSymbol .minus rest)
  | '*' :: rest => some (.ofSymbol .star rest)
  | '/' :: rest => some (.ofSymbol .slash rest)
  | '%' :: rest => some (.ofSymbol .percent rest)
  | '^' :: rest => some (.ofSymbol .caret rest)
  | '=' :: rest => some (.ofSymbol .equal rest)
  | '!' :: '=' :: rest => some (.ofSymbol .notEqual rest)
  | '<' :: '=' :: rest => some (.ofSymbol .lessEqual rest)
  | '<' :: rest => some (.ofSymbol .less rest)
  | '>' :: '=' :: rest => some (.ofSymbol .greaterEqual rest)
  | '>' :: rest => some (.ofSymbol .greater rest)
  | _ => none

/-- The token that a word is. -/
def wordKind (word : List Char) : TokenKind :=
  if word = Symbol.and.spelling then .symbol .and
  else if word = Symbol.or.spelling then .symbol .or
  else if word = Symbol.not.spelling then .symbol .not
  else .identifier (String.ofList word)

/-- The run at the front of a text of characters that satisfy a test, the
first of which is known to do so. -/
theorem takeWhile_ne_nil {test : Char → Bool} {c : Char} (first : test c = true)
    (rest : List Char) : (c :: rest).takeWhile test ≠ [] := by
  simp [first]

/-- The word at the front of a text. -/
def word (c : Char) (rest : List Char) (first : isWordChar c = true) : Lexeme (c :: rest) where
  kind := wordKind ((c :: rest).takeWhile isWordChar)
  written := (c :: rest).takeWhile isWordChar
  rest := (c :: rest).dropWhile isWordChar
  written_append_rest := List.takeWhile_append_dropWhile
  written_ne_nil := takeWhile_ne_nil first rest

/-- The number that a row of decimal digits stands for. -/
def ofDigits (digits : List Char) : Nat :=
  digits.foldl (fun total digit => 10 * total + (digit.toNat - '0'.toNat)) 0

/-- The greatest integer that can be written in a formula. -/
def greatestLiteral : Nat := 0x7FFFFFFFFFFFFFFF

/-- The digits after a point at the front of a text. -/
def fraction : List Char → List Char
  | '.' :: rest => rest.takeWhile Char.isDigit
  | _ => []

/-- Where there are digits after a point, the text begins with the point and
those digits. -/
theorem fraction_append_drop {text : List Char} (some_digits : fraction text ≠ []) :
    ('.' :: fraction text) ++ text.drop ((fraction text).length + 1) = text := by
  unfold fraction at some_digits ⊢
  split at some_digits
  · next rest =>
    have split := @List.takeWhile_append_dropWhile Char Char.isDigit rest
    have dropped :
        rest.drop (rest.takeWhile Char.isDigit).length = rest.dropWhile Char.isDigit := by
      conv => lhs; arg 2; rw [← split]
      exact List.drop_left
    rw [List.cons_append, List.drop_succ_cons, dropped, split]
  · exact absurd rfl some_digits

/-- The number at the front of a text. A point belongs to it if a digit
follows. -/
def number (c : Char) (rest : List Char) (first : c.isDigit = true) :
    Except ParseError (Lexeme (c :: rest)) :=
  let whole := (c :: rest).takeWhile Char.isDigit
  let after := (c :: rest).dropWhile Char.isDigit
  let places := fraction after
  have whole_ne_nil : whole ≠ [] := takeWhile_ne_nil first rest
  have whole_append_after : whole ++ after = c :: rest := List.takeWhile_append_dropWhile
  if some_digits : places ≠ [] then
    .ok
      { kind := .decimal (Float.ofScientific (ofDigits (whole ++ places)) true places.length)
        written := whole ++ '.' :: places
        rest := after.drop (places.length + 1)
        written_append_rest := by
          rw [List.append_assoc, fraction_append_drop some_digits, whole_append_after]
        written_ne_nil := by simp }
  else if ofDigits whole ≤ greatestLiteral then
    .ok
      { kind := .integer (Int64.ofNat (ofDigits whole))
        written := whole
        rest := after
        written_append_rest := whole_append_after
        written_ne_nil := whole_ne_nil }
  else .error (.invalidNumber (String.ofList whole))

/-- What stands between the quotes of a string, and the text after it. -/
structure Quoted (text : List Char) where
  content : List Char
  written : List Char
  rest : List Char
  written_append_rest : written ++ rest = text

/-- Reads on after an opening quote, up to the first quote that is not
doubled. A doubled quote stands for one. -/
def quoted? : (text : List Char) → Option (Quoted text)
  | [] => none
  | c :: rest =>
    if c = quote then
      match rest with
      | d :: more =>
        if d = quote then
          (quoted? more).map fun inner =>
            { content := quote :: inner.content
              written := c :: d :: inner.written
              rest := inner.rest
              written_append_rest := by simp [inner.written_append_rest] }
        else some ⟨[], [c], d :: more, rfl⟩
      | [] => some ⟨[], [c], [], rfl⟩
    else
      (quoted? rest).map fun inner =>
        { content := c :: inner.content
          written := c :: inner.written
          rest := inner.rest
          written_append_rest := by simp [inner.written_append_rest] }

/-- The string whose opening quote is at the front of a text. -/
def string? (c : Char) (rest : List Char) : Option (Lexeme (c :: rest)) :=
  (quoted? rest).map fun inner =>
    { kind := .string (String.ofList inner.content)
      written := c :: inner.written
      rest := inner.rest
      written_append_rest := by simp [inner.written_append_rest]
      written_ne_nil := by simp }

/-- The token at the front of a text that begins at `offset` with the
character `c`, which is not blank. -/
def lexeme (offset : Nat) (c : Char) (rest : List Char) : Except ParseError (Lexeme (c :: rest)) :=
  match punctuation? (c :: rest) with
  | some found => .ok found
  | none =>
    if c = quote then
      match string? c rest with
      | some found => .ok found
      | none => .error (.unterminatedString offset)
    else if digit : c.isDigit = true then number c rest digit
    else if start : isWordStart c = true then .ok (word c rest (isWordChar_of_isWordStart start))
    else .error (.unexpectedCharacter c offset)

/-- The tokens of a text that begins at `offset`, without the one that closes
the list. -/
def tokensFrom (offset : Nat) : List Char → Except ParseError (List Token)
  | [] => .ok []
  | c :: rest =>
    if Text.isBlank c then tokensFrom (offset + c.utf8Size) rest
    else
      match lexeme offset c rest with
      | .error error => .error error
      | .ok found =>
        let stop := offset + Text.Utf8.size found.written
        (tokensFrom stop found.rest).map fun tokens => ⟨found.kind, ⟨offset, stop⟩⟩ :: tokens
termination_by text => text.length
decreasing_by
  · simp
  · exact found.length_rest_lt

/-- The tokens of a formula, closed by `finish` where the text ends. -/
def tokenize (text : List Char) : Except ParseError (List Token) :=
  (tokensFrom 0 text).map fun tokens =>
    let stop := Text.Utf8.size text
    tokens ++ [⟨.finish, ⟨stop, stop⟩⟩]

end FormulaStepper.Formula
