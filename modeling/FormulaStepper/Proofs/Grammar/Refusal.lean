import FormulaStepper.Proofs.Grammar.Spacing

/-!
# Texts without tokens

A text that does not fall into tokens is refused at the first place where neither a
blank nor a token stands (`exists_refused`). What was read before that place are tokens
also when the text is cut there, since a token never looks further than at the next
characters. The error says what stands at the place (`Bars`): a character with which
nothing begins, digits that stand for a number beyond the greatest literal, or a quote
that nothing closes. Behind such a quote, all quotes come in pairs that stand for one
quote each (`exists_doubled_of_unclosed`), so that their number is odd with it.

With the places counted in bytes, this comes to `errors_are_exact`.
-/

set_option autoImplicit false

namespace FormulaStepper.Formula

open Text

/-! ## No token at the front -/

/-- Why no token stands at the front of a text that begins at an offset. -/
inductive Bars (offset : Nat) : List Char → ParseError → Prop where
  | character {c : Char} {rest : List Char} :
      Bars offset (c :: rest) (.unexpectedCharacter c offset)
  | string {content : List Char} :
      Bars offset (quote :: doubled content) (.unterminatedString offset)
  | number {digits rest : List Char} (some_digits : digits ≠ [])
      (all : ∀ d ∈ digits, d.isDigit = true) (beyond : greatestLiteral < ofDigits digits) :
      Bars offset (digits ++ rest) (.invalidNumber (String.ofList digits))

section Front

variable {offset : Nat} {c : Char} {rest written after text : List Char} {kind : TokenKind}
  {error : ParseError}

/-- Where no quote closes a string, the quotes come in pairs. -/
theorem exists_doubled_of_unclosed (unclosed : quoted? text = none) :
    ∃ content, text = doubled content := by
  fun_induction quoted? text with
  | case1 => exact ⟨[], rfl⟩
  | case2 more ih =>
    obtain ⟨content, rfl⟩ := ih (Option.map_eq_none_iff.mp unclosed)
    exact ⟨quote :: content, rfl⟩
  | case3 => cases unclosed
  | case4 => cases unclosed
  | case5 c rest other ih =>
    obtain ⟨content, rfl⟩ := ih (Option.map_eq_none_iff.mp unclosed)
    exact ⟨c :: content, (doubled_of_ne other content).symm⟩

theorem count_quote_doubled (content : List Char) :
    (doubled content).count quote = 2 * content.count quote := by
  induction content with
  | nil => rfl
  | cons c content ih =>
    by_cases same : c = quote
    · rw [same, doubled_quote, List.count_cons_self, List.count_cons_self, List.count_cons_self, ih]
      omega
    · rw [doubled_of_ne same, List.count_cons_of_ne same, List.count_cons_of_ne same, ih]

theorem bars_of_number {first : c.isDigit = true} (refused : number c rest first = .error error) :
    Bars offset (c :: rest) error := by
  simp only [number] at refused
  split at refused
  · cases refused
  · split at refused
    · cases refused
    · next beyond =>
      cases refused
      have bars : Bars offset (_ ++ (c :: rest).dropWhile Char.isDigit) _ :=
        .number (takeWhile_ne_nil first rest) (fun d member => List.mem_takeWhile_imp member)
          (Nat.lt_of_not_le beyond)
      rwa [List.takeWhile_append_dropWhile] at bars

theorem bars_of_lexeme (refused : lexeme offset c rest = .error error) :
    Bars offset (c :: rest) error := by
  unfold lexeme at refused
  split at refused
  · cases refused
  · split at refused
    · next quoted =>
      split at refused
      · cases refused
      · next unclosed =>
        cases refused
        obtain ⟨content, rfl⟩ := exists_doubled_of_unclosed (Option.map_eq_none_iff.mp unclosed)
        exact quoted ▸ .string
    · split at refused
      · exact bars_of_number refused
      · split at refused
        · cases refused
        · cases refused
          exact .character

/-- Where reading is refused, there is no token. -/
theorem not_scans_of_lexeme (refused : lexeme offset c rest = .error error)
    (split : c :: rest = written ++ after) : ¬ Scans kind written after := by
  intro scans
  obtain ⟨found, read, -⟩ : Yields (lexeme offset c rest) kind written after :=
    yields_of_scans scans split
  rw [refused] at read
  cases read

end Front

/-! ## The place of the refusal -/

/-- **Reading goes well up to the place where it is refused.** -/
theorem exists_refused {offset : Nat} {text : List Char} {error : ParseError}
    (failed : tokensFrom offset text = .error error) :
    ∃ before c rest, text = before ++ c :: rest ∧ (∃ tokens, Lexes offset before tokens) ∧
      isBlank c = false ∧ lexeme (offset + Utf8.size before) c rest = .error error := by
  fun_induction tokensFrom offset text with
  | case1 => cases failed
  | case2 offset c rest blank ih =>
    obtain ⟨before, d, after, rfl, ⟨tokens, lexes⟩, visible, refused⟩ := ih failed
    rw [Nat.add_assoc] at refused
    exact ⟨c :: before, d, after, rfl, ⟨tokens, .blank blank lexes⟩, visible, refused⟩
  | case3 offset c rest visible error refused =>
    cases failed
    exact ⟨[], c, rest, rfl, ⟨[], .none⟩, Bool.eq_false_iff.mpr visible, refused⟩
  | case4 offset c rest visible found lexed stop ih =>
    have scans := scans_of_lexeme lexed
    cases later : tokensFrom stop found.rest with
    | ok tokens =>
      rw [later] at failed
      cases failed
    | error error =>
      rw [later] at failed
      cases failed
      obtain ⟨before, d, after, split, ⟨tokens, lexes⟩, next_visible, refused⟩ := ih later
      -- the token stays when the text behind it is cut
      rw [split] at scans
      have whole : c :: rest = found.written ++ before ++ d :: after := by
        rw [List.append_assoc, ← split, found.written_append_rest]
      have place : stop + Utf8.size before = offset + Utf8.size (found.written ++ before) := by
        rw [Utf8.size_append, ← Nat.add_assoc]
      exact ⟨found.written ++ before, d, after, whole, ⟨_, scans.of_append.lexes lexes⟩,
        next_visible, place ▸ refused⟩

/-! ## What errors say -/

/-- A text can be read up to a place, and no further: what stands before it falls into
tokens, and behind it stands neither a blank nor a token. -/
structure StopsAt (text : List Char) (place : Nat) : Prop where
  cut : IsCut text place
  read : ∃ tokens, tokenize (takeBytes place text) = .ok tokens
  visible : ∀ c ∈ (dropBytes place text).head?, isBlank c = false
  no_token : ∀ kind written after,
    dropBytes place text = written ++ after → ¬ Scans kind written after

/-- What an error says of the text that it was found in: where reading stops, and what
stands there. That is the character, or a quote that nothing closes, since all quotes
behind it come in pairs, or digits that stand for a number beyond the 64-bit integers. -/
def ParseError.Explains (text : List Char) : ParseError → Prop
  | .unexpectedCharacter c offset =>
    StopsAt text offset ∧ (dropBytes offset text).head? = some c
  | .unterminatedString offset =>
    StopsAt text offset ∧ (∃ content, dropBytes offset text = quote :: doubled content) ∧
      Odd ((dropBytes offset text).count quote)
  | .invalidNumber written =>
    ∃ span, StopsAt text span.start ∧ Sliceable text span ∧ slice text span = written.toList ∧
      written.toList ≠ [] ∧ (∀ d ∈ written.toList, d.isDigit = true) ∧
      Int64.maxValue.toInt < Nat.ofDigitChars 10 written.toList 0
  | _ => False

section Explaining

variable {before remaining text : List Char} {error : ParseError}

theorem Bars.explains (bars : Bars (Utf8.size before) remaining error)
    (stops : StopsAt (before ++ remaining) (Utf8.size before)) :
    error.Explains (before ++ remaining) := by
  cases bars with
  | character => exact ⟨stops, by rw [dropBytes_size]; rfl⟩
  | @string content =>
    rw [ParseError.Explains, dropBytes_size, List.count_cons_self, count_quote_doubled]
    exact ⟨stops, ⟨content, rfl⟩, odd_two_mul_add_one _⟩
  | @number digits rest some_digits all beyond =>
    have slices := slice_whole_piece before digits rest
    have sliceable := sliceable_piece before digits rest
    rw [List.append_assoc] at slices sliceable
    rw [ParseError.Explains, String.toList_ofList]
    exact ⟨_, stops, sliceable, slices, some_digits, all, Int.ofNat_lt.mpr beyond⟩

theorem tokenize_eq_error_iff :
    tokenize text = .error error ↔ tokensFrom 0 text = .error error := by
  rw [tokenize]
  cases tokensFrom 0 text with
  | error other => exact Iff.rfl
  | ok tokens => exact iff_of_false (fun failed => by cases failed) (fun failed => by cases failed)

end Explaining

/-- **Errors are exact.** Where a text has no tokens, the error is one of three kinds, and
says what the text has at the place where reading stops. -/
theorem errors_are_exact {text : List Char} {error : ParseError}
    (failed : tokenize text = .error error) : error.Explains text := by
  obtain ⟨before, c, rest, rfl, ⟨tokens, lexes⟩, visible, refused⟩ :=
    exists_refused (tokenize_eq_error_iff.mp failed)
  rw [Nat.zero_add] at refused
  have stops : StopsAt (before ++ c :: rest) (Utf8.size before) :=
    { cut := ⟨before, c :: rest, rfl, rfl⟩
      read := by
        rw [takeBytes_size]
        exact ⟨_, tokenize_eq_ok_iff.mpr ⟨tokens, lexes, rfl⟩⟩
      visible := by
        rw [dropBytes_size]
        intro d first
        cases first
        exact visible
      no_token := by
        rw [dropBytes_size]
        exact fun kind written after => not_scans_of_lexeme refused }
  exact (bars_of_lexeme refused).explains stops

/-- Errors behind characters of two bytes: a character that begins no token, a quote with
two pairs of quotes behind it, and the least number that is too great. -/
theorem errors_behind_letters :
    (tokenize "'é' # 2".toList = .error (.unexpectedCharacter '#' 5) ∧
      (ParseError.unexpectedCharacter '#' 5).Explains "'é' # 2".toList) ∧
    (tokenize "'é' = 'it''s ''".toList = .error (.unterminatedString 7) ∧
      (ParseError.unterminatedString 7).Explains "'é' = 'it''s ''".toList) ∧
    tokenize "'é' < 9223372036854775808.".toList = .error (.invalidNumber "9223372036854775808") ∧
      (ParseError.invalidNumber "9223372036854775808").Explains
        "'é' < 9223372036854775808.".toList := by
  have character : tokenize "'é' # 2".toList = .error (.unexpectedCharacter '#' 5) := by cbv
  have string : tokenize "'é' = 'it''s ''".toList = .error (.unterminatedString 7) := by cbv
  have number : tokenize "'é' < 9223372036854775808.".toList =
      .error (.invalidNumber "9223372036854775808") := by
    cbv
  exact ⟨⟨character, errors_are_exact character⟩, ⟨string, errors_are_exact string⟩,
    number, errors_are_exact number⟩

end FormulaStepper.Formula
