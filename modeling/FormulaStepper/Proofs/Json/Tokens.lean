import FormulaStepper.Json.Text
import FormulaStepper.Json.Token
import FormulaStepper.Proofs.Text.Digits
import Mathlib.Data.List.Basic

/-!
# Written JSON as tokens

What is written for a value is read as the tokens of the value, one for each
of its parts (`tokens_write`). A word, a string or a bracket is read in front
of anything; a numeral needs to be followed by what cannot carry it on. In a
written value that is always a comma, a closing symbol or the end of the text
(`endsValue`), so the induction over values asks this of what comes after.

Numbers have to be exact, that is, integers that fit 64 bits. Floats are left
out: they are written with the fewest digits and read with rounding.
-/

set_option autoImplicit false

namespace FormulaStepper.Json

/-- A number that is kept exactly: an integer that fits 64 bits, with a sign or
without. -/
def Number.IsExact : Number → Prop
  | .int n => -0x8000000000000000 ≤ n ∧ n ≤ 0xFFFFFFFFFFFFFFFF
  | .float _ => False

mutual

/-- The tokens of a value. -/
def spelled : Json → List Token
  | .null => [.null]
  | .bool holds => [.bool holds]
  | .number n => [.number (some n)]
  | .string text => [.string (some text.toList)]
  | .array [] => [.openBracket, .closeBracket]
  | .array (item :: items) => .openBracket :: (spelled item ++ spelledItems items)
  | .object [] => [.openBrace, .closeBrace]
  | .object ((name, value) :: members) =>
    .openBrace :: .string (some name.toList) :: .colon :: (spelled value ++ spelledMembers members)

/-- The tokens of the items after the first, and of the end of the array. -/
def spelledItems : List Json → List Token
  | [] => [.closeBracket]
  | item :: items => .comma :: (spelled item ++ spelledItems items)

/-- The tokens of the members after the first, and of the end of the object. -/
def spelledMembers : List (String × Json) → List Token
  | [] => [.closeBrace]
  | (name, value) :: members =>
    .comma :: .string (some name.toList) :: .colon :: (spelled value ++ spelledMembers members)

end

mutual

/-- A value in which all numbers are exact. -/
def IsExact : Json → Prop
  | .null | .bool _ | .string _ => True
  | .number n => n.IsExact
  | .array items => ItemsAreExact items
  | .object members => MembersAreExact members

/-- Items that are exact. -/
def ItemsAreExact : List Json → Prop
  | [] => True
  | item :: items => IsExact item ∧ ItemsAreExact items

/-- Members whose values are exact. -/
def MembersAreExact : List (String × Json) → Prop
  | [] => True
  | (_, value) :: members => IsExact value ∧ MembersAreExact members

end

/-- Whether a text begins with what can follow a value inside another one, or
is empty. -/
def endsValue : List Char → Bool
  | [] => true
  | c :: _ => c == ',' || c == ']' || c == '\x7d'

theorem endsValue_writeItems (items : List Json) (rest : List Char) :
    endsValue (writeItems items ++ rest) = true := by
  cases items <;> rfl

theorem endsValue_writeMembers (members : List (String × Json)) (rest : List Char) :
    endsValue (writeMembers members ++ rest) = true := by
  cases members <;> rfl

theorem eq_of_endsValue {c : Char} {rest : List Char} (ends : endsValue (c :: rest) = true) :
    c = ',' ∨ c = ']' ∨ c = '\x7d' := by
  simpa [endsValue, or_assoc] using ends

/-! ## Numerals -/

/-- Only zero is written with a zero in front. -/
theorem hasLeadingZero_toDigits (n : Nat) : Numeral.hasLeadingZero (Nat.toDigits 10 n) = false := by
  rcases Nat.eq_zero_or_pos n with rfl | positive
  · rfl
  · obtain ⟨c, rest, digits, nonzero⟩ := Text.exists_toDigits_eq_cons positive
    rw [digits, Numeral.hasLeadingZero.eq_def]
    split
    · next same => exact absurd (List.cons.inj same).1 nonzero
    · rfl

/-- Digits are absorbed to the last one if what they stand for fits. -/
theorem absorb_of_digits {digits : List Char} :
    ∀ significand, Nat.ofDigitChars 10 digits significand ≤ greatestSignificand →
      absorb significand digits = (Nat.ofDigitChars 10 digits significand, 0) := by
  induction digits with
  | nil => exact fun significand _ => rfl
  | cons c digits ih =>
    intro significand fits
    rw [Nat.ofDigitChars_cons] at fits ⊢
    have next_fits : 10 * significand + digitValue c ≤ greatestSignificand :=
      (Text.le_ofDigitChars digits _).trans fits
    rw [absorb]
    simp only [if_pos next_fits]
    exact ih _ fits

section Numerals

variable {rest : List Char} (ends : endsValue rest = true)
include ends

theorem readDigits_toDigits (n : Nat) :
    Numeral.readDigits (Nat.toDigits 10 n ++ rest) = some (Nat.toDigits 10 n, rest) := by
  have numeral : ∀ c ∈ Nat.toDigits 10 n, c.isDigit = true := fun c =>
    Text.isDigit_of_mem_toDigits
  have stops : rest.takeWhile Char.isDigit = [] ∧ rest.dropWhile Char.isDigit = rest := by
    cases rest with
    | nil => exact ⟨rfl, rfl⟩
    | cons c after =>
      have no_digit : c.isDigit = false := by
        rcases eq_of_endsValue ends with rfl | rfl | rfl <;> rfl
      simp [no_digit]
  have some_digits : (Nat.toDigits 10 n).isEmpty = false := by
    simp [Nat.toDigits_ne_nil]
  rw [Numeral.readDigits, List.takeWhile_append_of_pos numeral,
    List.dropWhile_append_of_pos numeral, stops.1, stops.2, List.append_nil]
  simp [some_digits]

theorem readPlaces_of_endsValue : Numeral.readPlaces rest = some ([], rest) := by
  unfold Numeral.readPlaces
  split
  · rcases eq_of_endsValue ends with same | same | same <;> cases same
  · rfl

theorem readExponent_of_endsValue : Numeral.readExponent rest = some (none, rest) := by
  cases rest with
  | nil => rfl
  | cons c after => rcases eq_of_endsValue ends with rfl | rfl | rfl <;> rfl

/-- A plain numeral is read back from its sign and digits. -/
theorem numeral_read?_append (sign : List Char) (negative : Bool) (n : Nat)
    (signed : Numeral.readMinus (sign ++ (Nat.toDigits 10 n ++ rest)) =
      (negative, Nat.toDigits 10 n ++ rest)) :
    Numeral.read? (sign ++ (Nat.toDigits 10 n ++ rest)) =
      some (⟨negative, Nat.toDigits 10 n, [], none⟩, rest) := by
  have whole : Numeral.readWhole (Nat.toDigits 10 n ++ rest) = some (Nat.toDigits 10 n, rest) := by
    simp [Numeral.readWhole, readDigits_toDigits ends, hasLeadingZero_toDigits]
  simp [Numeral.read?, signed, whole, readPlaces_of_endsValue ends, readExponent_of_endsValue ends]

end Numerals

/-- The numeral of an exact number stands for it. -/
theorem numeral_value?_of_isExact {n : Int} (exact_number : (Number.int n).IsExact) :
    Numeral.value? ⟨n < 0, Nat.toDigits 10 n.natAbs, [], none⟩ = some (.int n) := by
  obtain ⟨least, greatest⟩ := exact_number
  have absorbed : absorb 0 (Nat.toDigits 10 n.natAbs) = (n.natAbs, 0) := by
    have value : Nat.ofDigitChars 10 (Nat.toDigits 10 n.natAbs) 0 = n.natAbs :=
      Nat.ofDigitChars_ten_toDigits
    rw [absorb_of_digits, value]
    rw [value, greatestSignificand]
    omega
  simp only [Numeral.value?, absorbed]
  rcases Int.lt_or_le n 0 with negative | positive
  · have fits : 0 < n.natAbs ∧ n.natAbs ≤ 0x8000000000000000 := by omega
    simp [negative, fits, abs_of_neg negative]
  · have same : (n.natAbs : Int) = n := by omega
    simp [Int.not_lt.mpr positive, same]

/-! ## Strings -/

theorem readString_quote (rest : List Char) : readString ('\x22' :: rest) = some (some [], rest) := by
  rw [readString, if_pos rfl]

theorem readString_backslash {rest after : List Char} {c : Char}
    (escaped : readEscape rest = some (some c, after)) :
    readString ('\\' :: rest) =
      (readString after).map fun (content, rest) => (content.map (c :: ·), rest) := by
  rw [readString, if_neg (by decide), if_pos rfl]
  split
  · next none => rw [none] at escaped; cases escaped
  · next found =>
    rw [escaped] at found
    cases found
    rfl

theorem hexValue?_hexDigit : ∀ n < 16, hexValue? (hexDigit n) = some n := by decide

/-- A control character is read from four hexadecimal digits. -/
theorem readEscape_control {c : Char} (control : c.toNat < 0x20) (rest : List Char) :
    readEscape ('u' :: '0' :: '0' :: hexDigit (c.toNat / 16) :: hexDigit (c.toNat % 16) :: rest) =
      some (some c, rest) := by
  have high := hexValue?_hexDigit (c.toNat / 16) (by omega)
  have low := hexValue?_hexDigit (c.toNat % 16) (by omega)
  have zero : hexValue? '0' = some 0 := by decide
  have unit : c.toNat / 16 * 16 + c.toNat % 16 = c.toNat := by omega
  have read : readUnit ('0' :: '0' :: hexDigit (c.toNat / 16) :: hexDigit (c.toNat % 16) :: rest) =
      some (c.toNat, rest) := by
    simp [readUnit, high, low, zero, unit]
  have alone : isLowSurrogate c.toNat = false ∧ isHighSurrogate c.toNat = false := by
    simp [isLowSurrogate, isHighSurrogate]
    omega
  rw [readEscape, if_pos rfl, read]
  simp [unitChar, alone, Char.ofNat_toNat]

/-- A written character is read as that character. -/
theorem readString_escape (c : Char) (rest : List Char) :
    readString (escape c ++ rest) =
      (readString rest).map fun (content, rest) => (content.map (c :: ·), rest) := by
  unfold escape
  split
  · next same => subst same; exact readString_backslash (by rfl)
  split
  · next same => subst same; exact readString_backslash (by rfl)
  split
  · next same => subst same; exact readString_backslash (by rfl)
  split
  · next same => subst same; exact readString_backslash (by rfl)
  split
  · next same => subst same; exact readString_backslash (by rfl)
  split
  · next same => subst same; exact readString_backslash (by rfl)
  split
  · next same => subst same; exact readString_backslash (by rfl)
  split
  · next control => exact readString_backslash (readEscape_control control rest)
  · next not_quote not_backslash _ _ _ _ _ plain =>
    rw [List.singleton_append, readString, if_neg not_quote, if_neg not_backslash, if_neg plain]

theorem readString_flatMap_escape (text rest : List Char) :
    readString (text.flatMap escape ++ '\x22' :: rest) = some (some text, rest) := by
  induction text with
  | nil => exact readString_quote rest
  | cons c text ih =>
    rw [List.flatMap_cons, List.append_assoc, readString_escape, ih]
    rfl

/-! ## Values -/

/-- A token at the front of a text is the first of its tokens. -/
theorem tokens_of_read? {c : Char} {rest after : List Char} {token : Token}
    (visible : isSpace c = false) (read : Token.read? c rest = some (token, after)) :
    tokens (c :: rest) = token :: tokens after := by
  rw [tokens, if_neg (by rw [visible]; exact Bool.false_ne_true)]
  split
  · next none => rw [none] at read; cases read
  · next found =>
    rw [read] at found
    cases found
    rfl

/-- A symbol of one character is a token. -/
theorem tokens_of_ofChar? {c : Char} {token : Token} (known : Token.ofChar? c = some token)
    (visible : isSpace c = false) (rest : List Char) : tokens (c :: rest) = token :: tokens rest :=
  tokens_of_read? visible (by rw [Token.read?, known])

theorem tokens_quoteText (text rest : List Char) :
    tokens (quoteText text ++ rest) = .string (some text) :: tokens rest := by
  rw [quoteText, List.cons_append, List.append_assoc, List.singleton_append]
  refine tokens_of_read? (by rfl) ?_
  have no_symbol : Token.ofChar? '\x22' = none := by decide
  rw [Token.read?, no_symbol]
  simp [readString_flatMap_escape]

/-- A token that begins like a numeral is a numeral. -/
theorem token_read?_of_numeral {c : Char} (front : c = '-' ∨ c.isDigit = true) (rest : List Char) :
    isSpace c = false ∧ Token.read? c rest =
      (Numeral.read? (c :: rest)).map fun (numeral, rest) => (.number numeral.value?, rest) := by
  have other (symbol : Char) (no_front : (symbol == '-' || symbol.isDigit) = false) :
      c ≠ symbol := by
    rintro rfl
    simp_all
  have no_symbol : Token.ofChar? c = none := by
    simp [Token.ofChar?, other '\x7b' rfl, other '\x7d' rfl, other '[' rfl, other ']' rfl,
      other ',' rfl, other ':' rfl]
  constructor
  · simp [isSpace, other ' ' rfl, other '\n' rfl, other '\t' rfl, other '\x0d' rfl]
  · rw [Token.read?, no_symbol]
    simp only [if_neg (other '\x22' rfl), if_pos front]

theorem tokens_write_number {n : Number} (exact_number : n.IsExact) {rest : List Char}
    (ends : endsValue rest = true) :
    tokens (n.write ++ rest) = .number (some n) :: tokens rest := by
  cases n with
  | float x => exact exact_number.elim
  | int n =>
    have value := numeral_value?_of_isExact exact_number
    obtain ⟨digit, digits, same⟩ := List.exists_cons_of_ne_nil (@Nat.toDigits_ne_nil n.natAbs 10)
    have is_digit : digit.isDigit = true :=
      Text.isDigit_of_mem_toDigits (same ▸ List.mem_cons_self)
    rw [Number.write, Text.toList_toString_int]
    rcases Int.lt_or_le n 0 with negative | positive
    · obtain ⟨visible, read⟩ := token_read?_of_numeral (.inl rfl) (Nat.toDigits 10 n.natAbs ++ rest)
      have numeral := numeral_read?_append ends ['-'] true n.natAbs rfl
      rw [if_pos negative, List.append_assoc]
      refine tokens_of_read? visible (read.trans ?_)
      rw [← List.singleton_append, numeral]
      simpa [negative] using value
    · obtain ⟨visible, read⟩ := token_read?_of_numeral (.inr is_digit) (digits ++ rest)
      have unsigned : Numeral.readMinus (digit :: (digits ++ rest)) =
          (false, digit :: (digits ++ rest)) := by
        unfold Numeral.readMinus
        split
        · next minus => cases minus; cases is_digit
        · rfl
      have numeral := numeral_read?_append ends [] false n.natAbs
        (by simpa [same] using unsigned)
      rw [same] at numeral value
      rw [if_neg (Int.not_lt.mpr positive), List.nil_append, same, List.cons_append]
      refine tokens_of_read? visible (read.trans ?_)
      rw [List.nil_append, List.cons_append] at numeral
      rw [numeral]
      simpa [Int.not_lt.mpr positive] using value

mutual

/-- **A written value is read as its tokens**, in front of anything that can
follow a value. -/
theorem tokens_write : ∀ {json : Json}, IsExact json → ∀ {rest : List Char},
    endsValue rest = true → tokens (write json ++ rest) = spelled json ++ tokens rest
  | .null, _, rest, _ => tokens_of_read? (by rfl) (by rfl)
  | .bool true, _, rest, _ => tokens_of_read? (by rfl) (by rfl)
  | .bool false, _, rest, _ => tokens_of_read? (by rfl) (by rfl)
  | .number n, exact_number, rest, ends => tokens_write_number exact_number ends
  | .string text, _, rest, _ => tokens_quoteText text.toList rest
  | .array [], _, rest, _ => by
    rw [write, List.cons_append, tokens_of_ofChar? (by rfl) (by rfl), List.singleton_append,
      tokens_of_ofChar? (by rfl) (by rfl)]
    rfl
  | .array (item :: items), ⟨first, others⟩, rest, ends => by
    rw [write, List.cons_append, List.append_assoc, tokens_of_ofChar? (by rfl) (by rfl),
      tokens_write first (endsValue_writeItems items rest), tokens_writeItems others ends, spelled,
      List.cons_append, List.append_assoc]
  | .object [], _, rest, _ => by
    rw [write, List.cons_append, tokens_of_ofChar? (by rfl) (by rfl), List.singleton_append,
      tokens_of_ofChar? (by rfl) (by rfl)]
    rfl
  | .object ((name, value) :: members), ⟨first, others⟩, rest, ends => by
    rw [write, List.cons_append, tokens_of_ofChar? (by rfl) (by rfl), List.append_assoc,
      tokens_quoteText, List.cons_append, tokens_of_ofChar? (by rfl) (by rfl), List.append_assoc,
      tokens_write first (endsValue_writeMembers members rest), tokens_writeMembers others ends,
      spelled]
    simp only [List.cons_append, List.append_assoc]

/-- The items after the first are read as their tokens. -/
theorem tokens_writeItems : ∀ {items : List Json}, ItemsAreExact items → ∀ {rest : List Char},
    endsValue rest = true → tokens (writeItems items ++ rest) = spelledItems items ++ tokens rest
  | [], _, rest, _ => tokens_of_ofChar? (by rfl) (by rfl) rest
  | item :: items, ⟨first, others⟩, rest, ends => by
    rw [writeItems, List.cons_append, List.append_assoc, tokens_of_ofChar? (by rfl) (by rfl),
      tokens_write first (endsValue_writeItems items rest), tokens_writeItems others ends,
      spelledItems, List.cons_append, List.append_assoc]

/-- The members after the first are read as their tokens. -/
theorem tokens_writeMembers : ∀ {members : List (String × Json)}, MembersAreExact members →
    ∀ {rest : List Char}, endsValue rest = true →
      tokens (writeMembers members ++ rest) = spelledMembers members ++ tokens rest
  | [], _, rest, _ => tokens_of_ofChar? (by rfl) (by rfl) rest
  | (name, value) :: members, ⟨first, others⟩, rest, ends => by
    rw [writeMembers, List.cons_append, tokens_of_ofChar? (by rfl) (by rfl), List.append_assoc,
      tokens_quoteText, List.cons_append, tokens_of_ofChar? (by rfl) (by rfl), List.append_assoc,
      tokens_write first (endsValue_writeMembers members rest), tokens_writeMembers others ends,
      spelledMembers]
    simp only [List.cons_append, List.append_assoc]

end

end FormulaStepper.Json
