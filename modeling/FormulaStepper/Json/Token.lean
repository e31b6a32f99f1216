import FormulaStepper.Json.Numeral

/-!
# JSON tokens

A text is read as tokens up to its end, or up to the first place where no
token can be read; the list then closes with `Token.broken`. What can be read
but has no value, a number out of range or a string with half of a surrogate
pair, is a token without value: it matters only to who asks for the value.
-/

set_option autoImplicit false

namespace FormulaStepper.Json

/-- A token of a JSON text. -/
inductive Token where
  | openBrace
  | closeBrace
  | openBracket
  | closeBracket
  | comma
  | colon
  | null
  | bool (holds : Bool)
  | number (value : Option Number)
  | string (content : Option (List Char))
  | broken
deriving Inhabited

/-- The blanks between tokens. -/
def isSpace (c : Char) : Bool :=
  c == ' ' || c == '\n' || c == '\t' || c == '\x0d'

/-- The value of a hexadecimal digit of either case. -/
def hexValue? (c : Char) : Option Nat :=
  if c.isDigit then some (c.toNat - '0'.toNat)
  else if 'a' ≤ c ∧ c ≤ 'f' then some (c.toNat - 'a'.toNat + 10)
  else if 'A' ≤ c ∧ c ≤ 'F' then some (c.toNat - 'A'.toNat + 10)
  else none

/-- Reads the four hexadecimal digits of a UTF-16 unit. -/
def readUnit : List Char → Option (Nat × List Char)
  | a :: b :: c :: d :: rest => do
    let a ← hexValue? a
    let b ← hexValue? b
    let c ← hexValue? c
    let d ← hexValue? d
    some (((a * 16 + b) * 16 + c) * 16 + d, rest)
  | _ => none

/-- Whether a UTF-16 unit is the first of a pair. -/
def isHighSurrogate (unit : Nat) : Bool :=
  0xD800 ≤ unit && unit ≤ 0xDBFF

/-- Whether a UTF-16 unit is the second of a pair. -/
def isLowSurrogate (unit : Nat) : Bool :=
  0xDC00 ≤ unit && unit ≤ 0xDFFF

/-- The character of a pair of UTF-16 units. -/
def pairChar (high low : Nat) : Char :=
  Char.ofNat (0x10000 + (high - 0xD800) * 0x400 + (low - 0xDC00))

/-- Reads the second unit of a pair, with its backslash and letter. -/
def readLowSurrogate : List Char → Option (Nat × List Char)
  | '\\' :: 'u' :: digits =>
    match readUnit digits with
    | some (low, rest) => if isLowSurrogate low then some (low, rest) else none
    | none => none
  | _ => none

/-- The character that a letter after a backslash stands for. -/
def escaped? (letter : Char) : Option Char :=
  if letter = '\x22' ∨ letter = '\\' ∨ letter = '/' then some letter
  else if letter = 'b' then some '\x08'
  else if letter = 'f' then some '\x0c'
  else if letter = 'n' then some '\n'
  else if letter = 'r' then some '\x0d'
  else if letter = 't' then some '\t'
  else none

/-- The character of a UTF-16 unit and perhaps its second half. Half a pair
has none. -/
def unitChar (unit : Nat) (rest : List Char) : Option Char × List Char :=
  if isLowSurrogate unit then (none, rest)
  else if isHighSurrogate unit then
    match readLowSurrogate rest with
    | some (low, rest) => (some (pairChar unit low), rest)
    | none => (none, rest)
  else (some (Char.ofNat unit), rest)

/-- Reads on after a backslash. -/
def readEscape : List Char → Option (Option Char × List Char)
  | [] => none
  | letter :: rest =>
    if letter = 'u' then (readUnit rest).map fun (unit, rest) => unitChar unit rest
    else (escaped? letter).map fun c => (some c, rest)

theorem length_lt_of_readUnit {text rest : List Char} {unit : Nat}
    (found : readUnit text = some (unit, rest)) : rest.length < text.length := by
  unfold readUnit at found
  split at found
  · obtain ⟨_, _, found⟩ := Option.bind_eq_some_iff.mp found
    obtain ⟨_, _, found⟩ := Option.bind_eq_some_iff.mp found
    obtain ⟨_, _, found⟩ := Option.bind_eq_some_iff.mp found
    obtain ⟨_, _, found⟩ := Option.bind_eq_some_iff.mp found
    cases found
    simp only [List.length_cons]
    omega
  · cases found

theorem length_lt_of_readLowSurrogate {text rest : List Char} {low : Nat}
    (found : readLowSurrogate text = some (low, rest)) : rest.length < text.length := by
  unfold readLowSurrogate at found
  split at found
  · next digits =>
    split at found
    · next read =>
      split at found
      · cases found
        have shorter := length_lt_of_readUnit read
        simp only [List.length_cons]
        omega
      · cases found
    · cases found
  · cases found

theorem length_le_unitChar (unit : Nat) (rest : List Char) :
    (unitChar unit rest).2.length ≤ rest.length := by
  unfold unitChar
  split
  · exact Nat.le_refl _
  · split
    · split
      · next found => exact Nat.le_of_lt (length_lt_of_readLowSurrogate found)
      · exact Nat.le_refl _
    · exact Nat.le_refl _

theorem length_lt_of_readEscape {text rest : List Char} {c : Option Char}
    (found : readEscape text = some (c, rest)) : rest.length < text.length := by
  cases text with
  | nil => cases found
  | cons letter after =>
    simp only [readEscape] at found
    split at found
    · obtain ⟨⟨unit, left⟩, read, same⟩ := Option.map_eq_some_iff.mp found
      have shorter := length_lt_of_readUnit read
      have within := length_le_unitChar unit left
      have last := congrArg (fun pair : Option Char × List Char => pair.2.length) same
      simp only at last
      rw [List.length_cons]
      omega
    · obtain ⟨found, _, same⟩ := Option.map_eq_some_iff.mp found
      cases same
      exact Nat.lt_succ_self _

/-- Reads on after the quote that opens a string. A control character may not
stand in a string. -/
def readString : List Char → Option (Option (List Char) × List Char)
  | [] => none
  | c :: rest =>
    if c = '\x22' then some (some [], rest)
    else if c = '\\' then
      match escape : readEscape rest with
      | none => none
      | some (character, after) =>
        have := length_lt_of_readEscape escape
        (readString after).map fun (content, rest) =>
          (character.bind fun c => content.map (c :: ·), rest)
    else if c.toNat < 0x20 then none
    else (readString rest).map fun (content, rest) => (content.map (c :: ·), rest)
termination_by text => text.length
decreasing_by
  · exact Nat.lt_succ_of_lt this
  · exact Nat.lt_succ_self _

theorem length_lt_of_readString {text rest : List Char} {content : Option (List Char)}
    (found : readString text = some (content, rest)) : rest.length < text.length := by
  fun_induction readString text generalizing content rest with
  | case1 => cases found
  | case2 => cases found; exact Nat.lt_succ_self _
  | case3 => cases found
  | case4 c after different character left escape ih =>
    obtain ⟨⟨inner, last⟩, read, same⟩ := Option.map_eq_some_iff.mp found
    cases same
    have := ih read
    simp only [List.length_cons]
    omega
  | case5 => cases found
  | case6 c after _ _ _ ih =>
    obtain ⟨⟨inner, last⟩, read, same⟩ := Option.map_eq_some_iff.mp found
    cases same
    have := ih read
    simp only [List.length_cons]
    omega

/-- The token that one character is. -/
def Token.ofChar? (c : Char) : Option Token :=
  if c = '\x7b' then some .openBrace
  else if c = '\x7d' then some .closeBrace
  else if c = '[' then some .openBracket
  else if c = ']' then some .closeBracket
  else if c = ',' then some .comma
  else if c = ':' then some .colon
  else none

/-- Reads one of the three words. -/
def readWord : List Char → Option (Token × List Char)
  | 'n' :: 'u' :: 'l' :: 'l' :: rest => some (.null, rest)
  | 't' :: 'r' :: 'u' :: 'e' :: rest => some (.bool true, rest)
  | 'f' :: 'a' :: 'l' :: 's' :: 'e' :: rest => some (.bool false, rest)
  | _ => none

/-- Reads the token at the front of a text. -/
def Token.read? (c : Char) (rest : List Char) : Option (Token × List Char) :=
  match Token.ofChar? c with
  | some token => some (token, rest)
  | none =>
    if c = '\x22' then
      (readString rest).map fun (content, rest) => (.string content, rest)
    else if c = '-' ∨ c.isDigit then
      (Numeral.read? (c :: rest)).map fun (numeral, rest) => (.number numeral.value?, rest)
    else readWord (c :: rest)

theorem length_lt_of_readWord {text rest : List Char} {token : Token}
    (found : readWord text = some (token, rest)) : rest.length < text.length := by
  unfold readWord at found
  split at found
  all_goals cases found
  all_goals simp only [List.length_cons]; omega

theorem Token.length_lt_of_read? {c : Char} {rest after : List Char} {token : Token}
    (found : Token.read? c rest = some (token, after)) : after.length < (c :: rest).length := by
  unfold Token.read? at found
  split at found
  · cases found; exact Nat.lt_succ_self _
  · split at found
    · obtain ⟨⟨content, last⟩, read, same⟩ := Option.map_eq_some_iff.mp found
      cases same
      exact Nat.lt_succ_of_lt (length_lt_of_readString read)
    · split at found
      · obtain ⟨⟨numeral, last⟩, read, same⟩ := Option.map_eq_some_iff.mp found
        cases same
        exact Numeral.length_lt_of_read? read
      · exact length_lt_of_readWord found

/-- The tokens of a text, up to the first place where none can be read. -/
def tokens : List Char → List Token
  | [] => []
  | c :: rest =>
    if isSpace c then tokens rest
    else
      match found : Token.read? c rest with
      | none => [.broken]
      | some (token, after) =>
        have := Token.length_lt_of_read? found
        token :: tokens after
termination_by text => text.length
decreasing_by
  · exact Nat.lt_succ_self _
  · assumption

end FormulaStepper.Json
