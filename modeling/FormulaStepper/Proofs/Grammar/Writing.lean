import FormulaStepper.Proofs.Grammar.Spacing
import FormulaStepper.Proofs.Text.Digits

/-!
# Writing tokens

A token list as text: integers with their digits, strings in quotes with every
quote inside them doubled, names and symbols as they are, and one blank between
any two tokens. Reading the text gives the list back, with each token at the place
where it was written (`tokenize_writeAll`). Each token by itself is read as what it
was written for (`TokenKind.Writable.scans`), and a blank ends it, so the induction
over the list needs no more than that.
-/

set_option autoImplicit false

namespace FormulaStepper.Formula

open Text

/-- A letter or an underscore, and then letters, digits and underscores. -/
def HasNameForm (name : List Char) : Prop :=
  ∃ c more, name = c :: more ∧ isWordStart c = true ∧ ∀ d ∈ more, isWordChar d = true

namespace TokenKind

/-- The tokens that have a canonical text: integers without a sign, strings, names
that are no keywords, and symbols. -/
def Writable : TokenKind → Prop
  | .integer n => 0 ≤ n.toInt
  | .identifier name => HasNameForm name.toList ∧ name ∉ ["and", "or", "not"]
  | .string _ | .symbol _ => True
  | .decimal _ | .finish => False

/-- The canonical text of a token. -/
def write : TokenKind → List Char
  | .integer n => (toString n.toInt).toList
  | .string text => quote :: (doubled text.toList ++ [quote])
  | .identifier name => name.toList
  | .symbol sign => sign.spelling
  | .decimal _ | .finish => []

end TokenKind

/-- The tokens written one after another, with one blank between any two. -/
def writeAll (kinds : List TokenKind) : List Char :=
  [' '].intercalate (kinds.map TokenKind.write)

/-- The tokens at the places where they are written, from an offset on. -/
def placed (offset : Nat) : List TokenKind → List Token
  | [] => []
  | kind :: kinds =>
    let stop := offset + Utf8.size kind.write
    ⟨kind, ⟨offset, stop⟩⟩ :: placed (stop + 1) kinds

/-! ## One token -/

section One

variable {n : Int64} {name : String}

/-- An integer without a sign is written with its digits. -/
theorem toList_toString_of_nonneg (nonneg : 0 ≤ n.toInt) :
    (toString n.toInt).toList = Nat.toDigits 10 n.toInt.toNat := by
  have size : n.toInt.natAbs = n.toInt.toNat := by omega
  rw [toList_toString_int, if_neg (by omega), List.nil_append, size]

theorem ofDigits_toDigits (count : Nat) : ofDigits (Nat.toDigits 10 count) = count :=
  Nat.ofDigitChars_ten_toDigits

theorem scans_digits (nonneg : 0 ≤ n.toInt) :
    Scans (.integer n) (Nat.toDigits 10 n.toInt.toNat) [] := by
  have small := n.toInt_lt
  have fits : ofDigits (Nat.toDigits 10 n.toInt.toNat) ≤ greatestLiteral := by
    rw [ofDigits_toDigits, greatestLiteral]
    omega
  have same : Int64.ofNat (ofDigits (Nat.toDigits 10 n.toInt.toNat)) = n := by
    rw [ofDigits_toDigits, ← Int64.ofInt_eq_ofNat, Int.toNat_of_nonneg nonneg, Int64.ofInt_toInt]
  have scans : Scans (.integer (Int64.ofNat (ofDigits _))) _ [] :=
    .integer Nat.toDigits_ne_nil (fun _ => isDigit_of_mem_toDigits) (noneNext_nil _) rfl fits
  rwa [same] at scans

theorem wordKind_of_no_keyword (no_keyword : name ∉ ["and", "or", "not"]) :
    wordKind name.toList = .identifier name := by
  have other {symbol : Symbol} (keyword : symbol.text ∈ ["and", "or", "not"]) :
      name.toList ≠ symbol.spelling := by
    intro same
    rw [Symbol.text, ← same, String.ofList_toList] at keyword
    exact no_keyword keyword
  rw [wordKind, if_neg (other (by decide)), if_neg (other (by decide)), if_neg (other (by decide)),
    String.ofList_toList]

theorem scans_word {word : List Char} (form : HasNameForm word) :
    Scans (wordKind word) word [] := by
  obtain ⟨c, more, rfl, start, all⟩ := form
  exact .word start all (noneNext_nil _)

/-- Most symbols are read without a look at what comes next. -/
theorem scans_mark {symbol : Symbol} (single : symbol ∉ [.and, .or, .not, .less, .greater])
    (rest : List Char) : Scans (.symbol symbol) symbol.spelling rest := by
  simp only [List.mem_cons, List.not_mem_nil, or_false, not_or] at single
  refine .symbol (by simp [single]) fun short => ?_
  simp [single] at short

theorem scans_spelling (symbol : Symbol) : Scans (.symbol symbol) symbol.spelling [] := by
  have keyword (form : HasNameForm symbol.spelling)
      (same : wordKind symbol.spelling = .symbol symbol) :
      Scans (.symbol symbol) symbol.spelling [] :=
    same ▸ scans_word form
  cases symbol with
  | and | or | not => exact keyword ⟨_, _, rfl, by decide, List.all_eq_true.mp (by decide)⟩ rfl
  | _ => exact .symbol (by decide) fun _ => noneNext_nil _

theorem doubled_eq_self {content : List Char} (no_quote : quote ∉ content) :
    doubled content = content := by
  induction content with
  | nil => rfl
  | cons c content ih =>
    have other : c ≠ quote := (List.ne_of_not_mem_cons no_quote).symm
    rw [doubled_of_ne other, ih (List.not_mem_of_not_mem_cons no_quote)]

/-- **A token is read from its canonical text.** -/
theorem TokenKind.Writable.scans {kind : TokenKind} (writable : kind.Writable) :
    Scans kind kind.write [] := by
  cases kind with
  | integer n =>
    rw [write, toList_toString_of_nonneg writable]
    exact scans_digits writable
  | decimal x => exact writable.elim
  | string text =>
    have scans : Scans (.string (String.ofList text.toList)) _ [] := .string (noneNext_nil _)
    rwa [String.ofList_toList] at scans
  | identifier name =>
    have scans := scans_word writable.1
    rwa [wordKind_of_no_keyword writable.2] at scans
  | symbol sign => exact scans_spelling sign
  | finish => exact writable.elim

end One

/-! ## All tokens -/

section All

variable {kinds : List TokenKind}

theorem writeAll_cons_cons (kind next : TokenKind) (kinds : List TokenKind) :
    writeAll (kind :: next :: kinds) = kind.write ++ ' ' :: writeAll (next :: kinds) := by
  simp only [writeAll, List.map_cons, List.intercalate_cons_cons, List.append_assoc,
    List.singleton_append]

/-- **The text of a token list falls into the tokens**, each at its place. -/
theorem lexes_writeAll (writable : ∀ kind ∈ kinds, kind.Writable) (offset : Nat) :
    Lexes offset (writeAll kinds) (placed offset kinds) := by
  induction kinds generalizing offset with
  | nil => exact .none
  | cons kind kinds ih =>
    obtain ⟨first, writable⟩ := List.forall_mem_cons.mp writable
    have scans := first.scans
    cases kinds with
    | nil =>
      have lexes : Lexes offset _ [_] := scans.lexes .none
      rw [List.append_nil] at lexes
      rwa [writeAll, List.map_singleton, List.intercalate_singleton]
    | cons next kinds =>
      have separates : Separates (' ' :: writeAll (next :: kinds)) :=
        separates_cons (partsTokens_of_isBlank (by decide))
      rw [writeAll_cons_cons]
      exact (scans.of_separates separates).lexes (.blank (by decide) (ih writable _))

theorem map_kind_placed (offset : Nat) : (placed offset kinds).map Token.kind = kinds := by
  induction kinds generalizing offset with
  | nil => rfl
  | cons kind kinds ih => exact congrArg (kind :: ·) (ih _)

/-- Each token covers what was written for it, in any text around the list. -/
theorem slice_of_placed (before after : List Char) :
    ∀ token ∈ placed (Utf8.size before) kinds,
      slice (before ++ writeAll kinds ++ after) token.span = token.kind.write := by
  induction kinds generalizing before with
  | nil => exact List.forall_mem_nil _
  | cons kind kinds ih =>
    cases kinds with
    | nil =>
      rw [writeAll, List.map_singleton, List.intercalate_singleton]
      exact List.forall_mem_singleton.mpr (slice_whole_piece before kind.write after)
    | cons next kinds =>
      have head : before ++ writeAll (kind :: next :: kinds) ++ after =
          before ++ kind.write ++ (' ' :: writeAll (next :: kinds) ++ after) := by
        rw [writeAll_cons_cons]
        simp only [List.append_assoc]
      have rest : before ++ writeAll (kind :: next :: kinds) ++ after =
          (before ++ (kind.write ++ [' '])) ++ writeAll (next :: kinds) ++ after := by
        rw [writeAll_cons_cons]
        simp only [List.append_assoc, List.cons_append, List.nil_append]
      have place : Utf8.size before + Utf8.size kind.write + 1 =
          Utf8.size (before ++ (kind.write ++ [' '])) := by
        rw [Utf8.size_append, Utf8.size_append, Nat.add_assoc]
        rfl
      refine List.forall_mem_cons.mpr ⟨?_, ?_⟩
      · rw [head]
        exact slice_whole_piece before kind.write _
      · rw [rest, place]
        exact ih _

end All

/-- **Reading undoes writing.** A list of tokens that have a canonical text is
read back from the list's text, closed by the token that stands for the end. Each
token has the kind it was written for, and its span covers just what was written
for it. -/
theorem tokenize_writeAll {kinds : List TokenKind} (writable : ∀ kind ∈ kinds, kind.Writable) :
    tokenize (writeAll kinds) =
        .ok (placed 0 kinds ++
          [⟨.finish, ⟨Utf8.size (writeAll kinds), Utf8.size (writeAll kinds)⟩⟩]) ∧
      (placed 0 kinds).map Token.kind = kinds ∧
      ∀ token ∈ placed 0 kinds, slice (writeAll kinds) token.span = token.kind.write := by
  refine ⟨tokenize_eq_ok_iff.mpr ⟨_, lexes_writeAll writable 0, rfl⟩, map_kind_placed 0, ?_⟩
  have covered : ∀ token ∈ placed 0 kinds,
      slice ([] ++ writeAll kinds ++ []) token.span = token.kind.write := slice_of_placed [] []
  rwa [List.nil_append, List.append_nil] at covered

/-- A string that begins and ends with quotes, beside a name that begins like a
keyword and the greatest integer. -/
def quotedQuotes : List TokenKind :=
  [.symbol .not, .identifier "not_x1", .symbol .notEqual, .string "'é''",
    .integer 9223372036854775807]

theorem tokenize_quotedQuotes :
    tokenize "not not_x1 != '''é''''' 9223372036854775807".toList =
      .ok [⟨.symbol .not, ⟨0, 3⟩⟩, ⟨.identifier "not_x1", ⟨4, 10⟩⟩, ⟨.symbol .notEqual, ⟨11, 13⟩⟩,
        ⟨.string "'é''", ⟨14, 24⟩⟩, ⟨.integer 9223372036854775807, ⟨25, 44⟩⟩,
        ⟨.finish, ⟨44, 44⟩⟩] := by
  have writable : ∀ kind ∈ quotedQuotes, kind.Writable := by
    simp only [quotedQuotes, List.forall_mem_cons, TokenKind.Writable]
    exact ⟨trivial, ⟨⟨'n', "ot_x1".toList, rfl, by decide, List.all_eq_true.mp (by decide)⟩,
      by decide⟩, trivial, trivial, by decide, List.forall_mem_nil _⟩
  have text : writeAll quotedQuotes = "not not_x1 != '''é''''' 9223372036854775807".toList := by
    decide
  have places : placed 0 quotedQuotes = [⟨.symbol .not, ⟨0, 3⟩⟩, ⟨.identifier "not_x1", ⟨4, 10⟩⟩,
      ⟨.symbol .notEqual, ⟨11, 13⟩⟩, ⟨.string "'é''", ⟨14, 24⟩⟩,
      ⟨.integer 9223372036854775807, ⟨25, 44⟩⟩] := by
    cbv
  have read := (tokenize_writeAll writable).1
  rw [text, places] at read
  exact read

end FormulaStepper.Formula
