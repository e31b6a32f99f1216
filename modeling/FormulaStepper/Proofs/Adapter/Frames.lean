import FormulaStepper.Adapter.Framing
import FormulaStepper.Proofs.Text.Bytes
import FormulaStepper.Proofs.Text.Digits

/-!
# Frames

What is sent is a sequence of frames. A frame is a header with the number of
bytes of its body in decimal, an empty line, and the body (`framed`). The body
of a message is its JSON text. A reader that meets a frame finds the length of
its body and stands at the first byte of it, whatever the body is and whatever
comes after the frame (`readHeaders_framed`).
-/

set_option autoImplicit false

namespace FormulaStepper.Adapter

open Json Text

section Sizes

/-- Digits are read as the number that they stand for, as long as it is a
size: what the first digits stand for is not greater. -/
theorem readSizeFrom_of_digits {digits : List Char} (numeral : ∀ c ∈ digits, c.isDigit = true) :
    ∀ size, Nat.ofDigitChars 10 digits size ≤ greatestSize →
      readSizeFrom size digits = .ok (Nat.ofDigitChars 10 digits size) := by
  induction digits with
  | nil => exact fun size _ => rfl
  | cons c digits ih =>
    intro size fits
    rw [Nat.ofDigitChars_cons] at fits ⊢
    rw [readSizeFrom, if_pos (numeral c List.mem_cons_self)]
    dsimp only [digitValue]
    rw [if_pos ((le_ofDigitChars digits _).trans fits)]
    exact ih (fun other member => numeral other (List.mem_cons_of_mem c member)) _ fits

/-- A size is read back from its digits. -/
theorem readSize_toDigits {size : Nat} (fits : size ≤ greatestSize) :
    readSize (Nat.toDigits 10 size) = .ok size := by
  have numeral : ∀ c ∈ Nat.toDigits 10 size, c.isDigit = true := fun c => isDigit_of_mem_toDigits
  have value : Nat.ofDigitChars 10 (Nat.toDigits 10 size) 0 = size :=
    Nat.ofDigitChars_toDigits (by decide) (by decide)
  have read := readSizeFrom_of_digits numeral 0 (value.symm ▸ fits)
  rw [value] at read
  have nonempty : Nat.toDigits 10 size ≠ [] := Nat.toDigits_ne_nil
  generalize Nat.toDigits 10 size = digits at numeral read nonempty
  cases digits with
  | nil => exact absurd rfl nonempty
  | cons c digits =>
    have unsigned : c ≠ '+' := by
      rintro rfl
      exact absurd (numeral '+' List.mem_cons_self) (by decide)
    rw [readSize]
    · exact read
    · exact fun empty => nonempty empty
    · exact fun alone => unsigned (List.cons.inj alone).1
    · exact fun _ signed => unsigned (List.cons.inj signed).1

end Sizes

section Headers

theorem afterHeader?_append (header text : List Char) :
    afterHeader? header (header ++ text) = some text := by
  induction header with
  | nil => cases text <;> rfl
  | cons c header ih => rw [List.cons_append, afterHeader?, if_pos rfl, ih]

/-- A text without blanks is what is left of it after a blank. -/
theorem trim_blank_cons {text : List Char} (kept : ∀ c ∈ text, isBlank c = false) :
    trim (' ' :: text) = text := by
  have front : (' ' :: text).dropWhile isBlank = text := by
    rw [List.dropWhile_cons_of_pos (by decide)]
    cases text with
    | nil => rfl
    | cons c rest => exact List.dropWhile_cons_of_neg (by simp [kept])
  rw [trim, front]
  exact trimEndBy_eq_self kept

/-- The end of a header line. -/
def lineEnd : List Char := ['\x0d', '\n']

theorem append_lineEnd (text : List Char) : text ++ lineEnd = text ++ ['\x0d'] ++ ['\n'] := by
  simp [lineEnd]

/-- The header that announces a length, without the end of the line. -/
def announcement (length : Nat) : List Char :=
  lengthHeader ++ ' ' :: Nat.toDigits 10 length

theorem isLineEnd_of_isDigit {c : Char} (digit : c.isDigit = true) : isLineEnd c = false := by
  rw [isLineEnd, Bool.or_eq_false_iff, beq_eq_false_iff_ne, beq_eq_false_iff_ne]
  constructor <;> rintro rfl <;> exact absurd digit (by decide)

theorem isLineEnd_announcement {length : Nat} :
    ∀ c ∈ announcement length, isLineEnd c = false := by
  intro c member
  rcases List.mem_append.mp member with inside | inside
  · have header : lengthHeader.any isLineEnd = false := by decide
    exact Bool.eq_false_of_not_eq_true (List.any_eq_false.mp header c inside)
  · rcases List.mem_cons.mp inside with rfl | digit
    · rfl
    · exact isLineEnd_of_isDigit (isDigit_of_mem_toDigits digit)

/-- The header of a length, with its line end, is read as that length. -/
theorem readHeader_announcement {length : Nat} (fits : length ≤ greatestSize) :
    readHeader (Utf8.encode (announcement length ++ lineEnd)) = .ok (.length length) := by
  have ending : trimLineEnd (announcement length ++ lineEnd) = announcement length := by
    rw [append_lineEnd, trimLineEnd, trimEndBy_append_blank (by decide),
      trimEndBy_append_blank (by decide)]
    exact trimEndBy_eq_self isLineEnd_announcement
  have written : afterHeader? lengthHeader (announcement length) =
      some (' ' :: Nat.toDigits 10 length) := afterHeader?_append _ _
  have size : readSize (trim (' ' :: Nat.toDigits 10 length)) = .ok length := by
    rw [trim_blank_cons fun c member => isBlank_of_isDigit (isDigit_of_mem_toDigits member)]
    exact readSize_toDigits fits
  rw [readHeader, Utf8.decode?_encode]
  dsimp only
  rw [ending]
  split
  · next empty => simp [announcement] at empty
  · rw [written]
    dsimp only
    rw [size]
    rfl

end Headers

/-- A body with its header: the number of its bytes, and an empty line. -/
def framed (body : List UInt8) : List UInt8 :=
  Utf8.encode (announcement body.length ++ lineEnd) ++ (Utf8.encode lineEnd ++ body)

/-- A text with its header is a frame around its bytes. -/
theorem encode_frame (text : List Char) : Utf8.encode (frame text) = framed (Utf8.encode text) := by
  have digits : (toString (Utf8.size text)).toList = Nat.toDigits 10 (Utf8.encode text).length := by
    rw [Utf8.size_eq_length, Nat.toString_eq_ofList_toDigits, String.toList_ofList]
  rw [frame, framed, announcement, lineEnd, digits]
  simp only [← Utf8.encode_append, List.append_assoc, List.cons_append, List.nil_append]

theorem encode_lineEnd_ne_nil (text : List Char) (rest : List UInt8) :
    Utf8.encode (text ++ lineEnd) ++ rest ≠ [] := by
  simp [lineEnd, Utf8.encode, String.utf8EncodeChar]

section Lines

variable {text : List Char} (inside : '\n' ∉ text) (rest : List UInt8)
include inside

/-- A text with a line end is the first line of the bytes that begin with it. -/
theorem nextLine_encode_lineEnd :
    nextLine (Utf8.encode (text ++ lineEnd) ++ rest) =
      (Utf8.encode (text ++ lineEnd), rest) := by
  rw [append_lineEnd]
  exact nextLine_encode rest (by simp [inside])

/-- A reader of headers takes note of a length. -/
theorem readHeaders_of_length {size : Nat} (length : Option Nat)
    (header : readHeader (Utf8.encode (text ++ lineEnd)) = .ok (.length size)) :
    readHeaders length (Utf8.encode (text ++ lineEnd) ++ rest) = readHeaders (some size) rest := by
  have front := nextLine_encode_lineEnd inside rest
  rw [readHeaders.eq_def]
  split
  · next empty => exact absurd empty (encode_lineEnd_ne_nil text rest)
  · next byte more bytes => simp only [← bytes, front, header]

/-- A reader of headers that has a length stops after an empty line. -/
theorem readHeaders_of_blank (size : Nat)
    (header : readHeader (Utf8.encode (text ++ lineEnd)) = .ok .blank) :
    readHeaders (some size) (Utf8.encode (text ++ lineEnd) ++ rest) = .ok (some (size, rest)) := by
  have front := nextLine_encode_lineEnd inside rest
  rw [readHeaders.eq_def]
  split
  · next empty => exact absurd empty (encode_lineEnd_ne_nil text rest)
  · next byte more bytes => simp only [← bytes, front, header]

end Lines

/-- A reader of headers finds the length of the body of a frame, and stands at
the body. -/
theorem readHeaders_framed {body : List UInt8} (rest : List UInt8)
    (fits : body.length ≤ greatestSize) :
    readHeaders none (framed body ++ rest) = .ok (some (body.length, body ++ rest)) := by
  have inside : '\n' ∉ announcement body.length := fun member =>
    absurd (isLineEnd_announcement '\n' member) (by decide)
  have empty_line : readHeader (Utf8.encode ([] ++ lineEnd)) = .ok .blank := by decide
  rw [framed, List.append_assoc,
    readHeaders_of_length inside _ _ (readHeader_announcement fits), List.append_assoc]
  exact readHeaders_of_blank List.not_mem_nil _ _ empty_line

/-- Bytes that a reader of headers takes apart into bodies, with nothing left
over. -/
inductive Frames : List UInt8 → List (List UInt8) → Prop where
  | none : Frames [] []
  | one {bytes body rest : List UInt8} {bodies : List (List UInt8)}
      (headers : readHeaders none bytes = .ok (some (body.length, body ++ rest)))
      (further : Frames rest bodies) : Frames bytes (body :: bodies)

theorem frames_flatMap_framed (bodies : List (List UInt8))
    (fit : ∀ body ∈ bodies, body.length ≤ greatestSize) : Frames (bodies.flatMap framed) bodies := by
  induction bodies with
  | nil => exact .none
  | cons body bodies ih =>
    rw [List.forall_mem_cons] at fit
    rw [List.flatMap_cons]
    exact .one (readHeaders_framed _ fit.1) (ih fit.2)

/-- The bytes of a message: its JSON text. -/
def Message.body (message : Message) : List UInt8 :=
  Utf8.encode message.toJson.write

theorem encode_wire (message : Message) :
    Utf8.encode message.wire.toList = framed message.body := by
  rw [Message.wire, String.toList_ofList, encode_frame, Message.body]

end FormulaStepper.Adapter
