import FormulaStepper.Adapter.Message
import FormulaStepper.Text.Line
import FormulaStepper.Text.Utf8

/-!
# Framed messages

Each message is preceded by header lines and an empty line. The header
`Content-Length:` gives the number of bytes of the message; other headers are
skipped, and so are empty lines before that header. Input that ends among the
headers has no further message.
-/

set_option autoImplicit false

namespace FormulaStepper.Adapter

open Json

/-- Why digits are no size. -/
inductive SizeError where
  | empty
  | invalidDigit
  | tooLarge
deriving Repr, DecidableEq

/-- The wording of a size error. -/
def SizeError.message : SizeError → String
  | .empty => "cannot parse integer from empty string"
  | .invalidDigit => "invalid digit found in string"
  | .tooLarge => "number too large to fit in target type"

/-- Why no message can be read. -/
inductive InputError where
  /-- A header line is not UTF-8. -/
  | invalidUtf8
  /-- The length of the message is no size. -/
  | invalidLength (error : SizeError)
  /-- The input ends inside the message. -/
  | truncated
  /-- The message is none. -/
  | malformed (error : ReadError)
deriving Repr, DecidableEq

/-- The wording of an input error. -/
def InputError.message : InputError → String
  | .invalidUtf8 => "stream did not contain valid UTF-8"
  | .invalidLength error => error.message
  | .truncated => "failed to fill whole buffer"
  | .malformed error => error.message

/-- The greatest size. -/
def greatestSize : Nat := 0xFFFFFFFFFFFFFFFF

/-- Goes on reading the digits of a size. -/
def readSizeFrom (size : Nat) : List Char → Except SizeError Nat
  | [] => .ok size
  | c :: rest =>
    if c.isDigit then
      let next := 10 * size + digitValue c
      if next ≤ greatestSize then readSizeFrom next rest else .error .tooLarge
    else .error .invalidDigit

/-- Reads a size. It may have a plus sign before at least one digit. -/
def readSize (text : List Char) : Except SizeError Nat :=
  match text with
  | [] => .error .empty
  | ['+'] => .error .invalidDigit
  | '+' :: digits => readSizeFrom 0 digits
  | digits => readSizeFrom 0 digits

/-- The header before the length. -/
def lengthHeader : List Char := "Content-Length:".toList

/-- What follows some characters at the front of a text. -/
def afterHeader? : List Char → List Char → Option (List Char)
  | [], text => some text
  | _, [] => none
  | expected :: header, c :: text => if expected = c then afterHeader? header text else none

/-- What a header line says. -/
inductive Header where
  | blank
  | length (size : Nat)
  | other
deriving Repr, DecidableEq

/-- Reads a header line. -/
def readHeader (line : List UInt8) : Except InputError Header :=
  match Text.Utf8.decode? line with
  | none => .error .invalidUtf8
  | some text =>
    match Text.trimLineEnd text with
    | [] => .ok .blank
    | header =>
      match afterHeader? lengthHeader header with
      | none => .ok .other
      | some written => ((readSize (Text.trim written)).mapError .invalidLength).map .length

/-- Reads header lines up to the empty one. The result is the length of the
message and the bytes after the headers, or nothing at the end of the input. -/
def readHeaders (length : Option Nat) (bytes : List UInt8) :
    Except InputError (Option (Nat × List UInt8)) :=
  match bytes with
  | [] => .ok none
  | byte :: more =>
    let rest := (Text.nextLine (byte :: more)).2
    match readHeader (Text.nextLine (byte :: more)).1, length with
    | .error error, _ => .error error
    | .ok .blank, some length => .ok (some (length, rest))
    | .ok .blank, none => readHeaders none rest
    | .ok (.length size), _ => readHeaders (some size) rest
    | .ok .other, length => readHeaders length rest
termination_by bytes.length
decreasing_by all_goals exact Text.length_nextLine_lt byte more

/-- Headers take up some of the input. -/
theorem length_lt_of_readHeaders {length : Option Nat} {bytes rest : List UInt8} {size : Nat}
    (found : readHeaders length bytes = .ok (some (size, rest))) : rest.length < bytes.length := by
  fun_induction readHeaders length bytes with
  | case1 => cases found
  | case2 => cases found
  | case3 byte more left size read =>
    simp only [Except.ok.injEq, Option.some.injEq, Prod.mk.injEq] at found
    exact found.2 ▸ Text.length_nextLine_lt byte more
  | case4 byte more left read ih =>
    exact Nat.lt_trans (ih found) (Text.length_nextLine_lt byte more)
  | case5 length byte more left size read ih =>
    exact Nat.lt_trans (ih found) (Text.length_nextLine_lt byte more)
  | case6 byte more left length read ih =>
    exact Nat.lt_trans (ih found) (Text.length_nextLine_lt byte more)

/-- The JSON text of bytes. What is not UTF-8 cannot be read as JSON. -/
def documentOfBytes (bytes : List UInt8) : Document :=
  let (text, rest) := Text.Utf8.decodeLongest bytes
  let found := tokens text ++ (if rest.isEmpty then [] else [.broken])
  Document.ofTokens found

/-- Reads one message, and returns the bytes after it. There is none at the
end of the input. -/
def readMessage (bytes : List UInt8) : Except InputError (Option (Message × List UInt8)) :=
  match readHeaders none bytes with
  | .error error => .error error
  | .ok none => .ok none
  | .ok (some (length, rest)) =>
    if rest.length < length then .error .truncated
    else
      match Message.ofDocument (documentOfBytes (rest.take length)) with
      | .error error => .error (.malformed error)
      | .ok message => .ok (some (message, rest.drop length))

/-- A text with its header. -/
def frame (text : List Char) : List Char :=
  lengthHeader ++ ' ' :: ((toString (Text.Utf8.size text)).toList ++
    ['\x0d', '\n', '\x0d', '\n'] ++ text)

/-- A message as it is sent. -/
def Message.wire (message : Message) : String :=
  String.ofList (frame message.toJson.write)

/-- A message takes up some of the input. -/
theorem length_lt_of_readMessage {bytes rest : List UInt8} {message : Message}
    (found : readMessage bytes = .ok (some (message, rest))) : rest.length < bytes.length := by
  unfold readMessage at found
  split at found
  · cases found
  · cases found
  · next length left headers =>
    split at found
    · cases found
    · split at found
      · cases found
      · cases found
        have shorter := length_lt_of_readHeaders headers
        rw [List.length_drop]
        omega

end FormulaStepper.Adapter
