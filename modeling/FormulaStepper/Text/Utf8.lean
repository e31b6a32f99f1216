/-!
# UTF-8

Text enters and leaves as bytes: scripts, configuration files and framed
messages. A character is read from the front of the bytes by working out
which code point the leading byte and its payload stand for, and accepting it
exactly when the bytes read are that character's encoding. Overlong forms,
surrogates and code points past the last one are refused by that comparison.
-/

set_option autoImplicit false

namespace FormulaStepper.Text.Utf8

/-- The bytes of a text. -/
def encode (text : List Char) : List UInt8 :=
  text.flatMap String.utf8EncodeChar

/-- The number of bytes of a text, without listing them. -/
def size : List Char → Nat
  | [] => 0
  | c :: rest => c.utf8Size + size rest

/-- How many bytes a leading byte announces, itself included. -/
def width (lead : UInt8) : Nat :=
  if lead.toNat < 0x80 then 1
  else if lead.toNat < 0xE0 then 2
  else if lead.toNat < 0xF0 then 3
  else 4

/-- The code point that the bytes of one character stand for. -/
def codePoint : List UInt8 → Nat
  | [a] => a.toNat
  | [a, b] => (a.toNat % 0x20) * 0x40 + b.toNat % 0x40
  | [a, b, c] => (a.toNat % 0x10) * 0x1000 + (b.toNat % 0x40) * 0x40 + c.toNat % 0x40
  | [a, b, c, d] =>
    (a.toNat % 0x8) * 0x40000 + (b.toNat % 0x40) * 0x1000 + (c.toNat % 0x40) * 0x40 +
      d.toNat % 0x40
  | _ => 0

/-- The character at the front of the bytes, if they begin with the encoding
of one. -/
def first? (bytes : List UInt8) : Option Char :=
  match bytes with
  | [] => none
  | lead :: _ =>
    let head := bytes.take (width lead)
    let c := Char.ofNat (codePoint head)
    if String.utf8EncodeChar c = head then some c else none

/-- The longest readable text at the front of at most `count` characters, and
the bytes after it. -/
def decodeAtMost : Nat → List UInt8 → List Char × List UInt8
  | 0, bytes => ([], bytes)
  | count + 1, bytes =>
    match first? bytes with
    | none => ([], bytes)
    | some c =>
      let (text, rest) := decodeAtMost count (bytes.drop c.utf8Size)
      (c :: text, rest)

/-- The longest readable text at the front of the bytes, and the bytes after
it. There are no more characters than bytes. -/
def decodeLongest (bytes : List UInt8) : List Char × List UInt8 :=
  decodeAtMost bytes.length bytes

/-- The text of the bytes, if all of them can be read. -/
def decode? (bytes : List UInt8) : Option (List Char) :=
  let (text, rest) := decodeLongest bytes
  if rest.isEmpty then some text else none

@[simp] theorem encode_nil : encode [] = [] := rfl

@[simp] theorem encode_cons (c : Char) (text : List Char) :
    encode (c :: text) = String.utf8EncodeChar c ++ encode text := rfl

@[simp] theorem encode_append (first second : List Char) :
    encode (first ++ second) = encode first ++ encode second :=
  List.flatMap_append

end FormulaStepper.Text.Utf8
