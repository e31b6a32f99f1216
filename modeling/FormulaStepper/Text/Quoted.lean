import FormulaStepper.Text.Blank
import FormulaStepper.Text.Hidden

/-!
# Text quoted in messages

A message that quotes text shows it between double quotes and on one line.
Quote and backslash stand behind a backslash, the common control characters
are shown by a letter, and every other hidden character by its code point in
braces.
-/

set_option autoImplicit false

namespace FormulaStepper.Text

/-- The code point of a character in braces. -/
def codePointText (c : Char) : List Char :=
  ['\\', 'u', '\x7b'] ++ Nat.toDigits 16 c.toNat ++ ['\x7d']

/-- A character inside quoted text. -/
def quotedChar (c : Char) : List Char :=
  if c = '\x22' then ['\\', '\x22']
  else if c = '\\' then ['\\', '\\']
  else if c = '\n' then ['\\', 'n']
  else if c = '\t' then ['\\', 't']
  else if c = '\x0d' then ['\\', 'r']
  else if c = '\x00' then ['\\', '0']
  else if inRanges hiddenRanges c.toNat then codePointText c
  else [c]

/-- Text between double quotes. -/
def quoted (text : List Char) : List Char :=
  '\x22' :: (text.flatMap quotedChar ++ ['\x22'])

end FormulaStepper.Text
