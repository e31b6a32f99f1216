/-!
# Blank characters

Blanks separate the tokens of a formula and are trimmed from names, header
values and command lines. A character is blank when it has the Unicode
property `White_Space`: twenty-five characters, the ASCII ones among them.
-/

set_option autoImplicit false

namespace FormulaStepper.Text

/-- The code points with the property `White_Space`, as inclusive ranges. -/
def blankRanges : List (Nat × Nat) :=
  [(0x9, 0xD), (0x20, 0x20), (0x85, 0x85), (0xA0, 0xA0), (0x1680, 0x1680), (0x2000, 0x200A),
    (0x2028, 0x2029), (0x202F, 0x202F), (0x205F, 0x205F), (0x3000, 0x3000)]

/-- Whether a code point lies in one of the inclusive ranges. -/
def inRanges (ranges : List (Nat × Nat)) (code : Nat) : Bool :=
  ranges.any fun range => range.1 ≤ code && code ≤ range.2

/-- Whether a character is blank. -/
def isBlank (c : Char) : Bool :=
  inRanges blankRanges c.toNat

/-- The text without the characters at its end that satisfy `drop`. -/
def trimEndBy (drop : Char → Bool) (text : List Char) : List Char :=
  (text.reverse.dropWhile drop).reverse

/-- The text without the blanks at its end. -/
def trimEnd (text : List Char) : List Char :=
  trimEndBy isBlank text

/-- The text without the blanks at its two ends. -/
def trim (text : List Char) : List Char :=
  trimEnd (text.dropWhile isBlank)

/-- A trimmed text has no blank at its end. -/
theorem trimEndBy_append_blank {drop : Char → Bool} {c : Char} (blank : drop c = true)
    (text : List Char) : trimEndBy drop (text ++ [c]) = trimEndBy drop text := by
  simp [trimEndBy, blank]

/-- A text that ends in a character to keep is trimmed to itself. -/
theorem trimEndBy_append_kept {drop : Char → Bool} {c : Char} (kept : drop c = false)
    (text : List Char) : trimEndBy drop (text ++ [c]) = text ++ [c] := by
  simp [trimEndBy, kept]

end FormulaStepper.Text
