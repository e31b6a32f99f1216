import FormulaStepper.Json.Basic

/-!
# JSON numerals

A numeral is an optional sign, digits without a leading zero, and perhaps a
point with digits and an exponent. A plain numeral whose digits fit an
unsigned 64-bit integer, or a signed one after a minus sign, is that integer;
minus zero is a float.

Any other numeral is a float. Its digits are collected into an unsigned 64-bit
significand for as long as they fit; of the digits before the point that do
not fit only the number counts, and those after the point are dropped. The
significand is rounded to a float and then multiplied or divided by a power of
ten. A numeral that would be infinite has no value.
-/

set_option autoImplicit false

namespace FormulaStepper.Json

/-- The exponent of a numeral. -/
structure Exponent where
  negative : Bool
  digits : List Char
deriving Repr, DecidableEq

/-- A numeral, as it is written. -/
structure Numeral where
  negative : Bool
  whole : List Char
  places : List Char
  exponent : Option Exponent
deriving Repr, DecidableEq

/-- The value of a decimal digit. -/
def digitValue (digit : Char) : Nat :=
  digit.toNat - '0'.toNat

/-- The greatest significand. -/
def greatestSignificand : Nat := 0xFFFFFFFFFFFFFFFF

/-- Adds digits to a significand until the next one does not fit, and counts
the digits that were left out. -/
def absorb (significand : Nat) : List Char → Nat × Nat
  | [] => (significand, 0)
  | digit :: digits =>
    let next := 10 * significand + digitValue digit
    if next ≤ greatestSignificand then absorb next digits
    else (significand, digits.length + 1)

/-- The greatest power of ten that is a float. -/
def greatestPower : Nat := 308

/-- A power of ten as a float. -/
def powerOfTen (exponent : Nat) : Float :=
  Float.ofScientific 1 false exponent

/-- A float divided by a power of ten, which is split where it is no float
itself. -/
def scaleDown (x : Float) (exponent : Nat) : Float :=
  if exponent ≤ greatestPower then x / powerOfTen exponent
  else if x == 0.0 then x
  else scaleDown (x / powerOfTen greatestPower) (exponent - greatestPower)
termination_by exponent
decreasing_by simp only [greatestPower] at *; omega

/-- A significand times a power of ten, unless it is infinite. -/
def scale? (significand : Nat) (exponent : Int) : Option Float :=
  let x := Float.ofNat significand
  if exponent < 0 then some (scaleDown x exponent.natAbs)
  else if greatestPower < exponent.toNat then
    if x == 0.0 then some x else none
  else
    let scaled := x * powerOfTen exponent.toNat
    if scaled.isInf then none else some scaled

/-- The greatest exponent that is computed with. -/
def greatestExponent : Nat := 0x7FFFFFFF

namespace Numeral

/-- The size of a numeral as a float, given the significand and the power of
ten that its digits make. -/
def magnitude? (significand : Nat) (power : Int) : Option Exponent → Option Float
  | none => scale? significand power
  | some ⟨negative, digits⟩ =>
    let exponent := digits.foldl (fun total digit => 10 * total + digitValue digit) 0
    if greatestExponent < exponent then
      if significand ≠ 0 ∧ !negative then none else some 0.0
    else if negative then scale? significand (power - exponent)
    else scale? significand (power + exponent)

/-- The value of a numeral, unless it is out of range. -/
def value? (numeral : Numeral) : Option Number :=
  let (whole, beyond) := absorb 0 numeral.whole
  if numeral.places.isEmpty ∧ numeral.exponent.isNone ∧ beyond = 0 then
    if !numeral.negative then some (.int whole)
    else if 0 < whole ∧ whole ≤ 0x8000000000000000 then some (.int (-whole))
    else some (.float (-(Float.ofNat whole)))
  else
    let (significand, dropped) := absorb whole numeral.places
    let taken := numeral.places.length - dropped
    (magnitude? significand (beyond - taken) numeral.exponent).map fun x =>
      .float (if numeral.negative then -x else x)

/-- Reads a run of digits, which may not be empty. -/
def readDigits (text : List Char) : Option (List Char × List Char) :=
  let digits := text.takeWhile Char.isDigit
  if digits.isEmpty then none else some (digits, text.dropWhile Char.isDigit)

/-- Reads a minus sign, if there is one. -/
def readMinus : List Char → Bool × List Char
  | '-' :: rest => (true, rest)
  | text => (false, text)

/-- Reads the sign of an exponent, if there is one. -/
def readSign : List Char → Bool × List Char
  | '-' :: rest => (true, rest)
  | '+' :: rest => (false, rest)
  | text => (false, text)

/-- Reads an exponent, if the text begins with one: the letter, a sign, at
least one digit. The result is `none` where the digits are missing. -/
def readExponent : List Char → Option (Option Exponent × List Char)
  | [] => some (none, [])
  | letter :: after =>
    if letter = 'e' ∨ letter = 'E' then
      let (negative, unsigned) := readSign after
      (readDigits unsigned).map fun (digits, rest) => (some ⟨negative, digits⟩, rest)
    else some (none, letter :: after)

/-- Reads the digits after a point, if the text begins with one. The result is
`none` where the digits are missing. -/
def readPlaces : List Char → Option (List Char × List Char)
  | '.' :: after => readDigits after
  | text => some ([], text)

/-- Whether digits begin with a zero that is not their only one. -/
def hasLeadingZero : List Char → Bool
  | '0' :: _ :: _ => true
  | _ => false

/-- Reads the digits before the point. They may be a lone zero but may not
begin with one. -/
def readWhole (text : List Char) : Option (List Char × List Char) :=
  (readDigits text).bind fun (digits, rest) =>
    if hasLeadingZero digits then none else some (digits, rest)

/-- Reads the numeral at the front of a text. -/
def read? (text : List Char) : Option (Numeral × List Char) := do
  let (negative, unsigned) := readMinus text
  let (whole, rest) ← readWhole unsigned
  let (places, rest) ← readPlaces rest
  let (exponent, rest) ← readExponent rest
  some (⟨negative, whole, places, exponent⟩, rest)

theorem length_lt_of_readDigits {text digits rest : List Char}
    (found : readDigits text = some (digits, rest)) : rest.length < text.length := by
  simp only [readDigits] at found
  split at found
  · cases found
  · next some_digits =>
    cases found
    have total := congrArg List.length (@List.takeWhile_append_dropWhile Char Char.isDigit text)
    have positive : 0 < (text.takeWhile Char.isDigit).length :=
      List.length_pos_iff.mpr (by simpa using some_digits)
    rw [List.length_append] at total
    omega

theorem length_le_readMinus (text : List Char) : (readMinus text).2.length ≤ text.length := by
  unfold readMinus
  split <;> simp

theorem length_le_readSign (text : List Char) : (readSign text).2.length ≤ text.length := by
  unfold readSign
  split <;> simp

theorem length_le_of_readExponent {text rest : List Char} {exponent : Option Exponent}
    (found : readExponent text = some (exponent, rest)) : rest.length ≤ text.length := by
  cases text with
  | nil => cases found; exact Nat.le_refl _
  | cons letter after =>
    simp only [readExponent] at found
    split at found
    · obtain ⟨⟨digits, left⟩, read, same⟩ := Option.map_eq_some_iff.mp found
      cases same
      have shorter := length_lt_of_readDigits read
      have unsigned := length_le_readSign after
      change left.length ≤ after.length + 1
      omega
    · cases found; exact Nat.le_refl _

theorem length_le_of_readPlaces {text places rest : List Char}
    (found : readPlaces text = some (places, rest)) : rest.length ≤ text.length := by
  unfold readPlaces at found
  split at found
  · exact Nat.le_of_lt (Nat.lt_succ_of_lt (length_lt_of_readDigits found))
  · cases found; exact Nat.le_refl _

theorem length_lt_of_readWhole {text whole rest : List Char}
    (found : readWhole text = some (whole, rest)) : rest.length < text.length := by
  obtain ⟨⟨digits, left⟩, read, kept⟩ := Option.bind_eq_some_iff.mp found
  simp only at kept
  split at kept
  · cases kept
  · cases kept; exact length_lt_of_readDigits read

/-- A numeral leaves less text than there was. -/
theorem length_lt_of_read? {text rest : List Char} {numeral : Numeral}
    (found : read? text = some (numeral, rest)) : rest.length < text.length := by
  simp only [read?] at found
  obtain ⟨⟨whole, afterWhole⟩, readWhole, found⟩ := Option.bind_eq_some_iff.mp found
  obtain ⟨⟨places, afterPlaces⟩, readPlaces, found⟩ := Option.bind_eq_some_iff.mp found
  obtain ⟨⟨exponent, afterExponent⟩, readExponent, found⟩ := Option.bind_eq_some_iff.mp found
  cases found
  have first := length_le_readMinus text
  have second := length_lt_of_readWhole readWhole
  have third : afterPlaces.length ≤ afterWhole.length := length_le_of_readPlaces readPlaces
  have fourth : afterExponent.length ≤ afterPlaces.length := length_le_of_readExponent readExponent
  change afterExponent.length < text.length
  omega

end Numeral

end FormulaStepper.Json
