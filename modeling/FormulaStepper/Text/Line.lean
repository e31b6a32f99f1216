import FormulaStepper.Text.Blank

/-!
# Lines of bytes

A line goes up to and including the next line feed, or to the end of the
input. The rest of the input is shorter unless there is no line at all, so
reading line by line comes to an end.
-/

set_option autoImplicit false

namespace FormulaStepper.Text

/-- The line at the front of the bytes, and the bytes after it. -/
def nextLine : List UInt8 → List UInt8 × List UInt8
  | [] => ([], [])
  | byte :: rest =>
    if byte = 10 then ([byte], rest)
    else
      let (line, rest) := nextLine rest
      (byte :: line, rest)

/-- Whether a character ends a line. -/
def isLineEnd (c : Char) : Bool :=
  c == '\n' || c == '\x0d'

/-- A line without the characters that end it. -/
def trimLineEnd (line : List Char) : List Char :=
  trimEndBy isLineEnd line

theorem nextLine_append (bytes : List UInt8) :
    (nextLine bytes).1 ++ (nextLine bytes).2 = bytes := by
  induction bytes with
  | nil => rfl
  | cons byte rest ih =>
    simp only [nextLine]
    split
    · rfl
    · simp only [List.cons_append, ih]

theorem length_nextLine_le (bytes : List UInt8) :
    (nextLine bytes).2.length ≤ bytes.length := by
  have total := congrArg List.length (nextLine_append bytes)
  rw [List.length_append] at total
  omega

/-- Some of the bytes belong to the line. -/
theorem length_nextLine_lt (byte : UInt8) (rest : List UInt8) :
    (nextLine (byte :: rest)).2.length < (byte :: rest).length := by
  simp only [nextLine]
  split
  · exact Nat.lt_succ_self _
  · exact Nat.lt_succ_of_le (length_nextLine_le rest)

end FormulaStepper.Text
