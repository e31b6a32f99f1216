/-!
# Spans of a text

Places in a formula are byte offsets into its UTF-8 form. A span is the
half-open run of bytes between two such offsets, and `slice` is the text that
it covers.
-/

set_option autoImplicit false

namespace FormulaStepper.Text

/-- The bytes from `start` up to, but not including, `stop`. -/
structure Span where
  start : Nat
  stop : Nat
deriving Repr, DecidableEq, Inhabited

namespace Span

/-- The span from the start of one to the end of another. -/
def through (first last : Span) : Span :=
  ⟨first.start, last.stop⟩

@[simp] theorem start_through (first last : Span) : (first.through last).start = first.start := rfl

@[simp] theorem stop_through (first last : Span) : (first.through last).stop = last.stop := rfl

end Span

/-- The text after its first `count` bytes. -/
def dropBytes (count : Nat) : List Char → List Char
  | [] => []
  | c :: rest => if count = 0 then c :: rest else dropBytes (count - c.utf8Size) rest

/-- The first `count` bytes of the text. -/
def takeBytes (count : Nat) : List Char → List Char
  | [] => []
  | c :: rest => if count = 0 then [] else c :: takeBytes (count - c.utf8Size) rest

/-- The text that a span covers. -/
def slice (text : List Char) (span : Span) : List Char :=
  takeBytes (span.stop - span.start) (dropBytes span.start text)

@[simp] theorem dropBytes_zero (text : List Char) : dropBytes 0 text = text := by
  cases text <;> simp [dropBytes]

@[simp] theorem takeBytes_zero (text : List Char) : takeBytes 0 text = [] := by
  cases text <;> simp [takeBytes]

end FormulaStepper.Text
