import FormulaStepper.Decimal.Layout
import FormulaStepper.Value.Basic

/-!
# The text of values

`Value.debugText` is the form shown in stack, trace and results: strings stand
in single quotes, lists in brackets. `Value.text` is the form that string
concatenation uses; it differs for strings alone, which stand for themselves.
-/

set_option autoImplicit false

namespace FormulaStepper

/-- Whole decimals are written with all their digits and `.0`, other decimals
with the fewest digits that read back, always without an exponent. -/
def Value.decimalLayout : Decimal.Layout where
  tie := .up
  exactWhole := true
  wholeMark := ['.', '0']
  positional := fun _ => true
  powerSign := []

namespace Value

mutual

/-- The form of a value in stack, trace and results. -/
def debugText : Value → String
  | .null => "null()"
  | .int n => toString n.toInt
  | .decimal x => decimalLayout.writeFloat x
  | .string text => "'" ++ text ++ "'"
  | .list items => "[" ++ ", ".intercalate (debugTexts items) ++ "]"

/-- The forms of the elements of a list. -/
def debugTexts : List Value → List String
  | [] => []
  | item :: items => debugText item :: debugTexts items

end

/-- The form of a value inside other text. -/
def text : Value → String
  | .string content => content
  | value => value.debugText

theorem debugTexts_eq_map (items : List Value) : debugTexts items = items.map debugText := by
  induction items with
  | nil => rfl
  | cons item items ih => simp [debugTexts, ih]

end Value

end FormulaStepper
