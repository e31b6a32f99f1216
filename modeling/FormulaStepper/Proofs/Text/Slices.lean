import FormulaStepper.Text.Source
import FormulaStepper.Text.Utf8

/-!
# Slices of a text

A place where a text can be cut is the number of bytes before the cut. What
lies between two cuts does not depend on what surrounds it, so a slice of a
piece of a text is a slice of the text, with the same places counted from where
the piece begins (`slice_piece`).
-/

set_option autoImplicit false

namespace FormulaStepper.Text

@[simp] theorem Utf8.size_append (first second : List Char) :
    Utf8.size (first ++ second) = Utf8.size first + Utf8.size second := by
  induction first with
  | nil => rw [List.nil_append, size, Nat.zero_add]
  | cons c first ih => rw [List.cons_append, size, ih, size, Nat.add_assoc]

theorem dropBytes_size_add (before after : List Char) (count : Nat) :
    dropBytes (Utf8.size before + count) (before ++ after) = dropBytes count after := by
  induction before with
  | nil => rw [Utf8.size, Nat.zero_add, List.nil_append]
  | cons c before ih =>
    have positive := c.utf8Size_pos
    rw [Utf8.size, List.cons_append, dropBytes, if_neg (by omega), ← ih]
    exact congrArg (dropBytes · _) (by omega)

theorem dropBytes_size (before after : List Char) :
    dropBytes (Utf8.size before) (before ++ after) = after := by
  have dropped := dropBytes_size_add before after 0
  rwa [Nat.add_zero, dropBytes_zero] at dropped

theorem takeBytes_append {text : List Char} {count : Nat} (inside : count ≤ Utf8.size text)
    (after : List Char) : takeBytes count (text ++ after) = takeBytes count text := by
  induction text generalizing count with
  | nil =>
    obtain rfl : count = 0 := Nat.le_zero.mp inside
    rw [takeBytes_zero, takeBytes_zero]
  | cons c text ih =>
    rw [Utf8.size] at inside
    rw [List.cons_append, takeBytes, takeBytes, ih (by omega)]

theorem takeBytes_size (text after : List Char) :
    takeBytes (Utf8.size text) (text ++ after) = text := by
  induction text with
  | nil => rw [Utf8.size, takeBytes_zero]
  | cons c text ih =>
    have positive := c.utf8Size_pos
    rw [Utf8.size, List.cons_append, takeBytes, if_neg (by omega), Nat.add_sub_cancel_left, ih]

/-- The span with its places counted otherwise. -/
def Span.relocate (place : Nat → Nat) (span : Span) : Span :=
  ⟨place span.start, place span.stop⟩

/-- The text can be cut after this many bytes. -/
def IsCut (text : List Char) (place : Nat) : Prop :=
  ∃ before after, text = before ++ after ∧ Utf8.size before = place

theorem isCut_zero (text : List Char) : IsCut text 0 := ⟨[], text, rfl, rfl⟩

theorem IsCut.append {text : List Char} {place : Nat} (cut : IsCut text place)
    (before : List Char) : IsCut (before ++ text) (Utf8.size before + place) := by
  obtain ⟨skipped, rest, rfl, rfl⟩ := cut
  exact ⟨before ++ skipped, rest, (List.append_assoc ..).symm, Utf8.size_append ..⟩

/-- **A slice of a piece is a slice of the whole text.** -/
theorem slice_piece (before : List Char) {piece : List Char} (after : List Char)
    {start stop : Nat} (cut : IsCut piece start) (inside : stop ≤ Utf8.size piece) :
    slice (before ++ piece ++ after) ⟨Utf8.size before + start, Utf8.size before + stop⟩ =
      slice piece ⟨start, stop⟩ := by
  obtain ⟨skipped, rest, rfl, rfl⟩ := cut
  rw [Utf8.size_append] at inside
  have dropped_whole : dropBytes (Utf8.size before + Utf8.size skipped)
      (before ++ (skipped ++ rest) ++ after) = rest ++ after := by
    have dropped := dropBytes_size (before ++ skipped) (rest ++ after)
    rw [Utf8.size_append] at dropped
    simpa only [List.append_assoc] using dropped
  rw [slice, slice, dropBytes_size, dropped_whole, Nat.add_sub_add_left]
  exact takeBytes_append (by omega) after

/-- A piece is the slice where it lies. -/
theorem slice_whole_piece (before piece after : List Char) :
    slice (before ++ piece ++ after) ⟨Utf8.size before, Utf8.size before + Utf8.size piece⟩ =
      piece := by
  rw [slice, List.append_assoc, dropBytes_size, Nat.add_sub_cancel_left]
  exact takeBytes_size piece after

end FormulaStepper.Text
