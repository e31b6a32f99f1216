import FormulaStepper.Text.Line
import FormulaStepper.Text.Utf8
import Mathlib.Data.List.Basic
import Mathlib.Data.List.TakeDrop

/-!
# Text as bytes

A text is read back from its bytes. The bytes of one character say how many
they are and which character they stand for
(`Utf8.utf8EncodeChar_spec`), so a reader that meets them in front of other
bytes takes exactly them. Greater characters have greater bytes, so texts have
the same order as bytes and as characters (`Utf8.encode_lt_encode_iff`). A line
feed is a byte of no other character, so the bytes of a text without line feeds
are one line up to the next line feed.
-/

set_option autoImplicit false

namespace FormulaStepper.Text

namespace Utf8

theorem size_eq_length (text : List Char) : size text = (encode text).length := by
  induction text with
  | nil => rfl
  | cons c rest ih => rw [size, encode_cons, List.length_append, String.length_utf8EncodeChar, ih]

theorem length_le_length_encode (text : List Char) : text.length ≤ (encode text).length := by
  induction text with
  | nil => exact Nat.zero_le _
  | cons c rest ih =>
    rw [encode_cons, List.length_append, String.length_utf8EncodeChar, List.length_cons]
    have positive := c.utf8Size_pos
    omega

theorem val_toNat_lt (c : Char) : c.val.toNat < 0x110000 := by
  rcases c.valid with low | ⟨-, high⟩
  · exact Nat.lt_trans low (by decide)
  · exact high

/-- The leading byte of a character announces how many bytes there are, and
their payload is the code point. -/
theorem utf8EncodeChar_spec (c : Char) : ∃ lead trail, String.utf8EncodeChar c = lead :: trail ∧
    width lead = (lead :: trail).length ∧ codePoint (lead :: trail) = c.toNat := by
  have below := val_toNat_lt c
  have code : c.toNat = c.val.toNat := rfl
  rw [String.utf8EncodeChar, code]
  generalize c.val.toNat = code at below
  split
  · refine ⟨_, _, rfl, ?_, ?_⟩
    · rw [width, if_pos (by simp; omega)]
      rfl
    · simp [codePoint]
      omega
  · split
    · refine ⟨_, _, rfl, ?_, ?_⟩
      · rw [width, if_neg (by simp; omega), if_pos (by simp; omega)]
        rfl
      · simp [codePoint]
        omega
    · split
      · refine ⟨_, _, rfl, ?_, ?_⟩
        · rw [width, if_neg (by simp; omega), if_neg (by simp; omega), if_pos (by simp; omega)]
          rfl
        · simp [codePoint]
          omega
      · refine ⟨_, _, rfl, ?_, ?_⟩
        · rw [width, if_neg (by simp; omega), if_neg (by simp; omega), if_neg (by simp; omega)]
          rfl
        · simp [codePoint]
          omega

/-- A character is read from its bytes, whatever comes after them. -/
theorem first?_encode (c : Char) (rest : List UInt8) :
    first? (String.utf8EncodeChar c ++ rest) = some c := by
  obtain ⟨lead, trail, bytes, announced, point⟩ := utf8EncodeChar_spec c
  have head : (lead :: (trail ++ rest)).take (width lead) = lead :: trail := by
    rw [announced, ← List.cons_append, List.take_left]
  rw [bytes, List.cons_append]
  simp only [first?, head, point, Char.ofNat_toNat, bytes, if_true]

theorem decodeAtMost_encode (text : List Char) :
    ∀ count, text.length ≤ count → decodeAtMost count (encode text) = (text, []) := by
  induction text with
  | nil =>
    intro count enough
    cases count <;> rfl
  | cons c rest ih =>
    rintro (_ | count) enough
    · cases enough
    · have shorter := ih count (Nat.le_of_succ_le_succ enough)
      rw [decodeAtMost, encode_cons, first?_encode]
      dsimp only
      rw [← String.length_utf8EncodeChar, List.drop_left, shorter]

/-- A text is the longest one that its bytes begin with. -/
theorem decodeLongest_encode (text : List Char) : decodeLongest (encode text) = (text, []) :=
  decodeAtMost_encode text _ (length_le_length_encode text)

/-- A text is read back from its bytes. -/
theorem decode?_encode (text : List Char) : decode? (encode text) = some text := by
  rw [decode?, decodeLongest_encode]
  rfl

/-! ### The order of bytes -/

theorem cons_ofNat_lt_iff {a b : Nat} (small : a < 256) (also_small : b < 256)
    {first second : List UInt8} :
    UInt8.ofNat a :: first < UInt8.ofNat b :: second ↔ a < b ∨ a = b ∧ first < second := by
  rw [List.cons_lt_cons_iff, UInt8.lt_iff_toNat_lt, ← UInt8.toNat_inj, UInt8.toNat_ofNat',
    UInt8.toNat_ofNat', Nat.mod_eq_of_lt small, Nat.mod_eq_of_lt also_small]

/-- The bytes of a character are before those of a greater one. -/
theorem utf8EncodeChar_append_lt {c d : Char} (less : c < d) (first second : List UInt8) :
    String.utf8EncodeChar c ++ first < String.utf8EncodeChar d ++ second := by
  have below : c.val.toNat < d.val.toNat := less
  have last := val_toNat_lt d
  rw [String.utf8EncodeChar, String.utf8EncodeChar]
  generalize c.val.toNat = code at below
  generalize d.val.toNat = larger at below last
  have digits {n : Nat} (valid : n < 0x110000) :
      n / 64 / 64 = n / 4096 ∧ n / 4096 / 64 = n / 262144 ∧ n / 262144 % 8 = n / 262144 := by
    omega
  have own := digits (Nat.lt_trans below last)
  have others := digits last
  -- each form has the digits of the code to base 64, with a longer form marked in front
  (repeat' split) <;> simp only [List.cons_append, List.nil_append] <;>
    repeat rw [cons_ofNat_lt_iff (by omega) (by omega)]
  all_goals omega

theorem encode_lt_encode {first second : List Char} (less : first < second) :
    encode first < encode second := by
  induction less with
  | @nil c rest =>
    obtain ⟨lead, trail, bytes, -⟩ := utf8EncodeChar_spec c
    rw [encode_cons, bytes]
    exact .nil
  | rel less => exact utf8EncodeChar_append_lt less _ _
  | cons _ ih => exact List.append_left_lt ih

/-- **The order of bytes is the order of code points.** -/
theorem encode_lt_encode_iff {first second : List Char} :
    encode first < encode second ↔ first < second := by
  refine ⟨fun less => ?_, encode_lt_encode⟩
  by_contra not_less
  rcases List.le_iff_lt_or_eq.mp (List.not_lt.mp not_less) with greater | rfl
  · exact List.lt_asymm less (encode_lt_encode greater)
  · exact List.lt_irrefl _ less

/-! ### Line feeds -/

/-- A line feed is a byte of no other character. -/
theorem eq_of_lineFeed_mem {c : Char} (found : 10 ∈ String.utf8EncodeChar c) : c = '\n' := by
  have code : c.val.toNat = 10 := by
    rw [String.utf8EncodeChar] at found
    generalize c.val.toNat = code at found ⊢
    -- the bytes of the longer forms all have their highest bit set
    split at found
    · simp [← UInt8.toNat_inj] at found
      omega
    · split at found
      · simp [← UInt8.toNat_inj] at found
        omega
      · split at found <;> simp [← UInt8.toNat_inj] at found <;> omega
  exact Char.ext (UInt32.toNat_inj.mp code)

theorem lineFeed_mem_of_mem_encode {text : List Char} (found : 10 ∈ encode text) :
    '\n' ∈ text := by
  obtain ⟨c, member, inside⟩ := List.mem_flatMap.mp found
  exact eq_of_lineFeed_mem inside ▸ member

end Utf8

/-- A line goes up to the first line feed. -/
theorem nextLine_append_lineFeed {line : List UInt8} (rest : List UInt8) (inside : 10 ∉ line) :
    nextLine (line ++ 10 :: rest) = (line ++ [10], rest) := by
  induction line with
  | nil => rfl
  | cons byte line ih =>
    rw [List.mem_cons, not_or] at inside
    rw [List.cons_append, nextLine, if_neg (Ne.symm inside.1), ih inside.2]
    rfl

/-- The bytes of a text are a line if its only line feed is the last
character. -/
theorem nextLine_encode {text : List Char} (rest : List UInt8) (inside : '\n' ∉ text) :
    nextLine (Utf8.encode (text ++ ['\n']) ++ rest) = (Utf8.encode (text ++ ['\n']), rest) := by
  have lineFeed : Utf8.encode ['\n'] = [10] := by decide
  rw [Utf8.encode_append, lineFeed, List.append_assoc]
  exact nextLine_append_lineFeed rest fun found => inside (Utf8.lineFeed_mem_of_mem_encode found)

/-- A text is trimmed to itself if none of its characters is to be dropped. -/
theorem trimEndBy_eq_self {drop : Char → Bool} {text : List Char}
    (kept : ∀ c ∈ text, drop c = false) : trimEndBy drop text = text := by
  rcases List.eq_nil_or_concat text with rfl | ⟨front, last, rfl⟩
  · rfl
  · rw [List.concat_eq_append]
    exact trimEndBy_append_kept (kept last (by simp)) front

end FormulaStepper.Text
