import ActionCalls.Text.Basic

/-!
# Byte offsets

Offsets into a text count the bytes of its UTF-8 form. An offset is good when it falls between two
characters; a window that reaches back a number of bytes starts at the nearest good offset at or
below that distance, so it may take up to three bytes more.
-/

namespace ActionCalls.Text

/-- The number of bytes of a text in UTF-8. -/
def byteLength : Text → Nat
  | [] => 0
  | c :: s => c.utf8Size + byteLength s

/-- What stands at and behind a byte offset; nothing when the offset is beyond the text or inside
a character. -/
def atByte? : Text → Nat → Option Text
  | s, 0 => some s
  | [], _ + 1 => none
  | c :: s, n + 1 => if c.utf8Size ≤ n + 1 then atByte? s (n + 1 - c.utf8Size) else none

/-- The shortest front part that has `n` bytes or more, or the whole text. -/
def coverBytes : (n : Nat) → Text → Text
  | 0, _ => []
  | _ + 1, [] => []
  | n + 1, c :: s => c :: coverBytes (n + 1 - c.utf8Size) s

/-- The end of a text that reaches back `n` bytes, widened to whole characters. -/
def lastBytes (n : Nat) (s : Text) : Text :=
  (coverBytes n s.reverse).reverse

@[simp] theorem byteLength_append (s t : Text) :
    byteLength (s ++ t) = byteLength s + byteLength t := by
  induction s with
  | nil => simp [byteLength]
  | cons c s ih => simp [byteLength, ih, Nat.add_assoc]

end ActionCalls.Text
