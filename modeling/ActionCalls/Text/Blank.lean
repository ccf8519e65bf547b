import ActionCalls.Text.Basic

/-!
# Blanks

The white space of the Unicode property `White_Space`: what separates words, and what is cut from
the two ends of a line or a list item.
-/

namespace ActionCalls

/-- The code points with the property `White_Space`. -/
def isBlank (c : Char) : Bool :=
  let n := c.toNat
  (9 ≤ n && n ≤ 13) || n == 0x20 || n == 0x85 || n == 0xA0 || n == 0x1680 ||
    (0x2000 ≤ n && n ≤ 0x200A) || n == 0x2028 || n == 0x2029 || n == 0x202F || n == 0x205F ||
    n == 0x3000

namespace Text

/-- A text without its leading blanks. -/
def skipBlanks (s : Text) : Text :=
  s.dropWhile isBlank

/-- What remains behind at least one blank, all blanks being taken. -/
def afterBlanks? : Text → Option Text
  | c :: s => if isBlank c then some (skipBlanks s) else none
  | [] => none

/-- A text without the blanks at its two ends. -/
def trim (s : Text) : Text :=
  (skipBlanks (skipBlanks s).reverse).reverse

end Text

end ActionCalls
