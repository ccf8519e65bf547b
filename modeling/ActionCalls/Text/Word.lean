import ActionCalls.Text.Blank
import ActionCalls.Text.WordTable

/-!
# Words

A word is a run of word characters: letters, digits, marks, connector punctuation and the join
controls of every script. A place in a text is a word boundary when exactly one of its two
neighbours is a word character.
-/

namespace ActionCalls

/-- Can the character stand in a word? -/
def isWord (c : Char) : Bool :=
  if c.toNat < 0x80 then c.isAlphanum || c == '_' else WordTable.contains c.toNat

/-- No blank can stand in a word. -/
theorem isWord_of_isBlank {c : Char} (h : isBlank c = true) : isWord c = false := by
  have listed : c.toNat ∈ [9, 10, 11, 12, 13, 0x20, 0x85, 0xA0, 0x1680, 0x2000, 0x2001, 0x2002,
      0x2003, 0x2004, 0x2005, 0x2006, 0x2007, 0x2008, 0x2009, 0x200A, 0x2028, 0x2029, 0x202F,
      0x205F, 0x3000] := by
    simp only [isBlank, Bool.or_eq_true, Bool.and_eq_true, decide_eq_true_eq, beq_iff_eq] at h
    simp only [List.mem_cons, List.not_mem_nil, or_false]
    omega
  rw [← Char.ofNat_toNat c]
  generalize c.toNat = n at listed
  revert n
  decide +kernel

namespace Text

/-- The word at the front of a text, as long as it goes. -/
def word (s : Text) : Text :=
  s.takeWhile isWord

/-- What stands behind the word at the front of a text. -/
def afterWord (s : Text) : Text :=
  s.dropWhile isWord

/-- The word at the front of a text and what stands behind it, if there is one. -/
def word? (s : Text) : Option (Text × Text) :=
  if s.word = [] then none else some (s.word, s.afterWord)

/-- Is the place between the character `before` and the text `s` a word boundary? -/
def isBoundary (before : Option Char) (s : Text) : Bool :=
  before.any isWord != s.head?.any isWord

@[simp] theorem word_append_afterWord (s : Text) : s.word ++ s.afterWord = s :=
  List.takeWhile_append_dropWhile

end Text

end ActionCalls
