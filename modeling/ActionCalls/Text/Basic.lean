/-!
# Texts

A text is the list of its characters, so that a scanner is a function on the list and what it
leaves is again a list. This module holds the pieces that every scanner is built from: dropping a
fixed word from the front, and cutting a text at the separators of a list.
-/

namespace ActionCalls

/-- A text, character by character. -/
abbrev Text := List Char

namespace Text

/-- What remains of a text behind a fixed word, if the text starts with that word. -/
def after? : (s word : Text) → Option Text
  | s, [] => some s
  | [], _ :: _ => none
  | c :: s, a :: word => if c = a then after? s word else none

/-- The remainder behind a fixed word is what has to be appended to that word. -/
theorem after?_eq_some_iff {s word r : Text} : s.after? word = some r ↔ s = word ++ r := by
  induction word generalizing s with
  | nil => simp [after?]
  | cons a word ih =>
      cases s with
      | nil => simp [after?]
      | cons c s => by_cases h : c = a <;> simp [after?, h, ih]

/-- Cut a text at every occurrence of a separator; `n` separators give `n + 1` pieces. -/
def splitOn (sep : Char) : Text → List Text
  | [] => [[]]
  | c :: s =>
      match splitOn sep s with
      | [] => [[c]]
      | piece :: pieces =>
          if c = sep then [] :: piece :: pieces else (c :: piece) :: pieces

/-- A text has at least one piece. -/
theorem splitOn_ne_nil (sep : Char) (s : Text) : splitOn sep s ≠ [] := by
  cases s with
  | nil => simp [splitOn]
  | cons c s =>
      simp only [splitOn]
      split
      · simp
      · split <;> simp

end Text

end ActionCalls
