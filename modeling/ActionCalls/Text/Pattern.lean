import ActionCalls.Text.Basic

/-!
# Patterns and their matches

A pattern reads a value at the front of a text and says what remains behind it; it may look at the
one character that stands before. The matches of a pattern in a text are found from left to right:
at the first place where it reads something, then behind what that match took, and so on. Matches
never overlap.
-/

namespace ActionCalls

/-- Reads a value at the front of a text, given the character before it, and returns the value
with the remaining text. A pattern that reads something takes at least one character. -/
abbrev Pattern (α : Type) := (before : Option Char) → (s : Text) → Option (α × Text)

/-- A value found in a text, with what stands before and behind the place where it was found. -/
structure Match (α : Type) where
  before : Text
  value : α
  after : Text
  deriving Repr, DecidableEq

namespace Pattern

/-- The matches in `s`, the first `skip` characters of which an earlier match has taken; `seen` is
what stands before `s`, nearest character first. -/
def matchesFrom (p : Pattern α) : (seen : Text) → (skip : Nat) → (s : Text) → List (Match α)
  | _, _, [] => []
  | seen, skip + 1, c :: s => matchesFrom p (c :: seen) skip s
  | seen, 0, c :: s =>
      match p seen.head? (c :: s) with
      | some (value, rest) =>
          ⟨seen.reverse, value, rest⟩ :: matchesFrom p (c :: seen) (s.length - rest.length) s
      | none => matchesFrom p (c :: seen) 0 s

/-- The matches in a text, from left to right. -/
def allMatches (p : Pattern α) (s : Text) : List (Match α) :=
  p.matchesFrom [] 0 s

/-- The values of the matches in a text, from left to right. -/
def all (p : Pattern α) (s : Text) : List α :=
  (p.allMatches s).map Match.value

/-- The value of the leftmost match in a text. -/
def first? (p : Pattern α) (s : Text) : Option α :=
  (p.all s).head?

end Pattern

end ActionCalls
