import ActionCalls.Source.Keyword
import ActionCalls.Text.Pattern
import ActionCalls.Text.Word

/-!
# Calls

A call is a whole word with an opening parenthesis behind it, blanks between them allowed. A
keyword is never called, and neither is a word that starts with an ASCII digit.
-/

namespace ActionCalls.Source

/-- A whole word with an opening parenthesis behind it. -/
def calledWord : Pattern Text := fun before s => do
  guard (Text.isBoundary before s)
  let (name, s) ← s.word?
  let s ← s.skipBlanks.after? ['(']
  return (name, s)

/-- Can the word be the name of a called method? -/
def isCallable (name : Text) : Bool :=
  !isKeyword (String.ofList name) && !name.head?.any Char.isDigit

/-- The names called in a body, in their order and with repeats. -/
def callNames (body : Text) : List String :=
  ((calledWord.all body).filter isCallable).map String.ofList

end ActionCalls.Source
