import ActionCalls.NameSet
import ActionCalls.Text.Pattern
import ActionCalls.Text.Word

/-!
# Annotations

An annotation is a word behind an at sign. An argument list that follows directly is part of it,
up to its first closing parenthesis, so what stands in there is not read again.
-/

namespace ActionCalls.Source

/-- The text behind an argument list that starts at the front and goes to its first closing
parenthesis. -/
def afterArguments? (s : Text) : Option Text := do
  let s ← s.after? ['(']
  Text.after? (s.dropWhile (· ≠ ')')) [')']

/-- The name of an annotation. -/
def annotationMark : Pattern Text := fun _ s => do
  let s ← s.after? ['@']
  let (name, s) ← s.word?
  return (name, (afterArguments? s).getD s)

/-- The names of all annotations in a text. -/
def annotations (s : Text) : NameSet :=
  .ofList ((annotationMark.all s).map String.ofList)

end ActionCalls.Source
