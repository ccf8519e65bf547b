import ActionCalls.Text.Pattern
import ActionCalls.Text.Word

/-!
# Package clauses and imports

A file names its package in a clause `package a.b;` and the names it uses from elsewhere in import
clauses `import a.b.C;` or `import a.b.*;`. Both are found by their shape alone, wherever it stands
in the text.
-/

namespace ActionCalls.Source

/-- Can the character stand in a dotted name? -/
def isDotted (c : Char) : Bool :=
  isWord c || c == '.'

/-- A non-empty run of word characters and dots, and what stands behind it. -/
def dottedName? (s : Text) : Option (Text × Text) :=
  match s.takeWhile isDotted with
  | [] => none
  | name => some (name, s.dropWhile isDotted)

/-- The text behind a semicolon that may have blanks before it. -/
def afterSemicolon? (s : Text) : Option Text :=
  s.skipBlanks.after? [';']

/-- The dotted name between the keyword of a package clause and its semicolon. -/
def packageClause : Pattern Text := fun _ s => do
  let s ← s.after? "package".toList
  let s ← s.afterBlanks?
  let (name, s) ← dottedName? s
  return (name, ← afterSemicolon? s)

/-- The dotted name of an import clause, with the star that may close it. -/
def importClause : Pattern Text := fun _ s => do
  let s ← s.after? "import".toList
  let s ← s.afterBlanks?
  let (name, s) ← dottedName? s
  match s.after? ['*'] with
  | some s => return (name ++ ['*'], ← afterSemicolon? s)
  | none => return (name, ← afterSemicolon? s)

/-- The package that a file declares: that of the first package clause. -/
def packageName? (s : Text) : Option String :=
  (packageClause.first? s).map String.ofList

/-- The imports of a file in their order, each one once. -/
def imports (s : Text) : List String :=
  ((importClause.all s).map String.ofList).eraseDups

end ActionCalls.Source
