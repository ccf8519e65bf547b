import ActionCalls.NameSet
import ActionCalls.Text.Pattern
import ActionCalls.Text.Word

/-!
# Class declarations

Two readings of a class declaration. `actionClass?` looks for the name of a public class or
interface that ends in a given suffix, which may be any text; `classHeader` looks for the first
class of the file, whatever its name, and takes its supertypes.
-/

namespace ActionCalls.Source

/-! ## The name of the action class -/

/-- A text behind one of two words. -/
def afterEither? (a b : String) (s : Text) : Option Text :=
  s.after? a.toList <|> s.after? b.toList

/-- Steps over the modifiers `abstract` and `final`, each with the blanks behind it. The first
argument bounds the number of steps; the length of the text is enough. -/
def skipClassModifiers : Nat → Text → Text
  | 0, s => s
  | n + 1, s =>
      match (afterEither? "abstract" "final" s).bind Text.afterBlanks? with
      | some r => skipClassModifiers n r
      | none => s

/-- The first `n` characters of `s` with the suffix behind them, if the suffix stands there and
ends at a word boundary. -/
def suffixedAt? (suffix s : Text) (n : Nat) : Option (Text × Text) := do
  let rest ← Text.after? (s.drop n) suffix
  let name := s.take n ++ suffix
  guard (Text.isBoundary name.getLast? rest)
  return (name, rest)

/-- The longest word at the front of `s`, possibly empty, that the suffix follows directly and
that forms with the suffix a name ending at a word boundary. -/
def suffixedName? (suffix s : Text) : Option (Text × Text) :=
  (List.range (s.word.length + 1)).reverse.findSome? (suffixedAt? suffix s)

/-- The name behind at least one blank. As a suffix may itself start with blanks, the separation
takes as many blanks as leave a name to be read. -/
def spacedName? (suffix s : Text) : Option (Text × Text) :=
  (List.range (s.takeWhile isBlank).length).reverse.findSome? fun n =>
    suffixedName? suffix (s.drop (n + 1))

/-- The name of a public class or interface that ends in `suffix`. -/
def actionClause (suffix : Text) : Pattern Text := fun _ s => do
  let s ← s.after? "public".toList
  let s ← s.afterBlanks?
  let s ← afterEither? "class" "interface" (skipClassModifiers s.length s)
  spacedName? suffix s

/-- The first public class or interface of a file whose name carries the suffix. -/
def actionClass? (suffix : String) (s : Text) : Option String :=
  ((actionClause suffix.toList).first? s).map String.ofList

/-! ## The supertypes -/

/-- The supertypes that a class declaration names. -/
structure ClassHeader where
  superClass : Option String
  interfaces : NameSet
  deriving DecidableEq

/-- The word behind a keyword, both with blanks before them, and what stands behind it. -/
def keywordThenWord? (keyword : String) (s : Text) : Option (Text × Text) := do
  let s ← s.afterBlanks?
  let s ← s.after? keyword.toList
  let s ← s.afterBlanks?
  s.word?

/-- The names of a comma-separated list, without surrounding blanks; empty items do not count. -/
def listedNames (s : Text) : NameSet :=
  .ofList (((s.splitOn ',').map Text.trim).filter (· ≠ []) |>.map String.ofList)

/-- The interfaces of an implements clause that stands at the front of a text: a comma-separated
list that goes on to the next opening brace. -/
def implementedNames (s : Text) : NameSet :=
  let list? := do
    let s ← s.afterBlanks?
    let s ← s.after? "implements".toList
    s.afterBlanks?
  match list? with
  | some s => listedNames (s.takeWhile (· ≠ '{'))
  | none => ∅

/-- The access modifiers a class declaration may begin with. -/
def afterAccess (s : Text) : Text :=
  ((s.after? "public".toList <|> s.after? "protected".toList) <|>
    s.after? "private".toList).getD s

/-- The supertypes of a class declared at the front of a text. At least one blank stands before
the word `class`, and before the word `abstract` if there is one. -/
def classClause : Pattern ClassHeader := fun _ s => do
  let s ← (afterAccess s).afterBlanks?
  let s := ((s.after? "abstract".toList).bind Text.afterBlanks?).getD s
  let s ← s.after? "class".toList
  let s ← s.afterBlanks?
  let (_, s) ← s.word?
  match keywordThenWord? "extends" s with
  | some (name, s) => return (⟨some (String.ofList name), implementedNames s⟩, s)
  | none => return (⟨none, implementedNames s⟩, s)

/-- The supertypes of the first class of a file; none if it declares no class. -/
def classHeader (s : Text) : ClassHeader :=
  (classClause.first? s).getD ⟨none, ∅⟩

end ActionCalls.Source
