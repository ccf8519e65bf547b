import ActionCalls.Source.Annotation
import ActionCalls.Source.Body
import ActionCalls.Source.Keyword

/-!
# Method declarations

A method declaration is a name with an argument list, with modifiers or a type in front of it. The
declaration is found by that shape alone; its annotations are those in a window of the text before
it, and its body is the first brace block behind its argument list.
-/

namespace ActionCalls.Source

/-! ## Modifiers -/

/-- From where a method can be called. -/
inductive AccessLevel where
  | publicAccess
  | protectedAccess
  | privateAccess
  | packageAccess
  deriving Repr, DecidableEq, Inhabited

/-- The words that may stand in front of a declaration. -/
inductive Modifier where
  | access (level : AccessLevel)
  | static
  | other (word : String)
  deriving Repr, DecidableEq

/-- The modifiers with their spelling. Package access is the absence of a modifier. -/
def Modifier.spellings : List (String × Modifier) :=
  [("public", .access .publicAccess), ("protected", .access .protectedAccess),
   ("private", .access .privateAccess), ("static", .static), ("final", .other "final"),
   ("abstract", .other "abstract"), ("synchronized", .other "synchronized"),
   ("native", .other "native"), ("strictfp", .other "strictfp")]

/-- A modifier with at least one blank behind it. -/
def modifier? (s : Text) : Option (Modifier × Text) :=
  Modifier.spellings.findSome? fun (word, modifier) =>
    ((s.after? word.toList).bind Text.afterBlanks?).map (modifier, ·)

/-- The ways to split a text into modifiers and a rest, the most modifiers first. The first
argument bounds their number; the length of the text is enough. -/
def modifierSplits : Nat → Text → List (List Modifier × Text)
  | 0, s => [([], s)]
  | n + 1, s =>
      match modifier? s with
      | some (modifier, r) =>
          (modifierSplits n r).map (fun (modifiers, rest) => (modifier :: modifiers, rest)) ++
            [([], s)]
      | none => [([], s)]

/-- The access level that modifiers give: that of the first one that names a level. -/
def accessLevel (modifiers : List Modifier) : AccessLevel :=
  (modifiers.findSome? fun
    | .access level => some level
    | _ => none).getD .packageAccess

/-! ## The shape of a declaration -/

/-- What a declaration says before its body. -/
structure Signature where
  modifiers : List Modifier
  returnType : Option String
  name : String
  deriving Repr, DecidableEq

/-- Can the character stand in a return type? Types are read as one run without blanks. -/
def isTypeChar (c : Char) : Bool :=
  isWord c || c ∈ ['.', '<', '>', '[', ']', '?']

/-- A name with its argument list, which goes to the first closing parenthesis. -/
def nameWithArguments? (s : Text) : Option (String × Text) := do
  let (name, s) ← s.word?
  let s ← afterArguments? s.skipBlanks
  return (String.ofList name, s)

/-- A return type, blanks, and a name with its argument list. -/
def typedName? (s : Text) : Option (String × String × Text) := do
  let type := s.takeWhile isTypeChar
  guard (type ≠ [])
  let s ← Text.afterBlanks? (s.dropWhile isTypeChar)
  let (name, s) ← nameWithArguments? s
  return (String.ofList type, name, s)

/-- The signature behind some modifiers, preferably with a return type. -/
def signatureAfter? (modifiers : List Modifier) (s : Text) : Option (Signature × Text) :=
  match typedName? s with
  | some (type, name, rest) => some (⟨modifiers, some type, name⟩, rest)
  | none => (nameWithArguments? s).map fun (name, rest) => (⟨modifiers, none, name⟩, rest)

/-- A signature, with as many of the words in front taken for modifiers as leave a name. A
modifier is a whole word, so none is read in the middle of one. -/
def signature : Pattern Signature := fun before s =>
  let splits := if before.any isWord then [([], s)] else modifierSplits s.length s
  splits.findSome? fun (modifiers, rest) => signatureAfter? modifiers rest

/-- Does a signature declare a method? One without modifiers and type is a call, and a keyword in
the place of the name or of the type makes it a statement. -/
def Signature.declares (s : Signature) : Bool :=
  !(s.modifiers.isEmpty && s.returnType.isNone) && !isKeyword s.name && !s.returnType.any isKeyword

/-! ## Declarations -/

/-- A method declaration of a file. -/
structure MethodDeclaration where
  name : String
  accessLevel : AccessLevel
  isStatic : Bool
  /-- The annotations in the window before the declaration. -/
  annotations : NameSet
  body : Text
  /-- Where the declaration starts, in bytes. -/
  offset : Nat
  deriving DecidableEq

/-- The declaration that a matched signature stands for; its annotations are looked for in the
last `lookback` bytes before it. -/
def Signature.toDeclaration (lookback : Nat) (found : Match Signature) : MethodDeclaration where
  name := found.value.name
  accessLevel := Source.accessLevel found.value.modifiers
  isStatic := found.value.modifiers.contains .static
  annotations := Source.annotations (found.before.lastBytes lookback)
  body := firstBlock found.after
  offset := found.before.byteLength

/-- The method declarations of a file, in their order. -/
def methodDeclarations (lookback : Nat) (s : Text) : List MethodDeclaration :=
  ((signature.allMatches s).filter fun found => found.value.declares).map
    (Signature.toDeclaration lookback)

end ActionCalls.Source
