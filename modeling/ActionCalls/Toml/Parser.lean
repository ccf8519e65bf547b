import ActionCalls.Toml.Document
import ActionCalls.Toml.Quoted
import ActionCalls.Toml.Scalar

/-!
# Reading TOML

A document is read line by line: a header, or a key with its value, each with an optional comment
behind it. Values nest up to a fixed depth. The functions that repeat carry a count of steps for
which the length of the text is enough.
-/

namespace ActionCalls.Toml

/-! ## Blanks and comments -/

/-- A text without the blanks of the line at its front. -/
def skipLineBlanks (s : Text) : Text := s.dropWhile isLineBlank

/-- A text without the comment at its front. -/
def skipComment : Text → Text
  | '#' :: s => s.dropWhile isPlain
  | s => s

/-- What follows on the next line, if nothing but blanks and a comment is left of this one. -/
def afterLine? (s : Text) : Option Text :=
  match skipComment (skipLineBlanks s) with
  | [] => some []
  | s => afterLineEnd? s

/-- A text without the blanks, comments and line ends at its front. A comment needs its line
end. -/
def skipLines : Nat → Text → Text
  | 0, s => s
  | n + 1, s =>
      let s := skipLineBlanks s
      match afterLineEnd? (skipComment s) with
      | some rest => skipLines n rest
      | none => s

/-! ## Keys -/

/-- Can the character stand in a key without quotes? -/
def isBareKeyChar (c : Char) : Bool := c.isAlphanum || c == '_' || c == '-'

/-- A key without dots. -/
def simpleKey? (s : Text) : Option (String × Text) :=
  match shortString? s with
  | some (key, rest) => some (String.ofList key, rest)
  | none =>
      match s.takeWhile isBareKeyChar with
      | [] => none
      | key => some (String.ofList key, s.dropWhile isBareKeyChar)

/-- The most keys that dots may join. -/
def keyLimit : Nat := 79

/-- Keys joined by dots, with blanks around them; at least one and at most `limit`. -/
def dottedKey? : (limit : Nat) → Text → Option (List String × Text)
  | 0, _ => none
  | limit + 1, s =>
      match simpleKey? (skipLineBlanks s) with
      | none => none
      | some (key, s) =>
          match skipLineBlanks s with
          | '.' :: s => (dottedKey? limit s).map fun (keys, s) => (key :: keys, s)
          | s => some ([key], s)

/-- The keys before the last dot, and the key behind it, with an equals sign behind them. -/
def keyOfEntry? (s : Text) : Option (List String × String × Text) :=
  match dottedKey? keyLimit s with
  | some (keys, '=' :: s) =>
      match keys.reverse with
      | key :: front => some (front.reverse, key, s)
      | [] => none
  | _ => none

/-! ## Values -/

/-- How deep values may nest. -/
def nestingLimit : Nat := 79

mutual

/-- A value at the front, at most `depth` more values nesting in one another. -/
def value? : (steps depth : Nat) → Text → Option (Toml × Text)
  | 0, _, _ => none
  | steps + 1, depth, s =>
      match s with
      | '[' :: s =>
          match depth with
          | 0 => none
          | depth + 1 => (items? steps depth s).map fun (items, s) => (.array items, s)
      | '\x7b' :: s =>
          match depth with
          | 0 => none
          | depth + 1 =>
              match skipLineBlanks s with
              | '\x7d' :: s => some (.table .inBraces [], s)
              | s => (entries? steps depth [] s).map fun (entries, s) =>
                  (.table .inBraces entries, s)
      | s =>
          match s.head? with
          | some '"' | some '\'' =>
              (anyString? s).map fun (body, s) => (.string (String.ofList body), s)
          | _ => scalarAtFront? s

/-- The items of an array up to its closing bracket. A comma may stand behind the last one. -/
def items? : (steps depth : Nat) → Text → Option (List Toml × Text)
  | 0, _, _ => none
  | steps + 1, depth, s =>
      match skipLines s.length s with
      | ']' :: s => some ([], s)
      | s =>
          match value? steps depth s with
          | none => none
          | some (item, s) =>
              match skipLines s.length s with
              | ']' :: s => some ([item], s)
              | ',' :: s => (items? steps depth s).map fun (items, s) => (item :: items, s)
              | _ => none

/-- The entries of a table in braces up to the closing one; at least one, all on the same line. -/
def entries? : (steps depth : Nat) → Entries → Text → Option (Entries × Text)
  | 0, _, _, _ => none
  | steps + 1, depth, defined, s =>
      match keyOfEntry? s with
      | none => none
      | some (path, key, s) =>
          match value? steps depth (skipLineBlanks s) with
          | none => none
          | some (value, s) =>
              match define path key value .inBraces defined with
              | none => none
              | some defined =>
                  match skipLineBlanks s with
                  | '\x7d' :: s => some (defined, s)
                  | ',' :: s => entries? steps depth defined s
                  | _ => none

end

/-! ## Documents -/

/-- The expression at the front of a line, and what stands behind it. -/
def expression? : Text → Option (Expression × Text)
  | '[' :: '[' :: s =>
      match dottedKey? keyLimit s with
      | some (path, ']' :: ']' :: s) => some (.repeatedHeader path, s)
      | _ => none
  | '[' :: s =>
      match dottedKey? keyLimit s with
      | some (path, ']' :: s) => some (.header path, s)
      | _ => none
  | s =>
      match keyOfEntry? s with
      | none => none
      | some (path, key, s) =>
          let s := skipLineBlanks s
          (value? (2 * s.length + 1) nestingLimit s).map fun (value, s) =>
            (.entry path key value, s)

/-- The expressions of a document, at most `steps` lines long. -/
def expressions? : (steps : Nat) → Text → Option (List Expression)
  | 0, _ => none
  | steps + 1, s =>
      match afterLine? s with
      | some [] => some []
      | some rest => expressions? steps rest
      | none =>
          match expression? (skipLineBlanks s) with
          | none => none
          | some (expression, s) =>
              match afterLine? s with
              | none => none
              | some rest => (expressions? steps rest).map (expression :: ·)

/-- The entries of a document. A byte order mark may stand before it. -/
def parse? (s : Text) : Option Entries :=
  let s := (Text.after? s ['\uFEFF']).getD s
  match expressions? (s.length + 1) s with
  | some expressions => build? expressions
  | none => none

end ActionCalls.Toml
