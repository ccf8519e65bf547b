import ActionCalls.Text.Basic

/-!
# Strings of TOML

Strings stand between double quotes, where a backslash escapes, or between single quotes, where
nothing does; and between three of either, where lines may end. Control characters other than the
tabulator do not stand in them.
-/

namespace ActionCalls.Toml

/-- Can the character stand unescaped in a string or a comment? -/
def isPlain (c : Char) : Bool :=
  c == '\t' || (0x20 ≤ c.toNat && c != '\x7f')

/-- The blanks within a line. -/
def isLineBlank (c : Char) : Bool := c == ' ' || c == '\t'

/-- What stands behind a line end at the front. -/
def afterLineEnd? : Text → Option Text
  | '\n' :: s => some s
  | '\r' :: '\n' :: s => some s
  | _ => none

/-- The value of a hexadecimal digit. -/
def hexDigit? (c : Char) : Option Nat :=
  if c.isDigit then some (c.toNat - '0'.toNat)
  else if 'a' ≤ c ∧ c ≤ 'f' then some (c.toNat - 'a'.toNat + 10)
  else if 'A' ≤ c ∧ c ≤ 'F' then some (c.toNat - 'A'.toNat + 10)
  else none

/-- The character whose number hexadecimal digits write, if there is one. -/
def charOfHex? (digits : List Char) : Option Char := do
  let values ← digits.mapM hexDigit?
  let n := values.foldl (fun n d => n * 16 + d) 0
  if n < 0xD800 ∨ (0xDFFF < n ∧ n < 0x110000) then some (Char.ofNat n) else none

/-- The character that a letter behind a backslash stands for. -/
def unescape? (letter : Char) : Option Char :=
  if letter = 'b' then some '\x08'
  else if letter = 't' then some '\t'
  else if letter = 'n' then some '\n'
  else if letter = 'f' then some '\x0c'
  else if letter = 'r' then some '\r'
  else if letter = '"' then some '"'
  else if letter = '\\' then some '\\'
  else none

/-- Put a character in front of what a reader has read. -/
def consChar (c? : Option Char) (read : Option (Text × Text)) : Option (Text × Text) :=
  match c? with
  | some c => read.map fun (s, rest) => (c :: s, rest)
  | none => none

/-! ## Strings on one line -/

/-- The content of a string in double quotes, up to the closing one, and what stands behind it. -/
def basicBody? : Text → Option (Text × Text)
  | [] => none
  | '"' :: s => some ([], s)
  | '\\' :: 'u' :: a :: b :: c :: d :: s => consChar (charOfHex? [a, b, c, d]) (basicBody? s)
  | '\\' :: 'U' :: a :: b :: c :: d :: e :: f :: g :: h :: s =>
      consChar (charOfHex? [a, b, c, d, e, f, g, h]) (basicBody? s)
  | '\\' :: letter :: s => consChar (unescape? letter) (basicBody? s)
  | c :: s => if isPlain c ∧ c ≠ '\\' then consChar (some c) (basicBody? s) else none

/-- The content of a string in single quotes. -/
def literalBody? : Text → Option (Text × Text)
  | [] => none
  | '\'' :: s => some ([], s)
  | c :: s => if isPlain c then consChar (some c) (literalBody? s) else none

/-! ## Strings over several lines -/

/-- Does only a line end follow, perhaps behind blanks? -/
def endsLine (s : Text) : Bool :=
  (afterLineEnd? (s.dropWhile isLineBlank)).isSome

/-- The content of a string between three double quotes. Up to two quotes may stand right before
the closing three. A backslash at the end of a line takes the line end and all white space behind
it away; `trimming` says that such white space is being taken. -/
def longBasicBody? : (trimming : Bool) → Text → Option (Text × Text)
  | _, [] => none
  | true, ' ' :: s => longBasicBody? true s
  | true, '\t' :: s => longBasicBody? true s
  | true, '\n' :: s => longBasicBody? true s
  | true, '\r' :: '\n' :: s => longBasicBody? true s
  | _, '"' :: '"' :: '"' :: '"' :: '"' :: s => some (['"', '"'], s)
  | _, '"' :: '"' :: '"' :: '"' :: s => some (['"'], s)
  | _, '"' :: '"' :: '"' :: s => some ([], s)
  | _, '\r' :: '\n' :: s => consChar (some '\n') (longBasicBody? false s)
  | _, '\n' :: s => consChar (some '\n') (longBasicBody? false s)
  | _, '\\' :: 'u' :: a :: b :: c :: d :: s =>
      consChar (charOfHex? [a, b, c, d]) (longBasicBody? false s)
  | _, '\\' :: 'U' :: a :: b :: c :: d :: e :: f :: g :: h :: s =>
      consChar (charOfHex? [a, b, c, d, e, f, g, h]) (longBasicBody? false s)
  | _, '\\' :: letter :: s =>
      if endsLine (letter :: s) then longBasicBody? true (letter :: s)
      else consChar (unescape? letter) (longBasicBody? false s)
  | _, c :: s => if isPlain c ∧ c ≠ '\\' then consChar (some c) (longBasicBody? false s) else none

/-- The content of a string between three single quotes. Up to two quotes may stand right before
the closing three. -/
def longLiteralBody? : Text → Option (Text × Text)
  | [] => none
  | '\'' :: '\'' :: '\'' :: '\'' :: '\'' :: s => some (['\'', '\''], s)
  | '\'' :: '\'' :: '\'' :: '\'' :: s => some (['\''], s)
  | '\'' :: '\'' :: '\'' :: s => some ([], s)
  | '\r' :: '\n' :: s => consChar (some '\n') (longLiteralBody? s)
  | '\n' :: s => consChar (some '\n') (longLiteralBody? s)
  | c :: s => if isPlain c then consChar (some c) (longLiteralBody? s) else none

/-- A text without the line end that may stand at its front. -/
def skipLineEnd (s : Text) : Text := (afterLineEnd? s).getD s

/-- A string on one line, with its quotes. -/
def shortString? : Text → Option (Text × Text)
  | '"' :: s => basicBody? s
  | '\'' :: s => literalBody? s
  | _ => none

/-- A string of any of the four kinds, with its quotes. -/
def anyString? : Text → Option (Text × Text)
  | '"' :: '"' :: '"' :: s => longBasicBody? false (skipLineEnd s)
  | '\'' :: '\'' :: '\'' :: s => longLiteralBody? (skipLineEnd s)
  | s => shortString? s

end ActionCalls.Toml
