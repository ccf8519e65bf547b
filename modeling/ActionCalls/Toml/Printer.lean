import ActionCalls.Toml.Value

/-!
# Writing TOML

A document is written as a sequence of tables, with a blank line between them and an entry a line.
A string is written in the plainest form that can hold it: in double quotes without escapes if that
is possible, otherwise between single quotes, over several lines where it has line ends, and with
escapes only where nothing else works. An array of two or more items has a line for each.
-/

namespace ActionCalls.Toml

/-! ## Strings -/

/-- Is the character a control character that a string does not hold unescaped, even where lines
may end? -/
def isControl (c : Char) : Bool :=
  (c.toNat < 0x20 && c != '\t' && c != '\n') || c == '\x7f'

/-- The length of the longest run of a character, `current` being the length of the run just before
the text. -/
def longestRun (c : Char) : (current : Nat) → Text → Nat
  | current, [] => current
  | current, d :: s =>
      if d = c then longestRun c (current + 1) s else max current (longestRun c 0 s)

/-- The hexadecimal digits of a number below `2 ^ 16`, four of them, in upper case. -/
def fourHexDigits (n : Nat) : Text :=
  [n / 0x1000, n / 0x100, n / 0x10, n].map fun d => (Nat.digitChar (d % 0x10)).toUpper

/-- A character other than a quote between double quotes. -/
def escapeChar (c : Char) : Text :=
  if c = '\\' then ['\\', '\\']
  else if c = '\x08' then ['\\', 'b']
  else if c = '\t' then ['\\', 't']
  else if c = '\n' then ['\\', 'n']
  else if c = '\x0c' then ['\\', 'f']
  else if c = '\r' then ['\\', 'r']
  else if isControl c then ['\\', 'u'] ++ fourHexDigits c.toNat
  else [c]

/-- The inside of a string in double quotes. Over several lines, line ends and up to two quotes in
a row stand as they are; `run` counts the quotes just before. -/
def escapeAll (severalLines : Bool) : (run : Nat) → Text → Text
  | _, [] => []
  | run, c :: s =>
      if c = '"' then
        if severalLines && run < 2 then '"' :: escapeAll severalLines (run + 1) s
        else '\\' :: '"' :: escapeAll severalLines 0 s
      else if c = '\n' && severalLines then '\n' :: escapeAll severalLines 0 s
      else escapeChar c ++ escapeAll severalLines 0 s

/-- The ways to write a string. -/
inductive StringForm where
  | basic
  | literal
  | longBasic
  | longLiteral
  deriving Repr, DecidableEq

/-- The form in which a string is written. -/
def StringForm.of (s : Text) : StringForm :=
  let escapes := s.any isControl
  let backslash := s.contains '\\'
  let lines := s.contains '\n'
  let double := longestRun '"' 0 s
  let single := longestRun '\'' 0 s
  if !escapes && !backslash && double = 0 && !lines then .basic
  else if !escapes && single = 0 && !lines then .literal
  else if !escapes && !backslash && double ≤ 2 then .longBasic
  else if !escapes && single ≤ 2 then .longLiteral
  else if lines then .longBasic
  else .basic

/-- The line end that opens a long string which has line ends itself. -/
def openingLine (s : Text) : Text := if s.contains '\n' then ['\n'] else []

/-- A string with its quotes. -/
def renderString (s : Text) : Text :=
  match StringForm.of s with
  | .basic => '"' :: escapeAll false 0 s ++ ['"']
  | .literal => '\'' :: s ++ ['\'']
  | .longBasic =>
      ['"', '"', '"'] ++ openingLine s ++ escapeAll true 0 s ++ ['"', '"', '"']
  | .longLiteral => ['\'', '\'', '\''] ++ openingLine s ++ s ++ ['\'', '\'', '\'']

/-! ## Values and tables -/

/-- A value that settings are made of. -/
inductive Setting where
  | string (s : String)
  | natural (n : Nat)
  | boolean (b : Bool)
  | strings (items : List String)
  deriving Repr, DecidableEq

/-- An item of an array on a line of its own. -/
def renderItemLine (item : String) : Text :=
  List.replicate 4 ' ' ++ renderString item.toList ++ [',', '\n']

def Setting.render : Setting → Text
  | .string s => renderString s.toList
  | .natural n => Nat.toDigits 10 n
  | .boolean b => if b then "true".toList else "false".toList
  | .strings [] => ['[', ']']
  | .strings [item] => '[' :: renderString item.toList ++ [']']
  | .strings items => '[' :: '\n' :: items.flatMap renderItemLine ++ [']']

/-- An entry of a table, on a line of its own. -/
def renderEntry (key : String) (value : Setting) : Text :=
  key.toList ++ [' ', '=', ' '] ++ value.render ++ ['\n']

/-- A table: its header and its entries. -/
def renderTable (name : String) (entries : List (String × Setting)) : Text :=
  '[' :: name.toList ++ [']', '\n'] ++ entries.flatMap fun (key, value) => renderEntry key value

/-- A document: its tables with a blank line between them. -/
def renderTables : List (String × List (String × Setting)) → Text
  | [] => []
  | [(name, entries)] => renderTable name entries
  | (name, entries) :: rest => renderTable name entries ++ '\n' :: renderTables rest

end ActionCalls.Toml
