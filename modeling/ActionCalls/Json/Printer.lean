import ActionCalls.Json.Value

/-!
# Printing structured values

Two layouts: the compact one on a single line, and one with a line for each item and member,
indented by two spaces a level. Empty arrays and objects have nothing between their brackets in
either. In strings only quotes, backslashes and the control characters below U+0020 are escaped.
-/

namespace ActionCalls.Json

/-- What a layout puts between the parts of a value. -/
structure Layout where
  /-- What starts a new line at a depth. -/
  lineStart : Nat → Text
  /-- What stands between a key and its value. -/
  colon : Text

/-- Everything on one line, without spaces. -/
def Layout.compact : Layout := ⟨fun _ => [], [':']⟩

/-- One line for each item, with two spaces of indentation a level. -/
def Layout.pretty : Layout := ⟨fun depth => '\n' :: List.replicate (2 * depth) ' ', [':', ' ']⟩

/-- The letter that stands for a character behind a backslash, where there is one. -/
def escapeLetter? (c : Char) : Option Char :=
  if c = '"' then some '"'
  else if c = '\\' then some '\\'
  else if c = '\x08' then some 'b'
  else if c = '\x0c' then some 'f'
  else if c = '\n' then some 'n'
  else if c = '\r' then some 'r'
  else if c = '\t' then some 't'
  else none

/-- A character inside a string. -/
def renderChar (c : Char) : Text :=
  match escapeLetter? c with
  | some letter => ['\\', letter]
  | none =>
      if c.toNat < 0x20 then
        ['\\', 'u', '0', '0', Nat.digitChar (c.toNat / 16), Nat.digitChar (c.toNat % 16)]
      else [c]

/-- A string with its quotes. -/
def renderString (s : String) : Text :=
  '"' :: s.toList.flatMap renderChar ++ ['"']

def Number.render : Number → Text
  | .natural n => Nat.toDigits 10 n
  | .negative n => '-' :: Nat.toDigits 10 n
  | .decimal d => d.render

mutual

/-- The text of a value whose first line stands at a depth. -/
def renderAt (layout : Layout) (depth : Nat) : Json → Text
  | .null => "null".toList
  | .bool b => if b then "true".toList else "false".toList
  | .number n => n.render
  | .string s => renderString s
  | .array [] => ['[', ']']
  | .array (item :: items) =>
      '[' :: layout.lineStart (depth + 1) ++ renderAt layout (depth + 1) item ++
        renderItems layout (depth + 1) items ++ layout.lineStart depth ++ [']']
  | .object [] => ['{', '}']
  | .object ((key, value) :: members) =>
      '{' :: layout.lineStart (depth + 1) ++ renderString key ++ layout.colon ++
        renderAt layout (depth + 1) value ++ renderMembers layout (depth + 1) members ++
        layout.lineStart depth ++ ['}']

/-- The items of an array behind the first one. -/
def renderItems (layout : Layout) (depth : Nat) : List Json → Text
  | [] => []
  | item :: items =>
      ',' :: layout.lineStart depth ++ renderAt layout depth item ++
        renderItems layout depth items

/-- The members of an object behind the first one. -/
def renderMembers (layout : Layout) (depth : Nat) : List (String × Json) → Text
  | [] => []
  | (key, value) :: members =>
      ',' :: layout.lineStart depth ++ renderString key ++ layout.colon ++
        renderAt layout depth value ++ renderMembers layout depth members

end

/-- The text of a value in a layout. -/
def render (layout : Layout) (value : Json) : Text :=
  renderAt layout 0 value

end ActionCalls.Json
