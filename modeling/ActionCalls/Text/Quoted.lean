import ActionCalls.Text.Basic
import ActionCalls.Text.HiddenTable

/-!
# Quoted texts

How a message quotes a text: between double quotes, with a backslash before quotes and
backslashes, with letters for the common control characters, and with the number of any other
character that would not show.
-/

namespace ActionCalls.Text

/-- Would the character not show in a message? -/
def isHidden (c : Char) : Bool :=
  c.toNat < 0x20 || HiddenTable.contains c.toNat

/-- A character as it stands between the quotes of a message. -/
def quoteChar (c : Char) : Text :=
  if c = '"' ∨ c = '\\' then ['\\', c]
  else if c = '\t' then ['\\', 't']
  else if c = '\n' then ['\\', 'n']
  else if c = '\r' then ['\\', 'r']
  else if c = '\x00' then ['\\', '0']
  else if isHidden c then ['\\', 'u', '\x7b'] ++ Nat.toDigits 16 c.toNat ++ ['\x7d']
  else [c]

/-- A text as a message quotes it. -/
def quote (s : Text) : Text :=
  '"' :: s.flatMap quoteChar ++ ['"']

end ActionCalls.Text
