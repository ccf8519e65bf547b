import ActionCalls.Text.Basic

/-!
# Lines

A line ends at a line feed; a carriage return just before that line feed belongs to the line end.
A text that ends in a line feed has no empty line behind it.
-/

namespace ActionCalls.Text

/-- A line without the carriage return that closes it. -/
def dropReturn : Text → Text
  | [] => []
  | ['\r'] => []
  | c :: s => c :: dropReturn s

/-- The lines of a text. The piece behind the last line feed is a line only if it is not empty,
and keeps a carriage return at its end. -/
def lines (s : Text) : List Text :=
  match (s.splitOn '\n').reverse with
  | [] => []
  | [] :: complete => (complete.map dropReturn).reverse
  | last :: complete => (last :: complete.map dropReturn).reverse

end ActionCalls.Text
