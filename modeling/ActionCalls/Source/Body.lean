import ActionCalls.Text.Bytes

/-!
# Bodies

The body of a declaration is what stands between the first opening brace behind it and the brace
that closes that one. Braces are counted wherever they stand, also in string literals and
comments.
-/

namespace ActionCalls.Source

/-- The text up to the brace that closes the open block, `depth` further blocks being open. -/
def upToClosing? : (depth : Nat) → Text → Option Text
  | _, [] => none
  | depth, c :: s =>
      if c = '{' then (upToClosing? (depth + 1) s).map (c :: ·)
      else if c = '}' then
        match depth with
        | 0 => some []
        | depth + 1 => (upToClosing? depth s).map (c :: ·)
      else (upToClosing? depth s).map (c :: ·)

/-- The inside of the first brace block of a text; empty when no block opens or the first one is
never closed. -/
def firstBlock (s : Text) : Text :=
  match s.dropWhile (· ≠ '{') with
  | [] => []
  | _ :: inside => (upToClosing? 0 inside).getD []

/-- The inside of the first brace block at or behind a byte offset; nothing when the offset is
beyond the text or inside a character. -/
def methodBody? (s : Text) (offset : Nat) : Option Text :=
  (s.atByte? offset).map firstBlock

end ActionCalls.Source
