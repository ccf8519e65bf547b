import ActionCalls.NameSet
import ActionCalls.Text.Blank
import ActionCalls.Text.Line

/-!
# Blacklists

A blacklist is a set of method names that are neither declared nor called. In a file it is written
with one name a line; blank lines and lines that start with `#` do not count.
-/

namespace ActionCalls

/-- Method names that are left out of a graph. -/
abbrev Blacklist := NameSet

namespace Blacklist

/-- Does a line, without the blanks at its ends, give a name? -/
def isEntry (line : Text) : Bool :=
  !line.isEmpty && line.head? != some '#'

/-- The names that the text of a blacklist file gives. -/
def parse (s : Text) : Blacklist :=
  .ofList (((s.lines.map Text.trim).filter isEntry).map String.ofList)

end Blacklist

end ActionCalls
