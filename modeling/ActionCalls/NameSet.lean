import Std.Data.ExtTreeSet

/-!
# Sets of names

Names are kept in sets that list their members in ascending order of code points and that are
equal when they have the same members.
-/

namespace ActionCalls

/-- A finite set of names, listed in ascending order. -/
abbrev NameSet := Std.ExtTreeSet String

namespace NameSet

/-- A set is given back by the list of its members. -/
@[simp] theorem ofList_toList (names : NameSet) :
    Std.ExtTreeSet.ofList names.toList = names := by
  apply Std.ExtTreeSet.ext_mem
  intro name
  simp [Std.ExtTreeSet.mem_ofList, Std.ExtTreeSet.mem_toList]

end NameSet

end ActionCalls
