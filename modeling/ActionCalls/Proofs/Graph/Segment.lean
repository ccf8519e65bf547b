import ActionCalls.Graph.Record

/-!
# The segments of a dotted id

The id of a method ends in the name of the method, with dots before it. Where the name itself has
**no dot**, it is the last segment of the id, whatever package and class come before.

More generally, a dotted text can be cut at one dot only such that a given number of dots stands
behind the cut (`append_dot_inj`). So what an id was put together from can be read off it, as soon as
it is known how many dots its last part has.
-/

namespace ActionCalls

/-- What stands behind the last dot of an id, or all of it if it has no dot. -/
def lastSegment (id : String) : String :=
  String.ofList (id.toList.reverse.takeWhile (· ≠ '.')).reverse

theorem forall_ne_dot {name : Text} (h : '.' ∉ name) : ∀ c ∈ name.reverse, decide (c ≠ '.') := by
  intro c hc
  have hne : c ≠ '.' := fun heq => h (heq ▸ List.mem_reverse.mp hc)
  simpa using hne

theorem lastSegment_eq_self {name : String} (h : '.' ∉ name.toList) : lastSegment name = name := by
  rw [lastSegment, ← List.append_nil name.toList.reverse,
    List.takeWhile_append_of_pos (forall_ne_dot h)]
  simp

theorem lastSegment_append {name : String} (path : String) (h : '.' ∉ name.toList) :
    lastSegment (path ++ "." ++ name) = name := by
  have hlist : (path ++ "." ++ name).toList.reverse =
      name.toList.reverse ++ '.' :: path.toList.reverse := by
    simp [String.toList_append]
  rw [lastSegment, hlist, List.takeWhile_append_of_pos (forall_ne_dot h)]
  simp

theorem CallTarget.lastSegment_id {target : CallTarget} (h : '.' ∉ target.method.toList) :
    lastSegment target.id = target.method := by
  unfold CallTarget.id
  split
  · exact lastSegment_append _ h
  · split
    · exact lastSegment_eq_self h
    · exact lastSegment_append _ h

theorem CallTarget.id_inPackage {package : String} (name : String) (h : package ≠ "") :
    (inPackage package name).id = package ++ "." ++ name :=
  if_neg h

theorem MethodNode.lastSegment_id_declared (c : ClassRecord)
    {declaration : Source.MethodDeclaration} (h : '.' ∉ declaration.name.toList) :
    lastSegment (declared c declaration).id = declaration.name :=
  lastSegment_append _ h

/-! ### Cutting at a dot -/

/-- Two texts that are cut at a dot are cut alike if as many dots stand behind the cuts. -/
theorem Text.append_dot_inj {a b a' b' : Text} (hcount : b.count '.' = b'.count '.')
    (h : a ++ '.' :: b = a' ++ '.' :: b') : a = a' ∧ b = b' := by
  -- If one text were cut later than the other, the earlier cut would have one more dot behind it.
  have hlonger : ∀ {between late early : Text}, '.' :: early = between ++ '.' :: late →
      early.count '.' = late.count '.' → between = [] := by
    intro between late early hcut hsame
    cases between with
    | nil => rfl
    | cons c between =>
        obtain ⟨rfl, rfl⟩ := List.cons.inj hcut
        have hmore : (between ++ '.' :: late).count '.' = late.count '.' := hsame
        rw [List.count_append, List.count_cons_self] at hmore
        omega
  rcases List.append_eq_append_iff.mp h with ⟨between, ha, hb⟩ | ⟨between, ha, hb⟩
  · obtain rfl := hlonger hb hcount
    exact ⟨(ha.trans (List.append_nil a)).symm, (List.cons.inj hb).2⟩
  · obtain rfl := hlonger hb hcount.symm
    exact ⟨ha.trans (List.append_nil a'), (List.cons.inj hb).2.symm⟩

theorem append_dot_inj {a b a' b' : String} (hcount : b.toList.count '.' = b'.toList.count '.')
    (h : a ++ "." ++ b = a' ++ "." ++ b') : a = a' ∧ b = b' := by
  have hlist := congrArg String.toList h
  simp only [String.toList_append, List.append_assoc] at hlist
  obtain ⟨ha, hb⟩ := Text.append_dot_inj hcount hlist
  exact ⟨String.toList_inj.mp ha, String.toList_inj.mp hb⟩

end ActionCalls
