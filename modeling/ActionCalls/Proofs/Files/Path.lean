import ActionCalls.Files.Path
import ActionCalls.Proofs.Text.Digits

/-!
# Paths below a path

Joining a name to a path **appends one piece**: the pieces of `Path.join path name` are those of the
path and then the name, except that the empty piece of a path that ends in a slash is replaced.
-/

namespace ActionCalls

namespace Path

theorem parse_of_slash {path : String} {s : Text} (h : path.toList = '/' :: s) :
    parse path = ⟨true, (Text.splitOn '/' s).map String.ofList⟩ := by
  rw [parse, h]
  rfl

theorem parse_of_ne_slash {path : String} {c : Char} {s : Text} (h : path.toList = c :: s)
    (hc : c ≠ '/') : parse path = ⟨false, (Text.splitOn '/' (c :: s)).map String.ofList⟩ := by
  rw [parse, h]
  split
  case h_1 heq => exact absurd (List.cons.inj heq).1 hc
  case h_2 heq => exact absurd heq (List.cons_ne_nil c s)
  case h_3 => rfl

/-- A path that goes on behind a slash has the pieces of both parts. -/
theorem parse_append {path : String} (hpath : path ≠ "") (rest : String) :
    parse (path ++ "/" ++ rest) =
      ⟨(parse path).isAbsolute,
        (parse path).pieces ++ (Text.splitOn '/' rest.toList).map String.ofList⟩ := by
  obtain ⟨c, s, hs⟩ :=
    List.exists_cons_of_ne_nil (fun heq => hpath (String.toList_eq_nil_iff.mp heq))
  have hlist : (path ++ "/" ++ rest).toList = c :: (s ++ '/' :: rest.toList) := by
    simp [String.toList_append, hs]
  by_cases hc : c = '/'
  · subst hc
    rw [parse_of_slash hlist, parse_of_slash hs, Text.splitOn_append, List.map_append]
  · rw [parse_of_ne_slash hlist hc, parse_of_ne_slash hs hc, ← List.cons_append,
      Text.splitOn_append, List.map_append]

/-- Joining a name appends it to the pieces, or puts it in the place of the last one if that is
empty. -/
theorem parse_join {path name : String} (hpath : path ≠ "") (hname : '/' ∉ name.toList) :
    ∃ front, ((parse path).pieces = front ∨ (parse path).pieces = front ++ [""]) ∧
      parse (join path name) = ⟨(parse path).isAbsolute, front ++ [name]⟩ := by
  have hsplit : (Text.splitOn '/' name.toList).map String.ofList = [name] := by
    rw [Text.splitOn_of_not_mem hname]
    simp
  unfold join
  split
  case h_1 hlast =>
      exact absurd (String.toList_eq_nil_iff.mp (List.getLast?_eq_none_iff.mp hlast)) hpath
  case h_2 hlast =>
      obtain ⟨init, hinit⟩ := List.getLast?_eq_some_iff.mp hlast
      by_cases hempty : init = []
      · -- The path is the root itself.
        subst hempty
        have hjoin : (path ++ name).toList = '/' :: name.toList := by
          simp [String.toList_append, hinit]
        refine ⟨[], Or.inr ?_, ?_⟩
        · rw [parse_of_slash hinit]
          rfl
        · rw [parse_of_slash hinit, parse_of_slash hjoin, hsplit]
          rfl
      · obtain rfl : path = String.ofList init ++ "/" := by
          rw [← String.toList_inj, hinit]
          simp [String.toList_append]
        have hfront : String.ofList init ≠ "" := by
          rw [ne_eq, ← String.toList_inj]
          simpa using hempty
        have hparse : parse (String.ofList init ++ "/") =
            ⟨(parse (String.ofList init)).isAbsolute,
              (parse (String.ofList init)).pieces ++ [""]⟩ := by
          have happend := parse_append hfront ""
          rw [String.append_empty] at happend
          exact happend
        refine ⟨(parse (String.ofList init)).pieces, Or.inr ?_, ?_⟩
        · rw [hparse]
        · rw [hparse, parse_append hfront, hsplit]
  case h_3 =>
      refine ⟨(parse path).pieces, Or.inl rfl, ?_⟩
      rw [parse_append hpath, hsplit]

end Path

end ActionCalls
