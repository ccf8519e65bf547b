import ActionCalls.Blacklist
import ActionCalls.Proofs.Text.Lines

/-!
# Blacklist files

A name is read from a blacklist file if it is what is left of a piece between two line feeds when the
blanks at its ends are cut away, and if it is an entry (`mem_parse`). The pieces of two files that are
put one below the other are those of both, so **the names are too** (`parse_append_newline`); and the
names do not depend on how the lines end (`parse_withReturns`).

A name can be written in such a file exactly if it is not empty, has no line feed, neither starts nor
ends with a blank, and does not start as a comment does (`IsListable`). A set of such names is read
back from its members, one in a line, in whatever order they are written (`mem_parse_joinLines`).
-/

namespace ActionCalls.Blacklist

variable {s : Text} {name : String} {names : List String}

theorem mem_parse :
    name ∈ parse s ↔ isEntry name.toList = true ∧ ∃ piece ∈ s.splitOn '\n', piece.trim = name.toList := by
  have hlines : name ∈ parse s ↔ name.toList ∈ (s.lines.map Text.trim).filter isEntry := by
    rw [parse, Std.ExtTreeSet.mem_ofList, List.contains_iff_mem, List.mem_map]
    constructor
    · rintro ⟨line, hline, rfl⟩
      rwa [String.toList_ofList]
    · intro hline
      exact ⟨_, hline, String.ofList_toList⟩
  rw [hlines, List.mem_filter, and_comm]
  refine and_congr_right fun hentry => Text.mem_map_trim_lines ?_
  intro hnil
  rw [hnil] at hentry
  cases hentry

/-! ### Files below one another -/

theorem parse_append_newline (first second : Text) :
    parse (first ++ '\n' :: second) = parse first ∪ parse second := by
  apply Std.ExtTreeSet.ext_mem
  intro name
  rw [Std.ExtTreeSet.mem_union_iff]
  simp only [mem_parse, Text.splitOn_append, List.mem_append, or_and_right, exists_or, and_or_left]

/-- Blanks behind a single line, such as the return of its line end, make no difference. -/
theorem parse_append_gap {line gap : Text} (hline : '\n' ∉ line) (hgap : '\n' ∉ gap)
    (hblank : ∀ c ∈ gap, isBlank c) : parse (line ++ gap) = parse line := by
  have hboth : '\n' ∉ line ++ gap := by simp [hline, hgap]
  apply Std.ExtTreeSet.ext_mem
  intro name
  simp [mem_parse, Text.splitOn_of_not_mem hline, Text.splitOn_of_not_mem hboth,
    Text.trim_append_gap line hblank]

theorem parse_withReturns (s : Text) : parse s.withReturns = parse s := by
  induction hn : s.length using Nat.strongRecOn generalizing s with
  | ind n ih =>
      by_cases hfeed : '\n' ∈ s
      · obtain ⟨line, rest, rfl, hline⟩ := List.eq_append_cons_of_mem hfeed
        have hshorter : rest.length < n := by
          rw [← hn, List.length_append, List.length_cons]
          omega
        have hreturn : ∀ c ∈ ['\r'], isBlank c := List.forall_mem_singleton.mpr (by decide)
        rw [Text.withReturns_append hline, parse_append_newline, parse_append_newline,
          ih rest.length hshorter rest rfl, parse_append_gap hline (by decide) hreturn]
      · rw [Text.withReturns_of_not_mem hfeed]

/-! ### The names of a file -/

/-- Can a name be written in a blacklist file? -/
structure IsListable (name : String) : Prop where
  ne_empty : name ≠ ""
  no_newline : '\n' ∉ name.toList
  no_leading_blank : ∀ c ∈ name.toList.head?, isBlank c = false
  no_trailing_blank : ∀ c ∈ name.toList.getLast?, isBlank c = false
  no_comment : name.toList.head? ≠ some '#'

instance (name : String) : Decidable (IsListable name) :=
  decidable_of_iff
    (name ≠ "" ∧ '\n' ∉ name.toList ∧ (name.toList.head?.all fun c => !isBlank c) ∧
      (name.toList.getLast?.all fun c => !isBlank c) ∧ name.toList.head? ≠ some '#') <| by
    simp only [Option.all_eq_true, Bool.not_eq_true']
    exact ⟨fun ⟨hempty, hfeed, hfront, hback, hcomment⟩ => ⟨hempty, hfeed, hfront, hback, hcomment⟩,
      fun h => ⟨h.ne_empty, h.no_newline, h.no_leading_blank, h.no_trailing_blank, h.no_comment⟩⟩

theorem isEntry_iff : isEntry name.toList = true ↔ name ≠ "" ∧ name.toList.head? ≠ some '#' := by
  simp [isEntry, String.toList_eq_nil_iff]

theorem IsListable.isTrimmed (h : IsListable name) : Text.IsTrimmed name.toList := by
  refine ⟨h.no_leading_blank, ?_⟩
  intro c hc
  rw [List.head?_reverse] at hc
  exact h.no_trailing_blank c hc

theorem isListable_of_mem_parse (h : name ∈ parse s) : IsListable name := by
  obtain ⟨hentry, piece, hpiece, htrim⟩ := mem_parse.mp h
  obtain ⟨hempty, hcomment⟩ := isEntry_iff.mp hentry
  obtain ⟨hfront, hback⟩ : Text.IsTrimmed name.toList := htrim ▸ Text.isTrimmed_trim piece
  refine ⟨hempty, ?_, hfront, ?_, hcomment⟩
  · rw [← htrim]
    exact fun hmem => Text.not_mem_of_mem_splitOn hpiece (Text.mem_of_mem_trim hmem)
  · rwa [Text.StopsAt, List.head?_reverse] at hback

/-- A name in a line of its own is read as it is. -/
theorem mem_parse_toList {other : String} (h : IsListable other) :
    name ∈ parse other.toList ↔ name = other := by
  have hentry : isEntry other.toList = true := isEntry_iff.mpr ⟨h.ne_empty, h.no_comment⟩
  rw [mem_parse, Text.splitOn_of_not_mem h.no_newline]
  simp only [List.mem_singleton, exists_eq_left, Text.trim_of_isTrimmed h.isTrimmed]
  constructor
  · intro hname
    exact (String.toList_injective hname.2).symm
  · rintro rfl
    exact ⟨hentry, rfl⟩

/-- A file with one name in each line. -/
def joinLines (names : List String) : Text :=
  ['\n'].intercalate (names.map String.toList)

theorem mem_parse_joinLines (h : ∀ name ∈ names, IsListable name) :
    name ∈ parse (joinLines names) ↔ name ∈ names := by
  induction names with
  | nil =>
      have hnone : parse (joinLines []) = ∅ := rfl
      simp [hnone]
  | cons first rest ih =>
      obtain ⟨hfirst, hrest⟩ := List.forall_mem_cons.mp h
      cases rest with
      | nil => simpa [joinLines] using mem_parse_toList hfirst
      | cons second rest =>
          have hjoin : joinLines (first :: second :: rest) =
              first.toList ++ '\n' :: joinLines (second :: rest) := by
            simp [joinLines]
          rw [hjoin, parse_append_newline, Std.ExtTreeSet.mem_union_iff, mem_parse_toList hfirst,
            ih hrest, List.mem_cons (a := name) (b := first)]

theorem parse_joinLines {entries : Blacklist} (h : ∀ name ∈ entries, IsListable name)
    (hnames : ∀ name, name ∈ names ↔ name ∈ entries) : parse (joinLines names) = entries := by
  apply Std.ExtTreeSet.ext_mem
  intro name
  rw [mem_parse_joinLines fun name hname => h name ((hnames name).mp hname), hnames]

/-- **Blacklist files compose and give their sets back.** Two files below one another give the names
of both, and line ends of two characters the same names. The sets that files give are those of names
that can be listed, and such a set is given by its members, one in a line, in any order. -/
theorem parse_composes_and_gives_back :
    (∀ first second : Text, parse (first ++ '\n' :: second) = parse first ∪ parse second) ∧
    (∀ s : Text, parse s.withReturns = parse s) ∧
    ∀ entries : Blacklist,
      ((∃ s, parse s = entries) ↔ ∀ name ∈ entries, IsListable name) ∧
      ((∀ name ∈ entries, IsListable name) →
        ∀ names : List String, (∀ name, name ∈ names ↔ name ∈ entries) →
          parse (joinLines names) = entries) := by
  refine ⟨parse_append_newline, parse_withReturns, fun entries => ⟨⟨?_, ?_⟩, ?_⟩⟩
  · rintro ⟨s, rfl⟩ name hname
    exact isListable_of_mem_parse hname
  · intro h
    exact ⟨_, parse_joinLines h fun name => Std.ExtTreeSet.mem_toList⟩
  · exact fun h names hnames => parse_joinLines h hnames

/-- Names with a blank, a carriage return and a comment mark inside. -/
def oddNames : List String :=
  ["a b", "p\rq", "x#y"]

/-- Odd names are read back also when the last one stands in the first line. -/
theorem parse_composes_and_gives_back_oddNames :
    (∀ name ∈ (Std.ExtTreeSet.ofList oddNames : Blacklist), IsListable name) ∧
      parse (joinLines oddNames.reverse) = .ofList oddNames := by
  have hmem : ∀ name, name ∈ (Std.ExtTreeSet.ofList oddNames : Blacklist) ↔ name ∈ oddNames := by
    intro name
    rw [Std.ExtTreeSet.mem_ofList, List.contains_iff_mem]
  have hall : ∀ name ∈ oddNames, IsListable name := by decide
  have hlistable : ∀ name ∈ (Std.ExtTreeSet.ofList oddNames : Blacklist), IsListable name :=
    fun name hname => hall name ((hmem name).mp hname)
  obtain ⟨-, -, hgives⟩ := parse_composes_and_gives_back
  refine ⟨hlistable, (hgives _).2 hlistable _ fun name => ?_⟩
  rw [hmem, List.mem_reverse]

end ActionCalls.Blacklist
