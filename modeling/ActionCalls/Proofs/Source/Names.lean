import ActionCalls.Proofs.Text.Words
import ActionCalls.Source.Call
import ActionCalls.Source.ClassHeader
import ActionCalls.Source.Package

/-!
# Names found in a source

The names of methods are words. In particular **no such name has a dot**, so that a name can be read off
the end of a dotted id.

The name of an action class is a word with the suffix behind it. The suffix may be any text, but it
alone says **how many dots** the name of the class has. The name of a package is never empty.
-/

namespace ActionCalls.Source

/-- Is the text of the name a non-empty run of word characters? -/
def IsName (name : String) : Prop :=
  name.toList ≠ [] ∧ ∀ c ∈ name.toList, isWord c

theorem IsName.not_mem_dot {name : String} (h : IsName name) : '.' ∉ name.toList := by
  intro hdot
  exact absurd (h.2 '.' hdot) (by decide)

/-- What is read as a word is a name. -/
theorem isName_of_word? {s word rest : Text} (h : s.word? = some (word, rest)) :
    IsName (String.ofList word) := by
  obtain ⟨hne, -, hword, -⟩ := Text.word?_eq_some_iff.mp h
  rw [IsName, String.toList_ofList]
  exact ⟨hne, hword⟩

/-! ### Called names -/

theorem isName_of_calledWord {before : Option Char} {s name rest : Text}
    (h : calledWord before s = some (name, rest)) : IsName (String.ofList name) := by
  unfold calledWord at h
  obtain ⟨-, -, h⟩ := Option.bind_eq_some_iff.mp h
  obtain ⟨⟨word, rest'⟩, hword, h⟩ := Option.bind_eq_some_iff.mp h
  obtain ⟨rest'', -, hresult⟩ := Option.bind_eq_some_iff.mp h
  obtain ⟨rfl, rfl⟩ := Prod.mk.inj (Option.some.inj hresult)
  exact isName_of_word? hword

theorem isName_of_mem_callNames {body : Text} {name : String} (h : name ∈ callNames body) :
    IsName name := by
  obtain ⟨word, hword, rfl⟩ := List.mem_map.mp h
  obtain ⟨before, rest, after, hread⟩ := Pattern.mem_all (List.mem_filter.mp hword).1
  exact isName_of_calledWord hread

/-! ### Packages -/

theorem ne_nil_of_packageClause {before : Option Char} {s name rest : Text}
    (h : packageClause before s = some (name, rest)) : name ≠ [] := by
  unfold packageClause at h
  obtain ⟨behindKeyword, -, h⟩ := Option.bind_eq_some_iff.mp h
  obtain ⟨behindBlanks, -, h⟩ := Option.bind_eq_some_iff.mp h
  obtain ⟨⟨found, behindName⟩, hname, h⟩ := Option.bind_eq_some_iff.mp h
  obtain ⟨behindSemicolon, -, hresult⟩ := Option.bind_eq_some_iff.mp h
  obtain ⟨rfl, rfl⟩ := Prod.mk.inj (Option.some.inj hresult)
  unfold dottedName? at hname
  split at hname
  case h_1 => exact absurd hname (by simp)
  case h_2 hne =>
      obtain ⟨rfl, rfl⟩ := Prod.mk.inj (Option.some.inj hname)
      exact hne

theorem packageName?_ne_empty {s : Text} {package : String} (h : packageName? s = some package) :
    package ≠ "" := by
  obtain ⟨name, hname, rfl⟩ := Option.map_eq_some_iff.mp h
  obtain ⟨before, rest, after, hread⟩ := Pattern.first?_eq_some hname
  simpa using ne_nil_of_packageClause hread

/-! ### Action classes -/

/-- Is the name a run of word characters, perhaps empty, with the suffix behind it? -/
def IsSuffixed (suffix name : Text) : Prop :=
  ∃ front, (∀ c ∈ front, isWord c) ∧ name = front ++ suffix

theorem IsSuffixed.suffix {suffix name : Text} (h : IsSuffixed suffix name) : suffix <:+ name := by
  obtain ⟨front, -, rfl⟩ := h
  exact List.suffix_append front suffix

/-- The dots of a suffixed name are those of the suffix. -/
theorem IsSuffixed.count_dot {suffix name : Text} (h : IsSuffixed suffix name) :
    name.count '.' = suffix.count '.' := by
  obtain ⟨front, hfront, rfl⟩ := h
  have hdot : '.' ∉ front := fun hmem => absurd (hfront '.' hmem) (by decide)
  rw [List.count_append, List.count_eq_zero_of_not_mem hdot, Nat.zero_add]

theorem isSuffixed_of_suffixedName? {suffix s name rest : Text}
    (h : suffixedName? suffix s = some (name, rest)) : IsSuffixed suffix name := by
  obtain ⟨n, hn, hread⟩ := List.exists_of_findSome?_eq_some h
  unfold suffixedAt? at hread
  obtain ⟨behindSuffix, -, hread⟩ := Option.bind_eq_some_iff.mp hread
  obtain ⟨-, -, hresult⟩ := Option.bind_eq_some_iff.mp hread
  obtain ⟨rfl, rfl⟩ := Prod.mk.inj (Option.some.inj hresult)
  refine ⟨s.take n, ?_, rfl⟩
  -- No more characters are taken than the word at the front has.
  have hle : n ≤ s.word.length := by
    simp only [List.mem_reverse, List.mem_range] at hn
    omega
  intro c hc
  rw [← Text.word_append_afterWord s, List.take_append_of_le_length hle] at hc
  exact List.all_eq_true.mp List.all_takeWhile c (List.mem_of_mem_take hc)

theorem isSuffixed_of_actionClause {before : Option Char} {suffix s name rest : Text}
    (h : actionClause suffix before s = some (name, rest)) : IsSuffixed suffix name := by
  unfold actionClause at h
  obtain ⟨behindPublic, -, h⟩ := Option.bind_eq_some_iff.mp h
  obtain ⟨behindBlanks, -, h⟩ := Option.bind_eq_some_iff.mp h
  obtain ⟨behindClass, -, h⟩ := Option.bind_eq_some_iff.mp h
  obtain ⟨n, -, hread⟩ := List.exists_of_findSome?_eq_some h
  exact isSuffixed_of_suffixedName? hread

theorem isSuffixed_of_actionClass? {suffix name : String} {s : Text}
    (h : actionClass? suffix s = some name) : IsSuffixed suffix.toList name.toList := by
  obtain ⟨found, hfound, rfl⟩ := Option.map_eq_some_iff.mp h
  obtain ⟨before, rest, after, hread⟩ := Pattern.first?_eq_some hfound
  rw [String.toList_ofList]
  exact isSuffixed_of_actionClause hread

end ActionCalls.Source
