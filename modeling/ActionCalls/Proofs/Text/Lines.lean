import ActionCalls.Proofs.Text.Words
import ActionCalls.Text.Line

/-!
# Lines and what is cut from them

A text without the blanks at its ends is known from the text alone: blanks stand in front of it and
behind it, and **it neither starts nor ends with one** (`trim_eq_iff`). So blanks that are put behind a
line make no difference to what is left of it, and neither does the carriage return of a line end. Of
the lines of a text without their blanks, those that are not empty are the pieces between its line
feeds (`mem_map_trim_lines`).
-/

namespace ActionCalls.Text

variable {s t gap : Text}

/-! ### Blanks at the ends -/

/-- Does a text neither start nor end with a blank? -/
def IsTrimmed (t : Text) : Prop :=
  StopsAt isBlank t ∧ StopsAt isBlank t.reverse

/-- What starts a text is what starts its front part, unless that is empty. -/
theorem stopsAt_append_iff {p : Char → Bool} {rest : Text} (ht : t ≠ []) :
    StopsAt p (t ++ rest) ↔ StopsAt p t := by
  obtain ⟨c, t, rfl⟩ := List.exists_cons_of_ne_nil ht
  rfl

theorem trim_eq_iff :
    s.trim = t ↔ ∃ lead tail, s = lead ++ (t ++ tail) ∧ (∀ c ∈ lead, isBlank c) ∧
      (∀ c ∈ tail, isBlank c) ∧ IsTrimmed t := by
  constructor
  · intro h
    obtain ⟨lead, hs, hlead, hfront⟩ := skipBlanks_eq_iff.mp (Eq.refl s.skipBlanks)
    have ht : skipBlanks (skipBlanks s).reverse = t.reverse := by
      rw [← h, trim, List.reverse_reverse]
    obtain ⟨tail, hrest, htail, hback⟩ := skipBlanks_eq_iff.mp ht
    have hcut : s.skipBlanks = t ++ tail.reverse := by
      simpa using congrArg List.reverse hrest
    rw [hcut] at hs hfront
    refine ⟨lead, tail.reverse, hs, hlead, by simpa using htail, ?_, hback⟩
    by_cases hnil : t = []
    · exact hnil ▸ stopsAt_nil
    · exact (stopsAt_append_iff hnil).mp hfront
  · rintro ⟨lead, tail, rfl, hlead, htail, hfront, hback⟩
    by_cases hnil : t = []
    · -- Nothing is left of a text of blanks, wherever it is cut.
      subst hnil
      have hall : (lead ++ ([] ++ tail)).skipBlanks = [] := by
        refine skipBlanks_eq_iff.mpr ⟨lead ++ tail, by simp, ?_, stopsAt_nil⟩
        simpa [or_imp, forall_and] using And.intro hlead htail
      rw [trim, hall]
      rfl
    · have hskip : (lead ++ (t ++ tail)).skipBlanks = t ++ tail :=
        skipBlanks_eq_iff.mpr ⟨lead, rfl, hlead, (stopsAt_append_iff hnil).mpr hfront⟩
      have hskipBack : skipBlanks (t ++ tail).reverse = t.reverse :=
        skipBlanks_eq_iff.mpr ⟨tail.reverse, List.reverse_append, by simpa using htail, hback⟩
      rw [trim, hskip, hskipBack, List.reverse_reverse]

theorem isTrimmed_trim (s : Text) : IsTrimmed s.trim := by
  obtain ⟨lead, tail, -, -, -, htrimmed⟩ := trim_eq_iff.mp (Eq.refl s.trim)
  exact htrimmed

theorem mem_of_mem_trim {c : Char} (h : c ∈ s.trim) : c ∈ s := by
  obtain ⟨lead, tail, hs, -⟩ := trim_eq_iff.mp (Eq.refl s.trim)
  rw [hs]
  simp [h]

theorem trim_of_isTrimmed (h : IsTrimmed t) : t.trim = t :=
  trim_eq_iff.mpr ⟨[], [], by simp, by simp, by simp, h⟩

/-- Blanks behind a text make no difference to what is left without them. -/
theorem trim_append_gap (s : Text) (hgap : ∀ c ∈ gap, isBlank c) : (s ++ gap).trim = s.trim := by
  obtain ⟨lead, tail, hs, hlead, htail, htrimmed⟩ := trim_eq_iff.mp (Eq.refl s.trim)
  refine trim_eq_iff.mpr ⟨lead, tail ++ gap, ?_, hlead, ?_, htrimmed⟩
  · rw [← List.append_assoc s.trim, ← List.append_assoc lead, ← hs]
  · simpa [or_imp, forall_and] using And.intro htail hgap

/-! ### Pieces and lines -/

theorem exists_dropReturn_append (s : Text) :
    ∃ gap, s = dropReturn s ++ gap ∧ ∀ c ∈ gap, isBlank c := by
  fun_induction dropReturn s with
  | case1 => exact ⟨[], rfl, by simp⟩
  | case2 => exact ⟨['\r'], rfl, by simp; decide⟩
  | case3 c s _ ih =>
      obtain ⟨gap, hs, hgap⟩ := ih
      exact ⟨gap, by rw [List.cons_append, ← hs], hgap⟩

/-- The carriage return of a line end is cut away with the blanks. -/
theorem trim_dropReturn (s : Text) : (dropReturn s).trim = s.trim := by
  obtain ⟨gap, hs, hgap⟩ := exists_dropReturn_append s
  rw [← trim_append_gap (dropReturn s) hgap, ← hs]

/-- A piece between separators has none in it. -/
theorem not_mem_of_mem_splitOn {sep : Char} {piece : Text} (h : piece ∈ splitOn sep s) :
    sep ∉ piece := by
  induction hn : s.length using Nat.strongRecOn generalizing s with
  | ind n ih =>
      by_cases hsep : sep ∈ s
      · obtain ⟨front, rest, rfl, hfront⟩ := List.eq_append_cons_of_mem hsep
        rw [splitOn_append, splitOn_of_not_mem hfront, List.singleton_append, List.mem_cons] at h
        rcases h with rfl | h
        · exact hfront
        · refine ih rest.length ?_ h rfl
          rw [← hn, List.length_append, List.length_cons]
          omega
      · rw [splitOn_of_not_mem hsep, List.mem_singleton] at h
        exact h ▸ hsep

/-- What is left of a line is left of a piece, and only the last piece is no line if it is empty. -/
theorem mem_map_trim_lines (ht : t ≠ []) :
    t ∈ s.lines.map trim ↔ ∃ piece ∈ s.splitOn '\n', piece.trim = t := by
  have hpieces : ∀ {pieces : List Text},
      t ∈ (pieces.map dropReturn).map trim ↔ ∃ piece ∈ pieces, piece.trim = t := by
    simp [trim_dropReturn]
  have hreverse : ∀ piece, piece ∈ s.splitOn '\n' ↔ piece ∈ (s.splitOn '\n').reverse := by simp
  simp only [hreverse]
  rw [lines]
  split
  case h_1 heq => simp [heq]
  case h_2 complete heq =>
      have hempty : trim [] ≠ t := fun h => ht h.symm
      rw [heq, List.map_reverse, List.mem_reverse, hpieces]
      simp [hempty]
  case h_3 last complete _ heq =>
      rw [heq, List.map_reverse, List.mem_reverse, List.map_cons, List.mem_cons, hpieces]
      simp [eq_comm]

/-! ### Line ends of two characters -/

/-- A text with a carriage return in front of each line feed. -/
def withReturns (s : Text) : Text :=
  s.flatMap fun c => if c = '\n' then ['\r', '\n'] else [c]

theorem withReturns_of_not_mem (h : '\n' ∉ s) : s.withReturns = s := by
  induction s with
  | nil => rfl
  | cons c s ih =>
      rw [List.mem_cons, not_or] at h
      have hrest := ih h.2
      rw [withReturns] at hrest ⊢
      rw [List.flatMap_cons, if_neg (Ne.symm h.1), hrest]
      rfl

/-- The first line and the others get their line ends on their own. -/
theorem withReturns_append (h : '\n' ∉ s) (rest : Text) :
    (s ++ '\n' :: rest).withReturns = (s ++ ['\r']) ++ '\n' :: rest.withReturns := by
  have hfront := withReturns_of_not_mem h
  rw [withReturns] at hfront ⊢
  rw [List.flatMap_append, hfront, List.flatMap_cons, if_pos rfl, List.append_assoc]
  rfl

end ActionCalls.Text
