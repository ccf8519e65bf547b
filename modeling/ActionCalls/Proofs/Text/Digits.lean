import ActionCalls.Text.Basic

/-!
# Runs of characters

A scanner that takes characters as long as they are of one kind takes a written run back as it was
written, provided that **what stands behind the run starts with another kind** (`StopsAt`). Every
statement about reading what was written therefore says what may stand behind it.

The decimal digits of a number are such a run, and a zero stands in front of it only when it is the
whole number.
-/

namespace ActionCalls.Text

/-! ### Runs -/

/-- The text does not start with a character of a kind. -/
def StopsAt (p : Char → Bool) (s : Text) : Prop :=
  ∀ c ∈ s.head?, p c = false

variable {p : Char → Bool} {run rest : Text}

/-- A character of a kind is none of those that are not of this kind. -/
theorem not_mem_of_kind {c : Char} {others : Text} (hc : p c)
    (hothers : others.all fun other => !p other) : c ∉ others := by
  intro hmem
  have hnot := List.all_eq_true.mp hothers c hmem
  simp [hc] at hnot

/-- A text does not start with a mark that its first character is not. -/
theorem cons_ne_of_not_mem {c mark : Char} {marks s t : Text} (hc : c ∉ marks) (hmark : mark ∈ marks) :
    c :: s ≠ mark :: t := by
  intro heq
  exact hc ((List.cons.inj heq).1 ▸ hmark)

theorem stopsAt_nil : StopsAt p [] := by
  intro c h
  cases h

theorem stopsAt_cons {c : Char} (h : p c = false) : StopsAt p (c :: rest) := by
  intro d hd
  obtain rfl := Option.some.inj hd
  exact h

theorem StopsAt.imp {q : Char → Bool} (h : StopsAt p rest) (himp : ∀ c, p c = false → q c = false) :
    StopsAt q rest :=
  fun c hc => himp c (h c hc)

theorem dropWhile_of_stopsAt (h : StopsAt p rest) : rest.dropWhile p = rest := by
  cases rest with
  | nil => rfl
  | cons c rest => simp [h c rfl]

theorem takeWhile_run (hrun : ∀ c ∈ run, p c) (hrest : StopsAt p rest) :
    (run ++ rest).takeWhile p = run := by
  rw [List.takeWhile_append_of_pos hrun]
  cases rest with
  | nil => simp
  | cons c rest => simp [hrest c rfl]

theorem dropWhile_run (hrun : ∀ c ∈ run, p c) (hrest : StopsAt p rest) :
    (run ++ rest).dropWhile p = rest := by
  rw [List.dropWhile_append_of_pos hrun, dropWhile_of_stopsAt hrest]

/-- Behind the run at the front of a text something of another kind follows. -/
theorem stopsAt_dropWhile (p : Char → Bool) (s : Text) : StopsAt p (s.dropWhile p) := by
  intro c hc
  have hhead := List.head?_dropWhile_not p s
  rw [Option.mem_def.mp hc] at hhead
  simpa using hhead

/-- A text is cut behind the run at its front in one way only. -/
theorem takeWhile_eq_and_dropWhile_eq_iff {s : Text} :
    s.takeWhile p = run ∧ s.dropWhile p = rest ↔
      s = run ++ rest ∧ (∀ c ∈ run, p c) ∧ StopsAt p rest := by
  constructor
  · intro h
    obtain ⟨rfl, rfl⟩ := h
    exact ⟨List.takeWhile_append_dropWhile.symm,
      fun c hc => List.all_eq_true.mp List.all_takeWhile c hc, stopsAt_dropWhile p s⟩
  · intro h
    obtain ⟨rfl, hrun, hrest⟩ := h
    exact ⟨takeWhile_run hrun hrest, dropWhile_run hrun hrest⟩

/-- Two runs at the front of a text are the same. -/
theorem run_unique {other behind : Text} (h : run ++ rest = other ++ behind)
    (hrun : ∀ c ∈ run, p c) (hrest : StopsAt p rest) (hother : ∀ c ∈ other, p c)
    (hbehind : StopsAt p behind) : run = other ∧ rest = behind := by
  obtain ⟨htake, hdrop⟩ := takeWhile_eq_and_dropWhile_eq_iff.mpr ⟨h, hother, hbehind⟩
  rw [takeWhile_run hrun hrest] at htake
  rw [dropWhile_run hrun hrest] at hdrop
  exact ⟨htake, hdrop⟩

/-- The run at the front of a text stays the same when something of another kind is put behind the
text. -/
theorem takeWhile_append_of_stopsAt (s : Text) (h : StopsAt p rest) :
    (s ++ rest).takeWhile p = s.takeWhile p ∧ (s ++ rest).dropWhile p = s.dropWhile p ++ rest := by
  have hcut : s ++ rest = s.takeWhile p ++ (s.dropWhile p ++ rest) := by
    rw [← List.append_assoc, List.takeWhile_append_dropWhile]
  have hrun : ∀ c ∈ s.takeWhile p, p c := fun c hc => List.all_eq_true.mp List.all_takeWhile c hc
  have hstops : StopsAt p (s.dropWhile p ++ rest) := by
    cases hbehind : s.dropWhile p with
    | nil => exact h
    | cons c behind => exact stopsAt_cons (stopsAt_dropWhile p s c (by rw [hbehind]; rfl))
  rw [hcut]
  exact ⟨takeWhile_run hrun hstops, dropWhile_run hrun hstops⟩

/-- A text without the separator is one piece. -/
theorem splitOn_of_not_mem {sep : Char} {s : Text} (h : sep ∉ s) : splitOn sep s = [s] := by
  induction s with
  | nil => rfl
  | cons c s ih =>
      rw [List.mem_cons, not_or] at h
      rw [splitOn, ih h.2]
      exact if_neg (Ne.symm h.1)

/-- A text is cut at a separator as its two parts are cut on their own. -/
theorem splitOn_append (sep : Char) (s rest : Text) :
    splitOn sep (s ++ sep :: rest) = splitOn sep s ++ splitOn sep rest := by
  induction s with
  | nil =>
      obtain ⟨piece, pieces, hrest⟩ := List.exists_cons_of_ne_nil (splitOn_ne_nil sep rest)
      simp [splitOn, hrest]
  | cons c s ih =>
      obtain ⟨piece, pieces, hs⟩ := List.exists_cons_of_ne_nil (splitOn_ne_nil sep s)
      rw [List.cons_append, splitOn, ih, hs, splitOn, hs]
      by_cases hc : c = sep
      · simp [hc]
      · simp [hc]

/-! ### Decimal digits -/

theorem isDigit_of_mem_toDigits {n : Nat} {c : Char} (h : c ∈ Nat.toDigits 10 n) : c.isDigit :=
  Nat.isDigit_of_mem_toDigits (by decide) (by decide) h

/-- A number has a first digit. -/
theorem exists_toDigits_eq_cons (n : Nat) :
    ∃ c ds, Nat.toDigits 10 n = c :: ds ∧ c.isDigit := by
  obtain ⟨c, ds, hdigits⟩ := List.exists_cons_of_ne_nil (Nat.toDigits_ne_nil (n := n) (b := 10))
  exact ⟨c, ds, hdigits, isDigit_of_mem_toDigits (n := n) (hdigits ▸ List.mem_cons_self)⟩

/-- A zero leads only when it is the only digit. -/
theorem eq_nil_of_toDigits_eq_zero_cons {n : Nat} {ds : Text}
    (h : Nat.toDigits 10 n = '0' :: ds) : ds = [] := by
  induction n using Nat.strongRecOn generalizing ds with
  | ind n ih =>
      by_cases hlt : n < 10
      · rw [Nat.toDigits_of_lt_base hlt] at h
        exact (List.cons.inj h).2.symm
      · have hle : 10 ≤ n := Nat.le_of_not_lt hlt
        rw [Nat.toDigits_of_base_le (by decide) hle] at h
        -- The digits before the last one are those of a smaller number, which is not zero.
        obtain ⟨c, front, hfront, -⟩ := exists_toDigits_eq_cons (n / 10)
        rw [hfront, List.cons_append] at h
        obtain ⟨rfl, -⟩ := List.cons.inj h
        obtain rfl := ih (n / 10) (by omega) hfront
        have hvalue : Nat.ofDigitChars 10 (Nat.toDigits 10 (n / 10)) 0 = 0 := by
          rw [hfront]
          decide
        rw [Nat.ofDigitChars_ten_toDigits] at hvalue
        omega

end ActionCalls.Text
