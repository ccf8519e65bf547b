import ActionCalls.Text.Pattern

/-!
# Matches are readings

A match of a pattern in a text stands at some place of it: what stands before the place, with what
stands at and behind it, is the whole text, and there the pattern reads the value of the match and
leaves what stands behind it. Whatever a pattern guarantees of a reading therefore holds of all its
matches.

The converse needs more: a place where a pattern reads something may lie in what an earlier match has
taken, and then it is no match. Where what a reading takes never holds the place of another reading
(`Apart`), the matches are all the readings, one for each place. The search passes a part of the text
in which nothing is read (`Silent`) as if it were not there.

Where a reading may lie in what another one takes, but never goes on behind it (`Nested`), a match is
known without the search too: it is **a reading that no reading before it covers** (`Covers`). It does
not matter whether the covering reading is a match itself, since what covers that one covers both.
-/

namespace ActionCalls.Pattern

variable {α : Type} {p : Pattern α}

/-- The search keeps: what was seen, with what remains, is the whole text. -/
theorem mem_matchesFrom {seen s : Text} {skip : Nat} {m : Match α}
    (h : m ∈ p.matchesFrom seen skip s) :
    ∃ rest, seen.reverse ++ s = m.before ++ rest ∧
      p m.before.getLast? rest = some (m.value, m.after) := by
  induction s generalizing seen skip with
  | nil => exact absurd h (by simp [matchesFrom])
  | cons c s ih =>
      have hnext : ∀ {skip : Nat}, m ∈ p.matchesFrom (c :: seen) skip s →
          ∃ rest, seen.reverse ++ c :: s = m.before ++ rest ∧
            p m.before.getLast? rest = some (m.value, m.after) := by
        intro skip hmem
        obtain ⟨rest, hrest, hread⟩ := ih hmem
        exact ⟨rest, by simpa using hrest, hread⟩
      cases skip with
      | succ skip => exact hnext h
      | zero =>
          unfold matchesFrom at h
          split at h
          case h_1 value after hread =>
              rcases List.mem_cons.mp h with hm | hmem
              · subst hm
                exact ⟨c :: s, rfl, by simpa using hread⟩
              · exact hnext hmem
          case h_2 => exact hnext h

/-- A match stands where the pattern reads its value. -/
theorem mem_allMatches {s : Text} {m : Match α} (h : m ∈ p.allMatches s) :
    ∃ rest, s = m.before ++ rest ∧ p m.before.getLast? rest = some (m.value, m.after) :=
  mem_matchesFrom h

/-- Every value found in a text was read somewhere in it. -/
theorem mem_all {s : Text} {value : α} (h : value ∈ p.all s) :
    ∃ before rest after, p before rest = some (value, after) := by
  obtain ⟨m, hm, rfl⟩ := List.mem_map.mp h
  obtain ⟨rest, -, hread⟩ := mem_allMatches hm
  exact ⟨_, rest, m.after, hread⟩

/-- The value found first was read somewhere in the text. -/
theorem first?_eq_some {s : Text} {value : α} (h : p.first? s = some value) :
    ∃ before rest after, p before rest = some (value, after) :=
  mem_all (List.mem_of_mem_head? h)

/-! ### Parts in which nothing is read -/

/-- Does the pattern read nothing at any place in `passed`, with `before` in front of it and `rest`
behind it? -/
def Silent (p : Pattern α) (before : Option Char) (passed rest : Text) : Prop :=
  ∀ front c back, passed = front ++ c :: back →
    p (front.getLast?.or before) (c :: (back ++ rest)) = none

section Silent

variable {before : Option Char} {c : Char} {passed rest seen : Text}

theorem silent_nil : p.Silent before [] rest := by
  intro front c back h
  exact absurd h (by simp)

/-- What stands before the last place of a text, its first character being set apart. -/
theorem getLast?_cons_or (c : Char) (front : Text) :
    (c :: front).getLast?.or before = front.getLast?.or (some c) := by
  cases front with
  | nil => rfl
  | cons d front => rw [List.getLast?_cons_cons, List.getLast?_cons, Option.some_or, Option.some_or]

theorem silent_cons :
    p.Silent before (c :: passed) rest ↔
      p before (c :: (passed ++ rest)) = none ∧ p.Silent (some c) passed rest := by
  constructor
  · intro h
    refine ⟨h [] c passed rfl, fun front d back hcut => ?_⟩
    rw [← getLast?_cons_or]
    exact h (c :: front) d back (congrArg (c :: ·) hcut)
  · intro h front d back hcut
    cases front with
    | nil =>
        obtain ⟨rfl, rfl⟩ := List.cons.inj hcut
        exact h.1
    | cons e front =>
        obtain ⟨rfl, htail⟩ := List.cons.inj hcut
        rw [getLast?_cons_or]
        exact h.2 front d back htail

theorem Silent.append {other : Text} (h : p.Silent before passed (other ++ rest))
    (hother : ∀ before, p.Silent before other rest) : p.Silent before (passed ++ other) rest := by
  induction passed generalizing before with
  | nil => exact hother before
  | cons c passed ih =>
      obtain ⟨hnone, h⟩ := silent_cons.mp h
      rw [List.cons_append, silent_cons, List.append_assoc]
      exact ⟨hnone, ih h⟩

/-- The search goes through a part in which nothing is read without finding anything. -/
theorem matchesFrom_of_silent (h : p.Silent seen.head? passed rest) :
    p.matchesFrom seen 0 (passed ++ rest) = p.matchesFrom (passed.reverse ++ seen) 0 rest := by
  induction passed generalizing seen with
  | nil => rfl
  | cons c passed ih =>
      obtain ⟨hnone, h⟩ := silent_cons.mp h
      have hnext : p.matchesFrom (c :: seen) 0 (passed ++ rest) =
          p.matchesFrom (passed.reverse ++ c :: seen) 0 rest := ih h
      rw [List.cons_append, matchesFrom, hnone]
      simpa using hnext

/-- The search goes over what an earlier match has taken in the same way. -/
theorem matchesFrom_length (passed rest seen : Text) :
    p.matchesFrom seen passed.length (passed ++ rest) =
      p.matchesFrom (passed.reverse ++ seen) 0 rest := by
  induction passed generalizing seen with
  | nil => rfl
  | cons c passed ih =>
      rw [List.length_cons, List.cons_append, matchesFrom, ih]
      simp

/-- Behind a match the search goes on with what the match has left. -/
theorem matchesFrom_of_reading {value : α}
    (h : p seen.head? (c :: (passed ++ rest)) = some (value, rest)) :
    p.matchesFrom seen 0 (c :: (passed ++ rest)) =
      ⟨seen.reverse, value, rest⟩ :: p.matchesFrom (passed.reverse ++ c :: seen) 0 rest := by
  have hskip : (passed ++ rest).length - rest.length = passed.length := by simp
  rw [matchesFrom, h]
  show _ :: p.matchesFrom (c :: seen) ((passed ++ rest).length - rest.length) _ = _
  rw [hskip, matchesFrom_length]

/-- What is read behind a part in which nothing is read is the first match. -/
theorem head?_allMatches {value : α} {after : Text} (h : p.Silent none passed rest)
    (hne : rest ≠ []) (hread : p passed.getLast? rest = some (value, after)) :
    (p.allMatches (passed ++ rest)).head? = some ⟨passed, value, after⟩ := by
  obtain ⟨c, rest, rfl⟩ := List.exists_cons_of_ne_nil hne
  rw [allMatches, matchesFrom_of_silent h, List.append_nil, matchesFrom, List.head?_reverse, hread,
    List.reverse_reverse]
  rfl

/-- Nothing is read in a text, or something is read at a first place. -/
theorem silent_or_exists_first (before : Option Char) (s : Text) :
    p.Silent before s [] ∨ ∃ passed c rest value after, s = passed ++ c :: rest ∧
      p.Silent before passed (c :: rest) ∧
        p (passed.getLast?.or before) (c :: rest) = some (value, after) := by
  induction s generalizing before with
  | nil => exact Or.inl silent_nil
  | cons c s ih =>
      cases hread : p before (c :: s) with
      | some reading => exact Or.inr ⟨[], c, s, reading.1, reading.2, rfl, silent_nil, hread⟩
      | none =>
          rcases ih (some c) with hsilent | ⟨passed, d, rest, value, after, rfl, hsilent, hread'⟩
          · exact Or.inl (silent_cons.mpr ⟨by rwa [List.append_nil], hsilent⟩)
          · refine Or.inr ⟨c :: passed, d, rest, value, after, rfl, silent_cons.mpr ⟨hread, hsilent⟩, ?_⟩
            rwa [getLast?_cons_or]

/-- The first match is what is read behind a part in which nothing is read. -/
theorem head?_allMatches_iff {s : Text} {m : Match α} :
    (p.allMatches s).head? = some m ↔
      ∃ c rest, s = m.before ++ c :: rest ∧ p.Silent none m.before (c :: rest) ∧
        p m.before.getLast? (c :: rest) = some (m.value, m.after) := by
  constructor
  · intro h
    rcases silent_or_exists_first none s with hsilent | ⟨passed, c, rest, value, after, rfl, hsilent, hread⟩
    · have hnone : p.allMatches (s ++ []) = [] := by
        rw [allMatches, matchesFrom_of_silent hsilent, matchesFrom]
      rw [List.append_nil] at hnone
      rw [hnone] at h
      cases h
    · rw [Option.or_none] at hread
      rw [head?_allMatches hsilent (List.cons_ne_nil c rest) hread] at h
      obtain rfl := Option.some.inj h
      exact ⟨c, rest, rfl, hsilent, hread⟩
  · intro h
    obtain ⟨c, rest, rfl, hsilent, hread⟩ := h
    exact head?_allMatches hsilent (List.cons_ne_nil c rest) hread

/-- Where something is read, there is a first match. -/
theorem exists_head?_allMatches {front : Text} {value : α} {after : Text}
    (h : p front.getLast? (c :: rest) = some (value, after)) :
    ∃ m, (p.allMatches (front ++ c :: rest)).head? = some m := by
  rcases silent_or_exists_first (p := p) none (front ++ c :: rest) with
    hsilent | ⟨passed, d, behind, first, left, hcut, hsilent, hread⟩
  · have hnone := hsilent front c rest rfl
    rw [Option.or_none, List.append_nil, h] at hnone
    cases hnone
  · rw [Option.or_none] at hread
    exact ⟨⟨passed, first, left⟩, head?_allMatches_iff.mpr ⟨d, behind, hcut, hsilent, hread⟩⟩

end Silent

/-! ### All readings -/

/-- What the pattern reads at each place of a text, no place being taken by a match before it. -/
def readings (p : Pattern α) : (seen s : Text) → List (Match α)
  | _, [] => []
  | seen, c :: s =>
      ((p seen.head? (c :: s)).map fun (value, rest) => ⟨seen.reverse, value, rest⟩).toList ++
        readings p (c :: seen) s

/-- Is nothing read inside of what a reading takes? -/
def Apart (p : Pattern α) : Prop :=
  ∀ before c s value rest, p before (c :: s) = some (value, rest) →
    ∃ taken, s = taken ++ rest ∧ p.Silent (some c) taken rest

theorem matchesFrom_eq_readings (hp : p.Apart) (seen s : Text) :
    p.matchesFrom seen 0 s = p.readings seen s := by
  induction s generalizing seen with
  | nil => rfl
  | cons c s ih =>
      rw [readings]
      cases hread : p seen.head? (c :: s) with
      | none =>
          rw [matchesFrom, hread]
          exact ih (c :: seen)
      | some reading =>
          obtain ⟨value, rest⟩ := reading
          obtain ⟨taken, rfl, hsilent⟩ := hp _ _ _ _ _ hread
          -- What was taken may be gone through as well as gone over.
          rw [matchesFrom_of_reading hread, ← matchesFrom_of_silent hsilent, ih]
          rfl

/-- The matches of a pattern whose readings are apart are all of them. -/
theorem allMatches_eq_readings (hp : p.Apart) (s : Text) : p.allMatches s = p.readings [] s :=
  matchesFrom_eq_readings hp [] s

/-- The values read in a text are the one read in front and those read behind the first character. -/
theorem map_value_readings_cons (seen : Text) (c : Char) (s : Text) :
    (p.readings seen (c :: s)).map Match.value =
      ((p seen.head? (c :: s)).map Prod.fst).toList ++ (p.readings (c :: seen) s).map Match.value := by
  rw [readings, List.map_append]
  refine congrArg (· ++ _) ?_
  cases p seen.head? (c :: s) <;> rfl

/-- What stands before a text matters only for what is read in front of it. -/
theorem map_value_readings_congr {seen other : Text}
    (h : ∀ s, p seen.head? s = p other.head? s) (s : Text) :
    (p.readings seen s).map Match.value = (p.readings other s).map Match.value := by
  induction s generalizing seen other with
  | nil => rfl
  | cons c s ih =>
      have hnext : (p.readings (c :: seen) s).map Match.value =
          (p.readings (c :: other) s).map Match.value := ih fun _ => rfl
      rw [map_value_readings_cons, map_value_readings_cons, h, hnext]

theorem mem_readings {seen s : Text} {m : Match α} :
    m ∈ p.readings seen s ↔
      ∃ front c rest, s = front ++ c :: rest ∧ m.before = seen.reverse ++ front ∧
        p (front.getLast?.or seen.head?) (c :: rest) = some (m.value, m.after) := by
  induction s generalizing seen with
  | nil => simp [readings]
  | cons c s ih =>
      rw [readings, List.mem_append, ih, Option.mem_toList, Option.map_eq_some_iff]
      constructor
      · intro h
        rcases h with ⟨reading, hread, rfl⟩ | ⟨front, d, rest, rfl, hbefore, hread⟩
        · exact ⟨[], c, s, rfl, (List.append_nil _).symm, hread⟩
        · refine ⟨c :: front, d, rest, rfl, by simpa using hbefore, ?_⟩
          rwa [getLast?_cons_or]
      · intro h
        obtain ⟨front, d, rest, hcut, hbefore, hread⟩ := h
        cases front with
        | nil =>
            obtain ⟨rfl, rfl⟩ := List.cons.inj hcut
            rw [List.append_nil] at hbefore
            exact Or.inl ⟨(m.value, m.after), hread, by rw [← hbefore]⟩
        | cons e front =>
            obtain ⟨rfl, htail⟩ := List.cons.inj hcut
            rw [getLast?_cons_or] at hread
            exact Or.inr ⟨front, d, rest, htail, by simpa using hbefore, hread⟩

/-- Readings are listed in the order of their places. -/
theorem readings_ascending (seen s : Text) :
    (p.readings seen s).Pairwise fun a b => a.before.length < b.before.length := by
  induction s generalizing seen with
  | nil => exact List.Pairwise.nil
  | cons c s ih =>
      rw [readings, List.pairwise_append]
      refine ⟨?_, ih (c :: seen), ?_⟩
      · cases p seen.head? (c :: s) with
        | none => exact List.Pairwise.nil
        | some reading => exact List.pairwise_singleton _ _
      · intro a ha b hb
        obtain ⟨reading, -, rfl⟩ := Option.map_eq_some_iff.mp (Option.mem_toList.mp ha)
        obtain ⟨front, d, rest, -, hbefore, -⟩ := mem_readings.mp hb
        rw [hbefore]
        simp only [List.length_append, List.length_reverse, List.length_cons]
        omega

/-- The matches are some of the readings, in the same order. -/
theorem matchesFrom_sublist (seen : Text) (skip : Nat) (s : Text) :
    (p.matchesFrom seen skip s).Sublist (p.readings seen s) := by
  induction s generalizing seen skip with
  | nil => exact List.nil_sublist _
  | cons c s ih =>
      rw [readings]
      cases skip with
      | succ skip => exact List.sublist_append_of_sublist_right (ih (c :: seen) skip)
      | zero =>
          rw [matchesFrom]
          cases p seen.head? (c :: s) with
          | none => exact ih (c :: seen) 0
          | some reading => exact (ih (c :: seen) _).cons_cons _

/-- Matches are listed in the order of their places. -/
theorem allMatches_ascending (p : Pattern α) (s : Text) :
    (p.allMatches s).Pairwise fun a b => a.before.length < b.before.length :=
  (readings_ascending [] s).sublist (matchesFrom_sublist [] 0 s)

/-! ### Matches in their order -/

/-- A match is known from where it stands. -/
theorem eq_of_before_eq {s : Text} {m other : Match α} (hm : m ∈ p.allMatches s)
    (hother : other ∈ p.allMatches s) (h : m.before = other.before) : m = other := by
  obtain ⟨rest, hcut, hread⟩ := mem_allMatches hm
  obtain ⟨rest', hcut', hread'⟩ := mem_allMatches hother
  rw [h] at hcut hread
  obtain rfl : rest = rest' := List.append_cancel_left (hcut.symm.trans hcut')
  obtain ⟨hvalue, hafter⟩ := Prod.mk.inj (Option.some.inj (hread.symm.trans hread'))
  cases m
  cases other
  rw [Match.mk.injEq]
  exact ⟨h, hvalue, hafter⟩

/-- What an earlier match has taken is passed before another one is found. -/
theorem length_add_le_of_mem_matchesFrom {seen s : Text} {skip : Nat} {m : Match α}
    (h : m ∈ p.matchesFrom seen skip s) : seen.length + skip ≤ m.before.length := by
  induction s generalizing seen skip with
  | nil => exact absurd h (by simp [matchesFrom])
  | cons c s ih =>
      cases skip with
      | succ skip =>
          have hle := ih h
          rw [List.length_cons] at hle
          omega
      | zero =>
          have hnext : ∀ {skip : Nat}, m ∈ p.matchesFrom (c :: seen) skip s →
              seen.length ≤ m.before.length := by
            intro skip hmem
            have hle := ih hmem
            rw [List.length_cons] at hle
            omega
          unfold matchesFrom at h
          split at h
          case h_1 =>
              rcases List.mem_cons.mp h with rfl | hmem
              · simp
              · exact hnext hmem
          case h_2 => exact hnext h

/-- Each match starts behind what the ones in front of it have taken, told by what stands behind those. -/
theorem matchesFrom_pairwise_behind (seen : Text) (skip : Nat) (s : Text) :
    (p.matchesFrom seen skip s).Pairwise fun a b =>
      seen.length + s.length ≤ b.before.length + a.after.length := by
  induction s generalizing seen skip with
  | nil => exact List.Pairwise.nil
  | cons c s ih =>
      have hnext : ∀ skip, (p.matchesFrom (c :: seen) skip s).Pairwise fun a b =>
          seen.length + (c :: s).length ≤ b.before.length + a.after.length := by
        intro skip
        refine (ih (c :: seen) skip).imp fun {a b} hle => ?_
        rw [List.length_cons] at hle ⊢
        omega
      cases skip with
      | succ skip => exact hnext skip
      | zero =>
          rw [matchesFrom]
          split
          case h_1 value rest hread =>
              refine List.pairwise_cons.mpr ⟨fun b hb => ?_, hnext _⟩
              have hle := length_add_le_of_mem_matchesFrom hb
              show seen.length + (s.length + 1) ≤ b.before.length + rest.length
              rw [List.length_cons] at hle
              omega
          case h_2 => exact hnext 0

/-- **Matches do not overlap**: one starts where the match in front of it ends, or behind that. -/
theorem length_le_of_before_lt {s : Text} {a b : Match α} (ha : a ∈ p.allMatches s)
    (hb : b ∈ p.allMatches s) (hlt : a.before.length < b.before.length) :
    s.length ≤ b.before.length + a.after.length := by
  have hbehind : (p.allMatches s).Pairwise fun a b => s.length ≤ b.before.length + a.after.length := by
    rw [allMatches]
    simpa using matchesFrom_pairwise_behind (p := p) [] 0 s
  -- In the other order of the two matches there is nothing to show, since matches ascend.
  refine List.Pairwise.forall_of_forall_of_flip (R := fun a b => a.before.length < b.before.length →
    s.length ≤ b.before.length + a.after.length) ?_ ?_ ?_ ha hb hlt
  · exact fun a _ hlt => absurd hlt (Nat.lt_irrefl _)
  · refine hbehind.imp ?_
    intro a b hle _
    exact hle
  · refine (allMatches_ascending p s).imp ?_
    intro a b hlt hgt
    exact absurd hlt (Nat.lt_asymm hgt)

/-! ### Readings inside of readings -/

/-- Does a reading that starts in `passed` take something of `rest`? -/
def Covers (p : Pattern α) (before : Option Char) (passed rest : Text) : Prop :=
  ∃ front c back value after, passed = front ++ c :: back ∧
    p (front.getLast?.or before) (c :: (back ++ rest)) = some (value, after) ∧
      after.length < rest.length

/-- Does nothing that is read inside of what a reading takes go on behind it? -/
def Nested (p : Pattern α) : Prop :=
  ∀ before c s value rest, p before (c :: s) = some (value, rest) →
    ∃ taken, s = taken ++ rest ∧ ¬ p.Covers (some c) taken rest

section Nested

variable {before : Option Char} {c : Char} {passed other rest : Text}

theorem not_covers_nil : ¬ p.Covers before [] rest := by
  rintro ⟨front, c, back, -, -, hcut, -⟩
  exact absurd hcut (by simp)

theorem covers_cons :
    p.Covers before (c :: passed) rest ↔
      (∃ value after, p before (c :: (passed ++ rest)) = some (value, after) ∧
        after.length < rest.length) ∨ p.Covers (some c) passed rest := by
  constructor
  · rintro ⟨front, d, back, value, after, hcut, hread, hlength⟩
    cases front with
    | nil =>
        obtain ⟨rfl, rfl⟩ := List.cons.inj hcut
        exact Or.inl ⟨value, after, hread, hlength⟩
    | cons e front =>
        obtain ⟨rfl, rfl⟩ := List.cons.inj hcut
        rw [getLast?_cons_or] at hread
        exact Or.inr ⟨front, d, back, value, after, rfl, hread, hlength⟩
  · rintro (⟨value, after, hread, hlength⟩ | ⟨front, d, back, value, after, rfl, hread, hlength⟩)
    · exact ⟨[], c, passed, value, after, rfl, hread, hlength⟩
    · refine ⟨c :: front, d, back, value, after, rfl, ?_, hlength⟩
      rwa [getLast?_cons_or]

/-- What covers something behind two parts covers it from the second one, or it starts in the first
one and so covers something behind that. -/
theorem Covers.of_append (h : p.Covers before (passed ++ other) rest) :
    p.Covers before passed (other ++ rest) ∨ p.Covers (passed.getLast?.or before) other rest := by
  induction passed generalizing before with
  | nil => exact Or.inr h
  | cons c passed ih =>
      rw [List.cons_append, covers_cons] at h
      rw [getLast?_cons_or]
      rcases h with ⟨value, after, hread, hlength⟩ | h
      · rw [List.append_assoc] at hread
        refine Or.inl (covers_cons.mpr (Or.inl ⟨value, after, hread, ?_⟩))
        rw [List.length_append]
        omega
      · exact (ih h).imp_left fun hpassed => covers_cons.mpr (Or.inr hpassed)

theorem Covers.append_left (passed : Text) (h : p.Covers (passed.getLast?.or before) other rest) :
    p.Covers before (passed ++ other) rest := by
  induction passed generalizing before with
  | nil => exact h
  | cons c passed ih =>
      rw [getLast?_cons_or] at h
      exact covers_cons.mpr (Or.inr (ih h))

/-- Is it read somewhere in `s`, and not covered by what is read in `s` before? -/
def IsOutermost (p : Pattern α) (seen s : Text) (m : Match α) : Prop :=
  ∃ front c rest, s = front ++ c :: rest ∧ m.before = seen.reverse ++ front ∧
    p (front.getLast?.or seen.head?) (c :: rest) = some (m.value, m.after) ∧
      ¬ p.Covers seen.head? front (c :: rest)

section Outermost

variable {c : Char} {seen s taken after : Text} {value : α} {m : Match α}

theorem isOutermost_cons_of_none (hread : p seen.head? (c :: s) = none) :
    p.IsOutermost seen (c :: s) m ↔ p.IsOutermost (c :: seen) s m := by
  constructor
  · rintro ⟨front, d, rest, hcut, hbefore, hvalue, hfree⟩
    cases front with
    | nil =>
        obtain ⟨rfl, rfl⟩ := List.cons.inj hcut
        exact absurd (hread.symm.trans hvalue) (by simp)
    | cons e front =>
        obtain ⟨rfl, rfl⟩ := List.cons.inj hcut
        rw [getLast?_cons_or] at hvalue
        exact ⟨front, d, rest, rfl, by simpa using hbefore, hvalue,
          fun h => hfree (covers_cons.mpr (Or.inr h))⟩
  · rintro ⟨front, d, rest, rfl, hbefore, hvalue, hfree⟩
    refine ⟨c :: front, d, rest, rfl, by simpa using hbefore, ?_, ?_⟩
    · rwa [getLast?_cons_or]
    · rw [covers_cons, hread]
      simpa using hfree

/-- Of what is read in front, and inside of what that takes, only the first is not covered. -/
theorem isOutermost_cons_of_reading (hread : p seen.head? (c :: (taken ++ after)) = some (value, after))
    (hnested : ¬ p.Covers (some c) taken after) :
    p.IsOutermost seen (c :: (taken ++ after)) m ↔
      m = ⟨seen.reverse, value, after⟩ ∨ p.IsOutermost (taken.reverse ++ c :: seen) after m := by
  have hhead : (taken.reverse ++ c :: seen).head? = taken.getLast?.or (some c) := by
    rw [List.head?_append, List.head?_reverse]
    rfl
  rw [IsOutermost, IsOutermost, hhead]
  constructor
  · rintro ⟨front, d, rest, hcut, hbefore, hvalue, hfree⟩
    cases front with
    | nil =>
        obtain ⟨rfl, rfl⟩ := List.cons.inj hcut
        obtain ⟨hvalue, hafter⟩ := Prod.mk.inj (Option.some.inj (hread.symm.trans hvalue))
        left
        cases m
        simp_all
    | cons e front =>
        obtain ⟨rfl, hbehind⟩ : c = e ∧ taken ++ after = front ++ d :: rest := List.cons.inj hcut
        rcases Nat.lt_or_ge front.length taken.length with hlt | hge
        · refine absurd (covers_cons.mpr (Or.inl ⟨value, after, hbehind ▸ hread, ?_⟩)) hfree
          have hlength := congrArg List.length hbehind
          simp only [List.length_append] at hlength
          omega
        · obtain ⟨front, rfl⟩ := List.prefix_of_prefix_length_le ⟨after, hbehind⟩ ⟨_, rfl⟩ hge
          rw [List.append_assoc] at hbehind
          rw [getLast?_cons_or, List.getLast?_append, Option.or_assoc] at hvalue
          exact Or.inr ⟨front, d, rest, List.append_cancel_left hbehind, by simpa using hbefore, hvalue,
            fun h => hfree (covers_cons.mpr (Or.inr (h.append_left taken)))⟩
  · rintro (rfl | ⟨front, d, rest, rfl, hbefore, hvalue, hfree⟩)
    · exact ⟨[], c, taken ++ after, rfl, (List.append_nil _).symm, hread, not_covers_nil⟩
    · refine ⟨c :: (taken ++ front), d, rest, by simp, by simpa using hbefore, ?_, ?_⟩
      · rwa [getLast?_cons_or, List.getLast?_append, Option.or_assoc]
      · -- What was taken is covered up to its end, and no further.
        intro h
        rcases covers_cons.mp h with ⟨value', after', hread', hlength⟩ | h
        · rw [List.append_assoc, hread] at hread'
          obtain ⟨-, rfl⟩ := Prod.mk.inj (Option.some.inj hread')
          rw [List.length_append] at hlength
          omega
        · exact (h.of_append).elim hnested hfree

end Outermost

theorem mem_matchesFrom_iff (hp : p.Nested) {seen s : Text} {m : Match α} :
    m ∈ p.matchesFrom seen 0 s ↔ p.IsOutermost seen s m := by
  induction hn : s.length using Nat.strongRecOn generalizing seen s with
  | ind n ih =>
      subst hn
      cases s with
      | nil => simp [matchesFrom, IsOutermost]
      | cons c s =>
          cases hread : p seen.head? (c :: s) with
          | none =>
              rw [isOutermost_cons_of_none hread, matchesFrom, hread]
              exact ih s.length (Nat.lt_succ_self _) rfl
          | some reading =>
              obtain ⟨value, after⟩ := reading
              obtain ⟨taken, rfl, hnested⟩ := hp _ _ _ _ _ hread
              have hshorter : after.length < (c :: (taken ++ after)).length := by
                rw [List.length_cons, List.length_append]
                omega
              rw [isOutermost_cons_of_reading hread hnested, matchesFrom_of_reading hread,
                List.mem_cons, ih after.length hshorter rfl]

/-- **The matches of a pattern whose readings are nested** are the readings that no reading before them
covers. -/
theorem mem_allMatches_iff (hp : p.Nested) {s : Text} {m : Match α} :
    m ∈ p.allMatches s ↔
      ∃ c rest, s = m.before ++ c :: rest ∧
        p m.before.getLast? (c :: rest) = some (m.value, m.after) ∧
          ¬ p.Covers none m.before (c :: rest) := by
  rw [allMatches, mem_matchesFrom_iff hp]
  constructor
  · intro h
    obtain ⟨front, c, rest, hcut, hbefore, hread, hfree⟩ := h
    obtain rfl : m.before = front := hbefore
    rw [List.head?_nil, Option.or_none] at hread
    exact ⟨c, rest, hcut, hread, hfree⟩
  · intro h
    obtain ⟨c, rest, hcut, hread, hfree⟩ := h
    exact ⟨m.before, c, rest, hcut, rfl, by rwa [List.head?_nil, Option.or_none], hfree⟩

end Nested

end ActionCalls.Pattern
