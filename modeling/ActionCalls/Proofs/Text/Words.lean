import ActionCalls.Proofs.Text.Digits
import ActionCalls.Proofs.Text.Matches
import ActionCalls.Text.Word

/-!
# Words and gaps

A scanner takes a word as far as it goes, and blanks as far as they go. What it takes is known from
the text alone: a **run** of characters of one kind with something of another kind, or nothing, on
both sides.
-/

namespace ActionCalls

open Text (StopsAt)

namespace Text

variable {s word gap rest : Text}

theorem word?_eq_some_iff :
    s.word? = some (word, rest) ↔
      word ≠ [] ∧ s = word ++ rest ∧ (∀ c ∈ word, isWord c) ∧ StopsAt isWord rest := by
  rw [← takeWhile_eq_and_dropWhile_eq_iff]
  show (if s.word = [] then none else some (s.word, s.afterWord)) = some (word, rest) ↔
    word ≠ [] ∧ s.word = word ∧ s.afterWord = rest
  split
  case isTrue hnil =>
      rw [hnil]
      refine iff_of_false (by simp) ?_
      rintro ⟨hne, rfl, -⟩
      exact hne rfl
  case isFalse hne =>
      rw [Option.some_inj, Prod.mk.injEq]
      refine (and_iff_right_of_imp ?_).symm
      rintro ⟨rfl, -⟩
      exact hne

/-- Is the text made of blanks, at least one? -/
def IsGap (gap : Text) : Prop :=
  gap ≠ [] ∧ ∀ c ∈ gap, isBlank c = true

theorem skipBlanks_eq_iff :
    s.skipBlanks = rest ↔ ∃ gap, s = gap ++ rest ∧ (∀ c ∈ gap, isBlank c) ∧ StopsAt isBlank rest := by
  simp only [← takeWhile_eq_and_dropWhile_eq_iff, exists_eq_left']
  rfl

theorem afterBlanks?_eq_some_iff :
    s.afterBlanks? = some rest ↔ ∃ gap, s = gap ++ rest ∧ IsGap gap ∧ StopsAt isBlank rest := by
  cases s with
  | nil =>
      refine iff_of_false (by simp [afterBlanks?]) ?_
      rintro ⟨gap, hcut, ⟨hne, -⟩, -⟩
      exact hne (List.append_eq_nil_iff.mp hcut.symm).1
  | cons c s =>
      rw [afterBlanks?]
      cases hc : isBlank c with
      | true =>
          have hskip : skipBlanks (c :: s) = skipBlanks s := List.dropWhile_cons_of_pos hc
          rw [if_pos rfl, Option.some_inj, ← hskip, skipBlanks_eq_iff]
          refine exists_congr fun gap => and_congr_right fun hcut => and_congr_left fun hstops => ?_
          refine (and_iff_right_of_imp fun _ => ?_).symm
          -- Without a gap the text would start with what stands behind it, which is no blank.
          rintro rfl
          obtain rfl : c :: s = rest := hcut
          exact absurd (hstops c rfl) (by simp [hc])
      | false =>
          refine iff_of_false (by simp) ?_
          rintro ⟨gap, hcut, ⟨hne, hblank⟩, -⟩
          obtain ⟨d, gap, rfl⟩ := List.exists_cons_of_ne_nil hne
          obtain ⟨rfl, -⟩ := List.cons.inj hcut
          exact absurd (hblank c List.mem_cons_self) (by simp [hc])

/-- What stands behind all characters up to a mark starts with the first such mark. -/
theorem dropWhile_ne_eq_iff {mark : Char} :
    s.dropWhile (· ≠ mark) = mark :: rest ↔ ∃ front, s = front ++ mark :: rest ∧ mark ∉ front := by
  have hstops : StopsAt (fun c => decide (c ≠ mark)) (mark :: rest) := stopsAt_cons (by simp)
  have hfront : ∀ front : Text, (∀ c ∈ front, decide (c ≠ mark) = true) ↔ mark ∉ front := by
    intro front
    simp only [decide_eq_true_iff, ne_eq, List.forall_mem_ne']
  constructor
  · intro h
    obtain ⟨hcut, hne, -⟩ := takeWhile_eq_and_dropWhile_eq_iff.mp ⟨rfl, h⟩
    exact ⟨_, hcut, (hfront _).mp hne⟩
  · intro h
    obtain ⟨front, hcut, hmem⟩ := h
    exact (takeWhile_eq_and_dropWhile_eq_iff.mpr ⟨hcut, (hfront front).mpr hmem, hstops⟩).2

/-- A text is cut at the first mark in one way only. -/
theorem append_mark_inj {mark : Char} {front other behind : Text}
    (h : front ++ mark :: rest = other ++ mark :: behind) (hfront : mark ∉ front)
    (hother : mark ∉ other) : front = other ∧ rest = behind := by
  have hrest : (front ++ mark :: rest).dropWhile (· ≠ mark) = mark :: rest :=
    dropWhile_ne_eq_iff.mpr ⟨front, rfl, hfront⟩
  have hbehind : (front ++ mark :: rest).dropWhile (· ≠ mark) = mark :: behind :=
    dropWhile_ne_eq_iff.mpr ⟨other, h, hother⟩
  obtain ⟨-, rfl⟩ := List.cons.inj (hrest.symm.trans hbehind)
  exact ⟨List.append_cancel_right h, rfl⟩

/-- A part without a mark, in front of a text, stands in front of the first such mark in it. -/
theorem prefix_of_not_mem {mark : Char} {passed front behind : Text} (hpassed : mark ∉ passed)
    (h : passed ++ rest = front ++ mark :: behind) : passed <+: front := by
  rcases List.append_eq_append_iff.mp h with ⟨middle, rfl, -⟩ | ⟨middle, rfl, hmark⟩
  · exact List.prefix_append passed middle
  · cases middle with
    | nil => simp
    | cons d middle =>
        obtain ⟨rfl, -⟩ := List.cons.inj hmark
        exact absurd (List.mem_append_right front List.mem_cons_self) hpassed

end Text

/-! ### The words of a text -/

/-- Is the value a run of word characters of the text, as long as it goes on both sides? -/
structure IsRun (s : Text) (m : Match Text) : Prop where
  cut : s = m.before ++ m.value ++ m.after
  ne_nil : m.value ≠ []
  word : ∀ c ∈ m.value, isWord c
  starts : ∀ c ∈ m.before.getLast?, isWord c = false
  ends : ∀ c ∈ m.after.head?, isWord c = false

/-- A whole word. -/
def wholeWord : Pattern Text := fun before s =>
  if Text.isBoundary before s then s.word? else none

/-- The words of a text, with what stands before and behind each. -/
def Text.words (s : Text) : List (Match Text) :=
  wholeWord.readings [] s

section WholeWord

variable {before : Option Char} {c : Char} {s word behind : Text}

/-- A word is read where a word character follows on another character. -/
theorem wholeWord_eq_some_iff :
    wholeWord before (c :: s) = some (word, behind) ↔
      (isWord c = true ∧ before.any isWord = false) ∧ Text.word (c :: s) = word ∧
        Text.afterWord (c :: s) = behind := by
  have hboundary : Text.isBoundary before (c :: s) = (before.any isWord != isWord c) := rfl
  have hword : Text.word (c :: s) = if isWord c then c :: Text.word s else [] := List.takeWhile_cons
  cases hc : isWord c
  · simp [wholeWord, Text.word?, hword, hc]
  · cases hbefore : before.any isWord <;>
      simp [wholeWord, Text.word?, hword, hboundary, hbefore, hc]

/-- A run stands where a whole word is read. -/
theorem isRun_iff_wholeWord {before word behind : Text} :
    IsRun s ⟨before, word, behind⟩ ↔
      ∃ c rest, s = before ++ c :: rest ∧ wholeWord before.getLast? (c :: rest) = some (word, behind) := by
  constructor
  · intro h
    obtain ⟨hcut, hne, hword, hstarts, hends⟩ := h
    cases word with
    | nil => exact absurd rfl hne
    | cons c word =>
        refine ⟨c, word ++ behind, by simpa using hcut, wholeWord_eq_some_iff.mpr ⟨⟨?_, ?_⟩, ?_, ?_⟩⟩
        · exact hword c List.mem_cons_self
        · cases hlast : before.getLast? with
          | none => rfl
          | some d => exact hstarts d hlast
        · exact Text.takeWhile_run hword hends
        · exact Text.dropWhile_run hword hends
  · intro h
    obtain ⟨c, rest, rfl, hread⟩ := h
    obtain ⟨⟨hc, hstarts⟩, rfl, rfl⟩ := wholeWord_eq_some_iff.mp hread
    have hword : Text.word (c :: rest) = c :: Text.word rest := List.takeWhile_cons_of_pos hc
    exact {
      cut := by rw [List.append_assoc, Text.word_append_afterWord]
      ne_nil := by simp [hword]
      word := fun d hd => List.all_eq_true.mp List.all_takeWhile d hd
      starts := fun d hd => by rw [Option.mem_def.mp hd] at hstarts; exact hstarts
      ends := Text.stopsAt_dropWhile isWord (c :: rest) }

theorem Text.mem_words_iff {m : Match Text} : m ∈ Text.words s ↔ IsRun s m := by
  rw [Text.words, Pattern.mem_readings]
  constructor
  · intro h
    obtain ⟨front, c, rest, hcut, hbefore, hread⟩ := h
    obtain rfl : m.before = front := hbefore
    rw [List.head?_nil, Option.or_none] at hread
    exact isRun_iff_wholeWord.mpr ⟨c, rest, hcut, hread⟩
  · intro h
    obtain ⟨c, rest, hcut, hread⟩ := isRun_iff_wholeWord.mp h
    exact ⟨m.before, c, rest, hcut, rfl, by rwa [List.head?_nil, Option.or_none]⟩

end WholeWord

end ActionCalls
