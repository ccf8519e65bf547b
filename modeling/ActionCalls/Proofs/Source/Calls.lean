import ActionCalls.Proofs.Text.Words
import ActionCalls.Source.Call

/-!
# Called names are words before a parenthesis

The names called in a body are found by a search for a pattern. This module says what they are without
a search: **the words of the body**, in their order, that have an opening parenthesis as the next
character which is not blank, keywords and words with a digit in front left out. Here a word is a run
of word characters that cannot be made longer on either side (`IsRun`).

A called word takes nothing but itself, blanks and the parenthesis, and no other word starts at any of
these places. So no called word hides another one. A semicolon belongs to no word and cannot stand
between a word and its parenthesis, so what is called before it and behind it is called apart.
-/

namespace ActionCalls

open Text (StopsAt)

namespace Source

/-- A called word is a whole word, with a parenthesis behind it. -/
theorem calledWord_eq (before : Option Char) (s : Text) :
    calledWord before s = (wholeWord before s).bind fun (word, behind) =>
      (behind.skipBlanks.after? ['(']).map (word, ·) := by
  unfold calledWord wholeWord
  cases Text.isBoundary before s with
  | false => rfl
  | true =>
      cases s.word? with
      | none => rfl
      | some found =>
          show ((found.2.skipBlanks.after? ['(']).bind fun rest => some (found.1, rest)) = _
          exact (Option.map_eq_bind ..).symm

section Apart

variable {before : Option Char} {c : Char} {s rest : Text}

theorem calledWord_eq_none_of_not_isWord (hc : isWord c = false) :
    calledWord before (c :: s) = none := by
  have hnone : wholeWord before (c :: s) = none := by
    refine Option.eq_none_iff_forall_ne_some.mpr fun reading hread => ?_
    exact absurd (wholeWord_eq_some_iff.mp hread).1.1 (by simp [hc])
  rw [calledWord_eq, hnone]
  rfl

theorem calledWord_eq_none_of_before (hbefore : before.any isWord = true) :
    calledWord before (c :: s) = none := by
  have hnone : wholeWord before (c :: s) = none := by
    refine Option.eq_none_iff_forall_ne_some.mpr fun reading hread => ?_
    exact absurd (wholeWord_eq_some_iff.mp hread).1.2 (by simp [hbefore])
  rw [calledWord_eq, hnone]
  rfl

/-- No called word starts behind the first character of a word. -/
theorem silent_of_isWord {run : Text} (hbefore : before.any isWord = true)
    (hrun : ∀ c ∈ run, isWord c = true) : calledWord.Silent before run rest := by
  induction run generalizing before with
  | nil => exact Pattern.silent_nil
  | cons c run ih =>
      have hnext : calledWord.Silent (some c) run rest :=
        ih (hrun c List.mem_cons_self) fun d hd => hrun d (List.mem_cons_of_mem c hd)
      exact Pattern.silent_cons.mpr ⟨calledWord_eq_none_of_before hbefore, hnext⟩

theorem silent_of_not_isWord {gap : Text} (hgap : ∀ c ∈ gap, isWord c = false) :
    calledWord.Silent before gap rest := by
  rintro front c back rfl
  exact calledWord_eq_none_of_not_isWord (hgap c (List.mem_append_right _ List.mem_cons_self))

/-- What a called word takes: the rest of the word, blanks, and the parenthesis. -/
theorem calledWord_apart : calledWord.Apart := by
  intro before c s value rest hread
  rw [calledWord_eq, Option.bind_eq_some_iff] at hread
  obtain ⟨⟨word, behind⟩, hword, hread⟩ := hread
  obtain ⟨⟨hc, -⟩, -, hbehind⟩ := wholeWord_eq_some_iff.mp hword
  obtain ⟨rest', hafter, hrest⟩ := Option.map_eq_some_iff.mp hread
  obtain rfl : rest' = rest := congrArg Prod.snd hrest
  have hparen : behind.skipBlanks = '(' :: rest' := Text.after?_eq_some_iff.mp hafter
  have hsame : Text.afterWord s = behind := (List.dropWhile_cons_of_pos hc).symm.trans hbehind
  let gap := behind.takeWhile isBlank ++ ['(']
  have hgap : ∀ d ∈ gap, isWord d = false := by
    intro d hd
    rcases List.mem_append.mp hd with hblank | hd
    · exact isWord_of_isBlank (List.all_eq_true.mp List.all_takeWhile d hblank)
    · obtain rfl := List.mem_singleton.mp hd
      decide
  have hcut : behind = gap ++ rest' := by
    rw [List.append_assoc, List.singleton_append, ← hparen]
    exact List.takeWhile_append_dropWhile.symm
  refine ⟨Text.word s ++ gap, ?_, Pattern.Silent.append ?_ fun _ => silent_of_not_isWord hgap⟩
  · rw [List.append_assoc, ← hcut, ← hsame, Text.word_append_afterWord]
  · exact silent_of_isWord hc fun d hd => List.all_eq_true.mp List.all_takeWhile d hd

end Apart

/-! ### Calls among the words -/

/-- Does the word call a method? The next character behind it that is not blank is an opening
parenthesis, and it is neither a keyword nor starts with a digit. -/
structure IsCall (m : Match Text) : Prop where
  followed : m.after.find? (fun c => !isBlank c) = some '('
  not_keyword : String.ofList m.value ∉ keywords
  not_digit : ∀ c ∈ m.value.head?, c.isDigit = false

/-- The calls of a text, in its order: the words that call a method, each at its place. -/
structure ListsCalls (s : Text) (calls : List (Match Text)) : Prop where
  ascending : calls.Pairwise fun a b => a.before.length < b.before.length
  mem_iff : ∀ m, m ∈ calls ↔ IsRun s m ∧ IsCall m

/-- The next character that is not blank is the one that follows the blanks. -/
theorem find?_eq_head?_skipBlanks (s : Text) :
    s.find? (fun c => !isBlank c) = s.skipBlanks.head? := by
  induction s with
  | nil => rfl
  | cons c s ih =>
      rw [List.find?_cons, Text.skipBlanks, List.dropWhile_cons]
      cases isBlank c with
      | true => exact ih
      | false => rfl

theorem isCallable_iff {name : Text} :
    isCallable name = true ↔
      String.ofList name ∉ keywords ∧ ∀ c ∈ name.head?, c.isDigit = false := by
  rw [isCallable, Bool.and_eq_true]
  refine and_congr (by simp [isKeyword]) ?_
  cases name.head? <;> simp

/-- Does an opening parenthesis stand behind the word, blanks between them allowed? -/
def isFollowed (m : Match Text) : Bool :=
  m.after.skipBlanks.head? = some '('

theorem isCall_iff {m : Match Text} :
    IsCall m ↔ isFollowed m = true ∧ isCallable m.value = true := by
  rw [isFollowed, isCallable_iff, decide_eq_true_iff, ← find?_eq_head?_skipBlanks]
  exact ⟨fun h => ⟨h.followed, h.not_keyword, h.not_digit⟩, fun h => ⟨h.1, h.2.1, h.2.2⟩⟩

/-- The name of a called word is the whole word, if it is followed by a parenthesis. -/
theorem map_fst_calledWord (before : Option Char) (s : Text) :
    (calledWord before s).map Prod.fst = (wholeWord before s).bind fun (word, behind) =>
      if behind.skipBlanks.head? = some '(' then some word else none := by
  rw [calledWord_eq, Option.map_bind]
  refine congrArg (Option.bind _) (funext fun ⟨word, behind⟩ => ?_)
  show ((behind.skipBlanks.after? ['(']).map (word, ·)).map Prod.fst =
    if behind.skipBlanks.head? = some '(' then some word else none
  cases behind.skipBlanks with
  | nil => rfl
  | cons c s => by_cases hc : c = '(' <;> simp [Text.after?, hc]

/-- The called words of a text are those of its words that are followed by a parenthesis. -/
theorem map_value_readings_calledWord (seen s : Text) :
    (calledWord.readings seen s).map Match.value =
      ((wholeWord.readings seen s).filter isFollowed).map Match.value := by
  induction s generalizing seen with
  | nil => rfl
  | cons c s ih =>
      rw [Pattern.map_value_readings_cons, Pattern.readings, List.filter_append, List.map_append, ih,
        map_fst_calledWord]
      refine congrArg (· ++ _) ?_
      cases wholeWord seen.head? (c :: s) with
      | none => rfl
      | some found => by_cases hfollowed : found.2.skipBlanks.head? = some '(' <;>
          simp [isFollowed, hfollowed]

/-- The calls of a text: its words that are followed by a parenthesis and may name a method. -/
def calls (s : Text) : List (Match Text) :=
  (Text.words s).filter fun m => isFollowed m && isCallable m.value

theorem listsCalls_calls (s : Text) : ListsCalls s (calls s) where
  ascending := (Pattern.readings_ascending [] s).filter _
  mem_iff m := by
    rw [calls, List.mem_filter, Text.mem_words_iff, Bool.and_eq_true, isCall_iff]

theorem callNames_eq_map_calls (s : Text) :
    callNames s = (calls s).map fun m => String.ofList m.value := by
  have hall : calledWord.all s = ((Text.words s).filter isFollowed).map Match.value := by
    rw [Pattern.all, Pattern.allMatches_eq_readings calledWord_apart, map_value_readings_calledWord]
    rfl
  have hfilter : calls s =
      ((Text.words s).filter isFollowed).filter fun m => isCallable m.value := by
    rw [calls, List.filter_filter]
    simp only [Bool.and_comm]
  rw [callNames, hall, hfilter, List.filter_map, List.map_map]
  rfl

/-! ### Texts put together -/

section Semicolon

variable (before : Option Char) (c : Char) (s rest : Text)

/-- A semicolon behind a text changes nothing of the words that start in the text. -/
theorem wholeWord_append :
    wholeWord before (c :: (s ++ ';' :: rest)) =
      (wholeWord before (c :: s)).map fun (word, behind) => (word, behind ++ ';' :: rest) := by
  have hstops : StopsAt isWord (';' :: rest) := Text.stopsAt_cons (by decide)
  obtain ⟨hword, hafter⟩ := Text.takeWhile_append_of_stopsAt (c :: s) hstops
  have hread : Text.word? (c :: (s ++ ';' :: rest)) =
      (Text.word? (c :: s)).map fun (word, behind) => (word, behind ++ ';' :: rest) := by
    unfold Text.word? Text.word Text.afterWord
    rw [← List.cons_append, hword, hafter]
    split <;> rfl
  have hboundary : Text.isBoundary before (c :: (s ++ ';' :: rest)) =
      Text.isBoundary before (c :: s) := rfl
  rw [wholeWord, wholeWord, hread, hboundary]
  split <;> rfl

theorem map_fst_calledWord_append :
    (calledWord before (c :: (s ++ ';' :: rest))).map Prod.fst =
      (calledWord before (c :: s)).map Prod.fst := by
  rw [map_fst_calledWord, map_fst_calledWord, wholeWord_append, Option.bind_map]
  refine congrArg (Option.bind _) (funext fun ⟨word, behind⟩ => ?_)
  -- The semicolon is no blank, so it is skipped by no word that looks for its parenthesis.
  have hskip : Text.skipBlanks (behind ++ ';' :: rest) = behind.skipBlanks ++ ';' :: rest :=
    (Text.takeWhile_append_of_stopsAt behind (Text.stopsAt_cons (by decide))).2
  show (if (Text.skipBlanks (behind ++ ';' :: rest)).head? = some '(' then some word else none) =
    if behind.skipBlanks.head? = some '(' then some word else none
  rw [hskip]
  cases behind.skipBlanks <;> simp

theorem calledWord_behind_semicolon : calledWord (some ';') s = calledWord none s := by
  have hboundary : Text.isBoundary (some ';') s = Text.isBoundary none s := by
    cases s with
    | nil => decide
    | cons c s => simp [Text.isBoundary, show isWord ';' = false by decide]
  rw [calledWord, calledWord, hboundary]

end Semicolon

/-- What is read before a semicolon and behind it is read apart. -/
theorem map_value_readings_append (seen x y : Text) :
    (calledWord.readings seen (x ++ ';' :: y)).map Match.value =
      (calledWord.readings seen x).map Match.value ++ (calledWord.readings [] y).map Match.value := by
  induction x generalizing seen with
  | nil =>
      rw [List.nil_append, Pattern.map_value_readings_cons,
        calledWord_eq_none_of_not_isWord (by decide)]
      exact Pattern.map_value_readings_congr calledWord_behind_semicolon y
  | cons c x ih =>
      rw [List.cons_append, Pattern.map_value_readings_cons, Pattern.map_value_readings_cons,
        map_fst_calledWord_append, ih, List.append_assoc]

theorem callNames_append_semicolon (x y : Text) :
    callNames (x ++ ';' :: y) = callNames x ++ callNames y := by
  have hall : calledWord.all (x ++ ';' :: y) = calledWord.all x ++ calledWord.all y := by
    simp only [Pattern.all, Pattern.allMatches_eq_readings calledWord_apart]
    exact map_value_readings_append [] x y
  rw [callNames, hall, List.filter_append, List.map_append]
  rfl

/-- **The called names are those of the words before a parenthesis.** They come in the order of the
text, each as often as it stands there, and a semicolon separates them. -/
theorem callNames_listed_and_append :
    (∀ s, ∃ calls, ListsCalls s calls ∧ callNames s = calls.map fun m => String.ofList m.value) ∧
      ∀ x y, callNames (x ++ ';' :: y) = callNames x ++ callNames y :=
  ⟨fun s => ⟨calls s, listsCalls_calls s, callNames_eq_map_calls s⟩, callNames_append_semicolon⟩

end Source

end ActionCalls
