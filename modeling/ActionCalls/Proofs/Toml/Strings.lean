import ActionCalls.Proofs.Text.Digits
import ActionCalls.Toml.Printer
import ActionCalls.Toml.Quoted

/-!
# Strings read back from any of their forms

A string is written in one of four forms, and **every form gives it back** in front of anything but
another quote (`anyString?_renderString`). Between double quotes that takes no knowledge of why the
form was chosen: what is written for a character is read as this character (`Escaped`). Between single
quotes nothing can be escaped, so the form is chosen only where every character may stand as it is.

Over several lines, quotes may stand as they are, even right before the closing ones. What makes
them readable is that **no three of them stand in a row**: behind a quote, either the closing quotes
follow, perhaps after one more, or no two quotes do. A line end is put behind the opening quotes when
the string has line ends, so that the line end that the reader drops there is never one of the string.
-/

namespace ActionCalls.Toml

open Text (StopsAt)

/-- Does the character open and close strings? -/
def isQuote (c : Char) : Bool := c == '"' || c == '\''

/-! ### Characters between double quotes -/

/-- What is written for a character between double quotes: a backslash with a letter or with the four
digits of its number, or the character itself. -/
inductive Escaped : Char → Text → Prop
  | letter {c letter : Char} (h : unescape? letter = some c) : Escaped c ['\\', letter]
  | digits {a b c d e : Char} (h : charOfHex? [a, b, d, e] = some c) :
      Escaped c ['\\', 'u', a, b, d, e]
  | plain {c : Char} (hplain : isPlain c) (hslash : c ≠ '\\') (hquote : c ≠ '"') : Escaped c [c]

/-- What no control character is, can stand in a string. -/
theorem isPlain_of_isControl_eq_false {c : Char} (h : isControl c = false) (hline : c ≠ '\n') :
    isPlain c := by
  simp only [isControl, isPlain] at *
  grind

/-- The four digits that are written for a control character are read as this character. -/
theorem charOfHex?_fourHexDigits {c : Char} (h : isControl c) :
    charOfHex? (fourHexDigits c.toNat) = some c := by
  have hall : ∀ n < 0x80, charOfHex? (fourHexDigits n) = some (Char.ofNat n) := by decide
  have hlt : c.toNat < 0x80 := by
    simp only [isControl, Bool.or_eq_true, Bool.and_eq_true, decide_eq_true_eq, beq_iff_eq] at h
    rcases h with h | rfl
    · omega
    · decide
  rw [hall c.toNat hlt, Char.ofNat_toNat]

theorem escaped_escapeChar {c : Char} (hquote : c ≠ '"') : Escaped c (escapeChar c) := by
  unfold escapeChar
  -- Six characters are written with a letter.
  iterate 6
    split
    next h => subst h; exact .letter rfl
  split
  next hcontrol => exact .digits (charOfHex?_fourHexDigits hcontrol)
  next hslash _ _ hline _ _ hcontrol =>
    exact .plain (isPlain_of_isControl_eq_false (by simpa using hcontrol) hline) hslash hquote

/-- A character that has a letter is not told apart from line ends and numbers by it. -/
theorem letter_of_unescape? {c letter : Char} (h : unescape? letter = some c) :
    letter ∈ ['b', 't', 'n', 'f', 'r', '"', '\\'] := by
  unfold unescape? at h
  grind

/-- What is written for a character starts neither with a quote nor with a line end. -/
theorem Escaped.exists_cons {c : Char} {w : Text} (h : Escaped c w) :
    ∃ d v, w = d :: v ∧ d ∉ ['"', '\n', '\r'] := by
  cases h with
  | letter h => exact ⟨_, _, rfl, by decide⟩
  | digits h => exact ⟨_, _, rfl, by decide⟩
  | plain hplain hslash hquote =>
      refine ⟨c, [], rfl, ?_⟩
      have hline : c ∉ ['\n', '\r'] := Text.not_mem_of_kind hplain rfl
      grind

variable {c : Char} {w s rest : Text}

theorem basicBody?_escaped (h : Escaped c w) :
    basicBody? (w ++ s) = consChar (some c) (basicBody? s) := by
  cases h with
  | @letter _ letter h =>
      have hletter := letter_of_unescape? h
      rw [List.cons_append, List.singleton_append, basicBody?, h]
      · rintro _ _ _ _ _ rfl
        exact absurd hletter (by decide)
      · rintro _ _ _ _ _ _ _ _ _ rfl
        exact absurd hletter (by decide)
  | digits h =>
      simp only [List.cons_append, List.nil_append]
      rw [basicBody?, h]
  | plain hplain hslash hquote =>
      rw [List.singleton_append, basicBody?, if_pos ⟨hplain, hslash⟩]
      · exact hquote
      · exact fun _ _ _ _ _ hc _ => hslash hc
      · exact fun _ _ _ _ _ _ _ _ _ hc _ => hslash hc
      · exact fun _ _ hc _ => hslash hc

theorem longBasicBody?_escaped (h : Escaped c w) :
    longBasicBody? false (w ++ s) = consChar (some c) (longBasicBody? false s) := by
  cases h with
  | @letter _ letter h =>
      have hletter := letter_of_unescape? h
      -- The backslash does not stand at the end of a line.
      have hends : endsLine (letter :: s) = false := by
        simp only [List.mem_cons, List.not_mem_nil, or_false] at hletter
        rcases hletter with rfl | rfl | rfl | rfl | rfl | rfl | rfl <;> rfl
      rw [List.cons_append, List.singleton_append, longBasicBody?, hends, h]
      · rfl
      · rintro _ _ _ _ _ rfl
        exact absurd hletter (by decide)
      · rintro _ _ _ _ _ _ _ _ _ rfl
        exact absurd hletter (by decide)
  | digits h =>
      simp only [List.cons_append, List.nil_append]
      rw [longBasicBody?, h]
  | plain hplain hslash hquote =>
      have hline : c ∉ ['\n', '\r'] := Text.not_mem_of_kind hplain rfl
      rw [List.singleton_append, longBasicBody?, if_pos ⟨hplain, hslash⟩]
      all_goals grind

/-! ### Strings on one line -/

/-- Between double quotes on one line, every character is escaped where it has to be. -/
theorem escapeAll_false_cons (run : Nat) (c : Char) (s : Text) :
    ∃ w, Escaped c w ∧ escapeAll false run (c :: s) = w ++ escapeAll false 0 s := by
  by_cases hquote : c = '"'
  · subst hquote
    exact ⟨['\\', '"'], .letter rfl, rfl⟩
  · refine ⟨escapeChar c, escaped_escapeChar hquote, ?_⟩
    rw [escapeAll, if_neg hquote, Bool.and_false, if_neg Bool.false_ne_true]

theorem basicBody?_escapeAll (run : Nat) (s rest : Text) :
    basicBody? (escapeAll false run s ++ '"' :: rest) = some (s, rest) := by
  induction s generalizing run with
  | nil => rfl
  | cons c s ih =>
      obtain ⟨w, hw, hwritten⟩ := escapeAll_false_cons run c s
      rw [hwritten, List.append_assoc, basicBody?_escaped hw, ih]
      rfl

theorem literalBody?_append (hplain : ∀ c ∈ s, isPlain c) (hquote : '\'' ∉ s) (rest : Text) :
    literalBody? (s ++ '\'' :: rest) = some (s, rest) := by
  induction s with
  | nil => rfl
  | cons c s ih =>
      rw [List.mem_cons, not_or] at hquote
      rw [List.cons_append, literalBody?, if_pos (hplain c List.mem_cons_self),
        ih (fun d hd => hplain d (List.mem_cons_of_mem c hd)) hquote.2]
      · rfl
      · exact fun hc => hquote.1 hc.symm

/-! ### Strings over several lines -/

/-- What is written for a character over several lines: a quote as it is where fewer than two stand
before it, a line end as it is, and anything else escaped where it has to be. -/
theorem escapeAll_true_cons (run : Nat) (c : Char) (s : Text) :
    (c = '"' ∧ run < 2 ∧ escapeAll true run (c :: s) = '"' :: escapeAll true (run + 1) s) ∨
    (c = '\n' ∧ escapeAll true run (c :: s) = '\n' :: escapeAll true 0 s) ∨
    ∃ w, Escaped c w ∧ escapeAll true run (c :: s) = w ++ escapeAll true 0 s := by
  by_cases hquote : c = '"'
  · subst hquote
    by_cases hrun : run < 2
    · exact .inl ⟨rfl, hrun, by simp [escapeAll, hrun]⟩
    · exact .inr (.inr ⟨['\\', '"'], .letter rfl, by simp [escapeAll, hrun]⟩)
  · by_cases hline : c = '\n'
    · exact .inr (.inl ⟨hline, by simp [escapeAll, hline]⟩)
    · refine .inr (.inr ⟨escapeChar c, escaped_escapeChar hquote, ?_⟩)
      simp [escapeAll, hquote, hline]

/-- What is written starts with a quote only where a quote is written as it is. -/
theorem escapeAll_true_head (run : Nat) (c : Char) (s : Text) :
    (c = '"' ∧ run < 2 ∧ escapeAll true run (c :: s) = '"' :: escapeAll true (run + 1) s) ∨
      ∀ rest r, escapeAll true run (c :: s) ++ rest ≠ '"' :: r := by
  rcases escapeAll_true_cons run c s with hquote | ⟨-, hwritten⟩ | ⟨w, hw, hwritten⟩
  · exact .inl hquote
  · refine .inr fun rest r heq => ?_
    rw [hwritten] at heq
    exact absurd (List.cons.inj heq).1 (by decide)
  · refine .inr fun rest r => ?_
    obtain ⟨d, v, rfl, hd⟩ := hw.exists_cons
    rw [hwritten]
    exact Text.cons_ne_of_not_mem hd (by decide)

/-- Behind a quote that is written as it is, the string ends, at once or after one more quote, or no
two quotes follow. -/
theorem escapeAll_true_quotes {run : Nat} (hrun : 1 ≤ run) (s : Text) :
    s = [] ∨ (s = ['"'] ∧ escapeAll true run s = ['"']) ∨
      ∀ rest r, escapeAll true run s ++ rest ≠ '"' :: '"' :: r := by
  cases s with
  | nil => exact .inl rfl
  | cons c s =>
      rcases escapeAll_true_head run c s with ⟨rfl, hlt, hwritten⟩ | hother
      · obtain rfl : run = 1 := by omega
        rw [hwritten]
        cases s with
        | nil => exact .inr (.inl ⟨rfl, rfl⟩)
        | cons d s =>
            refine .inr (.inr fun rest r heq => ?_)
            rcases escapeAll_true_head 2 d s with ⟨-, hlt, -⟩ | hother
            · omega
            · exact hother rest r (List.cons.inj heq).2
      · exact .inr (.inr fun rest r => hother rest ('"' :: r))

/-- A quote that no two quotes follow is one of the string. -/
theorem longBasicBody?_quote (h : ∀ r, s ≠ '"' :: '"' :: r) :
    longBasicBody? false ('"' :: s) = consChar (some '"') (longBasicBody? false s) := by
  rw [longBasicBody?, if_pos (by decide)]
  all_goals grind

/-- The closing quotes, with up to two quotes of the string before them. -/
theorem longBasicBody?_closing (quotes : Text) (h : quotes ∈ [[], ['"'], ['"', '"']])
    (hrest : StopsAt isQuote rest) :
    longBasicBody? false (quotes ++ '"' :: '"' :: '"' :: rest) = some (quotes, rest) := by
  have hnext : ∀ r, rest ≠ '"' :: r := by
    rintro r rfl
    exact absurd (hrest '"' rfl) (by decide)
  simp only [List.mem_cons, List.not_mem_nil, or_false] at h
  rcases h with rfl | rfl | rfl
  · rw [List.nil_append, longBasicBody?]
    all_goals grind
  · rw [List.singleton_append, longBasicBody?]
    all_goals grind
  · rfl

theorem longBasicBody?_escapeAll {run : Nat} (s : Text) (hrest : StopsAt isQuote rest) :
    longBasicBody? false (escapeAll true run s ++ '"' :: '"' :: '"' :: rest) = some (s, rest) := by
  induction s generalizing run with
  | nil => exact longBasicBody?_closing [] (by decide) hrest
  | cons c s ih =>
      rcases escapeAll_true_cons run c s with
        ⟨rfl, hrun, hwritten⟩ | ⟨rfl, hwritten⟩ | ⟨w, hw, hwritten⟩
      · rw [hwritten, List.cons_append]
        rcases escapeAll_true_quotes (Nat.succ_pos run) s with rfl | ⟨rfl, hone⟩ | hfew
        · exact longBasicBody?_closing ['"'] (by decide) hrest
        · rw [hone]
          exact longBasicBody?_closing ['"', '"'] (by decide) hrest
        · rw [longBasicBody?_quote (hfew _), ih]
          rfl
      · rw [hwritten, List.cons_append, longBasicBody?, ih]
        · rfl
        all_goals grind
      · rw [hwritten, List.append_assoc, longBasicBody?_escaped hw, ih]
        rfl

/-! ### Strings over several lines without escapes -/

theorem le_longestRun (c : Char) (current : Nat) (s : Text) : current ≤ longestRun c current s := by
  induction s generalizing current with
  | nil => exact Nat.le_refl current
  | cons d s ih =>
      rw [longestRun]
      split
      · exact Nat.le_of_succ_le (ih (current + 1))
      · exact Nat.le_max_left current _

theorem longestRun_mono {a b : Nat} (c : Char) (h : a ≤ b) (s : Text) :
    longestRun c a s ≤ longestRun c b s := by
  induction s generalizing a b with
  | nil => exact h
  | cons d s ih =>
      rw [longestRun, longestRun]
      split
      · exact ih (Nat.succ_le_succ h)
      · exact Nat.max_le.mpr ⟨Nat.le_trans h (Nat.le_max_left b _), Nat.le_max_right b _⟩

theorem not_mem_of_longestRun_eq_zero {current : Nat} (h : longestRun c current s = 0) : c ∉ s := by
  induction s generalizing current with
  | nil => exact List.not_mem_nil
  | cons d s ih =>
      rw [longestRun] at h
      split at h
      next hd =>
          have hle := le_longestRun c (current + 1) s
          omega
      next hd =>
          rw [List.mem_cons, not_or]
          exact ⟨fun heq => hd heq.symm, ih (Nat.max_eq_zero_iff.mp h).2⟩

/-- Behind a quote in a text without three of them in a row, the text ends, at once or after one more
quote, or no two quotes follow. -/
theorem quotes_of_longestRun_le_two (h : longestRun c 1 s ≤ 2) :
    s = [] ∨ s = [c] ∨ ∀ rest r, s ++ rest ≠ c :: c :: r := by
  cases s with
  | nil => exact .inl rfl
  | cons d s =>
      by_cases hd : d = c
      · subst hd
        rw [longestRun, if_pos rfl] at h
        cases s with
        | nil => exact .inr (.inl rfl)
        | cons e s =>
            refine .inr (.inr fun rest r heq => ?_)
            obtain rfl : e = d := (List.cons.inj (List.cons.inj heq).2).1
            rw [longestRun, if_pos rfl] at h
            exact absurd (Nat.le_trans (le_longestRun e 3 s) h) (by decide)
      · exact .inr (.inr fun rest r heq => hd (List.cons.inj heq).1)

theorem longLiteralBody?_quote (h : ∀ r, s ≠ '\'' :: '\'' :: r) :
    longLiteralBody? ('\'' :: s) = consChar (some '\'') (longLiteralBody? s) := by
  rw [longLiteralBody?, if_pos (by decide)]
  all_goals grind

theorem longLiteralBody?_closing (quotes : Text) (h : quotes ∈ [[], ['\''], ['\'', '\'']])
    (hrest : StopsAt isQuote rest) :
    longLiteralBody? (quotes ++ '\'' :: '\'' :: '\'' :: rest) = some (quotes, rest) := by
  have hnext : ∀ r, rest ≠ '\'' :: r := by
    rintro r rfl
    exact absurd (hrest '\'' rfl) (by decide)
  simp only [List.mem_cons, List.not_mem_nil, or_false] at h
  rcases h with rfl | rfl | rfl
  · rw [List.nil_append, longLiteralBody?]
    all_goals grind
  · rw [List.singleton_append, longLiteralBody?]
    all_goals grind
  · rfl

theorem longLiteralBody?_append {run : Nat} (hcontrol : ∀ c ∈ s, isControl c = false)
    (hruns : longestRun '\'' run s ≤ 2) (hrest : StopsAt isQuote rest) :
    longLiteralBody? (s ++ '\'' :: '\'' :: '\'' :: rest) = some (s, rest) := by
  induction s generalizing run with
  | nil => exact longLiteralBody?_closing [] (by decide) hrest
  | cons c s ih =>
      obtain ⟨hc, htail⟩ := List.forall_mem_cons.mp hcontrol
      rw [longestRun] at hruns
      split at hruns
      next hquote =>
          subst hquote
          have hone := Nat.le_trans (longestRun_mono '\'' (Nat.succ_pos run) s) hruns
          rw [List.cons_append]
          rcases quotes_of_longestRun_le_two hone with rfl | rfl | hfew
          · exact longLiteralBody?_closing ['\''] (by decide) hrest
          · exact longLiteralBody?_closing ['\'', '\''] (by decide) hrest
          · rw [longLiteralBody?_quote (hfew _), ih htail hruns]
            rfl
      next hquote =>
          have hbehind := ih htail (Nat.le_trans (Nat.le_max_right run _) hruns)
          by_cases hline : c = '\n'
          · subst hline
            rw [List.cons_append, longLiteralBody?, hbehind]
            rfl
          · have hplain := isPlain_of_isControl_eq_false hc hline
            have hreturn : c ≠ '\r' := by
              rintro rfl
              exact absurd hplain (by decide)
            rw [List.cons_append, longLiteralBody?, if_pos hplain, hbehind]
            · rfl
            all_goals grind

/-! ### Any string -/

/-- What the choice of single quotes on one line says about a string. -/
theorem StringForm.of_eq_literal (h : StringForm.of s = .literal) :
    s ≠ [] ∧ (∀ c ∈ s, isPlain c) ∧ '\'' ∉ s := by
  have hne : s ≠ [] := by
    rintro rfl
    exact absurd h (by decide)
  have hchoice : s.any isControl = false ∧ longestRun '\'' 0 s = 0 ∧ s.contains '\n' = false := by
    unfold StringForm.of at h
    grind
  obtain ⟨hcontrol, hruns, hlines⟩ := hchoice
  refine ⟨hne, ?_, not_mem_of_longestRun_eq_zero hruns⟩
  intro c hc
  have hline : '\n' ∉ s := by simpa using hlines
  refine isPlain_of_isControl_eq_false (by simpa using List.any_eq_false.mp hcontrol c hc) ?_
  rintro rfl
  exact hline hc

/-- What the choice of single quotes over several lines says about a string. -/
theorem StringForm.of_eq_longLiteral (h : StringForm.of s = .longLiteral) :
    (∀ c ∈ s, isControl c = false) ∧ longestRun '\'' 0 s ≤ 2 := by
  have hchoice : s.any isControl = false ∧ longestRun '\'' 0 s ≤ 2 := by
    unfold StringForm.of at h
    grind
  exact ⟨fun c hc => by simpa using List.any_eq_false.mp hchoice.1 c hc, hchoice.2⟩

theorem anyString?_basic (h : ∀ r, s ≠ '"' :: '"' :: r) : anyString? ('"' :: s) = basicBody? s := by
  rw [anyString?]
  · rfl
  all_goals grind

theorem anyString?_literal (h : ∀ r, s ≠ '\'' :: '\'' :: r) :
    anyString? ('\'' :: s) = literalBody? s := by
  rw [anyString?]
  · rfl
  all_goals grind

/-- The reader drops no line end of the string: one is put before it if it has any. -/
theorem skipLineEnd_openingLine (h : '\n' ∉ s → ∀ c ∈ w.head?, c ∉ ['\n', '\r']) :
    skipLineEnd (openingLine s ++ w) = w := by
  unfold openingLine
  split
  next => rfl
  next hnone =>
      have hhead := h (by simpa using hnone)
      rw [List.nil_append]
      cases w with
      | nil => rfl
      | cons c w =>
          have hc := hhead c rfl
          rw [skipLineEnd, afterLineEnd?]
          · rfl
          all_goals grind

/-- Without line ends in the string, what is written behind the opening quotes starts with none. -/
theorem head_escapeAll_true (h : '\n' ∉ s) (rest : Text) :
    ∀ c ∈ (escapeAll true 0 s ++ '"' :: rest).head?, c ∉ ['\n', '\r'] := by
  intro d hd
  cases s with
  | nil =>
      obtain rfl := Option.some.inj hd
      decide
  | cons c s =>
      rcases escapeAll_true_cons 0 c s with ⟨rfl, -, hwritten⟩ | ⟨rfl, -⟩ | ⟨w, hw, hwritten⟩
      · rw [hwritten] at hd
        obtain rfl := Option.some.inj hd
        decide
      · exact absurd List.mem_cons_self h
      · obtain ⟨e, v, rfl, he⟩ := hw.exists_cons
        rw [hwritten] at hd
        obtain rfl := Option.some.inj hd
        exact fun hmem => he (List.mem_cons_of_mem _ hmem)

theorem head_of_isControl_eq_false (hcontrol : ∀ c ∈ s, isControl c = false) (h : '\n' ∉ s)
    (rest : Text) : ∀ c ∈ (s ++ '\'' :: rest).head?, c ∉ ['\n', '\r'] := by
  intro d hd
  cases s with
  | nil =>
      obtain rfl := Option.some.inj hd
      decide
  | cons c s =>
      obtain rfl := Option.some.inj hd
      have hc := hcontrol c List.mem_cons_self
      have hreturn : c ≠ '\r' := by
        rintro rfl
        exact absurd hc (by decide)
      have hline : c ≠ '\n' := by
        rintro rfl
        exact h List.mem_cons_self
      simp [hline, hreturn]

/-- On one line, what is written between double quotes does not start with a quote. -/
theorem escapeAll_false_ne_quotes (s : Text) (hrest : StopsAt isQuote rest) (r : Text) :
    escapeAll false 0 s ++ '"' :: rest ≠ '"' :: '"' :: r := by
  intro heq
  cases s with
  | nil =>
      obtain rfl := (List.cons.inj heq).2
      exact absurd (hrest '"' rfl) (by decide)
  | cons c s =>
      obtain ⟨w, hw, hwritten⟩ := escapeAll_false_cons 0 c s
      obtain ⟨d, v, rfl, hd⟩ := hw.exists_cons
      rw [hwritten] at heq
      exact Text.cons_ne_of_not_mem hd (by decide) heq

/-- A string in the form chosen for it is read as this string. -/
theorem anyString?_renderString (s : Text) (hrest : StopsAt isQuote rest) :
    anyString? (renderString s ++ rest) = some (s, rest) := by
  unfold renderString
  cases hform : StringForm.of s with
  | basic =>
      simp only [List.cons_append, List.append_assoc, List.nil_append]
      rw [anyString?_basic (escapeAll_false_ne_quotes s hrest), basicBody?_escapeAll]
  | literal =>
      obtain ⟨hne, hplain, hquote⟩ := StringForm.of_eq_literal hform
      have hbody : ∀ r, s ++ '\'' :: rest ≠ '\'' :: '\'' :: r := by
        intro r heq
        cases s with
        | nil => exact hne rfl
        | cons c s =>
            obtain rfl := (List.cons.inj heq).1
            exact hquote List.mem_cons_self
      simp only [List.cons_append, List.append_assoc, List.nil_append]
      rw [anyString?_literal hbody, literalBody?_append hplain hquote]
  | longBasic =>
      simp only [List.cons_append, List.append_assoc, List.nil_append]
      rw [anyString?, skipLineEnd_openingLine fun hnone => head_escapeAll_true hnone _,
        longBasicBody?_escapeAll s hrest]
  | longLiteral =>
      obtain ⟨hcontrol, hruns⟩ := StringForm.of_eq_longLiteral hform
      simp only [List.cons_append, List.append_assoc, List.nil_append]
      rw [anyString?,
        skipLineEnd_openingLine fun hnone => head_of_isControl_eq_false hcontrol hnone _,
        longLiteralBody?_append hcontrol hruns hrest]

end ActionCalls.Toml
