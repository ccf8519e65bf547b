import Mathlib.Algebra.GroupWithZero.Nat
import ActionCalls.Proofs.Toml.Strings
import ActionCalls.Toml.Parser

/-!
# Settings read back as values

What is written for a setting in front of a line end is read as the value of the setting
(`value?_render`): a string in any of its forms, the digits of a number, a truth value, and an array
of strings with each item on a line of its own. A number is read back as long as it is an integer of
64 bits with a sign; the digits are neither a date nor a time, which both need a mark between digits.
-/

namespace ActionCalls.Toml

open Text (StopsAt)

variable {s rest : Text}

/-! ### Numbers and truth values -/

/-- A run of scalar characters is read up to the end of its line. -/
theorem scalarAtFront?_run (hrun : ∀ c ∈ s, isScalarChar c) (rest : Text) :
    scalarAtFront? (s ++ '\n' :: rest) = (scalar? s).map (·, '\n' :: rest) := by
  have hstop : StopsAt isScalarChar ('\n' :: rest) := Text.stopsAt_cons rfl
  rw [scalarAtFront?]
  simp only [Text.takeWhile_run hrun hstop, Text.dropWhile_run hrun hstop]
  rfl

/-- Both readings of decimal digits give the same number. -/
theorem foldl_digitValue (hdigits : ∀ c ∈ s, c.isDigit) (n : Nat) :
    s.foldl (fun n d => n * 10 + digitValue d) n = Nat.ofDigitChars 10 s n := by
  induction s generalizing n with
  | nil => rfl
  | cons c s ih =>
      have hrest : ∀ d ∈ s, d.isDigit := fun d hd => hdigits d (List.mem_cons_of_mem c hd)
      rw [List.foldl_cons, Nat.ofDigitChars_cons, ih hrest, digitValue,
        if_pos (hdigits c List.mem_cons_self), Nat.mul_comm]

section Digits

variable (hdigits : ∀ c ∈ s, c.isDigit)
include hdigits

theorem not_mem_of_isDigit {mark : Char} (hmark : mark.isDigit = false) : mark ∉ s := by
  intro hmem
  exact absurd (hdigits mark hmem) (by simp [hmark])

/-- Digits in a row are neither a date nor a time. -/
theorem isDateTime_of_digits : isDateTime s = false := by
  have hdate : isDate s = false := by
    rw [isDate, Text.splitOn_of_not_mem (not_mem_of_isDigit hdigits rfl)]
  have htime : isTime s = false := by
    rw [isTime, Text.splitOn_of_not_mem (not_mem_of_isDigit hdigits rfl)]
  have hfront : isDate (s.take 10) = false := by
    have hfew : ∀ c ∈ s.take 10, c.isDigit := fun c hc => hdigits c (List.mem_of_mem_take hc)
    rw [isDate, Text.splitOn_of_not_mem (not_mem_of_isDigit hfew rfl)]
  rw [isDateTime, hdate, htime, hfront]
  rfl

theorem splitSign_of_digits : splitSign s = (false, s) := by
  rw [splitSign]
  all_goals
    rintro t rfl
    exact absurd (hdigits _ List.mem_cons_self) (by decide)

end Digits

/-- An integer of 64 bits with a sign is read from its digits. -/
theorem integer?_toDigits {n : Nat} (h : n < 2 ^ 63) :
    integer? (Nat.toDigits 10 n) = some (n : Int) := by
  have hdigits : ∀ c ∈ Nat.toDigits 10 n, c.isDigit := fun _ => Text.isDigit_of_mem_toDigits
  have hplain : plainDigits? Char.isDigit (Nat.toDigits 10 n) = some (Nat.toDigits 10 n) := by
    rw [plainDigits?, Text.splitOn_of_not_mem (not_mem_of_isDigit hdigits rfl)]
    simpa [Nat.toDigits_ne_nil] using hdigits
  have hwhole : wholeDigits? (Nat.toDigits 10 n) = some (Nat.toDigits 10 n) := by
    obtain ⟨c, ds, heq, -⟩ := Text.exists_toDigits_eq_cons n
    rw [wholeDigits?, hplain, heq]
    refine Option.filter_some_pos ?_
    by_cases hzero : c = '0'
    · rw [hzero] at heq
      rw [Text.eq_nil_of_toDigits_eq_zero_cons heq]
      rfl
    · simp [hzero]
  have hrange : inRange (n : Int) := by
    simp only [inRange, Bool.and_eq_true, decide_eq_true_eq]
    omega
  have hvalue : ofDigits 10 (Nat.toDigits 10 n) = n := by
    rw [ofDigits, foldl_digitValue hdigits, Nat.ofDigitChars_ten_toDigits]
  -- A zero in front stands alone, so it is not the mark of another base.
  have hmark : ∀ c t, Nat.toDigits 10 n ≠ '0' :: c :: t := by
    intro c t heq
    exact absurd (Text.eq_nil_of_toDigits_eq_zero_cons heq) (List.cons_ne_nil c t)
  rw [integer?]
  · simp only [splitSign_of_digits hdigits, hwhole, Option.map_some, hvalue]
    exact Option.filter_some_pos hrange
  all_goals exact fun t => hmark _ t

/-- The digits of an integer of 64 bits with a sign are read as this integer. -/
theorem scalar?_toDigits {n : Nat} (h : n < 2 ^ 63) :
    scalar? (Nat.toDigits 10 n) = some (.integer n) := by
  have hdigits : ∀ c ∈ Nat.toDigits 10 n, c.isDigit := fun _ => Text.isDigit_of_mem_toDigits
  have hword : ∀ word ∈ ["true".toList, "false".toList, "inf".toList, "nan".toList],
      Nat.toDigits 10 n ≠ word := by
    have hall : ∀ word ∈ ["true".toList, "false".toList, "inf".toList, "nan".toList],
        word.all Char.isDigit = false := by decide
    intro word hmem heq
    exact absurd (List.all_eq_true.mpr (heq ▸ hdigits)) (Bool.eq_false_iff.mp (hall word hmem))
  have hspecial : isSpecialFloat (Nat.toDigits 10 n) = false := by
    simp only [isSpecialFloat, splitSign_of_digits hdigits, Bool.or_eq_false_iff]
    exact ⟨beq_false_of_ne (hword _ (by simp)), beq_false_of_ne (hword _ (by simp))⟩
  rw [scalar?, if_neg (hword _ (by simp)), if_neg (hword _ (by simp)), isDateTime_of_digits hdigits,
    hspecial, integer?_toDigits h]
  rfl

theorem value?_of_isDigit {c : Char} (hc : c.isDigit) (steps depth : Nat) (s : Text) :
    value? (steps + 1) depth (c :: s) = scalarAtFront? (c :: s) := by
  have hother : c ∉ ['[', '\x7b', '"', '\''] := Text.not_mem_of_kind hc rfl
  rw [value?]
  · simp only [List.head?_cons]
    split
    next heq => exact absurd (Option.some.inj heq ▸ hother) (by decide)
    next heq => exact absurd (Option.some.inj heq ▸ hother) (by decide)
    next => rfl
  all_goals exact fun _ => Text.cons_ne_of_not_mem hother (by decide)

/-! ### Strings -/

/-- What is written for a string starts with a quote. -/
theorem exists_renderString_eq_cons (s : Text) :
    ∃ q w, renderString s = q :: w ∧ (q = '"' ∨ q = '\'') := by
  unfold renderString
  cases StringForm.of s with
  | basic => exact ⟨_, _, rfl, .inl rfl⟩
  | literal => exact ⟨_, _, rfl, .inr rfl⟩
  | longBasic => exact ⟨_, _, rfl, .inl rfl⟩
  | longLiteral => exact ⟨_, _, rfl, .inr rfl⟩

theorem value?_quote {q : Char} (hq : q = '"' ∨ q = '\'') (steps depth : Nat) (s : Text) :
    value? (steps + 1) depth (q :: s) =
      (anyString? (q :: s)).map fun (body, s) => (.string (String.ofList body), s) := by
  rcases hq with rfl | rfl
  all_goals
    rw [value?]
    · rfl
    all_goals exact fun _ h => absurd (List.cons.inj h).1 (by decide)

theorem value?_renderString (s : String) (steps depth : Nat) (hrest : StopsAt isQuote rest) :
    value? (steps + 1) depth (renderString s.toList ++ rest) = some (.string s, rest) := by
  have hread := anyString?_renderString s.toList hrest
  obtain ⟨q, w, hwritten, hq⟩ := exists_renderString_eq_cons s.toList
  rw [hwritten, List.cons_append] at hread ⊢
  simp only [value?_quote hq, hread, Option.map_some, String.ofList_toList]

/-! ### Gaps -/

/-- Can the character start a gap, between the items of an array or in front of a line? -/
def startsGap (c : Char) : Bool :=
  isLineBlank c || c == '#' || c == '\n' || c == '\r'

section

variable (h : StopsAt startsGap s)
include h

theorem skipLineBlanks_of_stopsAt : skipLineBlanks s = s := by
  refine Text.dropWhile_of_stopsAt (h.imp ?_)
  intro c hc
  simp only [startsGap, Bool.or_eq_false_iff] at hc
  exact hc.1.1.1

theorem skipComment_of_stopsAt : skipComment s = s := by
  rw [skipComment]
  rintro _ rfl
  exact absurd (h '#' rfl) (by decide)

theorem afterLineEnd?_of_stopsAt : afterLineEnd? s = none := by
  rw [afterLineEnd?]
  · rintro _ rfl
    exact absurd (h '\n' rfl) (by decide)
  · rintro _ rfl
    exact absurd (h '\r' rfl) (by decide)

theorem skipLines_of_stopsAt (n : Nat) : skipLines n s = s := by
  cases n with
  | zero => rfl
  | succ n =>
      rw [skipLines, skipLineBlanks_of_stopsAt h, skipComment_of_stopsAt h,
        afterLineEnd?_of_stopsAt h]

end

/-- The line end in front of what stops the gap between items. -/
theorem skipLines_lineEnd (h : StopsAt startsGap s) :
    skipLines ('\n' :: s).length ('\n' :: s) = s :=
  skipLines_of_stopsAt h s.length

/-- The line end and the indentation in front of an item. -/
theorem skipLines_indent (h : StopsAt startsGap s) :
    skipLines ('\n' :: (List.replicate 4 ' ' ++ s)).length ('\n' :: (List.replicate 4 ' ' ++ s)) =
      s := by
  show skipLines (s.length + 4) (List.replicate 4 ' ' ++ s) = s
  have hblanks : skipLineBlanks (List.replicate 4 ' ' ++ s) = skipLineBlanks s := rfl
  rw [skipLines, hblanks]
  exact skipLines_of_stopsAt h (s.length + 4)

theorem stopsAt_renderString (s rest : Text) : StopsAt startsGap (renderString s ++ rest) := by
  obtain ⟨q, w, hwritten, hq⟩ := exists_renderString_eq_cons s
  rw [hwritten]
  refine Text.stopsAt_cons ?_
  rcases hq with rfl | rfl <;> rfl

/-! ### Arrays of strings -/

/-- What follows an item of an array: the closing bracket, or a comma and more items. -/
inductive ItemsBehind (steps depth : Nat) : Text → List Toml → Text → Prop
  | bracket {s rest : Text} (h : skipLines s.length s = ']' :: rest) :
      ItemsBehind steps depth s [] rest
  | comma {s more rest : Text} {items : List Toml} (h : skipLines s.length s = ',' :: more)
      (hmore : items? steps depth more = some (items, rest)) : ItemsBehind steps depth s items rest

/-- An item is read behind the gap before it, and then the items behind it. -/
theorem items?_item {item : String} {items : List Toml} {steps depth : Nat} {behind : Text}
    (hstop : StopsAt isQuote behind)
    (hgap : skipLines s.length s = renderString item.toList ++ behind)
    (hbehind : ItemsBehind (steps + 1) depth behind items rest) :
    items? (steps + 2) depth s = some (.string item :: items, rest) := by
  have hread := value?_renderString item steps depth hstop
  obtain ⟨q, w, hwritten, hq⟩ := exists_renderString_eq_cons item.toList
  rw [hwritten, List.cons_append] at hread hgap
  rw [items?, hgap]
  split
  next heq =>
      obtain rfl := (List.cons.inj heq).1
      exact absurd hq (by decide)
  next =>
      rw [hread]
      cases hbehind with
      | bracket h => simp only [h]
      | comma h hmore => simp only [h, hmore, Option.map_some]

/-- Items that stand on lines of their own are read up to the bracket behind them. -/
theorem items?_lines {items : List String} {steps depth : Nat}
    (hsteps : items.length + 1 < steps) (rest : Text) :
    items? steps depth ('\n' :: (items.flatMap renderItemLine ++ ']' :: rest)) =
      some (items.map .string, rest) := by
  induction items generalizing steps with
  | nil =>
      obtain ⟨steps, rfl⟩ := Nat.exists_eq_add_one_of_ne_zero (Nat.ne_zero_of_lt hsteps)
      rw [items?, List.flatMap_nil, List.nil_append, skipLines_lineEnd (Text.stopsAt_cons rfl)]
      rfl
  | cons item items ih =>
      rw [List.length_cons] at hsteps
      obtain ⟨steps, rfl⟩ := Nat.exists_eq_add_of_le' (show 2 ≤ steps by omega)
      simp only [List.flatMap_cons, renderItemLine, List.append_assoc, List.cons_append,
        List.nil_append]
      refine items?_item ?_ (skipLines_indent (stopsAt_renderString item.toList _)) ?_
      · exact Text.stopsAt_cons rfl
      · exact .comma (skipLines_of_stopsAt (Text.stopsAt_cons rfl) _) (ih (by omega))

/-- The value that a setting is written for. -/
def Setting.toToml : Setting → Toml
  | .string s => .string s
  | .natural n => .integer n
  | .boolean b => .boolean b
  | .strings items => .array (items.map .string)

/-- The number of a setting is an integer of 64 bits with a sign. -/
def Setting.InRange : Setting → Prop
  | .natural n => n < 2 ^ 63
  | _ => True

theorem length_le_flatMap_renderItemLine (items : List String) :
    items.length ≤ (items.flatMap renderItemLine).length := by
  induction items with
  | nil => exact Nat.le_refl 0
  | cons item items ih =>
      simp only [List.flatMap_cons, List.length_append, List.length_cons, renderItemLine]
      omega

theorem value?_strings {items : List String} {steps depth : Nat}
    (hsteps : 2 * (Setting.strings items).render.length < steps + 1) (rest : Text) :
    value? (steps + 1) (depth + 1) ((Setting.strings items).render ++ '\n' :: rest) =
      some (.array (items.map .string), '\n' :: rest) := by
  match items with
  | [] =>
      have hsome : 1 ≤ steps := by
        simp only [Setting.render, List.length_cons, List.length_nil] at hsteps
        omega
      obtain ⟨steps, rfl⟩ := Nat.exists_eq_add_of_le' hsome
      rfl
  | [item] =>
      have hsome : 2 ≤ steps := by
        simp only [Setting.render, List.length_cons, List.length_append, List.length_nil] at hsteps
        omega
      obtain ⟨steps, rfl⟩ := Nat.exists_eq_add_of_le' hsome
      have hread : items? (steps + 2) depth (renderString item.toList ++ ']' :: '\n' :: rest) =
          some ([.string item], '\n' :: rest) := by
        refine items?_item ?_ (skipLines_of_stopsAt (stopsAt_renderString item.toList _) _) ?_
        · exact Text.stopsAt_cons rfl
        · exact .bracket (skipLines_of_stopsAt (Text.stopsAt_cons rfl) _)
      simp only [Setting.render, List.cons_append, List.append_assoc, List.nil_append]
      rw [value?, hread]
      rfl
  | first :: second :: items =>
      have hcount := length_le_flatMap_renderItemLine (first :: second :: items)
      have hread : items? steps depth
          ('\n' :: ((first :: second :: items).flatMap renderItemLine ++ ']' :: '\n' :: rest)) =
            some ((first :: second :: items).map .string, '\n' :: rest) := by
        refine items?_lines ?_ _
        simp only [Setting.render, List.length_cons, List.length_append] at hsteps hcount ⊢
        omega
      simp only [Setting.render, List.cons_append, List.append_assoc, List.nil_append]
      rw [value?, hread]
      rfl

/-- What is written for a setting is read as its value up to the end of its line. -/
theorem value?_render {v : Setting} (hv : v.InRange) {steps depth : Nat}
    (hsteps : 2 * v.render.length < steps) (rest : Text) :
    value? steps (depth + 1) (v.render ++ '\n' :: rest) = some (v.toToml, '\n' :: rest) := by
  obtain ⟨steps, rfl⟩ := Nat.exists_eq_add_one_of_ne_zero (Nat.ne_zero_of_lt hsteps)
  have hline : StopsAt isQuote ('\n' :: rest) := Text.stopsAt_cons rfl
  cases v with
  | string s => exact value?_renderString s steps (depth + 1) hline
  | natural n =>
      have hrun : ∀ c ∈ Nat.toDigits 10 n, isScalarChar c := by
        intro c hc
        simp [isScalarChar, Char.isAlphanum, Text.isDigit_of_mem_toDigits hc]
      have hread := scalarAtFront?_run hrun rest
      rw [scalar?_toDigits hv] at hread
      obtain ⟨c, ds, hdigits, hc⟩ := Text.exists_toDigits_eq_cons n
      rw [hdigits, List.cons_append] at hread
      rw [Setting.render, hdigits, List.cons_append, value?_of_isDigit hc, hread]
      rfl
  | boolean b => cases b <;> rfl
  | strings items => exact value?_strings hsteps rest

end ActionCalls.Toml
