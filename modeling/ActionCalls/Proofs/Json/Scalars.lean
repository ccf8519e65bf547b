import ActionCalls.Json.Parser
import ActionCalls.Json.Printer
import ActionCalls.Proofs.Text.Digits

/-!
# Strings and numbers read back

The text of a string gives the string back, whatever characters it has. This is proved **one
character at a time**: what is written for a character is read as that character, and reading goes on
behind it (`stringBody?_renderChar`). A character is written behind a backslash with a letter, or with
the four digits of its number, or as it is; the reader tells the three apart by what the backslash is
followed by.

The text of a whole number of 64 bits gives the number back where neither a digit nor a fraction nor
an exponent follows (`goesOnWithNumber`).
-/

namespace ActionCalls.Json

open Text (StopsAt)

/-! ### White space -/

variable {spaces s : Text}

theorem skipSpace_run (hspaces : ∀ c ∈ spaces, isSpace c) : skipSpace (spaces ++ s) = skipSpace s :=
  List.dropWhile_append_of_pos hspaces

theorem skipSpace_of_stopsAt (h : StopsAt isSpace s) : skipSpace s = s :=
  Text.dropWhile_of_stopsAt h

theorem skipSpace_cons {c : Char} (h : isSpace c = false) : skipSpace (c :: s) = c :: s :=
  skipSpace_of_stopsAt (Text.stopsAt_cons h)

theorem skipSpace_skipSpace (s : Text) : skipSpace (skipSpace s) = skipSpace s := by
  refine skipSpace_of_stopsAt ?_
  intro c hc
  have hhead := List.head?_dropWhile_not isSpace s
  rw [skipSpace] at hc
  rw [Option.mem_def.mp hc] at hhead
  simpa using hhead

/-! ### Strings -/

/-- A letter that is written behind a backslash is read as the character it stands for. -/
theorem unescape?_of_escapeLetter? {c letter : Char} (h : escapeLetter? c = some letter) :
    letter ≠ 'u' ∧ unescape? letter = some c := by
  have hletters : ∀ pair ∈ [('"', '"'), ('\\', '\\'), ('\x08', 'b'), ('\x0c', 'f'), ('\n', 'n'),
      ('\r', 'r'), ('\t', 't')], pair.2 ≠ 'u' ∧ unescape? pair.2 = some pair.1 := by decide
  refine hletters (c, letter) ?_
  unfold escapeLetter? at h
  grind

/-- The four digits that are written for a control character are read as its number. -/
theorem hexQuad?_of_control {n : Nat} (h : n < 0x20) :
    hexQuad? '0' '0' (Nat.digitChar (n / 16)) (Nat.digitChar (n % 16)) = some n := by
  have hall : ∀ n < 0x20,
      hexQuad? '0' '0' (Nat.digitChar (n / 16)) (Nat.digitChar (n % 16)) = some n := by decide
  exact hall n h

theorem stringBody?_letter {c letter : Char} (hne : letter ≠ 'u') (h : unescape? letter = some c) :
    stringBody? ('\\' :: letter :: s) = consChar c (stringBody? s) := by
  rw [stringBody?, h]
  exact fun _ _ _ _ _ hu _ => hne hu

/-- What is written for a character is read as this character. -/
theorem stringBody?_renderChar (c : Char) (s : Text) :
    stringBody? (renderChar c ++ s) = consChar c (stringBody? s) := by
  unfold renderChar
  split
  case h_1 letter hletter =>
      obtain ⟨hne, hread⟩ := unescape?_of_escapeLetter? hletter
      exact stringBody?_letter hne hread
  case h_2 hletter =>
      split
      case isTrue hcontrol =>
          -- The number is neither one of a high surrogate nor one of a low one.
          simp only [List.cons_append, List.nil_append, stringBody?, hexQuad?_of_control hcontrol]
          rw [if_neg (by omega), if_neg (by omega), Char.ofNat_toNat]
      case isFalse hplain =>
          have hquote : c ≠ '"' := by rintro rfl; simp [escapeLetter?] at hletter
          have hslash : c ≠ '\\' := by rintro rfl; simp [escapeLetter?] at hletter
          rw [List.singleton_append, stringBody?]
          · rw [if_neg (not_or.mpr ⟨hplain, hslash⟩)]
          · exact hquote
          · exact fun _ _ _ _ _ h _ => hslash h
          · exact fun _ _ h _ => hslash h

/-- The text of a string gives its characters back, and what stands behind its last quote. -/
theorem stringBody?_flatMap_renderChar (cs rest : Text) :
    stringBody? (cs.flatMap renderChar ++ '"' :: rest) = some (cs, rest) := by
  induction cs with
  | nil => rfl
  | cons c cs ih => rw [List.flatMap_cons, List.append_assoc, stringBody?_renderChar, ih]; rfl

theorem renderString_append (name : String) (rest : Text) :
    renderString name ++ rest = '"' :: (name.toList.flatMap renderChar ++ '"' :: rest) := by
  simp [renderString]

/-! ### Numbers -/

/-- A number that a text gives back as it is: a whole number of 64 bits. -/
inductive Number.IsExact : Number → Prop
  | natural {n : Nat} (h : n < 0x10000000000000000) : IsExact (.natural n)
  | negative {n : Nat} (hpos : 0 < n) (h : n ≤ 0x8000000000000000) : IsExact (.negative n)

/-- Can the character stand behind the digits of a number and belong to it? -/
def goesOnWithNumber (c : Char) : Bool :=
  c.isDigit || c == '.' || c == 'e' || c == 'E'

theorem digits_toDigits {n : Nat} {rest : Text} (hrest : StopsAt goesOnWithNumber rest) :
    digits (Nat.toDigits 10 n ++ rest) = (Nat.toDigits 10 n, rest) := by
  have hstop : StopsAt Char.isDigit rest := by
    refine hrest.imp ?_
    intro c hc
    simp only [goesOnWithNumber, Bool.or_eq_false_iff] at hc
    exact hc.1.1.1
  rw [digits, Text.takeWhile_run (fun _ => Text.isDigit_of_mem_toDigits) hstop,
    Text.dropWhile_run (fun _ => Text.isDigit_of_mem_toDigits) hstop]

theorem fraction?_of_stopsAt {rest : Text} (hrest : StopsAt goesOnWithNumber rest) :
    fraction? rest = some (none, rest) := by
  unfold fraction?
  split
  · exact absurd (hrest '.' rfl) (by decide)
  · rfl

theorem exponent?_of_stopsAt {rest : Text} (hrest : StopsAt goesOnWithNumber rest) :
    exponent? rest = some (none, rest) := by
  cases rest with
  | nil => rfl
  | cons c rest =>
      have h := hrest c rfl
      simp only [goesOnWithNumber, Bool.or_eq_false_iff, beq_eq_false_iff_ne] at h
      exact if_neg (not_or.mpr ⟨h.1.2, h.2⟩)

/-- The digits of a number are read as this number. -/
theorem unsigned?_toDigits {negative : Bool} {n : Nat} {rest : Text}
    (hrest : StopsAt goesOnWithNumber rest) :
    unsigned? negative (Nat.toDigits 10 n ++ rest) = some (.ofWhole negative n, rest) := by
  rw [unsigned?, digits_toDigits hrest]
  split
  case h_1 hnil => exact absurd (Prod.mk.inj hnil).1 Nat.toDigits_ne_nil
  case h_2 c ds hzero =>
      -- No zero leads other digits.
      exact absurd (Text.eq_nil_of_toDigits_eq_zero_cons (Prod.mk.inj hzero).1) (List.cons_ne_nil _ _)
  case h_3 whole behind _ _ heq =>
      obtain ⟨rfl, rfl⟩ := Prod.mk.inj heq
      simp only [fraction?_of_stopsAt hrest, exponent?_of_stopsAt hrest, ofDigits,
        Nat.ofDigitChars_ten_toDigits]

/-- The text of an exact number gives the number back. -/
theorem number?_render {n : Number} {rest : Text} (hn : n.IsExact)
    (hrest : StopsAt goesOnWithNumber rest) : number? (n.render ++ rest) = some (n, rest) := by
  cases hn with
  | @natural n h =>
      have hread : unsigned? false (Nat.toDigits 10 n ++ rest) = some (.ofWhole false n, rest) :=
        unsigned?_toDigits hrest
      rw [Number.ofWhole, if_neg Bool.false_ne_true, if_pos h] at hread
      obtain ⟨c, ds, hdigits, hc⟩ := Text.exists_toDigits_eq_cons n
      rw [hdigits, List.cons_append] at hread
      rw [Number.render, hdigits, List.cons_append, number?]
      · rw [hread]
        rfl
      · intro s heq
        obtain ⟨rfl, -⟩ := List.cons.inj heq
        exact absurd hc (by decide)
  | @negative n hpos h =>
      have hread : unsigned? true (Nat.toDigits 10 n ++ rest) = some (.ofWhole true n, rest) :=
        unsigned?_toDigits hrest
      rw [Number.ofWhole, if_pos rfl, if_pos ⟨hpos, h⟩] at hread
      show Option.filter _ (unsigned? true (Nat.toDigits 10 n ++ rest)) = _
      rw [hread]
      rfl

end ActionCalls.Json
