import ActionCalls.Proofs.Settings.Reload
import ActionCalls.Proofs.Source.ClassHeader

/-!
# Classes that carry the suffix

The suffix of action classes may be any text, and it may stand in a name more than once, in front of
itself and overlapping. Where a name ends in the suffix and no word character follows, that is still
**the last place at which the suffix can be read**, and it is read there exactly if the suffix ends in a
word character (`endsAtWord_and_length_le`): further back the suffix would end behind the name, and a
suffix that is also read further in front is made of word characters only.

So the name of a class that carries the suffix is read as a whole if the suffix ends in a word
character, and otherwise no class is read at all (`actionClass?_emptyClass_of_load`).
-/

namespace ActionCalls.Source

open Text (StopsAt IsGap)

/-! ### Places of the suffix -/

/-- Does a text end in a word character? -/
def endsAtWord (s : Text) : Bool :=
  s.getLast?.any isWord

section Places

variable {suffix part word behind rest tail : Text} {p : Char → Bool}

/-- A text that stands in front of itself, a part of one kind further back, is of that kind. -/
theorem forall_of_append_eq (hne : part ≠ []) (hpart : ∀ c ∈ part, p c)
    (h : suffix ++ rest = part ++ (suffix ++ tail)) : ∀ c ∈ suffix, p c := by
  induction hn : suffix.length using Nat.strongRecOn generalizing suffix with
  | ind n ih =>
      rcases List.append_eq_append_iff.mp h with ⟨more, rfl, -⟩ | ⟨more, rfl, hmore⟩
      · exact fun c hc => hpart c (List.mem_append_left more hc)
      · have hshorter : more.length < n := by
          rw [← hn, List.length_append]
          have := List.length_pos_iff.mpr hne
          omega
        rw [List.append_assoc] at hmore
        intro c hc
        rcases List.mem_append.mp hc with hc | hc
        · exact hpart c hc
        · exact ih more.length hshorter hmore.symm rfl c hc

/-- A text of word characters ends in one. -/
theorem endsAtWord_of_forall (hne : suffix ≠ []) (h : ∀ c ∈ suffix, isWord c) : endsAtWord suffix := by
  rw [endsAtWord, List.getLast?_eq_some_getLast hne]
  exact h _ (List.getLast_mem hne)

/-- A boundary that no word character follows is behind one. -/
theorem endsAtWord_of_boundary (hrest : ∀ c ∈ rest, isWord c = false)
    (h : Text.isBoundary suffix.getLast? rest = true) : endsAtWord suffix := by
  have hhead : rest.head?.any isWord = false := by
    cases rest with
    | nil => rfl
    | cons c rest => exact hrest c List.mem_cons_self
  rw [Text.isBoundary, hhead] at h
  simpa [endsAtWord] using h

/-- **The suffix behind a word, with no word character behind it, ends at a boundary only as a word
does, and no place further back.** -/
theorem endsAtWord_and_length_le (hsuffix : suffix ≠ []) (hword : ∀ c ∈ word, isWord c)
    (htail : ∀ c ∈ tail, isWord c = false)
    (hboundary : Text.isBoundary suffix.getLast? rest = true)
    (h : part ++ (suffix ++ rest) = word ++ (suffix ++ tail)) :
    endsAtWord suffix ∧ part.length ≤ word.length := by
  rcases List.append_eq_append_iff.mp h with ⟨more, rfl, hmore⟩ | ⟨more, rfl, hmore⟩
  · refine ⟨?_, by simp⟩
    by_cases hnil : more = []
    · subst hnil
      obtain rfl := List.append_cancel_left hmore
      exact endsAtWord_of_boundary htail hboundary
    · exact endsAtWord_of_forall hsuffix
        (forall_of_append_eq hnil (fun c hc => hword c (List.mem_append_right part hc)) hmore)
  · -- What is left behind the suffix is left of the tail, and the suffix takes the rest of it.
    have hlength := congrArg List.length hmore
    simp only [List.length_append] at hlength
    have hrest : rest <:+ tail :=
      List.suffix_of_suffix_length_le
        ((List.suffix_append suffix rest).trans (List.suffix_append more _))
        (hmore ▸ List.suffix_append suffix tail) (by omega)
    obtain ⟨taken, rfl⟩ := hrest
    have hends : endsAtWord suffix :=
      endsAtWord_of_boundary (fun c hc => htail c (List.mem_append_right taken hc)) hboundary
    refine ⟨hends, ?_⟩
    rw [← List.append_assoc, ← List.append_assoc] at hmore
    have hshift : suffix ++ taken = more ++ suffix := List.append_cancel_right hmore
    rcases List.eq_nil_or_concat taken with rfl | ⟨front, last, rfl⟩
    · simp only [List.length_append, List.length_nil] at *
      omega
    · have hlast := congrArg List.getLast? hshift
      rw [List.concat_eq_append, ← List.append_assoc, List.getLast?_concat,
        List.getLast?_append_of_ne_nil _ hsuffix] at hlast
      rw [endsAtWord, ← hlast, Option.any_some, htail last (by simp)] at hends
      cases hends

end Places

/-! ### The name -/

/-- A search from the highest number down ends at the highest one at which something is found. -/
theorem findSome?_reverse_range {α : Type} {f : Nat → Option α} {a : α} {n m : Nat} (hn : n < m)
    (hfound : f n = some a) (habove : ∀ k, n < k → k < m → f k = none) :
    (List.range m).reverse.findSome? f = some a := by
  induction m with
  | zero => exact absurd hn (Nat.not_lt_zero n)
  | succ m ih =>
      rw [List.range_succ, List.reverse_append, List.reverse_singleton, List.singleton_append,
        List.findSome?_cons]
      rcases Nat.lt_or_eq_of_le (Nat.le_of_lt_succ hn) with hlt | rfl
      · rw [habove m hlt (Nat.lt_succ_self m)]
        exact ih hlt fun k hk hkm => habove k hk (Nat.lt_succ_of_lt hkm)
      · rw [hfound]

section Name

variable {suffix s name word behind passed rest tail : Text} {n : Nat}

theorem suffixedAt?_eq_some_iff (hsuffix : suffix ≠ []) :
    suffixedAt? suffix s n = some (name, rest) ↔
      s.drop n = suffix ++ rest ∧ name = s.take n ++ suffix ∧
        Text.isBoundary suffix.getLast? rest = true := by
  have hlast : (s.take n ++ suffix).getLast? = suffix.getLast? :=
    List.getLast?_append_of_ne_nil _ hsuffix
  rw [← hlast]
  constructor
  · intro h
    obtain ⟨behind, hbehind, h⟩ := Option.bind_eq_some_iff.mp h
    obtain ⟨_, hguard, h⟩ := Option.bind_eq_some_iff.mp h
    obtain ⟨rfl, rfl⟩ := Prod.mk.inj (Option.some.inj h)
    exact ⟨Text.after?_eq_some_iff.mp hbehind, rfl, (Option.guard_eq_some' _).mp hguard⟩
  · rintro ⟨hdrop, rfl, hboundary⟩
    refine Option.bind_eq_some_iff.mpr ⟨rest, Text.after?_eq_some_iff.mpr hdrop, ?_⟩
    exact Option.bind_eq_some_iff.mpr ⟨(), (Option.guard_eq_some' _).mpr hboundary, rfl⟩

/-- Where a name is read, the suffix stands somewhere and ends at a boundary. -/
theorem exists_of_suffixedName? (hsuffix : suffix ≠ []) (h : suffixedName? suffix s = some (name, rest)) :
    ∃ part, s = part ++ (suffix ++ rest) ∧ Text.isBoundary suffix.getLast? rest = true := by
  obtain ⟨n, -, hread⟩ := List.exists_of_findSome?_eq_some h
  obtain ⟨hdrop, -, hboundary⟩ := (suffixedAt?_eq_some_iff hsuffix).mp hread
  exact ⟨s.take n, by rw [← hdrop, List.take_append_drop], hboundary⟩

theorem exists_of_spacedName? (hsuffix : suffix ≠ []) (h : spacedName? suffix s = some (name, rest)) :
    ∃ gap part, s = gap ++ (part ++ (suffix ++ rest)) ∧ gap ≠ [] ∧
      Text.isBoundary suffix.getLast? rest = true := by
  obtain ⟨n, hn, hread⟩ := List.exists_of_findSome?_eq_some h
  obtain ⟨part, hdrop, hboundary⟩ := exists_of_suffixedName? hsuffix hread
  refine ⟨s.take (n + 1), part, by rw [← hdrop, List.take_append_drop], ?_, hboundary⟩
  rintro hnil
  rw [List.take_eq_nil_iff] at hnil
  rcases hnil with hzero | rfl
  · cases hzero
  · simp at hn

variable (hsuffix : suffix ≠ []) (hword : ∀ c ∈ word, isWord c) (htail : ∀ c ∈ tail, isWord c = false)

include hsuffix hword htail

/-- The longest word in front of the suffix is the whole one. -/
theorem suffixedName?_written (hends : endsAtWord suffix) :
    suffixedName? suffix (word ++ (suffix ++ tail)) = some (word ++ suffix, tail) := by
  have hboundary : Text.isBoundary suffix.getLast? tail = true := by
    have hhead : tail.head?.any isWord = false := by
      cases tail with
      | nil => rfl
      | cons c tail => exact htail c List.mem_cons_self
    rw [Text.isBoundary, hhead]
    simpa [endsAtWord] using hends
  refine findSome?_reverse_range (n := word.length) ?_ ?_ ?_
  · rw [Text.word, List.takeWhile_append_of_pos hword, List.length_append]
    omega
  · exact (suffixedAt?_eq_some_iff hsuffix).mpr ⟨List.drop_left, by rw [List.take_left], hboundary⟩
  · intro k hk hlt
    refine Option.eq_none_iff_forall_ne_some.mpr ?_
    rintro ⟨name, rest⟩ hread
    obtain ⟨hdrop, -, hboundary⟩ := (suffixedAt?_eq_some_iff hsuffix).mp hread
    have hcut := List.take_append_drop k (word ++ (suffix ++ tail))
    rw [hdrop] at hcut
    obtain ⟨-, hle⟩ := endsAtWord_and_length_le hsuffix hword htail hboundary hcut
    -- There are so many characters, since the word in front of the text is longer.
    have hlong : k ≤ (word ++ (suffix ++ tail)).length :=
      (Nat.le_of_lt_succ hlt).trans (List.takeWhile_sublist isWord).length_le
    rw [List.length_take, Nat.min_eq_left hlong] at hle
    omega

theorem spacedName?_written (hends : endsAtWord suffix) :
    spacedName? suffix (' ' :: (word ++ (suffix ++ tail))) = some (word ++ suffix, tail) := by
  refine findSome?_reverse_range (n := 0) ?_ ?_ ?_
  · rw [List.takeWhile_cons_of_pos (by decide)]
    exact Nat.succ_pos _
  · exact suffixedName?_written hsuffix hword htail hends
  · intro k hk hlt
    refine Option.eq_none_iff_forall_ne_some.mpr ?_
    rintro ⟨name, rest⟩ hread
    obtain ⟨part, hdrop, hboundary⟩ := exists_of_suffixedName? hsuffix hread
    have hcut := List.take_append_drop k (word ++ (suffix ++ tail))
    rw [← List.drop_succ_cons (a := ' '), hdrop, ← List.append_assoc] at hcut
    obtain ⟨-, hle⟩ := endsAtWord_and_length_le hsuffix hword htail hboundary hcut
    rw [List.takeWhile_cons_of_pos (by decide), List.length_cons] at hlt
    have hlong := (List.takeWhile_sublist (l := word ++ (suffix ++ tail)) isBlank).length_le
    rw [List.length_append, List.length_take] at hle
    -- More blanks are taken only where no word stands between.
    cases word with
    | nil => simp only [List.length_nil] at *; omega
    | cons c word =>
        have hc : isBlank c = false :=
          isBlank_of_isTypeChar (isTypeChar_of_isWord (hword c List.mem_cons_self))
        rw [List.cons_append, List.takeWhile_cons_of_neg (by simp [hc]), List.length_nil] at hlt
        omega

/-- Wherever a name is read in front of the tail, the suffix ends in a word character. -/
theorem endsAtWord_of_spacedName? (h : spacedName? suffix behind = some (name, rest))
    (hcut : passed ++ behind = ' ' :: (word ++ (suffix ++ tail))) : endsAtWord suffix := by
  obtain ⟨gap, part, rfl, hgap, hboundary⟩ := exists_of_spacedName? hsuffix h
  obtain ⟨c, more, hmore⟩ := List.exists_cons_of_ne_nil (List.append_ne_nil_of_right_ne_nil passed hgap)
  rw [← List.append_assoc, hmore, List.cons_append, ← List.append_assoc] at hcut
  exact (endsAtWord_and_length_le hsuffix hword htail hboundary (List.cons.inj hcut).2).1

end Name

/-! ### The declaration -/

section Declaration

variable {suffix lead behind rest : Text} {keyword : String} {before : Option Char} {n : Nat}

theorem afterEither?_modifier (w : WrittenModifier) (hword : w.word ∈ ["abstract", "final"])
    (rest : Text) : afterEither? "abstract" "final" (w.word.toList ++ rest) = some rest := by
  simp only [List.mem_cons, List.not_mem_nil, or_false] at hword
  rcases hword with hword | hword <;> simp [hword, afterEither?, Text.after?]

/-- All modifiers that are written are stepped over. -/
theorem skipClassModifiers_written (modifiers : List WrittenModifier)
    (hwords : ∀ w ∈ modifiers, w.word ∈ ["abstract", "final"]) (hn : modifiers.length ≤ n)
    (hrest : StopsAt isBlank rest) (hnone : afterEither? "abstract" "final" rest = none) :
    skipClassModifiers n (modifiers.flatMap WrittenModifier.text ++ rest) = rest := by
  induction modifiers generalizing n with
  | nil =>
      rw [List.flatMap_nil, List.nil_append]
      cases n with
      | zero => rfl
      | succ n => rw [skipClassModifiers, hnone, Option.bind_none]
  | cons w modifiers ih =>
      obtain ⟨hw, hwords⟩ := List.forall_mem_cons.mp hwords
      cases n with
      | zero => simp at hn
      | succ n =>
          have hgap := Text.afterBlanks?_eq_some_iff.mpr
            ⟨w.gap, rfl, w.isGap, stopsAt_isBlank_modifiers modifiers hrest⟩
          rw [List.flatMap_cons, WrittenModifier.text, List.append_assoc, List.append_assoc,
            skipClassModifiers, afterEither?_modifier w hw, Option.bind_some, hgap]
          exact ih hwords (Nat.le_of_succ_le_succ hn)

/-- The name of a declaration that is written is read behind its keyword. -/
theorem actionClause_written (hlead : IsActionLead lead) (hkeyword : keyword ∈ ["class", "interface"]) :
    actionClause suffix before (lead ++ (keyword.toList ++ behind)) = spacedName? suffix behind := by
  obtain ⟨gap, modifiers, hgap, hwords, rfl⟩ := hlead
  have hkeywords : StopsAt isBlank (keyword.toList ++ behind) ∧
      afterEither? "abstract" "final" (keyword.toList ++ behind) = none ∧
        afterEither? "class" "interface" (keyword.toList ++ behind) = some behind := by
    simp only [List.mem_cons, List.not_mem_nil, or_false] at hkeyword
    rcases hkeyword with rfl | rfl <;>
      exact ⟨Text.stopsAt_cons (by decide), by simp [afterEither?, Text.after?],
        by simp [afterEither?, Text.after?]⟩
  obtain ⟨hstops, hnone, hbehind⟩ := hkeywords
  have hpublic := Text.after?_eq_some_iff.mpr (List.append_assoc "public".toList
    (gap ++ modifiers.flatMap WrittenModifier.text) (keyword.toList ++ behind))
  have hgap := Text.afterBlanks?_eq_some_iff.mpr ⟨gap, List.append_assoc .., hgap,
    stopsAt_isBlank_modifiers modifiers hstops⟩
  have hlength : modifiers.length ≤
      (modifiers.flatMap WrittenModifier.text ++ (keyword.toList ++ behind)).length := by
    rw [List.length_append]
    exact (length_le_length_modifiers modifiers).trans (Nat.le_add_right _ _)
  rw [actionClause, hpublic, Option.bind_eq_bind, Option.bind_some, hgap, Option.bind_some,
    skipClassModifiers_written modifiers hwords hlength hstops hnone, hbehind]
  rfl

/-- The letter with which a declaration starts stands nowhere else in front of its name. -/
theorem IsActionLead.exists_eq_cons (h : IsActionLead lead) (hkeyword : keyword ∈ ["class", "interface"]) :
    ∃ more, lead ++ keyword.toList = 'p' :: more ∧ 'p' ∉ more := by
  obtain ⟨gap, modifiers, hgap, hwords, rfl⟩ := h
  have hblank : ∀ {gap : Text}, IsGap gap → 'p' ∉ gap :=
    fun hgap hmem => absurd (hgap.2 'p' hmem) (by decide)
  have hmodifiers : 'p' ∉ modifiers.flatMap WrittenModifier.text := by
    intro hmem
    obtain ⟨w, hw, hmem⟩ := List.mem_flatMap.mp hmem
    have hspelled : ∀ word ∈ ["abstract", "final"], 'p' ∉ word.toList := by decide
    rcases List.mem_append.mp hmem with hmem | hmem
    · exact hspelled _ (hwords w hw) hmem
    · exact hblank w.isGap hmem
  have hspelled : ∀ word ∈ ["class", "interface"], 'p' ∉ word.toList := by decide
  refine ⟨"ublic".toList ++ (gap ++ modifiers.flatMap WrittenModifier.text) ++ keyword.toList, rfl, ?_⟩
  simp [hblank hgap, hmodifiers, hspelled keyword hkeyword]

end Declaration

/-! ### Classes that carry the suffix -/

/-- A public class or interface with an empty body. -/
def emptyClass (lead : Text) (keyword : String) (name : Text) : Text :=
  lead ++ (keyword.toList ++ ' ' :: (name ++ " {}".toList))

/-- Is every public class or interface whose name is a word with the suffix behind it found under its
own name? -/
def FindsOwnClasses (suffix : String) : Prop :=
  ∀ (lead : Text) (keyword : String) (word : Text), IsActionLead lead →
    keyword ∈ ["class", "interface"] → (∀ c ∈ word, isWord c) →
      actionClass? suffix (emptyClass lead keyword (word ++ suffix.toList)) =
        some (String.ofList (word ++ suffix.toList))

section Own

variable {suffix lead word : Text} {keyword : String}

theorem emptyClass_append :
    emptyClass lead keyword (word ++ suffix) =
      lead ++ (keyword.toList ++ ' ' :: (word ++ (suffix ++ " {}".toList))) := by
  rw [emptyClass, List.append_assoc word]

theorem forall_not_isWord_body : ∀ c ∈ " {}".toList, isWord c = false := by
  have hall : " {}".toList.all fun c => !isWord c := by decide
  simpa only [List.all_eq_true, Bool.not_eq_true'] using hall

variable (hsuffix : suffix ≠ []) (hlead : IsActionLead lead)
  (hkeyword : keyword ∈ ["class", "interface"]) (hword : ∀ c ∈ word, isWord c)

include hsuffix hlead hkeyword hword

/-- The declaration is the first match when the suffix ends in a word character. -/
theorem head?_emptyClass (hends : endsAtWord suffix) :
    ((actionClause suffix).allMatches (emptyClass lead keyword (word ++ suffix))).head? =
      some ⟨[], word ++ suffix, " {}".toList⟩ := by
  have hread : actionClause suffix none (emptyClass lead keyword (word ++ suffix)) =
      some (word ++ suffix, " {}".toList) := by
    rw [emptyClass_append, actionClause_written hlead hkeyword]
    exact spacedName?_written hsuffix hword forall_not_isWord_body hends
  have hne : emptyClass lead keyword (word ++ suffix) ≠ [] := by
    obtain ⟨more, hmore, -⟩ := hlead.exists_eq_cons hkeyword
    rw [emptyClass, ← List.append_assoc, hmore]
    exact List.cons_ne_nil _ _
  exact Pattern.head?_allMatches Pattern.silent_nil hne hread

/-- Nothing is read in the declaration otherwise. -/
theorem endsAtWord_of_head?_emptyClass {m : Match Text}
    (h : ((actionClause suffix).allMatches (emptyClass lead keyword (word ++ suffix))).head? = some m) :
    endsAtWord suffix := by
  obtain ⟨c, rest, hcut, -, hread⟩ := Pattern.head?_allMatches_iff.mp h
  obtain ⟨front, hfront, hfree⟩ := hlead.exists_eq_cons hkeyword
  rw [emptyClass_append] at hcut
  by_cases hbefore : m.before = []
  · rw [hbefore, List.nil_append] at hcut
    rw [← hcut, actionClause_written hlead hkeyword] at hread
    exact endsAtWord_of_spacedName? hsuffix hword forall_not_isWord_body hread (List.nil_append _)
  · -- A declaration further back starts behind the keyword, so its name is read there too.
    obtain ⟨lead', hlead', keyword', hkeyword', behind, hbehind, hname⟩ :=
      exists_lead_of_actionClause hread
    obtain ⟨front', hfront', -⟩ := hlead'.exists_eq_cons hkeyword'
    obtain ⟨first, passed, hpassed⟩ := List.exists_cons_of_ne_nil hbefore
    rw [← List.append_assoc, hfront'] at hbehind
    obtain ⟨rfl, rfl⟩ := List.cons.inj hbehind
    rw [← List.append_assoc, hfront, hpassed] at hcut
    have hbody : front ++ ' ' :: (word ++ (suffix ++ " {}".toList)) =
        passed ++ 'p' :: (front' ++ behind) := (List.cons.inj hcut).2
    obtain ⟨between, rfl⟩ := Text.prefix_of_not_mem hfree hbody
    rw [List.append_assoc] at hbody
    have hplace : (between ++ 'p' :: front') ++ behind = ' ' :: (word ++ (suffix ++ " {}".toList)) := by
      rw [List.append_cancel_left hbody, List.append_assoc, List.cons_append]
    exact endsAtWord_of_spacedName? hsuffix hword forall_not_isWord_body hname hplace

end Own

/-- **An accepted suffix finds its own classes exactly if it ends in a word character**: each public class
or interface whose name is a word with the suffix behind it is found under its whole name then, and
otherwise in none of them a class is found. -/
theorem actionClass?_emptyClass_of_load {disk : Disk} {path : String} {settings : Settings}
    {lead word : Text} {keyword : String} (hload : Settings.load disk path = .ok settings)
    (hlead : IsActionLead lead) (hkeyword : keyword ∈ ["class", "interface"])
    (hword : ∀ c ∈ word, isWord c) :
    actionClass? settings.analysis.actionSuffix
        (emptyClass lead keyword (word ++ settings.analysis.actionSuffix.toList)) =
      if endsAtWord settings.analysis.actionSuffix.toList then
        some (String.ofList (word ++ settings.analysis.actionSuffix.toList))
      else none := by
  have hsuffix : settings.analysis.actionSuffix.toList ≠ [] :=
    fun hnil => (Settings.isUsable_of_load hload).2.2 (String.toList_eq_nil_iff.mp hnil)
  rw [actionClass?, Pattern.first?, Pattern.all, List.head?_map]
  split
  case isTrue hends =>
      rw [head?_emptyClass hsuffix hlead hkeyword hword hends]
      rfl
  case isFalse hends =>
      cases hfirst : ((actionClause settings.analysis.actionSuffix.toList).allMatches
          (emptyClass lead keyword (word ++ settings.analysis.actionSuffix.toList))).head? with
      | none => rfl
      | some m => exact absurd (endsAtWord_of_head?_emptyClass hsuffix hlead hkeyword hword hfirst) hends

/-! ### Suffixes with a dollar sign -/

/-- A disk with a settings file that sets the suffix. -/
def suffixDisk (suffix : String) : Disk :=
  (Disk.mk ∅ []).put ["actiongraph.toml"]
    (.file (Utf8.encode ("[analysis]\naction_suffix = \"" ++ suffix ++ "\"\n").toList))

def suffixSettings (suffix : String) : Settings where
  analysis := { actionSuffix := suffix }

theorem isGap_space : IsGap [' '] :=
  ⟨List.cons_ne_nil _ _, List.forall_mem_singleton.mpr (by decide)⟩

theorem isActionLead_abstract_final : IsActionLead "public abstract final ".toList :=
  ⟨[' '], [⟨"abstract", .other "abstract", [' '], by decide, isGap_space⟩,
    ⟨"final", .other "final", [' '], by decide, isGap_space⟩], isGap_space, by decide, by decide⟩

/-- A word may end as the suffix starts. -/
theorem actionClass?_emptyClass_of_load_overlap :
    Settings.load (suffixDisk "Job$Job") "actiongraph.toml" = .ok (suffixSettings "Job$Job") ∧
      actionClass? "Job$Job"
        (emptyClass "public abstract final ".toList "interface" ("Job".toList ++ "Job$Job".toList)) =
          some (String.ofList ("Job".toList ++ "Job$Job".toList)) := by
  have hload : Settings.load (suffixDisk "Job$Job") "actiongraph.toml" =
      .ok (suffixSettings "Job$Job") := by decide +kernel
  have hkeyword : "interface" ∈ ["class", "interface"] := by decide
  have hword : ∀ c ∈ "Job".toList, isWord c := List.all_eq_true.mp (by decide)
  have hfound :=
    actionClass?_emptyClass_of_load hload isActionLead_abstract_final hkeyword hword
  have hends : endsAtWord (suffixSettings "Job$Job").analysis.actionSuffix.toList = true := by decide
  rw [if_pos hends] at hfound
  exact ⟨hload, hfound⟩

/-- Behind a dollar sign a boundary needs a word character, so a class is found only if its name goes
on, under a name that is not its own. -/
theorem not_findsOwnClasses_dollar :
    Settings.load (suffixDisk "$") "actiongraph.toml" = .ok (suffixSettings "$") ∧
      ¬ FindsOwnClasses "$" ∧
        actionClass? "$" "public class Cart$Form {}".toList = some "Cart$" := by
  have hplain : IsActionLead "public ".toList :=
    ⟨[' '], [], isGap_space, by simp, by decide⟩
  have hnone : actionClass? "$" (emptyClass "public ".toList "class" "Cart$".toList) = none := by
    decide +kernel
  refine ⟨by decide +kernel, ?_, by decide +kernel⟩
  intro h
  have hword : ∀ c ∈ "Cart".toList, isWord c := List.all_eq_true.mp (by decide)
  have hfound := h "public ".toList "class" "Cart".toList hplain (by decide) hword
  exact absurd (hnone.symm.trans hfound) (by simp)

end ActionCalls.Source
