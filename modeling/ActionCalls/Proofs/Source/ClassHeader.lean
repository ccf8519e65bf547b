import ActionCalls.Proofs.Source.Signature
import ActionCalls.Source.ClassHeader
import Mathlib.Data.List.Chain

/-!
# Where a class is declared

The name of an action class and the supertypes are read by two patterns, and each of them goes through
a word `class` at a place of its own: the one with the suffix where an action class is declared
(`DeclaredAt`), the other one where the file has its first class (`HeaderAt`).

The place of the first class is known without the pattern: it is the first word `class` that has a blank
in front of it, and blanks with a word behind it (`headerAt_iff`). What may stand in front of the word is
matched too, but there a blank is followed by blanks or by the word `abstract` only, so no such place is
passed over.
-/

namespace ActionCalls.Source

open Text (StopsAt IsGap)

/-- The word that stands in front of the name of a class. -/
def classWord : Text :=
  "class".toList

/-- Does the first match of a pattern go through a word at this place? In front of the word the match
starts with some lead, and behind it the rest of the match is read. -/
def GoesThrough {α : Type} (p : Pattern α) (IsLead : Text → Prop) (word : Text)
    (read? : Text → Option (α × Text)) (s front behind : Text) : Prop :=
  ∃ m lead, (p.allMatches s).head? = some m ∧ IsLead lead ∧ front = m.before ++ lead ∧
    s = front ++ (word ++ behind) ∧ read? behind = some (m.value, m.after)

/-! ### What stands in front of the word `class` -/

/-- What stands behind the word `class` of a declaration. -/
def afterClass? (s : Text) : Option Text := do
  let s ← (afterAccess s).afterBlanks?
  let s := ((s.after? "abstract".toList).bind Text.afterBlanks?).getD s
  s.after? classWord

/-- The supertypes that are named behind the word `class`, when a word stands there. -/
def supertypes? (s : Text) : Option (ClassHeader × Text) := do
  let s ← s.afterBlanks?
  let (_, s) ← s.word?
  match keywordThenWord? "extends" s with
  | some (name, s) => return (⟨some (String.ofList name), implementedNames s⟩, s)
  | none => return (⟨none, implementedNames s⟩, s)

theorem classClause_eq (before : Option Char) (s : Text) :
    classClause before s = (afterClass? s).bind supertypes? := by
  simp only [classClause, afterClass?, Option.bind_eq_bind, Option.bind_assoc, classWord]
  rfl

/-- The words with which a declaration may begin, or none. -/
def accessSpellings : List String :=
  ["public", "protected", "private", ""]

/-- What may stand in front of the word `class`: an access modifier, blanks, and perhaps the word
`abstract` with blanks behind it. -/
inductive IsClassLead : Text → Prop where
  | plain {access : String} {gap : Text} (haccess : access ∈ accessSpellings) (hgap : IsGap gap) :
      IsClassLead (access.toList ++ gap)
  | abstract {access : String} {gap gap' : Text} (haccess : access ∈ accessSpellings) (hgap : IsGap gap)
      (hgap' : IsGap gap') : IsClassLead (access.toList ++ gap ++ ("abstract".toList ++ gap'))

/-- May the second character stand behind the first one in front of the word `class`? -/
def LeadStep (b c : Char) : Prop :=
  isBlank b = false ∨ isBlank c = true ∨ c = 'a'

section Lead

variable {s front behind lead rest gap word : Text} {b c : Char}

theorem exists_afterAccess (s : Text) :
    ∃ access ∈ accessSpellings, s = access.toList ++ afterAccess s := by
  have htaken : ∀ {word : String} {rest : Text}, word ∈ accessSpellings →
      s.after? word.toList = some rest →
        ∃ access ∈ accessSpellings, s = access.toList ++ rest :=
    fun hmem hrest => ⟨_, hmem, Text.after?_eq_some_iff.mp hrest⟩
  cases hafter : ((s.after? "public".toList <|> s.after? "protected".toList) <|>
      s.after? "private".toList) with
  | none =>
      rw [afterAccess, hafter]
      exact ⟨"", by decide, rfl⟩
  | some rest =>
      rw [afterAccess, hafter, Option.getD_some]
      simp only [Option.orElse_eq_orElse, Option.orElse_eq_or, Option.or_eq_some_iff] at hafter
      rcases hafter with (hrest | ⟨-, hrest⟩) | ⟨-, hrest⟩
      · exact htaken (by decide) hrest
      · exact htaken (by decide) hrest
      · exact htaken (by decide) hrest

theorem isClassLead_of_afterClass? (h : afterClass? s = some behind) :
    ∃ lead, IsClassLead lead ∧ s = lead ++ (classWord ++ behind) := by
  obtain ⟨access, haccess, hfront⟩ := exists_afterAccess s
  obtain ⟨behindGap, hgap, h⟩ := Option.bind_eq_some_iff.mp h
  obtain ⟨gap, hcut, hgap, -⟩ := Text.afterBlanks?_eq_some_iff.mp hgap
  rw [hcut] at hfront
  have hclass := Text.after?_eq_some_iff.mp h
  cases habstract : (behindGap.after? "abstract".toList).bind Text.afterBlanks? with
  | none =>
      rw [habstract, Option.getD_none] at hclass
      refine ⟨_, .plain haccess hgap, ?_⟩
      rw [hfront, hclass, List.append_assoc]
  | some behindAbstract =>
      rw [habstract, Option.getD_some] at hclass
      obtain ⟨behindWord, hword, hgap'⟩ := Option.bind_eq_some_iff.mp habstract
      obtain ⟨gap', rfl, hgap', -⟩ := Text.afterBlanks?_eq_some_iff.mp hgap'
      refine ⟨_, .abstract haccess hgap hgap', ?_⟩
      rw [hfront, Text.after?_eq_some_iff.mp hword, hclass]
      simp only [List.append_assoc]

theorem isChain_of_not_isBlank (h : ∀ c ∈ word, isBlank c = false) : word.IsChain LeadStep :=
  (List.pairwise_of_forall_mem_list fun b hb _ _ => Or.inl (h b hb)).isChain

theorem isChain_gap (h : IsGap gap) : gap.IsChain LeadStep :=
  (List.pairwise_of_forall_mem_list fun _ _ c hc => Or.inr (Or.inl (h.2 c hc))).isChain

/-- Blanks go on, or they end at the word `abstract`. -/
theorem IsClassLead.isChain (h : IsClassLead lead) : lead.IsChain LeadStep := by
  have haccess : ∀ access ∈ accessSpellings, access.toList.all (isBlank · = false) := by decide
  have hplain : ∀ {access gap}, access ∈ accessSpellings → IsGap gap →
      (access.toList ++ gap).IsChain LeadStep := by
    intro access gap hmem hgap
    have hword : ∀ c ∈ access.toList, isBlank c = false := by
      simpa using haccess access hmem
    refine List.isChain_append.mpr ⟨isChain_of_not_isBlank hword, isChain_gap hgap, ?_⟩
    exact fun b hb _ _ => Or.inl (hword b (List.mem_of_getLast? hb))
  have habstract : ∀ c ∈ "abstract".toList, isBlank c = false := by
    have hall : "abstract".toList.all (isBlank · = false) := by decide
    simpa using hall
  cases h with
  | plain hmem hgap => exact hplain hmem hgap
  | abstract hmem hgap hgap' =>
      refine List.isChain_append.mpr ⟨hplain hmem hgap, ?_, ?_⟩
      · refine List.isChain_append.mpr ⟨isChain_of_not_isBlank habstract, isChain_gap hgap', ?_⟩
        exact fun b hb _ _ => Or.inl (habstract b (List.mem_of_getLast? hb))
      · intro b _ c hc
        obtain rfl := Option.some.inj hc
        exact Or.inr (Or.inr rfl)

/-- No word `class` stands behind a blank further in front. -/
theorem IsClassLead.not_class (h : IsClassLead lead) (hcut : lead = front ++ b :: rest)
    (hblank : isBlank b = true) (hrest : rest ++ (classWord ++ behind) = classWord ++ s) :
    rest = [] := by
  cases rest with
  | nil => rfl
  | cons c rest =>
      obtain rfl : c = 'c' := (List.cons.inj hrest).1
      have hchain := h.isChain
      rw [hcut] at hchain
      have hstep := (List.isChain_cons_cons.mp (List.isChain_append.mp hchain).2.1).1
      rcases hstep with hb | hc | hc
      · rw [hblank] at hb
        cases hb
      · exact absurd hc (by decide)
      · exact absurd hc (by decide)

theorem isBlank_getLast?_append (front : Text) (h : IsGap gap) :
    (front ++ gap).getLast?.any isBlank = true := by
  cases hlast : gap.getLast? with
  | none => exact absurd (List.getLast?_eq_none_iff.mp hlast) h.1
  | some c =>
      rw [List.getLast?_append, hlast]
      exact h.2 c (List.mem_of_getLast? hlast)

theorem IsClassLead.isBlank_getLast? (h : IsClassLead lead) (front : Text) :
    (front ++ lead).getLast?.any isBlank = true := by
  cases h with
  | plain _ hgap =>
      rw [← List.append_assoc]
      exact isBlank_getLast?_append _ hgap
  | abstract _ _ hgap' =>
      rw [← List.append_assoc, ← List.append_assoc]
      exact isBlank_getLast?_append _ hgap'

end Lead

/-! ### The place of a class -/

/-- Do blanks with a word behind them stand at the front? -/
def WordFollows (s : Text) : Prop :=
  ∃ gap c rest, s = gap ++ c :: rest ∧ IsGap gap ∧ isWord c = true

/-- A place in a text that looks like a class: a word `class` with a blank in front of it, and blanks
with a word behind it. -/
structure IsClassPlace (s front behind : Text) : Prop where
  cut : s = front ++ (classWord ++ behind)
  blank : front.getLast?.any isBlank = true
  named : WordFollows behind

/-- The first place that looks like a class. -/
structure IsFirstClassPlace (s front behind : Text) : Prop extends IsClassPlace s front behind where
  first : ∀ front' behind', IsClassPlace s front' behind' → front.length ≤ front'.length

/-- Is the header of a text read behind the word `class` at this place? -/
def HeaderAt (s front behind : Text) : Prop :=
  GoesThrough classClause IsClassLead classWord supertypes? s front behind

section Places

variable {s front behind front' behind' rest : Text} {b : Char} {before : Option Char}
  {m : Match ClassHeader}

theorem isSome_supertypes?_iff : (supertypes? s).isSome ↔ WordFollows s := by
  constructor
  · intro h
    obtain ⟨reading, hread⟩ := Option.isSome_iff_exists.mp h
    obtain ⟨behindGap, hbehind, hread⟩ := Option.bind_eq_some_iff.mp hread
    obtain ⟨⟨word, rest⟩, hword, -⟩ := Option.bind_eq_some_iff.mp hread
    obtain ⟨gap, rfl, hgap, -⟩ := Text.afterBlanks?_eq_some_iff.mp hbehind
    obtain ⟨hne, rfl, hall, -⟩ := Text.word?_eq_some_iff.mp hword
    obtain ⟨c, word, rfl⟩ := List.exists_cons_of_ne_nil hne
    exact ⟨gap, c, word ++ rest, rfl, hgap, hall c List.mem_cons_self⟩
  · intro h
    obtain ⟨gap, c, rest, rfl, hgap, hc⟩ := h
    have hblank : isBlank c = false := isBlank_of_isTypeChar (isTypeChar_of_isWord hc)
    have hbehind : Text.afterBlanks? (gap ++ c :: rest) = some (c :: rest) :=
      Text.afterBlanks?_eq_some_iff.mpr ⟨gap, rfl, hgap, Text.stopsAt_cons hblank⟩
    have hword : Text.word? (c :: rest) = some (Text.word (c :: rest), Text.afterWord (c :: rest)) := by
      rw [Text.word?, if_neg]
      simp [Text.word, hc]
    rw [supertypes?, hbehind, Option.bind_eq_bind, Option.bind_some, hword]
    simp only [Option.bind_eq_bind, Option.bind_some]
    split <;> rfl

theorem afterClass?_of_isBlank (h : isBlank b = true) (behind : Text) :
    afterClass? (b :: (classWord ++ behind)) = some behind := by
  have hp : b ≠ 'p' := by
    intro heq
    rw [heq] at h
    exact absurd h (by decide)
  have haccess : afterAccess (b :: (classWord ++ behind)) = b :: (classWord ++ behind) := by
    simp [afterAccess, Text.after?, hp]
  have hbehind : Text.afterBlanks? (b :: (classWord ++ behind)) = some (classWord ++ behind) :=
    Text.afterBlanks?_eq_some_iff.mpr
      ⟨[b], rfl, ⟨List.cons_ne_nil b [], by simpa using h⟩, Text.stopsAt_cons (by decide)⟩
  have habstract : (classWord ++ behind).after? "abstract".toList = none := by
    simp [classWord, Text.after?]
  rw [afterClass?, haccess, hbehind]
  simp only [Option.bind_eq_bind, Option.bind_some, habstract, Option.bind_none, Option.getD_none]
  exact Text.after?_eq_some_iff.mpr rfl

/-- The pattern reads something at such a place, if not further in front. -/
theorem IsClassPlace.exists_classClause (h : IsClassPlace s front behind) :
    ∃ passed b header after, front = passed ++ [b] ∧ isBlank b = true ∧
      s = passed ++ b :: (classWord ++ behind) ∧
        classClause passed.getLast? (b :: (classWord ++ behind)) = some (header, after) := by
  obtain ⟨b, hlast, hblank⟩ := (Option.any_eq_true _ _).mp h.blank
  obtain ⟨passed, rfl⟩ := List.getLast?_eq_some_iff.mp hlast
  obtain ⟨⟨header, after⟩, hread⟩ := Option.isSome_iff_exists.mp (isSome_supertypes?_iff.mpr h.named)
  refine ⟨passed, b, header, after, rfl, hblank, ?_, ?_⟩
  · simpa using h.cut
  · rw [classClause_eq, afterClass?_of_isBlank hblank]
    exact hread

/-- The first match of the pattern goes through some word `class`. -/
theorem exists_headerAt (h : (classClause.allMatches s).head? = some m) :
    ∃ front behind, HeaderAt s front behind := by
  obtain ⟨c, rest, hcut, -, hread⟩ := Pattern.head?_allMatches_iff.mp h
  rw [classClause_eq] at hread
  obtain ⟨behind, hbehind, hsupertypes⟩ := Option.bind_eq_some_iff.mp hread
  obtain ⟨lead, hlead, hfront⟩ := isClassLead_of_afterClass? hbehind
  refine ⟨m.before ++ lead, behind, m, lead, h, hlead, rfl, ?_, hsupertypes⟩
  rw [hcut, hfront, List.append_assoc]

/-- What stands in front of the word `class` is read as far as there is a word `class` behind a blank. -/
theorem IsClassLead.length_le {lead : Text} (h : IsClassLead lead) (hblank : isBlank b = true)
    (hcut : lead ++ (classWord ++ behind) = front ++ b :: (classWord ++ behind')) :
    lead.length ≤ front.length + 1 := by
  have hcut' : lead ++ (classWord ++ behind) = (front ++ [b]) ++ (classWord ++ behind') := by
    rw [hcut, List.append_assoc, List.singleton_append]
  rcases List.append_eq_append_iff.mp hcut' with ⟨more, hmore, -⟩ | ⟨more, hmore, hrest⟩
  · have hlength := congrArg List.length hmore
    simp only [List.length_append, List.length_singleton] at hlength
    omega
  · have hlead : lead = front ++ b :: more := by
      rw [hmore, List.append_assoc, List.singleton_append]
    rw [hlead, h.not_class hlead hblank hrest.symm, List.length_append, List.length_singleton]

theorem HeaderAt.isFirst (h : HeaderAt s front behind) : IsFirstClassPlace s front behind := by
  obtain ⟨m, lead, hfirst, hlead, rfl, hcut, hsupertypes⟩ := h
  obtain ⟨c, rest, hplace, hsilent, -⟩ := Pattern.head?_allMatches_iff.mp hfirst
  refine ⟨⟨hcut, hlead.isBlank_getLast? _, isSome_supertypes?_iff.mp (by rw [hsupertypes]; rfl)⟩, ?_⟩
  intro front' behind' hother
  obtain ⟨passed, b, header, after, rfl, hblank, hcut', hread⟩ := hother.exists_classClause
  simp only [List.length_append, List.length_singleton]
  have hsame : m.before ++ (lead ++ (classWord ++ behind)) = passed ++ b :: (classWord ++ behind') := by
    rw [← hcut', hcut, List.append_assoc]
  rcases List.append_eq_append_iff.mp hsame with ⟨more, rfl, hmore⟩ | ⟨more, hbefore, hmore⟩
  · have hle := hlead.length_le hblank hmore
    rw [List.length_append]
    omega
  · cases more with
    | nil =>
        have hle : lead.length ≤ List.length ([] : Text) + 1 := hlead.length_le hblank hmore.symm
        rw [hbefore, List.length_append] at *
        simp only [List.length_nil] at *
        omega
    | cons d more =>
        -- The pattern would have read something further in front.
        rw [hplace, List.append_assoc] at hcut
        rw [← List.append_cancel_left hcut] at hmore
        obtain ⟨rfl, -⟩ := List.cons.inj hmore
        have hnone := hsilent passed b more hbefore
        rw [Option.or_none] at hnone
        rw [hmore] at hread
        cases hread.symm.trans hnone

/-- **The header is read at the first place that looks like a class.** -/
theorem headerAt_iff : HeaderAt s front behind ↔ IsFirstClassPlace s front behind := by
  refine ⟨HeaderAt.isFirst, fun h => ?_⟩
  obtain ⟨passed, b, header, after, -, -, hcut, hread⟩ := h.exists_classClause
  obtain ⟨m, hm⟩ := Pattern.exists_head?_allMatches hread
  rw [← hcut] at hm
  obtain ⟨front', behind', hheader⟩ := exists_headerAt hm
  have hfirst := hheader.isFirst
  have hlength : front.length = front'.length :=
    Nat.le_antisymm (h.first _ _ hfirst.toIsClassPlace) (hfirst.first _ _ h.toIsClassPlace)
  obtain ⟨rfl, hbehind⟩ := List.append_inj (h.cut.symm.trans hfirst.cut) hlength
  obtain rfl := List.append_cancel_left hbehind
  exact hheader

theorem classHeader_eq (s : Text) :
    classHeader s = ((classClause.allMatches s).head?.map Match.value).getD ⟨none, ∅⟩ := by
  rw [classHeader, Pattern.first?, Pattern.all, List.head?_map]

theorem HeaderAt.supertypes?_eq (h : HeaderAt s front behind) :
    ∃ rest, supertypes? behind = some (classHeader s, rest) := by
  obtain ⟨m, -, hfirst, -, -, -, hsupertypes⟩ := h
  rw [classHeader_eq, hfirst]
  exact ⟨m.after, hsupertypes⟩

theorem classHeader_of_no_place (h : ∀ front behind, ¬ IsClassPlace s front behind) :
    classHeader s = ⟨none, ∅⟩ := by
  rw [classHeader_eq]
  cases hfirst : (classClause.allMatches s).head? with
  | none => rfl
  | some m =>
      obtain ⟨front, behind, hheader⟩ := exists_headerAt hfirst
      exact absurd hheader.isFirst.toIsClassPlace (h front behind)

end Places

/-! ### The place of an action class -/

/-- What stands in front of the word `class` or `interface` of an action class. -/
def IsActionLead (lead : Text) : Prop :=
  ∃ (gap : Text) (modifiers : List WrittenModifier), IsGap gap ∧
    (∀ w ∈ modifiers, w.word ∈ ["abstract", "final"]) ∧
      lead = "public".toList ++ (gap ++ modifiers.flatMap WrittenModifier.text)

/-- Is the action class of a text declared with the keyword at this place, its name being read behind
the keyword? -/
def DeclaredAt (keyword : String) (suffix : Text) (s front behind : Text) : Prop :=
  GoesThrough (actionClause suffix) IsActionLead keyword.toList (spacedName? suffix) s front behind

section Action

variable {suffix s front behind name rest : Text} {keyword a b : String} {n : Nat} {m : Match Text}

theorem IsActionLead.isBlank_getLast? {lead : Text} (h : IsActionLead lead) (front : Text) :
    (front ++ lead).getLast?.any isBlank = true := by
  obtain ⟨gap, modifiers, hgap, -, rfl⟩ := h
  rcases List.eq_nil_or_concat modifiers with rfl | ⟨passed, last, rfl⟩
  · rw [List.flatMap_nil, List.append_nil, ← List.append_assoc]
    exact isBlank_getLast?_append _ hgap
  · have hlast : (passed.concat last).flatMap WrittenModifier.text =
        passed.flatMap WrittenModifier.text ++ (last.word.toList ++ last.gap) := by
      simp [WrittenModifier.text]
    rw [hlast, ← List.append_assoc, ← List.append_assoc, ← List.append_assoc, ← List.append_assoc]
    exact isBlank_getLast?_append _ last.isGap

theorem afterEither?_eq_some (h : afterEither? a b s = some rest) :
    ∃ word ∈ [a, b], s = word.toList ++ rest := by
  simp only [afterEither?, Option.orElse_eq_orElse, Option.orElse_eq_or, Option.or_eq_some_iff] at h
  rcases h with h | ⟨-, h⟩
  · exact ⟨a, by simp, Text.after?_eq_some_iff.mp h⟩
  · exact ⟨b, by simp, Text.after?_eq_some_iff.mp h⟩

/-- What is stepped over was written as modifiers. -/
theorem exists_written_of_skipClassModifiers (n : Nat) (s : Text) :
    ∃ modifiers : List WrittenModifier, (∀ w ∈ modifiers, w.word ∈ ["abstract", "final"]) ∧
      s = modifiers.flatMap WrittenModifier.text ++ skipClassModifiers n s := by
  fun_induction skipClassModifiers n s with
  | case1 s => exact ⟨[], by simp, rfl⟩
  | case2 s n r hread ih =>
      obtain ⟨modifiers, hmodifiers, hcut⟩ := ih
      obtain ⟨behindWord, hword, hgap⟩ := Option.bind_eq_some_iff.mp hread
      obtain ⟨word, hmem, rfl⟩ := afterEither?_eq_some hword
      obtain ⟨gap, rfl, hgap, -⟩ := Text.afterBlanks?_eq_some_iff.mp hgap
      have hspelled : (word, Modifier.other word) ∈ Modifier.spellings := by
        simp only [List.mem_cons, List.not_mem_nil, or_false] at hmem
        rcases hmem with rfl | rfl <;> decide
      refine ⟨⟨word, .other word, gap, hspelled, hgap⟩ :: modifiers, ?_, ?_⟩
      · exact List.forall_mem_cons.mpr ⟨hmem, hmodifiers⟩
      · rw [List.flatMap_cons, List.append_assoc, ← hcut, WrittenModifier.text, List.append_assoc]
  | case3 s n hread => exact ⟨[], by simp, rfl⟩

/-- What is read was written as a declaration. -/
theorem exists_lead_of_actionClause {before : Option Char}
    (h : actionClause suffix before s = some (name, rest)) :
    ∃ lead, IsActionLead lead ∧ ∃ keyword ∈ ["class", "interface"], ∃ behind,
      s = lead ++ (keyword.toList ++ behind) ∧ spacedName? suffix behind = some (name, rest) := by
  obtain ⟨behindPublic, hpublic, h⟩ := Option.bind_eq_some_iff.mp h
  obtain ⟨behindGap, hgap, h⟩ := Option.bind_eq_some_iff.mp h
  obtain ⟨behind, hkeyword, hname⟩ := Option.bind_eq_some_iff.mp h
  obtain ⟨gap, rfl, hgap, -⟩ := Text.afterBlanks?_eq_some_iff.mp hgap
  obtain ⟨modifiers, hmodifiers, hskip⟩ :=
    exists_written_of_skipClassModifiers behindGap.length behindGap
  obtain ⟨keyword, hmem, hbehind⟩ := afterEither?_eq_some hkeyword
  refine ⟨_, ⟨gap, modifiers, hgap, hmodifiers, rfl⟩, keyword, hmem, behind, ?_, hname⟩
  rw [Text.after?_eq_some_iff.mp hpublic, hskip, hbehind]
  simp only [List.append_assoc]

/-- The first match goes through one of the two words. -/
theorem exists_declaredAt (h : ((actionClause suffix).allMatches s).head? = some m) :
    ∃ keyword ∈ ["class", "interface"], ∃ front behind, DeclaredAt keyword suffix s front behind := by
  obtain ⟨c, rest, hcut, -, hread⟩ := Pattern.head?_allMatches_iff.mp h
  obtain ⟨lead, hlead, keyword, hmem, behind, hdeclared, hname⟩ := exists_lead_of_actionClause hread
  refine ⟨keyword, hmem, _, behind, m, lead, h, hlead, rfl, ?_, hname⟩
  rw [hcut, hdeclared, List.append_assoc]

/-- The name read where a class is declared is that of the class. -/
theorem DeclaredAt.spacedName?_eq {suffix name : String} (h : DeclaredAt keyword suffix.toList s front behind)
    (hname : actionClass? suffix s = some name) :
    ∃ rest, spacedName? suffix.toList behind = some (name.toList, rest) := by
  obtain ⟨m, -, hfirst, -, -, -, hread⟩ := h
  rw [actionClass?, Pattern.first?, Pattern.all, List.head?_map, hfirst] at hname
  obtain rfl := Option.some.inj hname
  rw [String.toList_ofList]
  exact ⟨m.after, hread⟩

theorem suffixedName?_cut (h : suffixedName? suffix s = some (name, rest)) : s = name ++ rest := by
  obtain ⟨n, -, hread⟩ := List.exists_of_findSome?_eq_some h
  obtain ⟨behind, hsuffix, hread⟩ := Option.bind_eq_some_iff.mp hread
  obtain ⟨-, -, hresult⟩ := Option.bind_eq_some_iff.mp hread
  obtain ⟨rfl, rfl⟩ := Prod.mk.inj (Option.some.inj hresult)
  rw [List.append_assoc, ← Text.after?_eq_some_iff.mp hsuffix, List.take_append_drop]

/-- A name that starts with a character of a word follows as a word. -/
theorem wordFollows_of_spacedName? (h : spacedName? suffix behind = some (name, rest))
    (hname : name.head?.any isWord = true) : WordFollows behind := by
  obtain ⟨n, hn, hread⟩ := List.exists_of_findSome?_eq_some h
  obtain ⟨c, hhead, hc⟩ := (Option.any_eq_true _ _).mp hname
  obtain ⟨name, rfl⟩ := List.head?_eq_some_iff.mp hhead
  -- The separation takes some of the blanks at the front.
  have hle : n + 1 ≤ (behind.takeWhile isBlank).length := by
    simp only [List.mem_reverse, List.mem_range] at hn
    exact hn
  have hblanks : behind.take (n + 1) = (behind.takeWhile isBlank).take (n + 1) := by
    have hwhole : behind.take (n + 1) =
        (behind.takeWhile isBlank ++ behind.dropWhile isBlank).take (n + 1) := by
      rw [List.takeWhile_append_dropWhile]
    rw [hwhole, List.take_append_of_le_length hle]
  refine ⟨behind.take (n + 1), c, name ++ rest, ?_, ⟨?_, ?_⟩, hc⟩
  · rw [← List.cons_append, ← suffixedName?_cut hread, List.take_append_drop]
  · rw [hblanks]
    refine List.ne_nil_of_length_pos ?_
    rw [List.length_take]
    omega
  · intro d hd
    rw [hblanks] at hd
    exact List.all_eq_true.mp List.all_takeWhile d (List.mem_of_mem_take hd)

/-- The word `class` of an action class is a place that looks like a class, unless no word follows. -/
theorem DeclaredAt.isClassPlace_iff (h : DeclaredAt "class" suffix s front behind) :
    IsClassPlace s front behind ↔ WordFollows behind := by
  obtain ⟨m, lead, -, hlead, rfl, hcut, -⟩ := h
  exact ⟨IsClassPlace.named, fun hword => ⟨hcut, hlead.isBlank_getLast? m.before, hword⟩⟩

/-- **The header is read at the place of the action class if a word follows there and no place further
in front looks like a class.** -/
theorem DeclaredAt.headerAt_iff (h : DeclaredAt "class" suffix s front behind) :
    HeaderAt s front behind ↔ WordFollows behind ∧
      ∀ front' behind', IsClassPlace s front' behind' → front.length ≤ front'.length := by
  rw [Source.headerAt_iff, ← h.isClassPlace_iff]
  exact ⟨fun hfirst => ⟨hfirst.toIsClassPlace, hfirst.first⟩, fun h => ⟨h.1, h.2⟩⟩

end Action

end ActionCalls.Source
