import ActionCalls.Proofs.Source.Signature
import ActionCalls.Proofs.Text.Bytes

/-!
# Annotations and argument lists

An annotation takes its argument list with it, up to the first closing parenthesis, and what stands in
there is not read again. Argument lists are nested: where one annotation stands in the list of another,
their lists end at the same parenthesis, or its own is not closed at all. So an annotation is found
**unless it stands in the argument list of another one** (`mem_annotations`), be that one found or not.

A part of a text may start inside of such a list. What is lost in the whole text stands in a list that
was opened before the part (`mem_annotations_append`); this is also what a longer window in front of a
declaration can lose.
-/

namespace ActionCalls.Source

open Text (StopsAt)

/-- Is the name a whole word directly behind an at sign, at this place of the text? -/
structure IsAnnotation (s front name rest : Text) : Prop where
  cut : s = front ++ '@' :: (name ++ rest)
  ne_nil : name ≠ []
  word : ∀ c ∈ name, isWord c
  ends : StopsAt isWord rest

/-- Does the argument list of an annotation hold the place between the two parts of a text? The list
opens directly behind the name, and its first closing parenthesis stands behind the place. -/
structure Encloses (outer name front rest : Text) : Prop where
  cut : ∃ inside, front = outer ++ '@' :: (name ++ '(' :: inside) ∧ ')' ∉ inside
  ne_nil : name ≠ []
  word : ∀ c ∈ name, isWord c
  closes : ')' ∈ rest

/-- Does the place between the two parts of a text stand in the argument list of an annotation? -/
def InArguments (front rest : Text) : Prop :=
  ∃ outer name, Encloses outer name front rest

/-! ### Reading an annotation -/

section Reading

variable {before : Option Char} {s name rest : Text}

theorem annotationMark_eq_some_iff :
    annotationMark before s = some (name, rest) ↔
      ∃ behind, IsAnnotation s [] name behind ∧ (afterArguments? behind).getD behind = rest := by
  unfold annotationMark
  constructor
  · intro h
    obtain ⟨behindSign, hsign, h⟩ := Option.bind_eq_some_iff.mp h
    obtain ⟨⟨word, behind⟩, hword, hresult⟩ := Option.bind_eq_some_iff.mp h
    obtain ⟨rfl, rfl⟩ := Prod.mk.inj (Option.some.inj hresult)
    obtain rfl := Text.after?_eq_some_iff.mp hsign
    obtain ⟨hne, rfl, hall, hends⟩ := Text.word?_eq_some_iff.mp hword
    exact ⟨behind, ⟨rfl, hne, hall, hends⟩, rfl⟩
  · intro h
    obtain ⟨behind, ⟨rfl, hne, hall, hends⟩, rfl⟩ := h
    refine Option.bind_eq_some_iff.mpr ⟨name ++ behind, Text.after?_eq_some_iff.mpr rfl, ?_⟩
    exact Option.bind_eq_some_iff.mpr
      ⟨_, Text.word?_eq_some_iff.mpr ⟨hne, rfl, hall, hends⟩, rfl⟩

/-- An annotation in front of a closing parenthesis goes on to that parenthesis at most. -/
theorem length_le_of_annotationMark {inside after : Text} (hinside : ')' ∉ inside)
    (h : annotationMark before ('@' :: (inside ++ ')' :: rest)) = some (name, after)) :
    rest.length ≤ after.length := by
  obtain ⟨behind, ⟨hcut, -, hword, -⟩, rfl⟩ := annotationMark_eq_some_iff.mp h
  have hname : ')' ∉ name := fun hmem => absurd (hword ')' hmem) (by decide)
  obtain ⟨inside, rfl⟩ := Text.prefix_of_not_mem hname (List.cons.inj hcut).2.symm
  have hbehind : inside ++ ')' :: rest = behind := by simpa using hcut
  cases harguments : afterArguments? behind with
  | none =>
      rw [Option.getD_none, ← hbehind, List.length_append, List.length_cons]
      omega
  | some after =>
      obtain ⟨arguments, rfl, hmem⟩ := afterArguments?_eq_some_iff.mp harguments
      have hlist : ')' ∉ '(' :: arguments := by simpa using hmem
      obtain ⟨-, rfl⟩ := Text.append_mark_inj hbehind
        (fun hmem => hinside (List.mem_append_right name hmem)) hlist
      exact Nat.le_refl _

/-- What stands in the argument list of an annotation is covered by that annotation. -/
theorem Encloses.covers {outer front : Text} (h : Encloses outer name front rest) :
    annotationMark.Covers before front rest := by
  obtain ⟨⟨inside, rfl, hinside⟩, hne, hword, hcloses⟩ := h
  obtain ⟨more, after, rfl, hmore⟩ := List.eq_append_cons_of_mem hcloses
  have harguments : afterArguments? ('(' :: (inside ++ more ++ ')' :: after)) = some after := by
    refine afterArguments?_eq_some_iff.mpr ⟨inside ++ more, rfl, fun hmem => ?_⟩
    exact (List.mem_append.mp hmem).elim hinside hmore
  refine ⟨outer, '@', name ++ '(' :: inside, name, after, rfl, ?_, ?_⟩
  · refine annotationMark_eq_some_iff.mpr ⟨'(' :: (inside ++ more ++ ')' :: after), ⟨?_, hne, hword,
      Text.stopsAt_cons (by decide)⟩, by rw [harguments, Option.getD_some]⟩
    simp
  · rw [List.length_append, List.length_cons]
    omega

/-- What covers an at sign is an annotation that has it in its argument list. -/
theorem inArguments_of_covers {passed : Text} (h : annotationMark.Covers before passed ('@' :: rest)) :
    InArguments passed ('@' :: rest) := by
  obtain ⟨outer, c, back, name, after, rfl, hread, hlength⟩ := h
  obtain ⟨behind, ⟨hcut, hne, hword, -⟩, rfl⟩ := annotationMark_eq_some_iff.mp hread
  obtain ⟨rfl, hbehind⟩ : c = '@' ∧ back ++ '@' :: rest = name ++ behind := List.cons.inj hcut
  have hname : '@' ∉ name := fun hmem => absurd (hword '@' hmem) (by decide)
  obtain ⟨back, rfl⟩ := Text.prefix_of_not_mem hname hbehind.symm
  obtain rfl : back ++ '@' :: rest = behind := by simpa using hbehind
  cases harguments : afterArguments? (back ++ '@' :: rest) with
  | none =>
      rw [harguments, Option.getD_none, List.length_append] at hlength
      omega
  | some after =>
      rw [harguments, Option.getD_some] at hlength
      obtain ⟨arguments, hlist, hmem⟩ := afterArguments?_eq_some_iff.mp harguments
      cases back with
      | nil => exact absurd (List.cons.inj hlist).1 (by decide)
      | cons d inside =>
          obtain ⟨rfl, hinside⟩ : d = '(' ∧ inside ++ '@' :: rest = arguments ++ ')' :: after :=
            List.cons.inj hlist
          rcases List.append_eq_append_iff.mp hinside with ⟨more, rfl, hrest⟩ | ⟨more, rfl, hrest⟩
          · refine ⟨outer, name, ⟨⟨inside, rfl, ?_⟩, hne, hword, ?_⟩⟩
            · exact fun hclose => hmem (List.mem_append_left more hclose)
            · rw [hrest]
              exact List.mem_append_right more List.mem_cons_self
          · -- The list would end in front of the sign.
            have hequal := congrArg List.length hrest
            simp only [List.length_append, List.length_cons] at hequal hlength
            obtain rfl : more = [] := List.length_eq_zero_iff.mp (by omega)
            exact absurd (List.cons.inj hrest).1 (by decide)

/-- An annotation that stands in what another one takes goes on to the end of that at most. -/
theorem annotationMark_nested : annotationMark.Nested := by
  intro before c s name rest hread
  obtain ⟨behind, ⟨hcut, hne, hword, -⟩, hrest⟩ := annotationMark_eq_some_iff.mp hread
  obtain ⟨rfl, rfl⟩ : c = '@' ∧ s = name ++ behind := List.cons.inj hcut
  cases harguments : afterArguments? behind with
  | none =>
      rw [harguments, Option.getD_none] at hrest
      refine ⟨name, hrest ▸ rfl, ?_⟩
      rintro ⟨front, d, back, value, after, rfl, hinner, -⟩
      obtain ⟨_, ⟨hsign, -, -, -⟩, -⟩ := annotationMark_eq_some_iff.mp hinner
      obtain ⟨rfl, -⟩ := List.cons.inj hsign
      exact absurd (hword _ (List.mem_append_right front List.mem_cons_self)) (by decide)
  | some after =>
      rw [harguments, Option.getD_some] at hrest
      subst hrest
      obtain ⟨arguments, rfl, hmem⟩ := afterArguments?_eq_some_iff.mp harguments
      refine ⟨name ++ '(' :: arguments ++ [')'], by simp, ?_⟩
      rintro ⟨front, d, back, value, inner, htaken, hinner, hlength⟩
      obtain ⟨_, ⟨hsign, -, -, -⟩, -⟩ := annotationMark_eq_some_iff.mp hinner
      obtain ⟨rfl, -⟩ := List.cons.inj hsign
      -- The last character taken is the closing parenthesis, and the inner sign stands before it.
      rcases List.eq_nil_or_concat back with rfl | ⟨inside, d, rfl⟩
      · exact absurd (List.append_inj' htaken rfl).2 (by decide)
      · rw [List.concat_eq_append, ← List.cons_append, ← List.append_assoc] at htaken
        obtain ⟨hfront, hlast⟩ := List.append_inj' htaken rfl
        obtain rfl := List.singleton_inj.mp hlast
        have hinside : ')' ∉ inside := by
          intro hclose
          have hclose : ')' ∈ name ++ '(' :: arguments := by
            rw [hfront]
            exact List.mem_append_right _ (List.mem_cons_of_mem _ hclose)
          rcases List.mem_append.mp hclose with hclose | hclose
          · exact absurd (hword _ hclose) (by decide)
          · exact hmem (List.mem_of_ne_of_mem (by decide) hclose)
        rw [List.concat_eq_append, List.append_assoc] at hinner
        have hle : after.length ≤ inner.length := length_le_of_annotationMark hinside hinner
        omega

end Reading

/-! ### The annotations of a text -/

/-- An argument list that has the sign has the whole annotation. -/
theorem encloses_iff {s front name rest outer other : Text}
    (h : IsAnnotation s front name rest) :
    Encloses outer other front ('@' :: (name ++ rest)) ↔ Encloses outer other front rest := by
  have hclose : ')' ∈ '@' :: (name ++ rest) ↔ ')' ∈ rest := by
    rw [List.mem_cons, List.mem_append]
    constructor
    · rintro (hsign | hmem | hmem)
      · exact absurd hsign (by decide)
      · exact absurd (h.word ')' hmem) (by decide)
      · exact hmem
    · exact fun hmem => Or.inr (Or.inr hmem)
  exact ⟨fun ⟨hcut, hne, hword, hcloses⟩ => ⟨hcut, hne, hword, hclose.mp hcloses⟩,
    fun ⟨hcut, hne, hword, hcloses⟩ => ⟨hcut, hne, hword, hclose.mpr hcloses⟩⟩

/-- **An annotation is found unless it stands in the argument list of another one.** -/
theorem mem_annotations {s : Text} {name : String} :
    name ∈ annotations s ↔
      ∃ front rest, IsAnnotation s front name.toList rest ∧ ¬ InArguments front rest := by
  rw [annotations, Std.ExtTreeSet.mem_ofList, List.contains_iff_mem, List.mem_map]
  constructor
  · intro h
    obtain ⟨found, hfound, rfl⟩ := h
    obtain ⟨⟨front, _, after⟩, hmatch, rfl⟩ := List.mem_map.mp hfound
    obtain ⟨c, behind, rfl, hread, hfree⟩ :=
      (Pattern.mem_allMatches_iff annotationMark_nested).mp hmatch
    obtain ⟨rest, ⟨hcut, hne, hword, hends⟩, -⟩ := annotationMark_eq_some_iff.mp hread
    obtain ⟨rfl, rfl⟩ : c = '@' ∧ behind = _ ++ rest := List.cons.inj hcut
    rw [String.toList_ofList]
    refine ⟨front, rest, ⟨rfl, hne, hword, hends⟩, ?_⟩
    rintro ⟨outer, other, hencloses⟩
    exact hfree (encloses_iff ⟨rfl, hne, hword, hends⟩ |>.mpr hencloses).covers
  · intro h
    obtain ⟨front, rest, hannotation, hfree⟩ := h
    obtain ⟨rfl, hne, hword, hends⟩ := hannotation
    have hmatch : ⟨front, name.toList, (afterArguments? rest).getD rest⟩ ∈
        annotationMark.allMatches (front ++ '@' :: (name.toList ++ rest)) := by
      refine (Pattern.mem_allMatches_iff annotationMark_nested).mpr
        ⟨'@', name.toList ++ rest, rfl, ?_, fun hcovers => hfree ?_⟩
      · exact annotationMark_eq_some_iff.mpr ⟨rest, ⟨rfl, hne, hword, hends⟩, rfl⟩
      · obtain ⟨outer, other, hencloses⟩ := inArguments_of_covers hcovers
        exact ⟨outer, other, encloses_iff ⟨rfl, hne, hword, hends⟩ |>.mp hencloses⟩
    exact ⟨name.toList, List.mem_map.mpr ⟨_, hmatch, rfl⟩, String.ofList_toList⟩

/-! ### Annotations of a part -/

/-- Does every place where the annotation is found in `s` stand in an argument list that was opened in
the text in front of `s`? -/
def HiddenBy (added s name : Text) : Prop :=
  ∀ front rest, IsAnnotation s front name rest → ¬ InArguments front rest →
    ∃ outer other, outer.length < added.length ∧ Encloses outer other (added ++ front) rest

/-- A longer text loses only what an argument list hides that was opened in what it has more. -/
theorem mem_annotations_append {added s : Text} {name : String} (h : name ∈ annotations s) :
    name ∈ annotations (added ++ s) ∨ HiddenBy added s name.toList := by
  by_cases hhidden : HiddenBy added s name.toList
  · exact Or.inr hhidden
  · left
    simp only [HiddenBy, not_forall, not_exists, not_and] at hhidden
    obtain ⟨front, rest, ⟨rfl, hne, hword, hends⟩, hfree, hopen⟩ := hhidden
    refine mem_annotations.mpr ⟨added ++ front, rest, ⟨?_, hne, hword, hends⟩, ?_⟩
    · rw [List.append_assoc]
    · rintro ⟨outer, other, hencloses⟩
      -- The list that has the place was opened in the part itself.
      have hle := Nat.le_of_not_lt fun hlt => hopen outer other hlt hencloses
      obtain ⟨⟨inside, hcut, hinside⟩, hother, hwordOther, hcloses⟩ := hencloses
      obtain ⟨outer, rfl⟩ := List.prefix_of_prefix_length_le ⟨front, rfl⟩ ⟨_, hcut.symm⟩ hle
      rw [List.append_assoc] at hcut
      exact hfree ⟨outer, other, ⟨inside, List.append_cancel_left hcut, hinside⟩, hother, hwordOther,
        hcloses⟩

/-- Are all whole words behind an at sign annotations of the text? -/
def FindsAllAnnotations (s : Text) : Prop :=
  ∀ name : String, name ∈ annotations s ↔ ∃ front rest, IsAnnotation s front name.toList rest

/-- No annotation is lost as long as each stands outside of argument lists somewhere. -/
theorem findsAllAnnotations_iff {s : Text} :
    FindsAllAnnotations s ↔ ∀ (name : String) front rest, IsAnnotation s front name.toList rest →
      ∃ front' rest', IsAnnotation s front' name.toList rest' ∧ ¬ InArguments front' rest' := by
  constructor
  · intro h name front rest hannotation
    exact mem_annotations.mp ((h name).mpr ⟨front, rest, hannotation⟩)
  · intro h name
    constructor
    · intro hmem
      obtain ⟨front, rest, hannotation, -⟩ := mem_annotations.mp hmem
      exact ⟨front, rest, hannotation⟩
    · intro hannotation
      obtain ⟨front, rest, hannotation⟩ := hannotation
      exact mem_annotations.mpr (h name front rest hannotation)

/-- **Annotations are found outside of argument lists, and there all of them.** A text with more in
front of it, as a longer window before a declaration is, loses only those that an argument list hides
which was opened in what it has more. -/
theorem annotations_outside_arguments (s : Text) :
    (∀ name : String, name ∈ annotations s ↔
      ∃ front rest, IsAnnotation s front name.toList rest ∧ ¬ InArguments front rest) ∧
    (FindsAllAnnotations s ↔ ∀ (name : String) front rest, IsAnnotation s front name.toList rest →
      ∃ front' rest', IsAnnotation s front' name.toList rest' ∧ ¬ InArguments front' rest') ∧
    (∀ added (name : String), name ∈ annotations s →
      name ∈ annotations (added ++ s) ∨ HiddenBy added s name.toList) ∧
    ∀ found ∈ signature.allMatches s, ∀ lookback more, lookback ≤ more →
      ∃ added, found.before.lastBytes more = added ++ found.before.lastBytes lookback ∧
        ∀ name ∈ (Signature.toDeclaration lookback found).annotations,
          name ∈ (Signature.toDeclaration more found).annotations ∨
            HiddenBy added (found.before.lastBytes lookback) name.toList := by
  refine ⟨fun name => mem_annotations, findsAllAnnotations_iff,
    fun added name h => mem_annotations_append h, ?_⟩
  intro found _ lookback more hle
  obtain ⟨added, hadded⟩ := Text.lastBytes_suffix_of_le hle found.before
  refine ⟨added, hadded.symm, fun name hname => ?_⟩
  rw [Signature.toDeclaration, ← hadded]
  exact mem_annotations_append hname

/-! ### An annotation in the arguments of another one -/

/-- A method with an annotation that has another one in its argument list. -/
def resultsSource : Text :=
  "@Results({@Result(x)}) String run() {}".toList

/-- The declaration of the method. -/
def resultsRun : Match Signature where
  before := "@Results({@Result(x)}) ".toList
  value := ⟨[], some "String", "run"⟩
  after := " {}".toList

theorem resultsRun_mem : resultsRun ∈ signature.allMatches resultsSource := by
  decide +kernel

theorem annotations_outside_arguments_resultsRun :
    resultsRun ∈ signature.allMatches resultsSource ∧ 14 ≤ 23 ∧
      "Result" ∈ (Signature.toDeclaration 14 resultsRun).annotations ∧
      "Result" ∉ (Signature.toDeclaration 23 resultsRun).annotations ∧
      ∃ added, resultsRun.before.lastBytes 23 = added ++ resultsRun.before.lastBytes 14 ∧
        HiddenBy added (resultsRun.before.lastBytes 14) "Result".toList := by
  have hshort : "Result" ∈ (Signature.toDeclaration 14 resultsRun).annotations := by decide +kernel
  have hlong : "Result" ∉ (Signature.toDeclaration 23 resultsRun).annotations := by decide +kernel
  obtain ⟨added, hadded, hlost⟩ :=
    (annotations_outside_arguments resultsSource).2.2.2 resultsRun resultsRun_mem 14 23 (by decide)
  exact ⟨resultsRun_mem, by decide, hshort, hlong, added, hadded, (hlost _ hshort).resolve_left hlong⟩

/-- Do the declarations of a text keep their annotations when the window is enlarged? -/
def KeepsAnnotations (s : Text) : Prop :=
  ∀ found ∈ signature.allMatches s, ∀ lookback more, lookback ≤ more →
    ∀ name ∈ (Signature.toDeclaration lookback found).annotations,
      name ∈ (Signature.toDeclaration more found).annotations

/-- The inner annotation is found only where the window starts inside of the outer one. -/
theorem not_findsAllAnnotations_resultsSource :
    ¬ FindsAllAnnotations resultsSource ∧ ¬ KeepsAnnotations resultsSource := by
  constructor
  · intro h
    have hresult : IsAnnotation resultsSource "@Results(\x7b".toList "Result".toList
        "(x)\x7d) String run() \x7b\x7d".toList :=
      ⟨by decide, by decide, List.all_eq_true.mp (by decide), Text.stopsAt_cons (by decide)⟩
    exact absurd ((h "Result").mpr ⟨_, _, hresult⟩) (by decide +kernel)
  · intro h
    have hresult : "Result" ∈ (Signature.toDeclaration 23 resultsRun).annotations :=
      h resultsRun resultsRun_mem 14 23 (by decide) _ (by decide +kernel)
    exact absurd hresult (by decide +kernel)

end ActionCalls.Source
