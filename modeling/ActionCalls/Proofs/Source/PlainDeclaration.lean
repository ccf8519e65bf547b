import ActionCalls.Proofs.Source.Body
import ActionCalls.Proofs.Source.Signature

/-!
# Plain declarations are found

A plain declaration is a signature with a return type, and a body in braces behind it
(`PlainDeclaration`). Where it is the first thing with a parenthesis in a text, it is the first
declaration that is found, and **each of its parts is found as it was written**: as many words in front
as are modifiers, the whole name, and the whole body.

That no signature is read in front of it (`IsLead.silent`) is the point where the search could go
wrong. A signature that starts earlier would have to reach the first parenthesis through characters of
types and blanks only, and the mark that ends what stands in front of the declaration is neither.
-/

namespace ActionCalls.Source

/-! ### What a plain declaration says -/

/-- A declaration as it is written plainly. -/
structure PlainDeclaration extends WrittenSignature where
  type : WrittenType
  returnType := some type
  /-- What stands between the arguments and the body. -/
  quiet : Text
  body : Text
  returnType_eq : returnType = some type := by rfl
  type_not_keyword : type.type ∉ keywords
  type_not_modifier : type.type ∉ Modifier.spellings.map Prod.fst
  name_not_keyword : name ∉ keywords
  no_opening : '{' ∉ quiet
  staysOpen : StaysOpen 0 body
  balanced : body.count '}' = body.count '{'

def PlainDeclaration.text (plain : PlainDeclaration) : Text :=
  plain.toWrittenSignature.text ++ (plain.quiet ++ '{' :: (plain.body ++ ['}']))

/-- The words for a level of access. -/
def accessWords : List (String × AccessLevel) :=
  [("public", .publicAccess), ("protected", .protectedAccess), ("private", .privateAccess)]

/-- The level is that of the first word for one, and package access when there is none. -/
inductive GivesAccess : List String → AccessLevel → Prop
  | none {words : List String} :
      (∀ word ∈ words, word ∉ accessWords.map Prod.fst) → GivesAccess words .packageAccess
  | first {front back : List String} {word : String} {level : AccessLevel} :
      (∀ word ∈ front, word ∉ accessWords.map Prod.fst) → (word, level) ∈ accessWords →
        GivesAccess (front ++ word :: back) level

/-- What is found has the fields of the plain declaration, `lead` standing in front of it. -/
structure PlainDeclaration.Describes (plain : PlainDeclaration) (lookback : Nat) (lead : Text)
    (found : MethodDeclaration) : Prop where
  name : found.name = plain.name
  access : GivesAccess (plain.modifiers.map WrittenModifier.word) found.accessLevel
  isStatic : found.isStatic = true ↔ "static" ∈ plain.modifiers.map WrittenModifier.word
  annotations : found.annotations = Source.annotations (lead.lastBytes lookback)
  body : found.body = plain.body
  offset : found.offset = lead.byteLength

/-- The marks that end a statement, or start or end a block. -/
def statementMarks : List Char :=
  [';', '{', '}']

/-- Does the text have no parenthesis, and does it end, up to blanks, with the end of a statement or
with a brace? It may be empty or blank. -/
structure IsLead (lead : Text) : Prop where
  not_mem : '(' ∉ lead
  ends : ∃ front blanks, lead = front ++ blanks ∧ (∀ c ∈ front.getLast?, c ∈ statementMarks) ∧
    ∀ c ∈ blanks, isBlank c

/-! ### Modifiers by their words -/

section Modifiers

variable {word : String} {modifier : Modifier}

theorem access_of_spelled (h : (word, modifier) ∈ Modifier.spellings) :
    (∃ level, modifier = .access level ∧ (word, level) ∈ accessWords) ∨
      (∀ level, modifier ≠ .access level) ∧ word ∉ accessWords.map Prod.fst := by
  simp only [Modifier.spellings, List.mem_cons, Prod.mk.injEq, List.not_mem_nil, or_false] at h
  rcases h with ⟨rfl, rfl⟩ | ⟨rfl, rfl⟩ | ⟨rfl, rfl⟩ | ⟨rfl, rfl⟩ | ⟨rfl, rfl⟩ | ⟨rfl, rfl⟩ |
    ⟨rfl, rfl⟩ | ⟨rfl, rfl⟩ | ⟨rfl, rfl⟩ <;> simp [accessWords]

theorem eq_static_iff_of_spelled (h : (word, modifier) ∈ Modifier.spellings) :
    modifier = .static ↔ word = "static" := by
  constructor
  · rintro rfl
    have hall : ∀ entry ∈ Modifier.spellings, entry.2 = .static → entry.1 = "static" := by decide
    exact hall _ h rfl
  · rintro rfl
    exact Modifier.unique h (by decide)

/-- A word for no level in front changes nothing. -/
theorem GivesAccess.cons {words : List String} {level : AccessLevel}
    (hword : word ∉ accessWords.map Prod.fst) (h : GivesAccess words level) :
    GivesAccess (word :: words) level := by
  cases h with
  | none hwords => exact .none (List.forall_mem_cons.mpr ⟨hword, hwords⟩)
  | first hfront hlevel =>
      rw [← List.cons_append]
      exact .first (List.forall_mem_cons.mpr ⟨hword, hfront⟩) hlevel

theorem accessLevel_cons_of_ne {modifiers : List Modifier}
    (h : ∀ level, modifier ≠ .access level) :
    accessLevel (modifier :: modifiers) = accessLevel modifiers := by
  cases modifier with
  | access level => exact absurd rfl (h level)
  | static => rfl
  | other word => rfl

theorem givesAccess_accessLevel (written : List WrittenModifier) :
    GivesAccess (written.map WrittenModifier.word)
      (accessLevel (written.map WrittenModifier.modifier)) := by
  induction written with
  | nil => exact .none (by simp)
  | cons w written ih =>
      rw [List.map_cons, List.map_cons]
      rcases access_of_spelled w.spelled with ⟨level, hlevel, hword⟩ | ⟨hnot, hword⟩
      · rw [hlevel]
        exact GivesAccess.first (List.forall_mem_nil _) hword
      · rw [accessLevel_cons_of_ne hnot]
        exact ih.cons hword

theorem contains_static_iff (written : List WrittenModifier) :
    (written.map WrittenModifier.modifier).contains .static = true ↔
      "static" ∈ written.map WrittenModifier.word := by
  rw [List.contains_iff_mem, List.mem_map, List.mem_map]
  exact exists_congr fun w => and_congr_right fun _ => eq_static_iff_of_spelled w.spelled

end Modifiers

/-! ### Nothing is read in front of the declaration -/

section Lead

variable {lead rest : Text}

theorem IsLead.isWord_getLast? (h : IsLead lead) : lead.getLast?.any isWord = false := by
  obtain ⟨front, blanks, rfl, hfront, hblanks⟩ := h.ends
  have hlast : ∀ c ∈ (front ++ blanks).getLast?, isWord c = false := by
    intro c hc
    rw [List.getLast?_append] at hc
    rcases Option.or_eq_some_iff.mp hc with hc | ⟨-, hc⟩
    · exact isWord_of_isBlank (hblanks c (List.mem_of_getLast? hc))
    · exact Bool.eq_false_iff.mpr fun hword =>
        Text.not_mem_of_kind hword (by decide) (hfront c hc)
  cases hc : (front ++ blanks).getLast? with
  | none => rfl
  | some c => exact hlast c hc

/-- At every place of a lead stands a blank, or the mark at its end stands there or behind. -/
theorem IsLead.exists_mark {front back : Text} {c : Char} (h : IsLead (front ++ c :: back)) :
    isBlank c = true ∨ ∃ mark ∈ c :: back, mark ∈ statementMarks := by
  obtain ⟨start, blanks, hcut, hstart, hblanks⟩ := h.ends
  rcases List.append_eq_append_iff.mp hcut with ⟨middle, rfl, hback⟩ | ⟨middle, rfl, rfl⟩
  · cases hlast : middle.getLast? with
    | none =>
        rw [List.getLast?_eq_none_iff.mp hlast, List.nil_append] at hback
        exact Or.inl (hblanks c (hback ▸ List.mem_cons_self))
    | some mark =>
        refine Or.inr ⟨mark, ?_, hstart mark ?_⟩
        · rw [hback]
          exact List.mem_append_left _ (List.mem_of_getLast? hlast)
        · rw [List.getLast?_append, hlast]
          rfl
  · exact Or.inl (hblanks c (List.mem_append_right _ List.mem_cons_self))

/-- A signature does not start in a lead. -/
theorem IsLead.silent (h : IsLead lead) (rest : Text) : signature.Silent none lead rest := by
  rintro front c back rfl
  refine Option.eq_none_iff_forall_ne_some.mpr fun ⟨found, behind⟩ hread => ?_
  obtain ⟨w, -, htext⟩ := exists_written_of_signature hread
  rcases h.exists_mark with hblank | ⟨mark, hmem, hmark⟩
  · have hstops := w.stopsAt_isBlank behind
    rw [← htext] at hstops
    exact absurd (hstops c rfl) (by simp [hblank])
  · rw [w.text_append, ← List.cons_append] at htext
    have hparen : '(' ∉ c :: back := fun hparen => h.not_mem (List.mem_append_right front hparen)
    have hfront := (Text.prefix_of_not_mem hparen htext).subset hmem
    rcases WrittenSignature.isTypeChar_or_isBlank_of_mem_front hfront with htype | hblank
    · exact Text.not_mem_of_kind htype (by decide) hmark
    · exact Text.not_mem_of_kind hblank (by decide) hmark

end Lead

/-! ### The declaration is found first -/

theorem PlainDeclaration.declares (plain : PlainDeclaration) :
    plain.toWrittenSignature.signature.declares = true := by
  have hname : isKeyword plain.name = false := by
    simpa [isKeyword] using plain.name_not_keyword
  have htype : isKeyword plain.type.type = false := by
    simpa [isKeyword] using plain.type_not_keyword
  simp [Signature.declares, WrittenSignature.signature, plain.returnType_eq, hname, htype]

/-- **A plain declaration is found, with its parts as they were written.** -/
theorem head?_methodDeclarations (plain : PlainDeclaration) {lead : Text} (hlead : IsLead lead)
    (post : Text) (lookback : Nat) :
    ∃ found, (methodDeclarations lookback (lead ++ (plain.text ++ post))).head? = some found ∧
      plain.Describes lookback lead found := by
  let behind := plain.quiet ++ '{' :: (plain.body ++ '}' :: post)
  have htext : plain.text ++ post = plain.toWrittenSignature.text ++ behind := by
    simp [PlainDeclaration.text, behind]
  have hne : plain.toWrittenSignature.text ++ behind ≠ [] := by
    simp [WrittenSignature.text_append]
  have hread := signature_written plain.toWrittenSignature plain.returnType_eq
    plain.type_not_modifier hlead.isWord_getLast? behind
  have hfirst := Pattern.head?_allMatches (hlead.silent _) hne hread
  obtain ⟨others, hothers⟩ := List.head?_eq_some_iff.mp hfirst
  let first : Match Signature := ⟨lead, plain.toWrittenSignature.signature, behind⟩
  have hfilter : (first :: others).filter (fun found => found.value.declares) =
      first :: others.filter fun found => found.value.declares :=
    List.filter_cons_of_pos plain.declares
  refine ⟨Signature.toDeclaration lookback first, ?_, ?_⟩
  · rw [htext, methodDeclarations, hothers, hfilter]
    rfl
  · exact {
      name := rfl
      access := givesAccess_accessLevel plain.modifiers
      isStatic := contains_static_iff plain.modifiers
      annotations := rfl
      body := firstBlock_of_balanced plain.no_opening plain.staysOpen plain.balanced post
      offset := rfl }

/-- A body with a block in it. -/
def findBody : Text :=
  " if (key) { load(key); } ".toList

theorem staysOpen_findBody : StaysOpen 0 findBody := by
  have hclosing : upToClosing? 0 (findBody ++ ['}']) = some findBody := by decide
  obtain ⟨-, -, hstays, -⟩ := upToClosing?_eq_some hclosing
  exact hstays

theorem isGap_of_all {gap : Text} (h : (!gap.isEmpty && gap.all isBlank) = true) :
    Text.IsGap gap := by
  rw [Bool.and_eq_true] at h
  exact ⟨by simpa using h.1, List.all_eq_true.mp h.2⟩

/-- A static method with its modifiers in an unusual order. -/
def findDeclaration : PlainDeclaration where
  modifiers := [⟨"static", .static, [' '], by decide, isGap_of_all (by decide)⟩,
    ⟨"public", .access .publicAccess, [' ', ' '], by decide, isGap_of_all (by decide)⟩]
  type := ⟨"List<Item>[]", ['\n'], ⟨by decide, List.all_eq_true.mp (by decide)⟩,
    isGap_of_all (by decide)⟩
  name := "find"
  blanks := [' ']
  arguments := "String key".toList
  isName := ⟨by decide, List.all_eq_true.mp (by decide)⟩
  areBlank := List.all_eq_true.mp (by decide)
  not_mem := by decide
  quiet := " throws Missing ".toList
  body := findBody
  type_not_keyword := by decide
  type_not_modifier := by decide
  name_not_keyword := by decide
  no_opening := by decide
  staysOpen := staysOpen_findBody
  balanced := by decide

/-- The beginning of a file, up to the first declaration. -/
def shopLead : Text :=
  "package app;\nclass Shop \x7b\n  ".toList

theorem isLead_shopLead : IsLead shopLead := by
  refine ⟨by decide, "package app;\nclass Shop \x7b".toList, "\n  ".toList, by decide, ?_,
    List.all_eq_true.mp (by decide)⟩
  have hlast : "package app;\nclass Shop \x7b".toList.getLast? = some '{' := by decide
  rw [hlast]
  intro c hc
  obtain rfl := Option.some.inj hc
  decide

theorem head?_methodDeclarations_findDeclaration :
    IsLead shopLead ∧ ∃ found,
      (methodDeclarations 200 (shopLead ++ (findDeclaration.text ++ ['}']))).head? = some found ∧
        findDeclaration.Describes 200 shopLead found :=
  ⟨isLead_shopLead, head?_methodDeclarations findDeclaration isLead_shopLead ['}'] 200⟩

end ActionCalls.Source
